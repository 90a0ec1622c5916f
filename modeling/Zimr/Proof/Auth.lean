import Zimr.Lib.Run
import Zimr.Proof.Cstr
import Zimr.Spec.Auth

/-!
# Who is let in

`readHtpasswdLoop_lines` — the table that is read has the lines of the file.
`current_file_decides` — a request passes when the file has its credentials, unless the table has them
from an older one.
-/

namespace Zimr

open Run

variable {crypt : List UInt8 → List UInt8 → List UInt8}
  {pam : List UInt8 → List UInt8 → List UInt8 → Bool} {info : AuthInfo} {req : AuthRequest}

/-! ## Reading the file -/

/-- The entry of a line. -/
def HtLine.user (l : HtLine) : AuthUser :=
  ⟨l.name ++ (if l.name.length = authFieldSize then l.hash else []), l.hash⟩

theorem HtLine.text_zero (l : HtLine) : 0 ∉ l.text := by
  intro h
  rcases List.mem_append.1 h with h | h
  · exact l.name_text.1 h
  · rcases List.mem_cons.1 h with h | h
    · cases h
    · rcases List.mem_append.1 h with h | h
      · exact l.hash_text.1 h
      · exact absurd h (by decide)

theorem HtLine.text_length (l : HtLine) : l.text.length = l.name.length + l.hash.length + 2 := by
  unfold HtLine.text
  simp only [List.length_append, List.length_cons, List.length_nil]
  omega

theorem chomp_hash (l : HtLine) : chomp (l.hash ++ [10]) = l.hash := by
  unfold chomp
  rw [List.takeWhile_append_of_pos, List.takeWhile_cons_of_neg (by decide), List.append_nil]
  intro c hc
  have h10 : c ≠ 10 := fun h => l.hash_text.2.1 (h ▸ hc)
  have h13 : c ≠ 13 := fun h => l.hash_text.2.2 (h ▸ hc)
  simp [h10, h13]

/-- The first line, as far as it fits. -/
theorem fgets_line (l : HtLine) (s : List UInt8) : fgets 256 (l.text ++ s) =
    ((l.text ++ s).take (min l.text.length 255), (l.text ++ s).drop (min l.text.length 255)) := by
  have hsplit : l.text ++ s = (l.name ++ 58 :: l.hash) ++ 10 :: s := by
    unfold HtLine.text
    simp only [List.append_assoc, List.cons_append, List.nil_append]
  have hno : 10 ∉ l.name ++ 58 :: l.hash := by
    intro h
    rcases List.mem_append.1 h with h | h
    · exact l.name_text.2.1 h
    · rcases List.mem_cons.1 h with h | h
      · cases h
      · exact l.hash_text.2.1 h
  have hfind : (l.text ++ s).findIdx? (· = 10) = some (l.name ++ 58 :: l.hash).length := by
    rw [hsplit, List.findIdx?_append, List.findIdx?_eq_none_iff.2, List.findIdx?_cons, if_pos (by simp)]
    · exact congrArg some (Nat.zero_add _)
    · intro c hc
      exact decide_eq_false fun h => hno (h ▸ hc)
  have hlen : (l.name ++ 58 :: l.hash).length + 1 = l.text.length := by
    rw [l.text_length, List.length_append, List.length_cons]
    omega
  unfold fgets
  simp only [hfind, Option.map_some, Option.getD_some, hlen]

/-- A line that is read is short enough, and makes an entry. -/
theorem readHtpasswdLoop_line {fuel : ℕ} {l : HtLine} {s : List UInt8} {users out : List AuthUser}
    (h : readHtpasswdLoop (fuel + 1) (l.text ++ s) users = .ok out) :
    readHtpasswdLoop fuel s (users ++ [l.user]) = .ok out := by
  have hne : l.text ++ s ≠ [] := by
    intro h0
    have := congrArg List.length h0
    rw [List.length_append, l.text_length] at this
    simp at this
  rw [readHtpasswdLoop, if_neg hne, fgets_line] at h
  simp only at h
  by_cases hlong : l.text.length ≤ 255
  · have hdrop : l.text.drop (l.name.length + 1) = l.hash ++ [10] := by
      have hsplit : l.text = (l.name ++ [58]) ++ (l.hash ++ [10]) := by
        unfold HtLine.text
        simp only [List.append_assoc, List.cons_append, List.nil_append]
      have hlen : l.name.length + 1 = (l.name ++ [58]).length := by rw [List.length_append]; rfl
      rw [hsplit, hlen, List.drop_left]
    have hcolon : strchr l.text 58 = some l.name.length :=
      strchr_first l.name_text.1 (by decide) l.name_text.2.2 _
    have hbuf : cstr l.text = l.text := cstr_eq_self fun c hc h0 => l.text_zero (h0 ▸ hc)
    have hname : l.text.take l.name.length = l.name := List.take_left
    rw [Nat.min_eq_left hlong, List.take_left, List.drop_left, hbuf, hcolon] at h
    simp only at h
    split at h
    · cases h
    · rw [hdrop, chomp_hash, hname] at h
      exact h
  · -- the part that fits has no room for the end of the line
    have htake : (l.text ++ s).take (min l.text.length 255) = l.text.take 255 := by
      rw [Nat.min_eq_right (by omega), List.take_append_of_le_length (by omega)]
    have hbuf : cstr (l.text.take 255) = l.text.take 255 :=
      cstr_eq_self fun c hc h0 => l.text_zero (h0 ▸ List.mem_of_mem_take hc)
    have hlen : (l.text.take 255).length = 255 := by
      rw [List.length_take]
      omega
    rw [htake, hbuf] at h
    cases hcolon : strchr (l.text.take 255) 58 with
    | none =>
      rw [hcolon] at h
      cases h
    | some n =>
      rw [hcolon] at h
      simp only [hlen] at h
      rw [if_pos] at h
      · cases h
      · unfold authFieldSize
        simp only [Bool.or_eq_true, decide_eq_true_eq]
        omega

/-- **The table that is read** has the lines of the file. -/
theorem readHtpasswdLoop_lines {lines : List HtLine} : ∀ {fuel : ℕ} {users out : List AuthUser},
    lines.length < fuel → readHtpasswdLoop fuel (lines.map HtLine.text).flatten users = .ok out →
      out = users ++ lines.map HtLine.user := by
  induction lines with
  | nil =>
    intro fuel users out hfuel h
    obtain ⟨n, rfl⟩ : ∃ n, fuel = n + 1 := ⟨fuel - 1, by simp at hfuel; omega⟩
    cases h
    exact (List.append_nil _).symm
  | cons l lines ih =>
    intro fuel users out hfuel h
    rw [List.length_cons] at hfuel
    obtain ⟨n, rfl⟩ : ∃ n, fuel = n + 1 := ⟨fuel - 1, by omega⟩
    rw [List.map_cons, List.flatten_cons] at h
    rw [ih (Nat.lt_of_succ_lt_succ hfuel) (readHtpasswdLoop_line h), List.append_assoc]
    rfl

theorem HtFile.lines_le (f : HtFile) : f.lines.length ≤ f.text.length := by
  unfold HtFile.text
  generalize f.lines = lines
  induction lines with
  | nil => exact Nat.le_refl 0
  | cons l lines ih =>
    rw [List.map_cons, List.flatten_cons, List.length_append, l.text_length, List.length_cons]
    omega

theorem readHtpasswdFile_users {f : HtFile} {users : List AuthUser}
    (h : readHtpasswdFile (some (f.text, f.mtime)) = .ok users) : users = f.lines.map HtLine.user :=
  readHtpasswdLoop_lines (Nat.lt_succ_of_le f.lines_le) h

/-! ## A request -/

theorem notAuth_passes (h : notAuth info req = .ok .passes) : startswith req.url info.url = false := by
  unfold notAuth at h
  split at h
  · obtain ⟨hs, -, hs'⟩ := map_inv h
    cases hs'
  · rename_i hs
    exact Bool.eq_false_iff.2 hs

/-- Without credentials the request is refused. -/
theorem refused {σ σ' : AuthState} {a : AuthAnswer} {T Q : Prop}
    (hc : ((notAuth info req).bind fun a => .ok (σ, a)) = .ok (σ', a)) :
    σ' = σ ∧ (a = .passes → T → startswith req.url info.url = true → Q) := by
  obtain ⟨b, hb, hc⟩ := bind_inv hc
  cases hc
  refine ⟨rfl, ?_⟩
  rintro rfl - hs
  rw [notAuth_passes hb] at hs
  cases hs

/-- **What `modzimr_connection_new` can do** with the table: it stays, or the file is read again. -/
theorem connectionNew_cases {file : Option (List UInt8 × ℕ)} {σ σ' : AuthState} {a : AuthAnswer}
    (hc : modzimrConnectionNew crypt pam info file σ req = .ok (σ', a)) :
    (σ' = σ ∧ (a = .passes → info.type = .htpasswd → startswith req.url info.url = true →
      ∃ user pass, req.credentials = .ok (some (user, pass)) ∧
        authUsersHave crypt σ.users user pass = true)) ∨
    ∃ text mtime user pass, file = some (text, mtime) ∧ σ.mtime ≠ mtime ∧ σ'.mtime = mtime ∧
      readHtpasswdFile file = .ok σ'.users ∧ req.credentials = .ok (some (user, pass)) ∧
      (a = .passes → info.type = .htpasswd → startswith req.url info.url = true →
        authUsersHave crypt σ'.users user pass = true) := by
  unfold modzimrConnectionNew at hc
  unfold AuthRequest.credentials
  cases hget : headersGetHeader req.headers (ascii "Authorization") with
  | none =>
    rw [hget] at hc
    exact Or.inl (refused hc)
  | some header =>
    rw [hget] at hc
    obtain ⟨found, hfound, hc⟩ := bind_inv hc
    simp only [hfound]
    cases found with
    | none => exact Or.inl (refused hc)
    | some cred =>
      obtain ⟨user, pass⟩ := cred
      cases ht : info.type with
      | pam =>
        rw [ht] at hc
        simp only at hc
        split at hc
        · cases hc
          exact Or.inl ⟨rfl, fun _ h => by cases h⟩
        · exact Or.inl (refused hc)
      | htpasswd =>
        rw [ht] at hc
        simp only at hc
        split at hc
        · rename_i hhave
          cases hc
          exact Or.inl ⟨rfl, fun _ _ _ => ⟨user, pass, rfl, hhave⟩⟩
        unfold htpasswdFileWasModified at hc
        cases file with
        | none => exact Or.inl (refused hc)
        | some f =>
          obtain ⟨text, mtime⟩ := f
          simp only at hc
          by_cases hm : σ.mtime = mtime
          · rw [if_pos hm] at hc
            exact Or.inl (refused hc)
          · -- the file is read again
            rw [if_neg hm] at hc
            obtain ⟨users, hread, hc⟩ := bind_inv hc
            right
            refine ⟨text, mtime, user, pass, rfl, hm, ?_⟩
            split at hc
            · rename_i hhave
              cases hc
              exact ⟨rfl, hread, rfl, fun _ _ _ => hhave⟩
            · obtain ⟨rfl, hno⟩ := refused hc
              exact ⟨rfl, hread, rfl, hno⟩

/-! ## Runs -/

namespace AuthWorld

variable {w w' : AuthWorld} {a : AuthAnswer}

/-- The table has the lines of the file that was read. -/
def Read (w : AuthWorld) : Prop :=
  w.auth.users = (w.seen.map fun f => f.lines.map HtLine.user).getD []

/-- A request leaves the table, or reads the file. -/
theorem request_cases (hc : w.request crypt pam info req = .ok (w', a)) :
    (w' = w ∧ (a = .passes → info.type = .htpasswd → startswith req.url info.url = true →
      ∃ user pass, req.credentials = .ok (some (user, pass)) ∧
        authUsersHave crypt w.auth.users user pass = true)) ∨
    ∃ f user pass, w.file = some f ∧ w'.file = some f ∧ w'.seen = some f ∧ w'.Read ∧
      req.credentials = .ok (some (user, pass)) ∧
      (a = .passes → info.type = .htpasswd → startswith req.url info.url = true →
        authUsersHave crypt w'.auth.users user pass = true) := by
  obtain ⟨⟨σ, b⟩, hnew, hc⟩ := bind_inv hc
  cases hc
  obtain ⟨rfl, hpass⟩ | ⟨text, mtime, user, pass, hfile, hm, hm', hread, hcred, hpass⟩ :=
    connectionNew_cases hnew
  · left
    rw [if_pos rfl]
    exact ⟨rfl, hpass⟩
  · obtain ⟨f, hf, hft⟩ := Option.map_eq_some_iff.1 hfile
    obtain ⟨rfl, rfl⟩ := Prod.mk.inj hft
    rw [hfile] at hread
    refine Or.inr ⟨f, user, pass, hf, hf, ?_, ?_, hcred, hpass⟩
    · rw [if_neg (by rw [hm']; exact Ne.symm hm)]
      exact hf
    · unfold Read
      rw [if_neg (by rw [hm']; exact Ne.symm hm), hf]
      exact readHtpasswdFile_users hread

theorem Read.step {act : AuthAct} (h : w.Read) (hs : w.step crypt pam info act = .ok w') : w'.Read := by
  cases act with
  | edit file =>
    cases hs
    exact h
  | request req =>
    obtain ⟨⟨w₁, a⟩, hreq, rfl⟩ := map_inv hs
    obtain ⟨rfl, -⟩ | ⟨f, user, pass, -, -, -, hread, -⟩ := request_cases hreq
    · exact h
    · exact hread

theorem Read.run {acts : List AuthAct} (hrun : run (AuthWorld.step crypt pam info) init acts = .ok w) :
    w.Read :=
  run_inv (fun _ _ _ hI _ hs => Read.step hI hs) acts init w (show init.Read from rfl)
    (Along.of_forall (P := fun _ => True) fun _ _ => trivial) hrun

/-- An entry of the table is a line of the file it was read from. -/
theorem Read.line {f : HtFile} {user pass : List UInt8} (h : w.Read) (hseen : w.seen = some f)
    (hfull : ∀ l ∈ f.lines, l.name.length ≠ authFieldSize)
    (hhave : authUsersHave crypt w.auth.users user pass = true) :
    ∃ l ∈ f.lines, l.name = user ∧ l.hash = crypt pass l.hash := by
  unfold authUsersHave at hhave
  rw [h, hseen] at hhave
  obtain ⟨u, hu, hmatch⟩ := List.any_eq_true.1 hhave
  obtain ⟨l, hl, rfl⟩ := List.mem_map.1 ((List.takeWhile_sublist _).subset hu)
  simp only [Bool.and_eq_true, decide_eq_true_eq, HtLine.user, if_neg (hfull l hl),
    List.append_nil] at hmatch
  exact ⟨l, hl, hmatch⟩

end AuthWorld

/-- **The current file decides**: in every run of edits and requests, a request for a protected URL that
passes has its credentials in the file, unless the table has them from an older one. -/
theorem current_file_decides (crypt : List UInt8 → List UInt8 → List UInt8)
    (pam : List UInt8 → List UInt8 → List UInt8 → Bool) (info : AuthInfo) (acts : List AuthAct)
    (w : AuthWorld) (hrun : run (AuthWorld.step crypt pam info) AuthWorld.init acts = .ok w)
    (req : AuthRequest) (ht : info.type = .htpasswd) (hurl : startswith req.url info.url = true)
    (hcur : w.Current crypt req) (w' : AuthWorld)
    (hpass : w.request crypt pam info req = .ok (w', .passes)) : w.Accepts crypt req := by
  obtain ⟨hcur, hfull⟩ := hcur
  have hread := AuthWorld.Read.run hrun
  obtain ⟨rfl, hhave⟩ | ⟨f, user, pass, hf, -, hseen, hread', hcred, hhave⟩ := AuthWorld.request_cases hpass
  · obtain ⟨user, pass, hcred, hhave⟩ := hhave rfl ht hurl
    rcases hcur with hsame | hno
    · cases hseen : w'.seen with
      | none =>
        -- nothing was read yet
        unfold AuthWorld.Read at hread
        rw [hseen] at hread
        rw [hread] at hhave
        cases hhave
      | some f =>
        have hf : w'.file = some f := by rw [← hsame, hseen]
        exact ⟨user, pass, f, hcred, hf, hread.line hseen (hfull f hf) hhave⟩
    · rw [hno user pass hcred] at hhave
      cases hhave
  · exact ⟨user, pass, f, hcred, hf, hread'.line hseen (hfull f hf) (hhave rfl ht hurl)⟩

/-! ## An edit between two requests -/

/-- The file that an act leaves. -/
def AuthAct.file : AuthAct → Option HtFile
  | .edit file => file
  | .request _ => none

/-- The files are short, and each has a modification time of its own. -/
structure Dated (acts : List AuthAct) : Prop where
  fresh : ((acts.filterMap AuthAct.file).map HtFile.mtime).Nodup
  after : ∀ f ∈ acts.filterMap AuthAct.file, f.mtime ≠ 0
  few : ∀ f ∈ acts.filterMap AuthAct.file, f.lines.length < authUsersMax

theorem a_line_name : 0 ∉ ascii "a" ∧ 10 ∉ ascii "a" ∧ 58 ∉ ascii "a" := by decide

theorem a_line_hash : 0 ∉ ascii "aba/A2/wC9TVk" ∧ 10 ∉ ascii "aba/A2/wC9TVk" ∧
    13 ∉ ascii "aba/A2/wC9TVk" := by decide

/-- The user `a` with the password `b`. -/
def aLine : HtLine := ⟨ascii "a", ascii "aba/A2/wC9TVk", a_line_name, a_line_hash⟩

/-- What `crypt` says of that password. -/
def bCrypt (pass salt : List UInt8) : List UInt8 :=
  if pass = ascii "b" ∧ salt = ascii "aba/A2/wC9TVk" then ascii "aba/A2/wC9TVk" else ascii "*0"

def privateInfo : AuthInfo := ⟨.htpasswd, ascii "private", ascii ".htpasswd"⟩

/-- A request with `a:b`. -/
def abRequest : AuthRequest :=
  ⟨ascii "private/x", [⟨ascii "Authorization", ascii "Basic YTpi"⟩], []⟩

def noPam (_ _ _ : List UInt8) : Bool := false

theorem current_file_decides_one : ∃ w w', run (AuthWorld.step bCrypt noPam privateInfo) AuthWorld.init
      [.edit (some ⟨[aLine], 1⟩)] = .ok w ∧
    w.request bCrypt noPam privateInfo abRequest = .ok (w', .passes) ∧ w.Accepts bCrypt abRequest := by
  refine ⟨_, _, rfl, rfl, ?_⟩
  refine current_file_decides bCrypt noPam privateInfo [.edit (some ⟨[aLine], 1⟩)] _ rfl abRequest rfl
    (by decide) ⟨Or.inr ?_, ?_⟩ _ rfl
  · intro user pass _
    rfl
  · rintro f ⟨⟩ l hl
    obtain rfl := List.mem_singleton.1 hl
    decide

/-- The user is taken out of the file after a request has passed. -/
def editedRun : List AuthAct :=
  [.edit (some ⟨[aLine], 1⟩), .request abRequest, .edit (some ⟨[], 2⟩)]

/-- The table still has the user. -/
theorem edit_ignored : ¬∀ (crypt : List UInt8 → List UInt8 → List UInt8)
    (pam : List UInt8 → List UInt8 → List UInt8 → Bool) (info : AuthInfo) (acts : List AuthAct)
    (w : AuthWorld), Dated acts → run (AuthWorld.step crypt pam info) AuthWorld.init acts = .ok w →
      ∀ req : AuthRequest, info.type = .htpasswd → startswith req.url info.url = true →
        ∀ w', w.request crypt pam info req = .ok (w', .passes) → w.Accepts crypt req := by
  intro h
  obtain ⟨w, w', hrun, hpass, hfile⟩ : ∃ w w',
      run (AuthWorld.step bCrypt noPam privateInfo) AuthWorld.init editedRun = .ok w ∧
      w.request bCrypt noPam privateInfo abRequest = .ok (w', .passes) ∧ w.file = some ⟨[], 2⟩ :=
    ⟨_, _, rfl, rfl, rfl⟩
  obtain ⟨user, pass, f, -, hf, l, hl, -⟩ := h bCrypt noPam privateInfo editedRun w
    ⟨by decide, by decide, by decide⟩ hrun abRequest rfl (by decide) w' hpass
  rw [hfile] at hf
  cases hf
  exact List.not_mem_nil hl

end Zimr
