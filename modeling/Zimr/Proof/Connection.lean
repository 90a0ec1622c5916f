import Zimr.Lib.Run
import Zimr.Proof.Path
import Zimr.Spec.Connection

/-!
# The url of a request stays below the public directory

`connection_create` cuts the website's path off by its length, after `url_decode` and
`normalize_path` have changed what stands there. `no_traversal_iff` says when a segment `..` can
begin at the cut; behind it there is none, whatever was asked for.
-/

namespace Zimr

open Run

variable {kept : List (List UInt8)} {path s : List UInt8} {off : ℕ}

/-! ## Strings in a buffer -/

theorem cstr_drop : ∀ (i : ℕ) (u : List UInt8), i ≤ (cstr u).length →
    cstr (u.drop i) = (cstr u).drop i := by
  intro i
  induction i with
  | zero => intro u _; rfl
  | succ i ih =>
    intro u h
    cases u with
    | nil => rfl
    | cons c u =>
      by_cases hc : c = 0
      · subst hc
        simp [cstr] at h
      · have he : cstr (c :: u) = c :: cstr u := List.takeWhile_cons_of_pos (by simpa using hc)
        rw [he] at h ⊢
        exact ih u (Nat.le_of_succ_le_succ h)

/-- The path of a website is what `connection_create` skips. -/
theorem Website.leading_eq (w : Website) : w.leading = (cstr w.path).length := by
  unfold Website.leading Website.path pathStart
  cases h : strchr w.url 47 with
  | none => simp [cstr]
  | some i =>
    have hlt : i < (cstr w.url).length := by
      unfold strchr at h
      exact (List.findIdx?_eq_some_iff_getElem.1 h).1
    simp only [Option.getD_some]
    rw [cstr_drop i _ (Nat.le_of_lt hlt), List.length_drop]

/-- A character of a buffer is the first one of the string that starts there. -/
theorem getD_eq_iff {buf : List UInt8} {c : UInt8} (hc : c ≠ 0) :
    buf.getD off 0 = c ↔ (cstr (buf.drop off)).head? = some c := by
  have hd : buf.getD off 0 = (buf.drop off).headD 0 := by
    rw [List.getD_eq_getElem?_getD, List.headD_eq_head?_getD, List.head?_drop]
  rw [hd]
  cases buf.drop off with
  | nil => simp [cstr, hc.symm]
  | cons x u =>
    by_cases hx : x = 0
    · subst hx
      simp [cstr, hc.symm]
    · simp [cstr, hx]

/-- The string one character further. -/
theorem cstr_drop_succ {buf : List UInt8} {c : UInt8} (hc : c ≠ 0) (h : buf.getD off 0 = c) :
    cstr (buf.drop (off + 1)) = (cstr (buf.drop off)).tail := by
  have hh := (getD_eq_iff hc).1 h
  have hne : 1 ≤ (cstr (buf.drop off)).length := by
    cases hs : cstr (buf.drop off) with
    | nil => rw [hs] at hh; cases hh
    | cons x u => simp
  rw [← List.drop_drop, cstr_drop 1 _ hne, List.drop_one]

/-! ## A cut through the parts of a canonical path -/

/-- What is left behind some bytes starts within a part. -/
theorem drop_flatten (off : ℕ) : ∀ kept : List (List UInt8), kept.flatten.drop off = [] ∨
    ∃ front seg back j, kept = front ++ seg :: back ∧ j < seg.length ∧
      kept.flatten.drop off = seg.drop j ++ back.flatten := by
  intro kept
  induction kept generalizing off with
  | nil => exact Or.inl (by simp)
  | cons seg kept ih =>
    rw [List.flatten_cons, List.drop_append]
    by_cases hlt : off < seg.length
    · refine Or.inr ⟨[], seg, kept, off, rfl, hlt, ?_⟩
      rw [Nat.sub_eq_zero_of_le (Nat.le_of_lt hlt), List.drop_zero]
    · rw [List.drop_eq_nil_of_le (Nat.le_of_not_lt hlt), List.nil_append]
      obtain h | ⟨front, seg', back, j, rfl, hj, h⟩ := ih (off - seg.length)
      · exact Or.inl h
      · exact Or.inr ⟨seg :: front, seg', back, j, rfl, hj, h⟩

/-- A part of a canonical path ends with its `/`, or it is the last one. -/
theorem Parts.part {front back : List (List UInt8)} {seg : List UInt8}
    (h : Parts (front ++ seg :: back)) :
    Parts back ∧ (Slashed seg ∨ back = [] ∧ ∀ c ∈ seg, c ≠ 47) := by
  obtain h | ⟨init, last, he, hf, hne, hl⟩ := h
  · exact ⟨Or.inl fun x hx => h x (by simp [hx]), Or.inl (h seg (by simp))⟩
  · obtain rfl | ⟨back', b, rfl⟩ := back.eq_nil_or_concat
    · obtain ⟨rfl, hs⟩ := List.append_inj' he rfl
      cases hs
      exact ⟨Or.inl (by simp), Or.inr ⟨rfl, hl⟩⟩
    · rw [List.concat_eq_append, ← List.cons_append, ← List.append_assoc] at he
      obtain ⟨rfl, hb⟩ := List.append_inj' he rfl
      cases hb
      refine ⟨Or.inr ⟨back', last, List.concat_eq_append, fun x hx => hf x (by simp [hx]), hne, hl⟩,
        Or.inl (hf seg (by simp))⟩

/-- What follows a part of a canonical path names something inside. -/
theorem inside_back {front back : List (List UInt8)} {seg : List UInt8}
    (hp : Parts (front ++ seg :: back)) (hk : Proper (front ++ seg :: back)) : Inside back.flatten := by
  have hsegs := hp.part.1.segments
  refine ⟨fun x hx => ?_, ?_⟩
  · rw [hsegs] at hx
    exact (hk.dots x (by simp [hx])).2
  · cases back with
    | nil => simp
    | cons b back =>
      -- only the first part of all may have an empty name
      have hb : segName b ≠ [] := fun hn => by
        have := hk.empty (front.length + 1) b (by simp) hn
        omega
      cases b with
      | nil => exact absurd rfl hb
      | cons x b =>
        intro hx
        simp only [List.flatten_cons, List.cons_append, List.head?_cons, Option.some.injEq] at hx
        subst hx
        exact hb rfl

/-- The text that `request.url` points to: a `/` in front is skipped. -/
def skipSlash (s : List UInt8) : List UInt8 := if s.head? = some 47 then s.tail else s

/-- A text whose segments but the first are no `..`. -/
theorem inside_first_iff {name rest x : List UInt8} {segs : List (List UInt8)} (hne : name ≠ [])
    (hn : ∀ c ∈ name, c ≠ 47) (hs : segments (name ++ rest) = x :: segs) (hx : segName x = name)
    (hsegs : ∀ y ∈ segs, segName y ≠ [46, 46]) :
    Inside (skipSlash (name ++ rest)) ↔ name ≠ [46, 46] := by
  have hhead : (name ++ rest).head? ≠ some 47 := by
    cases name with
    | nil => exact absurd rfl hne
    | cons c name =>
      intro hc
      exact hn c List.mem_cons_self (Option.some.inj hc)
  unfold skipSlash
  rw [if_neg hhead]
  constructor
  · intro hi
    have := hi.dotdot x (by rw [hs]; exact List.mem_cons_self)
    rwa [hx] at this
  · intro hd
    refine ⟨fun y hy => ?_, hhead⟩
    rw [hs] at hy
    rcases List.mem_cons.1 hy with rfl | hy
    · rwa [hx]
    · exact hsegs y hy

/-- **A cut through a canonical path**: only the first segment behind it can be `..`. -/
theorem inside_cut_iff (hp : Parts kept) (hk : Proper kept) (off : ℕ) :
    Inside (skipSlash (kept.flatten.drop off)) ↔ segName (kept.flatten.drop off) ≠ [46, 46] := by
  obtain h | ⟨front, seg, back, j, rfl, hj, h⟩ := drop_flatten off kept
  · rw [h]
    exact ⟨fun _ => by decide, fun _ => ⟨by simp [skipSlash, segments], by simp [skipSlash]⟩⟩
  rw [h]
  have hback := inside_back hp hk
  obtain ⟨-, ⟨name, rfl, hn⟩ | ⟨rfl, hn⟩⟩ := hp.part
  · -- the part ends with a `/`
    rw [List.length_append, List.length_singleton] at hj
    have hj : j ≤ name.length := Nat.le_of_lt_succ hj
    rw [List.drop_append_of_le_length hj, List.append_assoc, List.singleton_append]
    have hn' : ∀ c ∈ name.drop j, c ≠ 47 := fun c hc => hn c (List.mem_of_mem_drop hc)
    have hseg : segName (name.drop j ++ 47 :: back.flatten) = name.drop j := by
      unfold segName
      rw [List.takeWhile_append_of_pos fun c hc => by simpa using hn' c hc]
      simp
    rw [hseg]
    by_cases hne : name.drop j = []
    · rw [hne]
      exact ⟨fun _ => by decide, fun _ => hback⟩
    · have hs := segments_slash hn' back.flatten
      exact inside_first_iff hne hn' hs (segName_slash hn') hback.dotdot
  · -- the last part
    have hn' : ∀ c ∈ seg.drop j, c ≠ 47 := fun c hc => hn c (List.mem_of_mem_drop hc)
    have hne : seg.drop j ≠ [] := by
      intro he
      have := List.drop_eq_nil_iff.1 he
      omega
    have hs := segments_name hn' hne
    rw [List.flatten_nil, segName_name (by rw [List.append_nil]; exact hn')]
    rw [← List.append_nil (seg.drop j)] at hs
    have := inside_first_iff hne hn' hs (by rw [List.append_nil]; exact segName_name hn') (by simp)
    rwa [List.append_nil] at this ⊢

/-! ## What is left behind the website's path -/

/-- It is nothing, or a cut through a canonical path. -/
theorem leftBehind_cut (off : ℕ) : ∀ (path left : List UInt8) (kept : List (List UInt8)),
    (∀ seg ∈ kept, Slashed seg) → Proper kept →
    (∃ k, Parts k ∧ Proper k ∧ left = k.flatten.drop off) →
    ∃ k, Parts k ∧ Proper k ∧ leftBehind off left kept (segments path) = k.flatten.drop off := by
  intro path
  induction path using path_induction with
  | nil => intro left kept _ _ hl; exact hl
  | step seg rest h ih =>
    intro left kept hs hp hl
    rw [h.segments, leftBehind]
    have hp' := hp.keep seg
    have hnew : Parts (keep kept seg) → ∃ k, Parts k ∧ Proper k ∧
        (if off ≤ (keep kept seg).flatten.length then (keep kept seg).flatten.drop off else left) =
          k.flatten.drop off := by
      intro hparts
      split
      · exact ⟨_, hparts, hp', rfl⟩
      · exact hl
    obtain hslash | ⟨rfl, hne, hseg⟩ := h
    · have hs' : ∀ x ∈ keep kept seg, Slashed x := fun x hx => by
        rcases mem_keep hx with hx | rfl
        · exact hs x hx
        · exact hslash
      exact ih _ _ hs' hp' (hnew (Or.inl hs'))
    · refine hnew ?_
      obtain he | he | ⟨he, -⟩ := keep_cases kept seg
      · rw [he]; exact Or.inl hs
      · rw [he]; exact Or.inl fun x hx => hs x (List.mem_of_mem_dropLast hx)
      · rw [he]; exact Or.inr ⟨kept, seg, rfl, hs, hne, hseg⟩

/-- No canonical path starts with `../`, so the loop after `normalize_path` ends at once. -/
theorem stripDotdot_eq {fullUrl : List UInt8} (fuel : ℕ) (h : canonicalPath path ++ [0] <+: fullUrl) :
    stripDotdot fuel fullUrl = fullUrl := by
  cases fuel with
  | zero => rfl
  | succ fuel =>
    unfold stripDotdot
    rw [if_neg]
    intro hd
    rw [startswith_iff, show ascii "../" = [46, 46, 47] by decide] at hd
    obtain hpre | hpre := List.prefix_or_prefix_of_prefix hd h
    · -- the canonical path would have a first segment `..`
      obtain ⟨t, ht⟩ := hpre
      obtain rfl | ⟨t, b, rfl⟩ := t.eq_nil_or_concat
      · have : ([46, 46] ++ [47] : List UInt8) = canonicalPath path ++ [0] := by simpa using ht
        have := (List.append_inj' this rfl).2
        revert this
        decide
      · rw [List.concat_eq_append, ← List.append_assoc] at ht
        have hcan : canonicalPath path = [46, 46] ++ 47 :: t := (List.append_inj' ht rfl).1.symm
        have hseg := canonicalPath_segments path
        rw [hcan, segments_slash (by decide +kernel)] at hseg
        have := ((keptParts_spec path).2.dots ([46, 46] ++ [47])
          (by rw [← hseg]; exact List.mem_cons_self)).2
        exact this (by decide)
    · have : (0 : UInt8) ∈ ([46, 46, 47] : List UInt8) := hpre.subset (by simp)
      revert this
      decide

/-- **The url of a request.** -/
theorem connectionUrl_text {w : Website} {raw fullUrl : List UInt8} {len url : ℕ}
    (h : connectionUrl w raw len = .ok (fullUrl, url)) :
    cstr (fullUrl.drop url) = skipSlash (leftBehind (cstr w.path).length [] []
      (segments (cstr (urlDecode raw len)))) := by
  unfold connectionUrl at h
  simp only at h
  split at h
  · cases h
  split at h
  · cases h
  rename_i buf hbuf
  have hsh : Shallow (cstr (urlDecode raw len)) :=
    (normalize_inside_iff (List.replicate pathMax 0) _).1 (by rw [hbuf]; rfl)
  obtain ⟨buf', hb, htext, hleft⟩ := (normalizePath_eq (List.replicate pathMax 0) _).1 hsh
  obtain rfl := Option.some.inj (hbuf.symm.trans hb)
  rw [stripDotdot_eq pathMax htext] at h
  split at h
  · cases h
  obtain ⟨rfl, rfl⟩ := Prod.mk.inj (Except.ok.inj h)
  -- the buffer held zeros
  have hzero : cstr ((store (List.replicate pathMax 0) 0 [0]).drop w.leading) = [] := by
    have hrep (n : ℕ) : store (List.replicate (n + 1) 0) 0 [0] = List.replicate (n + 1) 0 := by
      simp [store, List.replicate_succ]
    rw [show pathMax = 4095 + 1 from rfl, hrep, List.drop_replicate]
    cases 4095 + 1 - w.leading <;> rfl
  have hl := hleft w.leading
  rw [hzero, w.leading_eq] at hl
  rw [← hl, ← w.leading_eq]
  have h47 : (47 : UInt8) ≠ 0 := by decide
  unfold skipSlash
  split
  · rename_i hs
    rw [if_pos ((getD_eq_iff h47).1 hs), cstr_drop_succ h47 hs]
  · rename_i hs
    rw [if_neg fun hc => hs ((getD_eq_iff h47).2 hc)]

/-- What `connection_create` has taken a url from. -/
theorem connectionCreate_url {w : Website} {sockfd : ℕ} {raw : List UInt8} {c : Connection}
    (h : connectionCreate w sockfd raw = .ok (some c)) :
    ∃ type text tmp ptr, requestText raw = .ok (some (type, text)) ∧ targetEnd text = some (tmp, ptr) ∧
      connectionUrl w text ptr = .ok (c.fullUrl, c.url) := by
  obtain ⟨found, htext, h⟩ := bind_inv h
  split at h
  · cases h
  rename_i type text
  split at h
  · cases h
  rename_i tmp ptr hend
  obtain ⟨⟨fullUrl, url⟩, hurl, h⟩ := bind_inv h
  simp only at h
  obtain ⟨qs, -, h⟩ := bind_inv h
  split at h
  · cases h
  split at h
  · cases h
  cases h
  exact ⟨type, text, tmp, ptr, htext, hend, hurl⟩

/-- What is left of a raw target: decoded, made canonical, and without the website's path. -/
def urlOf (w : Website) (target : List UInt8) : List UInt8 :=
  skipSlash (leftBehind (cstr w.path).length [] []
    (segments (cstr (urlDecode target target.length))))

/-- `request.url` of a request. -/
theorem urlText_eq {w : Website} {text : List UInt8} {ptr : ℕ} {c : Connection}
    (hurl : connectionUrl w text ptr = .ok (c.fullUrl, c.url)) :
    c.urlText = urlOf w ((cstr text).take ptr) := by
  -- the target has no NUL
  have htarget : urlDecode ((cstr text).take ptr) ((cstr text).take ptr).length = urlDecode text ptr := by
    unfold urlDecode
    rw [cstr_eq_self fun x hx => cstr_ne_zero (List.mem_of_mem_take hx), List.take_length]
  unfold Connection.urlText urlOf
  rw [connectionUrl_text hurl, htarget]

/-- **No traversal, as long as the text behind the website's path does not begin with `..`**: for
every request that is accepted, the url has no segment `..` and no `/` in front if and only if the
target is clear. -/
theorem no_traversal_iff (w : Website) (sockfd : ℕ) (raw : List UInt8) (c : Connection)
    (h : connectionCreate w sockfd raw = .ok (some c)) :
    ∃ target, rawTarget raw = some target ∧ (Inside c.urlText ↔ w.Clear target) := by
  obtain ⟨type, text, tmp, ptr, htext, hend, hurl⟩ := connectionCreate_url h
  refine ⟨(cstr text).take ptr, ?_, ?_⟩
  · unfold rawTarget
    rw [htext]
    show (targetEnd text).bind _ = _
    rw [hend]
    rfl
  rw [urlText_eq hurl]
  unfold urlOf Website.Clear
  generalize cstr (urlDecode ((cstr text).take ptr) ((cstr text).take ptr).length) = path
  obtain ⟨kept, hp, hk, he⟩ := leftBehind_cut (cstr w.path).length path [] []
    (by simp) proper_nil ⟨[], Or.inl (by simp), proper_nil, by simp⟩
  rw [he]
  exact inside_cut_iff hp hk _

theorem leftBehind_zero : ∀ (segs kept : List (List UInt8)),
    leftBehind 0 kept.flatten kept segs = (segs.foldl keep kept).flatten := by
  intro segs
  induction segs with
  | nil => intro kept; rfl
  | cons seg segs ih =>
    intro kept
    rw [leftBehind, if_pos (Nat.zero_le _), List.drop_zero]
    exact ih (keep kept seg)

/-- With no path of the website to cut off, every target is clear. -/
theorem clear_of_no_path {w : Website} (hw : w.path = []) (target : List UInt8) : w.Clear target := by
  unfold Website.Clear
  rw [hw, show (cstr []).length = 0 from rfl]
  rw [show ([] : List UInt8) = ([] : List (List UInt8)).flatten from rfl, leftBehind_zero]
  obtain ⟨hp, hk⟩ := keptParts_spec (cstr (urlDecode target target.length))
  unfold keptParts at hp hk
  generalize List.foldl keep [] (segments (cstr (urlDecode target target.length))) = kept at hp hk ⊢
  cases kept with
  | nil => decide
  | cons seg back =>
    have hdots := (hk.dots seg List.mem_cons_self).2
    rw [List.flatten_cons]
    obtain ⟨-, ⟨name, rfl, hn⟩ | ⟨rfl, hn⟩⟩ := @Parts.part [] back seg hp
    · rw [segName_slash hn] at hdots
      unfold segName
      rw [List.append_assoc, List.takeWhile_append_of_pos fun c hc => by simpa using hn c hc]
      simpa using hdots
    · rwa [List.flatten_nil, List.append_nil]

/-- **A website without a path is safe.** -/
theorem inside_of_no_path {w : Website} {sockfd : ℕ} {raw : List UInt8} {c : Connection}
    (h : connectionCreate w sockfd raw = .ok (some c)) (hw : w.path = []) : Inside c.urlText := by
  obtain ⟨target, -, hiff⟩ := no_traversal_iff w sockfd raw c h
  exact hiff.2 (clear_of_no_path hw target)

/-- A request for a target, from 127.0.0.1. -/
def getRequest (target : String) : List UInt8 :=
  [127, 0, 0, 1, 0] ++ ascii ("GET " ++ target ++ " HTTP/1.0\r\n\r\n")

/-- A website with a path. -/
def testSite : Website := ⟨ascii "http://example.com/test", 3, ascii "0.0.0.0", 5⟩

theorem no_traversal_page :
    ∃ c, connectionCreate testSite 7 (getRequest "/test/a/../b") = .ok (some c) ∧ Inside c.urlText := by
  have hn : ((connectionCreate testSite 7 (getRequest "/test/a/../b")).toOption.join.map fun _ =>
      (rawTarget (getRequest "/test/a/../b")).map (fun t => decide (testSite.Clear t))) =
      some (some true) := by decide
  cases h : connectionCreate testSite 7 (getRequest "/test/a/../b") with
  | error e => rw [h] at hn; cases hn
  | ok res =>
    rw [h] at hn
    cases res with
    | none => cases hn
    | some c =>
      refine ⟨c, rfl, ?_⟩
      obtain ⟨target, ht, hiff⟩ := no_traversal_iff testSite 7 (getRequest "/test/a/../b") c h
      rw [ht] at hn
      exact hiff.2 (of_decide_eq_true (Option.some.inj (Option.some.inj hn)))

/-- `/test../x` is below `/test`, and what is left of it is `../x`. -/
theorem traverses : ∃ c target, connectionCreate testSite 7 (getRequest "/test../x") = .ok (some c) ∧
    rawTarget (getRequest "/test../x") = some target ∧ startswith target testSite.path = true ∧
    c.urlText = ascii "../x" ∧ ¬Inside c.urlText := by
  have hn : ((connectionCreate testSite 7 (getRequest "/test../x")).toOption.join.map fun c =>
      ((rawTarget (getRequest "/test../x")).map (fun t => startswith t testSite.path), c.urlText)) =
      some (some true, ascii "../x") := by decide
  cases h : connectionCreate testSite 7 (getRequest "/test../x") with
  | error e => rw [h] at hn; cases hn
  | ok res =>
    rw [h] at hn
    cases res with
    | none => cases hn
    | some c =>
      obtain ⟨htarget, htext⟩ := Prod.mk.inj (Option.some.inj hn)
      obtain ⟨target, ht, hs⟩ := Option.map_eq_some_iff.1 htarget
      refine ⟨c, target, rfl, ht, hs, htext, fun hi => ?_⟩
      rw [htext] at hi
      exact hi.dotdot [46, 46, 47] (by decide) (by decide)

end Zimr
