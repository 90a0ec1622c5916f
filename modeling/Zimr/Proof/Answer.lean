import Zimr.Proof.HeaderBytes
import Zimr.Spec.Page

/-!
# The answer for a file

What `zimr_connection_default_page_handler` answers is known before it is called: the status, the
headers that are set and the part of the file (`pageAnswer`). `page_eq` says that this is what is
sent, and `HeadRoom` when it is.

* `pageAnswer_read` — which part of the file is sent, and that none is when the client has it
* `fresh_room_iff` — from the headers that a connection starts with, and without cookies, only the
  line of the log may not fit
-/

namespace Zimr

open Run

variable {env : ServeEnv} {reply reply' : Reply} {request hs hs' : Headers} {name : String}
  {value : List UInt8} {file : PageFile}

theorem intOf_small {n : ℤ} (h₀ : 0 ≤ n) (h₁ : n < 2147483648) : intOf n = n := by
  unfold intOf
  omega

/-! ## Headers that are not there yet -/

/-- Those of the headers that there are none of. -/
def absent (hs : Headers) (sets : List (List UInt8 × List UInt8)) : List (List UInt8 × List UInt8) :=
  sets.filter fun s => (headersGetHeader hs s.1).isNone

theorem absent_of_other {sets : List (List UInt8 × List UInt8)}
    (h : ∀ s ∈ sets, headersGetHeader hs' s.1 = headersGetHeader hs s.1) :
    absent hs' sets = absent hs sets :=
  List.filter_congr fun s hs => by rw [h s hs]

/-- These are set. -/
def Reply.setAbsent (reply : Reply) (sets : List (List UInt8 × List UInt8)) :
    Except BufFault Reply :=
  (run setStep reply.headers (absent reply.headers sets)).map fun headers => { reply with headers }

/-- One after the other: what is set does not bring one of the others. -/
theorem setAbsent_cons {sets : List (List UInt8 × List UInt8)}
    (hne : ∀ s ∈ sets, keyOf s.1 ≠ keyOf (ascii name)) :
    reply.setAbsent ((ascii name, value) :: sets) =
      (reply.default name value).bind fun r => r.setAbsent sets := by
  unfold Reply.setAbsent Reply.default
  cases hget : headersGetHeader reply.headers (ascii name) with
  | some h =>
    unfold absent
    rw [List.filter_cons_of_neg (by simp [hget])]
    rfl
  | none =>
    have hcons : absent reply.headers ((ascii name, value) :: sets) =
        (ascii name, value) :: absent reply.headers sets :=
      List.filter_cons_of_pos (by simp [hget])
    rw [hcons]
    unfold Reply.set
    simp only [run, setStep, Option.isSome_none, Bool.false_eq_true, if_false]
    cases hset : headersSetHeader reply.headers (ascii name) value with
    | error e => rfl
    | ok t =>
      have hsame : absent t sets = absent reply.headers sets :=
        absent_of_other fun s hs => headersSetHeader_other (hne s hs) hset
      show Except.map _ (run setStep t (absent reply.headers sets)) =
        Except.map _ (run setStep t (absent t sets))
      rw [hsame]

/-- The value of a header. -/
def valueOf (hs : Headers) (name : String) : Option (List UInt8) :=
  (headersGetHeader hs (ascii name)).map (·.value)

/-- The headers that a reply with a file gets, unless it has them. -/
def fileSets (file : PageFile) : List (List UInt8 × List UInt8) :=
  [(ascii "Content-Type", file.mimeType), (ascii "Accept-Ranges", ascii "bytes"),
    (ascii "Last-Modified", file.mtime), (ascii "ETag", file.etag)]

/-- The names that are set for a file are different. -/
theorem fileNames_different : (([ascii "Content-Type", ascii "Accept-Ranges", ascii "Last-Modified",
    ascii "ETag", ascii "Content-Range", ascii "Content-Length", ascii "Date", ascii "Server"] :
      List (List UInt8)).Pairwise fun n n' => keyOf n' ≠ keyOf n) := by
  decide

theorem fixedNames_different : (([ascii "Content-Type", ascii "Accept-Ranges", ascii "Last-Modified",
    ascii "ETag"] : List (List UInt8)).Pairwise fun n n' => keyOf n' ≠ keyOf n) := by
  decide

/-- The headers that do not depend on the request. -/
theorem pageHeaders_eq (reply : Reply) (file : PageFile) :
    pageHeaders reply file = reply.setAbsent (fileSets file) := by
  have h₁ := fixedNames_different
  simp only [List.pairwise_cons] at h₁
  obtain ⟨h₁, h₂, h₃, -⟩ := h₁
  unfold fileSets pageHeaders
  -- the handler looks for each of them after the ones before are set, `absent` before all of them
  rw [setAbsent_cons (by simpa using h₁)]
  show Except.bind _ _ = Except.bind _ _
  congr 1
  funext r₁
  rw [setAbsent_cons (by simpa using h₂)]
  show Except.bind _ _ = Except.bind _ _
  congr 1
  funext r₂
  rw [setAbsent_cons (by simpa using h₃)]
  show Except.bind _ _ = Except.bind _ _
  congr 1
  funext r₃
  rw [setAbsent_cons (by simp)]
  cases r₃.default "ETag" file.etag with
  | error e => rfl
  | ok r₄ => rfl

/-- With them, each of the headers has a value: its own, or the new one. -/
theorem setAbsent_value {sets : List (List UInt8 × List UInt8)} (hdiff : Different sets)
    (hplain : ∀ s ∈ sets, PlainSet s) (h : reply.setAbsent sets = .ok reply')
    (hmem : (ascii name, value) ∈ sets) :
    valueOf reply'.headers name = some ((valueOf reply.headers name).getD value) := by
  obtain ⟨t, hrun, rfl⟩ := map_inv h
  have hsub : (absent reply.headers sets).Sublist sets := List.filter_sublist
  show valueOf t name = _
  unfold valueOf
  cases hget : headersGetHeader reply.headers (ascii name) with
  | none =>
    have hin : (ascii name, value) ∈ absent reply.headers sets :=
      List.mem_filter.2 ⟨hmem, by simp [hget]⟩
    rw [run_sets_get _ _ (fun s hs => hplain s (hsub.subset hs)) (hdiff.sublist hsub) hrun _ hin]
    rfl
  | some h =>
    -- it is not among those that are set
    have hout : ∀ s ∈ absent reply.headers sets, keyOf (ascii name) ≠ keyOf s.1 := by
      intro s hs hkey
      obtain ⟨-, hnone⟩ := List.mem_filter.1 hs
      have hsame : headersGetHeader reply.headers s.1 = headersGetHeader reply.headers (ascii name) :=
        congrArg (fun k => reply.headers.find? fun h : Header => decide (h.name = k)) hkey.symm
      rw [hsame, hget] at hnone
      cases hnone
    rw [run_sets_other _ _ hout hrun, hget]
    rfl

/-! ## What depends on the request -/

/-- The client wants no copy that it has (`Cache-Control`). -/
def wantsAgain (request : Headers) : Bool :=
  ((valueOf request "Cache-Control").map fun v =>
    (strstr v (ascii "max-age=0")).isSome || (strstr v (ascii "no-cache")).isSome).getD false

/-- The client has the file that the reply describes, and does not ask for a new copy. -/
def CopyGood (request : Headers) (mtime etag : List UInt8) : Prop :=
  wantsAgain request = false ∧ valueOf request "If-Modified-Since" = some mtime ∧
    valueOf request "If-None-Match" = some etag

instance (request : Headers) (mtime etag : List UInt8) : Decidable (CopyGood request mtime etag) :=
  inferInstanceAs (Decidable (_ ∧ _ ∧ _))

theorem notModified_iff (request : Headers) {hs : Headers} {mtime etag : List UInt8}
    (hm : valueOf hs "Last-Modified" = some mtime) (he : valueOf hs "ETag" = some etag) :
    notModified request hs = true ↔ CopyGood request mtime etag := by
  unfold valueOf at hm he
  simp only [CopyGood, notModified, wantsAgain, valueOf, hm, he, Bool.and_eq_true, decide_eq_true_eq]
  -- the source says that neither is there, `wantsAgain` that one of them is
  have hc : ((headersGetHeader request (ascii "Cache-Control")).map (·.value)).map (fun v =>
        (strstr v (ascii "max-age=0")).isNone && (strstr v (ascii "no-cache")).isNone) =
      (((headersGetHeader request (ascii "Cache-Control")).map (·.value)).map fun v =>
        (strstr v (ascii "max-age=0")).isSome || (strstr v (ascii "no-cache")).isSome).map not := by
    cases headersGetHeader request (ascii "Cache-Control") with
    | none => rfl
    | some h =>
      cases hm : strstr h.value (ascii "max-age=0") <;>
        cases hn : strstr h.value (ascii "no-cache") <;> simp [hm, hn]
  rw [hc]
  generalize (((headersGetHeader request (ascii "Cache-Control")).map (·.value)).map fun v =>
    (strstr v (ascii "max-age=0")).isSome || (strstr v (ascii "no-cache")).isSome) = c
  generalize (headersGetHeader request (ascii "If-Modified-Since")).map (·.value) = ims
  generalize (headersGetHeader request (ascii "If-None-Match")).map (·.value) = inm
  have hsome : ∀ {o : Option (List UInt8)} {v : List UInt8}, o = some v → o.isSome = true :=
    fun h => by rw [h]; rfl
  constructor
  · rintro ⟨⟨⟨⟨h₁, -⟩, h₂⟩, -⟩, h₃⟩
    refine ⟨?_, h₂, h₃⟩
    cases c with
    | none => rfl
    | some b => simpa using h₁
  · rintro ⟨h₁, h₂, h₃⟩
    refine ⟨⟨⟨⟨?_, hsome h₂⟩, h₂⟩, hsome h₃⟩, h₃⟩
    cases c with
    | none => rfl
    | some b => simpa using h₁

/-- The two numbers of the `Range`, if they lie inside of the file. -/
def rangeTaken (request : Headers) (size : ℤ) : Option (ℤ × ℤ) :=
  (headersGetHeader request (ascii "Range")).bind fun range =>
    let stop := (headersHeaderRangeParse range).2
    let stop := if stop = -1 then size else stop
    if 0 ≤ (headersHeaderRangeParse range).1 ∧ stop ≤ size ∧
        (headersHeaderRangeParse range).1 ≤ stop then
      some ((headersHeaderRangeParse range).1, stop) else none

/-- The part of a file that is sent: the range, or else the whole file. -/
def filePart (request : Headers) (size : ℤ) : ℤ × ℤ := (rangeTaken request size).getD (0, size)

/-- The header for a range. -/
def rangeSets (size : ℤ) : Option (ℤ × ℤ) → List (List UInt8 × List UInt8)
  | none => []
  | some (start, stop) => [(ascii "Content-Range", ascii "bytes " ++ intText start ++ ascii "-" ++
      intText stop ++ ascii "/" ++ intText size)]

/-- What is answered: the status, the headers that are set, and the part of the file. -/
structure PageAnswer where
  code : ℕ
  sets : List (List UInt8 × List UInt8)
  read : Option FileRead

/-- The client is told that it has the file, if the time and the tag are those of the reply;
otherwise it gets the part it asks for. -/
def pageAnswer (request : Headers) (reply : Reply) (file : PageFile) : PageAnswer :=
  let sets := absent reply.headers (fileSets file)
  let size := intOf file.content.length
  if CopyGood request ((valueOf reply.headers "Last-Modified").getD file.mtime)
      ((valueOf reply.headers "ETag").getD file.etag) then
    { code := 304, sets := sets ++ [(ascii "Content-Length", intText 0)], read := none }
  else
    let part := filePart request size
    { code := if (headersGetHeader request (ascii "Range")).isSome then 206 else reply.httpStatus
      sets := sets ++ (rangeSets size (rangeTaken request size) ++
        [(ascii "Content-Length", intText (part.2 - part.1))])
      read := some ⟨file.content, part.1.toNat, part.1, part.2⟩ }

/-! ## This is what is sent -/

theorem fileSets_plain (file : PageFile) : ∀ s ∈ fileSets file, PlainSet s := by
  have hmime := file.mime_short
  have hmtime := file.mtime_short
  have hetag := file.etag_length
  have hmax : headerValueMaxLen = 2048 := rfl
  have hbytes : (ascii "bytes").length = 5 := by decide
  simp only [fileSets, List.forall_mem_cons]
  refine ⟨plainSet (by decide) ?_, plainSet (by decide) ?_, plainSet (by decide) ?_,
    plainSet (by decide) ?_, fun s hs => (List.not_mem_nil hs).elim⟩
  all_goals omega

theorem fileSets_different (file : PageFile) : Different (fileSets file) :=
  different_of_names _ rfl fixedNames_different

/-- The header for a range is set, and the numbers are those of the range or of the file. -/
theorem pageRange_eq (request : Headers) (reply : Reply) (size : ℤ) :
    pageRange request reply size =
      (run setStep reply.headers (rangeSets size (rangeTaken request size))).map fun headers =>
        ({ reply with
            headers
            httpStatus := if (headersGetHeader request (ascii "Range")).isSome then 206
              else reply.httpStatus },
          filePart request size) := by
  unfold pageRange filePart rangeTaken
  cases headersGetHeader request (ascii "Range") with
  | none => rfl
  | some range =>
    simp only [Option.bind_some, Option.isSome_some, if_true]
    generalize (headersHeaderRangeParse range).1 = start
    generalize (if (headersHeaderRangeParse range).2 = -1 then size
      else (headersHeaderRangeParse range).2) = stop
    by_cases hin : 0 ≤ start ∧ stop ≤ size ∧ start ≤ stop
    · simp only [if_pos hin, Reply.set, rangeSets, run, setStep, Option.getD_some]
      cases headersSetHeader reply.headers (ascii "Content-Range") (ascii "bytes " ++ intText start ++
        ascii "-" ++ intText stop ++ ascii "/" ++ intText size) <;> rfl
    · simp only [if_neg hin]
      rfl

/-- An answer for which one header is set. -/
theorem headWith_single (env : ServeEnv) (reply : Reply) (code : ℕ) (n : String)
    (value : List UInt8) : headWith env reply code [(ascii n, value)] =
      (({ reply with httpStatus := code } : Reply).set n value).bind fun r => sendHead env r := by
  unfold headWith Reply.set
  simp only [run, setStep]
  cases headersSetHeader reply.headers (ascii n) value <;> rfl

/-- Without a body, when there is a `Content-Type`. -/
theorem sendNothing_eq (env : ServeEnv) (reply : Reply)
    (htype : (headersGetHeader reply.headers (ascii "Content-Type")).isSome) :
    zimrConnectionSend env { reply with httpStatus := 304 } [] =
      (headWith env reply 304 [(ascii "Content-Length", intText 0)]).map fun r =>
        (r.1, r.2 ++ [[]]) := by
  rw [headWith_single]
  unfold zimrConnectionSend Reply.default
  rw [if_pos htype]
  have hzero : intText (([] : List UInt8).length : ℕ) = intText 0 := rfl
  simp only [bind, Except.bind, hzero]
  cases ({ reply with httpStatus := 304 } : Reply).set "Content-Length" (intText 0) with
  | error e => rfl
  | ok r =>
    simp only
    cases sendHead env r <;> rfl

/-- The part of a file. -/
theorem sendPart_eq (env : ServeEnv) (reply : Reply) (content : List UInt8) (size : ℤ) :
    (do
      let (reply, rangeStart, rangeEnd) ← pageRange env.request reply size
      let reply ← reply.set "Content-Length" (intText (rangeEnd - rangeStart))
      let (reply, head) ← sendHead env reply
      return (reply, head, some (⟨content, rangeStart.toNat, rangeStart, rangeEnd⟩ : FileRead))) =
    (headWith env reply
      (if (headersGetHeader env.request (ascii "Range")).isSome then 206 else reply.httpStatus)
      (rangeSets size (rangeTaken env.request size) ++ [(ascii "Content-Length",
        intText ((filePart env.request size).2 - (filePart env.request size).1))])).map fun r =>
        (r.1, r.2, some ⟨content, (filePart env.request size).1.toNat, (filePart env.request size).1,
          (filePart env.request size).2⟩) := by
  rw [pageRange_eq, headWith_append]
  simp only [bind]
  cases run setStep reply.headers (rangeSets size (rangeTaken env.request size)) with
  | error e => rfl
  | ok t =>
    simp only [Except.map, Except.bind, headWith_single]
    generalize intText _ = length
    generalize (if (headersGetHeader env.request (ascii "Range")).isSome = true then 206
      else reply.httpStatus) = code
    cases ({ reply with headers := t, httpStatus := code } : Reply).set "Content-Length" length with
    | error e => rfl
    | ok r =>
      simp only
      cases sendHead env r <;> rfl

/-- **What the page handler sends** for a file. -/
theorem page_eq (env : ServeEnv) (reply : Reply) (ignored : List UInt8 → Bool) (file : PageFile) :
    zimrDefaultPageHandler env reply ignored (.file file true) =
      (headWith env reply (pageAnswer env.request reply file).code
        (pageAnswer env.request reply file).sets).map fun r =>
          (r.1, r.2 ++ (if (pageAnswer env.request reply file).read.isSome then [] else [[]]),
            (pageAnswer env.request reply file).read) := by
  have hsplit : ∀ code sets, headWith env reply code (absent reply.headers (fileSets file) ++ sets) =
      (reply.setAbsent (fileSets file)).bind fun r => headWith env r code sets := by
    intro code sets
    rw [headWith_append]
    unfold Reply.setAbsent
    cases run setStep reply.headers (absent reply.headers (fileSets file)) <;> rfl
  show Except.bind _ _ = _
  rw [pageHeaders_eq]
  cases hset : reply.setAbsent (fileSets file) with
  | error e =>
    rw [hset] at hsplit
    unfold pageAnswer
    dsimp only
    split <;> (rw [hsplit]; rfl)
  | ok r₁ =>
    rw [hset] at hsplit
    have hvalue {n : String} {v : List UInt8} (hmem : (ascii n, v) ∈ fileSets file) :=
      setAbsent_value (fileSets_different file) (fileSets_plain file) hset hmem
    have htime := hvalue (n := "Last-Modified") (v := file.mtime) (by simp [fileSets])
    have htag := hvalue (n := "ETag") (v := file.etag) (by simp [fileSets])
    have htype : (headersGetHeader r₁.headers (ascii "Content-Type")).isSome := by
      have hmime := hvalue (n := "Content-Type") (v := file.mimeType) (by simp [fileSets])
      rw [← Option.isSome_map (f := Header.value)]
      exact Option.isSome_of_eq_some hmime
    -- the test reads the time and the tag from the reply, where they are by now
    have hiff := notModified_iff env.request htime htag
    have hstatus : r₁.httpStatus = reply.httpStatus := by
      obtain ⟨t, -, rfl⟩ := map_inv hset
      rfl
    by_cases hgood : CopyGood env.request ((valueOf reply.headers "Last-Modified").getD file.mtime)
        ((valueOf reply.headers "ETag").getD file.etag)
    · have ha : pageAnswer env.request reply file = { code := 304, sets := _, read := none } :=
        if_pos hgood
      rw [ha]
      dsimp only
      rw [hsplit]
      simp only [Except.bind, if_pos (hiff.2 hgood), sendNothing_eq env r₁ htype, bind]
      cases headWith env r₁ 304 [(ascii "Content-Length", intText 0)] <;> rfl
    · have ha : pageAnswer env.request reply file = { code := _, sets := _, read := some _ } :=
        if_neg hgood
      rw [ha]
      dsimp only
      rw [hsplit]
      simp only [Except.bind, if_neg (hiff.not.2 hgood), Option.isSome_some, if_true, List.append_nil]
      exact (sendPart_eq env r₁ file.content (intOf file.content.length)).trans (by rw [hstatus])

/-! ## What the answer is like -/

/-- **The part that is sent lies inside of the file**, whatever the request asks for. -/
theorem rangeTaken_inside {size s e : ℤ} (h : rangeTaken request size = some (s, e)) :
    0 ≤ s ∧ s ≤ e ∧ e ≤ size := by
  obtain ⟨range, -, h⟩ := Option.bind_eq_some_iff.1 h
  dsimp only at h
  generalize (headersHeaderRangeParse range).1 = start at h
  generalize (if (headersHeaderRangeParse range).2 = -1 then size
    else (headersHeaderRangeParse range).2) = stop at h
  split at h
  · rename_i hin
    cases h
    exact ⟨hin.1, hin.2.2, hin.2.1⟩
  · cases h

theorem filePart_inside {size : ℤ} (h : 0 ≤ size) : 0 ≤ (filePart request size).1 ∧
    (filePart request size).1 ≤ (filePart request size).2 ∧ (filePart request size).2 ≤ size := by
  unfold filePart
  cases hr : rangeTaken request size with
  | none => exact ⟨Int.le_refl 0, h, Int.le_refl size⟩
  | some range => exact rangeTaken_inside hr

/-- **What is read**: a part of the file, and its length is announced; nothing when the client has
the file. -/
theorem pageAnswer_read (request : Headers) (reply : Reply) (file : PageFile) :
    ((pageAnswer request reply file).read = none ↔
      CopyGood request ((valueOf reply.headers "Last-Modified").getD file.mtime)
        ((valueOf reply.headers "ETag").getD file.etag)) ∧
    ((pageAnswer request reply file).read = none →
      (pageAnswer request reply file).code = 304 ∧
        (ascii "Content-Length", intText 0) ∈ (pageAnswer request reply file).sets) ∧
    ∀ f, (pageAnswer request reply file).read = some f →
      f.content = file.content ∧ f.pos = f.rangeStart.toNat ∧
      (f.rangeStart, f.rangeEnd) = filePart request (intOf file.content.length) ∧
      (pageAnswer request reply file).code =
        (if (headersGetHeader request (ascii "Range")).isSome then 206 else reply.httpStatus) ∧
      (∀ s ∈ rangeSets (intOf file.content.length)
        (rangeTaken request (intOf file.content.length)),
          s ∈ (pageAnswer request reply file).sets) ∧
      (ascii "Content-Length", intText (f.rangeEnd - f.rangeStart)) ∈
        (pageAnswer request reply file).sets := by
  unfold pageAnswer
  dsimp only
  split
  · rename_i hgood
    refine ⟨⟨fun _ => hgood, fun _ => rfl⟩, fun _ => ⟨rfl, ?_⟩, fun f hf => by cases hf⟩
    exact List.mem_append_right _ List.mem_cons_self
  · rename_i hnot
    refine ⟨⟨fun h => (by cases h), fun h => absurd h hnot⟩, fun h => (by cases h), fun f hf => ?_⟩
    cases hf
    refine ⟨rfl, rfl, rfl, rfl, fun s hs => ?_, ?_⟩
    · exact List.mem_append_right _ (List.mem_append_left _ hs)
    · exact List.mem_append_right _ (List.mem_append_right _ List.mem_cons_self)

theorem intText_length {n : ℤ} (h₀ : -10000000000 < n) (h₁ : n < 10000000000) :
    (intText n).length ≤ 11 := by
  have hpow : Nat.pow 10 10 = 10000000000 := rfl
  have hlen {k : ℕ} (hk : k < 10000000000) : (decText k).length ≤ 10 := by
    rw [decText_length (by omega), hpow]
    exact hk
  unfold intText
  split
  · have hneg := hlen (k := n.natAbs) (by omega)
    rw [List.length_cons]
    omega
  · have hpos := hlen (k := n.toNat) (by omega)
    omega

theorem intOf_range (n : ℤ) : -2147483648 ≤ intOf n ∧ intOf n < 2147483648 := by
  unfold intOf
  omega

/-- The header for a range is a short one. -/
theorem rangeSets_short {size : ℤ} (hsize : size < 2147483648) :
    (rangeSets size (rangeTaken request size)).length ≤ 1 ∧
      ∀ s ∈ rangeSets size (rangeTaken request size),
        s.1 = ascii "Content-Range" ∧ s.2.length ≤ 41 := by
  cases hr : rangeTaken request size with
  | none => exact ⟨Nat.zero_le 1, fun s hs => (List.not_mem_nil hs).elim⟩
  | some range =>
    refine ⟨Nat.le_refl 1, fun s hs => ?_⟩
    obtain ⟨start, stop⟩ := range
    obtain ⟨h₀, h₁, h₂⟩ := rangeTaken_inside hr
    have ha : (ascii "bytes ").length = 6 ∧ (ascii "-").length = 1 ∧ (ascii "/").length = 1 := by
      decide
    obtain ⟨ha₁, ha₂, ha₃⟩ := ha
    have hstart := intText_length (n := start) (by omega) (by omega)
    have hstop := intText_length (n := stop) (by omega) (by omega)
    have hlast := intText_length (n := size) (by omega) (by omega)
    rw [List.mem_singleton.1 hs]
    refine ⟨rfl, ?_⟩
    simp only [List.length_append, ha₁, ha₂, ha₃]
    omega

/-- The headers that are set for a file, of which some may be missing. -/
theorem pageAnswer_sets (request : Headers) (reply : Reply) (file : PageFile) :
    ∃ ranges length, (∀ s ∈ ranges, s.1 = ascii "Content-Range" ∧ s.2.length ≤ 41) ∧
      ranges.length ≤ 1 ∧ length.length ≤ 11 ∧
      (pageAnswer request reply file).sets =
        absent reply.headers (fileSets file) ++ (ranges ++ [(ascii "Content-Length", length)]) := by
  have hsize := intOf_range file.content.length
  obtain ⟨hone, hshort⟩ := @rangeSets_short request _ hsize.2
  unfold pageAnswer
  dsimp only
  split
  · exact ⟨[], intText 0, fun s hs => (List.not_mem_nil hs).elim, Nat.zero_le 1,
      intText_length (by omega) (by omega), rfl⟩
  · refine ⟨_, _, hshort, hone, ?_, rfl⟩
    unfold filePart
    cases hr : rangeTaken request (intOf file.content.length) with
    | none =>
      show (intText (intOf file.content.length - 0)).length ≤ 11
      exact intText_length (by omega) (by omega)
    | some range =>
      obtain ⟨h₀, h₁, h₂⟩ := rangeTaken_inside hr
      show (intText (range.2 - range.1)).length ≤ 11
      exact intText_length (by omega) (by omega)

/-- They have different names, and fit into their entries. -/
theorem pageAnswer_plain (env : ServeEnv) (request : Headers) (reply : Reply) (file : PageFile) :
    (∀ s ∈ (pageAnswer request reply file).sets ++ headSets env, PlainSet s) ∧
      Different ((pageAnswer request reply file).sets ++ headSets env) := by
  obtain ⟨ranges, length, hranges, hone, hlength, hsets⟩ := pageAnswer_sets request reply file
  have hmax : headerValueMaxLen = 2048 := rfl
  have hsub : (absent reply.headers (fileSets file)).Sublist (fileSets file) := List.filter_sublist
  rw [hsets]
  refine ⟨fun s hs => ?_, ?_⟩
  · simp only [List.mem_append, List.mem_singleton] at hs
    rcases hs with (hs | hs | rfl) | hs
    · exact fileSets_plain file s (hsub.subset hs)
    · obtain ⟨hname, hvalue⟩ := hranges s hs
      refine ⟨?_, ?_, by omega⟩
      · rw [hname]
        decide
      · rw [hname]
        decide
    · exact plainSet (by decide) (by omega)
    · exact headSets_plain env s hs
  · -- the names are some of eight different ones
    unfold Different
    rw [← List.pairwise_map (f := Prod.fst) (R := fun n n' => keyOf n' ≠ keyOf n)]
    refine fileNames_different.sublist ?_
    simp only [List.map_append, List.append_assoc]
    refine (hsub.map Prod.fst).append ?_
    show (ranges.map Prod.fst ++ _).Sublist ([ascii "Content-Range"] ++ _)
    refine List.Sublist.append ?_ (List.Sublist.refl _)
    match ranges, hone with
    | [], _ => exact List.nil_sublist _
    | [s], _ =>
      rw [List.map_singleton, (hranges s List.mem_cons_self).1]

/-! ## The room for it -/

theorem missingAll_le (hs : Headers) (sets : List (List UInt8 × List UInt8)) :
    missingAll hs sets ≤ sets.length := by
  induction sets with
  | nil => exact Nat.zero_le 0
  | cons s sets ih =>
    have hone : missing hs s.1 ≤ 1 := by
      unfold missing
      split <;> omega
    rw [missingAll, List.length_cons]
    omega

theorem newBytes_append (sets sets' : List (List UInt8 × List UInt8)) :
    newBytes (sets ++ sets') = newBytes sets + newBytes sets' := by
  induction sets with
  | nil => exact (Nat.zero_add _).symm
  | cons s sets ih =>
    rw [List.cons_append, newBytes, newBytes, ih]
    omega

theorem newBytes_sublist {sets sets' : List (List UInt8 × List UInt8)} (h : sets.Sublist sets') :
    newBytes sets ≤ newBytes sets' := by
  induction h with
  | slnil => exact Nat.le_refl _
  | cons s _ ih =>
    rw [newBytes]
    omega
  | cons_cons s _ ih =>
    rw [newBytes, newBytes]
    omega

/-- The statuses that a file is sent with. -/
theorem pageStatus (c : ℕ) (hc : c = 200 ∨ c = 206 ∨ c = 304) :
    (∃ s, responseStatus c = some s ∧ s.length < 40) ∧ (decText c).length = 3 := by
  rcases hc with rfl | rfl | rfl
  · exact ⟨⟨ascii "200 OK", by decide, by decide⟩, by decide⟩
  · exact ⟨⟨ascii "206 Partial Content", by decide, by decide⟩, by decide⟩
  · exact ⟨⟨ascii "304 Not Modified", by decide, by decide⟩, by decide⟩

theorem pageAnswer_code (request : Headers) (version : List UInt8) (file : PageFile) :
    (pageAnswer request (freshReply version) file).code = 200 ∨
      (pageAnswer request (freshReply version) file).code = 206 ∨
      (pageAnswer request (freshReply version) file).code = 304 := by
  unfold pageAnswer
  dsimp only
  split
  · exact Or.inr (Or.inr rfl)
  · split
    · exact Or.inr (Or.inl rfl)
    · exact Or.inl rfl

/-- How many headers are set, and the bytes that they take. -/
theorem pageAnswer_bytes (request : Headers) (reply : Reply) (env : ServeEnv) (file : PageFile) :
    newBytes ((pageAnswer request reply file).sets ++ headSets env) ≤ 700 ∧
      ((pageAnswer request reply file).sets ++ headSets env).length ≤ 8 := by
  obtain ⟨ranges, length, hranges, hone, hlength, hsets⟩ := pageAnswer_sets request reply file
  have hsub : (absent reply.headers (fileSets file)).Sublist (fileSets file) := List.filter_sublist
  have hfile := newBytes_sublist hsub
  have hfour := hsub.length_le
  have hmime := file.mime_short
  have hmtime := file.mtime_short
  have hetag := file.etag_length
  have hnow := env.now_short
  have hversion := env.version_short
  have hnames : (keyOf (ascii "Content-Type")).length = 12 ∧
      (keyOf (ascii "Accept-Ranges")).length = 13 ∧ (keyOf (ascii "Last-Modified")).length = 13 ∧
      (keyOf (ascii "ETag")).length = 4 ∧ (keyOf (ascii "Content-Range")).length = 13 ∧
      (keyOf (ascii "Content-Length")).length = 14 ∧ (keyOf (ascii "Date")).length = 4 ∧
      (keyOf (ascii "Server")).length = 6 ∧ (ascii "bytes").length = 5 ∧
      (ascii "Zimr/").length = 5 := by decide
  obtain ⟨k₁, k₂, k₃, k₄, k₅, k₆, k₇, k₈, hb, hz⟩ := hnames
  have hrange : newBytes ranges ≤ 58 := by
    match ranges, hone with
    | [], _ => exact Nat.zero_le _
    | [s], _ =>
      obtain ⟨hname, hvalue⟩ := hranges s List.mem_cons_self
      simp only [newBytes, hname, k₅]
      omega
  rw [hsets]
  simp only [newBytes_append, fileSets, headSets, newBytes, k₁, k₂, k₃, k₄, k₆, k₇, k₈, hb,
    List.length_append, hz, List.length_cons, List.length_nil] at hfile hfour ⊢
  omega

/-- **From the headers that a connection starts with, and without cookies, a file is sent** unless
its line of the log does not fit. -/
theorem fresh_room_iff (hck : env.cookies = []) {version : List UInt8} (hv : version.length ≤ 3)
    (file : PageFile) :
    HeadRoom env (freshReply version) (pageAnswer env.request (freshReply version) file).code
      (pageAnswer env.request (freshReply version) file).sets ↔ env.logBytes 200 < 1024 := by
  obtain ⟨⟨status, hstatus, hshort⟩, hthree⟩ := pageStatus _ (pageAnswer_code env.request version file)
  obtain ⟨hbytes, hlen⟩ := pageAnswer_bytes env.request (freshReply version) env file
  -- the line is as long for each of the statuses, which have three digits
  have hlog : env.logBytes (pageAnswer env.request (freshReply version) file).code =
      env.logBytes 200 := by
    unfold ServeEnv.logBytes
    rw [hthree, (pageStatus 200 (Or.inl rfl)).2]
  refine ⟨fun h => hlog ▸ h.log, fun h => ⟨⟨status, hstatus, ?_⟩, ⟨Or.inr ?_, ?_⟩, ?_, hlog ▸ h⟩⟩
  · show version.length + status.length + 8 < 100
    omega
  · have hmiss := missingAll_le (freshReply version).headers
      ((pageAnswer env.request (freshReply version) file).sets ++ headSets env)
    rw [hck]
    show 2 + (_ + 0) ≤ 32
    omega
  · rw [hck]
    decide
  · have hfresh : headersSize [⟨ascii "Date", []⟩, ⟨ascii "Server", []⟩] = 18 := by decide
    unfold textBytes
    rw [hck]
    show headersSize [⟨ascii "Date", []⟩, ⟨ascii "Server", []⟩] + _ - _ + 0 + 2 < 1024
    rw [hfresh]
    omega

end Zimr
