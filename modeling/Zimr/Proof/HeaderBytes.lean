import Zimr.Lib.Run
import Zimr.Proof.HeaderMap
import Zimr.Proof.Reply

/-!
# The headers of a response, counted

`run_sets_iff` and `run_sets_bytes` say when headers with different names can be set one after the
other, and how long the text becomes; `setAndCookies_iff` and `setAndCookies_text` say it for the
headers of a whole response. An answer is sent (`headWith`) when there is room for its head, and
for its line in the log (`HeadRoom`).
-/

namespace Zimr

open Run

variable {hs hs' : Headers} {reply : Reply} {env : ServeEnv} {name name' value : List UInt8}

/-! ## One header -/

/-- The bytes that a header takes in the text, if it is there. -/
def headerBytes (hs : Headers) (name : List UInt8) : ℕ :=
  ((headersGetHeader hs name).map fun h => h.name.length + h.value.length + 4).getD 0

/-- A header that is set needs an entry of the table, if there is none for it. -/
def missing (hs : Headers) (name : List UInt8) : ℕ :=
  if (headersGetHeader hs name).isSome then 0 else 1

/-- A value that is written over gives its bytes back. -/
theorem setValue_headersSize (hs : Headers) (h : (hs.any fun h => h.name = name) = true) :
    headersSize (setValue name value hs) +
        (((hs.find? fun h => h.name = name).map fun h => h.name.length + h.value.length + 4).getD 0) =
      headersSize hs + (name.length + value.length + 4) := by
  induction hs with
  | nil => cases h
  | cons x xs ih =>
    rw [setValue]
    by_cases hx : x.name = name
    · rw [if_pos hx, List.find?_cons_of_pos (by simpa using hx)]
      simp only [headersSize, Option.map_some, Option.getD_some, hx]
      omega
    · have hxs : (xs.any fun h => h.name = name) = true := by
        rw [List.any_cons] at h
        simpa [hx] using h
      have := ih hxs
      rw [if_neg hx, List.find?_cons_of_neg (by simpa using hx)]
      simp only [headersSize]
      omega

theorem any_of_isSome : (headersGetHeader hs name).isSome = hs.any fun h => h.name = keyOf name := by
  unfold headersGetHeader
  rw [List.isSome_find?]

/-- **What `headers_set_header` does to the table and to the text**, for a header that there is
only one of. -/
theorem headersSetHeader_bytes (hck : keyOf name ≠ ascii "Set-Cookie")
    (h : headersSetHeader hs name value = .ok hs') :
    hs'.length = hs.length + missing hs name ∧
      headersSize hs' + headerBytes hs name =
        headersSize hs + ((keyOf name).length + value.length + 4) := by
  unfold missing headerBytes
  rw [any_of_isSome]
  rcases headersSetHeader_cases h with ⟨rfl, hany⟩ | ⟨rfl, hnew⟩
  · rw [if_pos hany, setValue_length]
    exact ⟨rfl, setValue_headersSize hs hany⟩
  · have hno := hnew.resolve_right hck
    have hnone : headersGetHeader hs name = none := by
      rw [← Option.not_isSome_iff_eq_none, any_of_isSome, hno]
      exact Bool.false_ne_true
    rw [hno, if_neg Bool.false_ne_true, hnone, headersSize_append]
    exact ⟨List.length_append, rfl⟩

/-- It fails for a long value, and when the table is full and the header not in it. -/
theorem headersSetHeader_ok_iff (hs : Headers) (hck : keyOf name ≠ ascii "Set-Cookie")
    (hn : (keyOf name).length < headerNameMaxLen) (hv : value.length < headerValueMaxLen) :
    (∃ hs', headersSetHeader hs name value = .ok hs') ↔
      (missing hs name = 0 ∨ hs.length + missing hs name ≤ headersMaxNum) := by
  unfold headersSetHeader missing
  rw [any_of_isSome]
  simp only
  rw [if_neg (Nat.not_le.2 hv)]
  by_cases hany : (hs.any fun h => h.name = keyOf name) = true
  · rw [if_pos hany, if_pos]
    · exact ⟨fun _ => Or.inl rfl, fun _ => ⟨_, rfl⟩⟩
    · rw [Bool.and_eq_true]
      exact ⟨hany, decide_eq_true hck⟩
  · rw [if_neg hany, if_neg fun h => hany (Bool.and_eq_true _ _ ▸ h).1]
    by_cases hfull : headersMaxNum ≤ hs.length
    · rw [if_pos (Or.inl hfull)]
      refine ⟨fun h => ?_, fun h => by omega⟩
      obtain ⟨hs', h⟩ := h
      cases h
    · rw [if_neg (not_or.2 ⟨hfull, Nat.not_le.2 hn⟩)]
      exact ⟨fun _ => by omega, fun _ => ⟨_, rfl⟩⟩

theorem missing_other (hne : keyOf name' ≠ keyOf name)
    (h : headersSetHeader hs name value = .ok hs') : missing hs' name' = missing hs name' := by
  unfold missing
  rw [headersSetHeader_other hne h]

theorem headerBytes_other (hne : keyOf name' ≠ keyOf name)
    (h : headersSetHeader hs name value = .ok hs') : headerBytes hs' name' = headerBytes hs name' := by
  unfold headerBytes
  rw [headersSetHeader_other hne h]

/-! ## Headers with different names -/

/-- A header that there is only one of, and that fits into its entry. -/
structure PlainSet (s : List UInt8 × List UInt8) : Prop where
  single : keyOf s.1 ≠ ascii "Set-Cookie"
  name : (keyOf s.1).length < headerNameMaxLen
  value : s.2.length < headerValueMaxLen

/-- How many of the headers are not there yet. -/
def missingAll (hs : Headers) : List (List UInt8 × List UInt8) → ℕ
  | [] => 0
  | s :: sets => missing hs s.1 + missingAll hs sets

/-- The bytes that those which are there take in the text. -/
def bytesAll (hs : Headers) : List (List UInt8 × List UInt8) → ℕ
  | [] => 0
  | s :: sets => headerBytes hs s.1 + bytesAll hs sets

/-- The bytes that they take with their new values. -/
def newBytes : List (List UInt8 × List UInt8) → ℕ
  | [] => 0
  | s :: sets => (keyOf s.1).length + s.2.length + 4 + newBytes sets

variable {s : List UInt8 × List UInt8} {sets : List (List UInt8 × List UInt8)}

/-- Setting one header does not change what there is of the others. -/
theorem missingAll_other (h : setStep hs s = .ok hs') (hne : ∀ t ∈ sets, keyOf t.1 ≠ keyOf s.1) :
    missingAll hs' sets = missingAll hs sets ∧ bytesAll hs' sets = bytesAll hs sets := by
  induction sets with
  | nil => exact ⟨rfl, rfl⟩
  | cons t sets ih =>
    obtain ⟨hmiss, hbytes⟩ := ih fun u hu => hne u (List.mem_cons_of_mem _ hu)
    have ht := hne t List.mem_cons_self
    rw [missingAll, missingAll, bytesAll, bytesAll, hmiss, hbytes, missing_other ht h,
      headerBytes_other ht h]
    exact ⟨rfl, rfl⟩

/-- The names are different. -/
def Different (sets : List (List UInt8 × List UInt8)) : Prop :=
  sets.Pairwise fun s t => keyOf t.1 ≠ keyOf s.1

/-- **What the table and the text become.** -/
theorem run_sets_bytes : ∀ (sets : List (List UInt8 × List UInt8)) (hs : Headers),
    (∀ s ∈ sets, PlainSet s) → Different sets → run setStep hs sets = .ok hs' →
      hs'.length = hs.length + missingAll hs sets ∧
        headersSize hs' + bytesAll hs sets = headersSize hs + newBytes sets := by
  intro sets
  induction sets with
  | nil =>
    intro hs _ _ h
    cases h
    exact ⟨rfl, rfl⟩
  | cons s sets ih =>
    intro hs hplain hdiff h
    obtain ⟨hne, hdiff⟩ := List.pairwise_cons.1 hdiff
    obtain ⟨t, ht, h⟩ := run_cons_ok h
    obtain ⟨hlen, hsize⟩ := ih t (fun u hu => hplain u (List.mem_cons_of_mem _ hu)) hdiff h
    obtain ⟨hlen₁, hsize₁⟩ := headersSetHeader_bytes (hplain s List.mem_cons_self).single ht
    obtain ⟨hmiss, hbytes⟩ := missingAll_other ht hne
    rw [missingAll, bytesAll, newBytes]
    omega

/-- **When there is room for them.** -/
theorem run_sets_iff : ∀ (sets : List (List UInt8 × List UInt8)) (hs : Headers),
    (∀ s ∈ sets, PlainSet s) → Different sets →
      ((∃ hs', run setStep hs sets = .ok hs') ↔
        (missingAll hs sets = 0 ∨ hs.length + missingAll hs sets ≤ headersMaxNum)) := by
  intro sets
  induction sets with
  | nil => exact fun hs _ _ => ⟨fun _ => Or.inl rfl, fun _ => ⟨hs, rfl⟩⟩
  | cons s sets ih =>
    intro hs hplain hdiff
    obtain ⟨hne, hdiff⟩ := List.pairwise_cons.1 hdiff
    have hs₀ := hplain s List.mem_cons_self
    have hfirst := headersSetHeader_ok_iff hs hs₀.single hs₀.name hs₀.value
    have hrest (t : Headers) := ih t (fun u hu => hplain u (List.mem_cons_of_mem _ hu)) hdiff
    rw [missingAll]
    constructor
    · intro h
      obtain ⟨hs', h⟩ := h
      obtain ⟨t, ht, h⟩ := run_cons_ok h
      have h₁ := hfirst.1 ⟨t, ht⟩
      have h₂ := (hrest t).1 ⟨hs', h⟩
      have hlen := (headersSetHeader_bytes hs₀.single ht).1
      have hmiss := (missingAll_other ht hne).1
      omega
    · intro h
      obtain ⟨t, ht⟩ := hfirst.2 (by omega)
      have hlen := (headersSetHeader_bytes hs₀.single ht).1
      have hmiss := (missingAll_other ht hne).1
      obtain ⟨hs', h'⟩ := (hrest t).2 (by omega)
      refine ⟨hs', ?_⟩
      simp only [run, show setStep hs s = .ok t from ht]
      exact h'

/-- What is not set stays. -/
theorem run_sets_other : ∀ (sets : List (List UInt8 × List UInt8)) (hs : Headers),
    (∀ s ∈ sets, keyOf name ≠ keyOf s.1) → run setStep hs sets = .ok hs' →
      headersGetHeader hs' name = headersGetHeader hs name := by
  intro sets
  induction sets with
  | nil =>
    intro hs _ h
    cases h
    rfl
  | cons s sets ih =>
    intro hs hne h
    obtain ⟨t, ht, h⟩ := run_cons_ok h
    rw [ih t (fun u hu => hne u (List.mem_cons_of_mem _ hu)) h]
    exact headersSetHeader_other (hne s List.mem_cons_self) ht

/-- What is set is there. -/
theorem run_sets_get : ∀ (sets : List (List UInt8 × List UInt8)) (hs : Headers),
    (∀ s ∈ sets, PlainSet s) → Different sets → run setStep hs sets = .ok hs' →
      ∀ s ∈ sets, headersGetHeader hs' s.1 = some ⟨keyOf s.1, s.2⟩ := by
  intro sets
  induction sets with
  | nil => exact fun hs _ _ _ s hs => (List.not_mem_nil hs).elim
  | cons s sets ih =>
    intro hs hplain hdiff h u hu
    obtain ⟨hne, hdiff⟩ := List.pairwise_cons.1 hdiff
    obtain ⟨t, ht, hrest⟩ := run_cons_ok h
    rcases List.mem_cons.1 hu with rfl | hu
    · rw [run_sets_other sets t (fun v hv => (hne v hv).symm) hrest]
      exact headersSetHeader_get (hplain u List.mem_cons_self).single ht
    · exact ih t (fun v hv => hplain v (List.mem_cons_of_mem _ hv)) hdiff hrest u hu

/-! ## The headers of a response -/

/-- A `Set-Cookie` is always appended. -/
theorem setCookie_eq (hs : Headers) (value : List UInt8) :
    headersSetHeader hs (ascii "Set-Cookie") value =
      if value.length < headerValueMaxLen ∧ hs.length < headersMaxNum then
        .ok (hs ++ [⟨ascii "Set-Cookie", value⟩])
      else .error .outOfBounds := by
  have hkey : headerFormatname (strtolower (ascii "Set-Cookie")) = ascii "Set-Cookie" := by decide
  have hlen : ¬headerNameMaxLen ≤ (ascii "Set-Cookie").length := by decide
  unfold headersSetHeader
  simp only [hkey, ne_eq, not_true_eq_false, decide_false, Bool.and_false, Bool.false_eq_true,
    if_false, hlen, or_false]
  by_cases hv : headerValueMaxLen ≤ value.length
  · rw [if_pos hv, if_neg fun h => absurd h.1 (Nat.not_lt.2 hv)]
  · rw [if_neg hv]
    by_cases hfull : headersMaxNum ≤ hs.length
    · rw [if_pos hfull, if_neg fun h => absurd h.2 (Nat.not_lt.2 hfull)]
    · rw [if_neg hfull, if_pos ⟨Nat.not_le.1 hv, Nat.not_le.1 hfull⟩]

/-- Headers that are set, and the cookies, if there are any. -/
def setAndCookies (hs : Headers) (sets : List (List UInt8 × List UInt8)) (cookies : List UInt8) :
    Except BufFault Headers :=
  (run setStep hs sets).bind fun hs =>
    if cookies ≠ [] then headersSetHeader hs (ascii "Set-Cookie") cookies else .ok hs

/-- The entry and the bytes that cookies need. -/
def cookieEntry (cookies : List UInt8) : ℕ := if cookies = [] then 0 else 1
def cookieBytes (cookies : List UInt8) : ℕ := if cookies = [] then 0 else cookies.length + 14

/-- The table has room for the headers and the cookies, and an entry for the text of these. -/
def TableRoom (hs : Headers) (sets : List (List UInt8 × List UInt8)) (cookies : List UInt8) : Prop :=
  (missingAll hs sets + cookieEntry cookies = 0 ∨
    hs.length + (missingAll hs sets + cookieEntry cookies) ≤ headersMaxNum) ∧
      cookies.length < headerValueMaxLen

instance (hs : Headers) (sets : List (List UInt8 × List UInt8)) (cookies : List UInt8) :
    Decidable (TableRoom hs sets cookies) :=
  inferInstanceAs (Decidable (_ ∧ _))

/-- The length of the text that they make. -/
def textBytes (hs : Headers) (sets : List (List UInt8 × List UInt8)) (cookies : List UInt8) : ℕ :=
  headersSize hs + newBytes sets - bytesAll hs sets + cookieBytes cookies + 2

section Set

variable {cookies : List UInt8} (hplain : ∀ s ∈ sets, PlainSet s) (hdiff : Different sets)
include hplain hdiff

theorem setAndCookies_iff :
    (∃ hs', setAndCookies hs sets cookies = .ok hs') ↔ TableRoom hs sets cookies := by
  unfold TableRoom cookieEntry
  constructor
  · intro h
    obtain ⟨hs', h⟩ := h
    obtain ⟨t, ht, h⟩ := bind_inv h
    have hroom := (run_sets_iff sets hs hplain hdiff).1 ⟨t, ht⟩
    have hlen := (run_sets_bytes sets hs hplain hdiff ht).1
    by_cases hck : cookies = []
    · rw [if_pos hck, hck]
      exact ⟨by omega, by decide⟩
    · rw [if_pos hck, setCookie_eq] at h
      rw [if_neg hck]
      split at h
      · rename_i hfit
        exact ⟨by omega, hfit.1⟩
      · cases h
  · rintro ⟨hroom, hvalue⟩
    obtain ⟨t, ht⟩ := (run_sets_iff sets hs hplain hdiff).2 (by omega)
    have hlen := (run_sets_bytes sets hs hplain hdiff ht).1
    unfold setAndCookies
    rw [ht]
    by_cases hck : cookies = []
    · exact ⟨t, if_neg (not_not.2 hck)⟩
    · rw [if_neg hck] at hroom
      refine ⟨t ++ [⟨ascii "Set-Cookie", cookies⟩], (if_pos hck).trans ?_⟩
      rw [setCookie_eq, if_pos ⟨hvalue, by omega⟩]

theorem setAndCookies_text (h : setAndCookies hs sets cookies = .ok hs') :
    (headersToString hs').length = textBytes hs sets cookies := by
  have hcklen : (ascii "Set-Cookie").length = 10 := by decide
  obtain ⟨t, ht, h⟩ := bind_inv h
  have hsize := (run_sets_bytes sets hs hplain hdiff ht).2
  rw [headersToString_length]
  unfold textBytes cookieBytes
  by_cases hck : cookies = []
  · rw [if_neg (not_not.2 hck)] at h
    cases h
    rw [if_pos hck]
    omega
  · rw [if_pos hck, setCookie_eq] at h
    rw [if_neg hck]
    split at h
    · cases h
      rw [headersSize_append]
      simp only [headersSize, hcklen]
      omega
    · cases h

end Set

/-- What `zimr_connection_send_headers` sets. -/
def headSets (env : ServeEnv) : List (List UInt8 × List UInt8) :=
  [(ascii "Date", env.now), (ascii "Server", ascii "Zimr/" ++ env.version)]

theorem plainSet (hname : keyOf name ≠ ascii "Set-Cookie" ∧ (keyOf name).length < headerNameMaxLen)
    (hvalue : value.length < headerValueMaxLen) : PlainSet (name, value) :=
  ⟨hname.1, hname.2, hvalue⟩

theorem headSets_plain (env : ServeEnv) : ∀ s ∈ headSets env, PlainSet s := by
  have hnow := env.now_short
  have hversion := env.version_short
  have hzimr : (ascii "Zimr/").length = 5 := by decide
  intro s hs
  rcases List.mem_cons.1 hs with rfl | hs
  · refine plainSet (by decide) ?_
    unfold headerValueMaxLen
    omega
  · rcases List.mem_singleton.1 hs with rfl
    refine plainSet (by decide) ?_
    rw [List.length_append, hzimr]
    unfold headerValueMaxLen
    omega

/-- Names that are different make different headers. -/
theorem different_of_names (names : List (List UInt8)) (h : sets.map Prod.fst = names)
    (hnames : names.Pairwise fun n n' => keyOf n' ≠ keyOf n) : Different sets := by
  subst h
  exact List.pairwise_map.1 hnames

theorem headSets_different (env : ServeEnv) : Different (headSets env) :=
  different_of_names [ascii "Date", ascii "Server"] rfl (by decide)

/-- What `zimr_connection_send_headers` sets is set, and the cookies. -/
theorem responseHeaders_eq (env : ServeEnv) (reply : Reply) : responseHeaders env reply =
    setAndCookies reply.headers (headSets env) env.cookies := by
  unfold responseHeaders setAndCookies headSets
  simp only [run, setStep]
  cases headersSetHeader reply.headers (ascii "Date") env.now with
  | error e => rfl
  | ok hs₁ =>
    cases h₂ : headersSetHeader hs₁ (ascii "Server") (ascii "Zimr/" ++ env.version) with
    | error e => simp only [bind, Except.bind, h₂]
    | ok hs₂ =>
      simp only [bind, Except.bind, h₂]
      rfl

/-! ## The line of the log -/

theorem zimrLogRequest_ok_iff (now : List UInt8) (c : Connection) (headers : Headers)
    (httpStatus : ℕ) : (∃ line, zimrLogRequest now c headers httpStatus = .ok line) ↔
      now.length + (inetNtoa (leNum c.ip)).length + c.hostname.length + (httpType c.type).length +
        c.website.fullUrl.length + c.urlText.length + (decText httpStatus).length +
        (headerText headers "User-Agent").length + (headerText headers "Referer").length + 15 <
      1024 := by
  have hsep : (ascii ", ").length = 2 := by decide
  unfold zimrLogRequest
  simp only [List.intercalate, List.intersperse, List.flatten_cons, List.flatten_nil,
    List.length_append, List.length_cons, List.length_nil, hsep]
  split
  · refine ⟨fun h => ?_, fun h => by omega⟩
    obtain ⟨line, h⟩ := h
    cases h
  · exact ⟨fun _ => by omega, fun _ => ⟨_, rfl⟩⟩

/-- The bytes of the line for the answer to a request. -/
def ServeEnv.logBytes (env : ServeEnv) (httpStatus : ℕ) : ℕ :=
  env.logNow.length + (inetNtoa (leNum env.connection.ip)).length + env.connection.hostname.length +
    (httpType env.connection.type).length + env.connection.website.fullUrl.length +
    env.connection.urlText.length + (decText httpStatus).length +
    (headerText env.request "User-Agent").length + (headerText env.request "Referer").length + 15

/-! ## The head of an answer -/

/-- **The headers are sent** when both buffers hold what is put into them. -/
theorem sendHeaders_ok_iff {sent : Reply × List UInt8} : sendHeaders env reply = .ok sent ↔
    ∃ headers, setAndCookies reply.headers (headSets env) env.cookies = .ok headers ∧
      (headersToString headers).length < 1024 ∧ env.logBytes reply.httpStatus < 1024 ∧
      sent = ({ reply with headers }, headersToString headers) := by
  have hlog := zimrLogRequest_ok_iff env.logNow env.connection env.request reply.httpStatus
  rw [← responseHeaders_eq]
  constructor
  · intro h
    obtain ⟨headers, hset, h⟩ := bind_inv h
    dsimp only at h
    split at h
    · cases h
    · rename_i htext
      obtain ⟨line, hline, h⟩ := bind_inv h
      cases h
      exact ⟨headers, hset, Nat.lt_of_not_le htext, hlog.1 ⟨line, hline⟩, rfl⟩
  · rintro ⟨headers, hset, htext, hline, rfl⟩
    obtain ⟨line, hline⟩ := hlog.2 hline
    unfold sendHeaders
    simp only [hset, hline, if_neg (Nat.not_le_of_lt htext), bind, Except.bind]
    rfl

theorem sendStatus_inv {reply : Reply} {status line : List UInt8}
    (hs : responseStatus reply.httpStatus = some status) (h : sendStatus reply = .ok line) :
    line.length = reply.httpVersion.length + status.length + 8 ∧ line.length < 100 := by
  have hlen : (ascii "HTTP/").length = 5 ∧ (ascii " ").length = 1 := by decide
  unfold sendStatus at h
  rw [hs] at h
  simp only at h
  split at h
  · cases h
  · cases h
    simp only [List.length_append, hlen.1, hlen.2, crlf, List.length_cons, List.length_nil] at *
    omega

theorem sendStatus_known {reply : Reply} {line : List UInt8} (h : sendStatus reply = .ok line) :
    ∃ status, responseStatus reply.httpStatus = some status := by
  unfold sendStatus at h
  cases hs : responseStatus reply.httpStatus with
  | none =>
    rw [hs] at h
    cases h
  | some status => exact ⟨status, rfl⟩

theorem sendStatus_ok {reply : Reply} {status : List UInt8}
    (hs : responseStatus reply.httpStatus = some status)
    (h : reply.httpVersion.length + status.length + 8 < 100) :
    ∃ line, sendStatus reply = .ok line := by
  have hlen : (ascii "HTTP/").length = 5 ∧ (ascii " ").length = 1 := by decide
  unfold sendStatus
  rw [hs]
  refine ⟨_, if_neg ?_⟩
  simp only [List.length_append, hlen.1, hlen.2, crlf, List.length_cons, List.length_nil]
  omega

/-- The first two headers, and the others behind them. -/
theorem setAndCookies_append {hs t : Headers} {sets : List (List UInt8 × List UInt8)}
    (h : run setStep hs sets = .ok t) (sets' : List (List UInt8 × List UInt8))
    (cookies : List UInt8) :
    setAndCookies hs (sets ++ sets') cookies = setAndCookies t sets' cookies := by
  unfold setAndCookies
  rw [run_append_ok h]

variable {code : ℕ} {status : List UInt8}

/-- The head of an answer for which these headers are set. -/
def headWith (env : ServeEnv) (reply : Reply) (code : ℕ) (sets : List (List UInt8 × List UInt8)) :
    Except BufFault (Reply × List (List UInt8)) :=
  (run setStep reply.headers sets).bind fun headers =>
    sendHead env { reply with httpStatus := code, headers }

/-- The first headers, and the others behind them. -/
theorem headWith_append (env : ServeEnv) (reply : Reply) (code : ℕ)
    (sets sets' : List (List UInt8 × List UInt8)) : headWith env reply code (sets ++ sets') =
      (run setStep reply.headers sets).bind fun headers =>
        headWith env { reply with headers } code sets' := by
  induction sets generalizing reply with
  | nil => rfl
  | cons s sets ih =>
    unfold headWith at ih ⊢
    simp only [List.cons_append, run]
    cases hs : setStep reply.headers s with
    | error e => rfl
    | ok t => exact ih { reply with headers := t }

/-- The status line, the table, the text of the headers and the line of the log have room for such
an answer, and its status is known. -/
structure HeadRoom (env : ServeEnv) (reply : Reply) (code : ℕ)
    (sets : List (List UInt8 × List UInt8)) : Prop where
  line : ∃ status, responseStatus code = some status ∧
    reply.httpVersion.length + status.length + 8 < 100
  room : TableRoom reply.headers (sets ++ headSets env) env.cookies
  text : textBytes reply.headers (sets ++ headSets env) env.cookies < 1024
  log : env.logBytes code < 1024

theorem HeadRoom.line_lt {sets : List (List UInt8 × List UInt8)} (h : HeadRoom env reply code sets)
    (hstatus : responseStatus code = some status) :
    reply.httpVersion.length + status.length + 8 < 100 := by
  obtain ⟨s, hs, hline⟩ := h.line
  cases hs.symm.trans hstatus
  exact hline

section HeadWith

variable {sets : List (List UInt8 × List UInt8)}
  (hplain : ∀ s ∈ sets ++ headSets env, PlainSet s) (hdiff : Different (sets ++ headSets env))
include hplain hdiff

/-- **What the head of an answer is**: a line and the text of the headers, both in their buffers. -/
theorem headWith_inv {reply' : Reply} {head : List (List UInt8)}
    (h : headWith env reply code sets = .ok (reply', head)) :
    HeadRoom env reply code sets ∧ ∃ line text, head = [line, text] ∧
      (∀ status, responseStatus code = some status →
        line.length = reply.httpVersion.length + status.length + 8) ∧
      text.length = textBytes reply.headers (sets ++ headSets env) env.cookies := by
  obtain ⟨hs, hrun, h⟩ := bind_inv h
  obtain ⟨line, hline, h⟩ := bind_inv h
  obtain ⟨⟨r, text⟩, htext, h⟩ := bind_inv h
  cases h
  obtain ⟨headers, hset, hshort, hlog, hsent⟩ := sendHeaders_ok_iff.1 htext
  cases hsent
  obtain ⟨status, hstatus⟩ := sendStatus_known hline
  obtain ⟨hlen, hlt⟩ := sendStatus_inv hstatus hline
  have hall : setAndCookies reply.headers (sets ++ headSets env) env.cookies = .ok headers :=
    (setAndCookies_append hrun _ _).trans hset
  have hbytes := setAndCookies_text hplain hdiff hall
  have hroom := (setAndCookies_iff hplain hdiff).1 ⟨_, hall⟩
  refine ⟨⟨⟨status, hstatus, hlen ▸ hlt⟩, hroom, hbytes ▸ hshort, hlog⟩, line, _, rfl, ?_, hbytes⟩
  intro status' hstatus'
  exact (sendStatus_inv hstatus' hline).1

/-- **What it says**: the status, the headers that are set, and the others as they were. -/
theorem headWith_spec {reply' : Reply} {head : List (List UInt8)}
    (h : headWith env reply code sets = .ok (reply', head)) :
    reply'.httpStatus = code ∧ (∃ status, head = [status, headersToString reply'.headers]) ∧
      (∀ s ∈ sets, headersGetHeader reply'.headers s.1 = some ⟨keyOf s.1, s.2⟩) ∧
      ∀ name, keyOf name ∉ headNames → (∀ s ∈ sets, keyOf name ≠ keyOf s.1) →
        headersGetHeader reply'.headers name = headersGetHeader reply.headers name := by
  obtain ⟨hs, hrun, h⟩ := bind_inv h
  obtain ⟨hhead, hstatus, hother⟩ := sendHead_spec h
  obtain ⟨hdiff, -, hcross⟩ := List.pairwise_append.1 hdiff
  obtain ⟨kd, ks, -⟩ := headNames_keys
  -- what is set behind them does not touch them
  have hkeep : ∀ s ∈ sets, keyOf s.1 ∉ headNames := by
    intro s hs hmem
    have h₁ := hcross s hs _ List.mem_cons_self
    have h₂ := hcross s hs _ (List.mem_cons_of_mem _ List.mem_cons_self)
    rw [kd] at h₁
    rw [ks] at h₂
    rcases List.mem_cons.1 hmem with hm | hm
    · exact h₁ hm.symm
    rcases List.mem_cons.1 hm with hm | hm
    · exact h₂ hm.symm
    · exact (hplain s (List.mem_append_left _ hs)).single (List.mem_singleton.1 hm)
  refine ⟨hstatus, hhead, fun s hs => ?_, fun name hname hne => ?_⟩
  · rw [hother _ (hkeep s hs)]
    exact run_sets_get sets _ (fun s hs => hplain s (List.mem_append_left _ hs)) hdiff hrun s hs
  · rw [hother _ hname]
    exact run_sets_other sets _ hne hrun

theorem headWith_ok (h : HeadRoom env reply code sets) :
    ∃ sent, headWith env reply code sets = .ok sent := by
  obtain ⟨status, hstatus, hline⟩ := h.line
  obtain ⟨headers, hall⟩ := (setAndCookies_iff hplain hdiff).2 h.room
  have hbytes := setAndCookies_text hplain hdiff hall
  have hshort := h.text
  rw [← hbytes] at hshort
  -- there is room for all of them, so for the first ones
  obtain ⟨t, hrun, -⟩ := bind_inv hall
  obtain ⟨hs, hfirst, -⟩ := run_append hrun
  rw [setAndCookies_append hfirst] at hall
  obtain ⟨line, hline⟩ : ∃ line,
      sendStatus ⟨reply.httpVersion, code, hs, reply.sendingError⟩ = .ok line :=
    sendStatus_ok hstatus hline
  have hsent : sendHeaders env ⟨reply.httpVersion, code, hs, reply.sendingError⟩ =
      .ok (⟨reply.httpVersion, code, headers, reply.sendingError⟩, headersToString headers) :=
    sendHeaders_ok_iff.2 ⟨headers, hall, hshort, h.log, rfl⟩
  refine ⟨(⟨reply.httpVersion, code, headers, reply.sendingError⟩, [line, headersToString headers]), ?_⟩
  unfold headWith
  rw [hfirst]
  show sendHead env ⟨reply.httpVersion, code, hs, reply.sendingError⟩ = _
  unfold sendHead
  simp only [hline, hsent, bind, Except.bind, pure, Except.pure]

end HeadWith

end Zimr
