import Zimr.Proof.Body
import Zimr.Proof.Headers

/-!
# Multipart bodies

* `multipartLoop_fuel` — the loop over the parts comes to its end
* `multipart_in_bounds_iff` — when it stays within `request.parts`
-/

namespace Zimr

open Run

variable {boundary ptr : List UInt8} {fuel k b : ℕ} {stored : List Part}
  {header : Except BodyFault (Option Header)}

/-! ## Any body -/

theorem multipartLoop_none (hb : strstr ptr boundary = none) :
    multipartLoop boundary fuel stored header ptr = .ok (stored, header) := by
  cases fuel with
  | zero => rfl
  | succ fuel =>
    rw [multipartLoop, hb]

/-- What the loop stores for the part at `ptr`, with a blank line at `k` and the next delimiter
at `b`. -/
def partAt (ptr : List UInt8) (k b : ℕ) : Part :=
  let headers := headersParse ptr
  let charset := charsetOf (headersGetHeader headers (ascii "Content-Type"))
  { headers := keptBy charset headers
    postBody := some (strncpyZero (ptr.drop (k + 4)) (b - (k + 4) - 2))
    postBodyLen := b - (k + 4) - 2, charset }

/-- What it leaves in `header` then. -/
def headerAt (ptr : List UInt8) : Except BodyFault (Option Header) :=
  let header := headersGetHeader (headersParse ptr) (ascii "Content-Type")
  headerBy (charsetOf header) header

/-- A round that reads a part. -/
theorem multipartLoop_part (hb : strstr ptr boundary = some b) (hk : strstr ptr blankLine = some k)
    (hlen : stored.length < connMaxHttpMultipart) (hkb : k + 6 ≤ b) :
    multipartLoop boundary (fuel + 1) stored header ptr =
      if startswith (ptr.drop (b + boundary.length)) (ascii "--" ++ crlf) = true then
        .ok (stored ++ [partAt ptr k b], headerAt ptr)
      else if (ptr.drop (b + boundary.length)).length < 2 then .error .outOfBounds
      else multipartLoop boundary fuel (stored ++ [partAt ptr k b]) (headerAt ptr)
        ((ptr.drop (b + boundary.length)).drop 2) := by
  have hor : (startswith (ptr.drop (b + boundary.length)) (ascii "--" ++ crlf) ||
      connMaxHttpMultipart ≤ stored.length) =
      startswith (ptr.drop (b + boundary.length)) (ascii "--" ++ crlf) := by
    rw [decide_eq_false (Nat.not_le.2 hlen), Bool.or_false]
  rw [multipartLoop, hb]
  simp only [hk]
  rw [if_neg (Nat.not_le.2 hlen), if_neg (by omega), hor]
  rfl

/-- **The loop comes to its end**: it has no more rounds than the text has bytes. -/
theorem multipartLoop_fuel : ∀ (fuel : ℕ) (stored : List Part)
    (header : Except BodyFault (Option Header)) (ptr : List UInt8), ptr.length < fuel →
    multipartLoop boundary (fuel + 1) stored header ptr =
      multipartLoop boundary fuel stored header ptr := by
  intro fuel
  induction fuel with
  | zero => intro _ _ ptr h; exact absurd h (Nat.not_lt_zero _)
  | succ fuel ih =>
    intro stored header ptr h
    cases hb : strstr ptr boundary with
    | none => rw [multipartLoop_none hb, multipartLoop_none hb]
    | some b =>
      by_cases hlen : stored.length < connMaxHttpMultipart
      · cases hk : strstr ptr blankLine with
        | none =>
          conv_lhs => rw [multipartLoop, hb]
          conv_rhs => rw [multipartLoop, hb]
          simp only [hk]
        | some k =>
          by_cases hkb : k + 6 ≤ b
          · rw [multipartLoop_part hb hk hlen hkb, multipartLoop_part hb hk hlen hkb, ih]
            -- the delimiter, or two bytes behind it, are left behind
            have hle := strnstr_le hb
            rw [List.length_drop, List.length_drop]
            omega
          · conv_lhs => rw [multipartLoop, hb]
            conv_rhs => rw [multipartLoop, hb]
            simp only [hk]
            rw [if_neg (Nat.not_le.2 hlen), if_pos (by omega), if_neg (Nat.not_le.2 hlen),
              if_pos (by omega)]
      · conv_lhs => rw [multipartLoop, hb]
        conv_rhs => rw [multipartLoop, hb]
        simp only
        rw [if_pos (Nat.not_lt.1 hlen), if_pos (Nat.not_lt.1 hlen)]

theorem within_ok {last : Except BodyFault (Option Header)} :
    Within (.ok (stored, last)) ↔ stored.length < connMaxHttpMultipart := by
  constructor
  · rintro ⟨parts, last', h, hlen⟩
    cases h
    exact hlen
  · intro hlen
    exact ⟨stored, last, rfl, hlen⟩

theorem not_within_error {f : BodyFault} : ¬Within (.error f) := by
  rintro ⟨parts, last, h, -⟩
  cases h

section Sections

theorem sections_none (hb : strstr ptr boundary = none) : sections boundary fuel ptr = [] := by
  cases fuel with
  | zero => rfl
  | succ fuel =>
    rw [sections, hb]

theorem sections_last (hb : strstr ptr boundary = some b)
    (h : strstr ptr blankLine = none ∨
      startswith (ptr.drop (b + boundary.length)) (ascii "--" ++ crlf) = true) :
    sections boundary (fuel + 1) ptr = [ptr] := by
  rw [sections, hb]
  simp only
  rw [if_pos h]

theorem sections_more (hb : strstr ptr boundary = some b) (hk : strstr ptr blankLine = some k)
    (hend : startswith (ptr.drop (b + boundary.length)) (ascii "--" ++ crlf) ≠ true) :
    sections boundary (fuel + 1) ptr =
      ptr :: sections boundary fuel ((ptr.drop (b + boundary.length)).drop 2) := by
  rw [sections, hb]
  simp only
  rw [if_neg (not_or.2 ⟨by rw [hk]; exact Option.some_ne_none k, hend⟩)]

/-- There is a section as long as there is a delimiter. -/
theorem sections_head (fuel : ℕ) (hb : strstr ptr boundary = some b) :
    ∃ rest, sections boundary (fuel + 1) ptr = ptr :: rest := by
  rw [sections, hb]
  simp only
  split
  · exact ⟨_, rfl⟩
  · exact ⟨_, rfl⟩

theorem inOrder_none (hk : strstr ptr blankLine = none) : InOrder boundary ptr := by
  constructor
  · intro k b h
    rw [hk] at h
    cases h
  · intro k b h
    rw [hk] at h
    cases h

theorem inOrder_iff (hb : strstr ptr boundary = some b) (hk : strstr ptr blankLine = some k) :
    InOrder boundary ptr ↔ k + 6 ≤ b ∧ b + boundary.length + 2 ≤ ptr.length := by
  constructor
  · intro h
    exact ⟨h.blank k b hk hb, h.next k b hk hb⟩
  · rintro ⟨hblank, hnext⟩
    constructor
    · intro k' b' hk' hb'
      cases hk.symm.trans hk'
      cases hb.symm.trans hb'
      exact hblank
    · intro k' b' _ hb'
      cases hb.symm.trans hb'
      exact hnext

end Sections

/-- A round of the loop takes a section. -/
theorem multipartLoop_within (boundary : List UInt8) : ∀ (fuel : ℕ) (stored : List Part)
    (header : Except BodyFault (Option Header)) (ptr : List UInt8),
    Within (multipartLoop boundary fuel stored header ptr) ↔
      stored.length + (sections boundary fuel ptr).length < connMaxHttpMultipart ∧
        ∀ s ∈ sections boundary fuel ptr, InOrder boundary s := by
  have hempty : ∀ {n : ℕ}, n < connMaxHttpMultipart ↔
      n + ([] : List (List UInt8)).length < connMaxHttpMultipart ∧
        ∀ s ∈ ([] : List (List UInt8)), InOrder boundary s := by
    intro n
    constructor
    · intro h
      exact ⟨h, fun s hs => (List.not_mem_nil hs).elim⟩
    · intro h
      exact h.1
  have hlast : ∀ {parts : List Part} {p : Part} {s : List UInt8}, InOrder boundary s →
      ((parts ++ [p]).length < connMaxHttpMultipart ↔
        parts.length + [s].length < connMaxHttpMultipart ∧ ∀ x ∈ [s], InOrder boundary x) := by
    intro parts p s hs
    rw [List.length_append]
    constructor
    · intro h
      exact ⟨h, fun x hx => (List.mem_singleton.1 hx) ▸ hs⟩
    · intro h
      exact h.1
  intro fuel
  induction fuel with
  | zero =>
    intro stored header ptr
    exact within_ok.trans hempty
  | succ fuel ih =>
    intro stored header ptr
    cases hb : strstr ptr boundary with
    | none =>
      rw [multipartLoop_none hb, sections_none hb]
      exact within_ok.trans hempty
    | some b =>
      obtain ⟨rest, hrest⟩ := sections_head fuel hb
      by_cases hlen : stored.length < connMaxHttpMultipart
      · cases hk : strstr ptr blankLine with
        | none =>
          -- the last part, without a body
          rw [multipartLoop, hb, sections_last hb (Or.inl hk)]
          simp only [hk]
          rw [if_neg (Nat.not_le.2 hlen)]
          exact within_ok.trans (hlast (inOrder_none hk))
        | some k =>
          by_cases hkb : k + 6 ≤ b
          · rw [multipartLoop_part hb hk hlen hkb]
            by_cases hend : startswith (ptr.drop (b + boundary.length)) (ascii "--" ++ crlf) = true
            · have hnext : b + boundary.length + 2 ≤ ptr.length := by
                have h := (startswith_iff.1 hend).length_le
                rw [List.length_drop, show (ascii "--" ++ crlf).length = 4 by decide] at h
                omega
              rw [if_pos hend, sections_last hb (Or.inr hend)]
              exact within_ok.trans (hlast ((inOrder_iff hb hk).2 ⟨hkb, hnext⟩))
            · have hle := strnstr_le hb
              rw [if_neg hend, sections_more hb hk hend, List.forall_mem_cons, inOrder_iff hb hk,
                List.length_cons, List.length_drop]
              by_cases htwo : ptr.length - (b + boundary.length) < 2
              · rw [if_pos htwo]
                constructor
                · intro h
                  exact absurd h not_within_error
                · rintro ⟨-, ⟨-, hnext⟩, -⟩
                  omega
              · rw [if_neg htwo, ih, List.length_append]
                constructor
                · rintro ⟨hl, hall⟩
                  exact ⟨by rw [← Nat.add_assoc, Nat.add_right_comm]; exact hl,
                    ⟨hkb, by omega⟩, hall⟩
                · rintro ⟨hl, -, hall⟩
                  exact ⟨by rw [← Nat.add_assoc, Nat.add_right_comm] at hl; exact hl, hall⟩
          · -- the delimiter stands before the end of the blank line
            rw [multipartLoop, hb]
            simp only [hk]
            rw [if_neg (Nat.not_le.2 hlen), if_pos (by omega), hrest]
            constructor
            · intro h
              exact absurd h not_within_error
            · rintro ⟨-, hall⟩
              exact absurd ((hall ptr List.mem_cons_self).blank k b hk hb) hkb
      · -- no index is left
        rw [multipartLoop, hb, hrest]
        simp only
        rw [if_pos (Nat.not_lt.1 hlen)]
        constructor
        · intro h
          exact absurd h not_within_error
        · rintro ⟨hl, -⟩
          omega

/-- **When the loop stays within `request.parts`.** For every boundary and every body: exactly when
there are fewer sections than `request.parts` has entries, and in each of them the blank line
comes before the delimiter, which two bytes follow. -/
theorem multipart_in_bounds_iff (boundary body : List UInt8) (header : Option Header) :
    ReadWithin (delimiter boundary) body header ↔ WellCut (delimiter boundary) body := by
  have h := multipartLoop_within (delimiter boundary)
    ((behindDelimiter (delimiter boundary) body).length + 1) [] (.ok header)
    (behindDelimiter (delimiter boundary) body)
  rw [List.length_nil, Nat.zero_add] at h
  unfold ReadWithin
  rw [h]
  rfl

/-! ## Parts that are well formed -/

section Parts

variable {kind : List UInt8} {p : MimePart boundary} {t : List UInt8}

/-- The delimiter has no line ends in it. -/
theorem Multipart.delimiter_char (h : Multipart kind boundary) :
    0 ∉ delimiter boundary ∧ 10 ∉ delimiter boundary ∧ 13 ∉ delimiter boundary := by
  have hchar : ∀ c ∈ delimiter boundary, 32 < c := by
    have hdash : ∀ c ∈ ascii "--", 32 < c := by decide +kernel
    intro c hc
    rcases List.mem_append.1 hc with hc | hc
    · exact hdash c hc
    · exact (h.boundary_char c hc).1
  refine ⟨fun hc => ?_, fun hc => ?_, fun hc => ?_⟩
  · exact absurd (hchar _ hc) (by decide)
  · exact absurd (hchar _ hc) (by decide)
  · exact absurd (hchar _ hc) (by decide)

/-- A text of lines has the delimiter in it only if a line does. -/
theorem linesText_free (h : Multipart kind boundary) {s : List UInt8}
    (hs : ¬delimiter boundary <:+: s) : ∀ {lines : List (List UInt8)},
    (∀ l ∈ lines, ¬delimiter boundary <:+: l) → ¬delimiter boundary <:+: linesText lines ++ s := by
  obtain ⟨-, hlf, hcr⟩ := h.delimiter_char
  intro lines
  induction lines with
  | nil => intro _; exact hs
  | cons l ls ih =>
    intro hfree hin
    rw [linesText_cons, List.append_assoc, List.append_assoc] at hin
    rcases infix_of_sep hcr hin with hin | hin
    · exact hfree l List.mem_cons_self hin
    rcases infix_of_sep (a := []) hlf hin with hin | hin
    · -- it is not empty
      exact absurd (List.infix_nil.1 hin) (by rw [delimiter]; exact List.cons_ne_nil _ _)
    · exact ih (fun x hx => hfree x (List.mem_cons_of_mem _ hx)) hin

/-- The next delimiter is the one behind the part. -/
theorem MimePart.strstr_delimiter (h : Multipart kind boundary) (p : MimePart boundary)
    (t : List UInt8) : strstr (p.text ++ (crlf ++ (delimiter boundary ++ t))) (delimiter boundary) =
      some (p.text.length + 2) := by
  obtain ⟨hnul, hlf, hcr⟩ := h.delimiter_char
  have hfree : ¬delimiter boundary <:+: p.text := by
    refine linesText_free h (fun hin => ?_) p.lines_free
    rcases infix_of_sep (a := []) hcr hin with hin | hin
    · exact absurd (List.infix_nil.1 hin) (by rw [delimiter]; exact List.cons_ne_nil _ _)
    rcases infix_of_sep (a := []) hlf hin with hin | hin
    · exact absurd (List.infix_nil.1 hin) (by rw [delimiter]; exact List.cons_ne_nil _ _)
    · exact p.body_free hin
  have hz : 0 ∉ p.text ++ crlf := by
    have hlines : ∀ lines : List (List UInt8), (∀ l ∈ lines, HeadLine l) → 0 ∉ linesText lines := by
      intro lines hok hin
      obtain ⟨l', hl', h0⟩ := List.mem_flatten.1 hin
      obtain ⟨l, hl, rfl⟩ := List.mem_map.1 hl'
      rcases List.mem_append.1 h0 with h0 | h0
      · exact (hok l hl).nul h0
      · revert h0
        decide
    intro h0
    rw [MimePart.text] at h0
    simp only [List.mem_append] at h0
    have hcrlf : (0 : UInt8) ∉ crlf := by decide
    rcases h0 with (h0 | h0 | h0) | h0
    · exact hlines p.lines p.lines_ok h0
    · exact hcrlf h0
    · exact p.body_nul h0
    · exact hcrlf h0
  have hno : ∀ i < (p.text ++ crlf).length,
      ¬delimiter boundary <+: ((p.text ++ crlf) ++ (delimiter boundary ++ t)).drop i := by
    intro i hi hpre
    rw [List.append_assoc] at hpre
    by_cases hlt : i ≤ p.text.length
    · exact no_prefix_before hcr hfree hlt hpre
    · -- at the line feed
      have hi' : i = p.text.length + 1 := by
        rw [List.length_append] at hi
        have : crlf.length = 2 := rfl
        omega
      rw [hi', ← List.drop_drop, List.drop_left] at hpre
      have h10 := (List.cons_prefix_cons.1 hpre).1
      revert h10
      decide
  have hself : strstr (delimiter boundary ++ t) (delimiter boundary) = some 0 :=
    strstr_self (by decide) t
  rw [← List.append_assoc, strstr_skip hz hno, hself, List.length_append]
  exact congrArg some (Nat.zero_add _)

theorem strncpyZero_left {s : List UInt8} (hz : 0 ∉ s) (t : List UInt8) :
    strncpyZero (s ++ t) s.length = s := by
  have hcstr : cstr (s ++ t) = s ++ cstr t :=
    List.takeWhile_append_of_pos fun x hx => decide_eq_true fun h => hz (h ▸ hx)
  have hlen : s.length - (s ++ cstr t).length = 0 := by
    rw [List.length_append]
    omega
  rw [strncpyZero, hcstr, List.take_left, hlen]
  exact List.append_nil s

/-- A round of the loop over a part. -/
theorem multipartLoop_mime (h : Multipart kind boundary) (p : MimePart boundary)
    (ps : List (MimePart boundary)) (hlen : stored.length < connMaxHttpMultipart) :
    multipartLoop (delimiter boundary) (fuel + 1) stored header ((partsText (p :: ps)).drop 2) =
      if startswith (partsText ps) (ascii "--" ++ crlf) = true then
        .ok (stored ++ [(p.stored ps).kept],
          headerBy (p.stored ps).charset (p.stored ps).contentType)
      else if (partsText ps).length < 2 then .error .outOfBounds
      else multipartLoop (delimiter boundary) fuel (stored ++ [(p.stored ps).kept])
        (headerBy (p.stored ps).charset (p.stored ps).contentType) ((partsText ps).drop 2) := by
  have hptr : (partsText (p :: ps)).drop 2 =
      p.text ++ (crlf ++ (delimiter boundary ++ partsText ps)) := rfl
  obtain ⟨k, hk, hklen⟩ := strstr_blankLine
    (p.body ++ (crlf ++ (delimiter boundary ++ partsText ps))) p.lines_ne p.lines_ok
  have htext : p.text ++ (crlf ++ (delimiter boundary ++ partsText ps)) =
      linesText p.lines ++ (crlf ++ (p.body ++ (crlf ++ (delimiter boundary ++ partsText ps)))) := by
    rw [MimePart.text]
    simp only [List.append_assoc]
  rw [← htext] at hk
  have hsum : p.text.length = (linesText p.lines).length + 2 + p.body.length := by
    rw [MimePart.text, List.length_append, List.length_append]
    exact (Nat.add_assoc _ _ _).symm
  -- what is stored is the part
  have hbody : (p.text ++ (crlf ++ (delimiter boundary ++ partsText ps))).drop (k + 4) =
      p.body ++ (crlf ++ (delimiter boundary ++ partsText ps)) := by
    have hk4 : k + 4 = (linesText p.lines ++ crlf).length := by
      rw [List.length_append]
      exact congrArg (· + 2) hklen
    rw [htext, ← List.append_assoc, hk4, List.drop_left]
  have hblen : p.text.length + 2 - (k + 4) - 2 = p.body.length := by omega
  have hnext : (p.text ++ (crlf ++ (delimiter boundary ++ partsText ps))).drop
      (p.text.length + 2 + (delimiter boundary).length) = partsText ps := by
    rw [← List.drop_drop, ← List.drop_drop, List.drop_left]
    exact List.drop_left
  have hat : partAt (p.text ++ (crlf ++ (delimiter boundary ++ partsText ps))) k
      (p.text.length + 2) = (p.stored ps).kept := by
    unfold partAt
    rw [hbody, hblen, strncpyZero_left p.body_nul]
    rfl
  rw [hptr, multipartLoop_part (p.strstr_delimiter h _) hk hlen (by omega), hnext, hat]
  rfl

/-- **The loop reads all the parts**, and leaves the `Content-Type` of the last one. -/
theorem multipartLoop_parts (h : Multipart kind boundary) : ∀ (ps : List (MimePart boundary))
    (p : MimePart boundary) (fuel : ℕ) (stored : List Part)
    (header : Except BodyFault (Option Header)),
    stored.length + (p :: ps).length ≤ connMaxHttpMultipart → (p :: ps).length ≤ fuel →
    ∃ last, (storedParts (p :: ps)).getLast? = some last ∧
      multipartLoop (delimiter boundary) fuel stored header ((partsText (p :: ps)).drop 2) =
        .ok (stored ++ (storedParts (p :: ps)).map Part.kept,
          headerBy last.charset last.contentType) := by
  intro ps
  induction ps with
  | nil =>
    intro p fuel stored header hlen hfuel
    obtain ⟨fuel, rfl⟩ : ∃ n, fuel = n + 1 := ⟨fuel - 1, by simp only [List.length_cons] at hfuel; omega⟩
    refine ⟨p.stored [], rfl, ?_⟩
    rw [multipartLoop_mime h p [] (by simp only [List.length_cons] at hlen; omega)]
    rfl
  | cons q ps ih =>
    intro p fuel stored header hlen hfuel
    simp only [List.length_cons] at hlen hfuel
    obtain ⟨fuel, rfl⟩ : ∃ n, fuel = n + 1 := ⟨fuel - 1, by omega⟩
    obtain ⟨last, hlast, hrun⟩ := ih q fuel (stored ++ [(p.stored (q :: ps)).kept])
      (headerBy (p.stored (q :: ps)).charset (p.stored (q :: ps)).contentType)
      (by simp only [List.length_append, List.length_cons, List.length_nil]; omega)
      (by simp only [List.length_cons]; omega)
    refine ⟨last, ?_, ?_⟩
    · rw [storedParts, storedParts, List.getLast?_cons_cons]
      exact hlast
    · have hend : startswith (partsText (q :: ps)) (ascii "--" ++ crlf) ≠ true := by
        intro hs
        have h45 := (List.cons_prefix_cons.1 (startswith_iff.1 hs)).1
        revert h45
        decide
      have htwo : ¬(partsText (q :: ps)).length < 2 := by
        rw [partsText, List.length_append]
        exact Nat.not_lt.2 (Nat.le_add_right 2 _)
      rw [multipartLoop_mime h p (q :: ps) (by omega), if_neg hend, if_neg htwo, hrun,
        List.append_assoc]
      rfl

end Parts

/-! ## The parameters in the parts -/

section Params

variable {params out : List Param} {q : Part} {qs : List Part} {type : ℕ} {name : List UInt8}

theorem paramsParseMultiparts_gone (h : q.headers = none) :
    paramsParseMultiparts params (q :: qs) type = .error .headersGone := by
  rw [paramsParseMultiparts, h]

theorem paramsParseMultiparts_skip (hh : q.headers ≠ none) (hn : q.formName = none) :
    paramsParseMultiparts params (q :: qs) type = paramsParseMultiparts params qs type := by
  obtain ⟨headers, hs⟩ := Option.ne_none_iff_exists'.1 hh
  have hname : q.formName = (headersGetHeader headers (ascii "Content-Disposition")).bind
      fun header => if headersGetHeaderAttr header none = some (ascii "form-data") then
        headersGetHeaderAttr header (some (ascii "name")) else none := by
    unfold Part.formName
    rw [hs]
    rfl
  rw [hname] at hn
  rw [paramsParseMultiparts, hs]
  simp only
  cases hg : headersGetHeader headers (ascii "Content-Disposition") with
  | none => rfl
  | some header =>
    rw [hg, Option.bind_some] at hn
    simp only
    by_cases hform : headersGetHeaderAttr header none = some (ascii "form-data")
    · rw [if_pos hform] at hn
      rw [if_neg (not_not.2 hform), hn]
    · rw [if_pos hform]

theorem paramsParseMultiparts_name (hn : q.formName = some name) :
    paramsParseMultiparts params (q :: qs) type =
      if paramsNameMaxLen ≤ name.length then .error .outOfBounds
      else paramsParseMultiparts (params ++ [{ name := name, value := q.postBody.getD []
                                               valueLen := q.postBodyLen, type := type
                                               valAlloced := false }]) qs type := by
  obtain ⟨headers, hs, hn⟩ := Option.bind_eq_some_iff.1 hn
  obtain ⟨header, hg, hn⟩ := Option.bind_eq_some_iff.1 hn
  rw [paramsParseMultiparts, hs]
  simp only [hg]
  by_cases hform : headersGetHeaderAttr header none = some (ascii "form-data")
  · rw [if_pos hform] at hn
    rw [if_neg (not_not.2 hform), hn]
  · rw [if_neg hform] at hn
    cases hn

/-- **The parameters in the parts**, when all of them can be read. -/
theorem paramsParseMultiparts_ok (type : ℕ) : ∀ (qs : List Part) (params : List Param),
    (∀ q ∈ qs, q.Readable) → paramsParseMultiparts params qs type =
      .ok (params ++ qs.filterMap (Part.formParam type)) := by
  intro qs
  induction qs with
  | nil => intro params _; rw [List.filterMap_nil, List.append_nil]; rfl
  | cons q qs ih =>
    intro params h
    have hq := h q List.mem_cons_self
    have hrest := fun params => ih params fun x hx => h x (List.mem_cons_of_mem _ hx)
    cases hn : q.formName with
    | none =>
      have hparam : q.formParam type = none := by rw [Part.formParam, hn]; rfl
      rw [paramsParseMultiparts_skip hq.headers hn, hrest, List.filterMap_cons_none hparam]
    | some name =>
      have hparam : q.formParam type = some { name := name, value := q.postBody.getD []
                                              valueLen := q.postBodyLen, type := type
                                              valAlloced := false } := by
        rw [Part.formParam, hn]
        rfl
      rw [paramsParseMultiparts_name hn, if_neg (Nat.not_le.2 (hq.name name hn)), hrest,
        List.filterMap_cons_some hparam, List.append_assoc]
      rfl

/-- They are read only then. -/
theorem paramsParseMultiparts_inv (type : ℕ) : ∀ (qs : List Part) (params : List Param),
    paramsParseMultiparts params qs type = .ok out → ∀ q ∈ qs, q.Readable := by
  intro qs
  induction qs with
  | nil => intro _ _ q hq; exact (List.not_mem_nil hq).elim
  | cons q qs ih =>
    intro params hrun
    by_cases hh : q.headers = none
    · rw [paramsParseMultiparts_gone hh] at hrun
      cases hrun
    rw [List.forall_mem_cons]
    cases hn : q.formName with
    | none =>
      rw [paramsParseMultiparts_skip hh hn] at hrun
      refine ⟨⟨hh, fun name h => ?_⟩, ih params hrun⟩
      rw [hn] at h
      cases h
    | some name =>
      rw [paramsParseMultiparts_name hn] at hrun
      by_cases hlong : paramsNameMaxLen ≤ name.length
      · rw [if_pos hlong] at hrun
        cases hrun
      · rw [if_neg hlong] at hrun
        refine ⟨⟨hh, fun name' h => ?_⟩, ih _ hrun⟩
        cases hn.symm.trans h
        exact Nat.not_le.1 hlong

end Params

/-! ## The request -/

section Request

variable {kind : List UInt8} {params : List Param}

theorem partsText_length : ∀ parts : List (MimePart boundary),
    parts.length + 4 ≤ (partsText parts).length := by
  intro parts
  induction parts with
  | nil =>
    show 4 ≤ (ascii "--" ++ crlf).length
    decide
  | cons p ps ih =>
    have : crlf.length = 2 := rfl
    simp only [partsText, List.length_append, List.length_cons]
    omega

/-- The loop starts behind the first delimiter. -/
theorem requestParts_loop (parts : List (MimePart boundary)) (header : Option Header)
    (stored : List Part) (last : Except BodyFault (Option Header))
    (h : ∀ fuel, parts.length ≤ fuel → multipartLoop (delimiter boundary) fuel [] (.ok header)
      ((partsText parts).drop 2) = .ok (stored, last)) (hlen : stored.length < connMaxHttpMultipart) :
    requestParts (delimiter boundary) header params (multipartBody parts) =
      last.bind fun header =>
        if isForm header then (paramsParseMultiparts params stored 2).map fun out => (stored, out)
        else .ok (stored, params) := by
  have htext := partsText_length parts
  have hstart : startswith (multipartBody parts) (delimiter boundary) = true :=
    startswith_iff.2 (List.prefix_append _ _)
  have hlong : ¬(multipartBody parts).length < (delimiter boundary).length + 2 := by
    rw [multipartBody, List.length_append]
    omega
  have hdrop : (multipartBody parts).drop ((delimiter boundary).length + 2) =
      (partsText parts).drop 2 := by
    rw [← List.drop_drop, multipartBody, List.drop_left]
  have hrun := h (((partsText parts).drop 2).length + 1) (by rw [List.length_drop]; omega)
  unfold requestParts
  rw [if_pos hstart, if_neg hlong]
  simp only [hdrop, hrun]
  cases last with
  | error f => rfl
  | ok header =>
    cases header with
    | none => rfl
    | some header =>
      by_cases hform : headersGetHeaderAttr header none = some (ascii "multipart/form-data")
      · have hform' : isForm (some header) := hform
        show (if headersGetHeaderAttr header none = some (ascii "multipart/form-data") then _
          else _) = (if isForm (some header) then _ else _)
        rw [if_pos hform, if_pos hform', if_neg (Nat.not_le.2 hlen)]
        cases paramsParseMultiparts params stored 2 with
        | error f => rfl
        | ok out => rfl
      · have hform' : ¬isForm (some header) := hform
        show (if headersGetHeaderAttr header none = some (ascii "multipart/form-data") then _
          else _) = (if isForm (some header) then _ else _)
        rw [if_neg hform, if_neg hform']
        rfl

/-- A body without parts. -/
theorem requestParts_nil (header : Option Header) :
    requestParts (delimiter boundary) header params
      (multipartBody ([] : List (MimePart boundary))) = .ok ([], params) := by
  have hnone : strstr ((partsText ([] : List (MimePart boundary))).drop 2) (delimiter boundary) =
      none := by
    have hskip := strstr_skip (s := []) (f := delimiter boundary) (a := crlf) (by decide)
      fun i hi => no_prefix_char (f := 45 :: boundary) (c := 45) (by decide) hi
    rw [List.append_nil] at hskip
    exact hskip
  rw [requestParts_loop [] header [] (.ok header) (fun fuel _ => multipartLoop_none hnone) (by decide)]
  show (if isForm header then _ else _) = _
  split
  · rfl
  · rfl

/-- A body with parts: what is done with them depends on the last one. -/
theorem requestParts_cons (h : Multipart kind boundary) (p : MimePart boundary)
    (ps : List (MimePart boundary)) (hlen : (p :: ps).length < connMaxHttpMultipart)
    (header : Option Header) (params : List Param) :
    ∃ last, (storedParts (p :: ps)).getLast? = some last ∧
      requestParts (delimiter boundary) header params (multipartBody (p :: ps)) =
        if last.charset.length < charsetLen then
          if isForm last.contentType then
            (paramsParseMultiparts params ((storedParts (p :: ps)).map Part.kept) 2).map
              fun out => ((storedParts (p :: ps)).map Part.kept, out)
          else .ok ((storedParts (p :: ps)).map Part.kept, params)
        else .error .headersGone := by
  obtain ⟨last, hlast, -⟩ := multipartLoop_parts h ps p (p :: ps).length [] (.ok header)
    (by rw [List.length_nil]; omega) (Nat.le_refl _)
  refine ⟨last, hlast, ?_⟩
  have hstored : ∀ parts : List (MimePart boundary), (storedParts parts).length = parts.length := by
    intro parts
    induction parts with
    | nil => rfl
    | cons p ps ih => exact congrArg (· + 1) ih
  rw [requestParts_loop (p :: ps) header ((storedParts (p :: ps)).map Part.kept)
    (headerBy last.charset last.contentType)]
  · unfold headerBy
    by_cases hshort : last.charset.length < charsetLen
    · rw [if_pos hshort, if_pos hshort]
      rfl
    · rw [if_neg hshort, if_neg hshort]
      rfl
  · intro fuel hfuel
    obtain ⟨last', hlast', hrun⟩ := multipartLoop_parts h ps p fuel [] (.ok header)
      (by rw [List.length_nil]; omega) hfuel
    cases hlast.symm.trans hlast'
    exact hrun
  · rw [List.length_map, hstored]
    exact hlen

/-- The boundary is the one in the `Content-Type`. -/
theorem multipartBoundary_type (h : Multipart kind boundary) {header : Header}
    (hvalue : header.value = multipartType kind boundary) :
    multipartBoundary true (some header) = some boundary := by
  obtain ⟨key, value⟩ := header
  cases hvalue
  have hmulti : startswith ((headersGetHeaderAttr ⟨key, multipartType kind boundary⟩ none).getD [])
      (ascii "multipart") = true := by
    have hsplit : multipartType kind boundary = ascii "multipart" ++
        (ascii "/" ++ kind ++ (ascii "boundary" ++ 61 :: boundary)) := by
      have hslash : ascii "multipart/" = ascii "multipart" ++ ascii "/" := by decide
      refine (congrArg (· ++ kind ++ (ascii "boundary" ++ 61 :: boundary)) hslash).trans ?_
      simp only [List.append_assoc]
    rw [headersGetHeaderAttr, Option.getD_some]
    apply startswith_iff.2
    show ascii "multipart" <+: attrText (multipartType kind boundary)
    rw [hsplit]
    exact attrText_prefix (by decide)
  have hhead : boundary.headD 0 ≠ 34 := by
    cases hb : boundary with
    | nil => decide
    | cons c b => exact (h.boundary_char c (hb ▸ List.mem_cons_self)).2.1
  have hname : ascii "boundary" = 98 :: ascii "oundary" := by decide
  have heq : ∀ s, (98 :: ascii "oundary") ++ [61] <:+: s → ascii "boundary=" <:+: s := by
    have hsame : ascii "boundary=" = (98 :: ascii "oundary") ++ [61] := by decide
    intro s hin
    rw [hsame]
    exact hin
  have hnul : 0 ∉ ascii "multipart/" ++ kind := by
    intro h0
    rcases List.mem_append.1 h0 with h0 | h0
    · revert h0
      decide
    · exact h.kind_nul h0
  have hattr : headersGetHeaderAttr ⟨key, multipartType kind boundary⟩ (some (ascii "boundary")) =
      some boundary := by
    have hno : ¬(98 :: ascii "oundary") ++ [61] <:+: ascii "multipart/" ++ kind :=
      fun hin => h.kind_free (heq _ hin)
    have hplain := getHeaderAttr_plain (by decide) (by decide) (by decide) hnul hno
      hhead (fun hs => (h.boundary_char 59 hs).2.2 rfl) key
    rw [← hname] at hplain
    unfold multipartType
    exact hplain
  exact (if_pos rfl).trans ((if_pos hmulti).trans hattr)

variable {req : PostRequest}

/-- Without headers there is no `Content-Type`. -/
theorem PostRequest.lines_ne {header : Header} (h : req.contentType = some header) :
    req.lines ≠ [] := by
  intro hnil
  have hrest : req.rest = crlf ++ req.body := by rw [PostRequest.rest, hnil]; rfl
  rw [PostRequest.contentType, hrest, headersParse, headersParseLoop_end] at h
  cases h

/-- `connection_create` for a multipart request. -/
theorem connectionCreateAll_multipart {website : Website} {sockfd size : ℕ} {conn : Connection}
    {header : Header} (hconn : connectionCreate website sockfd req.raw = .ok (some conn))
    (htype : req.contentType = some header)
    (hm : multipartBoundary true (some header) = some boundary) :
    connectionCreateAll website true sockfd req.raw size =
      ((requestParts (delimiter boundary) (some header) conn.params req.body).mapError
        CreateFault.body).map fun r => some
          { conn, headers := keptBy (charsetOf (some header)) (headersParse req.rest)
            params := r.2, postBody := none, postBodyLen := 0, charset := charsetOf (some header)
            parts := r.1 } := by
  obtain ⟨k, hk, hdrop⟩ := req.blank (PostRequest.lines_ne htype)
  obtain ⟨hpost, hrest⟩ := PostRequest.rest_eq hconn
  have hct : headersGetHeader (headersParse req.rest) (ascii "Content-Type") = some header := htype
  have hbody : connectionBody true conn req.raw.length size =
      (requestParts (delimiter boundary) (some header) conn.params req.body).map fun r =>
        { conn, headers := keptBy (charsetOf (some header)) (headersParse req.rest)
          params := r.2, postBody := none, postBodyLen := 0, charset := charsetOf (some header)
          parts := r.1 } := by
    unfold connectionBody
    rw [hrest, if_pos hpost, hk]
    simp only [hct, hm, hdrop]
    show (requestParts (delimiter boundary) (some header) conn.params req.body).bind _ = _
    cases requestParts (delimiter boundary) (some header) conn.params req.body with
    | error f => rfl
    | ok r => rfl
  unfold connectionCreateAll
  rw [hconn]
  show ((connectionBody true conn req.raw.length size).mapError CreateFault.body).bind _ = _
  rw [hbody]
  cases requestParts (delimiter boundary) (some header) conn.params req.body with
  | error f => rfl
  | ok r => rfl

/-! ## Parts as they were sent -/

theorem Part.kept_eq_iff {q : Part} (hq : q.headers ≠ none) :
    q.kept = q ↔ q.charset.length < charsetLen := by
  obtain ⟨headers, hs⟩ := Option.ne_none_iff_exists'.1 hq
  have hkept : q.kept.headers = keptBy q.charset headers := by rw [Part.kept, hs]; rfl
  constructor
  · intro h
    by_contra hlong
    rw [h, hs, keptBy, if_neg hlong] at hkept
    cases hkept
  · intro hshort
    rw [keptBy, if_pos hshort, ← hs] at hkept
    cases q
    exact congrArg (fun x => Part.mk x _ _ _) hkept

theorem storedParts_headers : ∀ {parts : List (MimePart boundary)} {q : Part},
    q ∈ storedParts parts → q.headers ≠ none := by
  intro parts
  induction parts with
  | nil => intro q hq; exact (List.not_mem_nil hq).elim
  | cons p ps ih =>
    intro q hq
    rcases List.mem_cons.1 hq with rfl | hq
    · exact Option.some_ne_none _
    · exact ih hq

/-- The headers are all as they were read when no charset was too long for its place. -/
theorem kept_eq_iff {parts : List (MimePart boundary)} :
    (storedParts parts).map Part.kept = storedParts parts ↔
      ∀ q ∈ storedParts parts, q.charset.length < charsetLen := by
  have hmap : ∀ qs : List Part, qs.map Part.kept = qs ↔ ∀ q ∈ qs, q.kept = q := by
    intro qs
    conv_lhs => rhs; rw [← List.map_id qs]
    exact List.map_inj_left
  rw [hmap]
  constructor
  · intro h q hq
    exact (Part.kept_eq_iff (storedParts_headers hq)).1 (h q hq)
  · intro h q hq
    exact (Part.kept_eq_iff (storedParts_headers hq)).2 (h q hq)

/-- `connection_create` ends well for a multipart request when it ends well with the parts. -/
theorem connectionCreateAll_parts {website : Website} {sockfd size : ℕ} {conn : Connection}
    {header : Header} {P : List Part → List Param → Prop}
    (hconn : connectionCreate website sockfd req.raw = .ok (some conn))
    (htype : req.contentType = some header)
    (hm : multipartBoundary true (some header) = some boundary) :
    (∃ c, connectionCreateAll website true sockfd req.raw size = .ok (some c) ∧
        P c.parts c.params) ↔
      ∃ parts params, requestParts (delimiter boundary) (some header) conn.params req.body =
        .ok (parts, params) ∧ P parts params := by
  rw [connectionCreateAll_multipart hconn htype hm]
  cases hr : requestParts (delimiter boundary) (some header) conn.params req.body with
  | error f =>
    constructor
    · rintro ⟨c, h, -⟩
      cases h
    · rintro ⟨parts, params, h, -⟩
      cases h
  | ok r =>
    constructor
    · rintro ⟨c, h, hp⟩
      cases h
      exact ⟨r.1, r.2, rfl, hp⟩
    · rintro ⟨parts, params, h, hp⟩
      cases h
      exact ⟨_, rfl, hp⟩

/-- **When a multipart body is cut exactly.** For every request with such a body that is accepted:
`connection_create` stores the parts as they were sent exactly when every part's charset has room
in its array, and, if the last part says that it is a form, every part's name does. -/
theorem multipart_exact_iff (website : Website) (sockfd size : ℕ) (req : PostRequest)
    (conn : Connection) (header : Header) (kind boundary : List UInt8)
    (parts : List (MimePart boundary)) (hm : Multipart kind boundary)
    (hlen : parts.length < connMaxHttpMultipart)
    (htype : req.contentType = some header) (hvalue : header.value = multipartType kind boundary)
    (hbody : req.body = multipartBody parts)
    (hconn : connectionCreate website sockfd req.raw = .ok (some conn)) :
    (∃ c, connectionCreateAll website true sockfd req.raw size = .ok (some c) ∧
        c.parts = storedParts parts) ↔
      (∀ q ∈ storedParts parts, q.charset.length < charsetLen) ∧
      ((∃ last, (storedParts parts).getLast? = some last ∧ isForm last.contentType) →
        ∀ q ∈ storedParts parts, q.Readable) := by
  rw [connectionCreateAll_parts (P := fun stored _ => stored = storedParts parts) hconn htype
    (multipartBoundary_type hm hvalue), hbody]
  cases parts with
  | nil =>
    rw [requestParts_nil]
    constructor
    · intro _
      refine ⟨fun q hq => (List.not_mem_nil hq).elim, ?_⟩
      rintro ⟨last, hlast, -⟩
      cases hlast
    · intro _
      exact ⟨[], conn.params, rfl, rfl⟩
  | cons p ps =>
    obtain ⟨last, hlast, hrun⟩ := requestParts_cons hm p ps hlen (some header)
      conn.params
    have hmem : last ∈ storedParts (p :: ps) := List.mem_of_getLast? hlast
    rw [hrun]
    by_cases hshort : last.charset.length < charsetLen
    · rw [if_pos hshort]
      by_cases hform : isForm last.contentType
      · rw [if_pos hform]
        constructor
        · rintro ⟨stored, params, hok, hs⟩
          obtain ⟨out, hparse, hout⟩ := map_inv hok
          obtain ⟨rfl, rfl⟩ := Prod.mk.inj hout
          refine ⟨kept_eq_iff.1 hs, fun _ => ?_⟩
          rw [hs] at hparse
          exact paramsParseMultiparts_inv 2 _ _ hparse
        · rintro ⟨hall, hread⟩
          rw [kept_eq_iff.2 hall, paramsParseMultiparts_ok 2 _ _ (hread ⟨last, hlast, hform⟩)]
          exact ⟨_, _, rfl, rfl⟩
      · rw [if_neg hform]
        constructor
        · rintro ⟨stored, params, hok, hs⟩
          cases hok
          refine ⟨kept_eq_iff.1 hs, ?_⟩
          rintro ⟨last', hlast', hform'⟩
          cases hlast.symm.trans hlast'
          exact absurd hform' hform
        · rintro ⟨hall, -⟩
          exact ⟨_, _, rfl, kept_eq_iff.2 hall⟩
    · rw [if_neg hshort]
      constructor
      · rintro ⟨stored, params, hok, -⟩
        cases hok
      · rintro ⟨hall, -⟩
        exact absurd (hall last hmem) hshort

end Request

/-- A request with a multipart body. -/
def partsPost (body : List UInt8) : PostRequest :=
  { textPost body with
    line := ascii "/test/x?q=1 HTTP/1.0"
    lines := [ascii "Content-Type: multipart/form-data; boundary=B"]
    line_nul := by decide
    line_crlf := by decide
    lines_ok := by decide }

/-- Its `Content-Type`. -/
def partsHeader : Header :=
  { name := ascii "Content-Type", value := multipartType (ascii "form-data; ") (ascii "B") }

theorem partsPost_type (body : List UInt8) : (partsPost body).contentType = some partsHeader := by
  let line : HeaderLine :=
    { name := ascii "Content-Type", spaces := 1
      value := ascii "multipart/form-data; boundary=B"
      name_ne := by decide, name_char := by decide +kernel
      value_char := by decide +kernel, value_head := by decide }
  have hrest : (partsPost body).rest = linesText ([line].map HeaderLine.text) ++ (crlf ++ body) := by
    have hline : [ascii "Content-Type: multipart/form-data; boundary=B"] =
        [line].map HeaderLine.text := by decide
    exact congrArg (fun lines => linesText lines ++ (crlf ++ body)) hline
  rw [PostRequest.contentType, hrest, headersParse_lines]
  decide

theorem multipart_b : Multipart (ascii "form-data; ") (ascii "B") :=
  ⟨by decide, by decide, by decide +kernel⟩

/-- A part with one header. -/
def plainPart : MimePart (ascii "B") where
  lines := [ascii "A: 1"]
  body := ascii "x"
  lines_ne := List.cons_ne_nil _ _
  lines_ok := by decide
  lines_free := by decide
  body_nul := by decide
  body_free := by decide

theorem created_conn {x : Except ConnFault (Option Connection)}
    (h : x.toOption.join.isSome = true) : ∃ conn, x = .ok (some conn) := by
  cases x with
  | error e => cases h
  | ok found =>
    cases found with
    | none => cases h
    | some conn => exact ⟨conn, rfl⟩

/-- A part with two headers and a body of two lines. -/
def longerPart : MimePart (ascii "B") where
  lines := [ascii "A: 2", ascii "C: 3"]
  body := ascii "y\r\nz"
  lines_ne := List.cons_ne_nil _ _
  lines_ok := by decide
  lines_free := by decide
  body_nul := by decide
  body_free := by decide

/-- Two parts. -/
theorem multipart_exact_one : ∃ c, connectionCreateAll testSite true 7
      (partsPost (multipartBody [plainPart, longerPart])).raw 0 = .ok (some c) ∧
    c.parts = storedParts [plainPart, longerPart] := by
  obtain ⟨conn, hconn⟩ := created_conn (x := connectionCreate testSite 7
    (partsPost (multipartBody [plainPart, longerPart])).raw) (by decide +kernel)
  refine (multipart_exact_iff testSite 7 0 (partsPost (multipartBody [plainPart, longerPart])) conn
    partsHeader (ascii "form-data; ") (ascii "B") [plainPart, longerPart] multipart_b (by decide)
    (partsPost_type _) rfl rfl hconn).2 ⟨by decide, ?_⟩
  rintro ⟨last, hlast, hform⟩
  cases hlast
  exact absurd hform (by decide)

/-- A part whose charset has a hundred characters. -/
def charsetPart : MimePart (ascii "B") where
  lines := [ascii "Content-Type: text/plain; charset=" ++ List.replicate 100 120]
  body := ascii "x"
  lines_ne := List.cons_ne_nil _ _
  lines_ok := by decide +kernel
  lines_free := by decide +kernel
  body_nul := by decide
  body_free := by decide

/-- Its charset runs over the headers of the first of two parts. -/
theorem multipart_overrun : ¬∀ (website : Website) (sockfd size : ℕ) (req : PostRequest)
    (conn : Connection) (header : Header) (kind boundary : List UInt8)
    (parts : List (MimePart boundary)), Multipart kind boundary →
    parts.length < connMaxHttpMultipart → req.contentType = some header →
    header.value = multipartType kind boundary → req.body = multipartBody parts →
    connectionCreate website sockfd req.raw = .ok (some conn) →
    ∃ c, connectionCreateAll website true sockfd req.raw size = .ok (some c) ∧
      c.parts = storedParts parts := by
  intro h
  obtain ⟨conn, hconn⟩ := created_conn (x := connectionCreate testSite 7
    (partsPost (multipartBody [charsetPart, plainPart])).raw) (by decide +kernel)
  obtain ⟨c, hc, hparts⟩ := h testSite 7 0 (partsPost (multipartBody [charsetPart, plainPart])) conn
    partsHeader (ascii "form-data; ") (ascii "B") [charsetPart, plainPart] multipart_b (by decide)
    (partsPost_type _) rfl rfl hconn
  have hgot : ((connectionCreateAll testSite true 7
      (partsPost (multipartBody [charsetPart, plainPart])).raw 0).toOption.join.map fun c =>
        c.parts.map Part.headers) = some [none, some [⟨ascii "A", ascii "1"⟩]] := by
    decide +kernel
  rw [hc] at hgot
  have hheaders : c.parts.map Part.headers = [none, some [⟨ascii "A", ascii "1"⟩]] :=
    Option.some.inj hgot
  rw [hparts] at hheaders
  exact absurd (List.cons.inj hheaders).1 (Option.some_ne_none _)

/-- A delimiter where the headers of a part should be. -/
theorem multipart_negative : ¬∀ (website : Website) (sockfd size : ℕ) (req : PostRequest)
    (boundary : List UInt8) (f : BodyFault),
    multipartBoundary true req.contentType = some boundary →
    connectionCreateAll website true sockfd req.raw size = .error (.body f) →
    f ≠ .partIndex ∧ f ≠ .negativeLen := by
  intro h
  have hrun : connectionCreateAll testSite true 7
      (partsPost (ascii "--B\r\n--B\r\n\r\n")).raw 0 = .error (.body .negativeLen) :=
    error_of_failure (by decide)
  have hboundary : multipartBoundary true
      (partsPost (ascii "--B\r\n--B\r\n\r\n")).contentType = some (ascii "B") := by
    rw [partsPost_type]
    exact multipartBoundary_type multipart_b rfl
  exact (h testSite 7 0 _ (ascii "B") .negativeLen hboundary hrun).2 rfl

end Zimr
