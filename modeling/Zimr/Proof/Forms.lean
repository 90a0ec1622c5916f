import Zimr.Proof.Multipart

/-!
# Forms

* `FormPart.formName_eq` — the name of a part is read from its `Content-Disposition`, if that is
  among the headers the table has room for
* `form_params_iff` — when the parts of a form become parameters
-/

namespace Zimr

open Run

variable {boundary kind : List UInt8} {f : FormPart boundary}

/-- The headers that are read in a part of a form. -/
theorem FormPart.stored_headers (f : FormPart boundary) (ps : List (MimePart boundary)) :
    (f.toMimePart.stored ps).headers = some
      (((f.before ++ f.disposition :: f.after).take headersMaxNum).map HeaderLine.header) := by
  have htext : f.toMimePart.text ++ (crlf ++ (delimiter boundary ++ partsText ps)) =
      linesText ((f.before ++ f.disposition :: f.after).map HeaderLine.text) ++
        (crlf ++ (f.body ++ (crlf ++ (delimiter boundary ++ partsText ps)))) := by
    rw [MimePart.text, f.lines_eq]
    simp only [List.append_assoc]
  show some (headersParse (f.toMimePart.text ++ (crlf ++ (delimiter boundary ++ partsText ps)))) = _
  rw [htext, headersParse_lines]

/-- What the table holds of the `Content-Disposition`. -/
theorem FormPart.disposition_text (f : FormPart boundary) : ∃ rest,
    f.disposition.header.value = ascii "form-data; name=\"" ++ (f.name ++ 34 :: rest) := by
  have hquote : (ascii "form-data; name=\"").length = 17 := by decide
  have hmax : headerValueMaxLen - 1 = 17 + (f.name.length + 1) + (2029 - f.name.length) := by
    have hshort : f.name.length < 128 := f.name_short
    have : headerValueMaxLen - 1 = 2047 := rfl
    omega
  refine ⟨f.more.take (2029 - f.name.length), ?_⟩
  show f.disposition.value.take (headerValueMaxLen - 1) = _
  have hsplit : ascii "form-data; name=\"" ++ (f.name ++ 34 :: f.more) =
      (ascii "form-data; name=\"" ++ (f.name ++ [34])) ++ f.more := by
    simp only [List.append_assoc, List.cons_append, List.nil_append]
  have hlen : (ascii "form-data; name=\"" ++ (f.name ++ [34])).length =
      17 + (f.name.length + 1) := by
    rw [List.length_append, List.length_append, hquote]
    rfl
  rw [f.disposition_value, hmax, hsplit, ← hlen, List.take_length_add_append]
  simp only [List.append_assoc, List.cons_append, List.nil_append]

/-- The two attributes of the `Content-Disposition`. -/
theorem FormPart.disposition_attr (f : FormPart boundary) :
    headersGetHeaderAttr f.disposition.header none = some (ascii "form-data") ∧
      headersGetHeaderAttr f.disposition.header (some (ascii "name")) = some f.name := by
  obtain ⟨rest, hrest⟩ := f.disposition_text
  have hz : 0 ∉ f.name := by
    intro h0
    have hmem : 0 ∈ f.disposition.value := by
      rw [f.disposition_value]
      exact List.mem_append_right _ (List.mem_append_left _ h0)
    exact (f.disposition.value_char 0 hmem).1 rfl
  generalize f.disposition.header = header at hrest ⊢
  obtain ⟨key, value⟩ := header
  simp only at hrest
  subst hrest
  constructor
  · have hsplit : ascii "form-data; name=\"" ++ (f.name ++ 34 :: rest) =
        ascii "form-data" ++ 59 :: (ascii " name=\"" ++ (f.name ++ 34 :: rest)) := by
      have hsame : ascii "form-data; name=\"" = ascii "form-data" ++ 59 :: ascii " name=\"" := by
        decide
      refine (congrArg (· ++ (f.name ++ 34 :: rest)) hsame).trans ?_
      simp only [List.append_assoc, List.cons_append]
    have htext := attrText_semicolon (s := ascii "form-data") (by decide)
      (by decide) (ascii " name=\"" ++ (f.name ++ 34 :: rest))
    exact congrArg some ((congrArg attrText hsplit).trans htext)
  · have hname : ascii "name" = 110 :: ascii "ame" := by decide
    have hsame : ascii "form-data; name=\"" =
        ascii "form-data; " ++ ((110 :: ascii "ame") ++ 61 :: [34]) := by decide
    have hsplit : ascii "form-data; name=\"" ++ (f.name ++ 34 :: rest) =
        ascii "form-data; " ++ ((110 :: ascii "ame") ++ 61 :: 34 :: (f.name ++ 34 :: rest)) := by
      refine (congrArg (· ++ (f.name ++ 34 :: rest)) hsame).trans ?_
      simp only [List.append_assoc, List.cons_append, List.nil_append]
    have hquoted := getHeaderAttr_quoted (c := 110) (n := ascii "ame") (a := ascii "form-data; ")
      (by decide) (by decide) (by decide) (by decide) (by decide)
      hz f.name_quote rest key
    rw [← hname] at hquoted
    exact (congrArg (fun v => headersGetHeaderAttr ⟨key, v⟩ (some (ascii "name"))) hsplit).trans
      hquoted

/-- The name of a stored part of a form: it is read when its header is in the table. -/
theorem FormPart.formName_eq (f : FormPart boundary) (ps : List (MimePart boundary)) :
    (f.toMimePart.stored ps).formName =
      if f.before.length < headersMaxNum then some f.name else none := by
  obtain ⟨hform, hname⟩ := f.disposition_attr
  have hkey : keyOf (ascii "Content-Disposition") = ascii "Content-Disposition" := by
    decide
  have hother : ∀ l ∈ f.before.map HeaderLine.header,
      ¬l.name = keyOf (ascii "Content-Disposition") := by
    intro l hl
    obtain ⟨line, hline, rfl⟩ := List.mem_map.1 hl
    rw [hkey]
    exact f.before_other line hline
  have hfound : (((f.before ++ f.disposition :: f.after).take headersMaxNum).map
      HeaderLine.header).find? (fun h => h.name = keyOf (ascii "Content-Disposition")) =
        if f.before.length < headersMaxNum then some f.disposition.header else none := by
    by_cases hlt : f.before.length < headersMaxNum
    · obtain ⟨n, hn⟩ : ∃ n, headersMaxNum = f.before.length + (n + 1) :=
        ⟨headersMaxNum - f.before.length - 1, by omega⟩
      rw [if_pos hlt, hn, List.take_length_add_append, List.take_succ_cons, List.map_append,
        List.find?_append, List.find?_eq_none.2 fun l hl => by simpa using hother l hl,
        Option.none_or, List.map_cons, List.find?_cons_of_pos]
      rw [hkey]
      exact decide_eq_true f.disposition_name
    · rw [if_neg hlt, List.take_append_of_le_length (Nat.not_lt.1 hlt), List.find?_eq_none]
      intro l hl
      obtain ⟨line, hline, rfl⟩ := List.mem_map.1 hl
      simpa using hother line.header (List.mem_map.2 ⟨line, List.mem_of_mem_take hline, rfl⟩)
  unfold Part.formName
  rw [f.stored_headers ps]
  show (List.find? _ _).bind _ = _
  rw [hfound]
  by_cases hlt : f.before.length < headersMaxNum
  · rw [if_pos hlt, if_pos hlt, Option.bind_some, if_pos hform]
    exact hname
  · rw [if_neg hlt, if_neg hlt]
    rfl

/-- The entries for the parts of a form. -/
abbrev storedForms (forms : List (FormPart boundary)) : List Part :=
  storedParts (forms.map FormPart.toMimePart)

theorem FormPart.formParam_eq (f : FormPart boundary) (ps : List (MimePart boundary)) :
    (f.toMimePart.stored ps).formParam 2 =
      if f.before.length < headersMaxNum then some f.param else none := by
  rw [Part.formParam, f.formName_eq]
  by_cases hlt : f.before.length < headersMaxNum
  · rw [if_pos hlt, if_pos hlt]
    rfl
  · rw [if_neg hlt, if_neg hlt]
    rfl

/-- All the names have room. -/
theorem storedForms_readable : ∀ {forms : List (FormPart boundary)},
    ∀ q ∈ storedForms forms, q.Readable := by
  intro forms
  induction forms with
  | nil => intro q hq; exact (List.not_mem_nil hq).elim
  | cons f fs ih =>
    intro q hq
    rcases List.mem_cons.1 hq with rfl | hq
    · refine ⟨Option.some_ne_none _, fun name hn => ?_⟩
      rw [f.formName_eq] at hn
      split at hn
      · cases hn
        exact f.name_short
      · cases hn
    · exact ih q hq

/-- The parameters are those of the parts whose `Content-Disposition` is in the table. -/
theorem storedForms_params : ∀ forms : List (FormPart boundary),
    (storedForms forms).filterMap (Part.formParam 2) =
      (forms.filter fun f => f.before.length < headersMaxNum).map FormPart.param := by
  intro forms
  induction forms with
  | nil => rfl
  | cons f fs ih =>
    show (f.toMimePart.stored _ :: storedForms fs).filterMap _ = _
    by_cases hlt : f.before.length < headersMaxNum
    · rw [List.filterMap_cons_some (by rw [f.formParam_eq, if_pos hlt]), ih,
        List.filter_cons_of_pos (by simpa using hlt), List.map_cons]
    · rw [List.filterMap_cons_none (by rw [f.formParam_eq, if_neg hlt]), ih,
        List.filter_cons_of_neg (by simpa using hlt)]

/-- All of them are there when every part's is. -/
theorem storedForms_params_iff (forms : List (FormPart boundary)) :
    (storedForms forms).filterMap (Part.formParam 2) = forms.map FormPart.param ↔
      ∀ f ∈ forms, f.before.length < headersMaxNum := by
  rw [storedForms_params]
  constructor
  · intro h
    have hlen := congrArg List.length h
    rw [List.length_map, List.length_map] at hlen
    intro f hf
    have hall := List.length_filter_eq_length_iff.1 hlen f hf
    simpa using hall
  · intro h
    rw [List.filter_eq_self.2 fun f hf => by simpa using h f hf]

/-- **When a form reaches the parameters.** For every request with such a form that is accepted:
the parameters are those of the query string and then those of the parts, in order, exactly when
there is no part, or the last part says itself that it is a form, no charset is too long for its
array, and every `Content-Disposition` is among the headers the table has room for. -/
theorem form_params_iff (website : Website) (sockfd size : ℕ) (req : PostRequest)
    (conn : Connection) (header : Header) (kind boundary : List UInt8)
    (forms : List (FormPart boundary)) (hm : Multipart kind boundary)
    (hlen : forms.length < connMaxHttpMultipart)
    (htype : req.contentType = some header) (hvalue : header.value = multipartType kind boundary)
    (hbody : req.body = multipartBody (forms.map FormPart.toMimePart))
    (hconn : connectionCreate website sockfd req.raw = .ok (some conn)) :
    (∃ c, connectionCreateAll website true sockfd req.raw size = .ok (some c) ∧
        c.params = conn.params ++ forms.map FormPart.param) ↔
      forms = [] ∨
        (∃ last, (storedForms forms).getLast? = some last ∧ isForm last.contentType) ∧
        (∀ q ∈ storedForms forms, q.charset.length < charsetLen) ∧
        ∀ f ∈ forms, f.before.length < headersMaxNum := by
  rw [connectionCreateAll_parts (P := fun _ params => params = conn.params ++ forms.map FormPart.param)
    hconn htype (multipartBoundary_type hm hvalue), hbody]
  cases hforms : forms with
  | nil =>
    rw [List.map_nil, requestParts_nil, List.map_nil, List.append_nil]
    constructor
    · intro _
      exact Or.inl rfl
    · intro _
      exact ⟨[], conn.params, rfl, rfl⟩
  | cons f fs =>
    obtain ⟨last, hlast, hrun⟩ := requestParts_cons hm f.toMimePart (fs.map FormPart.toMimePart)
      (by rw [← List.map_cons, List.length_map, ← hforms]; exact hlen) (some header) conn.params
    rw [← List.map_cons] at hlast hrun
    rw [hrun]
    have hmem : last ∈ storedForms (f :: fs) := List.mem_of_getLast? hlast
    by_cases hshort : last.charset.length < charsetLen
    · rw [if_pos hshort]
      by_cases hform : isForm last.contentType
      · rw [if_pos hform]
        constructor
        · rintro ⟨stored, params, hok, hp⟩
          obtain ⟨out, hparse, hout⟩ := map_inv hok
          obtain ⟨-, rfl⟩ := Prod.mk.inj hout
          -- what was read had not been overwritten
          have hread := paramsParseMultiparts_inv 2 _ _ hparse
          have hall : ∀ q ∈ storedForms (f :: fs), q.charset.length < charsetLen := by
            intro q hq
            by_contra hlong
            apply (hread q.kept (List.mem_map_of_mem hq)).headers
            obtain ⟨headers, hs⟩ := Option.ne_none_iff_exists'.1 (storedParts_headers hq)
            rw [Part.kept, hs]
            exact if_neg hlong
          rw [kept_eq_iff.2 hall] at hparse
          have hout := Except.ok.inj (hparse.symm.trans
            (paramsParseMultiparts_ok 2 _ _ storedForms_readable))
          rw [hp] at hout
          exact Or.inr ⟨⟨last, hlast, hform⟩, hall,
            (storedForms_params_iff _).1 (List.append_cancel_left hout).symm⟩
        · rintro (h | ⟨-, hall, hbefore⟩)
          · cases h
          · rw [kept_eq_iff.2 hall, paramsParseMultiparts_ok 2 _ _ storedForms_readable]
            exact ⟨_, _, rfl, congrArg (conn.params ++ ·) ((storedForms_params_iff _).2 hbefore)⟩
      · rw [if_neg hform]
        constructor
        · rintro ⟨stored, params, hok, hp⟩
          -- nothing was added
          cases hok
          have hnil := List.append_cancel_left ((List.append_nil conn.params).trans hp)
          cases hnil
        · rintro (h | ⟨⟨last', hlast', hform'⟩, -⟩)
          · cases h
          · cases hlast.symm.trans hlast'
            exact absurd hform' hform
    · rw [if_neg hshort]
      constructor
      · rintro ⟨stored, params, hok, -⟩
        cases hok
      · rintro (h | ⟨-, hall, -⟩)
        · cases h
        · exact absurd (hall last hmem) hshort

/-- A header line of a part. -/
def partLine (name value : List UInt8) (hne : name ≠ [])
    (hname : ∀ c ∈ name, c ≠ 0 ∧ c ≠ 10 ∧ c ≠ 13 ∧ c ≠ 58) (hvalue : ∀ c ∈ value, c ≠ 0 ∧ c ≠ 13)
    (hhead : value.head? ≠ some 32) : HeaderLine where
  name
  spaces := 1
  value
  name_ne := hne
  name_char := hname
  value_char := hvalue
  value_head := hhead

/-- The headers `Content-Disposition: form-data; name="a"`, the same for `b`, and
`Content-Type: multipart/form-data`. -/
def dispositionA : HeaderLine := partLine (ascii "Content-Disposition") (ascii "form-data; name=\"a\"")
  (by decide) (by decide +kernel) (by decide +kernel) (by decide)
def dispositionB : HeaderLine := partLine (ascii "Content-Disposition") (ascii "form-data; name=\"b\"")
  (by decide) (by decide +kernel) (by decide +kernel) (by decide)
def formTypeLine : HeaderLine := partLine (ascii "Content-Type") (ascii "multipart/form-data")
  (by decide) (by decide +kernel) (by decide +kernel) (by decide)

theorem field_short : (ascii "a").length < paramsNameMaxLen := by decide

/-- A field `a` with the value `x`, as a browser sends it. -/
def plainField : FormPart (ascii "B") where
  lines := [dispositionA].map HeaderLine.text
  body := ascii "x"
  lines_ne := List.cons_ne_nil _ _
  lines_ok := by decide
  lines_free := by decide
  body_nul := plainPart.body_nul
  body_free := plainPart.body_free
  before := []
  disposition := dispositionA
  after := []
  name := ascii "a"
  more := []
  lines_eq := rfl
  before_other := fun l hl => (List.not_mem_nil hl).elim
  disposition_name := by decide
  disposition_value := by decide
  name_quote := by decide
  name_short := field_short

/-- A field `b` with the value `yz`, which says itself that it is a form. -/
def typedField : FormPart (ascii "B") where
  lines := [dispositionB, formTypeLine].map HeaderLine.text
  body := ascii "yz"
  lines_ne := List.cons_ne_nil _ _
  lines_ok := by decide
  lines_free := by decide
  body_nul := by decide
  body_free := by decide
  before := []
  disposition := dispositionB
  after := [formTypeLine]
  name := ascii "b"
  more := []
  lines_eq := rfl
  before_other := fun l hl => (List.not_mem_nil hl).elim
  disposition_name := by decide
  disposition_value := by decide
  name_quote := by decide
  name_short := by decide

/-- A form with these fields. -/
def fieldsPost (fields : List (FormPart (ascii "B"))) : PostRequest :=
  partsPost (multipartBody (fields.map FormPart.toMimePart))

/-- Two fields. -/
theorem form_params_one :
    ∃ conn, connectionCreate testSite 7 (fieldsPost [plainField, typedField]).raw = .ok (some conn) ∧
    ∃ c, connectionCreateAll testSite true 7 (fieldsPost [plainField, typedField]).raw 0 = .ok (some c) ∧
      c.params = conn.params ++
        [⟨ascii "a", ascii "x", 1, 2, false⟩, ⟨ascii "b", ascii "yz", 2, 2, false⟩] := by
  obtain ⟨conn, hconn⟩ := created_conn
    (x := connectionCreate testSite 7 (fieldsPost [plainField, typedField]).raw) (by decide +kernel)
  have hbefore : ∀ f ∈ [plainField, typedField], f.before.length < headersMaxNum := by
    intro f hf
    rcases List.mem_pair.1 hf with rfl | rfl
    · decide
    · decide
  exact ⟨conn, hconn, (form_params_iff testSite 7 0 (fieldsPost [plainField, typedField]) conn
    partsHeader (ascii "form-data; ") (ascii "B") [plainField, typedField] multipart_b (by decide)
    (partsPost_type _) rfl rfl hconn).2 (Or.inr ⟨⟨_, rfl, by decide⟩, by decide, hbefore⟩)⟩

/-- Nothing of the plain field becomes a parameter; the one there is comes from the query string. -/
theorem form_lost : ¬∀ (website : Website) (sockfd size : ℕ) (req : PostRequest)
    (conn : Connection) (header : Header) (kind boundary : List UInt8)
    (forms : List (FormPart boundary)), Multipart kind boundary →
    forms.length < connMaxHttpMultipart → req.contentType = some header →
    header.value = multipartType kind boundary →
    req.body = multipartBody (forms.map FormPart.toMimePart) →
    connectionCreate website sockfd req.raw = .ok (some conn) →
    ∃ c, connectionCreateAll website true sockfd req.raw size = .ok (some c) ∧
      c.params = conn.params ++ forms.map FormPart.param := by
  intro h
  obtain ⟨conn, hconn⟩ := created_conn (x := connectionCreate testSite 7 (fieldsPost [plainField]).raw)
    (by decide +kernel)
  obtain ⟨c, hc, hparams⟩ := h testSite 7 0 (fieldsPost [plainField]) conn partsHeader
    (ascii "form-data; ") (ascii "B") [plainField] multipart_b (by decide) (partsPost_type _) rfl rfl
    hconn
  have hgot : ((connectionCreateAll testSite true 7 (fieldsPost [plainField]).raw
      0).toOption.join.map fun c => c.params.length) = some 1 := by
    decide +kernel
  have hstart : ((connectionCreate testSite 7 (fieldsPost [plainField]).raw).toOption.join.map
      fun c => c.params.length) = some 1 := by
    decide +kernel
  rw [hc] at hgot
  rw [hconn] at hstart
  have hone : c.params.length = 1 := Option.some.inj hgot
  have hquery : conn.params.length = 1 := Option.some.inj hstart
  rw [hparams, List.length_append, hquery] at hone
  exact absurd hone (by decide)

end Zimr
