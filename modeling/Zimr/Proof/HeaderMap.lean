import Mathlib.Data.Finset.Card
import Zimr.Lib.Run
import Zimr.Lib.Table
import Zimr.Proof.Headers

/-!
# Headers as a map

* `keyOf_eq_iff` — a name is looked up by its letters, upper or lower
* `headers_round_trip` — a header block that is written is read back as it was
* `headers_map` — a table that calls of `headers_set_header` fill holds for each name the value of
  the last call, and every `Set-Cookie`
-/

namespace Zimr

open Run

variable {hs hs' : Headers} {n n' name value : List UInt8}

/-! ## Names -/

theorem tolower_toupper (c : UInt8) : tolower (toupper c) = tolower c := by
  have h : ∀ i : Fin 256, tolower (toupper (UInt8.ofNat i)) = tolower (UInt8.ofNat i) := by
    decide +kernel
  have hc := h ⟨c.toNat, c.toNat_lt⟩
  rwa [UInt8.ofNat_toNat] at hc

theorem tolower_tolower (c : UInt8) : tolower (tolower c) = tolower c := by
  have h : ∀ i : Fin 256, tolower (tolower (UInt8.ofNat i)) = tolower (UInt8.ofNat i) := by
    decide +kernel
  have hc := h ⟨c.toNat, c.toNat_lt⟩
  rwa [UInt8.ofNat_toNat] at hc

theorem strtolower_formatnameLoop (up : Bool) (s : List UInt8) :
    strtolower (formatnameLoop up s) = strtolower s := by
  induction s generalizing up with
  | nil => rfl
  | cons c s ih =>
    have hc : tolower (if up then toupper c else c) = tolower c := by
      split
      · exact tolower_toupper c
      · rfl
    show tolower _ :: strtolower (formatnameLoop _ s) = tolower c :: strtolower s
    rw [hc, ih]

theorem strtolower_strtolower (s : List UInt8) : strtolower (strtolower s) = strtolower s := by
  unfold strtolower
  rw [List.map_map]
  exact List.map_congr_left fun c _ => tolower_tolower c

theorem strtolower_keyOf (s : List UInt8) : strtolower (keyOf s) = strtolower s :=
  (strtolower_formatnameLoop true _).trans (strtolower_strtolower s)

/-- A canonical name stays as it is. -/
theorem keyOf_keyOf (s : List UInt8) : keyOf (keyOf s) = keyOf s :=
  congrArg headerFormatname (strtolower_keyOf s)

/-- **The canonical form is that of the letters, upper or lower.** -/
theorem keyOf_eq_iff : keyOf n = keyOf n' ↔ strtolower n = strtolower n' := by
  constructor
  · intro h
    rw [← strtolower_keyOf n, h, strtolower_keyOf]
  · intro h
    exact congrArg headerFormatname h

theorem length_formatnameLoop (up : Bool) (s : List UInt8) :
    (formatnameLoop up s).length = s.length := by
  induction s generalizing up with
  | nil => rfl
  | cons c s ih => exact congrArg (· + 1) (ih _)

theorem length_keyOf (s : List UInt8) : (keyOf s).length = s.length :=
  (length_formatnameLoop true _).trans (List.length_map _)

/-! ## Writing and reading -/

/-- A header as the round trip needs it. -/
structure Header.Canonical (h : Header) : Prop where
  name_canonical : ∃ n, h.name = headerFormatname (strtolower n)
  name_ne : h.name ≠ []
  name_short : h.name.length < headerNameMaxLen
  name_char : ∀ c ∈ h.name, 32 ≤ c ∧ c < 127 ∧ c ≠ 58
  value_short : h.value.length < headerValueMaxLen
  value_char : ∀ c ∈ h.value, c ≠ 0 ∧ c ≠ 10 ∧ c ≠ 13
  value_head : h.value.head? ≠ some 32

/-- The line that `headers_to_string` writes for it. -/
def Header.Canonical.line {h : Header} (hc : h.Canonical) : HeaderLine where
  name := h.name
  spaces := 1
  value := h.value
  name_ne := hc.name_ne
  name_char c hm := by
    have h32 := (hc.name_char c hm).1
    refine ⟨?_, ?_, ?_, (hc.name_char c hm).2.2⟩
    all_goals
      rintro rfl
      exact absurd h32 (by decide)
  value_char c hm := ⟨(hc.value_char c hm).1, (hc.value_char c hm).2.2⟩
  value_head := hc.value_head

theorem Header.Canonical.line_header {h : Header} (hc : h.Canonical) : hc.line.header = h := by
  obtain ⟨n, hn⟩ := hc.name_canonical
  have hname : h.name.take (headerNameMaxLen - 1) = h.name :=
    List.take_of_length_le (Nat.le_sub_one_of_lt hc.name_short)
  have hvalue : h.value.take (headerValueMaxLen - 1) = h.value :=
    List.take_of_length_le (Nat.le_sub_one_of_lt hc.value_short)
  have hkey : keyOf h.name = h.name := by rw [hn]; exact keyOf_keyOf n
  show Header.mk (keyOf (h.name.take (headerNameMaxLen - 1))) (h.value.take (headerValueMaxLen - 1))
    = h
  rw [hname, hvalue, hkey]

/-- **A header block that is written is read back as it was.** -/
theorem headers_round_trip (hs : Headers) (hlen : hs.length ≤ headersMaxNum)
    (hc : ∀ h ∈ hs, h.Canonical) : headersParse (headersToString hs) = hs := by
  have hlines : ∀ hs : Headers, (∀ h ∈ hs, h.Canonical) → ∃ lines : List HeaderLine,
      headersToString hs = linesText (lines.map HeaderLine.text) ++ crlf ∧
        lines.map HeaderLine.header = hs := by
    intro hs hc
    induction hs with
    | nil => exact ⟨[], rfl, rfl⟩
    | cons h hs ih =>
      obtain ⟨lines, htext, hheader⟩ := ih fun x hx => hc x (List.mem_cons_of_mem _ hx)
      have hh := hc h List.mem_cons_self
      refine ⟨hh.line :: lines, ?_, ?_⟩
      · have hcons : headersToString (h :: hs) =
            (h.name ++ ascii ": " ++ h.value ++ crlf) ++ headersToString hs := by
          simp only [headersToString, List.map_cons, List.flatten_cons, List.append_assoc]
        have hline : h.name ++ ascii ": " ++ h.value = hh.line.text := by
          show _ = h.name ++ 58 :: ([32] ++ h.value)
          rw [List.append_assoc]
          rfl
        rw [hcons, hline, htext]
        simp only [linesText, List.map_cons, List.flatten_cons, List.append_assoc]
      · rw [List.map_cons, hh.line_header, hheader]
  obtain ⟨lines, htext, hheader⟩ := hlines hs hc
  have hcount : lines.length ≤ headersMaxNum := by
    rw [← hheader, List.length_map] at hlen
    exact hlen
  have hread := headersParse_lines lines []
  rw [List.append_nil] at hread
  rw [htext, hread, List.take_of_length_le hcount, hheader]

/-- A value with a colon, an empty value, and a name that is there twice. -/
theorem headers_round_trip_three :
    headersParse (headersToString [⟨ascii "X-Forwarded-For", ascii "10.0.0.1:80"⟩,
      ⟨ascii "Set-Cookie", []⟩, ⟨ascii "Set-Cookie", ascii "a=b"⟩]) =
      [⟨ascii "X-Forwarded-For", ascii "10.0.0.1:80"⟩, ⟨ascii "Set-Cookie", []⟩,
        ⟨ascii "Set-Cookie", ascii "a=b"⟩] := by
  apply headers_round_trip _ (by decide)
  intro h hh
  have hname : h.name = headerFormatname (strtolower h.name) ∧ h.name ≠ [] ∧
      h.name.length < headerNameMaxLen := by
    revert h
    decide
  have hchar : (∀ c ∈ h.name, 32 ≤ c ∧ c < 127 ∧ c ≠ 58) ∧
      (∀ c ∈ h.value, c ≠ 0 ∧ c ≠ 10 ∧ c ≠ 13) := by
    revert h
    decide +kernel
  have hvalue : h.value.length < headerValueMaxLen ∧ h.value.head? ≠ some 32 := by
    revert h
    decide +kernel
  exact ⟨⟨h.name, hname.1⟩, hname.2.1, hname.2.2, hchar.1, hvalue.1, hchar.2, hvalue.2⟩

/-! ## Setting and looking up -/

/-- The names are the same up to case. -/
def SameName (n n' : List UInt8) : Prop := strtolower n = strtolower n'

instance (n n' : List UInt8) : Decidable (SameName n n') :=
  inferInstanceAs (Decidable (strtolower n = strtolower n'))

/-- The letters of a name, upper or lower. -/
abbrev Header.letters (h : Header) : List UInt8 := strtolower h.name

/-- The values of the entries for a name. -/
def valuesOf (hs : Headers) (n : List UInt8) : List (List UInt8) :=
  (Table.all Header.letters hs (strtolower n)).map Header.value

/-- The letters of the name that a call of `headers_set_header` is for. -/
abbrev setLetters (s : List UInt8 × List UInt8) : List UInt8 := strtolower s.1

/-- The values that calls give a name. -/
def valuesSet (n : List UInt8) (sets : List (List UInt8 × List UInt8)) : List (List UInt8) :=
  (Table.all setLetters sets (strtolower n)).map Prod.snd

/-- How many entries the calls make: one for each name, and one for each `Set-Cookie`. -/
def entriesMade (sets : List (List UInt8 × List UInt8)) : ℕ :=
  ((sets.filter fun s => ¬SameName s.1 (ascii "Set-Cookie")).map setLetters).toFinset.card
    + (valuesSet (ascii "Set-Cookie") sets).length

/-- `headers_set_header` as a step. -/
def setStep (hs : Headers) (s : List UInt8 × List UInt8) : Except BufFault Headers :=
  headersSetHeader hs s.1 s.2

theorem keyOf_setCookie : keyOf (ascii "Set-Cookie") = ascii "Set-Cookie" := by decide

theorem keyOf_eq_setCookie : keyOf n = ascii "Set-Cookie" ↔ SameName n (ascii "Set-Cookie") := by
  have h : keyOf n = keyOf (ascii "Set-Cookie") ↔ SameName n (ascii "Set-Cookie") := keyOf_eq_iff
  rwa [keyOf_setCookie] at h

/-- The names in the table are canonical. -/
def CanonicalNames (hs : Headers) : Prop := ∀ h ∈ hs, keyOf h.name = h.name

/-- `headers_set_header` stays in the table and in the two arrays of the entry. -/
def HeaderRoom (hs : Headers) (s : List UInt8 × List UInt8) : Prop :=
  s.2.length < headerValueMaxLen ∧
    ((setLetters s ∈ hs.map Header.letters ∧ ¬SameName s.1 (ascii "Set-Cookie")) ∨
      (hs.length < headersMaxNum ∧ s.1.length < headerNameMaxLen))

instance (hs : Headers) (s : List UInt8 × List UInt8) : Decidable (HeaderRoom hs s) :=
  inferInstanceAs (Decidable (_ ∧ _))

/-- The entry that a call makes. -/
def newHeader (s : List UInt8 × List UInt8) : Header := ⟨keyOf s.1, s.2⟩

theorem letters_newHeader (s : List UInt8 × List UInt8) :
    (newHeader s).letters = setLetters s := strtolower_keyOf s.1

/-- The entry that a call writes over. -/
def Header.setTo (value : List UInt8) (h : Header) : Header := { h with value }

theorem letters_setTo (value : List UInt8) (h : Header) :
    (h.setTo value).letters = h.letters := rfl

/-- The table after a call: a `Set-Cookie` is appended, another header has one entry. -/
def tableSet (hs : Headers) (s : List UInt8 × List UInt8) : Headers :=
  if SameName s.1 (ascii "Set-Cookie") then hs ++ [newHeader s]
  else Table.put Header.letters (Header.setTo s.2) (newHeader s) (setLetters s) hs

section Table

variable (hc : CanonicalNames hs)
include hc

theorem name_eq_keyOf_iff {h : Header} (hh : h ∈ hs) : h.name = keyOf n ↔ SameName h.name n := by
  rw [← hc h hh, keyOf_eq_iff, hc h hh]
  rfl

theorem setValue_eq_alter : setValue (keyOf name) value hs =
    Table.alter Header.letters (Header.setTo value) (strtolower name) hs := by
  induction hs with
  | nil => rfl
  | cons h hs ih =>
    have ih := ih fun x hx => hc x (List.mem_cons_of_mem _ hx)
    have hiff := name_eq_keyOf_iff (n := name) hc List.mem_cons_self
    rw [setValue, Table.alter, ih]
    by_cases hn : h.name = keyOf name
    · rw [if_pos hn]
      exact (if_pos (hiff.1 hn)).symm
    · rw [if_neg hn]
      exact (if_neg (mt hiff.2 hn)).symm

theorem headersGetHeader_eq_find :
    headersGetHeader hs n = Table.find Header.letters hs (strtolower n) := by
  unfold headersGetHeader Table.find
  induction hs with
  | nil => rfl
  | cons h hs ih =>
    have ih := ih fun x hx => hc x (List.mem_cons_of_mem _ hx)
    have hiff := name_eq_keyOf_iff (n := n) hc List.mem_cons_self
    by_cases hn : h.name = keyOf n
    · have hn' : h.letters = strtolower n := hiff.1 hn
      rw [List.find?_cons_of_pos (by simpa using hn), List.find?_cons_of_pos (by simpa using hn')]
    · have hn' : h.letters ≠ strtolower n := mt hiff.2 hn
      rw [List.find?_cons_of_neg (by simpa using hn), List.find?_cons_of_neg (by simpa using hn')]
      exact ih

theorem any_iff : (hs.any fun h => h.name = keyOf n) = true ↔
    strtolower n ∈ hs.map Header.letters := by
  rw [List.any_eq_true, List.mem_map]
  constructor
  · rintro ⟨h, hh, hn⟩
    exact ⟨h, hh, (name_eq_keyOf_iff hc hh).1 (of_decide_eq_true hn)⟩
  · rintro ⟨h, hh, hn⟩
    exact ⟨h, hh, decide_eq_true ((name_eq_keyOf_iff hc hh).2 hn)⟩

/-- **What `headers_set_header` does.** -/
theorem setStep_eq (s : List UInt8 × List UInt8) :
    setStep hs s = if HeaderRoom hs s then .ok (tableSet hs s) else .error .outOfBounds := by
  obtain ⟨name, value⟩ := s
  have hlen : (keyOf name).length = name.length := length_keyOf name
  unfold setStep headersSetHeader
  simp only
  by_cases hv : headerValueMaxLen ≤ value.length
  · rw [if_pos hv, if_neg fun h => absurd h.1 (Nat.not_lt.2 hv)]
  rw [if_neg hv]
  have hv := Nat.not_le.1 hv
  have hroom : (headersMaxNum ≤ hs.length ∨ headerNameMaxLen ≤ (keyOf name).length) ↔
      ¬(hs.length < headersMaxNum ∧ name.length < headerNameMaxLen) := by
    rw [hlen]
    omega
  by_cases hsc : SameName name (ascii "Set-Cookie")
  · have hkey := keyOf_eq_setCookie.2 hsc
    have hany : ¬((hs.any fun h => h.name = keyOf name) && keyOf name ≠ ascii "Set-Cookie") = true := by
      rw [Bool.and_eq_true]
      exact fun h => of_decide_eq_true h.2 hkey
    rw [if_neg hany, tableSet, if_pos hsc]
    by_cases hfree : hs.length < headersMaxNum ∧ name.length < headerNameMaxLen
    · rw [if_neg (fun h => hroom.1 h hfree), if_pos ⟨hv, Or.inr hfree⟩]
      rfl
    · rw [if_pos (hroom.2 hfree), if_neg]
      rintro ⟨-, h | h⟩
      · exact h.2 hsc
      · exact hfree h
  · have hkey := mt keyOf_eq_setCookie.1 hsc
    rw [tableSet, if_neg hsc, Table.put]
    by_cases hin : strtolower name ∈ hs.map Header.letters
    · have hany : ((hs.any fun h => h.name = keyOf name) && keyOf name ≠ ascii "Set-Cookie") = true := by
        rw [Bool.and_eq_true]
        exact ⟨(any_iff hc).2 hin, decide_eq_true hkey⟩
      rw [if_pos hany, if_pos ⟨hv, Or.inl ⟨hin, hsc⟩⟩, if_pos (Table.isSome_find.2 hin),
        setValue_eq_alter hc]
    · have hany : ¬((hs.any fun h => h.name = keyOf name) && keyOf name ≠ ascii "Set-Cookie") = true := by
        rw [Bool.and_eq_true]
        exact fun h => hin ((any_iff hc).1 h.1)
      rw [if_neg hany, if_neg (mt Table.isSome_find.1 hin)]
      by_cases hfree : hs.length < headersMaxNum ∧ name.length < headerNameMaxLen
      · rw [if_neg (fun h => hroom.1 h hfree), if_pos ⟨hv, Or.inr hfree⟩]
        rfl
      · rw [if_pos (hroom.2 hfree), if_neg]
        rintro ⟨-, h | h⟩
        · exact hin h.1
        · exact hfree h

theorem canonicalNames_tableSet (s : List UInt8 × List UInt8) :
    CanonicalNames (tableSet hs s) := by
  intro h hh
  have hnew : keyOf (newHeader s).name = (newHeader s).name := keyOf_keyOf s.1
  unfold tableSet at hh
  split at hh
  · rcases List.mem_append.1 hh with hh | hh
    · exact hc h hh
    · exact List.mem_singleton.1 hh ▸ hnew
  · rcases Table.mem_put hh with hh | ⟨b, hb, -, rfl⟩ | rfl
    · exact hc h hh
    · exact hc b hb
    · exact hnew

end Table

theorem setStep_inv {s : List UInt8 × List UInt8} (hc : CanonicalNames hs)
    (h : setStep hs s = .ok hs') : hs' = tableSet hs s ∧ CanonicalNames hs' := by
  rw [setStep_eq hc] at h
  split at h
  · cases h
    exact ⟨rfl, canonicalNames_tableSet hc s⟩
  · cases h

theorem canonicalNames_run {sets : List (List UInt8 × List UInt8)}
    (h : run setStep [] sets = .ok hs) : CanonicalNames hs := by
  apply run_inv (C := fun _ _ => True) (fun t s t' hc _ hs => (setStep_inv hc hs).2) sets [] hs
  · exact fun _ h => (List.not_mem_nil h).elim
  · exact Along.of_forall fun _ _ => trivial
  · exact h

/-! What the table holds after a call. -/

variable {s : List UInt8 × List UInt8}

theorem length_tableSet : (tableSet hs s).length =
    if setLetters s ∈ hs.map Header.letters ∧ ¬SameName s.1 (ascii "Set-Cookie") then hs.length
    else hs.length + 1 := by
  unfold tableSet
  by_cases hsc : SameName s.1 (ascii "Set-Cookie")
  · rw [if_pos hsc, if_neg (fun h => h.2 hsc), List.length_append]
    rfl
  · rw [if_neg hsc]
    by_cases hin : setLetters s ∈ hs.map Header.letters
    · rw [if_pos ⟨hin, hsc⟩, Table.length_put_mem hin]
    · rw [if_neg (fun h => hin h.1), Table.length_put_new hin]

theorem valuesOf_tableSet_cookie (h : SameName s.1 (ascii "Set-Cookie")) (hn : SameName s.1 n) :
    valuesOf (tableSet hs s) n = valuesOf hs n ++ [s.2] := by
  have hnew : (newHeader s).letters = strtolower n := (letters_newHeader s).trans hn
  unfold valuesOf tableSet
  rw [if_pos h, Table.all_append, Table.all_cons_self hnew, List.map_append]
  rfl

theorem valuesOf_tableSet_self (h : ¬SameName s.1 (ascii "Set-Cookie")) (hn : SameName s.1 n)
    (hone : (valuesOf hs n).length ≤ 1) : valuesOf (tableSet hs s) n = [s.2] := by
  have hn : setLetters s = strtolower n := hn
  unfold valuesOf at hone ⊢
  rw [List.length_map, ← hn] at hone
  rw [tableSet, if_neg h, ← hn, Table.all_put_self (letters_setTo s.2) (letters_newHeader s) hone]
  cases Table.find Header.letters hs (setLetters s) with
  | none => rfl
  | some _ => rfl

theorem valuesOf_tableSet_other (hn : ¬SameName s.1 n) :
    valuesOf (tableSet hs s) n = valuesOf hs n := by
  have hne : strtolower n ≠ setLetters s := fun h => hn h.symm
  unfold valuesOf tableSet
  split
  · have hnew : (newHeader s).letters ≠ strtolower n := fun h =>
      hn ((letters_newHeader s).symm.trans h)
    have hnil : Table.all Header.letters [newHeader s] (strtolower n) = [] :=
      Table.all_cons_other hnew
    rw [Table.all_append, hnil, List.append_nil]
  · rw [Table.all_put_other (letters_setTo s.2) (letters_newHeader s) hne]

/-! ## Runs of calls -/

theorem valuesSet_append (n : List UInt8) (sets : List (List UInt8 × List UInt8)) :
    valuesSet n (sets ++ [s]) = valuesSet n sets ++ if SameName s.1 n then [s.2] else [] := by
  unfold valuesSet
  rw [Table.all_append, List.map_append]
  by_cases h : SameName s.1 n
  · have hn : setLetters s = strtolower n := h
    rw [if_pos h, Table.all_cons_self hn]
    rfl
  · have hn : setLetters s ≠ strtolower n := h
    rw [if_neg h, Table.all_cons_other hn]
    rfl

/-- A name that calls were for. -/
theorem valuesSet_ne_nil {sets : List (List UInt8 × List UInt8)} :
    valuesSet n sets ≠ [] ↔ ∃ s ∈ sets, SameName s.1 n := by
  unfold valuesSet Table.all
  rw [ne_eq, List.map_eq_nil_iff, List.filter_eq_nil_iff]
  push Not
  simp only [decide_eq_true_eq]
  rfl

theorem entriesMade_append (sets : List (List UInt8 × List UInt8)) :
    entriesMade (sets ++ [s]) = entriesMade sets +
      if valuesSet s.1 sets ≠ [] ∧ ¬SameName s.1 (ascii "Set-Cookie") then 0 else 1 := by
  unfold entriesMade
  rw [valuesSet_append, List.filter_append, List.map_append, List.toFinset_append]
  by_cases h : SameName s.1 (ascii "Set-Cookie")
  · rw [if_pos h, if_neg (fun hc => hc.2 h), List.filter_cons_of_neg (by simpa using h)]
    simp only [List.filter_nil, List.map_nil, List.toFinset_nil, Finset.union_empty,
      List.length_append, List.length_singleton]
    omega
  · rw [if_neg h, List.append_nil, List.filter_cons_of_pos (by simpa using h)]
    -- the letters are new exactly when there was no call for them
    have hmem : setLetters s ∈ ((sets.filter fun s => ¬SameName s.1 (ascii "Set-Cookie")).map
        setLetters).toFinset ↔ valuesSet s.1 sets ≠ [] := by
      rw [List.mem_toFinset, List.mem_map, valuesSet_ne_nil]
      constructor
      · rintro ⟨t, ht, hts⟩
        exact ⟨t, (List.mem_filter.1 ht).1, hts⟩
      · rintro ⟨t, ht, hts⟩
        refine ⟨t, List.mem_filter.2 ⟨ht, decide_eq_true fun hc => h ?_⟩, hts⟩
        exact hts.symm.trans hc
    have hone : ([s].map setLetters).toFinset = {setLetters s} := rfl
    rw [List.filter_nil, hone, Finset.union_comm, ← Finset.insert_eq]
    by_cases hin : valuesSet s.1 sets ≠ []
    · rw [Finset.insert_eq_of_mem (hmem.2 hin), if_pos ⟨hin, h⟩]
      rfl
    · rw [Finset.card_insert_of_notMem (mt hmem.1 hin), if_neg (fun hc => hin hc.1)]
      omega

/-- What a table that calls have filled holds. -/
structure Records (sets : List (List UInt8 × List UInt8)) (hs : Headers) : Prop where
  names : CanonicalNames hs
  cookies : valuesOf hs (ascii "Set-Cookie") = valuesSet (ascii "Set-Cookie") sets
  others : ∀ n, ¬SameName n (ascii "Set-Cookie") →
    valuesOf hs n = (valuesSet n sets).getLast?.toList
  entries : hs.length = entriesMade sets

theorem Records.nil : Records [] [] where
  names := fun _ h => (List.not_mem_nil h).elim
  cookies := rfl
  others := fun _ _ => rfl
  entries := rfl

variable {sets : List (List UInt8 × List UInt8)}

theorem Records.one (hr : Records sets hs) (h : ¬SameName n (ascii "Set-Cookie")) :
    (valuesOf hs n).length ≤ 1 := by
  rw [hr.others n h]
  cases (valuesSet n sets).getLast? with
  | none => exact Nat.zero_le 1
  | some _ => exact Nat.le_refl 1

/-- A name is in the table when there was a call for it. -/
theorem Records.mem_iff (hr : Records sets hs) (h : ¬SameName n (ascii "Set-Cookie")) :
    strtolower n ∈ hs.map Header.letters ↔ valuesSet n sets ≠ [] := by
  have hvalues : strtolower n ∈ hs.map Header.letters ↔ valuesOf hs n ≠ [] := by
    rw [← Table.isSome_find, Table.find_eq_head, valuesOf, ne_eq, List.map_eq_nil_iff]
    cases Table.all Header.letters hs (strtolower n) <;> simp
  rw [hvalues, hr.others n h]
  rcases List.eq_nil_or_concat (valuesSet n sets) with hnil | ⟨l, v, hv⟩
  · rw [hnil]
    exact Iff.rfl
  · rw [hv, List.concat_eq_append, List.getLast?_append_of_ne_nil _ (List.cons_ne_nil v [])]
    simp

/-- **One call.** -/
theorem Records.set (hr : Records sets hs) (s : List UInt8 × List UInt8) :
    Records (sets ++ [s]) (tableSet hs s) := by
  constructor
  · exact canonicalNames_tableSet hr.names s
  · rw [valuesSet_append]
    by_cases hsc : SameName s.1 (ascii "Set-Cookie")
    · rw [if_pos hsc, valuesOf_tableSet_cookie hsc hsc, hr.cookies]
    · rw [if_neg hsc, valuesOf_tableSet_other hsc, hr.cookies, List.append_nil]
  · intro n hn
    rw [valuesSet_append]
    by_cases hs : SameName s.1 n
    · have hsc : ¬SameName s.1 (ascii "Set-Cookie") := fun h => hn (hs.symm.trans h)
      rw [if_pos hs, valuesOf_tableSet_self hsc hs (hr.one hn),
        List.getLast?_append_of_ne_nil _ (List.cons_ne_nil _ [])]
      rfl
    · rw [if_neg hs, List.append_nil, valuesOf_tableSet_other hs, hr.others n hn]
  · rw [length_tableSet, entriesMade_append, ← hr.entries]
    by_cases hsc : SameName s.1 (ascii "Set-Cookie")
    · rw [if_neg (fun h => h.2 hsc), if_neg (fun h => h.2 hsc)]
    · have hiff := hr.mem_iff hsc
      by_cases hin : valuesSet s.1 sets ≠ []
      · rw [if_pos ⟨hiff.2 hin, hsc⟩, if_pos ⟨hin, hsc⟩]
        rfl
      · rw [if_neg (fun h => hin (hiff.1 h.1)), if_neg (fun h => hin h.1)]

/-- **Calls that make few enough entries.** -/
theorem run_records (sets : List (List UInt8 × List UInt8))
    (hshort : ∀ s ∈ sets, s.1.length < headerNameMaxLen ∧ s.2.length < headerValueMaxLen)
    (hfit : entriesMade sets ≤ headersMaxNum) :
    ∃ hs, run setStep [] sets = .ok hs ∧ Records sets hs := by
  induction sets using List.reverseRecOn with
  | nil => exact ⟨[], rfl, .nil⟩
  | append_singleton sets s ih =>
    rw [entriesMade_append] at hfit
    obtain ⟨hs, hrun, hr⟩ := ih (fun t ht => hshort t (List.mem_append_left _ ht)) (by omega)
    obtain ⟨hname, hvalue⟩ := hshort s (List.mem_append_right _ List.mem_cons_self)
    have hroom : HeaderRoom hs s := by
      refine ⟨hvalue, ?_⟩
      by_cases hin : setLetters s ∈ hs.map Header.letters ∧ ¬SameName s.1 (ascii "Set-Cookie")
      · exact Or.inl hin
      · -- the call makes an entry
        have hnew : ¬(valuesSet s.1 sets ≠ [] ∧ ¬SameName s.1 (ascii "Set-Cookie")) :=
          fun h => hin ⟨(hr.mem_iff h.2).2 h.1, h.2⟩
        rw [if_neg hnew, ← hr.entries] at hfit
        exact Or.inr ⟨by omega, hname⟩
    have hstep : setStep hs s = .ok (tableSet hs s) := by
      rw [setStep_eq hr.names, if_pos hroom]
    exact ⟨_, (run_append_ok hrun [s]).trans (run_single hstep), hr.set s⟩

/-- **The headers that calls of `headers_set_header` set.** Every name but `Set-Cookie` has the
value of its last call, in one entry; every `Set-Cookie` has its own, and they are in order; and a
call leaves what is not of its name as it was. -/
theorem headers_map (sets : List (List UInt8 × List UInt8))
    (hshort : ∀ s ∈ sets, s.1.length < headerNameMaxLen ∧ s.2.length < headerValueMaxLen)
    (hfit : entriesMade sets ≤ headersMaxNum) :
    ∃ hs, run setStep [] sets = .ok hs ∧ hs.length = entriesMade sets ∧
      (∀ n, ¬SameName n (ascii "Set-Cookie") →
        (headersGetHeader hs n).map Header.value = (valuesSet n sets).getLast? ∧
          (valuesOf hs n).length ≤ 1) ∧
      valuesOf hs (ascii "Set-Cookie") = valuesSet (ascii "Set-Cookie") sets ∧
      ∀ pre s post, sets = pre ++ s :: post → ∃ t t', run setStep [] pre = .ok t ∧
        setStep t s = .ok t' ∧ ∀ n, ¬SameName s.1 n →
          valuesOf t' n = valuesOf t n ∧
            (headersGetHeader t' n).map Header.value = (headersGetHeader t n).map Header.value := by
  have hget : ∀ (hs : Headers), CanonicalNames hs → ∀ n,
      (headersGetHeader hs n).map Header.value = (valuesOf hs n).head? := by
    intro hs hc n
    rw [headersGetHeader_eq_find hc, Table.find_eq_head, valuesOf, List.head?_map]
  obtain ⟨hs, hrun, hr⟩ := run_records sets hshort hfit
  refine ⟨hs, hrun, hr.entries, fun n hn => ⟨?_, hr.one hn⟩, hr.cookies, ?_⟩
  · rw [hget hs hr.names, hr.others n hn]
    cases (valuesSet n sets).getLast? <;> rfl
  · rintro pre s post rfl
    obtain ⟨t, ht, hrun⟩ := run_append hrun
    obtain ⟨t', ht', -⟩ := run_cons_ok hrun
    have hc := canonicalNames_run ht
    obtain ⟨heq, hc'⟩ := setStep_inv hc ht'
    refine ⟨t, t', ht, ht', fun n hn => ?_⟩
    have hvalues : valuesOf t' n = valuesOf t n := by rw [heq, valuesOf_tableSet_other hn]
    exact ⟨hvalues, by rw [hget t hc, hget t' hc', hvalues]⟩

/-- A header is set twice, a `Set-Cookie` too. -/
theorem headers_map_six : ∃ hs, run setStep []
    [(ascii "content-TYPE", ascii "a"), (ascii "Set-Cookie", ascii "b"), (ascii "-x-", []),
      (ascii "Content-Type", ascii "c"), (ascii "SET-cookie", ascii "d"), (ascii "-X-", [])] = .ok hs ∧
    hs.length = 4 ∧ (headersGetHeader hs (ascii "Content-type")).map Header.value =
      some (ascii "c") ∧ valuesOf hs (ascii "Set-Cookie") = [ascii "b", ascii "d"] := by
  obtain ⟨hs, hrun, hlen, hget, hcookies, -⟩ := headers_map
    [(ascii "content-TYPE", ascii "a"), (ascii "Set-Cookie", ascii "b"), (ascii "-x-", []),
      (ascii "Content-Type", ascii "c"), (ascii "SET-cookie", ascii "d"), (ascii "-X-", [])]
    (by decide) (by decide)
  refine ⟨hs, hrun, ?_, ?_, ?_⟩
  · exact hlen.trans (by decide)
  · exact (hget _ (by decide)).1.trans (by decide)
  · exact hcookies.trans (by decide)

/-! ## Room -/

/-- **The table of the headers.** Calls of `headers_set_header` stay in it exactly when each of
them finds its header or a free entry. -/
theorem headers_along_iff (sets : List (List UInt8 × List UInt8)) :
    Along setStep HeaderRoom [] sets ↔ ∀ pre, pre <+: sets → ∃ hs, run setStep [] pre = .ok hs ∧
      CanonicalNames hs ∧ hs.length ≤ headersMaxNum := by
  apply along_iff (I := fun hs => CanonicalNames hs ∧ List.length hs ≤ headersMaxNum)
  · rintro hs s ⟨hc, -⟩
    rw [setStep_eq hc]
    constructor
    · intro h
      exact ⟨_, if_pos h⟩
    · rintro ⟨t, ht⟩
      by_contra h
      rw [if_neg h] at ht
      cases ht
  · rintro hs s t ⟨hc, hlen⟩ ht
    obtain ⟨heq, hc'⟩ := setStep_inv hc ht
    refine ⟨hc', ?_⟩
    rw [heq, length_tableSet]
    split
    · exact hlen
    · rename_i hnew
      have hroom : HeaderRoom hs s := by
        by_contra hno
        rw [setStep_eq hc, if_neg hno] at ht
        cases ht
      exact (hroom.2.resolve_left hnew).1
  · exact ⟨fun _ h => (List.not_mem_nil h).elim, Nat.zero_le _⟩

end Zimr
