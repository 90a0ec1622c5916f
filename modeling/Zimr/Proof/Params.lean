import Zimr.Proof.Urldecoder
import Zimr.Spec.Params

/-!
# Query strings

One round of `params_parse_qs` takes one pair off (`parseQsLoop_piece`), so the parser goes over
the pairs of the string (`paramsParseQs_pieces`).

* `parse_qs_encoded` — it gives back the pairs that were encoded
-/

namespace Zimr

variable {c : UInt8} {s e tail raw : List UInt8}

theorem Encodes.length_le (h : Encodes s e) : s.length ≤ e.length := by
  induction h with
  | nil => exact Nat.le_refl _
  | plain _ _ _ _ ih => exact Nat.succ_le_succ ih
  | escaped _ _ _ _ _ _ ih =>
    simp only [List.length_cons]
    omega

theorem Encodes.printable (h : Encodes s e) : ∀ x ∈ s, 32 ≤ x ∧ x ≤ 126 := by
  induction h with
  | nil => intro x hx; cases hx
  | plain h₁ h₂ _ _ ih =>
    intro x hx
    rcases List.mem_cons.1 hx with rfl | hx
    · exact ⟨h₁, h₂⟩
    · exact ih x hx
  | escaped h₁ h₂ _ _ _ _ ih =>
    intro x hx
    rcases List.mem_cons.1 hx with rfl | hx
    · exact ⟨h₁, h₂⟩
    · exact ih x hx

/-- Reading inside what comes first. -/
theorem getD_append_left {k : ℕ} (h : k < s.length) (t : List UInt8) :
    (s ++ t).getD k 0 = s.getD k 0 := by
  rw [List.getD_eq_getElem?_getD, List.getD_eq_getElem?_getD, List.getElem?_append_left h]

/-- Reading at the end of it. -/
theorem getD_append_cons (s t : List UInt8) (c : UInt8) : (s ++ c :: t).getD s.length 0 = c := by
  rw [List.getD_eq_getElem?_getD, List.getElem?_append_right (Nat.le_refl _), Nat.sub_self]
  rfl

theorem getD_mem {k : ℕ} (h : k < s.length) : s.getD k 0 ∈ s := by
  rw [List.getD_eq_getElem?_getD, List.getElem?_eq_getElem h]
  exact List.getElem_mem h

/-! ## The pairs -/

theorem qsPieces_append {p : List UInt8} (hf : ∀ x ∈ p, x ≠ 38) (s : List UInt8) :
    qsPieces (p ++ 38 :: s) = p :: qsPieces s := by
  induction p with
  | nil => rw [List.nil_append, qsPieces, if_pos rfl]
  | cons x p ih =>
    rw [List.cons_append, qsPieces, if_neg (hf x List.mem_cons_self),
      ih fun z hz => hf z (List.mem_cons_of_mem _ hz)]

theorem qsPieces_last {p : List UInt8} (hp : p ≠ []) (hf : ∀ x ∈ p, x ≠ 38) : qsPieces p = [p] := by
  induction p with
  | nil => exact absurd rfl hp
  | cons x p ih =>
    rw [qsPieces, if_neg (hf x List.mem_cons_self)]
    cases p with
    | nil => rfl
    | cons y p => rw [ih (List.cons_ne_nil _ _) fun z hz => hf z (List.mem_cons_of_mem _ hz)]

/-- A query string is its first pair, and what follows it. -/
theorem qs_split : ∀ qs : List UInt8, qs ≠ [] → ∃ p rest, qsPieces qs = p :: qsPieces rest ∧
    (∀ x ∈ p, x ≠ 38) ∧ (qs = p ++ 38 :: rest ∨ (qs = p ∧ rest = [])) := by
  intro qs
  induction qs with
  | nil => intro h; exact absurd rfl h
  | cons x s ih =>
    intro _
    by_cases hx : x = 38
    · refine ⟨[], s, ?_, fun y hy => (List.not_mem_nil hy).elim, Or.inl (by rw [hx]; rfl)⟩
      rw [qsPieces, if_pos hx]
    · cases s with
      | nil =>
        exact ⟨[x], [], qsPieces_last (List.cons_ne_nil _ _) fun y hy => by
          rwa [List.mem_singleton.1 hy], fun y hy => by rwa [List.mem_singleton.1 hy],
          Or.inr ⟨rfl, rfl⟩⟩
      | cons y s =>
        obtain ⟨p, rest, hq, hf, hs⟩ := ih (List.cons_ne_nil _ _)
        refine ⟨x :: p, rest, ?_, ?_, ?_⟩
        · rw [qsPieces, if_neg hx, hq]
        · intro z hz
          rcases List.mem_cons.1 hz with rfl | hz
          · exact hx
          · exact hf z hz
        · rcases hs with hs | ⟨hs, hr⟩
          · exact Or.inl (by rw [hs]; rfl)
          · exact Or.inr ⟨by rw [hs], hr⟩

/-- The part of a pair up to its `=`, and what stands there. -/
theorem pieceName_spec (p : List UInt8) : (∀ x ∈ pieceName p, x ≠ 61) ∧
    ((pieceName p = p ∧ pieceValue p = []) ∨ p = pieceName p ++ 61 :: pieceValue p) := by
  refine ⟨fun x hx => by simpa using List.mem_takeWhile_imp hx, ?_⟩
  induction p with
  | nil => exact Or.inl ⟨rfl, rfl⟩
  | cons x p ih =>
    by_cases hx : x = 61
    · refine Or.inr ?_
      have hn : pieceName (x :: p) = [] := List.takeWhile_cons_of_neg (by simpa using hx)
      rw [pieceValue, hn, hx]
      rfl
    · have hn : pieceName (x :: p) = x :: pieceName p := List.takeWhile_cons_of_pos (by simpa using hx)
      have hv : pieceValue (x :: p) = pieceValue p := by
        rw [pieceValue, hn]
        rfl
      rw [hn, hv]
      rcases ih with ⟨h₁, h₂⟩ | h
      · exact Or.inl ⟨by rw [h₁], h₂⟩
      · refine Or.inr ?_
        rw [List.cons_append, ← h]

/-- Reading a pair at its `=` and before. -/
theorem getD_pieceName {p : List UInt8} (h : p = pieceName p ++ 61 :: pieceValue p) {k : ℕ}
    (hk : k ≤ (pieceName p).length) :
    p.getD k 0 = if k < (pieceName p).length then (pieceName p).getD k 0 else 61 := by
  have hp : p.getD k 0 = (pieceName p ++ 61 :: pieceValue p).getD k 0 :=
    congrArg (fun q => q.getD k 0) h
  rw [hp]
  split
  · rename_i hlt
    exact getD_append_left hlt _
  · rw [(by omega : k = (pieceName p).length)]
    exact getD_append_cons _ _ _

/-- **The two cursors**: the first stops at the `=` or at the end of the pair, the second at its
end. -/
theorem scanPair_piece {p : List UInt8} (hf : ∀ x ∈ p, x ≠ 38) : ∀ (left k : ℕ), k ≤ p.length →
    p.length - k ≤ left → (left = p.length - k ∨ c = 38) →
    scanPair (p ++ c :: tail) left (min k (pieceName p).length) k =
      ((pieceName p).length, p.length) := by
  have hname : (pieceName p).length ≤ p.length := (List.takeWhile_prefix _).length_le
  obtain ⟨hne, hcut⟩ := pieceName_spec p
  intro left
  induction left with
  | zero =>
    intro k hk hle _
    rw [scanPair, Nat.min_eq_right (by omega)]
    congr 1
    omega
  | succ left ih =>
    intro k hk hle hend
    rw [scanPair]
    by_cases hlast : k = p.length
    · -- the pair ends with `&`
      have hc : c = 38 := hend.resolve_left (by omega)
      rw [hlast, getD_append_cons, hc, if_neg (by decide), Nat.min_eq_right (by omega)]
    · have hlt : k < p.length := by omega
      rw [getD_append_left hlt, if_pos (hf _ (getD_mem hlt))]
      have hnext : (if (p ++ c :: tail).getD (min k (pieceName p).length) 0 ≠ 61
          then min k (pieceName p).length + 1 else min k (pieceName p).length) =
          min (k + 1) (pieceName p).length := by
        by_cases hin : k < (pieceName p).length
        · have hget : (p ++ c :: tail).getD k 0 = (pieceName p).getD k 0 := by
            rw [getD_append_left hlt]
            rcases hcut with ⟨h, -⟩ | h
            · rw [h]
            · rw [getD_pieceName h (Nat.le_of_lt hin), if_pos hin]
          rw [Nat.min_eq_left (Nat.le_of_lt hin), hget, if_pos (hne _ (getD_mem hin))]
          omega
        · -- the first cursor stands at the `=`
          have hat : (p ++ c :: tail).getD (pieceName p).length 0 = 61 := by
            rcases hcut with ⟨h, -⟩ | h
            · rw [h] at hin
              omega
            · have hlen := congrArg List.length h
              rw [List.length_append, List.length_cons] at hlen
              rw [getD_append_left (by omega), getD_pieceName h (Nat.le_refl _),
                if_neg (Nat.lt_irrefl _)]
          rw [Nat.min_eq_right (by omega), hat, if_neg (by decide)]
          omega
      rw [hnext]
      exact ih (k + 1) (by omega) (by omega) (hend.imp_left fun h => by omega)

/-- The string at the start of a buffer, without its escapes. -/
theorem urlDecode_prefix {s : List UInt8} (hz : ∀ x ∈ s, x ≠ 0) (rest : List UInt8) :
    urlDecode (s ++ rest) s.length = decodedText s := by
  have hc : ∀ rest : List UInt8, (cstr (s ++ rest)).take s.length = s := by
    intro rest
    unfold cstr
    rw [List.takeWhile_append_of_pos fun x hx => by simpa using hz x hx, List.take_left' rfl]
  have h := hc []
  rw [List.append_nil] at h
  rw [decodedText, urlDecode_eq, urlDecode_eq, hc, h]

/-- **One round** does with the first pair what `parsePieces` does. -/
theorem parseQsLoop_piece {p : List UInt8} {fuel size type : ℕ} {params : List Param}
    (hf : ∀ x ∈ p, x ≠ 38) (hz : ∀ x ∈ p, x ≠ 0) (hsize : p.length ≤ size) (hpos : 0 < size)
    (hend : (size = p.length ∧ c ≠ 38) ∨ c = 38) (hc : c ≠ 61) {qs : List (List UInt8)}
    (hnext : ∀ params, parseQsLoop fuel params
        ((p ++ c :: tail).drop (if c = 38 then p.length + 1 else p.length))
        (size - (if c = 38 then p.length + 1 else p.length)) type =
      parsePieces type params qs) :
    parseQsLoop (fuel + 1) params (p ++ c :: tail) size type =
      parsePieces type params (p :: qs) := by
  have hscan : scanPair (p ++ c :: tail) size 0 0 = ((pieceName p).length, p.length) := by
    have := @scanPair_piece c tail p hf size 0 (Nat.zero_le _) (by omega)
      (hend.imp_left fun h => by omega)
    rwa [Nat.zero_min] at this
  obtain ⟨-, hcut⟩ := pieceName_spec p
  have hzn : ∀ x ∈ pieceName p, x ≠ 0 := fun x hx => hz x ((List.takeWhile_prefix _).subset hx)
  have hzv : ∀ x ∈ pieceValue p, x ≠ 0 := fun x hx => hz x (List.mem_of_mem_drop hx)
  have hname : urlDecode (p ++ c :: tail) (pieceName p).length = decodedText (pieceName p) := by
    rcases hcut with ⟨h, -⟩ | h
    · rw [h]
      exact urlDecode_prefix hz _
    · have hraw := congrArg (fun q => urlDecode (q ++ c :: tail) (pieceName p).length) h
      simp only [List.append_assoc] at hraw
      rw [hraw]
      exact urlDecode_prefix hzn _
  rw [parseQsLoop, if_neg (by omega), parsePieces]
  simp only [hscan, hname]
  by_cases hlong : paramsNameMaxLen ≤ (pieceName p).length
  · rw [if_pos hlong, if_pos hlong]
  rw [if_neg hlong, if_neg hlong]
  by_cases hover : paramsNameMaxLen ≤ (decodedText (pieceName p)).length
  · rw [if_pos hover, if_pos hover]
  rw [if_neg hover, if_neg hover]
  by_cases hascii : ((decodedText (pieceName p)).take (pieceName p).length).any (127 < ·) = true
  · rw [if_pos hascii, if_pos hascii]
  rw [if_neg hascii, if_neg hascii]
  have hval : (p ++ c :: tail).getD p.length 0 = c := getD_append_cons _ _ _
  simp only [hval]
  -- what comes after the name, with the `=` or without it
  have hrest : ∃ n, (if (p ++ c :: tail).getD (pieceName p).length 0 = 61
        then (pieceName p).length + 1 else (pieceName p).length) = n ∧ n ≤ p.length ∧
      p.length - n = (pieceValue p).length ∧
      urlDecode ((p ++ c :: tail).drop n) (p.length - n) = decodedText (pieceValue p) := by
    rcases hcut with ⟨h₁, h₂⟩ | h
    · refine ⟨p.length, ?_, Nat.le_refl _, ?_, ?_⟩
      · rw [h₁, hval, if_neg hc]
      · rw [h₂, Nat.sub_self]
        rfl
      · rw [h₂, Nat.sub_self, urlDecode_eq, List.take_zero]
        rfl
    · have hlen := congrArg List.length h
      rw [List.length_append, List.length_cons] at hlen
      refine ⟨(pieceName p).length + 1, ?_, by omega, by omega, ?_⟩
      · have hat : (p ++ c :: tail).getD (pieceName p).length 0 = 61 := by
          rw [getD_append_left (by omega), getD_pieceName h (Nat.le_refl _),
            if_neg (Nat.lt_irrefl _)]
        rw [hat, if_pos rfl]
      · have hd : (p ++ c :: tail).drop ((pieceName p).length + 1) =
            pieceValue p ++ c :: tail := by
          rw [List.drop_append_of_le_length (by omega)]
          rfl
        rw [hd, (by omega : p.length - ((pieceName p).length + 1) = (pieceValue p).length)]
        exact urlDecode_prefix hzv _
  obtain ⟨n, hn, hle, hsub, hdec⟩ := hrest
  rw [hn, if_neg (by omega), hdec, hsub]
  by_cases hgrow : (pieceValue p).length < (decodedText (pieceValue p)).length
  · rw [if_pos hgrow, if_pos hgrow]
  rw [if_neg hgrow, if_neg hgrow]
  exact hnext _

/-- **The parser takes the pairs one after the other.** -/
theorem paramsParseQs_pieces (hc : c = 32 ∨ c = 0) (type : ℕ) (tail : List UInt8) :
    ∀ (fuel : ℕ) (qs : List UInt8) (params : List Param), qs.length ≤ fuel → (∀ x ∈ qs, x ≠ 0) →
      parseQsLoop fuel params (qs ++ c :: tail) qs.length type =
        parsePieces type params (qsPieces qs) := by
  have hc38 : c ≠ 38 ∧ c ≠ 61 := by rcases hc with rfl | rfl <;> decide
  have hdone : ∀ (fuel : ℕ) (params : List Param) (raw : List UInt8),
      parseQsLoop fuel params raw 0 type = .ok params := by
    intro fuel params raw
    cases fuel <;> rfl
  intro fuel
  induction fuel with
  | zero =>
    intro qs params hlen _
    rw [List.length_eq_zero_iff.1 (by omega : qs.length = 0)]
    rfl
  | succ fuel ih =>
    intro qs params hlen hz
    by_cases hqs : qs = []
    · rw [hqs]
      exact hdone _ _ _
    · obtain ⟨p, rest, hpieces, hf, hsplit⟩ := qs_split qs hqs
      have hlpos := List.length_pos_iff.2 hqs
      rw [hpieces]
      rcases hsplit with rfl | ⟨rfl, rfl⟩
      · -- an `&` follows
        rw [List.length_append, List.length_cons] at hlen hlpos ⊢
        rw [List.append_assoc, List.cons_append]
        refine parseQsLoop_piece hf (fun x hx => hz x (List.mem_append_left _ hx)) (by omega)
          (by omega) (Or.inr rfl) (by decide) fun params => ?_
        rw [if_pos rfl]
        have hdrop : (p ++ 38 :: (rest ++ c :: tail)).drop (p.length + 1) = rest ++ c :: tail := by
          rw [List.drop_append, Nat.add_sub_cancel_left, List.drop_of_length_le (by omega)]
          rfl
        rw [hdrop, (by omega : p.length + (rest.length + 1) - (p.length + 1) = rest.length)]
        exact ih rest params (by omega) fun x hx =>
          hz x (List.mem_append_right _ (List.mem_cons_of_mem _ hx))
      · refine parseQsLoop_piece hf hz (Nat.le_refl _) hlpos (Or.inl ⟨rfl, hc38.1⟩) hc38.2
          fun params => ?_
        rw [if_neg hc38.1, Nat.sub_self]
        exact hdone _ _ _

/-! ## Encoded pairs -/

/-- A name without `=`, the `=` and a value are read as they are. -/
theorem piece_text {n v : List UInt8} (hn : 61 ∉ n) :
    pieceName (n ++ 61 :: v) = n ∧ pieceValue (n ++ 61 :: v) = v := by
  have hname : pieceName (n ++ 61 :: v) = n := by
    have hfree : ∀ x ∈ n, decide (x ≠ 61) = true := by
      intro x hx
      rw [decide_eq_true_iff]
      rintro rfl
      exact hn hx
    unfold pieceName
    rw [List.takeWhile_append_of_pos hfree, List.takeWhile_cons_of_neg (by decide), List.append_nil]
  refine ⟨hname, ?_⟩
  rw [pieceValue, hname, List.drop_append, List.drop_of_length_le (by omega),
    Nat.add_sub_cancel_left]
  rfl

variable (p : QsPair)

theorem QsPair.text_free : (∀ x ∈ p.text, x ≠ 38) ∧ (∀ x ∈ p.text, x ≠ 0) ∧ p.text ≠ [] := by
  refine ⟨?_, ?_, List.append_ne_nil_of_right_ne_nil _ (List.cons_ne_nil _ _)⟩ <;>
    intro x hx <;> rcases List.mem_append.1 hx with hx | hx
  · exact (p.name_free x hx).1
  · rcases List.mem_cons.1 hx with rfl | hx
    · decide
    · exact (p.value_free x hx).1
  · exact p.name_enc.ne_zero x hx
  · rcases List.mem_cons.1 hx with rfl | hx
    · decide
    · exact p.value_enc.ne_zero x hx

theorem Encodes.decodedText (h : Encodes s e) : decodedText e = s := by
  have := h.urlDecode []
  rwa [List.append_nil] at this

/-- The first pair becomes its parameter. -/
theorem parsePieces_pair (type : ℕ) (params : List Param) (qs : List (List UInt8)) :
    parsePieces type params (p.text :: qs) = parsePieces type (params ++ [p.param type]) qs := by
  obtain ⟨hn, hv⟩ := @piece_text p.nameText p.valueText
    fun h => (p.name_free _ h).2.1 rfl
  have hshort := p.name_short
  have hnl := p.name_enc.length_le
  have hvl := p.value_enc.length_le
  have hascii : ¬(p.name.take p.nameText.length).any (127 < ·) = true := by
    rw [List.any_eq_true]
    rintro ⟨x, hx, hlt⟩
    have h1 : x.toNat ≤ 126 := (p.name_enc.printable x (List.mem_of_mem_take hx)).2
    have h2 : 127 < x.toNat := of_decide_eq_true hlt
    omega
  rw [parsePieces]
  unfold QsPair.text
  simp only [hn, hv, p.name_enc.decodedText, p.value_enc.decodedText]
  rw [if_neg (by omega), if_neg (by omega), if_neg hascii, if_neg (by omega)]
  rfl

theorem qsText_pieces : ∀ pairs : List QsPair, qsPieces (qsText pairs) = pairs.map QsPair.text ∧
    ∀ x ∈ qsText pairs, x ≠ 0 := by
  intro pairs
  induction pairs with
  | nil => exact ⟨rfl, fun x hx => (List.not_mem_nil hx).elim⟩
  | cons p ps ih =>
    obtain ⟨hf, hz, hne⟩ := p.text_free
    cases ps with
    | nil => exact ⟨qsPieces_last hne hf, hz⟩
    | cons q qs =>
      refine ⟨?_, ?_⟩
      · show qsPieces (p.text ++ 38 :: qsText (q :: qs)) = _
        rw [qsPieces_append hf, ih.1]
        rfl
      · intro x hx
        have hx' : x ∈ p.text ++ 38 :: qsText (q :: qs) := hx
        rcases List.mem_append.1 hx' with hx' | hx'
        · exact hz x hx'
        · rcases List.mem_cons.1 hx' with rfl | hx'
          · decide
          · exact ih.2 x hx'

theorem parsePieces_pairs (type : ℕ) : ∀ (pairs : List QsPair) (params : List Param),
    parsePieces type params (pairs.map QsPair.text) =
      .ok (params ++ pairs.map (·.param type)) := by
  intro pairs
  induction pairs with
  | nil =>
    intro params
    rw [List.map_nil, List.map_nil, List.append_nil]
    rfl
  | cons p ps ih =>
    intro params
    rw [List.map_cons, parsePieces_pair, ih, List.append_assoc]
    rfl

/-- **Parsing a query string gives back the pairs it was made of**, after the parameters
that were there. -/
theorem parse_qs_encoded (params : List Param) (pairs : List QsPair) (type : ℕ)
    (hc : c = 32 ∨ c = 0) (tail : List UInt8) :
    paramsParseQs params (qsText pairs ++ c :: tail) (qsText pairs).length type =
      .ok (params ++ pairs.map (·.param type)) := by
  obtain ⟨hpieces, hz⟩ := qsText_pieces pairs
  rw [paramsParseQs, paramsParseQs_pieces hc type tail _ _ params (Nat.le_refl _) hz, hpieces]
  exact parsePieces_pairs type pairs params

/-- `a=%26&=`. -/
def twoPairs : List QsPair :=
  [{ name := ascii "a", value := ascii "&", nameText := ascii "a", valueText := ascii "%26"
     name_enc := .plain (by decide) (by decide) (by decide) .nil
     value_enc := .escaped (by decide) (by decide) (by decide) (by decide) (by decide) .nil
     name_free := by decide +kernel
     value_free := by decide +kernel
     name_short := by decide },
   { name := [], value := [], nameText := [], valueText := []
     name_enc := .nil
     value_enc := .nil
     name_free := by decide +kernel
     value_free := by decide +kernel
     name_short := by decide }]

theorem parse_qs_encoded_two : paramsParseQs [] (ascii "a=%26&= HTTP") 7 1 =
    .ok (twoPairs.map (·.param 1)) :=
  parse_qs_encoded [] twoPairs 1 (Or.inl rfl) (ascii "HTTP")

end Zimr
