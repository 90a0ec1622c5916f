import Zimr.Lib.Run
import Zimr.Proof.Params
import Zimr.Spec.Handler

/-!
# Query strings written again

`params_gen_qs` writes names and values as they are, so what is read from its text is what was
there only where nothing in them is special (`Param.Plain`).

* `redirect_keeps_query_iff` — when the `Location` of a redirect carries the parameters
* `qs_len_bounds` — the text is no longer than `params_qs_len`, while no value that is replaced
  grows too much
-/

namespace Zimr

variable {c : UInt8} {p : Param} {ps params : List Param} {type : ℕ}

/-! ## What decoding cannot give -/

/-- A character that is not in the string can only come from an escape, and what the escapes
become is no longer than they are. -/
theorem decoded_index : ∀ (url run : List UInt8), c ∉ run → c ∉ url →
    ∀ i, (decoded run (pieces url))[i]? = some c → i < run.length + url.length := by
  intro url
  induction url using pieces.induct with
  | case1 a b s ih =>
    intro run hrun hurl i hi
    have hs : c ∉ s := fun h => hurl (List.mem_cons_of_mem _ (List.mem_cons_of_mem _
      (List.mem_cons_of_mem _ h)))
    have hcode := urlcode_length a b
    rw [pieces_esc, decoded] at hi
    simp only [List.length_cons]
    by_cases hlt : i < (run ++ urlcode a b).length
    · rw [List.length_append] at hlt
      omega
    · rw [List.getElem?_append_right (by omega)] at hi
      have := ih [] List.not_mem_nil hs _ hi
      rw [List.length_append, List.length_nil] at this
      omega
  | case2 s h =>
    intro run hrun hurl i hi
    have hshort : s.length < 2 := by
      by_contra hlen
      obtain ⟨a, t, rfl⟩ := List.exists_cons_of_length_pos (by omega : 0 < s.length)
      rw [List.length_cons] at hlen
      obtain ⟨b, u, rfl⟩ := List.exists_cons_of_length_pos (by omega : 0 < t.length)
      exact h a b u rfl rfl
    rw [pieces_cut hshort, decoded] at hi
    -- the run, twice, and the escape that is cut off
    have hmem := List.mem_of_getElem? hi
    rw [List.mem_append, List.mem_append] at hmem
    rcases hmem with hmem | hmem | hmem
    · exact absurd hmem hrun
    · exact absurd hmem hrun
    · exact absurd hmem hurl
  | case3 x s _ hx ih =>
    intro run hrun hurl i hi
    rw [pieces_lit hx, decoded] at hi
    have := ih (run ++ [x]) (fun h => by
      rcases List.mem_append.1 h with h | h
      · exact hrun h
      · exact hurl (List.mem_singleton.1 h ▸ List.mem_cons_self))
      (fun h => hurl (List.mem_cons_of_mem _ h)) i hi
    rw [List.length_append, List.length_singleton] at this
    rw [List.length_cons]
    omega
  | case4 =>
    intro run hrun _ i hi
    have hi' : run[i]? = some c := hi
    exact absurd (List.mem_of_getElem? hi') hrun

theorem decodedText_eq {s : List UInt8} (hz : ∀ x ∈ s, x ≠ 0) :
    decodedText s = decoded [] (pieces s) := by
  rw [decodedText, urlDecode_eq, cstr_eq_self hz, List.take_length]

/-- **No text is decoded to itself with a character more that it does not have.** -/
theorem decodedText_ne_append {u w : List UInt8} (hz : ∀ x ∈ u, x ≠ 0) (hc : c ∉ u) :
    decodedText u ≠ u ++ c :: w := by
  intro h
  rw [decodedText_eq hz] at h
  have hi : (decoded [] (pieces u))[u.length]? = some c := by
    rw [h, List.getElem?_append_right (Nat.le_refl _), Nat.sub_self]
    rfl
  have := decoded_index u [] List.not_mem_nil hc _ hi
  rw [List.length_nil] at this
  omega

/-- No escape stands for a NUL. -/
theorem decoded_ne_zero : ∀ (url run : List UInt8), (∀ x ∈ run, x ≠ 0) → (∀ x ∈ url, x ≠ 0) →
    ∀ x ∈ decoded run (pieces url), x ≠ 0 := by
  have hcode : ∀ a b, ∀ x ∈ urlcode a b, x ≠ 0 := by
    have hall : (urlcodes.all fun l => l.all (· ≠ 0)) = true := by decide +kernel
    intro a b x hx
    unfold urlcode at hx
    rw [List.getD_eq_getElem?_getD] at hx
    cases hl : urlcodes[(xtoi [a, b] 0).1]? with
    | none =>
      rw [hl] at hx
      exact (List.not_mem_nil hx).elim
    | some l =>
      rw [hl] at hx
      have hl' := List.all_eq_true.1 hall l (List.mem_of_getElem? hl)
      exact of_decide_eq_true (List.all_eq_true.1 hl' x hx)
  intro url
  induction url using pieces.induct with
  | case1 a b s ih =>
    intro run hrun hurl x hx
    rw [pieces_esc, decoded, List.mem_append, List.mem_append] at hx
    rcases hx with (hx | hx) | hx
    · exact hrun x hx
    · exact hcode a b x hx
    · exact ih [] (fun y hy => (List.not_mem_nil hy).elim) (fun y hy => hurl y
        (List.mem_cons_of_mem _ (List.mem_cons_of_mem _ (List.mem_cons_of_mem _ hy)))) x hx
  | case2 s h =>
    intro run hrun hurl x hx
    have hshort : s.length < 2 := by
      by_contra hlen
      obtain ⟨a, t, rfl⟩ := List.exists_cons_of_length_pos (by omega : 0 < s.length)
      rw [List.length_cons] at hlen
      obtain ⟨b, u, rfl⟩ := List.exists_cons_of_length_pos (by omega : 0 < t.length)
      exact h a b u rfl rfl
    rw [pieces_cut hshort, decoded, List.mem_append, List.mem_append] at hx
    rcases hx with hx | hx | hx
    · exact hrun x hx
    · exact hrun x hx
    · exact hurl x hx
  | case3 y s _ hy ih =>
    intro run hrun hurl x hx
    rw [pieces_lit hy, decoded] at hx
    refine ih (run ++ [y]) (fun z hz => ?_) (fun z hz => hurl z (List.mem_cons_of_mem _ hz)) x hx
    rcases List.mem_append.1 hz with hz | hz
    · exact hrun z hz
    · rw [List.mem_singleton.1 hz]
      exact hurl y List.mem_cons_self
  | case4 =>
    intro run hrun _ x hx
    exact hrun x hx

/-! ## Parameters that were read -/

/-- What holds of a parameter that a query string gave. -/
structure Param.Read (p : Param) : Prop where
  name_short : p.name.length < paramsNameMaxLen
  ascii : ∀ x ∈ p.name, ¬127 < x
  name_nul : ∀ x ∈ p.name, x ≠ 0
  value_nul : ∀ x ∈ p.value, x ≠ 0
  value_len : p.value.length ≤ p.valueLen

theorem decodedText_length {s : List UInt8} (hz : ∀ x ∈ s, x ≠ 0)
    (hcut : endsCut (pieces s) = false) : (decodedText s).length ≤ s.length := by
  have := decoded_length s []
  rw [hcut, cond_false, List.length_nil] at this
  rw [decodedText_eq hz]
  omega

theorem decodedText_nul {s : List UInt8} (hz : ∀ x ∈ s, x ≠ 0) : ∀ x ∈ decodedText s, x ≠ 0 := by
  rw [decodedText_eq hz]
  exact decoded_ne_zero s [] (fun x hx => (List.not_mem_nil hx).elim) hz

/-- Without escapes that are cut off the parser comes to its end. -/
theorem parsePieces_read (type : ℕ) : ∀ (qs : List (List UInt8)) (params : List Param),
    (∀ p ∈ qs, (∀ x ∈ p, x ≠ 0) ∧ endsCut (pieces (pieceName p)) = false ∧
      endsCut (pieces (pieceValue p)) = false) →
    ∃ new, parsePieces type params qs = .ok (params ++ new) ∧ ∀ p ∈ new, p.Read := by
  intro qs
  induction qs with
  | nil =>
    intro params _
    exact ⟨[], by rw [List.append_nil]; rfl, fun p hp => (List.not_mem_nil hp).elim⟩
  | cons p qs ih =>
    intro params hall
    obtain ⟨hz, hcn, hcv⟩ := hall p List.mem_cons_self
    have hzn : ∀ x ∈ pieceName p, x ≠ 0 := fun x hx => hz x ((List.takeWhile_prefix _).subset hx)
    have hzv : ∀ x ∈ pieceValue p, x ≠ 0 := fun x hx => hz x (List.mem_of_mem_drop hx)
    have hln := decodedText_length hzn hcn
    have hlv := decodedText_length hzv hcv
    rw [parsePieces]
    by_cases hlong : paramsNameMaxLen ≤ (pieceName p).length
    · rw [if_pos hlong]
      exact ⟨[], by rw [List.append_nil], fun q hq => (List.not_mem_nil hq).elim⟩
    rw [if_neg hlong, if_neg (by omega), List.take_of_length_le hln]
    by_cases hascii : (decodedText (pieceName p)).any (127 < ·) = true
    · rw [if_pos hascii]
      exact ⟨[], by rw [List.append_nil], fun q hq => (List.not_mem_nil hq).elim⟩
    rw [if_neg hascii, if_neg (by omega)]
    obtain ⟨new, hrun, hnew⟩ := ih _ fun q hq => hall q (List.mem_cons_of_mem _ hq)
    refine ⟨_ :: new, by rw [hrun, List.append_assoc]; rfl, ?_⟩
    intro q hq
    rcases List.mem_cons.1 hq with rfl | hq
    · refine ⟨by show (decodedText (pieceName p)).length < _; omega, ?_, decodedText_nul hzn,
        decodedText_nul hzv, hlv⟩
      intro x hx hlt
      exact hascii (List.any_eq_true.2 ⟨x, hx, decide_eq_true hlt⟩)
    · exact hnew q hq

/-- The pairs of a query string have the bytes of the query string. -/
theorem mem_qsPieces : ∀ qs : List UInt8, ∀ p ∈ qsPieces qs, ∀ x ∈ p, x ∈ qs := by
  intro qs
  induction qs with
  | nil => intro p hp; exact (List.not_mem_nil hp).elim
  | cons c s ih =>
    intro p hp x hx
    rw [qsPieces] at hp
    split at hp
    · rcases List.mem_cons.1 hp with rfl | hp
      · exact (List.not_mem_nil hx).elim
      · exact List.mem_cons_of_mem _ (ih p hp x hx)
    · split at hp
      · rw [List.mem_singleton.1 hp, List.mem_singleton] at hx
        rw [hx]
        exact List.mem_cons_self
      · rename_i q qs hq
        rw [hq] at ih
        rcases List.mem_cons.1 hp with rfl | hp
        · rcases List.mem_cons.1 hx with rfl | hx
          · exact List.mem_cons_self
          · exact List.mem_cons_of_mem _ (ih q List.mem_cons_self x hx)
        · exact List.mem_cons_of_mem _ (ih p (List.mem_cons_of_mem _ hp) x hx)

/-! ## Reading what was written -/

/-- The parser only appends. -/
theorem parsePieces_extends (type : ℕ) : ∀ (qs : List (List UInt8)) (params again : List Param),
    parsePieces type params qs = .ok again → ∃ new, again = params ++ new := by
  intro qs
  induction qs with
  | nil => intro params again h; cases h; exact ⟨[], (List.append_nil _).symm⟩
  | cons p qs ih =>
    intro params again h
    rw [parsePieces] at h
    split at h
    · cases h; exact ⟨[], (List.append_nil _).symm⟩
    · split at h
      · cases h
      · split at h
        · cases h; exact ⟨[], (List.append_nil _).symm⟩
        · split at h
          · cases h
          · obtain ⟨new, rfl⟩ := ih _ _ h
            exact ⟨_ :: new, by rw [List.append_assoc]; rfl⟩

/-- A name with its value. -/
def Param.pair (p : Param) : List UInt8 × List UInt8 := (p.name, p.value)

theorem genQs_cons (p q : Param) (ps : List Param) :
    paramsGenQs (p :: q :: ps) = p.text ++ 38 :: paramsGenQs (q :: ps) := by
  unfold paramsGenQs
  rw [List.map_cons, List.map_cons, List.intercalate_cons_cons, List.append_assoc]
  rfl

theorem genQs_single (p : Param) : paramsGenQs [p] = p.text := by
  unfold paramsGenQs
  rw [List.map_cons, List.map_nil, List.intercalate_singleton]

theorem Param.Plain.text_amp (h : p.Plain) : ∀ x ∈ p.text, x ≠ 38 := by
  intro x hx
  rcases List.mem_append.1 hx with hx | hx
  · rintro rfl; exact h.name_amp hx
  · rcases List.mem_cons.1 hx with rfl | hx
    · decide
    · rintro rfl; exact h.value_amp hx

/-- Plain parameters are read as they were written. -/
theorem parsePieces_plain (type : ℕ) : ∀ (ps params : List Param),
    (∀ p ∈ ps, p.Read) → (∀ p ∈ ps, p.Plain) →
    ∃ new, parsePieces type params (ps.map Param.text) = .ok (params ++ new) ∧
      new.map Param.pair = ps.map Param.pair := by
  intro ps
  induction ps with
  | nil => intro params _ _; exact ⟨[], by rw [List.append_nil]; rfl, rfl⟩
  | cons p ps ih =>
    intro params hread hplain
    have hr := hread p List.mem_cons_self
    have hp := hplain p List.mem_cons_self
    obtain ⟨hn, hv⟩ := @piece_text p.name p.value hp.name_eq
    have hascii : ¬(p.name.take p.name.length).any (127 < ·) = true := by
      rw [List.take_length, List.any_eq_true]
      rintro ⟨x, hx, hlt⟩
      exact hr.ascii x hx (of_decide_eq_true hlt)
    let q : Param :=
      { name := p.name, value := p.value, valueLen := p.value.length, type, valAlloced := true }
    obtain ⟨new, hrun, hnew⟩ := ih (params ++ [q]) (fun q hq => hread q (List.mem_cons_of_mem _ hq))
      fun q hq => hplain q (List.mem_cons_of_mem _ hq)
    refine ⟨q :: new, ?_, ?_⟩
    · have hone : parsePieces type params (p.text :: ps.map Param.text) =
          parsePieces type (params ++ [q]) (ps.map Param.text) := by
        rw [parsePieces]
        unfold Param.text
        simp only [hn, hv, hp.name, hp.value]
        rw [if_neg (Nat.not_le.2 hr.name_short), if_neg (Nat.not_le.2 hr.name_short),
          if_neg hascii, if_neg (Nat.lt_irrefl _)]
      rw [List.map_cons, hone, hrun, List.append_assoc]
      rfl
    · rw [List.map_cons, List.map_cons, hnew]
      rfl

theorem genQs_pieces : ∀ ps : List Param, (∀ p ∈ ps, ∀ x ∈ p.text, x ≠ 38) →
    qsPieces (paramsGenQs ps) = ps.map Param.text := by
  intro ps
  induction ps with
  | nil => intro _; rfl
  | cons p ps ih =>
    intro h
    have hp := h p List.mem_cons_self
    cases ps with
    | nil =>
      rw [genQs_single]
      exact qsPieces_last (List.append_ne_nil_of_right_ne_nil _ (List.cons_ne_nil _ _)) hp
    | cons q qs =>
      rw [genQs_cons, qsPieces_append hp, ih fun r hr => h r (List.mem_cons_of_mem _ hr)]
      rfl

/-- What the parser reads where the text of `p` stands is `p` only if `p` is plain: whatever ends
the name or the value too soon would have to come out of an escape before it. -/
theorem plain_of_piece (hr : p.Read) {f w : List UInt8}
    (hf : (f = p.text ∧ ∀ x ∈ p.text, x ≠ 38) ∨ ((∀ x ∈ f, x ≠ 38) ∧ p.text = f ++ 38 :: w))
    (hn : decodedText (pieceName f) = p.name) (hv : decodedText (pieceValue f) = p.value) :
    p.Plain := by
  have hz : ∀ x ∈ p.text, x ≠ 0 := by
    intro x hx
    rcases List.mem_append.1 hx with hx | hx
    · exact hr.name_nul x hx
    · rcases List.mem_cons.1 hx with rfl | hx
      · decide
      · exact hr.value_nul x hx
  have hzf : ∀ x ∈ f, x ≠ 0 := by
    intro x hx
    rcases hf with ⟨rfl, -⟩ | ⟨-, ht⟩
    · exact hz x hx
    · exact hz x (ht ▸ List.mem_append_left _ hx)
  obtain ⟨hne, hcut⟩ := pieceName_spec f
  have hzn : ∀ x ∈ pieceName f, x ≠ 0 := fun x hx => hzf x ((List.takeWhile_prefix _).subset hx)
  have hzv : ∀ x ∈ pieceValue f, x ≠ 0 := fun x hx => hzf x (List.mem_of_mem_drop hx)
  have hname61 : 61 ∉ pieceName f := fun h => hne 61 h rfl
  -- the name has no `=`
  have hnoeq : ∀ t, p.name ≠ pieceName f ++ 61 :: t := fun t h =>
    decodedText_ne_append hzn hname61 (hn.trans h)
  rcases hf with ⟨rfl, hamp⟩ | ⟨hamp, ht⟩
  · have heq : 61 ∉ p.name := by
      intro hmem
      obtain ⟨x, t, hsplit, hx⟩ := List.eq_append_cons_of_mem hmem
      have htext : p.text = x ++ 61 :: (t ++ 61 :: p.value) := by
        rw [Param.text, hsplit, List.append_assoc]
        rfl
      rw [htext, (piece_text hx).1] at hnoeq
      exact hnoeq t hsplit
    obtain ⟨h₁, h₂⟩ := @piece_text p.name p.value heq
    exact ⟨fun h => hamp 38 (List.mem_append_left _ h) rfl, heq,
      fun h => hamp 38 (List.mem_append_right _ (List.mem_cons_of_mem _ h)) rfl,
      (congrArg decodedText h₁).symm.trans hn, (congrArg decodedText h₂).symm.trans hv⟩
  · exfalso
    have hf38 : 38 ∉ f := fun h => hamp 38 h rfl
    rw [Param.text] at ht
    rcases hcut with ⟨h₁, -⟩ | h
    · -- there is no `=` before the `&`, so the `&` is one of the name
      rw [h₁] at hne hn
      rcases List.append_eq_append_iff.1 ht with ⟨t, h₂, h₃⟩ | ⟨t, h₂, h₃⟩
      · cases t with
        | nil => exact absurd (List.cons.inj h₃).1 (by decide)
        | cons c t =>
          have hc : 61 = c := (List.cons.inj h₃).1
          exact hne c (h₂ ▸ List.mem_append_right _ List.mem_cons_self) hc.symm
      · cases t with
        | nil => exact absurd (List.cons.inj h₃).1 (by decide)
        | cons c t =>
          have hc : 38 = c := (List.cons.inj h₃).1
          rw [← hc] at h₂
          exact decodedText_ne_append hzf hf38 (hn.trans h₂)
    · -- the `=` is the one behind the name, or one in it
      have hv38 : 38 ∉ pieceValue f := fun hm =>
        hf38 (h ▸ List.mem_append_right _ (List.mem_cons_of_mem _ hm))
      rw [h, List.append_assoc] at ht
      rcases List.append_eq_append_iff.1 ht with ⟨t, h₂, h₃⟩ | ⟨t, h₂, h₃⟩
      · cases t with
        | nil => exact decodedText_ne_append hzv hv38 (hv.trans (List.cons.inj h₃).2)
        | cons c t =>
          have hc : 61 = c := (List.cons.inj h₃).1
          exact hname61 (h₂ ▸ hc ▸ List.mem_append_right _ List.mem_cons_self)
      · cases t with
        | nil => exact decodedText_ne_append hzv hv38 (hv.trans (List.cons.inj h₃).2.symm)
        | cons c t =>
          have hc : 61 = c := (List.cons.inj h₃).1
          rw [← hc] at h₂
          exact hnoeq t h₂

/-- The first pair of the text that is written. -/
theorem genQs_first (p : Param) (ps : List Param) : ∃ f w rest,
    qsPieces (paramsGenQs (p :: ps)) = f :: rest ∧
    ((f = p.text ∧ (∀ x ∈ p.text, x ≠ 38) ∧ rest = qsPieces (paramsGenQs ps)) ∨
      ((∀ x ∈ f, x ≠ 38) ∧ p.text = f ++ 38 :: w)) := by
  by_cases hamp : 38 ∈ p.text
  · obtain ⟨f, w, ht, hf⟩ := List.eq_append_cons_of_mem hamp
    have hf' : ∀ x ∈ f, x ≠ 38 := fun x hx h => hf (h ▸ hx)
    obtain ⟨t, hgen⟩ : ∃ t, paramsGenQs (p :: ps) = f ++ 38 :: t := by
      cases ps with
      | nil => exact ⟨w, by rw [genQs_single, ht]⟩
      | cons q qs => exact ⟨_, by rw [genQs_cons, ht, List.append_assoc]; rfl⟩
    exact ⟨f, w, qsPieces t, by rw [hgen, qsPieces_append hf'], Or.inr ⟨hf', ht⟩⟩
  · have hfree : ∀ x ∈ p.text, x ≠ 38 := fun x hx h => hamp (h ▸ hx)
    refine ⟨p.text, [], qsPieces (paramsGenQs ps), ?_, Or.inl ⟨rfl, hfree, rfl⟩⟩
    cases ps with
    | nil =>
      rw [genQs_single]
      exact qsPieces_last (List.append_ne_nil_of_right_ne_nil _ (List.cons_ne_nil _ _)) hfree
    | cons q qs => rw [genQs_cons, qsPieces_append hfree]

/-- **Parameters that are read again are plain.** The induction is on them: the first pair that
is read has to be the first of them, and then the rest is that of the others. -/
theorem plain_of_again (type : ℕ) : ∀ (ps params again : List Param), (∀ p ∈ ps, p.Read) →
    parsePieces type params (qsPieces (paramsGenQs ps)) = .ok again →
    again.map Param.pair = params.map Param.pair ++ ps.map Param.pair → ∀ p ∈ ps, p.Plain := by
  intro ps
  induction ps with
  | nil => intro params again _ _ _ p hp; exact (List.not_mem_nil hp).elim
  | cons p ps ih =>
    intro params again hread hrun hsame
    obtain ⟨f, w, rest, hpieces, hf⟩ := genQs_first p ps
    rw [hpieces] at hrun
    -- the parser has read a pair here
    have hstep : ∃ q : Param, q.name = decodedText (pieceName f) ∧
        q.value = decodedText (pieceValue f) ∧ parsePieces type (params ++ [q]) rest = .ok again := by
      have hlen := congrArg List.length hsame
      rw [List.length_map, List.length_append, List.length_map, List.map_cons,
        List.length_cons] at hlen
      rw [parsePieces] at hrun
      split at hrun
      · cases hrun; omega
      · split at hrun
        · cases hrun
        · split at hrun
          · cases hrun; omega
          · split at hrun
            · cases hrun
            · exact ⟨_, rfl, rfl, hrun⟩
    obtain ⟨q, hqn, hqv, hrun⟩ := hstep
    obtain ⟨new, rfl⟩ := parsePieces_extends type _ _ _ hrun
    rw [List.map_append, List.map_append, List.append_assoc] at hsame
    have htail := List.append_cancel_left hsame
    have hpair : q.pair = p.pair := (List.cons.inj htail).1
    have hn : q.name = p.name := congrArg Prod.fst hpair
    have hv : q.value = p.value := congrArg Prod.snd hpair
    have hplain : p.Plain := plain_of_piece (hread p List.mem_cons_self) (f := f) (w := w)
      (by rcases hf with ⟨h₁, h₂, -⟩ | h
          · exact Or.inl ⟨h₁, h₂⟩
          · exact Or.inr h) (hqn.symm.trans hn) (hqv.symm.trans hv)
    intro r hr
    rcases List.mem_cons.1 hr with rfl | hr
    · exact hplain
    · -- the other case would contradict what was just found
      rcases hf with ⟨-, -, rfl⟩ | ⟨-, ht⟩
      · refine ih (params ++ [q]) _ (fun s hs => hread s (List.mem_cons_of_mem _ hs)) hrun ?_ r hr
        rw [List.map_append, List.map_append, List.append_assoc, List.append_assoc]
        rw [htail, List.map_cons, List.map_cons, List.map_nil, hpair]
        rfl
      · exact absurd rfl (hplain.text_amp 38 (ht ▸ List.mem_append_right _ List.mem_cons_self))

/-! ## The length -/

/-- The text of the parameter is no longer than what `params_qs_len` counts for it. -/
def Param.Fitting (p : Param) : Prop :=
  p.name.length + p.value.length ≤ paramsNameMaxLen + p.valueLen

theorem paramsQsLen_cons (p : Param) (ps : List Param) :
    paramsQsLen (p :: ps) = paramsNameMaxLen + p.valueLen + 2 + paramsQsLen ps := by
  have hfold : ∀ (ps : List Param) (n : ℕ),
      ps.foldl (fun l p => l + (paramsNameMaxLen + p.valueLen + 2)) n =
        n + ps.foldl (fun l p => l + (paramsNameMaxLen + p.valueLen + 2)) 0 := by
    intro ps
    induction ps with
    | nil => intro n; rfl
    | cons q qs ih =>
      intro n
      rw [List.foldl_cons, List.foldl_cons, ih, ih (0 + _)]
      omega
  unfold paramsQsLen
  rw [List.foldl_cons, hfold, Nat.zero_add]

theorem genQs_length : ∀ ps : List Param, (∀ p ∈ ps, p.Fitting) →
    (paramsGenQs ps).length ≤ paramsQsLen ps := by
  intro ps
  induction ps with
  | nil => intro _; exact Nat.zero_le _
  | cons p ps ih =>
    intro h
    have hp : p.Fitting := h p List.mem_cons_self
    unfold Param.Fitting at hp
    have ht : p.text.length = p.name.length + 1 + p.value.length := by
      rw [Param.text, List.length_append, List.length_cons]
      omega
    rw [paramsQsLen_cons]
    cases ps with
    | nil =>
      rw [genQs_single]
      omega
    | cons q qs =>
      have := ih fun r hr => h r (List.mem_cons_of_mem _ hr)
      rw [genQs_cons, List.length_append, List.length_cons]
      omega

/-- Then the redirect stays in its buffer. -/
theorem redirectLocation_fits (redirectUrl url : List UInt8) (h : ∀ p ∈ params, p.Fitting) :
    redirectLocation redirectUrl url params =
      .ok (if params = [] then redirectUrl ++ url
        else redirectUrl ++ url ++ ascii "?" ++ paramsGenQs params) := by
  have hlen := genQs_length params h
  unfold redirectLocation
  simp only
  cases params with
  | nil => rfl
  | cons p ps =>
    rw [paramsQsLen_cons] at hlen ⊢
    rw [if_neg (by omega), if_neg (by omega), if_neg (List.cons_ne_nil _ _)]

/-- What the parser appends fits. -/
theorem parseQsLoop_fitting (type : ℕ) : ∀ (fuel : ℕ) (params : List Param) (raw : List UInt8)
    (size : ℕ) (again : List Param), (∀ p ∈ params, p.Fitting) →
    parseQsLoop fuel params raw size type = .ok again → ∀ p ∈ again, p.Fitting := by
  intro fuel
  induction fuel with
  | zero =>
    intro params raw size again h hrun
    rw [parseQsLoop] at hrun
    split at hrun
    · cases hrun
    · cases hrun; exact h
  | succ fuel ih =>
    intro params raw size again h hrun
    rw [parseQsLoop] at hrun
    by_cases h₁ : size = 0
    · rw [if_pos h₁] at hrun
      cases hrun
      exact h
    rw [if_neg h₁] at hrun
    simp only at hrun
    generalize (scanPair raw size 0 0).1 = len at hrun
    generalize (scanPair raw size 0 0).2 = val at hrun
    generalize (if raw.getD len 0 = 61 then len + 1 else len) = name_ptr at hrun
    by_cases h₂ : paramsNameMaxLen ≤ len
    · rw [if_pos h₂] at hrun
      cases hrun
      exact h
    rw [if_neg h₂] at hrun
    by_cases h₃ : paramsNameMaxLen ≤ (urlDecode raw len).length
    · rw [if_pos h₃] at hrun
      cases hrun
    rw [if_neg h₃] at hrun
    by_cases h₄ : ((urlDecode raw len).take len).any (127 < ·)
    · rw [if_pos h₄] at hrun
      cases hrun
      exact h
    rw [if_neg h₄] at hrun
    by_cases h₅ : val < name_ptr
    · rw [if_pos h₅] at hrun
      cases hrun
    rw [if_neg h₅] at hrun
    by_cases h₆ : val - name_ptr < (urlDecode (raw.drop name_ptr) (val - name_ptr)).length
    · rw [if_pos h₆] at hrun
      cases hrun
    -- a parameter is appended, and both its texts passed their checks
    rw [if_neg h₆] at hrun
    refine ih _ _ _ _ ?_ hrun
    intro p hp
    rcases List.mem_append.1 hp with hp | hp
    · exact h p hp
    · rw [List.mem_singleton.1 hp]
      unfold Param.Fitting
      simp only
      omega

/-- A call that keeps the texts short enough: a name fits in its array, and a value that is
replaced may only be longer by what the name leaves of `PARAMS_NAME_MAX_LEN`. -/
def ParamOp.Fits (params : List Param) : ParamOp → Prop
  | .parse _ _ _ => True
  | .set name value => name.length < paramsNameMaxLen ∧
    ∀ p, paramsGetParam params name = some p →
      name.length + value.length ≤ paramsNameMaxLen + p.valueLen

theorem paramsSetParam_fitting (name value : List UInt8) (hn : name.length < paramsNameMaxLen) :
    ∀ params : List Param, (∀ p ∈ params, p.Fitting) →
      (∀ p, paramsGetParam params name = some p →
        name.length + value.length ≤ paramsNameMaxLen + p.valueLen) →
      ∀ p ∈ paramsSetParam params name value, p.Fitting := by
  intro params
  induction params with
  | nil =>
    intro _ _ p hp
    rw [paramsSetParam, List.mem_singleton] at hp
    rw [hp]
    unfold Param.Fitting
    simp only
    omega
  | cons q qs ih =>
    intro h hv p hp
    rw [paramsSetParam] at hp
    by_cases hq : q.name = name
    · -- the value of `q` is replaced, its length is not
      have hfirst : paramsGetParam (q :: qs) name = some q := by
        unfold paramsGetParam
        rw [List.find?_cons_of_pos (by simpa using hq)]
      rw [if_pos hq] at hp
      rcases List.mem_cons.1 hp with rfl | hp
      · have := hv q hfirst
        unfold Param.Fitting
        simp only [hq]
        exact this
      · exact h p (List.mem_cons_of_mem _ hp)
    · rw [if_neg hq] at hp
      rcases List.mem_cons.1 hp with rfl | hp
      · exact h p List.mem_cons_self
      · refine ih (fun r hr => h r (List.mem_cons_of_mem _ hr)) (fun r hr => hv r ?_) p hp
        unfold paramsGetParam at hr ⊢
        rw [List.find?_cons_of_neg (by simpa using hq)]
        exact hr

/-- **The length is right along every run** in which no value that is replaced grows too much:
the text of the parameters is no longer than `params_qs_len`, and a redirect is written. -/
theorem qs_len_bounds (ops : List ParamOp) (hops : Run.Along paramStep ParamOp.Fits [] ops)
    (params : List Param) (hrun : Run.run paramStep [] ops = .ok params) :
    (paramsGenQs params).length ≤ paramsQsLen params ∧
      ∀ redirectUrl url, ∃ location, redirectLocation redirectUrl url params = .ok location := by
  have hall : ∀ p ∈ params, p.Fitting := by
    refine Run.run_inv (I := fun params => ∀ p ∈ params, p.Fitting) (C := ParamOp.Fits) ?_ ops []
      params (fun p hp => (List.not_mem_nil hp).elim) hops hrun
    intro params op params' h hop hstep
    cases op with
    | parse raw size type => exact parseQsLoop_fitting type size params raw size params' h hstep
    | set name value =>
      cases hstep
      exact paramsSetParam_fitting name value hop.1 params h hop.2
  exact ⟨genQs_length params hall, fun r u => ⟨_, redirectLocation_fits r u hall⟩⟩

/-- `a=1`, then `a` set to `2` and `b` to `33`. -/
theorem qs_len_bounds_two : (ascii "a=2&b=33").length ≤
    paramsQsLen [⟨ascii "a", ascii "2", 1, 1, true⟩, ⟨ascii "b", ascii "33", 2, 3, true⟩] := by
  have h := (qs_len_bounds [.parse (ascii "a=1 HTTP") 3 1, .set (ascii "a") (ascii "2"),
    .set (ascii "b") (ascii "33")] ⟨trivial, ⟨by decide, fun p hp => ?_⟩,
      ⟨by decide, fun p hp => ?_⟩, trivial⟩
    [⟨ascii "a", ascii "2", 1, 1, true⟩, ⟨ascii "b", ascii "33", 2, 3, true⟩] rfl).1
  · exact h
  · cases hp
    decide
  · cases hp

/-- `a=1`, then `a` set to two hundred characters. -/
theorem qs_len_exceeded : ¬∀ (ops : List ParamOp) (params : List Param),
    (∀ name value, ParamOp.set name value ∈ ops → name.length < paramsNameMaxLen) →
    Run.run paramStep [] ops = .ok params →
    (paramsGenQs params).length ≤ paramsQsLen params := by
  intro h
  have hlen := h [.parse (ascii "a=1 HTTP") 3 1, .set (ascii "a") (List.replicate 200 120)]
    [⟨ascii "a", List.replicate 200 120, 1, 1, true⟩] (fun name value hm => by
      rcases List.mem_cons.1 hm with hm | hm
      · cases hm
      · cases List.mem_singleton.1 hm
        decide) rfl
  revert hlen
  decide +kernel

/-! ## The redirect -/

/-- **When a redirect keeps the query.** A query string without escapes that are cut off is read,
and its parameters are written into the `Location`; they are read from there as they are exactly
when all of them are plain. -/
theorem redirect_keeps_query_iff (qs : List UInt8) (hz : ∀ x ∈ qs, x ≠ 0) (hcut : NoCut qs)
    (c c' : UInt8) (hc : c = 32 ∨ c = 0) (hc' : c' = 32 ∨ c' = 0) (tail tail' : List UInt8)
    (type : ℕ) :
    ∃ params, paramsParseQs [] (qs ++ c :: tail) qs.length type = .ok params ∧
      (∀ redirectUrl url, redirectLocation redirectUrl url params =
        .ok (if params = [] then redirectUrl ++ url
          else redirectUrl ++ url ++ ascii "?" ++ paramsGenQs params)) ∧
      ((∃ again, paramsParseQs [] (paramsGenQs params ++ c' :: tail') (paramsGenQs params).length
          type = .ok again ∧ again.map Param.pair = params.map Param.pair) ↔
        ∀ p ∈ params, p.Plain) := by
  obtain ⟨params, hrun, hread⟩ := parsePieces_read type (qsPieces qs) [] fun p hp =>
    ⟨fun x hx => hz x (mem_qsPieces qs p hp x hx), hcut p hp⟩
  rw [List.nil_append] at hrun
  have hfit : ∀ p ∈ params, p.Fitting := by
    intro p hp
    have h₁ := (hread p hp).name_short
    have h₂ := (hread p hp).value_len
    unfold Param.Fitting
    omega
  refine ⟨params, ?_, fun r u => redirectLocation_fits r u hfit, ?_⟩
  · rw [paramsParseQs, paramsParseQs_pieces hc type tail _ _ _ (Nat.le_refl _) hz, hrun]
  -- the text that is written has no NUL either
  have hzgen : ∀ ps : List Param, (∀ p ∈ ps, p.Read) → ∀ x ∈ paramsGenQs ps, x ≠ 0 := by
    have htext : ∀ p : Param, p.Read → ∀ x ∈ p.text, x ≠ 0 := by
      intro p hp x hx
      rcases List.mem_append.1 hx with hx | hx
      · exact hp.name_nul x hx
      · rcases List.mem_cons.1 hx with rfl | hx
        · decide
        · exact hp.value_nul x hx
    intro ps
    induction ps with
    | nil => intro _ x hx; exact (List.not_mem_nil hx).elim
    | cons p ps ih =>
      intro h x hx
      cases ps with
      | nil =>
        rw [genQs_single] at hx
        exact htext p (h p List.mem_cons_self) x hx
      | cons q qs =>
        rw [genQs_cons] at hx
        rcases List.mem_append.1 hx with hx | hx
        · exact htext p (h p List.mem_cons_self) x hx
        · rcases List.mem_cons.1 hx with rfl | hx
          · decide
          · exact ih (fun r hr => h r (List.mem_cons_of_mem _ hr)) x hx
  rw [paramsParseQs, paramsParseQs_pieces hc' type tail' _ _ _ (Nat.le_refl _)
    (hzgen params hread)]
  constructor
  · rintro ⟨again, hagain, hsame⟩
    exact plain_of_again type params [] again hread hagain hsame
  · intro hplain
    obtain ⟨new, hnew, hsame⟩ := parsePieces_plain type params [] hread hplain
    rw [List.nil_append] at hnew
    exact ⟨new, by rw [genQs_pieces params fun p hp => (hplain p hp).text_amp, hnew], hsame⟩

/-- `a=1&b=%20`. -/
theorem redirect_keeps_query_two : ∃ params, paramsParseQs [] (ascii "a=1&b=%20 HTTP") 9 1 =
    .ok params ∧ params.map Param.pair = [(ascii "a", ascii "1"), (ascii "b", ascii " ")] ∧
    ∃ again, paramsParseQs [] (ascii "a=1&b=  HTTP") 7 1 = .ok again ∧
      again.map Param.pair = params.map Param.pair := by
  obtain ⟨params, hrun, -, hiff⟩ := redirect_keeps_query_iff (ascii "a=1&b=%20") (by decide +kernel)
    (by decide) 32 32 (Or.inl rfl) (Or.inl rfl) (ascii "HTTP") (ascii "HTTP") 1
  have hparams : params = [⟨ascii "a", ascii "1", 1, 1, true⟩, ⟨ascii "b", ascii " ", 3, 1, true⟩] := by
    have hgot : (paramsParseQs [] (ascii "a=1&b=%20" ++ 32 :: ascii "HTTP")
        (ascii "a=1&b=%20").length 1).toOption =
      some [⟨ascii "a", ascii "1", 1, 1, true⟩, ⟨ascii "b", ascii " ", 3, 1, true⟩] := by
      decide
    rw [hrun] at hgot
    exact Option.some.inj hgot
  subst hparams
  refine ⟨_, hrun, by decide, hiff.2 ?_⟩
  intro p hp
  rcases List.mem_cons.1 hp with rfl | hp
  · constructor <;> decide
  · rw [List.mem_singleton.1 hp]
    constructor <;> decide

/-- `a=%26`: the value `&` is written as it is. -/
theorem redirect_changes_query : ¬∀ (qs : List UInt8) (params : List Param), (∀ x ∈ qs, x ≠ 0) →
    NoCut qs → paramsParseQs [] (qs ++ ascii " HTTP") qs.length 1 = .ok params →
    ∃ again, paramsParseQs [] (paramsGenQs params ++ ascii " HTTP") (paramsGenQs params).length 1 =
      .ok again ∧ again.map Param.pair = params.map Param.pair := by
  intro h
  obtain ⟨again, hrun, hsame⟩ := h (ascii "a=%26") [⟨ascii "a", ascii "&", 3, 1, true⟩]
    (by decide +kernel) (by decide) (Run.ok_of_toOption (by decide))
  have hgot : (paramsParseQs [] (paramsGenQs [⟨ascii "a", ascii "&", 3, 1, true⟩] ++
      ascii " HTTP") (paramsGenQs [⟨ascii "a", ascii "&", 3, 1, true⟩]).length 1).toOption.map
        (·.map Param.pair) = some [(ascii "a", [])] := by decide
  rw [hrun] at hgot
  have hpairs : again.map Param.pair = [(ascii "a", [])] := Option.some.inj hgot
  rw [hpairs] at hsame
  revert hsame
  decide

end Zimr
