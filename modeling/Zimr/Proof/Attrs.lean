import Mathlib.Data.List.Nodup
import Zimr.Proof.Headers
import Zimr.Spec.Attrs

/-!
# Attributes of a header

`headers_get_header_attr` looks for a name in the whole value. A character that no name has cuts
the search in two (`attrFind_sep`), so it goes from one `=` to the next and stops at the first that
has the name before it (`attrFind_piece`, `attrFind_attrs`).

* `headerAttr_iff` — it gives the attribute of that name exactly when that `=` is the right one
-/

namespace Zimr

variable {n w s t : List UInt8} {c : UInt8}

/-- The loop of `headers_get_header_attr`, on a text of any length. -/
def attrFind (n t : List UInt8) : Option (List UInt8) := attrHead n (t.length + 1) t

/-- Every round goes on behind the name, so the length of the text is fuel enough. -/
theorem attrHead_eq_attrFind (hn : n ≠ []) : ∀ (fuel : ℕ) (t : List UInt8), t.length < fuel →
    attrHead n fuel t = attrFind n t := by
  have hpos : 0 < n.length := List.length_pos_of_ne_nil hn
  have hfuel : ∀ (fuel fuel' : ℕ) (t : List UInt8), t.length < fuel → t.length < fuel' →
      attrHead n fuel t = attrHead n fuel' t := by
    intro fuel
    induction fuel with
    | zero => intro fuel' t h; exact absurd h (Nat.not_lt_zero _)
    | succ fuel ih =>
      intro fuel' t h h'
      obtain ⟨fuel', rfl⟩ : ∃ k, fuel' = k + 1 := ⟨fuel' - 1, by omega⟩
      rw [attrHead, attrHead]
      cases hs : strstr t n with
      | none => rfl
      | some i =>
        have hlt := (strnstr_spec hs).2.2.1
        have hdrop : (t.drop (i + n.length)).length < t.length := by
          rw [List.length_drop]
          omega
        simp only
        rw [ih fuel' _ (by omega) (by omega)]
  intro fuel t h
  exact hfuel fuel _ t h (Nat.lt_succ_self _)

theorem attrFind_none (h : strstr t n = none) : attrFind n t = none := by
  rw [attrFind, attrHead, h]

theorem attrFind_some {i : ℕ} (hn : n ≠ []) (h : strstr t n = some i) :
    attrFind n t = if (t.drop (i + n.length)).headD 0 = 61 then some (t.drop (i + n.length + 1))
      else attrFind n (t.drop (i + n.length)) := by
  have hlt := (strnstr_spec h).2.2.1
  have hpos : 0 < n.length := List.length_pos_of_ne_nil hn
  rw [attrFind, attrHead, h]
  simp only
  rw [attrHead_eq_attrFind hn _ _ (by rw [List.length_drop]; omega), List.drop_drop]

/-! ## A separator -/

/-- Nothing is found where there is no `=`. -/
theorem attrFind_end (hw : 61 ∉ w) : attrFind n w = none := by
  have hfuel : ∀ (fuel : ℕ) (w : List UInt8), 61 ∉ w → attrHead n fuel w = none := by
    intro fuel
    induction fuel with
    | zero => intro w _; rfl
    | succ fuel ih =>
      intro w hw
      rw [attrHead]
      cases strstr w n with
      | none => rfl
      | some i =>
        have hdrop : 61 ∉ w.drop (i + n.length) := fun h => hw (List.mem_of_mem_drop h)
        have hhead : (w.drop (i + n.length)).headD 0 ≠ 61 := by
          cases hv : w.drop (i + n.length) with
          | nil => decide
          | cons x v =>
            rw [hv] at hdrop
            exact fun h => hdrop (h ▸ List.mem_cons_self)
        exact (if_neg hhead).trans (ih _ hdrop)
  exact hfuel _ w hw

/-- A text without the name is skipped. -/
theorem attrFind_skip (hn : n ≠ []) (hz : 0 ∉ w) (h0 : c ≠ 0) (hc : c ∉ n) (hw : ¬n <:+: w)
    (t : List UInt8) : attrFind n (w ++ c :: t) = attrFind n t := by
  have hsplit : w ++ c :: t = (w ++ [c]) ++ t := by rw [List.append_assoc]; rfl
  have hz' : 0 ∉ w ++ [c] := by
    rw [List.mem_append, List.mem_singleton]
    rintro (h | h)
    · exact hz h
    · exact h0 h.symm
  have hskip : strstr (w ++ c :: t) n = (strstr t n).map (· + (w ++ [c]).length) := by
    rw [hsplit]
    apply strstr_skip hz'
    intro i hi
    rw [← hsplit]
    rw [List.length_append, List.length_singleton] at hi
    exact no_prefix_before hc hw (Nat.le_of_lt_succ hi)
  cases hs : strstr t n with
  | none =>
    rw [attrFind_none hs, attrFind_none]
    rw [hskip, hs]
    rfl
  | some i =>
    have hs' : strstr (w ++ c :: t) n = some (i + (w ++ [c]).length) := by
      rw [hskip, hs]
      rfl
    have hdrop : ∀ k, (w ++ c :: t).drop (i + (w ++ [c]).length + k) = t.drop (i + k) := by
      intro k
      have hk : i + (w ++ [c]).length + k = (w ++ [c]).length + (i + k) := by omega
      rw [hsplit, hk, ← List.drop_drop, List.drop_left]
    rw [attrFind_some hn hs, attrFind_some hn hs', hdrop, Nat.add_assoc, hdrop, ← Nat.add_assoc]

theorem strstr_none_iff (hn : n ≠ []) (hz : 0 ∉ n) (hw : 0 ∉ w) :
    strstr w n = none → ¬n <:+: w := by
  rintro h ⟨a, b, rfl⟩
  have ha : ∀ x ∈ a, x ≠ 0 := fun x hx h =>
    hw (List.mem_append_left _ (List.mem_append_left _ (h ▸ hx)))
  obtain ⟨i, -, hi⟩ := strnstr_exists hn a b ((a ++ n ++ b).length + n.length) ha
    (fun x hx h => hz (h ▸ hx)) (by simp only [List.length_append]; omega)
  rw [show strstr (a ++ n ++ b) n = some i from hi] at h
  cases h

/-- **A character that is not of the name cuts the search in two.** In front of it there is no
`=`, so it is the only one that can be found there. -/
theorem attrFind_sep (hn : n ≠ []) (hz : 0 ∉ n) (h0 : c ≠ 0) (hc : c ∉ n) (t : List UInt8)
    (hw0 : 0 ∉ w) (hw : 61 ∉ w) :
    attrFind n (w ++ c :: t) = if Hits n w = true ∧ c = 61 then some t else attrFind n t := by
  have hpos : 0 < n.length := List.length_pos_of_ne_nil hn
  have hfuel : ∀ (fuel : ℕ) (w : List UInt8), w.length < fuel → 0 ∉ w → 61 ∉ w →
      attrFind n (w ++ c :: t) =
        if hitsEnd n fuel w = true ∧ c = 61 then some t else attrFind n t := by
    intro fuel
    induction fuel with
    | zero => intro w h; exact absurd h (Nat.not_lt_zero _)
    | succ fuel ih =>
      intro w hlen hw0 hw
      rw [hitsEnd]
      cases hs : strstr w n with
      | none =>
        rw [if_neg (fun h => Bool.false_ne_true h.1)]
        exact attrFind_skip hn hw0 h0 hc (strstr_none_iff hn hz hw0 hs) t
      | some i =>
        have hle : i + n.length ≤ w.length := strnstr_le hs
        have hs' : strstr (w ++ c :: t) n = some i := by
          apply strnstr_bound (strnstr_append (c :: t) hs)
          rw [List.length_append]
          omega
        obtain ⟨v, hv⟩ : ∃ v, w.drop (i + n.length) = v := ⟨_, rfl⟩
        have hvlen : v.length < fuel := by
          rw [← hv, List.length_drop]
          omega
        have hv0 : 0 ∉ v := fun h => hw0 (List.mem_of_mem_drop (hv ▸ h))
        have hv61 : 61 ∉ v := fun h => hw (List.mem_of_mem_drop (hv ▸ h))
        have hdrop : (w ++ c :: t).drop (i + n.length) = v ++ c :: t := by
          rw [List.drop_append_of_le_length hle, hv]
        have hdrop' : (w ++ c :: t).drop (i + n.length + 1) = (v ++ c :: t).drop 1 := by
          rw [← List.drop_drop, hdrop]
        rw [attrFind_some hn hs', hdrop', hdrop]
        simp only [hv]
        cases v with
        | nil =>
          -- the name is at the end
          have hskip : attrFind n (c :: t) = attrFind n t :=
            attrFind_skip (w := []) hn (List.not_mem_nil) h0 hc
              (fun h => hn (List.infix_nil.1 h)) t
          by_cases h61 : c = 61
          · subst h61
            rfl
          · exact (if_neg h61).trans (hskip.trans (if_neg fun h => h61 h.2).symm)
        | cons x v =>
          have hx : x ≠ 61 := fun h => hv61 (h ▸ List.mem_cons_self)
          rw [List.cons_append, List.headD_cons, if_neg hx, ← List.cons_append, ih _ hvlen hv0 hv61]
          simp
  exact hfuel _ w (Nat.lt_succ_self _) hw0 hw

/-! ## From one `=` to the next -/

theorem AttrName.char_not (hn : AttrName n) (hc : isNameChar c = false) : c ∉ n := fun h =>
  Bool.false_ne_true (hc.symm.trans (hn.char c h))

theorem AttrName.nul (hn : AttrName n) : 0 ∉ n := hn.char_not rfl

/-- The place the search ends at: behind the first `=` that has the name before it. -/
def firstSign (n : List UInt8) (signs : List (List UInt8 × List UInt8)) : Option (List UInt8) :=
  (signs.find? fun e => Hits n e.1).map Prod.snd

/-- **A piece of the text.** The `word` so far has been read, and `rest` is what follows. -/
theorem attrFind_piece (hn : AttrName n) {rest : List UInt8}
    (hrest : ∀ c ∈ rest.head?, isNameChar c = false ∧ c ≠ 61 ∧ c ≠ 0) :
    ∀ (s word : List UInt8), 0 ∉ s → (∀ c ∈ word, isNameChar c = true) →
      attrFind n (word ++ (s ++ rest)) =
        ((firstSign n (equalSigns word s)).map (· ++ rest)).or (attrFind n rest) := by
  have hchar : ∀ {word : List UInt8} {c : UInt8}, (∀ c ∈ word, isNameChar c = true) →
      isNameChar c = false → c ∉ word := fun hw hc h => Bool.false_ne_true (hc.symm.trans (hw _ h))
  intro s
  induction s with
  | nil =>
    intro word _ hw
    cases rest with
    | nil =>
      -- the text ends with the word
      rw [List.append_nil, List.append_nil, attrFind_end (hchar hw rfl),
        attrFind_end List.not_mem_nil]
      rfl
    | cons c rest =>
      obtain ⟨hc, h61, h0⟩ := hrest c rfl
      have hstart := attrFind_sep hn.ne hn.nul h0 (hn.char_not hc) rest (w := [])
        List.not_mem_nil List.not_mem_nil
      rw [if_neg (fun h => h61 h.2), List.nil_append] at hstart
      rw [List.nil_append, attrFind_sep hn.ne hn.nul h0 (hn.char_not hc) rest (hchar hw rfl)
        (hchar hw rfl), if_neg (fun h => h61 h.2), hstart]
      rfl
  | cons c s ih =>
    intro word hs hw
    have h0 : c ≠ 0 := fun h => hs (h ▸ List.mem_cons_self)
    have hs' : 0 ∉ s := fun h => hs (List.mem_cons_of_mem _ h)
    rw [equalSigns]
    by_cases h61 : c = 61
    · subst h61
      rw [if_pos rfl, List.cons_append, attrFind_sep hn.ne hn.nul h0 (hn.char_not rfl) (s ++ rest)
        (hchar hw rfl) (hchar hw rfl), firstSign, List.find?_cons]
      by_cases hit : Hits n word = true
      · rw [if_pos ⟨hit, rfl⟩, hit]
        rfl
      · have hnil := ih [] hs' fun _ h => (List.not_mem_nil h).elim
        rw [if_neg (fun h => hit h.1), Bool.eq_false_iff.2 hit]
        exact hnil
    · rw [if_neg h61]
      by_cases hc : isNameChar c = true
      · have hword : ∀ x ∈ word ++ [c], isNameChar x = true := by
          intro x hx
          rcases List.mem_append.1 hx with hx | hx
          · exact hw x hx
          · exact List.mem_singleton.1 hx ▸ hc
        rw [if_pos hc, ← ih (word ++ [c]) hs' hword, List.append_assoc]
        rfl
      · have hc := Bool.eq_false_iff.2 hc
        have hnil := ih [] hs' fun _ h => (List.not_mem_nil h).elim
        rw [List.cons_append, attrFind_sep hn.ne hn.nul h0 (hn.char_not hc) (s ++ rest)
          (hchar hw rfl) (hchar hw rfl), if_neg (fun h => h61 h.2), hc, if_neg Bool.false_ne_true]
        exact hnil

/-! ## What is read there -/

/-- The text of an attribute. -/
def attrAt (head : List UInt8) : List UInt8 :=
  if head.headD 0 = 34 then
    match strchr (head.drop 1) 34 with
    | some n => (head.drop 1).take n
    | none => attrText head
  else attrText head

theorem headersGetHeaderAttr_eq (key value n : List UInt8) :
    headersGetHeaderAttr ⟨key, value⟩ (some n) = (attrFind n value).map attrAt := rfl

theorem Bare.nul (hs : Bare s) : 0 ∉ s := fun h => (hs 0 h).1 rfl
theorem Bare.quote (hs : Bare s) : 34 ∉ s := fun h => (hs 34 h).2.1 rfl
theorem Bare.semicolon (hs : Bare s) : 59 ∉ s := fun h => (hs 59 h).2.2 rfl

/-- What follows the attributes so far does not begin with a quote. -/
theorem headD_attrsText (hs : Bare s) (as : List Attr) : (s ++ attrsText as).headD 0 ≠ 34 := by
  cases s with
  | nil =>
    cases as with
    | nil => decide
    | cons a as =>
      show (59 : UInt8) ≠ 34
      decide
  | cons x s => exact fun h => hs.quote (h ▸ List.mem_cons_self)

theorem attrText_attrs (hs : Bare s) (as : List Attr) : attrText (s ++ attrsText as) = s := by
  cases as with
  | nil => rw [attrsText, List.append_nil, attrText_all hs.semicolon]
  | cons a as => exact attrText_semicolon hs.nul hs.semicolon _

theorem attrAt_bare (hs : Bare s) (as : List Attr) : attrAt (s ++ attrsText as) = s :=
  (if_neg (headD_attrsText hs as)).trans (attrText_attrs hs as)

theorem attrAt_quoted (hs : Bare s) (t : List UInt8) : attrAt (34 :: (s ++ 34 :: t)) = s := by
  refine (if_pos rfl).trans ?_
  rw [List.drop_succ_cons, List.drop_zero, strchr_first hs.nul (by decide) hs.quote]
  exact List.take_left

/-- From inside of quotes a quote or a `;` is read too. -/
theorem attrAt_inside (hs : Bare s) (as : List Attr) : ¬Bare (attrAt (s ++ 34 :: attrsText as)) := by
  cases s with
  | cons x s =>
    have hx : x ≠ 34 := fun h => hs.quote (h ▸ List.mem_cons_self)
    have hno : 59 ∉ (x :: s) ++ [34] := by
      rw [List.mem_append]
      rintro (h | h)
      · exact hs.semicolon h
      · exact absurd (List.mem_singleton.1 h) (by decide)
    have hpre := attrText_prefix (t := attrsText as) hno
    rw [List.append_assoc] at hpre
    have heq : attrAt ((x :: s) ++ 34 :: attrsText as) =
        attrText ((x :: s) ++ ([34] ++ attrsText as)) := if_neg hx
    rw [heq]
    exact fun h => h.quote (hpre.subset (List.mem_append_right _ List.mem_cons_self))
  | nil =>
    have hpre := attrText_prefix (s := [34]) (t := attrsText as) (by decide)
    have hquote : ¬Bare (attrText (34 :: attrsText as)) := fun h =>
      h.quote (hpre.subset List.mem_cons_self)
    have heq : attrAt (34 :: attrsText as) =
        match strchr (attrsText as) 34 with
        | some n => (attrsText as).take n
        | none => attrText (34 :: attrsText as) := if_pos rfl
    rw [List.nil_append, heq]
    cases hq : strchr (attrsText as) 34 with
    | none => exact hquote
    | some m =>
      cases as with
      | nil => cases hq
      | cons a as =>
        -- the next quote is behind the `;`
        cases m with
        | zero =>
          have hm := (List.findIdx?_eq_some_iff_getElem.1 hq).2.1
          exact absurd (of_decide_eq_true hm) (show ¬(59 : UInt8) = 34 by decide)
        | succ m => exact fun h => h.semicolon List.mem_cons_self

/-- What the search gives, and the sign it ends at. -/
inductive Agrees : Option (List UInt8) → Option (Option (List UInt8)) → Prop
  | nothing : Agrees none none
  | text (s : List UInt8) : Agrees (some s) (some (some s))
  | inside (s : List UInt8) (h : ¬Bare s) : Agrees (some s) (some none)

theorem Agrees.eq_iff {x : Option (List UInt8)} {y : Option (Option (List UInt8))}
    (h : Agrees x y) {v : Option (List UInt8)} (hv : ∀ s ∈ v, Bare s) :
    x = v ↔ y = v.map some := by
  cases h with
  | nothing => cases v <;> simp
  | text s => cases v <;> simp
  | inside s hs =>
    cases v with
    | none => simp
    | some t =>
      constructor
      · intro h
        cases h
        exact absurd (hv s rfl) hs
      · intro h
        cases h

/-- What is behind an `=` ends where the text does. -/
theorem equalSigns_suffix {e : List UInt8 × List UInt8} : ∀ (s word : List UInt8),
    e ∈ equalSigns word s → e.2 <:+ s := by
  intro s
  induction s with
  | nil => intro word h; exact absurd h List.not_mem_nil
  | cons c s ih =>
    intro word h
    rw [equalSigns] at h
    split at h
    · rcases List.mem_cons.1 h with rfl | h
      · exact List.suffix_cons c s
      · exact (ih _ h).trans (List.suffix_cons c s)
    · exact (ih _ h).trans (List.suffix_cons c s)

theorem Bare.suffix (hs : Bare s) (h : t <:+ s) : Bare t := fun c hc => hs c (h.subset hc)

/-- The first sign of a list of places. -/
def hitSign (n : List UInt8) (signs : List (List UInt8 × Option (List UInt8))) :
    Option (Option (List UInt8)) :=
  (signs.find? fun e => Hits n e.1).map Prod.snd

/-- The signs of a piece, and then those behind it. -/
theorem Agrees.piece (hs : Bare s) {rest : List UInt8} {x : Option (List UInt8)}
    {signs : List (List UInt8 × Option (List UInt8))} {g : List UInt8 → Option (List UInt8)}
    (hg : ∀ r, Bare r → Agrees (some (attrAt (r ++ rest))) (some (g r)))
    (hx : Agrees (x.map attrAt) (hitSign n signs)) :
    Agrees ((((firstSign n (equalSigns [] s)).map (· ++ rest)).or x).map attrAt)
      (hitSign n ((equalSigns [] s).map (fun e => (e.1, g e.2)) ++ signs)) := by
  unfold firstSign hitSign at *
  rw [List.find?_append, List.find?_map]
  cases he : (equalSigns [] s).find? (fun e => Hits n e.1) with
  | none =>
    have he' : (equalSigns [] s).find? ((fun e => Hits n e.1) ∘ fun e => (e.1, g e.2)) = none := he
    rw [he']
    exact hx
  | some e =>
    have he' : (equalSigns [] s).find? ((fun e => Hits n e.1) ∘ fun e => (e.1, g e.2)) =
        some e := he
    rw [he']
    exact hg _ (hs.suffix (equalSigns_suffix s [] (List.mem_of_find?_eq_some he)))

/-- The attributes begin with a `;`. -/
theorem head_attrsText (as : List Attr) : ∀ c ∈ (attrsText as).head?,
    isNameChar c = false ∧ c ≠ 61 ∧ c ≠ 0 := by
  intro c hc
  cases as with
  | nil => cases hc
  | cons a as =>
    cases hc
    decide

/-- **The attributes.** The search ends at the first sign that has the name. -/
theorem agrees_attrs (hn : AttrName n) : ∀ as : List Attr,
    Agrees ((attrFind n (attrsText as)).map attrAt) (hitSign n (attrSigns as)) := by
  have hskip : ∀ {c : UInt8} (t : List UInt8), isNameChar c = false → c ≠ 61 → c ≠ 0 →
      attrFind n (c :: t) = attrFind n t := by
    intro c t hc h61 h0
    have h := attrFind_sep hn.ne hn.nul h0 (hn.char_not hc) t (w := []) List.not_mem_nil
      List.not_mem_nil
    rwa [if_neg (fun h => h61 h.2)] at h
  intro as
  induction as with
  | nil =>
    rw [attrsText, attrFind_end List.not_mem_nil]
    exact .nothing
  | cons a as ih =>
    have hname : 0 ∉ a.name ∧ 61 ∉ a.name := ⟨a.name_ok.nul, a.name_ok.char_not rfl⟩
    rw [attrsText, hskip _ rfl (by decide) (by decide), hskip _ rfl (by decide) (by decide),
      attrFind_sep hn.ne hn.nul (by decide) (hn.char_not rfl) _ hname.1 hname.2, attrSigns, hitSign,
      List.find?_cons]
    by_cases hit : Hits n a.name = true
    · -- the `=` of this attribute
      rw [if_pos ⟨hit, rfl⟩, hit]
      have hread : attrAt (a.written ++ attrsText as) = a.value := by
        unfold Attr.written
        split
        · rw [List.cons_append, List.append_assoc]
          exact attrAt_quoted a.value_ok _
        · exact attrAt_bare a.value_ok as
      rw [Option.map_some, hread]
      exact .text _
    · -- an `=` of its value, or of what follows
      rw [if_neg (fun h => hit h.1), Bool.eq_false_iff.2 hit]
      have hz := a.value_ok.nul
      unfold Attr.written
      cases a.quoted with
      | true =>
        have hquote : ∀ c ∈ (34 :: attrsText as).head?, isNameChar c = false ∧ c ≠ 61 ∧ c ≠ 0 := by
          intro c hc
          cases hc
          decide
        have hpiece := attrFind_piece hn hquote a.value [] hz fun _ h => (List.not_mem_nil h).elim
        have htext : 34 :: (a.value ++ [34]) ++ attrsText as =
            34 :: ([] ++ (a.value ++ 34 :: attrsText as)) := by simp
        rw [if_pos rfl, htext, hskip _ rfl (by decide) (by decide), hpiece,
          hskip (attrsText as) rfl (by decide) (by decide)]
        exact Agrees.piece a.value_ok (fun r hr => .inside _ (attrAt_inside hr as)) ih
      | false =>
        have hpiece := attrFind_piece hn (head_attrsText as) a.value [] hz fun _ h => (List.not_mem_nil h).elim
        rw [List.nil_append] at hpiece
        rw [if_neg Bool.false_ne_true, hpiece]
        refine Agrees.piece a.value_ok (fun r hr => ?_) ih
        rw [attrAt_bare hr]
        exact .text r

theorem agrees_text (hn : AttrName n) (h : AttrHeader) :
    Agrees ((attrFind n h.text).map attrAt) (hitSign n h.signs) := by
  have hpiece := attrFind_piece hn (head_attrsText h.attrs) h.token [] h.token_ok.nul
    fun _ h => (List.not_mem_nil h).elim
  rw [List.nil_append] at hpiece
  rw [AttrHeader.text, hpiece]
  refine Agrees.piece h.token_ok (fun r hr => ?_) (agrees_attrs hn h.attrs)
  rw [attrAt_bare hr]
  exact .text r

/-! ## The attributes of a header -/

theorem AttrHeader.value_bare (h : AttrHeader) (n : List UInt8) : ∀ s ∈ h.value n, Bare s := by
  intro s hs
  obtain ⟨a, -, rfl⟩ := Option.map_eq_some_iff.1 hs
  exact a.value_ok

theorem AttrHeader.value_none {h : AttrHeader} (hn : ∀ a ∈ h.attrs, a.name ≠ n) :
    h.value n = none := by
  rw [AttrHeader.value, Option.map_eq_none_iff, List.find?_eq_none]
  exact fun a ha he => hn a ha (of_decide_eq_true he)

/-- The names are different, so each has its own value. -/
theorem AttrHeader.value_mem {h : AttrHeader} {a : Attr} (ha : a ∈ h.attrs) :
    h.value a.name = some a.value := by
  have hfound : h.attrs.find? (fun b => b.name = a.name) ≠ none := fun hnone =>
    List.find?_eq_none.1 hnone a ha (decide_eq_true rfl)
  obtain ⟨b, hb⟩ := Option.ne_none_iff_exists'.1 hfound
  have hname : b.name = a.name := by
    have hdec := List.find?_some hb
    exact of_decide_eq_true hdec
  have hba : b = a := List.inj_on_of_nodup_map h.names (List.mem_of_find?_eq_some hb) ha hname
  rw [AttrHeader.value, hb, Option.map_some, hba]

/-- **What `headers_get_header_attr` finds.** The token always, and an attribute exactly when the
first `=` with its name before it has its value behind it. -/
theorem headerAttr_iff (h : AttrHeader) (key : List UInt8) :
    headersGetHeaderAttr ⟨key, h.text⟩ none = some h.token ∧
      (∀ a ∈ h.attrs, headersGetHeaderAttr ⟨key, h.text⟩ (some a.name) = some a.value ↔
        h.FirstHit a.name) ∧
      ∀ n, AttrName n → (∀ a ∈ h.attrs, a.name ≠ n) →
        (headersGetHeaderAttr ⟨key, h.text⟩ (some n) = none ↔ h.FirstHit n) := by
  have hiff : ∀ n, AttrName n →
      (headersGetHeaderAttr ⟨key, h.text⟩ (some n) = h.value n ↔ h.FirstHit n) := by
    intro n hn
    rw [headersGetHeaderAttr_eq]
    exact (agrees_text hn h).eq_iff (h.value_bare n)
  refine ⟨congrArg some (attrText_attrs h.token_ok h.attrs), ?_, ?_⟩
  · intro a ha
    rw [← AttrHeader.value_mem ha]
    exact hiff a.name a.name_ok
  · intro n hn hno
    rw [← AttrHeader.value_none hno]
    exact hiff n hn

/-- The name of an attribute that ends in the name of another. -/
theorem headerAttr_suffix : ∃ h : AttrHeader, ∃ a ∈ h.attrs,
    h.text = ascii "form-data; filename=x; name=y" ∧ a.name = ascii "name" ∧
      a.value = ascii "y" ∧
      headersGetHeaderAttr ⟨ascii "Content-Disposition", h.text⟩ (some a.name) =
        some (ascii "x") := by
  have hname : ∀ n ∈ [ascii "filename", ascii "name"], AttrName n := by
    intro n hn
    have hchar : n ≠ [] ∧ ∀ c ∈ n, isNameChar c = true := by
      revert n
      decide +kernel
    exact ⟨hchar.1, hchar.2⟩
  let file : Attr := ⟨ascii "filename", ascii "x", false, hname _ List.mem_cons_self,
    by decide +kernel⟩
  let name : Attr := ⟨ascii "name", ascii "y", false,
    hname _ (List.mem_cons_of_mem _ List.mem_cons_self), by decide +kernel⟩
  have hnodup : [ascii "filename", ascii "name"].Nodup := by decide
  let h : AttrHeader := ⟨ascii "form-data", [file, name], by decide +kernel, hnodup⟩
  have htext : h.text = ascii "form-data; filename=x; name=y" := by
    show ascii "form-data" ++ 59 :: 32 :: (ascii "filename" ++ 61 :: (ascii "x" ++
      59 :: 32 :: (ascii "name" ++ 61 :: (ascii "y" ++ [])))) = _
    decide
  refine ⟨h, name, List.mem_cons_of_mem _ List.mem_cons_self, htext, rfl, rfl, ?_⟩
  exact (congrArg (fun t => headersGetHeaderAttr ⟨ascii "Content-Disposition", t⟩
    (some (ascii "name"))) htext).trans (by decide)

end Zimr
