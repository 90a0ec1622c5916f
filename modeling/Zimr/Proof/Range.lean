import Zimr.Proof.Page

/-!
# Ranges

How the three forms of a range are read (`rangeParse_both`, `rangeParse_onwards`,
`rangeParse_last`), and what follows from it: the end is taken for the byte after the last one,
but announced as the last one, and the number of a suffix is taken for an end.

* `range_never_served` — no range is served as it asks
-/

namespace Zimr

variable {a b s t : List UInt8} {h : Header}

/-! ## The digits -/

/-- A digit is a digit, and it is none of the characters that end or lead a number. -/
theorem digit_facts {c : UInt8} (h : 48 ≤ c ∧ c ≤ 57) :
    digitVal c < 10 ∧ isspace c = false ∧ c ≠ 45 ∧ c ≠ 43 ∧ c ≠ 59 ∧ c ≠ 34 ∧ c ≠ 0 := by
  have hall : ∀ n : Fin 256, 48 ≤ UInt8.ofNat n ∧ UInt8.ofNat n ≤ 57 →
      digitVal (UInt8.ofNat n) < 10 ∧ isspace (UInt8.ofNat n) = false ∧ UInt8.ofNat n ≠ 45 ∧
        UInt8.ofNat n ≠ 43 ∧ UInt8.ofNat n ≠ 59 ∧ UInt8.ofNat n ≠ 34 ∧ UInt8.ofNat n ≠ 0 := by
    decide +kernel
  have := hall ⟨c.toNat, c.toNat_lt⟩
  simp only [UInt8.ofNat_toNat] at this
  exact this h

/-- What `strtol` and `atoi` see of a number: no space, no sign, its digits. -/
theorem decimal_read (ha : Decimal a) (ht : ∀ c, t.head? = some c → ¬digitVal c < 10) :
    (a ++ t).dropWhile isspace = a ++ t ∧ startswith (a ++ t) (ascii "-") = false ∧
      startswith (a ++ t) (ascii "+") = false ∧ digits 10 (a ++ t) = a := by
  obtain ⟨c, cs, rfl⟩ := List.exists_cons_of_ne_nil ha.ne
  obtain ⟨-, hsp, hm, hp, -, -, -⟩ := digit_facts (ha.digits c List.mem_cons_self)
  refine ⟨?_, ?_, ?_, ?_⟩
  · rw [List.cons_append, List.dropWhile_cons_of_neg (by rw [hsp]; exact Bool.false_ne_true)]
  · show ((45 : UInt8) == c && _) = false
    rw [beq_eq_false_iff_ne.2 (Ne.symm hm), Bool.false_and]
  · show ((43 : UInt8) == c && _) = false
    rw [beq_eq_false_iff_ne.2 (Ne.symm hp), Bool.false_and]
  · unfold digits
    rw [List.takeWhile_append_of_pos fun x hx => by simpa using (digit_facts (ha.digits x hx)).1]
    cases t with
    | nil => rw [List.takeWhile_nil, List.append_nil]
    | cons x xs =>
      rw [List.takeWhile_cons_of_neg (by simpa using ht x rfl), List.append_nil]

/-- `strtol` of a number that is not too large. -/
theorem strtol_decimal (ha : Decimal a) (hsmall : numOf 10 a < 2147483648)
    (ht : ∀ c, t.head? = some c → ¬digitVal c < 10) :
    strtol (a ++ t) = ((numOf 10 a : ℤ), t) := by
  obtain ⟨hdrop, hminus, hplus, hdigits⟩ := decimal_read ha ht
  unfold strtol
  simp only [hdrop, hminus, hplus, Bool.false_eq_true, if_false, Bool.or_self, hdigits]
  rw [if_neg ha.ne, List.drop_left' rfl, min_eq_left]
  unfold longMax
  omega

/-- `atoi` of a number. -/
theorem atoi_decimal (ha : Decimal a) : atoi a = (numOf 10 a : ℤ) := by
  have hread := decimal_read (t := []) ha fun c hc => by cases hc
  rw [List.append_nil] at hread
  obtain ⟨hdrop, hminus, hplus, hdigits⟩ := hread
  unfold atoi
  simp only [hdrop, hminus, hplus, Bool.false_eq_true, if_false, Bool.or_self, hdigits]

/-- `bytes=` is taken off. -/
theorem bytesAttr (hv : h.value = ascii "bytes=" ++ s) (hs : ∀ c ∈ s, (48 ≤ c ∧ c ≤ 57) ∨ c = 45) :
    headersGetHeaderAttr h (some (ascii "bytes")) = some s := by
  have hfree : ∀ c ∈ s, c ≠ 59 ∧ c ≠ 34 ∧ c ≠ 0 := by
    intro c hc
    rcases hs c hc with hd | rfl
    · exact ⟨(digit_facts hd).2.2.2.2.1, (digit_facts hd).2.2.2.2.2⟩
    · decide
  have hfind : strstr h.value (ascii "bytes") = some 0 := by
    rw [hv]
    rfl
  have hhead : attrHead (ascii "bytes") (h.value.length + 1) h.value = some s := by
    rw [attrHead, hfind, hv]
    rfl
  have htext : attrText s = s := by
    unfold attrText
    have hnone : strchr s 59 = none := by
      unfold strchr
      rw [List.findIdx?_eq_none_iff]
      intro c hc
      simpa using (hfree c ((List.takeWhile_prefix _).subset hc)).1
    rw [hnone, Option.getD_none, List.take_length]
  have hquote : s.headD 0 ≠ 34 := by
    cases s with
    | nil => decide
    | cons c cs => exact (hfree c List.mem_cons_self).2.1
  unfold headersGetHeaderAttr
  simp only [hhead, Option.map_some]
  rw [if_neg hquote, htext]

/-- Where the `-` is. -/
theorem strchr_minus (ha : ∀ c ∈ a, 48 ≤ c ∧ c ≤ 57) : strchr (a ++ 45 :: t) 45 = some a.length := by
  have hz : ∀ c ∈ a, c ≠ 45 ∧ c ≠ 0 := fun c hc =>
    ⟨(digit_facts (ha c hc)).2.2.1, (digit_facts (ha c hc)).2.2.2.2.2.2⟩
  unfold strchr cstr
  rw [List.takeWhile_append_of_pos fun c hc => by simpa using (hz c hc).2,
    List.takeWhile_cons_of_pos (by decide), List.findIdx?_append,
    List.findIdx?_eq_none_iff.2 fun c hc => by simpa using (hz c hc).1]
  simp only [List.findIdx?_cons, decide_true, if_true, Option.none_or, Option.map_some, Nat.zero_add]

/-- From one byte to another. -/
theorem rangeParse_both (hv : h.value = ascii "bytes=" ++ (a ++ 45 :: b)) (ha : Decimal a)
    (hb : Decimal b) (hab : numOf 10 a ≤ numOf 10 b) (hsmall : numOf 10 b < 2147483648) :
    headersHeaderRangeParse h = ((numOf 10 a : ℤ), (numOf 10 b : ℤ)) := by
  have hattr := bytesAttr hv fun c hc => by
    rcases List.mem_append.1 hc with hc | hc
    · exact Or.inl (ha.digits c hc)
    · rcases List.mem_cons.1 hc with hc | hc
      · exact Or.inr hc
      · exact Or.inl (hb.digits c hc)
  have hlen : a.length ≠ 0 := fun h => ha.ne (List.length_eq_zero_iff.1 h)
  have hstart := strtol_decimal (t := 45 :: b) ha (by omega) fun c hc => by
    cases hc
    decide
  have hstop := strtol_decimal (t := []) hb hsmall fun c hc => by cases hc
  rw [List.append_nil] at hstop
  have hne : b.headD 0 ≠ 0 := by
    obtain ⟨c, cs, rfl⟩ := List.exists_cons_of_ne_nil hb.ne
    exact (digit_facts (hb.digits c List.mem_cons_self)).2.2.2.2.2.2
  unfold headersHeaderRangeParse
  simp only [hattr, strchr_minus ha.digits, ne_eq, hlen, not_false_eq_true, if_true, hstart,
    List.drop_succ_cons, List.drop_zero, hne, hstop]
  rw [intOf_small (by omega) (by omega), intOf_small (by omega) (by omega)]

/-- From one byte on. -/
theorem rangeParse_onwards (hv : h.value = ascii "bytes=" ++ (a ++ [45])) (ha : Decimal a)
    (hsmall : numOf 10 a < 2147483648) :
    headersHeaderRangeParse h = ((numOf 10 a : ℤ), -1) := by
  have hattr := bytesAttr hv fun c hc => by
    rcases List.mem_append.1 hc with hc | hc
    · exact Or.inl (ha.digits c hc)
    · exact Or.inr (List.mem_singleton.1 hc)
  have hlen : a.length ≠ 0 := fun h => ha.ne (List.length_eq_zero_iff.1 h)
  have hstart := strtol_decimal (t := [45]) ha hsmall fun c hc => by
    cases hc
    decide
  unfold headersHeaderRangeParse
  simp only [hattr, strchr_minus ha.digits, ne_eq, hlen, not_false_eq_true, if_true, hstart,
    List.drop_succ_cons, List.drop_nil, List.headD_nil, not_true_eq_false, if_false]
  rw [intOf_small (by omega) (by omega)]

/-- The last ones: the number is read as an end. -/
theorem rangeParse_last (hv : h.value = ascii "bytes=" ++ 45 :: b) (hb : Decimal b)
    (hsmall : numOf 10 b < 2147483648) :
    headersHeaderRangeParse h = (0, (numOf 10 b : ℤ)) := by
  have hattr := bytesAttr hv fun c hc => by
    rcases List.mem_cons.1 hc with hc | hc
    · exact Or.inr hc
    · exact Or.inl (hb.digits c hc)
  have hpos := strchr_minus (a := []) (t := b) fun c hc => by cases hc
  have hstop := strtol_decimal (t := []) hb hsmall fun c hc => by cases hc
  rw [List.append_nil] at hstop
  rw [List.nil_append] at hpos
  have hne : b.headD 0 ≠ 0 := by
    obtain ⟨c, cs, rfl⟩ := List.exists_cons_of_ne_nil hb.ne
    exact (digit_facts (hb.digits c List.mem_cons_self)).2.2.2.2.2.2
  unfold headersHeaderRangeParse
  simp only [hattr, hpos, List.length_nil, ne_eq, not_true_eq_false, if_false, List.drop_succ_cons,
    List.drop_zero, hne, not_false_eq_true, if_true, hstop]
  rw [intOf_small (by omega) (by omega), intOf_small (by omega) (by omega)]

/-! ## What is served -/

/-- The bytes `s` to `e` are announced and sent. -/
structure RangeServed (content : List UInt8) (s e : ℕ) (reply : Reply) (read : Option FileRead) :
    Prop where
  status : reply.httpStatus = 206
  range : (headersGetHeader reply.headers (ascii "Content-Range")).map (·.value) =
    some (ascii "bytes " ++ decText s ++ ascii "-" ++ decText e ++ ascii "/" ++
      decText content.length)
  length : (headersGetHeader reply.headers (ascii "Content-Length")).map (·.value) =
    some (decText (e - s + 1))
  body : ∃ f, read = some f ∧ ∀ msgid calls sent, Pumps msgid f calls →
    pumpFile msgid f calls = .ok (sent, true) → sent = (content.drop s).take (e - s + 1)

variable {env : ServeEnv} {reply reply' : Reply} {ignored : List UInt8 → Bool} {file : PageFile}
  {writes : List (List UInt8)} {read : Option FileRead}

/-- What the headers say when the range is taken: its two numbers, and their difference. -/
theorem page_ranged (lo hi : ℕ) {tmpEnd : ℤ} (hS : file.content.length < 2147483648)
    (h : zimrDefaultPageHandler env reply ignored (.file file true) = .ok (reply', writes, read))
    {range : Header} (hr : headersGetHeader env.request (ascii "Range") = some range)
    (hp : headersHeaderRangeParse range = ((lo : ℤ), tmpEnd))
    (hend : (if tmpEnd = -1 then (file.content.length : ℤ) else tmpEnd) = hi)
    (hlo : lo ≤ hi) (hhi : hi ≤ file.content.length) (hst : reply'.httpStatus = 206) :
    (headersGetHeader reply'.headers (ascii "Content-Range")).map (·.value) =
        some (ascii "bytes " ++ decText lo ++ ascii "-" ++ decText hi ++ ascii "/" ++
          decText file.content.length) ∧
      (headersGetHeader reply'.headers (ascii "Content-Length")).map (·.value) =
        some (decText (hi - lo)) := by
  obtain ⟨-, -, hcode, -, hset, -⟩ := page_spec h
  obtain ⟨-, hnone, hsome⟩ := pageAnswer_read env.request reply file
  have htaken : rangeTaken env.request (intOf file.content.length) = some ((lo : ℤ), (hi : ℤ)) := by
    rw [intOf_small (by omega) (by omega)]
    unfold rangeTaken
    rw [hr]
    simp only [Option.bind_some, hp, hend]
    exact if_pos ⟨by omega, by omega, by omega⟩
  have hsub : ((hi : ℤ) - (lo : ℤ)) = ((hi - lo : ℕ) : ℤ) := by omega
  cases hread : (pageAnswer env.request reply file).read with
  | none =>
    -- the answer would be 304
    have h304 : (304 : ℕ) = 206 := ((hcode.trans (hnone hread).1).symm).trans hst
    omega
  | some f =>
    obtain ⟨-, -, hpart, -, hranges, hlength⟩ := hsome f hread
    have hf : (f.rangeStart, f.rangeEnd) = ((lo : ℤ), (hi : ℤ)) := by
      rw [hpart, filePart, htaken]
      rfl
    obtain ⟨hstart, hstop⟩ := Prod.mk.inj hf
    rw [htaken] at hranges
    rw [hstart, hstop, hsub] at hlength
    refine ⟨?_, ?_⟩
    · rw [hset _ (hranges _ List.mem_cons_self), intOf_small (by omega) (by omega)]
      simp only [Option.map_some, intText_nat]
    · rw [hset _ hlength]
      simp only [Option.map_some, intText_nat]

/-- Where the digits end is where they end. -/
theorem digits_split {x y : List UInt8} (hx : ∀ c ∈ x, 48 ≤ c ∧ c ≤ 57)
    (hy : ∀ c ∈ y, 48 ≤ c ∧ c ≤ 57) (h : x ++ 45 :: s = y ++ 45 :: t) : x = y ∧ s = t := by
  have htake : ∀ z u : List UInt8, (∀ c ∈ z, 48 ≤ c ∧ c ≤ 57) →
      (z ++ 45 :: u).takeWhile (· ≠ 45) = z := by
    intro z u hz
    rw [List.takeWhile_append_of_pos fun c hc => by simpa using (digit_facts (hz c hc)).2.2.1,
      List.takeWhile_cons_of_neg (by decide), List.append_nil]
  have hxy : x = y := by rw [← htake x s hx, h, htake y t hy]
  subst hxy
  have := List.append_cancel_left h
  cases this
  exact ⟨rfl, rfl⟩

/-- The two numbers can be read off the header. -/
theorem contentRange_inj {s₁ e₁ s₂ e₂ size : ℕ}
    (h : ascii "bytes " ++ decText s₁ ++ ascii "-" ++ decText e₁ ++ ascii "/" ++ decText size =
      ascii "bytes " ++ decText s₂ ++ ascii "-" ++ decText e₂ ++ ascii "/" ++ decText size) :
    s₁ = s₂ ∧ e₁ = e₂ := by
  have h' := List.append_cancel_right h
  have h'' := List.append_cancel_right h'
  simp only [List.append_assoc] at h''
  have hcut : decText s₁ ++ 45 :: decText e₁ = decText s₂ ++ 45 :: decText e₂ :=
    List.append_cancel_left h''
  obtain ⟨h₁, h₂⟩ := digits_split (decText_digits s₁) (decText_digits s₂) hcut
  exact ⟨decText_inj h₁, decText_inj h₂⟩

/-- **No range is served as it asks.** From one byte to another the length is one too small, from
one byte on the end is announced one too large, and of the last bytes the first ones are sent. -/
theorem range_never_served (env : ServeEnv) (reply : Reply) (ignored : List UInt8 → Bool)
    (file : PageFile) (hpos : 0 < file.content.length) (hS : file.content.length < 2147483648)
    (range : Header) (hr : headersGetHeader env.request (ascii "Range") = some range) (s e : ℕ)
    (hrange : RangeText file.content.length range.value s e) :
    ¬∃ reply' writes read, zimrDefaultPageHandler env reply ignored (.file file true) =
      .ok (reply', writes, read) ∧ RangeServed file.content s e reply' read := by
  rintro ⟨reply', writes, read, h, hserved⟩
  generalize hv : range.value = v at hrange
  cases hrange with
  | @both a b ha hb hab hlt =>
    have hp := rangeParse_both hv ha hb hab (by omega)
    obtain ⟨-, hlen⟩ := page_ranged _ _ hS h hr hp (if_neg (by omega)) hab (by omega) hserved.status
    rw [hserved.length, Option.some.injEq] at hlen
    have := decText_inj hlen
    omega
  | @onwards a ha hlt =>
    have hp := rangeParse_onwards hv ha (by omega)
    obtain ⟨hcr, -⟩ := page_ranged _ _ hS h hr hp (if_pos rfl) (by omega) (Nat.le_refl _)
      hserved.status
    rw [hserved.range, Option.some.injEq] at hcr
    have := (contentRange_inj hcr).2
    omega
  | @last n hn hn0 hle =>
    have hp := rangeParse_last hv hn (by omega)
    obtain ⟨hcr, -⟩ := page_ranged 0 _ hS h hr hp (if_neg (by omega)) (Nat.zero_le _) hle
      hserved.status
    rw [hserved.range, Option.some.injEq] at hcr
    have := contentRange_inj hcr
    omega

/-- The range of a request. -/
def asksFor (range : String) : ServeEnv :=
  { smallEnv with request := [⟨ascii "Range", ascii range⟩] }

theorem range_never_served_one : ¬∃ reply' writes read,
    zimrDefaultPageHandler (asksFor "bytes=0-1") (freshReply (ascii "1.1")) (fun _ => false)
      (.file smallFile true) = .ok (reply', writes, read) ∧
      RangeServed (ascii "abc") 0 1 reply' read :=
  range_never_served (asksFor "bytes=0-1") (freshReply (ascii "1.1")) (fun _ => false) smallFile
    (by decide) (by decide) _ rfl 0 1
    (RangeText.both (a := ascii "0") (b := ascii "1") ⟨by decide +kernel, by decide⟩
      ⟨by decide +kernel, by decide⟩ (by decide) (by decide))

/-- The last two bytes of three are asked for; the first two are announced. -/
theorem range_wrong : ¬∀ (env : ServeEnv) (reply : Reply) (ignored : List UInt8 → Bool)
    (file : PageFile), 0 < file.content.length → file.content.length < 2147483648 →
    ∀ range : Header, headersGetHeader env.request (ascii "Range") = some range → ∀ s e,
    RangeText file.content.length range.value s e →
    ∃ reply' writes read, zimrDefaultPageHandler env reply ignored (.file file true) =
      .ok (reply', writes, read) ∧ RangeServed file.content s e reply' read := by
  intro hall
  obtain ⟨reply', writes, read, h, hserved⟩ := hall (asksFor "bytes=-2") (freshReply (ascii "1.1"))
    (fun _ => false) smallFile (by decide) (by decide) _ rfl 1 2
    (RangeText.last (n := ascii "2") ⟨by decide +kernel, by decide⟩ (by decide)
      (by decide))
  have hgot : (zimrDefaultPageHandler (asksFor "bytes=-2") (freshReply (ascii "1.1"))
      (fun _ => false) (.file smallFile true)).toOption.map
        (fun s => (headersGetHeader s.1.headers (ascii "Content-Range")).map (·.value)) =
      some (some (ascii "bytes 0-2/3")) := by decide +kernel
  rw [h] at hgot
  have hsaid := hserved.range
  simp only [Except.toOption, Option.map_some, Option.some.injEq] at hgot
  rw [hgot] at hsaid
  revert hsaid
  decide

end Zimr
