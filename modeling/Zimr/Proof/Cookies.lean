import Zimr.Lib.Run
import Zimr.Lib.Table
import Zimr.Proof.HeaderMap
import Zimr.Spec.Cookies

/-!
# Cookies

* `cookies_parse_pairs` — a `Cookie` header is read pair by pair, and never more pairs than the
  table holds
* `cookie_read_back` — when a cookie that is set can be read, and that deleting does not fail
* `tables_stay` — which calls stay in the tables of the cookies and of the headers
-/

namespace Zimr

open Run

variable {cs cs' : Cookies} {n name : List UInt8} {now : ℤ} {args : SetCookie}

/-! ## Reading -/

/-- A cookie as a client sends it. -/
structure CookiePair where
  name : List UInt8
  value : List UInt8
  name_ne : name ≠ []
  name_short : name.length < cookieNameMaxLen
  name_char : ∀ c ∈ name, c ≠ 0 ∧ c ≠ 61
  value_short : value.length < cookieValueMaxLen
  value_nul : 0 ∉ value
  value_sep : ¬[59, 32] <:+: value

def CookiePair.text (p : CookiePair) : List UInt8 := p.name ++ 61 :: p.value

/-- What the table holds of it. It is not marked updated. -/
def CookiePair.cookie (p : CookiePair) : Cookie := { name := p.name, value := p.value }

/-- The pairs joined by `; `. -/
def cookiesText : List CookiePair → List UInt8
  | [] => []
  | [p] => p.text
  | p :: q :: ps => p.text ++ 59 :: 32 :: cookiesText (q :: ps)

/-- The value ends at the separator behind it. -/
theorem strstr_separator (p : CookiePair) (t : List UInt8) :
    strstr (p.value ++ 59 :: 32 :: t) [59, 32] = some p.value.length := by
  have hself : strstr (59 :: 32 :: t) [59, 32] = some 0 := strstr_self (by decide) t
  rw [strstr_skip p.value_nul, hself, Option.map_some, Nat.zero_add]
  intro i hi hpre
  rw [List.drop_append_of_le_length (Nat.le_of_lt hi)] at hpre
  cases hv : p.value.drop i with
  | nil =>
    have hlen := congrArg List.length hv
    rw [List.length_drop, List.length_nil] at hlen
    omega
  | cons x v =>
    rw [hv, List.cons_append, List.cons_prefix_cons] at hpre
    cases v with
    | nil => exact absurd (List.cons_prefix_cons.1 hpre.2).1 (by decide)
    | cons y v =>
      -- both characters are of the value
      apply p.value_sep
      refine List.IsInfix.trans ?_ (List.drop_suffix i p.value).isInfix
      rw [hv, hpre.1.symm, ← (List.cons_prefix_cons.1 hpre.2).1]
      exact ⟨[], v, rfl⟩

theorem strstr_last (p : CookiePair) : strstr p.value [59, 32] = none := by
  cases hs : strstr p.value [59, 32] with
  | none => rfl
  | some i =>
    have hpre := (strnstr_spec hs).2.1
    exact absurd (hpre.isInfix.trans (List.drop_suffix i p.value).isInfix) p.value_sep

/-- One pair. -/
theorem cookiesParseLoop_pair (p : CookiePair) (left : ℕ) (cs : Cookies) {tail : List UInt8}
    (ht : tail = [] ∨ ∃ t, tail = 59 :: 32 :: t) :
    cookiesParseLoop (left + 1) cs (p.text ++ tail) =
      cookiesParseLoop left (cs ++ [p.cookie]) (tail.drop 2) := by
  obtain ⟨c, k, hk⟩ := List.exists_cons_of_ne_nil p.name_ne
  have hlen : k.length + 1 = p.name.length := by rw [hk]; rfl
  have hraw : p.text ++ tail = p.name ++ 61 :: (p.value ++ tail) := by
    rw [CookiePair.text, List.append_assoc, List.cons_append]
  have hhead : (p.text ++ tail).headD 0 ≠ 0 := by
    rw [hraw, hk]
    exact (p.name_char c (hk ▸ List.mem_cons_self)).1
  have hequal : strstr (p.text ++ tail) [61] = some (k.length + 1) := by
    rw [hraw, hlen]
    exact strstr_char (f := []) (fun h => (p.name_char _ h).1 rfl) (by decide)
      (fun h => (p.name_char _ h).2 rfl) _
  have hname : (p.text ++ tail).take (min (k.length + 1) (cookieNameMaxLen - 1)) = p.name := by
    have hshort := p.name_short
    rw [hraw, hlen, Nat.min_eq_left (by omega), List.take_left]
  have hrest : (p.text ++ tail).drop (k.length + 2) = p.value ++ tail := by
    have hk2 : k.length + 2 = (p.name ++ [61]).length := by
      rw [List.length_append, ← hlen]
      rfl
    have happ : p.name ++ 61 :: (p.value ++ tail) = (p.name ++ [61]) ++ (p.value ++ tail) := by
      rw [List.append_assoc]
      rfl
    rw [hraw, hk2, happ, List.drop_left]
  have hptr : (strstr (p.value ++ tail) [59, 32]).getD (cstr (p.value ++ tail)).length =
      p.value.length := by
    rcases ht with rfl | ⟨t, rfl⟩
    · rw [List.append_nil, strstr_last, cstr_eq_self fun c hc h => p.value_nul (h ▸ hc)]
      rfl
    · rw [strstr_separator]
      rfl
  have hvalue : (p.value ++ tail).take (min p.value.length (cookieValueMaxLen - 1)) = p.value := by
    have hshort := p.value_short
    rw [Nat.min_eq_left (by omega), List.take_left]
  have hnext : (if tail.headD 0 = 59 then tail.drop 2 else tail) = tail.drop 2 := by
    rcases ht with rfl | ⟨t, rfl⟩ <;> rfl
  rw [cookiesParseLoop, if_neg hhead, hequal]
  simp only [hname, hrest, hptr, hvalue, List.drop_left, hnext]
  rfl

theorem cookiesParseLoop_pairs : ∀ (ps : List CookiePair) (left : ℕ) (cs : Cookies),
    ps.length ≤ left → cookiesParseLoop left cs (cookiesText ps) = cs ++ ps.map CookiePair.cookie := by
  intro ps
  induction ps with
  | nil =>
    intro left cs _
    rw [List.map_nil, List.append_nil]
    cases left <;> rfl
  | cons p ps ih =>
    intro left cs hlen
    obtain ⟨left, rfl⟩ : ∃ k, left = k + 1 := ⟨left - 1, by rw [List.length_cons] at hlen; omega⟩
    have hlen : ps.length ≤ left := Nat.le_of_succ_le_succ hlen
    have htext : ∃ tail, cookiesText (p :: ps) = p.text ++ tail ∧
        (tail = [] ∨ ∃ t, tail = 59 :: 32 :: t) ∧ tail.drop 2 = cookiesText ps := by
      cases ps with
      | nil => exact ⟨[], (List.append_nil _).symm, Or.inl rfl, rfl⟩
      | cons q ps => exact ⟨_, rfl, Or.inr ⟨_, rfl⟩, rfl⟩
    obtain ⟨tail, htext, ht, hdrop⟩ := htext
    rw [htext, cookiesParseLoop_pair p left cs ht, hdrop, ih left _ hlen, List.map_cons,
      List.append_assoc]
    rfl

theorem cookiesParseLoop_length : ∀ (left : ℕ) (cs : Cookies) (raw : List UInt8),
    (cookiesParseLoop left cs raw).length ≤ cs.length + left := by
  intro left
  induction left with
  | zero => intro cs raw; exact Nat.le_refl _
  | succ left ih =>
    intro cs raw
    rw [cookiesParseLoop]
    split
    · omega
    · split
      · omega
      · omega
      · refine Nat.le_trans (ih _ _) ?_
        rw [List.length_append, List.length_singleton]
        omega

theorem cookiesParse_length (raw : List UInt8) : (cookiesParse raw).length ≤ headersMaxNum := by
  have h := cookiesParseLoop_length headersMaxNum [] raw
  rwa [List.length_nil, Nat.zero_add] at h

/-- **A `Cookie` header is read pair by pair**, and no text overfills the table. -/
theorem cookies_parse_pairs :
    (∀ ps : List CookiePair, ps.length ≤ headersMaxNum →
      cookiesParse (cookiesText ps) = ps.map CookiePair.cookie) ∧
      ∀ raw, (cookiesParse raw).length ≤ headersMaxNum :=
  ⟨fun ps h => cookiesParseLoop_pairs ps headersMaxNum [] h, cookiesParse_length⟩

/-! ## Setting -/

/-- What every condition but the last leaves as it is, and what it does not take away. -/
structure Cookie.Keeps (c d : Cookie) : Prop where
  name : d.name = c.name
  expires : d.expires = c.expires
  updated : c.updated = true → d.updated = true

theorem Cookie.Keeps.trans {c d e : Cookie} (h : c.Keeps d) (h' : d.Keeps e) : c.Keeps e where
  name := h'.name.trans h.name
  expires := h'.expires.trans h.expires
  updated := fun hc => h'.updated (h.updated hc)

theorem Cookie.Keeps.refl (c : Cookie) : c.Keeps c := ⟨rfl, rfl, id⟩

theorem Cookie.keeps_setValue (c : Cookie) (v : Option (List UInt8)) : c.Keeps (c.setValue v) := by
  cases v with
  | none => exact .refl c
  | some v =>
    rw [setValue]
    split
    · exact .refl c
    · exact ⟨rfl, rfl, fun _ => rfl⟩

theorem Cookie.keeps_setMaxAge (c : Cookie) (n : ℤ) : c.Keeps (c.setMaxAge n) := by
  unfold setMaxAge
  split
  · exact ⟨rfl, rfl, fun _ => rfl⟩
  · exact .refl c

theorem Cookie.keeps_setDomain (c : Cookie) (v : Option (List UInt8)) :
    c.Keeps (c.setDomain v) := by
  cases v with
  | none => exact .refl c
  | some v =>
    rw [setDomain]
    split
    · exact .refl c
    · exact ⟨rfl, rfl, fun _ => rfl⟩

theorem Cookie.keeps_setPath (c : Cookie) (v : Option (List UInt8)) : c.Keeps (c.setPath v) := by
  cases v with
  | none => exact .refl c
  | some v =>
    rw [setPath]
    split
    · exact .refl c
    · exact ⟨rfl, rfl, fun _ => rfl⟩

theorem Cookie.keeps_setHttpOnly (c : Cookie) (b : Bool) : c.Keeps (c.setHttpOnly b) := by
  unfold setHttpOnly
  split
  · exact ⟨rfl, rfl, fun _ => rfl⟩
  · exact .refl c

theorem Cookie.keeps_setSecure (c : Cookie) (b : Bool) : c.Keeps (c.setSecure b) := by
  unfold setSecure
  split
  · exact ⟨rfl, rfl, fun _ => rfl⟩
  · exact .refl c

/-- The value stays what the first condition has made it. -/
theorem Cookie.value_set (now : ℤ) (args : SetCookie) (c : Cookie) :
    (c.set now args).value = (c.setValue args.value).value := by
  have hmaxAge : ∀ (c : Cookie) n, (c.setMaxAge n).value = c.value := by
    intro c n
    unfold setMaxAge
    split <;> rfl
  have hdomain : ∀ (c : Cookie) v, (c.setDomain v).value = c.value := by
    intro c v
    cases v with
    | none => rfl
    | some v =>
      rw [setDomain]
      split <;> rfl
  have hpath : ∀ (c : Cookie) v, (c.setPath v).value = c.value := by
    intro c v
    cases v with
    | none => rfl
    | some v =>
      rw [setPath]
      split <;> rfl
  have hhttpOnly : ∀ (c : Cookie) b, (c.setHttpOnly b).value = c.value := by
    intro c b
    unfold setHttpOnly
    split <;> rfl
  have hsecure : ∀ (c : Cookie) b, (c.setSecure b).value = c.value := by
    intro c b
    unfold setSecure
    split <;> rfl
  have hexpires : ∀ (c : Cookie) t e, (c.setExpires t e).value = c.value := by
    intro c t e
    unfold setExpires
    split <;> rfl
  unfold set
  simp only [hexpires, hsecure, hhttpOnly, hpath, hdomain, hmaxAge]

/-- The conditions in front of the last one. -/
theorem Cookie.set_spec (now : ℤ) (args : SetCookie) (c : Cookie) :
    ∃ d : Cookie, c.set now args = d.setExpires now args.expires ∧ c.Keeps d :=
  ⟨_, rfl, (c.keeps_setValue _).trans <| (Cookie.keeps_setMaxAge _ _).trans <|
    (Cookie.keeps_setDomain _ _).trans <| (Cookie.keeps_setPath _ _).trans <|
    (Cookie.keeps_setHttpOnly _ _).trans (Cookie.keeps_setSecure _ _)⟩

theorem Cookie.set_name (c : Cookie) : (c.set now args).name = c.name := by
  obtain ⟨d, heq, hd⟩ := c.set_spec now args
  rw [heq, setExpires]
  split
  · exact hd.name
  · exact hd.name

/-- The value that is set. -/
theorem Cookie.set_value (c : Cookie) {v : List UInt8} (hv : args.value = some v)
    (hshort : v.length < cookieValueMaxLen) : (c.set now args).value = v := by
  rw [Cookie.value_set, hv, setValue]
  split
  · assumption
  · exact List.take_of_length_le (Nat.le_sub_one_of_lt hshort)

/-- A cookie with an expiry is marked updated. -/
def Cookie.Marked (c : Cookie) : Prop := c.expires ≠ 0 → c.updated = true

theorem Cookie.Marked.set {c : Cookie} (h : c.Marked) : (c.set now args).Marked := by
  obtain ⟨d, heq, hd⟩ := c.set_spec now args
  rw [heq, setExpires]
  split
  · exact fun _ => rfl
  · intro he
    exact hd.updated (h (hd.expires ▸ he))

/-- A set without an expiry takes an old one away when it is over. -/
theorem Cookie.Marked.set_expires {c : Cookie} (h : c.Marked) (h0 : args.expires = 0) :
    (c.set now args).expires = if c.expires < now then 0 else c.expires := by
  obtain ⟨d, heq, hd⟩ := c.set_spec now args
  rw [heq, setExpires, h0, hd.expires]
  by_cases hc : c.expires = 0
  · rw [if_neg (by rintro (h | h); exacts [h.1 rfl, h.2.1 hc]), hd.expires, hc]
    split <;> rfl
  · by_cases hnow : c.expires < now
    · rw [if_pos (Or.inr ⟨hd.updated (h hc), hc, hnow⟩), if_pos hnow]
    · rw [if_neg (by rintro (h | h); exacts [h.1 rfl, hnow h.2.2]), if_neg hnow, hd.expires]

/-- A set with an expiry leaves that. -/
theorem Cookie.set_expires (c : Cookie) (h0 : args.expires ≠ 0) :
    (c.set now args).expires = args.expires := by
  obtain ⟨d, heq, -⟩ := c.set_spec now args
  rw [heq, setExpires]
  by_cases hd : d.expires = args.expires
  · split
    · rfl
    · exact hd
  · rw [if_pos (Or.inl ⟨h0, hd⟩)]

/-! ## The table -/

theorem setFirst_eq_alter (f : Cookie → Cookie) (name : List UInt8) (cs : Cookies) :
    setFirst f name cs = Table.alter Cookie.name f name cs := by
  induction cs with
  | nil => rfl
  | cons c cs ih => rw [setFirst, Table.alter, ih]

theorem findCookie_eq (cs : Cookies) (name : List UInt8) :
    findCookie cs name = Table.find Cookie.name cs name := rfl

/-- A call for this name stays in the table. -/
def CookieRoom (cs : Cookies) (name : List UInt8) : Prop :=
  name ∈ cs.map Cookie.name ∨ cs.length < headersMaxNum

instance (cs : Cookies) (name : List UInt8) : Decidable (CookieRoom cs name) :=
  inferInstanceAs (Decidable (_ ∨ _))

/-- **What `cookies_set_cookie` does.** -/
theorem cookiesSetCookie_eq (now : ℤ) (cs : Cookies) (args : SetCookie) :
    cookiesSetCookie now cs args = if CookieRoom cs args.name then
      .ok (Table.put Cookie.name (Cookie.set now args) ((newCookie args.name).set now args)
        args.name cs) else .error .outOfBounds := by
  unfold cookiesSetCookie
  rw [findCookie_eq]
  cases hf : Table.find Cookie.name cs args.name with
  | some c =>
    have hin : args.name ∈ cs.map Cookie.name := by
      rw [← Table.isSome_find, hf]
      rfl
    have hroom : CookieRoom cs args.name := Or.inl hin
    rw [if_pos hroom, Table.put, if_pos (Table.isSome_find.2 hin), setFirst_eq_alter]
  | none =>
    have hin : args.name ∉ cs.map Cookie.name := by
      rw [← Table.isSome_find, hf]
      exact Bool.false_ne_true
    rw [Table.put, if_neg (mt Table.isSome_find.1 hin)]
    by_cases hfree : cs.length < headersMaxNum
    · have hroom : CookieRoom cs args.name := Or.inr hfree
      rw [if_pos hroom]
      exact if_neg (Nat.not_le.2 hfree)
    · have hroom : ¬CookieRoom cs args.name := fun h => h.elim hin hfree
      rw [if_neg hroom]
      exact if_pos (Nat.not_lt.1 hfree)

/-- The table after the call. -/
def cookieSet (now : ℤ) (cs : Cookies) (args : SetCookie) : Cookies :=
  Table.put Cookie.name (Cookie.set now args) ((newCookie args.name).set now args) args.name cs

/-- **What a call does.** -/
theorem cookieStep_inv {call : CookieCall} (h : cookieStep cs call = .ok cs') :
    CookieRoom cs call.name ∧ ∃ now args, args.name = call.name ∧ cs' = cookieSet now cs args := by
  have hset : ∀ (now : ℤ) (args : SetCookie), cookiesSetCookie now cs args = .ok cs' →
      CookieRoom cs args.name ∧ cs' = cookieSet now cs args := by
    intro now args h
    rw [cookiesSetCookie_eq] at h
    split at h
    · cases h
      exact ⟨‹_›, rfl⟩
    · cases h
  cases call with
  | set now args =>
    obtain ⟨hroom, heq⟩ := hset now args h
    exact ⟨hroom, now, args, rfl, heq⟩
  | del now name =>
    obtain ⟨hroom, heq⟩ := hset now (delArgs now name) h
    exact ⟨hroom, now, delArgs now name, rfl, heq⟩

theorem cookieStep_ok {call : CookieCall} (h : CookieRoom cs call.name) :
    ∃ cs', cookieStep cs call = .ok cs' := by
  cases call with
  | set now args => exact ⟨_, (cookiesSetCookie_eq now cs args).trans (if_pos h)⟩
  | del now name => exact ⟨_, (cookiesSetCookie_eq now cs (delArgs now name)).trans (if_pos h)⟩

theorem marked_parse (raw : List UInt8) : ∀ c ∈ cookiesParse raw, c.Marked := by
  have hloop : ∀ (left : ℕ) (cs : Cookies) (raw : List UInt8), (∀ c ∈ cs, c.Marked) →
      ∀ c ∈ cookiesParseLoop left cs raw, c.Marked := by
    intro left
    induction left with
    | zero => intro cs raw h; exact h
    | succ left ih =>
      intro cs raw h
      rw [cookiesParseLoop]
      split
      · exact h
      · split
        · exact h
        · exact h
        · apply ih
          intro c hc
          rcases List.mem_append.1 hc with hc | hc
          · exact h c hc
          · rw [List.mem_singleton.1 hc]
            exact fun h => absurd rfl h
  exact hloop headersMaxNum [] raw fun _ h => (List.not_mem_nil h).elim

theorem marked_cookieSet (h : ∀ c ∈ cs, c.Marked) : ∀ c ∈ cookieSet now cs args, c.Marked := by
  intro c hc
  rcases Table.mem_put hc with hc | ⟨d, hd, -, rfl⟩ | rfl
  · exact h c hc
  · exact (h d hd).set
  · exact Cookie.Marked.set fun h => absurd rfl h

/-- Every cookie with an expiry is marked updated, in every state that calls lead to. -/
theorem marked_run {raw : List UInt8} {calls : List CookieCall}
    (h : run cookieStep (cookiesParse raw) calls = .ok cs) : ∀ c ∈ cs, c.Marked := by
  apply run_inv (I := fun cs => ∀ c ∈ cs, c.Marked) (C := fun _ _ => True) _ calls _ cs
    (marked_parse raw) (Along.of_forall fun _ _ => trivial) h
  intro cs call cs' hm _ hstep
  obtain ⟨-, now, args, -, rfl⟩ := cookieStep_inv hstep
  exact marked_cookieSet hm

/-! ## Setting and reading back -/

theorem newCookie_name (h : name.length < cookieNameMaxLen) : (newCookie name).name = name :=
  List.take_of_length_le (Nat.le_sub_one_of_lt h)

/-- The cookie that a call leaves for its name. -/
theorem findCookie_cookieSet (now : ℤ) (cs : Cookies) (args : SetCookie)
    (h : args.name.length < cookieNameMaxLen) :
    findCookie (cookieSet now cs args) args.name =
      some (((findCookie cs args.name).getD (newCookie args.name)).set now args) := by
  have hnew : ((newCookie args.name).set now args).name = args.name :=
    (newCookie args.name).set_name.trans (newCookie_name h)
  rw [findCookie_eq, cookieSet, Table.find_put_self (fun c => c.set_name) hnew, findCookie_eq]
  cases Table.find Cookie.name cs args.name <;> rfl

theorem findCookie_cookieSet_other (h : args.name.length < cookieNameMaxLen) (hn : n ≠ args.name) :
    findCookie (cookieSet now cs args) n = findCookie cs n := by
  have hnew : ((newCookie args.name).set now args).name = args.name :=
    (newCookie args.name).set_name.trans (newCookie_name h)
  exact Table.find_put_other (fun c => c.set_name) hnew hn

/-- The cookie of this name, if there is one, has an expiry, and that is now. -/
def ExpiresNow (now : ℤ) (cs : Cookies) (name : List UInt8) : Prop :=
  ∃ c, findCookie cs name = some c ∧ c.expires ≠ 0 ∧ c.expires = now

/-- **A cookie that is set can be read back**, unless its expiry is the very time of the set; a
cookie that is deleted cannot; and no other cookie changes. -/
theorem cookie_read_back (raw : List UInt8) (calls : List CookieCall) (cs : Cookies)
    (hrun : run cookieStep (cookiesParse raw) calls = .ok cs) (now : ℤ) (args : SetCookie)
    (v : List UInt8) (hname : args.name.length < cookieNameMaxLen) (hvalue : args.value = some v)
    (hshort : v.length < cookieValueMaxLen) (hexpires : args.expires = 0)
    (hroom : args.name ∈ cs.map Cookie.name ∨ cs.length < headersMaxNum) :
    ∃ cs₁ cs₂, cookieStep cs (.set now args) = .ok cs₁ ∧
      cookieStep cs (.del now args.name) = .ok cs₂ ∧
      ((∃ c, cookiesGetCookie now cs₁ args.name = some c ∧ c.value = v) ↔
        ¬ExpiresNow now cs args.name) ∧
      (31536001 < now → cookiesGetCookie now cs₂ args.name = none) ∧
      ∀ t n, n ≠ args.name → cookiesGetCookie t cs₁ n = cookiesGetCookie t cs n ∧
        cookiesGetCookie t cs₂ n = cookiesGetCookie t cs n := by
  have hset : cookieStep cs (.set now args) = .ok (cookieSet now cs args) :=
    (cookiesSetCookie_eq now cs args).trans (if_pos hroom)
  have hdel : cookieStep cs (.del now args.name) =
      .ok (cookieSet now cs (delArgs now args.name)) :=
    (cookiesSetCookie_eq now cs (delArgs now args.name)).trans (if_pos hroom)
  refine ⟨_, _, hset, hdel, ?_, ?_, ?_⟩
  · have hmarked : ((findCookie cs args.name).getD (newCookie args.name)).Marked := by
      cases hf : findCookie cs args.name with
      | none => exact fun h => absurd rfl h
      | some c => exact marked_run hrun c (List.mem_of_find?_eq_some hf)
    have hnow : ExpiresNow now cs args.name ↔
        ((findCookie cs args.name).getD (newCookie args.name)).expires ≠ 0 ∧
          ((findCookie cs args.name).getD (newCookie args.name)).expires = now := by
      unfold ExpiresNow
      cases findCookie cs args.name with
      | none => simp [newCookie]
      | some c => simp
    rw [hnow, cookiesGetCookie, findCookie_cookieSet now cs args hname]
    generalize (findCookie cs args.name).getD (newCookie args.name) = c at hmarked
    have hv : (c.set now args).value = v := c.set_value hvalue hshort
    have he : (c.set now args).expires = if c.expires < now then 0 else c.expires :=
      hmarked.set_expires hexpires
    have hvalid : (c.set now args).expires = 0 ∨ now < (c.set now args).expires ↔
        ¬(c.expires ≠ 0 ∧ c.expires = now) := by
      rw [he]
      split <;> omega
    rw [Option.filter_some, ← hvalid]
    by_cases hc : (c.set now args).expires = 0 ∨ now < (c.set now args).expires
    · rw [if_pos (decide_eq_true hc)]
      exact ⟨fun _ => hc, fun _ => ⟨_, rfl, hv⟩⟩
    · rw [if_neg (by simpa using hc)]
      constructor
      · rintro ⟨_, h, -⟩
        cases h
      · exact fun h => absurd h hc
  · intro hlate
    have hdeleted := findCookie_cookieSet now cs (delArgs now args.name) hname
    generalize (findCookie cs (delArgs now args.name).name).getD
      (newCookie (delArgs now args.name).name) = c at hdeleted
    rw [cookiesGetCookie]
    refine (congrArg (Option.filter _) hdeleted).trans ?_
    have he : (c.set now (delArgs now args.name)).expires = now - 31536001 :=
      c.set_expires (show now - 31536001 ≠ 0 by omega)
    have hc : ¬((c.set now (delArgs now args.name)).expires = 0 ∨
        now < (c.set now (delArgs now args.name)).expires) := by
      rw [he]
      omega
    rw [Option.filter_some, if_neg (by simpa using hc)]
  · intro t n hn
    unfold cookiesGetCookie
    have hdel : findCookie (cookieSet now cs (delArgs now args.name)) n = findCookie cs n :=
      findCookie_cookieSet_other hname hn
    rw [findCookie_cookieSet_other hname hn, hdel]
    exact ⟨rfl, rfl⟩

/-- A cookie is set, and set again. -/
theorem cookie_read_back_twice : ∃ cs₁ cs₂,
    cookieStep [⟨ascii "a", ascii "1", [], [], 2000000100, 0, false, false, true⟩]
      (.set 2000000000 ⟨ascii "a", some (ascii "2"), 0, 0, none, none, false, false⟩) = .ok cs₁ ∧
    cookieStep [⟨ascii "a", ascii "1", [], [], 2000000100, 0, false, false, true⟩]
      (.del 2000000000 (ascii "a")) = .ok cs₂ ∧
    (∃ c, cookiesGetCookie 2000000000 cs₁ (ascii "a") = some c ∧ c.value = ascii "2") ∧
    cookiesGetCookie 2000000000 cs₂ (ascii "a") = none := by
  obtain ⟨cs₁, cs₂, hset, hdel, hread, hgone, -⟩ := cookie_read_back []
    [.set 1900000000 ⟨ascii "a", some (ascii "1"), 2000000100, 0, none, none, false, false⟩]
    [⟨ascii "a", ascii "1", [], [], 2000000100, 0, false, false, true⟩]
    (ok_of_toOption (by decide)) 2000000000
    ⟨ascii "a", some (ascii "2"), 0, 0, none, none, false, false⟩ (ascii "2") (by decide)
    rfl (by decide) rfl (by decide)
  have hnot : ¬ExpiresNow 2000000000
      [⟨ascii "a", ascii "1", [], [], 2000000100, 0, false, false, true⟩] (ascii "a") := by
    rintro ⟨c, hc, -, he⟩
    have hmem := List.mem_of_find?_eq_some hc
    rw [List.mem_singleton.1 hmem] at he
    exact absurd he (by decide)
  exact ⟨cs₁, cs₂, hset, hdel, hread.2 hnot, hgone (by decide)⟩

/-- A cookie that expires at the time of the set. -/
theorem cookie_not_read_back : ∃ cs₁ cs₂,
    run cookieStep (cookiesParse []) [.set 1900000000
      ⟨ascii "a", some (ascii "1"), 2000000000, 0, none, none, false, false⟩] = .ok cs₁ ∧
    cookieStep cs₁ (.set 2000000000
      ⟨ascii "a", some (ascii "2"), 0, 0, none, none, false, false⟩) = .ok cs₂ ∧
    cookiesGetCookie 2000000000 cs₂ (ascii "a") = none :=
  ⟨[⟨ascii "a", ascii "1", [], [], 2000000000, 0, false, false, true⟩],
    [⟨ascii "a", ascii "2", [], [], 2000000000, 0, false, false, true⟩],
    ok_of_toOption (by decide), ok_of_toOption (by decide), by decide⟩

/-! ## Room -/

/-- **The two tables.** The entries stay in the table of the cookies, and in that of the headers,
exactly when every call finds its entry or a free one. -/
theorem tables_stay (raw : List UInt8) (calls : List CookieCall)
    (sets : List (List UInt8 × List UInt8)) :
    (Along cookieStep (fun cs call => CookieRoom cs call.name) (cookiesParse raw) calls ↔
      ∀ pre, pre <+: calls → ∃ cs, run cookieStep (cookiesParse raw) pre = .ok cs ∧
        cs.length ≤ headersMaxNum) ∧
      (Along setStep HeaderRoom [] sets ↔
        ∀ pre, pre <+: sets → ∃ hs, run setStep [] pre = .ok hs ∧ hs.length ≤ headersMaxNum) := by
  constructor
  · apply along_iff (I := fun cs => List.length cs ≤ headersMaxNum) _ _ calls _
      (cookiesParse_length raw)
    · intro cs call _
      constructor
      · exact cookieStep_ok
      · rintro ⟨cs', h⟩
        exact (cookieStep_inv h).1
    · intro cs call cs' hlen h
      obtain ⟨hroom, now, args, hname, rfl⟩ := cookieStep_inv h
      rw [← hname] at hroom
      by_cases hin : args.name ∈ cs.map Cookie.name
      · rw [cookieSet, Table.length_put_mem hin]
        exact hlen
      · rw [cookieSet, Table.length_put_new hin]
        exact hroom.resolve_left hin
  · rw [headers_along_iff]
    constructor
    · intro h pre hpre
      obtain ⟨hs, hrun, -, hlen⟩ := h pre hpre
      exact ⟨hs, hrun, hlen⟩
    · intro h pre hpre
      obtain ⟨hs, hrun, hlen⟩ := h pre hpre
      exact ⟨hs, hrun, canonicalNames_run hrun, hlen⟩

/-- A client sends as many cookies as fit, and one more is set; and a response with 33 headers. -/
theorem tables_overrun :
    (cookiesParse ((List.replicate 32 (ascii "a=b; ")).flatten)).length = headersMaxNum ∧
      run cookieStep (cookiesParse ((List.replicate 32 (ascii "a=b; ")).flatten))
        [.set 2000000000 ⟨ascii "c", some (ascii "d"), 0, 0, none, none, false, false⟩] =
          .error .outOfBounds ∧
      run setStep [] ((List.range 33).map fun i => ([UInt8.ofNat (97 + i)], ascii "v")) =
        .error .outOfBounds :=
  ⟨by decide +kernel, error_of_failure (by decide +kernel), error_of_failure (by decide +kernel)⟩

end Zimr
