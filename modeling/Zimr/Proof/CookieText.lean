import Zimr.Proof.Cookies
import Zimr.Proof.Reply

/-!
# The text for `Set-Cookie`

* `cookiesToString_fits` — when the text leaves room for its NUL
* `cookies_reach_client` — when a client that gets it keeps the cookies that are marked updated
-/

namespace Zimr

variable {env : CookieEnv} {cs : Cookies} {s t : List UInt8}

/-! ## Room -/

/-- **What is written is the text as far as it goes.** -/
theorem strncats_eq : ∀ (pieces : List (List UInt8)) (size : ℕ),
    strncats size pieces = pieces.flatten.take size := by
  intro pieces
  induction pieces with
  | nil =>
    intro size
    rw [List.flatten_nil, List.take_nil]
    rfl
  | cons piece pieces ih =>
    intro size
    rw [strncats, List.flatten_cons, List.take_append]
    split
    · -- the piece fills it up
      have h0 : size - piece.length = 0 := by omega
      rw [h0, List.take_zero, List.append_nil]
    · rw [List.take_of_length_le (by omega), ih]

/-- The whole text. -/
def cookiesRendering (env : CookieEnv) (cs : Cookies) : List UInt8 :=
  (cs.flatMap (cookiePieces env)).flatten

theorem cookiesToString_eq (env : CookieEnv) (cs : Cookies) (size : ℕ) :
    cookiesToString env cs size = (cookiesRendering env cs).take size := strncats_eq _ size

/-- **The text fits exactly when it is shorter than the buffer.** -/
theorem cookiesToString_fits (env : CookieEnv) (cs : Cookies) (size : ℕ) (hsize : 1 ≤ size) :
    (cookiesToString env cs size).length ≤ size - 1 ↔ (cookiesRendering env cs).length < size := by
  rw [cookiesToString_eq, List.length_take]
  omega

theorem utc_char : ∀ c ∈ ascii "Thu, 01-Jan-1970 12:00:00 UTC", c ≠ 0 ∧ c ≠ 59 := by
  decide +kernel

theorem utc_short : (ascii "Thu, 01-Jan-1970 12:00:00 UTC").length < cookieExpiresMaxLen := by
  decide

/-- A text of the length that an expiry has, and an address. -/
def utcEnv : CookieEnv where
  expires _ := ascii "Thu, 01-Jan-1970 12:00:00 UTC"
  maxAge := -559038737
  expires_char _ := utc_char
  expires_short _ := utc_short

theorem cookiesToString_fits_one :
    (cookiesToString utcEnv [⟨ascii "a", ascii "b", [], ascii "/", 1, 0, true, true, true⟩] 1024).length
      ≤ 1024 - 1 :=
  (cookiesToString_fits utcEnv _ 1024 (by decide)).2 (by decide)

/-- A cookie whose fields are as long as they can be. -/
theorem cookiesToString_full :
    (cookiesToString utcEnv [⟨List.replicate 127 97, List.replicate 511 97, List.replicate 127 97,
      List.replicate 255 97, 0, 0, false, false, true⟩] 1024).length = 1024 := by
  decide +kernel

/-! ## Attributes -/

/-- A text that a `;` cuts in two. -/
theorem splitSemicolons_append (t : List UInt8) : ∀ s part : List UInt8,
    splitSemicolons part (s ++ 59 :: t) = splitSemicolons part s ++ splitSemicolons [] t := by
  intro s
  induction s with
  | nil =>
    intro part
    exact if_pos rfl
  | cons c s ih =>
    intro part
    rw [List.cons_append, splitSemicolons, splitSemicolons]
    by_cases hc : c = 59
    · rw [if_pos hc, if_pos hc, ih]
      rfl
    · rw [if_neg hc, if_neg hc, ih]

theorem splitSemicolons_one : ∀ s part : List UInt8, 59 ∉ s → splitSemicolons part s = [part ++ s] := by
  intro s
  induction s with
  | nil =>
    intro part _
    rw [List.append_nil]
    rfl
  | cons c s ih =>
    intro part hs
    have hc : c ≠ 59 := fun h => hs (h ▸ List.mem_cons_self)
    rw [splitSemicolons, if_neg hc, ih _ fun h => hs (List.mem_cons_of_mem _ h), List.append_assoc]
    rfl

/-- Attributes, each behind a `;`. -/
def Behind (s : List UInt8) : Prop := s = [] ∨ ∃ t, s = 59 :: t

/-- Their first `Max-Age`. -/
def ageIn (s : List UInt8) : Option (List UInt8) := maxAgeOf (splitSemicolons [] (s.drop 1))

theorem ageIn_append (hs : Behind s) (ht : Behind t) : ageIn (s ++ t) = (ageIn s).or (ageIn t) := by
  rcases ht with rfl | ⟨t, rfl⟩
  · rw [List.append_nil]
    exact (Option.or_none).symm
  · rcases hs with rfl | ⟨s, rfl⟩
    · rfl
    · have hor : ∀ l l' : List (List UInt8), maxAgeOf (l ++ l') = (maxAgeOf l).or (maxAgeOf l') := by
        intro l l'
        unfold maxAgeOf
        rw [List.find?_append]
        cases l.find? isMaxAge <;> rfl
      show maxAgeOf (splitSemicolons [] (s ++ 59 :: t)) = _
      rw [splitSemicolons_append, hor]
      rfl

theorem Behind.append (hs : Behind s) (ht : Behind t) : Behind (s ++ t) := by
  rcases hs with rfl | ⟨s, rfl⟩
  · exact ht
  · exact Or.inr ⟨s ++ t, rfl⟩

theorem Behind.ite {p : Prop} [Decidable p] (hs : Behind s) : Behind (if p then s else []) := by
  split
  · exact hs
  · exact Or.inl rfl

/-- One attribute. -/
theorem ageIn_one (hs : 59 ∉ s) : ageIn (59 :: s) =
    if isMaxAge s then some ((s.dropWhile (· = 32)).drop 8) else none := by
  show maxAgeOf (splitSemicolons [] s) = _
  rw [splitSemicolons_one s [] hs, List.nil_append, maxAgeOf]
  cases h : isMaxAge s with
  | true => rw [List.find?_cons_of_pos h]; rfl
  | false => rw [List.find?_cons_of_neg (by rw [h]; exact Bool.false_ne_true)]; rfl

/-! ## One cookie -/

/-- The attributes of a cookie, as they are written. -/
def expiresText (env : CookieEnv) (c : Cookie) : List UInt8 :=
  if c.expires ≠ 0 then 59 :: (ascii " Expires=" ++ env.expires c.expires) else []
def maxAgeText (env : CookieEnv) (c : Cookie) : List UInt8 :=
  if c.maxAge ≠ 0 then 59 :: (ascii " Max-Age=" ++ intText env.maxAge) else []
def pathText (c : Cookie) : List UInt8 :=
  if c.path ≠ [] then 59 :: (ascii " Path=" ++ c.path) else []
def domainText (c : Cookie) : List UInt8 :=
  if c.domain ≠ [] then 59 :: (ascii " Domain=" ++ c.domain) else []
def secureText (c : Cookie) : List UInt8 := if c.secure then 59 :: ascii " Secure" else []
def httpOnlyText (c : Cookie) : List UInt8 := if c.httpOnly then 59 :: ascii " HttpOnly" else []

def attrsBehind (env : CookieEnv) (c : Cookie) : List UInt8 :=
  expiresText env c ++ (maxAgeText env c ++ (pathText c ++ (domainText c ++
    (secureText c ++ httpOnlyText c))))

def cookieText (env : CookieEnv) (c : Cookie) : List UInt8 :=
  c.name ++ 61 :: (c.value ++ attrsBehind env c)

theorem cookiePieces_flatten (env : CookieEnv) (c : Cookie) :
    (cookiePieces env c).flatten = if c.updated then cookieText env c else [] := by
  have hpair : ∀ (p : Prop) [Decidable p] (a a' b : List UInt8), a = 59 :: a' →
      (if p then [a, b] else []).flatten = if p then 59 :: (a' ++ b) else [] := by
    intro p _ a a' b h
    split
    · rw [h, List.flatten_cons, List.flatten_singleton]
      rfl
    · rfl
  have hone : ∀ (p : Prop) [Decidable p] (a a' : List UInt8), a = 59 :: a' →
      (if p then [a] else []).flatten = if p then 59 :: a' else [] := by
    intro p _ a a' h
    split
    · rw [h, List.flatten_singleton]
    · rfl
  have hexpires := hpair (c.expires ≠ 0) (ascii "; Expires=") (ascii " Expires=")
    (env.expires c.expires) (by decide)
  have hmaxAge := hpair (c.maxAge ≠ 0) (ascii "; Max-Age=") (ascii " Max-Age=")
    (intText env.maxAge) (by decide)
  have hpath := hpair (c.path ≠ []) (ascii "; Path=") (ascii " Path=") c.path (by decide)
  have hdomain := hpair (c.domain ≠ []) (ascii "; Domain=") (ascii " Domain=") c.domain
    (by decide)
  have hsecure := hone (c.secure = true) (ascii "; Secure") (ascii " Secure") (by decide)
  have hhttpOnly := hone (c.httpOnly = true) (ascii "; HttpOnly") (ascii " HttpOnly")
    (by decide)
  have hhead : ([c.name, ascii "=", c.value] : List (List UInt8)).flatten =
      c.name ++ 61 :: c.value := by
    have heq : ascii "=" = [61] := by decide
    rw [heq]
    simp
  unfold cookiePieces
  split
  · rw [List.flatten_append, List.flatten_append, List.flatten_append, List.flatten_append,
      List.flatten_append, List.flatten_append, hhead, hexpires, hmaxAge, hpath, hdomain, hsecure,
      hhttpOnly]
    simp only [cookieText, attrsBehind, expiresText, maxAgeText, pathText, domainText, secureText,
      httpOnlyText, List.append_assoc, List.cons_append]
  · rfl

theorem cookiesRendering_eq (env : CookieEnv) (cs : Cookies) : cookiesRendering env cs =
    ((cs.filter Cookie.updated).map (cookieText env)).flatten := by
  unfold cookiesRendering
  induction cs with
  | nil => rfl
  | cons c cs ih =>
    rw [List.flatMap_cons, List.flatten_append, ih, cookiePieces_flatten]
    cases hc : c.updated with
    | true => rw [List.filter_cons_of_pos hc]; rfl
    | false =>
      rw [List.filter_cons_of_neg (by rw [hc]; exact Bool.false_ne_true)]
      rfl

/-- The `Max-Age` that a client reads when the cookie has none of its own. -/
def strayAge (c : Cookie) : Option (List UInt8) := (ageIn (pathText c)).or (ageIn (domainText c))

theorem ageIn_expires (env : CookieEnv) (c : Cookie) : ageIn (expiresText env c) = none := by
  have hprefix : ∀ s, isMaxAge (ascii " Expires=" ++ s) = false := by
    intro s
    have hhead : ascii " Expires=" = 32 :: 69 :: ascii "xpires=" := by decide
    have hage : ascii "max-age=" = 109 :: ascii "ax-age=" := by decide
    have hno : ∀ r : List UInt8, isMaxAge (32 :: 69 :: r) = false := by
      intro r
      apply Bool.eq_false_iff.2
      intro h
      have hpre : ascii "max-age=" <+: 101 :: strtolower r := startswith_iff.1 h
      have hlong : 109 :: ascii "ax-age=" <+: 101 :: strtolower r :=
        Eq.subst hage hpre (motive := fun l => l <+: 101 :: strtolower r)
      exact absurd (List.cons_prefix_cons.1 hlong).1 (by decide)
    exact (congrArg (fun l => isMaxAge (l ++ s)) hhead).trans (hno _)
  have hchar : 59 ∉ ascii " Expires=" ++ env.expires c.expires := by
    rw [List.mem_append]
    rintro (h | h)
    · exact absurd h (by decide)
    · exact (env.expires_char _ _ h).2 rfl
  unfold expiresText
  split
  · rw [ageIn_one hchar, hprefix, if_neg Bool.false_ne_true]
  · rfl

theorem intText_char (n : ℤ) : ∀ c ∈ intText n, c ≠ 59 := by
  have hdigit : ∀ k : ℕ, ∀ c ∈ decText k, c ≠ 59 := by
    rintro k c hc rfl
    exact absurd (decText_digits k _ hc).2 (by decide)
  unfold intText
  split
  · intro c hc
    rcases List.mem_cons.1 hc with rfl | hc
    · decide
    · exact hdigit _ c hc
  · exact hdigit _

theorem intText_inj {m n : ℤ} (h : intText m = intText n) : m = n := by
  have hsign : ∀ (k : ℕ) (s : List UInt8), decText k ≠ 45 :: s := by
    intro k s hk
    exact absurd (decText_digits k 45 (hk ▸ List.mem_cons_self)).1 (by decide)
  unfold intText at h
  split at h
  · split at h
    · have habs := decText_inj (List.cons.inj h).2
      omega
    · exact absurd h.symm (hsign _ _)
  · split at h
    · exact absurd h (hsign _ _)
    · have habs := decText_inj h
      omega

theorem ageIn_maxAge (env : CookieEnv) (c : Cookie) :
    ageIn (maxAgeText env c) = if c.maxAge = 0 then none else some (intText env.maxAge) := by
  have hname : ascii " Max-Age=" = 32 :: 77 :: ascii "ax-Age=" := by decide
  have hlower : strtolower (77 :: ascii "ax-Age=") = ascii "max-age=" := by decide
  have hdrop : ∀ s : List UInt8, (ascii " Max-Age=" ++ s).dropWhile (· = 32) =
      (77 :: ascii "ax-Age=") ++ s := by
    intro s
    exact congrArg (fun l => (l ++ s).dropWhile (· = 32)) hname
  have hprefix : isMaxAge (ascii " Max-Age=" ++ intText env.maxAge) = true := by
    apply startswith_iff.2
    have hmap : strtolower ((ascii " Max-Age=" ++ intText env.maxAge).dropWhile (· = 32)) =
        ascii "max-age=" ++ strtolower (intText env.maxAge) :=
      (congrArg strtolower (hdrop _)).trans (List.map_append.trans (congrArg (· ++ _) hlower))
    exact ⟨_, hmap.symm⟩
  have hread : ((ascii " Max-Age=" ++ intText env.maxAge).dropWhile (· = 32)).drop 8 =
      intText env.maxAge := by
    have hlen : (77 :: ascii "ax-Age=").length = 8 := by decide
    exact (congrArg (List.drop 8) (hdrop _)).trans (List.drop_left' hlen)
  have hchar : 59 ∉ ascii " Max-Age=" ++ intText env.maxAge := by
    rw [List.mem_append]
    rintro (h | h)
    · exact absurd h (by decide)
    · exact intText_char _ _ h rfl
  unfold maxAgeText
  by_cases h : c.maxAge = 0
  · rw [if_neg (not_not.2 h), if_pos h]
    rfl
  · rw [if_pos h, if_neg h, ageIn_one hchar, hprefix, hread, if_pos rfl]

/-- The age that a client reads. -/
theorem ageIn_attrsBehind (env : CookieEnv) (c : Cookie) : Behind (attrsBehind env c) ∧
    ageIn (attrsBehind env c) =
      if c.maxAge = 0 then strayAge c else some (intText env.maxAge) := by
  have h₁ : Behind (expiresText env c) := .ite (Or.inr ⟨_, rfl⟩)
  have h₂ : Behind (maxAgeText env c) := .ite (Or.inr ⟨_, rfl⟩)
  have h₃ : Behind (pathText c) := .ite (Or.inr ⟨_, rfl⟩)
  have h₄ : Behind (domainText c) := .ite (Or.inr ⟨_, rfl⟩)
  have h₅ : Behind (secureText c) := .ite (Or.inr ⟨_, rfl⟩)
  have h₆ : Behind (httpOnlyText c) := .ite (Or.inr ⟨_, rfl⟩)
  have hsecure : ageIn (secureText c) = none := by
    unfold secureText
    split
    · decide
    · rfl
  have hhttpOnly : ageIn (httpOnlyText c) = none := by
    unfold httpOnlyText
    split
    · decide
    · rfl
  refine ⟨h₁.append (h₂.append (h₃.append (h₄.append (h₅.append h₆)))), ?_⟩
  unfold attrsBehind strayAge
  rw [ageIn_append h₁ (h₂.append (h₃.append (h₄.append (h₅.append h₆)))),
    ageIn_append h₂ (h₃.append (h₄.append (h₅.append h₆))),
    ageIn_append h₃ (h₄.append (h₅.append h₆)), ageIn_append h₄ (h₅.append h₆),
    ageIn_append h₅ h₆, ageIn_expires, ageIn_maxAge, hsecure, hhttpOnly, Option.none_or,
    Option.or_none, Option.or_none]
  split
  · exact Option.none_or
  · rfl

/-- **What a client keeps of one cookie.** -/
theorem clientStore_cookieText (env : CookieEnv) {c : Cookie} (hn : 61 ∉ c.name)
    (hv : 59 ∉ c.value) : clientStore (cookieText env c) =
      ⟨c.name, c.value, if c.maxAge = 0 then strayAge c else some (intText env.maxAge)⟩ := by
  obtain ⟨hbehind, hage⟩ := ageIn_attrsBehind env c
  have hname : ∀ x ∈ c.name, decide (x ≠ 61) = true := fun x hx =>
    decide_eq_true fun h => hn (h ▸ hx)
  have hvalue : ∀ x ∈ c.value, decide (x ≠ 59) = true := fun x hx =>
    decide_eq_true fun h => hv (h ▸ hx)
  have hstop : ∀ (s : List UInt8), (61 :: s).takeWhile (· ≠ 61) = [] ∧
      (61 :: s).dropWhile (· ≠ 61) = 61 :: s := fun s => ⟨rfl, rfl⟩
  have hrest : ((cookieText env c).dropWhile (· ≠ 61)).drop 1 = c.value ++ attrsBehind env c := by
    rw [cookieText, List.dropWhile_append_of_pos hname, (hstop _).2]
    rfl
  have hbehind' : (attrsBehind env c).takeWhile (· ≠ 59) = [] ∧
      (attrsBehind env c).dropWhile (· ≠ 59) = attrsBehind env c := by
    rcases hbehind with h | ⟨t, h⟩
    · rw [h]
      exact ⟨rfl, rfl⟩
    · rw [h]
      exact ⟨rfl, rfl⟩
  have hfirst : (cookieText env c).takeWhile (· ≠ 61) = c.name := by
    rw [cookieText, List.takeWhile_append_of_pos hname, (hstop _).1, List.append_nil]
  unfold clientStore
  rw [hrest, hfirst, List.takeWhile_append_of_pos hvalue, List.dropWhile_append_of_pos hvalue,
    hbehind'.1, hbehind'.2, List.append_nil]
  exact congrArg (StoredCookie.mk c.name c.value) hage

/-! ## The header -/

/-- What a client keeps of a response with this text for `Set-Cookie`. Without cookies there is no
such header. -/
def clientCookies (text : List UInt8) : List StoredCookie :=
  if text = [] then [] else [clientStore text]

/-- The age of a cookie reaches the client: it is the number that is printed, or there is none, and
the path and the domain do not bring one. -/
def AgeKept (env : CookieEnv) (c : Cookie) : Prop :=
  if c.maxAge = 0 then strayAge c = none else env.maxAge = c.maxAge

/-- At most one cookie is marked updated, and its age reaches the client. -/
def ReachesClient (env : CookieEnv) (cs : Cookies) : Prop :=
  (cs.filter Cookie.updated).length ≤ 1 ∧ ∀ c ∈ cs.filter Cookie.updated, AgeKept env c

/-- What `zimr_connection_send_headers` does with the text. -/
theorem responseHeaders_cookies {senv : ServeEnv} {reply : Reply} {hs : Headers}
    (hc : CanonicalNames reply.headers) (h : responseHeaders senv reply = .ok hs) :
    valuesOf hs (ascii "Set-Cookie") = valuesOf reply.headers (ascii "Set-Cookie") ++
      if senv.cookies = [] then [] else [senv.cookies] := by
  have hnot : ¬SameName (ascii "Date") (ascii "Set-Cookie") ∧
      ¬SameName (ascii "Server") (ascii "Set-Cookie") := by decide
  obtain ⟨hs₁, hs₂, hd, hsv, hck⟩ := responseHeaders_inv h
  obtain ⟨heq₁, hc₁⟩ := setStep_inv (s := (ascii "Date", senv.now)) hc hd
  obtain ⟨heq₂, hc₂⟩ := setStep_inv (s := (ascii "Server", ascii "Zimr/" ++ senv.version)) hc₁ hsv
  have hold : valuesOf hs₂ (ascii "Set-Cookie") = valuesOf reply.headers (ascii "Set-Cookie") := by
    rw [heq₂, valuesOf_tableSet_other hnot.2, heq₁, valuesOf_tableSet_other hnot.1]
  by_cases hcookies : senv.cookies = []
  · rw [if_neg (not_not.2 hcookies)] at hck
    rw [if_pos hcookies, List.append_nil, ← hold, Except.ok.inj hck]
  · rw [if_pos hcookies] at hck
    obtain ⟨heq₃, -⟩ := setStep_inv (s := (ascii "Set-Cookie", senv.cookies)) hc₂ hck
    have hsame : SameName (ascii "Set-Cookie") (ascii "Set-Cookie") := rfl
    rw [if_neg hcookies, heq₃, valuesOf_tableSet_cookie (s := (ascii "Set-Cookie", senv.cookies))
      hsame hsame, hold]

/-- **The cookies that are marked updated reach the client** exactly when there is at most one, and
its age is the one that is printed. -/
theorem cookies_reach_client (env : CookieEnv) (cs : Cookies)
    (hname : ∀ c ∈ cs, c.updated = true → 61 ∉ c.name)
    (hvalue : ∀ c ∈ cs, c.updated = true → 59 ∉ c.value)
    (hfit : (cookiesRendering env cs).length ≤ 1023) :
    (clientCookies (cookiesToString env cs 1024) =
        (cs.filter Cookie.updated).map Cookie.stored ↔ ReachesClient env cs) ∧
      ∀ (senv : ServeEnv) (reply : Reply) (headers : Headers),
        senv.cookies = cookiesToString env cs 1024 → CanonicalNames reply.headers →
        responseHeaders senv reply = .ok headers →
        valuesOf headers (ascii "Set-Cookie") =
            valuesOf reply.headers (ascii "Set-Cookie") ++
              (if senv.cookies = [] then [] else [senv.cookies]) ∧
          ∀ sent, sendHeaders senv reply = .ok sent →
            sent = ({ reply with headers }, headersToString headers) := by
  refine ⟨?_, fun senv reply headers _ hc h => ⟨responseHeaders_cookies hc h, fun sent hsent => ?_⟩⟩
  swap
  · exact sendHeaders_sent h hsent
  have hne : ∀ c : Cookie, cookieText env c ≠ [] := by
    intro c h
    have hlen := congrArg List.length h
    rw [cookieText, List.length_append, List.length_cons, List.length_nil] at hlen
    omega
  have hclean : ∀ c ∈ cs.filter Cookie.updated, 61 ∉ c.name ∧ 59 ∉ c.value := by
    intro c hc
    obtain ⟨hm, hu⟩ := List.mem_filter.1 hc
    exact ⟨hname c hm hu, hvalue c hm hu⟩
  rw [cookiesToString_eq, List.take_of_length_le (by omega), cookiesRendering_eq, ReachesClient]
  generalize cs.filter Cookie.updated = marked at hclean
  cases marked with
  | nil => exact ⟨fun _ => ⟨Nat.zero_le 1, fun c h => (List.not_mem_nil h).elim⟩, fun _ => rfl⟩
  | cons c marked =>
    have hflat : ((c :: marked).map (cookieText env)).flatten ≠ [] := by
      rw [List.map_cons, List.flatten_cons]
      exact fun h => hne c (List.append_eq_nil_iff.1 h).1
    rw [clientCookies, if_neg hflat]
    cases marked with
    | cons d marked =>
      constructor
      · intro h
        have hlen := congrArg List.length h
        simp only [List.length_map, List.length_cons, List.length_nil] at hlen
        omega
      · rintro ⟨hlen, -⟩
        simp only [List.length_cons] at hlen
        omega
    | nil =>
      have hc := hclean c List.mem_cons_self
      have hage : (if c.maxAge = 0 then strayAge c else some (intText env.maxAge)) =
          (if c.maxAge = 0 then none else some (intText c.maxAge)) ↔ AgeKept env c := by
        unfold AgeKept
        split
        · exact Iff.rfl
        · exact ⟨fun h => intText_inj (Option.some.inj h), fun h => by rw [h]⟩
      rw [List.map_cons, List.map_nil, List.flatten_singleton, clientStore_cookieText env hc.1 hc.2,
        List.map_cons, List.map_nil]
      constructor
      · intro h
        have hstored := (StoredCookie.mk.inj (List.cons.inj h).1).2.2
        refine ⟨Nat.le_refl 1, fun d hd => ?_⟩
        rw [List.mem_singleton.1 hd]
        exact hage.1 hstored
      · rintro ⟨-, h⟩
        have hstored := hage.2 (h c List.mem_cons_self)
        rw [hstored]
        rfl

/-- One cookie, with a path. -/
theorem cookies_reach_client_one :
    clientCookies (cookiesToString utcEnv
      [⟨ascii "a", ascii "b", [], ascii "/", 0, 0, false, false, true⟩] 1024) =
        [⟨ascii "a", ascii "b", none⟩] := by
  have h := (cookies_reach_client utcEnv
    [⟨ascii "a", ascii "b", [], ascii "/", 0, 0, false, false, true⟩]
    (by decide) (by decide) (by decide)).1
  refine h.2 ⟨by decide, fun c hc => ?_⟩
  have hc := (List.mem_filter.1 hc).1
  rw [List.mem_singleton.1 hc]
  exact (by decide : strayAge ⟨ascii "a", ascii "b", [], ascii "/", 0, 0, false, false, true⟩ =
    none)

/-- Two cookies are set, and a client keeps one, with another value. -/
theorem cookies_run_together : ∃ cs,
    Run.run cookieStep (cookiesParse [])
      [.set 2000000000 ⟨ascii "a", some (ascii "1"), 0, 0, none, none, false, false⟩,
        .set 2000000000 ⟨ascii "b", some (ascii "2"), 0, 0, none, none, false, false⟩] = .ok cs ∧
    clientCookies (cookiesToString utcEnv cs 1024) = [⟨ascii "a", ascii "1b=2", none⟩] ∧
    (cs.filter Cookie.updated).map Cookie.stored =
      [⟨ascii "a", ascii "1", none⟩, ⟨ascii "b", ascii "2", none⟩] :=
  ⟨[⟨ascii "a", ascii "1", [], [], 0, 0, false, false, true⟩,
      ⟨ascii "b", ascii "2", [], [], 0, 0, false, false, true⟩],
    Run.ok_of_toOption (by decide), by decide, by decide⟩

end Zimr
