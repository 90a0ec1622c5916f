import Mathlib.Data.List.Pairwise
import Zimr.Proof.Urldecoder
import Zimr.Spec.Lookup

/-!
# The website of a request

The test of `website_find` accepts the matches and the websites that stray (`serves_iff`), and
the pass over the list keeps one of the highest rank (`websiteFind_best`). So it finds the best
match in every order exactly when nothing else has that rank (`finds_best_iff`).
-/

namespace Zimr

variable {url protocol ip s t : List UInt8} {w m : Website} {sites : List Website}

/-! ## The test -/

theorem pathStart_eq (h : ∀ c ∈ s, c ≠ 0) : pathStart s = (hostPort s).length := by
  unfold pathStart hostPort
  cases hp : strchr s 47 with
  | none =>
    have hno := strchr_none h hp
    have : s.takeWhile (· ≠ 47) = s := by
      rw [List.takeWhile_eq_self_iff]
      intro c hc
      simpa using hno c hc
    rw [this]
    rfl
  | some p =>
    obtain ⟨hsplit, hno⟩ := strchr_split h hp
    have htake : s.takeWhile (· ≠ 47) = s.take p := by
      conv => lhs; rw [hsplit]
      rw [List.takeWhile_append_of_pos fun c hc => by simpa using hno c hc]
      simp
    rw [htake, List.length_take, Option.getD_some]
    have := congrArg List.length hsplit
    rw [List.length_append, List.length_cons, List.length_take, List.length_drop] at this
    omega

theorem hostPort_append (s : List UInt8) : hostPort s ++ urlPath s = s := List.takeWhile_append_dropWhile

theorem drop_pathStart (h : ∀ c ∈ s, c ≠ 0) : s.drop (pathStart s) = urlPath s := by
  have hd : s.drop (hostPort s).length = (hostPort s ++ urlPath s).drop (hostPort s).length := by
    rw [hostPort_append]
  rw [pathStart_eq h, hd, List.drop_left' rfl]

/-- A text without `/`, and a path. -/
def HostPath (h p : List UInt8) : Prop := (∀ c ∈ h, c ≠ 47) ∧ (p = [] ∨ ∃ r, p = 47 :: r)

theorem hostPath (s : List UInt8) : HostPath (hostPort s) (urlPath s) := by
  refine ⟨fun c hc => ?_, ?_⟩
  · have := List.mem_takeWhile_imp hc
    simpa using this
  · unfold urlPath
    cases hd : s.dropWhile (· ≠ 47) with
    | nil => exact Or.inl rfl
    | cons c r =>
      right
      have := List.head?_dropWhile_not (· ≠ 47) s
      rw [hd] at this
      exact ⟨r, by simpa using this⟩

/-- A comparison over the longer of two hosts is one of the hosts. -/
theorem take_max_iff {h₁ p₁ h₂ p₂ : List UInt8} (hp₁ : HostPath h₁ p₁) (hp₂ : HostPath h₂ p₂) :
    (h₁ ++ p₁).take (max h₁.length h₂.length) = (h₂ ++ p₂).take (max h₁.length h₂.length) ↔
      h₁ = h₂ := by
  -- the shorter host would meet a `/` or the end
  have key : ∀ {a p b q : List UInt8}, HostPath a p → HostPath b q → a.length < b.length →
      (a ++ p).take b.length ≠ (b ++ q).take b.length := by
    intro a p b q ha hb hlt he
    rw [List.take_left' rfl, List.take_append, List.take_of_length_le (Nat.le_of_lt hlt)] at he
    obtain rfl | ⟨r, rfl⟩ := ha.2
    · have := congrArg List.length he
      simp at this
      omega
    · refine hb.1 47 ?_ rfl
      rw [← he]
      obtain ⟨k, hk⟩ : ∃ k, b.length - a.length = k + 1 := ⟨b.length - a.length - 1, by omega⟩
      rw [hk]
      simp
  constructor
  · intro he
    rcases Nat.lt_trichotomy h₁.length h₂.length with hlt | heq | hgt
    · rw [Nat.max_eq_right (Nat.le_of_lt hlt)] at he
      exact absurd he (key hp₁ hp₂ hlt)
    · rw [heq, Nat.max_self, List.take_left' heq, List.take_left' rfl] at he
      exact he
    · rw [Nat.max_eq_left (Nat.le_of_lt hgt)] at he
      exact absurd he.symm (key hp₂ hp₁ hgt)
  · rintro rfl
    rw [Nat.max_self, List.take_left' rfl, List.take_left' rfl]

/-- The first `:` of a text: what `strchr` finds, and what follows from there. -/
theorem drop_colon (h : ∀ c ∈ s, c ≠ 0) :
    ((58 : UInt8) ∉ s ∧ strchr s 58 = none ∧ fromColon s = []) ∨
      ∃ p, strchr s 58 = some p ∧ p < s.length ∧ s.drop p = fromColon s := by
  cases hp : strchr s 58 with
  | none =>
    have hno := strchr_none h hp
    refine Or.inl ⟨fun hm => hno 58 hm rfl, rfl, ?_⟩
    unfold fromColon
    rw [List.dropWhile_eq_nil_iff]
    intro c hc
    simpa using hno c hc
  | some p =>
    obtain ⟨hsplit, hno⟩ := strchr_split h hp
    have hlen := congrArg List.length hsplit
    rw [List.length_append, List.length_cons, List.length_take, List.length_drop] at hlen
    refine Or.inr ⟨p, rfl, by omega, ?_⟩
    have htake : (s.take p).length = p := by rw [List.length_take]; omega
    have hfrom : fromColon s = 58 :: s.drop (p + 1) := by
      unfold fromColon
      conv => lhs; rw [hsplit]
      rw [List.dropWhile_append_of_pos fun c hc => by simpa using hno c hc]
      simp
    rw [hfrom]
    conv => lhs; rw [hsplit]
    exact List.drop_left' htake

/-- With a `:` in its first part, a text has its first one there. -/
theorem strchr_append_left {a b : List UInt8} {c : UInt8} (h : ∀ x ∈ a ++ b, x ≠ 0) {p : ℕ}
    (hp : strchr a c = some p) : strchr (a ++ b) c = some p := by
  have ha : ∀ x ∈ a, x ≠ 0 := fun x hx => h x (List.mem_append_left _ hx)
  unfold strchr at hp ⊢
  rw [cstr_eq_self ha] at hp
  rw [cstr_eq_self h, List.findIdx?_append, hp]
  rfl

theorem strchr_append_right {a b : List UInt8} {c : UInt8} (h : ∀ x ∈ a ++ b, x ≠ 0)
    (hn : strchr a c = none) : strchr (a ++ b) c = (strchr b c).map (· + a.length) := by
  have ha : ∀ x ∈ a, x ≠ 0 := fun x hx => h x (List.mem_append_left _ hx)
  have hb : ∀ x ∈ b, x ≠ 0 := fun x hx => h x (List.mem_append_right _ hx)
  unfold strchr at hn ⊢
  rw [cstr_eq_self ha] at hn
  rw [cstr_eq_self h, cstr_eq_self hb, List.findIdx?_append, hn]
  rfl

/-- The comparison of host and port in `website_find`. -/
def Website.sameHost (w : Website) (url : List UInt8) : Prop :=
  let wUrl := if w.wildcard then w.url.drop 1 else w.url
  let wPath := if w.wildcard then pathStart w.url - 1 else pathStart w.url
  let host := if w.wildcard then (strchr url 58).getD (pathStart url) else 0
  wUrl.take (max wPath (pathStart url - host)) =
    (url.drop host).take (max wPath (pathStart url - host))

theorem sameHost_plain (hw : ∀ c ∈ w.url, c ≠ 0) (hu : ∀ c ∈ url, c ≠ 0)
    (h : w.wildcard = false) : w.sameHost url ↔ hostPort w.url = hostPort url := by
  unfold Website.sameHost
  simp only [h, Bool.false_eq_true, if_false, List.drop_zero, Nat.sub_zero]
  rw [pathStart_eq hw, pathStart_eq hu, ← take_max_iff (hostPath w.url) (hostPath url),
    hostPort_append, hostPort_append]

/-- For a host `*` the text after it is compared with the port, or with what starts at a `:` in
the path. -/
theorem sameHost_wild (hw : ∀ c ∈ w.url, c ≠ 0) (hu : ∀ c ∈ url, c ≠ 0)
    (h : w.wildcard = true) :
    w.sameHost url ↔ hostPort w.url = 42 :: fromColon (hostPort url) ∨
      ((58 : UInt8) ∉ hostPort url ∧ ∃ rest, rest ≠ [] ∧ hostPort w.url = 42 :: rest ∧
        rest <+: fromColon (urlPath url)) := by
  -- the website's URL is `*`, the rest of the host, and the path
  obtain ⟨rest, hrest⟩ : ∃ rest, hostPort w.url = 42 :: rest := by
    have hh : w.url.head? = some 42 := by simpa [Website.wildcard] using h
    cases hx : w.url with
    | nil => rw [hx] at hh; cases hh
    | cons c r =>
      rw [hx] at hh
      cases hh
      exact ⟨r.takeWhile (· ≠ 47), by simp [hostPort]⟩
  have hfull : w.url = 42 :: (rest ++ urlPath w.url) := by
    have := hostPort_append w.url
    rw [hrest] at this
    exact this.symm
  have hp₁ : HostPath rest (urlPath w.url) := by
    refine ⟨fun c hc => (hostPath w.url).1 c ?_, (hostPath w.url).2⟩
    rw [hrest]
    exact List.mem_cons_of_mem _ hc
  have hdrop : w.url.drop 1 = rest ++ urlPath w.url := congrArg (List.drop 1) hfull
  have hwp : pathStart w.url - 1 = rest.length := by
    rw [pathStart_eq hw, hrest, List.length_cons, Nat.add_sub_cancel]
  have hhost : ∀ c ∈ hostPort url, c ≠ 0 := fun c hc => hu c (by
    rw [← hostPort_append url]; exact List.mem_append_left _ hc)
  have hpath : ∀ c ∈ urlPath url, c ≠ 0 := fun c hc => hu c (by
    rw [← hostPort_append url]; exact List.mem_append_right _ hc)
  have happ : ∀ c ∈ hostPort url ++ urlPath url, c ≠ 0 := by rw [hostPort_append]; exact hu
  unfold Website.sameHost
  simp only [h, if_true]
  rw [hwp, hdrop, pathStart_eq hu, hrest]
  simp only [List.cons.injEq, true_and]
  obtain ⟨hno, hnone, hempty⟩ | ⟨p, hp, hlt, hd⟩ := drop_colon hhost
  · rw [hempty]
    have hfind : strchr url 58 = (strchr (urlPath url) 58).map (· + (hostPort url).length) := by
      have := strchr_append_right happ hnone
      rwa [hostPort_append] at this
    obtain ⟨-, hnone', hempty'⟩ | ⟨q, hq, -, hd'⟩ := drop_colon hpath
    · -- no `:` at all: the path is compared
      rw [hfind, hnone']
      have hp₀ : HostPath [] (urlPath url) := ⟨by simp, (hostPath url).2⟩
      have := take_max_iff hp₁ hp₀
      rw [List.length_nil, List.nil_append] at this
      have hd0 : url.drop (hostPort url).length = urlPath url := by
        rw [← pathStart_eq hu, drop_pathStart hu]
      simp only [Option.map_none, Option.getD_none, Nat.sub_self, hd0]
      rw [this]
      constructor
      · exact Or.inl
      · rintro (he | ⟨-, r, hr, rfl, hpre⟩)
        · exact he
        · rw [hempty'] at hpre
          exact absurd (List.prefix_nil.1 hpre) hr
    · -- the first `:` is in the path
      rw [hfind, hq]
      have hsub : (hostPort url).length - (q + (hostPort url).length) = 0 := by omega
      have hd0 : url.drop (q + (hostPort url).length) = fromColon (urlPath url) := by
        rw [Nat.add_comm, ← List.drop_drop, ← pathStart_eq hu, drop_pathStart hu, hd']
      simp only [Option.map_some, Option.getD_some, hsub, Nat.max_zero, hd0]
      rw [List.take_left' rfl]
      constructor
      · intro he
        by_cases hr : rest = []
        · exact Or.inl hr
        · refine Or.inr ⟨hno, rest, hr, rfl, ?_⟩
          rw [List.prefix_iff_eq_take]
          exact he
      · rintro (rfl | ⟨-, r, -, rfl, hpre⟩)
        · rfl
        · exact List.prefix_iff_eq_take.1 hpre
  · have hm : (58 : UInt8) ∈ hostPort url := by
      obtain ⟨hsplit, -⟩ := strchr_split hhost hp
      rw [hsplit]
      simp
    have hfind : strchr url 58 = some p := by
      have := strchr_append_left happ hp
      rwa [hostPort_append] at this
    have hd0 : url.drop p = fromColon (hostPort url) ++ urlPath url := by
      have : (hostPort url ++ urlPath url).drop p = (hostPort url).drop p ++ urlPath url :=
        List.drop_append_of_le_length (Nat.le_of_lt hlt)
      rwa [hostPort_append, hd] at this
    have hlen : (hostPort url).length - p = (fromColon (hostPort url)).length := by
      rw [← hd, List.length_drop]
    have hp₂ : HostPath (fromColon (hostPort url)) (urlPath url) := by
      refine ⟨fun c hc => (hostPath url).1 c ?_, (hostPath url).2⟩
      rw [← hd] at hc
      exact List.mem_of_mem_drop hc
    rw [hfind]
    simp only [Option.getD_some, hd0, hlen]
    rw [take_max_iff hp₁ hp₂]
    constructor
    · exact Or.inl
    · rintro (he | ⟨hno, -⟩)
      · exact he
      · exact absurd hm hno

theorem wildcard_of_hostPort {r : List UInt8} (h : hostPort w.url = 42 :: r) : w.wildcard = true := by
  have hhead : w.url.head? = some 42 := by
    rw [← hostPort_append w.url, h]
    rfl
  simp [Website.wildcard, hhead]

/-- **The test of `website_find`** accepts the matches and the websites that stray. -/
theorem serves_iff (hw : ∀ c ∈ w.url, c ≠ 0) (hu : ∀ c ∈ url, c ≠ 0) :
    w.serves url protocol ip = true ↔ w.Matches url protocol ip ∨ w.Strays url protocol ip := by
  have hpath : w.path = urlPath w.url := drop_pathStart hw
  have hs : w.serves url protocol ip = true ↔ w.sameHost url ∧ w.Suits url protocol ip := by
    unfold Website.serves Website.sameHost Website.Suits
    simp only [Bool.and_eq_true, decide_eq_true_eq, startswith_iff, hpath, drop_pathStart hu]
    constructor
    · rintro ⟨⟨⟨hh, hp⟩, hpr⟩, hi⟩
      exact ⟨hh, hpr, hi, hp⟩
    · rintro ⟨hh, hpr, hi, hp⟩
      exact ⟨⟨⟨hh, hp⟩, hpr⟩, hi⟩
  rw [hs]
  unfold Website.Matches Website.Strays
  cases hwild : w.wildcard with
  | false =>
    rw [sameHost_plain hw hu hwild]
    have hno : ∀ r, hostPort w.url ≠ 42 :: r := by
      intro r hr
      rw [wildcard_of_hostPort hr] at hwild
      cases hwild
    constructor
    · rintro ⟨hh, hs⟩
      exact Or.inl ⟨hs, Or.inl ⟨rfl, hh⟩⟩
    · rintro (⟨hs, ⟨-, hh⟩ | hh⟩ | ⟨-, -, r, -, hr, -⟩)
      · exact ⟨hh, hs⟩
      · exact absurd hh (hno _)
      · exact absurd hr (hno r)
  | true =>
    rw [sameHost_wild hw hu hwild]
    simp only [Bool.true_eq_false, false_and, false_or]
    rw [and_comm, and_or_left]

/-- No website does both: what strays has a port. -/
theorem Website.Strays.not_matches (h : w.Strays url protocol ip) : ¬w.Matches url protocol ip := by
  obtain ⟨-, hno, rest, hne, hh, -⟩ := h
  have hempty : fromColon (hostPort url) = [] := by
    unfold fromColon
    rw [List.dropWhile_eq_nil_iff]
    intro c hc
    simp only [ne_eq, decide_eq_true_eq]
    rintro rfl
    exact hno hc
  rintro ⟨-, ⟨hwild, -⟩ | hh'⟩
  · rw [wildcard_of_hostPort hh] at hwild
    cases hwild
  · rw [hh, hempty] at hh'
    cases hh'
    exact hne rfl

/-! ## The pass over the list -/

/-- The length that the loop compares the next path with. -/
def Website.len (w : Website) : ℕ := w.path.length + (if w.wildcard then 0 else 1)

/-- The best of the websites seen so far, by the loop's own test and the rank. -/
def Leads (url protocol ip : List UInt8) (seen : List Website) (best : ℕ × Option Website) : Prop :=
  best = (0, none) ∧ (∀ w ∈ seen, w.serves url protocol ip = false) ∨
    ∃ b, best = (b.len, some b) ∧ b ∈ seen ∧ b.serves url protocol ip = true ∧
      ∀ w ∈ seen, w.serves url protocol ip = true → w.rank ≤ b.rank

/-- A website takes the place of a lower one, and of an equal one whose host is `*`. -/
theorem len_le_iff (hw : ∀ c ∈ w.url, c ≠ 0) (hm : ∀ c ∈ m.url, c ≠ 0) :
    w.len ≤ m.path.length ↔ w.rank < m.rank ∨ w.rank ≤ m.rank ∧ w.wildcard = true := by
  have hpw : w.path = urlPath w.url := drop_pathStart hw
  have hpm : m.path = urlPath m.url := drop_pathStart hm
  unfold Website.len Website.rank
  rw [hpw, hpm]
  cases w.wildcard <;> cases m.wildcard <;> simp <;> omega

theorem websiteFindStep_leads {seen : List Website} {best : ℕ × Option Website}
    (hs : ∀ w ∈ seen, ∀ c ∈ w.url, c ≠ 0) (hw : ∀ c ∈ w.url, c ≠ 0)
    (h : Leads url protocol ip seen best) :
    Leads url protocol ip (seen ++ [w]) (websiteFindStep url protocol ip best w) := by
  unfold websiteFindStep
  cases hserves : w.serves url protocol ip with
  | false =>
    simp only [Bool.false_and, Bool.false_eq_true, if_false]
    obtain ⟨rfl, hnone⟩ | ⟨b, rfl, hb, hbs, hmax⟩ := h
    · refine Or.inl ⟨rfl, fun v hv => ?_⟩
      obtain hv | hv := List.mem_append.1 hv
      · exact hnone v hv
      · rw [List.mem_singleton.1 hv]
        exact hserves
    · refine Or.inr ⟨b, rfl, List.mem_append_left _ hb, hbs, fun v hv hvs => ?_⟩
      obtain hv | hv := List.mem_append.1 hv
      · exact hmax v hv hvs
      · rw [List.mem_singleton.1 hv, hserves] at hvs
        cases hvs
  | true =>
    simp only [Bool.true_and, decide_eq_true_eq]
    have hmem : w ∈ seen ++ [w] := List.mem_append_right _ (List.mem_singleton.2 rfl)
    obtain ⟨rfl, hnone⟩ | ⟨b, rfl, hb, hbs, hmax⟩ := h
    · -- the first one that serves
      rw [if_pos (Nat.zero_le _)]
      refine Or.inr ⟨w, rfl, hmem, hserves, fun v hv hvs => ?_⟩
      obtain hv | hv := List.mem_append.1 hv
      · rw [hnone v hv] at hvs
        cases hvs
      · rw [List.mem_singleton.1 hv]
    · simp only [len_le_iff (hs b hb) hw]
      split
      · next hle =>
        have hle : b.rank ≤ w.rank := by omega
        refine Or.inr ⟨w, rfl, hmem, hserves, fun v hv hvs => ?_⟩
        obtain hv | hv := List.mem_append.1 hv
        · exact Nat.le_trans (hmax v hv hvs) hle
        · rw [List.mem_singleton.1 hv]
      · next hgt =>
        have hle : w.rank ≤ b.rank := by omega
        refine Or.inr ⟨b, rfl, List.mem_append_left _ hb, hbs, fun v hv hvs => ?_⟩
        obtain hv | hv := List.mem_append.1 hv
        · exact hmax v hv hvs
        · rwa [List.mem_singleton.1 hv]

theorem foldl_leads {seen : List Website} {best : ℕ × Option Website}
    (hs : ∀ w ∈ seen ++ sites, ∀ c ∈ w.url, c ≠ 0) (h : Leads url protocol ip seen best) :
    Leads url protocol ip (seen ++ sites)
      (sites.foldl (websiteFindStep url protocol ip) best) := by
  induction sites generalizing seen best with
  | nil => simpa using h
  | cons w sites ih =>
    rw [List.foldl_cons, List.append_cons]
    apply ih
    · simpa using hs
    · apply websiteFindStep_leads _ _ h
      · exact fun v hv => hs v (List.mem_append_left _ hv)
      · exact hs w (by simp)

/-- What the whole pass keeps. -/
theorem foldl_websiteFindStep (url protocol ip : List UInt8) (hs : ∀ w ∈ sites, ∀ c ∈ w.url, c ≠ 0) :
    Leads url protocol ip sites (sites.foldl (websiteFindStep url protocol ip) (0, none)) := by
  have hstart : Leads url protocol ip [] (0, none) := Or.inl ⟨rfl, by simp⟩
  have hall : ∀ w ∈ [] ++ sites, ∀ c ∈ w.url, c ≠ 0 := by simpa using hs
  simpa using foldl_leads hall hstart

/-- Of the websites that the test accepts, `websiteFind` returns one of the highest rank. -/
theorem websiteFind_best (url protocol ip : List UInt8) (hs : ∀ w ∈ sites, ∀ c ∈ w.url, c ≠ 0) :
    (websiteFind sites url protocol ip = none ↔
        ∀ w ∈ sites, w.serves url protocol ip = false) ∧
      ∀ b, websiteFind sites url protocol ip = some b →
        b ∈ sites ∧ b.serves url protocol ip = true ∧
          ∀ w ∈ sites, w.serves url protocol ip = true → w.rank ≤ b.rank := by
  unfold websiteFind
  obtain ⟨he, hnone⟩ | ⟨b, he, hb, hbs, hmax⟩ :=
    foldl_websiteFindStep url protocol ip hs
  · rw [he]
    exact ⟨⟨fun _ => hnone, fun _ => rfl⟩, fun b hb => by cases hb⟩
  · rw [he]
    constructor
    · constructor
      · intro h
        cases h
      · intro h
        rw [h b hb] at hbs
        cases hbs
    · intro b' hb'
      cases hb'
      exact ⟨hb, hbs, hmax⟩

/-- A host that is no `*` stays found when nothing of a higher rank follows. -/
theorem foldl_keeps_first (hm : ∀ c ∈ m.url, c ≠ 0) (hplain : m.wildcard = false)
    (hs : ∀ w ∈ sites, ∀ c ∈ w.url, c ≠ 0)
    (hmax : ∀ w ∈ sites, w.serves url protocol ip = true → w.rank ≤ m.rank) :
    sites.foldl (websiteFindStep url protocol ip) (m.len, some m) = (m.len, some m) := by
  induction sites with
  | nil => rfl
  | cons w sites ih =>
    have hstep : websiteFindStep url protocol ip (m.len, some m) w = (m.len, some m) := by
      unfold websiteFindStep
      rw [if_neg]
      simp only [Bool.and_eq_true, decide_eq_true_eq, len_le_iff hm (hs w List.mem_cons_self),
        hplain]
      rintro ⟨hserves, hlt | ⟨-, ⟨⟩⟩⟩
      exact absurd (hmax w List.mem_cons_self hserves) (Nat.not_le.2 hlt)
    rw [List.foldl_cons, hstep]
    apply ih
    · exact fun v hv => hs v (List.mem_cons_of_mem _ hv)
    · exact fun v hv => hmax v (List.mem_cons_of_mem _ hv)

/-- Any website of the highest rank is found in some order of the list: the first place is the
best for a host that is no `*`, the last one for `*`. -/
theorem exists_perm_found (hs : ∀ w ∈ sites, ∀ c ∈ w.url, c ≠ 0) (hm : m ∈ sites)
    (hserves : m.serves url protocol ip = true)
    (hmax : ∀ w ∈ sites, w.serves url protocol ip = true → w.rank ≤ m.rank) :
    ∃ sites', sites'.Perm sites ∧ websiteFind sites' url protocol ip = some m := by
  obtain ⟨l, r, rfl⟩ := List.append_of_mem hm
  have hmid : (m :: (l ++ r)).Perm (l ++ m :: r) := List.perm_middle.symm
  have hlr : ∀ {w}, w ∈ l ++ r → w ∈ l ++ m :: r := fun {w} hw =>
    hmid.mem_iff.1 (List.mem_cons_of_mem _ hw)
  cases hwild : m.wildcard with
  | false =>
    refine ⟨m :: (l ++ r), hmid, ?_⟩
    have hstep : websiteFindStep url protocol ip (0, none) m = (m.len, some m) := by
      unfold websiteFindStep
      rw [hserves]
      simp [Website.len]
    unfold websiteFind
    rw [List.foldl_cons, hstep, foldl_keeps_first (hs m hm) hwild]
    · exact fun w hw => hs w (hlr hw)
    · exact fun w hw => hmax w (hlr hw)
  | true =>
    refine ⟨(l ++ r) ++ [m], (List.perm_append_singleton m (l ++ r)).trans hmid, ?_⟩
    unfold websiteFind
    rw [List.foldl_append]
    have hstep : ∀ {best}, Leads url protocol ip (l ++ r) best →
        websiteFindStep url protocol ip best m = (m.len, some m) := by
      intro best hl
      unfold websiteFindStep
      rw [if_pos]
      · rfl
      simp only [hserves, Bool.true_and, decide_eq_true_eq]
      obtain ⟨rfl, -⟩ | ⟨b, rfl, hb, hbs, -⟩ := hl
      · exact Nat.zero_le _
      · rw [len_le_iff (hs b (hlr hb)) (hs m hm)]
        have := hmax b (hlr hb) hbs
        cases hbw : b.wildcard with
        | true => exact Or.inr ⟨this, rfl⟩
        | false =>
          -- of two equal ranks both or none have a `*`
          have hne : b.rank ≠ m.rank := by
            unfold Website.rank
            rw [hbw, hwild]
            simp
            omega
          exact Or.inl (by omega)
    rw [List.foldl_cons, List.foldl_nil, hstep]
    exact foldl_websiteFindStep url protocol ip fun w hw => hs w (hlr hw)

/-! ## The best match -/

theorem IsBest.of_perm {sites' : List Website} (hp : sites'.Perm sites)
    (h : IsBest sites' url protocol ip w) : IsBest sites url protocol ip w :=
  ⟨hp.mem_iff.1 h.1, h.2.1, fun m hm hmm => h.2.2 m (hp.mem_iff.2 hm) hmm⟩

section

variable (hsites : ∀ w ∈ sites, ∀ c ∈ w.url, c ≠ 0) (hurl : ∀ c ∈ url, c ≠ 0)

include hsites hurl

/-- With the straying websites outranked, what is found is a best match. -/
theorem found_isBest
    (hout : ∀ w ∈ sites, w.Strays url protocol ip →
      ∃ m ∈ sites, m.Matches url protocol ip ∧ w.rank < m.rank) :
    (websiteFind sites url protocol ip = none ↔ ∀ w ∈ sites, ¬w.Matches url protocol ip) ∧
      ∀ w, websiteFind sites url protocol ip = some w → IsBest sites url protocol ip w := by
  obtain ⟨hnone, hsome⟩ := websiteFind_best url protocol ip hsites
  have hserved : ∀ {m}, m ∈ sites → m.Matches url protocol ip → m.serves url protocol ip = true :=
    fun {m} hm hmm => (serves_iff (hsites m hm) hurl).2 (Or.inl hmm)
  constructor
  · rw [hnone]
    constructor
    · intro h w hw hm
      have := hserved hw hm
      rw [h w hw] at this
      cases this
    · intro h w hw
      cases hs : w.serves url protocol ip with
      | false => rfl
      | true =>
        obtain hm | hstray := (serves_iff (hsites w hw) hurl).1 hs
        · exact absurd hm (h w hw)
        · obtain ⟨m, hm, hmm, -⟩ := hout w hw hstray
          exact absurd hmm (h m hm)
  · intro w hw
    obtain ⟨hmem, hs, hmax⟩ := hsome w hw
    obtain hm | hstray := (serves_iff (hsites w hmem) hurl).1 hs
    · exact ⟨hmem, hm, fun m hm' hmm => hmax m hm' (hserved hm' hmm)⟩
    · obtain ⟨m, hm, hmm, hlt⟩ := hout w hmem hstray
      exact absurd (hmax m hm (hserved hm hmm)) (Nat.not_le.2 hlt)

/-- **`website_find` finds the best match** exactly when no straying website and no second best
match can take its place. -/
theorem finds_best_iff : FindsBest sites url protocol ip ↔ Unmistakable sites url protocol ip := by
  constructor
  · intro h
    have hout : ∀ w ∈ sites, w.Strays url protocol ip →
        ∃ m ∈ sites, m.Matches url protocol ip ∧ w.rank < m.rank := by
      intro w hw hstray
      have hws : w.serves url protocol ip = true := (serves_iff (hsites w hw) hurl).2 (Or.inr hstray)
      obtain ⟨hnone, hsome⟩ :=
        websiteFind_best url protocol ip hsites
      cases hb : websiteFind sites url protocol ip with
      | none =>
        rw [hnone.1 hb w hw] at hws
        cases hws
      | some b =>
        obtain ⟨hmem, -, hmax⟩ := hsome b hb
        refine ⟨b, hmem, ((h sites (List.Perm.refl _)).2.1 b hb).2.1, ?_⟩
        refine Nat.lt_of_le_of_ne (hmax w hw hws) fun he => ?_
        -- with the same rank, the website that strays is found in another order
        obtain ⟨sites', hp, hf⟩ := exists_perm_found hsites hw hws fun v hv hvs => by
          rw [he]
          exact hmax v hv hvs
        exact hstray.not_matches ((h sites' hp).2.1 w hf).2.1
    refine ⟨hout, fun w m hw hm => ?_⟩
    have hfound : ∀ {b}, IsBest sites url protocol ip b →
        some b = websiteFind sites url protocol ip := by
      intro b hb
      obtain ⟨sites', hp, hf⟩ := exists_perm_found hsites hb.1
        ((serves_iff (hsites b hb.1) hurl).2 (Or.inl hb.2.1)) fun v hv hvs => by
          obtain hvm | hstray := (serves_iff (hsites v hv) hurl).1 hvs
          · exact hb.2.2 v hv hvm
          · obtain ⟨m, hm, hmm, hlt⟩ := hout v hv hstray
            exact Nat.le_trans (Nat.le_of_lt hlt) (hb.2.2 m hm hmm)
      rw [← hf, (h sites' hp).2.2]
    exact Option.some.inj ((hfound hw).trans (hfound hm).symm)
  · rintro ⟨hout, huniq⟩ sites' hp
    have hsites' : ∀ w ∈ sites', ∀ c ∈ w.url, c ≠ 0 := fun w hw => hsites w (hp.mem_iff.1 hw)
    have hout' : ∀ w ∈ sites', w.Strays url protocol ip →
        ∃ m ∈ sites', m.Matches url protocol ip ∧ w.rank < m.rank := by
      intro w hw hstray
      obtain ⟨m, hm, hmm⟩ := hout w (hp.mem_iff.1 hw) hstray
      exact ⟨m, hp.mem_iff.2 hm, hmm⟩
    obtain ⟨hnone, hbest⟩ := found_isBest hsites hurl hout
    obtain ⟨hnone', hbest'⟩ := found_isBest hsites' hurl hout'
    have hnone'' : websiteFind sites' url protocol ip = none ↔
        ∀ w ∈ sites, ¬w.Matches url protocol ip := by
      rw [hnone']
      simp only [hp.mem_iff]
    refine ⟨hnone'', fun w hw => (hbest' w hw).of_perm hp, ?_⟩
    cases hf : websiteFind sites url protocol ip with
    | none => rw [hnone'', ← hnone, hf]
    | some b =>
      cases hf' : websiteFind sites' url protocol ip with
      | none =>
        rw [hnone'', ← hnone, hf] at hf'
        cases hf'
      | some b' =>
        rw [huniq b' b ((hbest' b' hf').of_perm hp) (hbest b hf)]

end

/-- Two best matches differ in the protocol only. -/
theorem IsBest.url_eq (hw : IsBest sites url protocol ip w) (hm : IsBest sites url protocol ip m) :
    w.url = m.url := by
  have hrank : w.rank = m.rank := Nat.le_antisymm (hm.2.2 w hw.1 hw.2.1) (hw.2.2 m hm.1 hm.2.1)
  obtain ⟨-, ⟨⟨-, -, hpw⟩, hhw⟩, -⟩ := hw
  obtain ⟨-, ⟨⟨-, -, hpm⟩, hhm⟩, -⟩ := hm
  -- the rank is even for a host `*`
  have hlen : (urlPath w.url).length = (urlPath m.url).length ∧ w.wildcard = m.wildcard := by
    unfold Website.rank at hrank
    cases hww : w.wildcard <;> cases hmw : m.wildcard <;> simp [hww, hmw] at hrank ⊢ <;> omega
  have hpath : urlPath w.url = urlPath m.url := by
    rw [List.prefix_iff_eq_take.1 hpw, List.prefix_iff_eq_take.1 hpm, hlen.1]
  have hhost : hostPort w.url = hostPort m.url := by
    obtain ⟨hw0, hw⟩ | hw := hhw
    · obtain ⟨-, hm⟩ | hm := hhm
      · rw [hw, hm]
      · rw [hlen.2, wildcard_of_hostPort hm] at hw0
        cases hw0
    · obtain ⟨hm0, hm⟩ | hm := hhm
      · rw [← hlen.2, wildcard_of_hostPort hw] at hm0
        cases hm0
      · rw [hw, hm]
  rw [← hostPort_append w.url, ← hostPort_append m.url, hpath, hhost]

/-- With the protocol that the daemon passes, and no two websites of one URL and address, there
is one best match. -/
theorem IsBest.unique (hp : protocol = ascii "http://" ∨ protocol = ascii "https://")
    (hpw : sites.Pairwise fun w m => ¬(w.fullUrl = m.fullUrl ∧ w.ip = m.ip))
    (hw : IsBest sites url protocol ip w) (hm : IsBest sites url protocol ip m) : w = m := by
  have hfull : ∀ {v}, IsBest sites url protocol ip v → v.fullUrl = protocol ++ v.url := by
    rintro v ⟨-, ⟨⟨⟨r, hr⟩, -, -⟩, -⟩, -⟩
    rw [← hr]
    congr 1
    unfold Website.url
    rw [← hr]
    obtain rfl | rfl := hp
    · have : startswith (ascii "http://" ++ r) (ascii "https://") = false := by
        rw [Bool.eq_false_iff, ne_eq, startswith_iff]
        rintro ⟨t, ht⟩
        simp [ascii] at ht
      rw [this]
      rfl
    · rw [startswith_iff.2 ⟨r, rfl⟩]
      rfl
  have hne : ¬¬(w.fullUrl = m.fullUrl ∧ w.ip = m.ip) := not_not.2 (by
    rw [hfull hw, hfull hm, hw.url_eq hm, hw.2.1.1.2.1, hm.2.1.1.2.1]
    exact ⟨rfl, rfl⟩)
  by_contra hwm
  have : Std.Symm fun w m : Website => ¬(w.fullUrl = m.fullUrl ∧ w.ip = m.ip) :=
    ⟨fun _ _ h hb => h ⟨hb.1.symm, hb.2.symm⟩⟩
  exact hne (hpw.forall hw.1 hm.1 hwm)

/-- A website for every host on port 80. -/
def anyHost : Website := ⟨ascii "http://*:80", 3, ascii "0.0.0.0", 5⟩

/-- One for the files under `/x` of the host `a`. -/
def oneHost : Website := ⟨ascii "http://a:80/x", 4, ascii "0.0.0.0", 6⟩

/-- The condition holds of a request with a port, also with a `:` in its path and with two matches. -/
theorem finds_best_any_host :
    FindsBest [anyHost, oneHost] (ascii "a:80/x:80") (ascii "http://") (ascii "0.0.0.0") := by
  have hsites : ∀ w ∈ [anyHost, oneHost], ∀ c ∈ w.url, c ≠ 0 := by decide +kernel
  have hurl : ∀ c ∈ ascii "a:80/x:80", c ≠ 0 := by decide +kernel
  have hport : (58 : UInt8) ∈ hostPort (ascii "a:80/x:80") := by decide
  refine (finds_best_iff hsites hurl).2 ⟨?_, ?_⟩
  · rintro w - ⟨-, hno, -⟩
    exact absurd hport hno
  · intro w m hw hm
    exact IsBest.unique (Or.inl rfl) (by decide) hw hm

/-- A request without a port, with a `:` in its path: the website for port 80 is found, which
is no match. -/
theorem found_no_match :
    websiteFind [anyHost] (ascii "a/x:80") (ascii "http://") (ascii "0.0.0.0") = some anyHost ∧
      ¬FindsBest [anyHost] (ascii "a/x:80") (ascii "http://") (ascii "0.0.0.0") := by
  have hf : websiteFind [anyHost] (ascii "a/x:80") (ascii "http://") (ascii "0.0.0.0") =
      some anyHost := by decide
  refine ⟨hf, fun h => ?_⟩
  have hm := ((h [anyHost] (List.Perm.refl _)).2.1 anyHost hf).2.1.2
  have hno : ¬(anyHost.wildcard = false ∧ hostPort anyHost.url = hostPort (ascii "a/x:80") ∨
      hostPort anyHost.url = 42 :: fromColon (hostPort (ascii "a/x:80"))) := by decide
  exact hno hm

end Zimr
