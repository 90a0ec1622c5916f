import Mathlib.Data.List.Infix
import Zimr.Proof.Urldecoder
import Zimr.Spec.Path

/-!
# The canonical path

One round of `normalize_path` does to the buffer and the array what `keep` does to the parts
that are kept (`Holds.round`). So the loop ends with the canonical path, and leaves the
array exactly when a hundred parts are kept at some point (`normalizeLoop_eq`).
-/

namespace Zimr

variable {seg rest path buf : List UInt8} {kept : List (List UInt8)} {idx : List ℕ}

/-! ## Segments -/

/-- The first segment of a path and what follows it. -/
def Splits (seg rest : List UInt8) : Prop :=
  (∃ name, seg = name ++ [47] ∧ ∀ c ∈ name, c ≠ 47) ∨ (rest = [] ∧ seg ≠ [] ∧ ∀ c ∈ seg, c ≠ 47)

theorem segments_name (h : ∀ c ∈ seg, c ≠ 47) (hne : seg ≠ []) : segments seg = [seg] := by
  induction seg with
  | nil => exact absurd rfl hne
  | cons c s ih =>
    rw [segments, if_neg (h c List.mem_cons_self)]
    cases s with
    | nil => rfl
    | cons d s => rw [ih (fun x hx => h x (List.mem_cons_of_mem _ hx)) (List.cons_ne_nil _ _)]

theorem segments_slash {name : List UInt8} (h : ∀ c ∈ name, c ≠ 47) (rest : List UInt8) :
    segments (name ++ 47 :: rest) = (name ++ [47]) :: segments rest := by
  induction name with
  | nil => rw [List.nil_append, segments, if_pos rfl]; rfl
  | cons c s ih =>
    rw [List.cons_append, segments, if_neg (h c List.mem_cons_self),
      ih fun x hx => h x (List.mem_cons_of_mem _ hx)]
    rfl

theorem Splits.segments (h : Splits seg rest) : segments (seg ++ rest) = seg :: segments rest := by
  obtain ⟨name, rfl, hn⟩ | ⟨rfl, hne, hn⟩ := h
  · rw [List.append_assoc]
    exact segments_slash hn rest
  · rw [List.append_nil]
    exact segments_name hn hne

theorem Splits.ne_nil (h : Splits seg rest) : seg ≠ [] := by
  obtain ⟨name, rfl, -⟩ | ⟨-, hne, -⟩ := h
  · simp
  · exact hne

theorem exists_splits (hne : path ≠ []) : ∃ seg rest, path = seg ++ rest ∧ Splits seg rest := by
  by_cases h : ∀ c ∈ path, c ≠ 47
  · exact ⟨path, [], (List.append_nil _).symm, Or.inr ⟨rfl, hne, h⟩⟩
  · have hm : (47 : UInt8) ∈ path := by
      by_contra hno
      exact h fun c hc he => hno (he ▸ hc)
    obtain ⟨name, rest, hp, hn⟩ := List.eq_append_cons_of_mem hm
    exact ⟨name ++ [47], rest, by rw [hp, List.append_assoc]; rfl,
      Or.inl ⟨name, rfl, fun c hc he => hn (he ▸ hc)⟩⟩

theorem segments_flatten (path : List UInt8) : (segments path).flatten = path := by
  induction path with
  | nil => rfl
  | cons c s ih =>
    rw [segments]
    split
    · rename_i hc
      rw [List.flatten_cons, ih, hc]
      rfl
    · split
      · rename_i hs
        rw [hs] at ih
        rw [← ih]
        rfl
      · rename_i seg segs hs
        rw [hs] at ih
        rw [← ih]
        rfl

theorem segName_slash {name : List UInt8} (h : ∀ c ∈ name, c ≠ 47) : segName (name ++ [47]) = name := by
  unfold segName
  rw [List.takeWhile_append_of_pos fun c hc => by simpa using h c hc]
  simp

theorem segName_name (h : ∀ c ∈ seg, c ≠ 47) : segName seg = seg := by
  unfold segName
  rw [List.takeWhile_eq_self_iff]
  intro c hc
  simpa using h c hc

/-- The name of a segment and what `normalize_path` finds around it. -/
theorem Splits.spec (h : Splits seg rest) (hz : ∀ c ∈ seg ++ rest, c ≠ 0) :
    pathStart (seg ++ rest) = (segName seg).length ∧ segName seg <+: seg ++ rest ∧
      (if ((seg ++ rest).drop (segName seg).length).head? = some 47 then (segName seg).length + 1
        else (segName seg).length) = seg.length := by
  unfold pathStart
  obtain ⟨name, rfl, hn⟩ | ⟨rfl, -, hn⟩ := h
  · have hfind : strchr (name ++ [47] ++ rest) 47 = some name.length := by
      unfold strchr
      rw [cstr_eq_self hz, List.append_assoc, List.findIdx?_append]
      have hno : name.findIdx? (fun c => decide (c = 47)) = none := by
        rw [List.findIdx?_eq_none_iff]
        intro c hc
        simpa using hn c hc
      rw [hno]
      simp [List.findIdx?_cons]
    rw [hfind, segName_slash hn]
    refine ⟨rfl, ?_, ?_⟩
    · rw [List.append_assoc]
      exact List.prefix_append _ _
    · rw [List.append_assoc, List.drop_left' rfl, if_pos (by rfl), List.length_append]
      rfl
  · have hfind : strchr (seg ++ []) 47 = none := by
      unfold strchr
      rw [cstr_eq_self hz, List.append_nil, List.findIdx?_eq_none_iff]
      intro c hc
      simpa using hn c hc
    rw [hfind, segName_name hn]
    refine ⟨by simp, by simp, ?_⟩
    simp

/-- The three tests of `is_part`. -/
theorem isPart_eq (hp : segName seg <+: path) (i : ℕ) :
    isPart path (segName seg).length i =
      if segName seg = [46] then (false, i)
      else if segName seg = [46, 46] then (false, i - 1)
      else if segName seg = [] ∧ i ≠ 0 then (false, i)
      else (true, i) := by
  obtain ⟨t, rfl⟩ := hp
  have h1 : ((segName seg).length = 1 ∧ (segName seg ++ t).head? = some 46) ↔ segName seg = [46] := by
    constructor
    · rintro ⟨hl, hh⟩
      obtain ⟨c, hc⟩ := List.length_eq_one_iff.1 hl
      rw [hc] at hh ⊢
      simpa using hh
    · intro he
      rw [he]
      exact ⟨rfl, rfl⟩
  have h2 : ((segName seg).length = 2 ∧ (segName seg ++ t).take 2 = [46, 46]) ↔
      segName seg = [46, 46] := by
    constructor
    · rintro ⟨hl, hh⟩
      rw [List.take_left' hl] at hh
      exact hh
    · intro he
      rw [he]
      exact ⟨rfl, rfl⟩
  have h3 : ((segName seg).length = 0 ∧ i ≠ 0) ↔ segName seg = [] ∧ i ≠ 0 := by
    rw [List.length_eq_zero_iff]
  unfold isPart
  simp only [h1, h2, h3]

/-! ## What a segment does -/

theorem keep_cases (kept : List (List UInt8)) (seg : List UInt8) :
    keep kept seg = kept ∨ keep kept seg = kept.dropLast ∨
      (keep kept seg = kept ++ [seg] ∧ segName seg ≠ [46] ∧ segName seg ≠ [46, 46] ∧
        (segName seg = [] → kept = [])) := by
  unfold keep
  by_cases h1 : segName seg = [46]
  · exact Or.inl (if_pos h1)
  · rw [if_neg h1]
    by_cases h2 : segName seg = [46, 46]
    · exact Or.inr (Or.inl (if_pos h2))
    · rw [if_neg h2]
      by_cases h3 : segName seg = [] ∧ kept ≠ []
      · exact Or.inl (if_pos h3)
      · refine Or.inr (Or.inr ⟨if_neg h3, h1, h2, fun hn => ?_⟩)
        by_contra hne
        exact h3 ⟨hn, hne⟩

theorem mem_keep {x : List UInt8} (h : x ∈ keep kept seg) : x ∈ kept ∨ x = seg := by
  obtain he | he | ⟨he, -⟩ := keep_cases kept seg
  · rw [he] at h; exact Or.inl h
  · rw [he] at h; exact Or.inl (List.mem_of_mem_dropLast h)
  · rw [he, List.mem_append, List.mem_singleton] at h; exact h

/-- What is kept has no NUL. -/
theorem keep_ne_zero (hk : ∀ c ∈ kept.flatten, c ≠ 0) (hs : ∀ c ∈ seg, c ≠ 0) :
    ∀ c ∈ (keep kept seg).flatten, c ≠ 0 := by
  intro c hc
  obtain ⟨s, hs', hc⟩ := List.mem_flatten.1 hc
  rcases mem_keep hs' with hs' | he
  · exact hk c (List.mem_flatten.2 ⟨s, hs', hc⟩)
  · rw [he] at hc
    exact hs c hc

/-! ## The array and the buffer -/

/-- The array says where the parts kept start, and the buffer holds them. -/
structure Holds (buf : List UInt8) (idx : List ℕ) (kept : List (List UInt8)) : Prop where
  length : idx.length = maxPathIndecies
  index : ∀ j, j ≤ kept.length → idx.getD j 0 = (kept.take j).flatten.length
  text : kept.flatten <+: buf

theorem store_prefix {pos : ℕ} {bytes t : List UInt8} (h : t <+: buf) (hpos : pos = t.length) :
    t ++ bytes <+: store buf pos bytes := by
  obtain ⟨u, rfl⟩ := h
  unfold store
  rw [hpos, List.take_left' rfl]
  exact List.prefix_append _ _

/-- The bytes behind what is stored. -/
theorem store_drop {pos off : ℕ} {bytes : List UInt8} (hp : pos ≤ buf.length)
    (h : pos + bytes.length ≤ off) : (store buf pos bytes).drop off = buf.drop off := by
  have hlen : (buf.take pos ++ bytes).length = pos + bytes.length := by
    rw [List.length_append, List.length_take, Nat.min_eq_left hp]
  unfold store
  rw [List.drop_append, hlen, List.drop_eq_nil_of_le (by omega), List.nil_append, List.drop_drop]
  congr 1
  omega

theorem cstr_eq_of_isPrefixOf {t : List UInt8} (h : t ++ [0] <+: buf) (hz : ∀ c ∈ t, c ≠ 0) :
    cstr buf = t := by
  obtain ⟨u, rfl⟩ := h
  unfold cstr
  rw [List.append_assoc, List.takeWhile_append_of_pos fun c hc => by simpa using hz c hc]
  simp

theorem Holds.index_last (h : Holds buf idx kept) :
    idx.getD kept.length 0 = kept.flatten.length := by
  rw [h.index _ (Nat.le_refl _), List.take_length]

/-- The terminator that ends every round. -/
theorem Holds.terminate (h : Holds buf idx kept) :
    Holds (store buf kept.flatten.length [0]) idx kept ∧
      kept.flatten ++ [0] <+: store buf kept.flatten.length [0] := by
  have hp : kept.flatten ++ [0] <+: store buf kept.flatten.length [0] := store_prefix h.text rfl
  exact ⟨⟨h.length, h.index, (List.prefix_append _ _).trans hp⟩, hp⟩

/-- `..` takes the last part off. -/
theorem Holds.dropLast (h : Holds buf idx kept) : Holds buf idx kept.dropLast := by
  have hd : kept.dropLast = kept.take (kept.length - 1) := List.dropLast_eq_take
  refine ⟨h.length, fun j hj => ?_, ?_⟩
  · rw [List.length_dropLast] at hj
    rw [hd, List.take_take, Nat.min_eq_left hj]
    exact h.index j (by omega)
  · rw [hd]
    exact (List.IsPrefix.flatten (List.take_prefix _ _)).trans h.text

/-- A new part, when there is room in the array for where it ends. -/
theorem Holds.append (h : Holds buf idx kept) (hk : kept.length + 1 < maxPathIndecies)
    (seg : List UInt8) :
    Holds (store buf kept.flatten.length seg)
      (idx.take (kept.length + 1) ++
        (kept.flatten.length + seg.length) :: idx.drop (kept.length + 1 + 1)) (kept ++ [seg]) := by
  have hlen := h.length
  have htake : (idx.take (kept.length + 1)).length = kept.length + 1 := by
    rw [List.length_take]; omega
  refine ⟨?_, fun j hj => ?_, ?_⟩
  · rw [List.length_append, htake, List.length_cons, List.length_drop]
    omega
  · rw [List.length_append, List.length_singleton] at hj
    rw [List.getD_eq_getElem?_getD]
    by_cases hlast : j = kept.length + 1
    · subst hlast
      rw [List.getElem?_append_right (by omega), htake, Nat.sub_self,
        List.take_of_length_le (by simp)]
      simp
    · have hj' : j ≤ kept.length := by omega
      rw [List.getElem?_append_left (by omega), List.getElem?_take_of_lt (by omega),
        ← List.getD_eq_getElem?_getD, h.index j hj', List.take_append_of_le_length hj']
  · rw [List.flatten_append, List.flatten_singleton]
    exact store_prefix h.text rfl

/-- **One round.** Only a part that would be the hundredth takes the index out of the array. -/
theorem Holds.round {fuel : ℕ} (h : Holds buf idx kept) (hk : kept.length < maxPathIndecies)
    (hs : Splits seg rest) (hz : ∀ c ∈ seg ++ rest, c ≠ 0) :
    ((keep kept seg).length < maxPathIndecies → ∃ buf' idx', Holds buf' idx' (keep kept seg) ∧
      (keep kept seg).flatten ++ [0] <+: buf' ∧
      (∀ off, (keep kept seg).flatten.length < off → buf'.drop off = buf.drop off) ∧
      normalizeLoop (fuel + 1) buf idx kept.length (seg ++ rest) =
        if rest = [] then some buf'
        else normalizeLoop fuel buf' idx' (keep kept seg).length rest) ∧
    (¬(keep kept seg).length < maxPathIndecies →
      normalizeLoop (fuel + 1) buf idx kept.length (seg ++ rest) = none) := by
  obtain ⟨hn, hp, hn'⟩ := hs.spec hz
  have hdrop : (seg ++ rest).drop seg.length = rest := List.drop_left' rfl
  have htake : (seg ++ rest).take seg.length = seg := List.take_left' rfl
  -- a round in which nothing is copied
  have skip : ∀ kept' : List (List UInt8), Holds buf idx kept' → kept'.length < maxPathIndecies →
      isPart (seg ++ rest) (segName seg).length kept.length = (false, kept'.length) →
      ∃ buf' idx', Holds buf' idx' kept' ∧ kept'.flatten ++ [0] <+: buf' ∧
        (∀ off, kept'.flatten.length < off → buf'.drop off = buf.drop off) ∧
        normalizeLoop (fuel + 1) buf idx kept.length (seg ++ rest) =
          if rest = [] then some buf' else normalizeLoop fuel buf' idx' kept'.length rest := by
    intro kept' hh hk' hpart
    obtain ⟨ht, htext⟩ := hh.terminate
    refine ⟨_, idx, ht, htext, fun off ho => store_drop hh.text.length_le ho, ?_⟩
    have hne : kept'.length ≠ maxPathIndecies := Nat.ne_of_lt hk'
    rw [normalizeLoop]
    simp only [hn, hpart, hn', hdrop, pathIndex, hk', hh.index_last, hne, or_false, if_true,
      Bool.false_eq_true, if_false, Option.pure_def, Option.bind_eq_bind, Option.bind_some]
  unfold keep
  have hpart := isPart_eq hp kept.length
  by_cases h1 : segName seg = [46]
  · rw [if_pos h1] at hpart ⊢
    exact ⟨fun _ => skip kept h hk hpart, fun hno => absurd hk hno⟩
  · rw [if_neg h1] at hpart ⊢
    by_cases h2 : segName seg = [46, 46]
    · rw [if_pos h2] at hpart ⊢
      have hl : kept.dropLast.length = kept.length - 1 := List.length_dropLast
      rw [← hl] at hpart
      exact ⟨fun hlt => skip _ h.dropLast hlt hpart, fun hno => absurd (by omega) hno⟩
    · rw [if_neg h2] at hpart ⊢
      by_cases h3 : segName seg = [] ∧ kept ≠ []
      · rw [if_pos h3]
        rw [if_pos ⟨h3.1, fun h0 => h3.2 (List.eq_nil_of_length_eq_zero h0)⟩] at hpart
        exact ⟨fun _ => skip kept h hk hpart, fun hno => absurd hk hno⟩
      · rw [if_neg h3]
        rw [if_neg fun hc => h3 ⟨hc.1, fun h0 => hc.2 (by rw [h0]; rfl)⟩] at hpart
        have hlen : (kept ++ [seg]).length = kept.length + 1 := by simp
        rw [hlen]
        constructor
        · intro hlt
          have ha := h.append hlt seg
          obtain ⟨ht, htext⟩ := ha.terminate
          have hlast := ha.index_last
          rw [hlen] at hlast
          refine ⟨_, _, ht, htext, fun off ho => ?_, ?_⟩
          · rw [store_drop ha.text.length_le ho, store_drop h.text.length_le]
            rw [List.flatten_append, List.length_append, List.flatten_singleton] at ho
            omega
          have hne : kept.length + 1 ≠ maxPathIndecies := Nat.ne_of_lt hlt
          rw [normalizeLoop]
          simp only [hn, hpart, hn', hdrop, htake, pathIndex, setPathIndex, hk, hlt, h.index_last,
            hlast, hne, or_false, if_true, Option.pure_def, Option.bind_eq_bind, Option.bind_some]
        · intro hno
          rw [normalizeLoop]
          simp only [hn, hpart, hn', htake, pathIndex, setPathIndex, hk, hno, h.index_last, if_true,
            if_false, Option.pure_def, Option.bind_eq_bind, Option.bind_some, Option.bind_none]

/-- The parts stay below the limit as the segments are taken one after the other. -/
def Below (kept : List (List UInt8)) (segs : List (List UInt8)) : Prop :=
  ∀ k, ((segs.take k).foldl keep kept).length < maxPathIndecies

theorem below_cons {segs : List (List UInt8)} :
    Below kept (seg :: segs) ↔ kept.length < maxPathIndecies ∧ Below (keep kept seg) segs := by
  constructor
  · intro h
    exact ⟨h 0, fun k => h (k + 1)⟩
  · rintro ⟨h0, h⟩ k
    cases k with
    | zero => exact h0
    | succ k => exact h k

/-- What is left behind `off` bytes after a round. -/
theorem left_round {t buf' : List UInt8} {off : ℕ} (htext : t ++ [0] <+: buf') (hz : ∀ c ∈ t, c ≠ 0)
    (hdrop : t.length < off → buf'.drop off = buf.drop off) :
    cstr (buf'.drop off) = if off ≤ t.length then t.drop off else cstr (buf.drop off) := by
  split
  · rename_i hle
    apply cstr_eq_of_isPrefixOf
    · have := htext.drop off
      rwa [List.drop_append_of_le_length hle] at this
    · exact fun c hc => hz c (List.mem_of_mem_drop hc)
  · rw [hdrop (by omega)]

/-- **The loop ends with the parts of the path in the buffer**, and leaves behind it what an
earlier path left there, or leaves the array when a hundred are kept. -/
theorem normalizeLoop_eq : ∀ (fuel : ℕ) (buf : List UInt8) (idx : List ℕ)
    (kept : List (List UInt8)) (path : List UInt8), path ≠ [] → path.length < fuel →
    (∀ c ∈ path, c ≠ 0) → (∀ c ∈ kept.flatten, c ≠ 0) → Holds buf idx kept →
    kept.length < maxPathIndecies →
    (Below kept (segments path) → ∃ buf', normalizeLoop fuel buf idx kept.length path = some buf' ∧
      ((segments path).foldl keep kept).flatten ++ [0] <+: buf' ∧
      ∀ off, cstr (buf'.drop off) = leftBehind off (cstr (buf.drop off)) kept (segments path)) ∧
    (¬Below kept (segments path) → normalizeLoop fuel buf idx kept.length path = none) := by
  intro fuel
  induction fuel with
  | zero => intro _ _ _ _ _ h; omega
  | succ fuel ih =>
    intro buf idx kept path hne hfuel hz hkz hh hk
    obtain ⟨seg, rest, rfl, hs⟩ := exists_splits hne
    obtain ⟨hin, hout⟩ := @Holds.round _ _ _ _ _ fuel hh hk hs hz
    rw [hs.segments, below_cons, List.foldl_cons]
    by_cases hlt : (keep kept seg).length < maxPathIndecies
    · obtain ⟨buf', idx', hh', htext, hdrop, heq⟩ := hin hlt
      have hkz' := keep_ne_zero hkz fun c hc => hz c (List.mem_append_left _ hc)
      have hleft (off : ℕ) := left_round htext hkz' (hdrop off)
      rw [heq]
      by_cases hrest : rest = []
      · subst hrest
        rw [if_pos rfl]
        exact ⟨fun _ => ⟨buf', rfl, htext, hleft⟩, fun hno => absurd ⟨hk, fun k => by
          rw [segments, List.take_nil]
          exact hlt⟩ hno⟩
      · rw [if_neg hrest]
        have hseg := List.length_pos_iff.2 hs.ne_nil
        rw [List.length_append] at hfuel
        obtain ⟨h1, h2⟩ := ih buf' idx' (keep kept seg) rest hrest (by omega)
          (fun c hc => hz c (List.mem_append_right _ hc)) hkz' hh' hlt
        refine ⟨fun hb => ?_, fun hno => h2 fun hb => hno ⟨hk, hb⟩⟩
        obtain ⟨buf'', he, ht, hl⟩ := h1 hb.2
        refine ⟨buf'', he, ht, fun off => ?_⟩
        rw [hl off, hleft off]
        rfl
    · exact ⟨fun hb => absurd (hb.2 0) hlt, fun _ => hout hlt⟩

theorem holds_start (normpath : List UInt8) :
    Holds (store normpath 0 [0]) (List.replicate maxPathIndecies 0) [] := by
  refine ⟨List.length_replicate, fun j hj => ?_, List.nil_prefix⟩
  obtain rfl := Nat.le_zero.1 hj
  rfl

/-- **`normalize_path`.** -/
theorem normalizePath_eq (normpath path : List UInt8) :
    (Shallow (cstr path) → ∃ buf, normalizePath normpath path = some buf ∧
      canonicalPath (cstr path) ++ [0] <+: buf ∧ ∀ off, cstr (buf.drop off) =
        leftBehind off (cstr ((store normpath 0 [0]).drop off)) [] (segments (cstr path))) ∧
    (¬Shallow (cstr path) → normalizePath normpath path = none) := by
  unfold normalizePath
  by_cases hne : cstr path = []
  · -- one round, which copies nothing
    rw [hne]
    refine ⟨fun _ => ⟨_, rfl, List.prefix_append _ _, fun off => ?_⟩, fun hno => absurd (fun k => ?_) hno⟩
    · cases off <;> rfl
    · rw [segments, List.take_nil]
      decide
  · exact normalizeLoop_eq _ _ _ [] _ hne (Nat.lt_succ_self _) (fun c hc => cstr_ne_zero hc)
      (by simp) (holds_start normpath) (by decide)

/-- **`normalize_path` stays inside `pathindcies` exactly when the parts it keeps are never a
hundred.** -/
theorem normalize_inside_iff (normpath path : List UInt8) :
    (normalizePath normpath path).isSome ↔ Shallow (cstr path) := by
  obtain ⟨hin, hout⟩ := normalizePath_eq normpath path
  constructor
  · intro h
    by_contra hno
    rw [hout hno] at h
    cases h
  · intro h
    obtain ⟨buf, hb, -, -⟩ := hin h
    rw [hb]
    rfl

/-- A path of a hundred segments writes `pathindcies[ 100 ]`. -/
theorem normalize_outside : ¬∀ normpath path, (normalizePath normpath path).isSome := by
  intro h
  have := h [] (List.replicate 100 (ascii "a/")).flatten
  revert this
  decide +kernel

/-! ## The canonical path -/

/-- Induction over the segments of a path. -/
theorem path_induction {P : List UInt8 → Prop} (nil : P [])
    (step : ∀ seg rest, Splits seg rest → P rest → P (seg ++ rest)) : ∀ path, P path := by
  have key : ∀ n (path : List UInt8), path.length ≤ n → P path := by
    intro n
    induction n with
    | zero =>
      intro path h
      rw [List.eq_nil_of_length_eq_zero (Nat.le_zero.1 h)]
      exact nil
    | succ n ih =>
      intro path h
      by_cases hne : path = []
      · rw [hne]; exact nil
      · obtain ⟨seg, rest, rfl, hs⟩ := exists_splits hne
        have := List.length_pos_iff.2 hs.ne_nil
        rw [List.length_append] at h
        exact step seg rest hs (ih rest (by omega))
  exact fun path => key path.length path (Nat.le_refl _)

/-- A segment that ends with its `/`. -/
def Slashed (seg : List UInt8) : Prop := ∃ name, seg = name ++ [47] ∧ ∀ c ∈ name, c ≠ 47

/-- No part is `.` or `..`, and only the first may be empty. -/
structure Proper (kept : List (List UInt8)) : Prop where
  dots : ∀ seg ∈ kept, segName seg ≠ [46] ∧ segName seg ≠ [46, 46]
  empty : ∀ k seg, kept[k]? = some seg → segName seg = [] → k = 0

theorem proper_nil : Proper [] := ⟨by simp, by simp⟩

theorem Proper.keep (h : Proper kept) (seg : List UInt8) : Proper (keep kept seg) := by
  obtain he | he | ⟨he, h1, h2, h3⟩ := keep_cases kept seg
  · rw [he]; exact h
  · rw [he]
    refine ⟨fun s hs => h.dots s (List.mem_of_mem_dropLast hs), fun k s hk hn => ?_⟩
    rw [List.getElem?_dropLast] at hk
    split at hk
    · exact h.empty k s hk hn
    · cases hk
  · rw [he]
    refine ⟨fun s hs => ?_, fun k s hk hn => ?_⟩
    · rw [List.mem_append, List.mem_singleton] at hs
      rcases hs with hs | rfl
      · exact h.dots s hs
      · exact ⟨h1, h2⟩
    · rcases Nat.lt_or_ge k kept.length with hlt | hge
      · rw [List.getElem?_append_left hlt] at hk
        exact h.empty k s hk hn
      · -- the new part
        rw [List.getElem?_append_right hge, List.getElem?_singleton] at hk
        split at hk
        · cases hk
          have := h3 hn
          subst this
          simp at hge
          omega
        · cases hk

/-- The parts of a whole path: the last may come without a `/`. -/
def Parts (kept : List (List UInt8)) : Prop :=
  (∀ seg ∈ kept, Slashed seg) ∨
    ∃ front last, kept = front ++ [last] ∧ (∀ seg ∈ front, Slashed seg) ∧ last ≠ [] ∧
      ∀ c ∈ last, c ≠ 47

theorem segments_slashed (h : ∀ seg ∈ kept, Slashed seg) (rest : List UInt8) :
    segments (kept.flatten ++ rest) = kept ++ segments rest := by
  induction kept with
  | nil => rfl
  | cons seg kept ih =>
    obtain ⟨name, hname, hn⟩ := h seg List.mem_cons_self
    rw [List.flatten_cons, List.append_assoc, hname, List.append_assoc, List.singleton_append,
      segments_slash hn, ih fun s hs => h s (List.mem_cons_of_mem _ hs)]
    rfl

theorem Parts.segments (h : Parts kept) : segments kept.flatten = kept := by
  obtain h | ⟨front, last, rfl, hf, hne, hl⟩ := h
  · have := segments_slashed h []
    rw [List.append_nil] at this
    rw [this, Zimr.segments, List.append_nil]
  · rw [List.flatten_append, List.flatten_singleton, segments_slashed hf, segments_name hl hne]

theorem foldl_keep_spec : ∀ (path : List UInt8) (kept : List (List UInt8)),
    (∀ seg ∈ kept, Slashed seg) → Proper kept →
    Parts ((segments path).foldl keep kept) ∧ Proper ((segments path).foldl keep kept) := by
  intro path
  induction path using path_induction with
  | nil => intro kept hs hp; exact ⟨Or.inl hs, hp⟩
  | step seg rest h ih =>
    intro kept hs hp
    rw [h.segments, List.foldl_cons]
    obtain hslash | ⟨rfl, hne, hseg⟩ := h
    · refine ih _ (fun x hx => ?_) (hp.keep seg)
      rcases mem_keep hx with hx | rfl
      · exact hs x hx
      · exact hslash
    · refine ⟨?_, hp.keep seg⟩
      show Parts (keep kept seg)
      obtain he | he | ⟨he, -⟩ := keep_cases kept seg
      · rw [he]; exact Or.inl hs
      · rw [he]; exact Or.inl fun x hx => hs x (List.mem_of_mem_dropLast hx)
      · rw [he]; exact Or.inr ⟨kept, seg, rfl, hs, hne, hseg⟩

/-- Proper parts are kept as they are. -/
theorem Proper.foldl_keep : ∀ (segs kept : List (List UInt8)), Proper (kept ++ segs) →
    segs.foldl Zimr.keep kept = kept ++ segs := by
  intro segs
  induction segs with
  | nil => intro kept _; rw [List.append_nil]; rfl
  | cons seg segs ih =>
    intro kept h
    obtain ⟨h1, h2⟩ := h.dots seg (by simp)
    have h3 : ¬(segName seg = [] ∧ kept ≠ []) := by
      rintro ⟨hn, hne⟩
      have := h.empty kept.length seg (by simp) hn
      exact hne (List.eq_nil_of_length_eq_zero this)
    have hk : Zimr.keep kept seg = kept ++ [seg] := by
      rw [Zimr.keep, if_neg h1, if_neg h2, if_neg h3]
    rw [List.foldl_cons, hk, ih _ (by rw [List.append_assoc]; exact h), List.append_assoc]
    rfl

theorem Proper.take (h : Proper kept) (k : ℕ) : Proper (kept.take k) := by
  refine ⟨fun s hs => h.dots s (List.mem_of_mem_take hs), fun j s hj hn => ?_⟩
  rw [List.getElem?_take] at hj
  split at hj
  · exact h.empty j s hj hn
  · cases hj

theorem mem_foldl_keep {x : List UInt8} : ∀ (segs kept : List (List UInt8)),
    x ∈ segs.foldl keep kept → x ∈ kept ∨ x ∈ segs := by
  intro segs
  induction segs with
  | nil => intro kept h; exact Or.inl h
  | cons seg segs ih =>
    intro kept h
    rcases ih _ h with h | h
    · rcases mem_keep h with h | rfl
      · exact Or.inl h
      · exact Or.inr List.mem_cons_self
    · exact Or.inr (List.mem_cons_of_mem _ h)

theorem foldl_keep_length : ∀ (segs kept : List (List UInt8)),
    (segs.foldl keep kept).flatten.length ≤ kept.flatten.length + segs.flatten.length := by
  intro segs
  induction segs with
  | nil => intro kept; simp
  | cons seg segs ih =>
    intro kept
    rw [List.foldl_cons, List.flatten_cons, List.length_append]
    have hk : (keep kept seg).flatten.length ≤ kept.flatten.length + seg.length := by
      obtain he | he | ⟨he, -⟩ := keep_cases kept seg
      · rw [he]; omega
      · rw [he, List.dropLast_eq_take]
        have := (List.IsPrefix.flatten (List.take_prefix (kept.length - 1) kept)).length_le
        omega
      · rw [he, List.flatten_append, List.length_append, List.flatten_singleton]
    have := ih (keep kept seg)
    omega

/-- The parts that are kept of a path. -/
theorem keptParts_spec (path : List UInt8) :
    Parts (keptParts (segments path)) ∧ Proper (keptParts (segments path)) :=
  foldl_keep_spec path [] (by simp) proper_nil

theorem canonicalPath_segments (path : List UInt8) :
    segments (canonicalPath path) = keptParts (segments path) :=
  (keptParts_spec path).1.segments

theorem canonicalPath_idem (path : List UInt8) :
    canonicalPath (canonicalPath path) = canonicalPath path := by
  have h := Proper.foldl_keep _ [] (keptParts_spec path).2
  unfold canonicalPath at h ⊢
  rw [(keptParts_spec path).1.segments]
  exact congrArg List.flatten h

theorem Shallow.canonicalPath (h : Shallow path) : Shallow (canonicalPath path) := by
  intro k
  rw [canonicalPath_segments]
  have hp := (keptParts_spec path).2.take k
  have hk : keptParts ((keptParts (segments path)).take k) = (keptParts (segments path)).take k :=
    Proper.foldl_keep _ [] hp
  have hfull := h (segments path).length
  rw [List.take_length] at hfull
  rw [hk, List.length_take]
  omega

theorem canonicalPath_ne_zero (h : ∀ c ∈ path, c ≠ 0) : ∀ c ∈ canonicalPath path, c ≠ 0 := by
  intro c hc
  obtain ⟨seg, hseg, hc⟩ := List.mem_flatten.1 hc
  rcases mem_foldl_keep _ _ hseg with hseg | hseg
  · cases hseg
  · refine h c ?_
    rw [← segments_flatten path]
    exact List.mem_flatten.2 ⟨seg, hseg, hc⟩

/-- **`normalize_path` computes the canonical path**, which has no `.` and no `..`, no empty
segment but a leading one, is not longer than the path, and stays what it is. -/
theorem normalize_canonical (normpath path : List UInt8) (h : Shallow (cstr path)) :
    ∃ buf, normalizePath normpath path = some buf ∧ cstr buf = canonicalPath (cstr path) ∧
      (∀ seg ∈ segments (cstr buf), segName seg ≠ [46] ∧ segName seg ≠ [46, 46]) ∧
      (∀ k seg, (segments (cstr buf))[k]? = some seg → segName seg = [] → k = 0) ∧
      (cstr buf).length ≤ (cstr path).length ∧
      ∀ other, ∃ buf', normalizePath other buf = some buf' ∧ cstr buf' = cstr buf := by
  have hz := @canonicalPath_ne_zero (cstr path) fun c hc => cstr_ne_zero hc
  obtain ⟨buf, hb, hp, -⟩ := (normalizePath_eq normpath path).1 h
  have hc := cstr_eq_of_isPrefixOf hp hz
  obtain ⟨-, hproper⟩ := keptParts_spec (cstr path)
  refine ⟨buf, hb, hc, ?_, ?_, ?_, fun other => ?_⟩
  · rw [hc, canonicalPath_segments]
    exact hproper.dots
  · rw [hc, canonicalPath_segments]
    exact hproper.empty
  · rw [hc]
    have := foldl_keep_length (segments (cstr path)) []
    rw [segments_flatten] at this
    simpa [canonicalPath, keptParts] using this
  · obtain ⟨buf', hb', hp', -⟩ := (normalizePath_eq other buf).1 (by rw [hc]; exact h.canonicalPath)
    rw [hc, canonicalPath_idem] at hp'
    exact ⟨buf', hb', by rw [cstr_eq_of_isPrefixOf hp' hz, hc]⟩

theorem normalize_canonical_dots : Shallow (cstr (ascii "/a/../b//./c/")) ∧
    ∃ buf, normalizePath [] (ascii "/a/../b//./c/") = some buf ∧ cstr buf = ascii "/b/c/" := by
  have hs : Shallow (cstr (ascii "/a/../b//./c/")) :=
    (normalize_inside_iff [] (ascii "/a/../b//./c/")).1 (by decide)
  obtain ⟨buf, hb, hc, -⟩ := normalize_canonical [] (ascii "/a/../b//./c/") hs
  refine ⟨hs, buf, hb, hc.trans ?_⟩
  decide

end Zimr
