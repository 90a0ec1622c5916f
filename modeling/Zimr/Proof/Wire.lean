import Mathlib.Data.List.GetD
import Mathlib.Tactic.Conv
import Zimr.Spec.Wire

/-!
# How the stream is cut does not matter, unless inside a type

`At` says where in the stream of frames the reader stands. A chunk takes it to where the
chunk ends (`readLoop_at`), except when the chunk ends inside the four bytes of a type:
the number of bytes left becomes negative, a frame is made up from the stack, and the next
chunk, whose first byte is one of the zeros of that type, fails the `assert`.
-/

namespace Zimr

/-- The bytes of a list of frames. -/
def encodeAll (fs : List WireFrame) : List UInt8 := (fs.map WireFrame.encode).flatten

/-- What the reader dispatches for a frame. -/
def WireFrame.sent (f : WireFrame) : MsgType × List UInt8 := (f.type, f.body)

/-- The reader `rd` stands before the bytes `s`, which are the rest of the frames `fs`; the
types among them start at `st`. -/
inductive At : MsgReader → List WireFrame → List UInt8 → List ℕ → Prop
  | idle (fs : List WireFrame) : At .idle fs (encodeAll fs) (typeStarts 0 fs)
  | mid (f : WireFrame) (fs : List WireFrame) (d e : List UInt8) (h : f.body = d ++ e) (he : e ≠ []) :
    At ⟨f.type.code, d⟩ (f :: fs) (e ++ encodeAll fs) (typeStarts e.length fs)

/-- A type starts before `n` and does not end there. -/
def CutAt (st : List ℕ) (n : ℕ) : Prop := ∃ x ∈ st, x < n ∧ n < x + 4

/-! ## Types and slices -/

theorem ofCode_code (t : MsgType) : MsgType.ofCode t.code = some t := by cases t <;> rfl

theorem leNum_code (t : MsgType) : leNum (leBytes 4 t.code) = t.code := by cases t <;> rfl

theorem code_ne_zero (t : MsgType) : t.code ≠ 0 := by cases t <;> simp [MsgType.code]

theorem code_bytes (t : MsgType) :
    leBytes 4 t.code = [UInt8.ofNat t.code, 0, 0, 0] := by cases t <;> rfl

theorem ofCode_of_head {b : UInt8} {bs : List UInt8} (hb : b = 0) :
    MsgType.ofCode (leNum (b :: bs)) = none := by
  have hmod : leNum (b :: bs) % 256 = 0 := by
    rw [leNum, hb]
    simp
  cases h : MsgType.ofCode (leNum (b :: bs)) with
  | none => rfl
  | some t =>
    -- 1 and 2 are not multiples of 256
    unfold MsgType.ofCode at h
    split at h
    · rename_i h1; rw [h1] at hmod; cases hmod
    · rename_i h2; rw [h2] at hmod; cases hmod
    · cases h

theorem slice_length (mem : ℕ → UInt8) (pos len : ℕ) : (slice mem pos len).length = len := by
  simp [slice]

theorem slice_eq {mem : ℕ → UInt8} {pos : ℕ} {c : List UInt8}
    (hm : ∀ i, i < c.length → mem (pos + i) = c.getD i 0) {k : ℕ} (hk : k ≤ c.length) :
    slice mem pos k = c.take k := by
  refine List.ext_getElem (by simp [slice, hk]) fun i h₁ h₂ => ?_
  have hi : i < k := by simpa [slice] using h₁
  simp only [slice, List.getElem_map, List.getElem_range, List.getElem_take]
  rw [hm i (by omega), List.getD_eq_getElem _ _ (by omega)]

theorem mem_drop {mem : ℕ → UInt8} {pos : ℕ} {c : List UInt8}
    (hm : ∀ i, i < c.length → mem (pos + i) = c.getD i 0) (k : ℕ) :
    ∀ i, i < (c.drop k).length → mem (pos + k + i) = (c.drop k).getD i 0 := by
  intro i hi
  rw [List.length_drop] at hi
  rw [Nat.add_assoc, hm (k + i) (by omega), List.getD_eq_getElem _ _ (by omega),
    List.getD_eq_getElem _ _ (by rw [List.length_drop]; omega), List.getElem_drop]

theorem lenUsed_lt {n room : ℕ} (h : n < room) : lenUsed n room = n := by
  unfold lenUsed
  rw [if_pos ⟨by omega, by omega⟩, Int.toNat_natCast]

theorem lenUsed_ge {n : ℤ} {room : ℕ} (h : n < 0 ∨ room ≤ n) : lenUsed n room = room := by
  unfold lenUsed
  rw [if_neg (by omega)]

theorem typeStarts_shift (p k : ℕ) (fs : List WireFrame) (x : ℕ) :
    x + k ∈ typeStarts (p + k) fs ↔ x ∈ typeStarts p fs := by
  induction fs generalizing p with
  | nil => simp [typeStarts]
  | cons f fs ih =>
    have := ih (p + f.encode.length)
    rw [show p + f.encode.length + k = p + k + f.encode.length by omega] at this
    simp only [typeStarts, List.mem_cons, this]
    constructor
    · rintro (h | h)
      · exact Or.inl (by omega)
      · exact Or.inr h
    · rintro (h | h)
      · exact Or.inl (by omega)
      · exact Or.inr h

theorem le_of_mem_typeStarts {p x : ℕ} {fs : List WireFrame} (h : x ∈ typeStarts p fs) : p ≤ x := by
  induction fs generalizing p with
  | nil => simp [typeStarts] at h
  | cons f fs ih =>
    rw [typeStarts, List.mem_cons] at h
    rcases h with rfl | h
    · exact Nat.le_refl _
    · have := ih h
      omega

theorem encode_length (f : WireFrame) : f.encode.length = 4 + f.type.size := by
  rw [WireFrame.encode, List.length_append, leBytes_length, f.size_eq]

/-! ## The loop -/

/-- What one chunk does: with `fs` still to come and `c` the bytes that are there. -/
structure Reads (out : Option (MsgReader × List (MsgType × List UInt8))) (fs : List WireFrame)
    (s : List UInt8) (st : List ℕ) (n : ℕ) : Prop where
  ok : ¬CutAt st n → ∃ rd' done fs' st', out = some (rd', done.map WireFrame.sent) ∧
    fs = done ++ fs' ∧ At rd' fs' s st' ∧ ∀ x, x + n ∈ st ↔ x ∈ st'
  cut : CutAt st n → (out = none ∨ ∃ frames, out = some (.idle, frames)) ∧ s.head? = some 0

/-- The reader is inside a frame: the rest of the frame is `e`. -/
theorem readLoop_body {fuel : ℕ} {mem : ℕ → UInt8} {f : WireFrame} {fs : List WireFrame}
    {d e c s : List UInt8} {pos : ℕ} (hd : f.body = d ++ e) (he : e ≠ [])
    (hm : ∀ i, i < c.length → mem (pos + i) = c.getD i 0) (hs : c ++ s = e ++ encodeAll fs)
    (ih : e.length ≤ c.length → Reads (msgSwitchReadLoop fuel mem .idle
      ((c.drop e.length).length : ℕ) (pos + e.length)) fs s (typeStarts 0 fs)
      (c.drop e.length).length) {out : Option (MsgReader × List (MsgType × List UInt8))}
    (hout : out = (let used := lenUsed c.length (f.type.size - d.length)
      let data := d ++ slice mem pos used
      if data.length < f.type.size then some (⟨f.type.code, data⟩, [])
      else
        (msgSwitchReadLoop fuel mem .idle (c.length - used) (pos + used)).map fun o =>
          (o.1, (f.type, data) :: o.2))) :
    Reads out (f :: fs) s (typeStarts e.length fs) c.length := by
  have hsize : f.type.size - d.length = e.length := by
    have := f.size_eq
    rw [hd, List.length_append] at this
    omega
  have htotal : d.length + e.length = f.type.size := by
    rw [← List.length_append, ← hd, f.size_eq]
  have hpos : 0 < e.length := List.length_pos_iff.2 he
  simp only [hsize] at hout
  by_cases hlt : c.length < e.length
  · -- the frame goes on in the next chunk
    rw [lenUsed_lt hlt, if_pos (by rw [List.length_append, slice_length]; omega)] at hout
    have hc : c = e.take c.length := by
      have := congrArg (List.take c.length) hs
      rwa [List.take_left, List.take_append_of_le_length (by omega)] at this
    have hs' : s = e.drop c.length ++ encodeAll fs := by
      have := congrArg (List.drop c.length) hs
      rwa [List.drop_left, List.drop_append_of_le_length (by omega)] at this
    refine ⟨fun _ => ⟨_, [], f :: fs, typeStarts (e.drop c.length).length fs, hout, rfl, ?_, ?_⟩, ?_⟩
    · rw [hs', slice_eq hm (Nat.le_refl _), List.take_length]
      refine At.mid f fs (d ++ c) (e.drop c.length) ?_ ?_
      · rw [hd, List.append_assoc]
        have := List.take_append_drop c.length e
        rw [← hc] at this
        rw [this]
      · intro h
        have := congrArg List.length h
        rw [List.length_drop, List.length_nil] at this
        omega
    · intro x
      rw [List.length_drop, ← typeStarts_shift (e.length - c.length) c.length,
        Nat.sub_add_cancel (Nat.le_of_lt hlt)]
    · rintro ⟨x, hx, h₁, h₂⟩
      have := le_of_mem_typeStarts hx
      omega
  · -- the frame ends here
    have hle : e.length ≤ c.length := by omega
    have hslice : d ++ slice mem pos e.length = f.body := by
      rw [slice_eq hm hle, hd]
      congr 1
      have := congrArg (List.take e.length) hs
      rwa [List.take_left, List.take_append_of_le_length hle] at this
    rw [lenUsed_ge (by omega), hslice, if_neg (by rw [f.size_eq]; omega)] at hout
    have hcast : ((c.length : ℤ) - (e.length : ℕ)) = ((c.drop e.length).length : ℕ) := by
      rw [List.length_drop]; omega
    rw [hcast] at hout
    have hst : ∀ x, x + c.length ∈ typeStarts e.length fs ↔
        x + (c.drop e.length).length ∈ typeStarts 0 fs := by
      intro x
      rw [← typeStarts_shift 0 e.length, List.length_drop, Nat.zero_add]
      have : x + (c.length - e.length) + e.length = x + c.length := by omega
      rw [this]
    have hcut : CutAt (typeStarts e.length fs) c.length ↔
        CutAt (typeStarts 0 fs) (c.drop e.length).length := by
      unfold CutAt
      rw [List.length_drop]
      constructor
      · rintro ⟨x, hx, h₁, h₂⟩
        have hxe := le_of_mem_typeStarts hx
        refine ⟨x - e.length, ?_, by omega, by omega⟩
        rw [← typeStarts_shift 0 e.length, Nat.zero_add, Nat.sub_add_cancel hxe]
        exact hx
      · rintro ⟨x, hx, h₁, h₂⟩
        refine ⟨x + e.length, ?_, by omega, by omega⟩
        rw [← typeStarts_shift 0 e.length, Nat.zero_add] at hx
        exact hx
    have ih := ih hle
    refine ⟨fun hn => ?_, fun hy => ?_⟩
    · obtain ⟨rd', done, fs', st', h₁, h₂, h₃, h₄⟩ := ih.ok fun h => hn (hcut.2 h)
      rw [h₁] at hout
      refine ⟨rd', f :: done, fs', st', hout, by rw [h₂, List.cons_append], h₃, fun x => ?_⟩
      rw [hst, h₄]
    · obtain ⟨h₁ | ⟨frames, h₁⟩, h₂⟩ := ih.cut (hcut.1 hy)
      · rw [h₁] at hout
        exact ⟨Or.inl hout, h₂⟩
      · rw [h₁] at hout
        exact ⟨Or.inr ⟨_, hout⟩, h₂⟩

/-- A type of which fewer than four bytes are there. -/
theorem readLoop_cut {fuel : ℕ} {mem : ℕ → UInt8} {n : ℤ} {pos : ℕ} (hn : 0 < n) (h4 : n < 4) :
    msgSwitchReadLoop (fuel + 1) mem .idle n pos = none ∨
      ∃ frames, msgSwitchReadLoop (fuel + 1) mem .idle n pos = some (.idle, frames) := by
  simp only [msgSwitchReadLoop, if_pos hn, MsgReader.idle, if_true]
  cases ht : MsgType.ofCode (leNum (slice mem pos 4)) with
  | none => exact Or.inl rfl
  | some t =>
    right
    -- what is left counts as more than any frame
    have hused : lenUsed (n - 4) t.size = t.size := lenUsed_ge (Or.inl (by omega))
    simp only [List.length_nil, Nat.sub_zero, hused, List.nil_append, slice_length,
      Nat.lt_irrefl, if_false]
    have hstop : ∀ m : ℤ, m ≤ 0 → ∀ p, msgSwitchReadLoop fuel mem .idle m p = some (.idle, []) := by
      intro m hm p
      cases fuel with
      | zero => rfl
      | succ k => rw [msgSwitchReadLoop, if_neg (by omega)]
    have h := hstop (n - 4 - (t.size : ℕ)) (by omega) (pos + 4 + t.size)
    unfold MsgReader.idle at h
    rw [h]
    exact ⟨_, rfl⟩

/-- The four bytes of the type before the frame. -/
theorem Reads.type {out : Option (MsgReader × List (MsgType × List UInt8))} {f : WireFrame}
    {fs : List WireFrame} {s : List UInt8} {n : ℕ}
    (h : Reads out (f :: fs) s (typeStarts f.body.length fs) n) :
    Reads out (f :: fs) s (typeStarts 0 (f :: fs)) (n + 4) := by
  have hst : typeStarts 0 (f :: fs) = 0 :: typeStarts (f.body.length + 4) fs := by
    rw [typeStarts, encode_length, f.size_eq]
    congr 2
    omega
  have hcut : CutAt (typeStarts 0 (f :: fs)) (n + 4) ↔ CutAt (typeStarts f.body.length fs) n := by
    rw [hst]
    constructor
    · rintro ⟨x, hx, h₁, h₂⟩
      rcases List.mem_cons.1 hx with rfl | hx
      · omega
      · have hle := le_of_mem_typeStarts hx
        refine ⟨x - 4, ?_, by omega, by omega⟩
        rw [← typeStarts_shift _ 4, Nat.sub_add_cancel (by omega)]
        exact hx
    · rintro ⟨x, hx, h₁, h₂⟩
      refine ⟨x + 4, List.mem_cons_of_mem _ ?_, by omega, by omega⟩
      rw [typeStarts_shift]
      exact hx
  refine ⟨fun hn => ?_, fun hy => h.cut (hcut.1 hy)⟩
  obtain ⟨rd', done, fs', st', h₁, h₂, h₃, h₄⟩ := h.ok fun hc => hn (hcut.2 hc)
  refine ⟨rd', done, fs', st', h₁, h₂, h₃, fun x => ?_⟩
  rw [← h₄, hst, List.mem_cons, ← Nat.add_assoc, typeStarts_shift]
  constructor
  · rintro (hx | hx)
    · omega
    · exact hx
  · exact Or.inr

/-- **One chunk.** -/
theorem readLoop_at : ∀ (fuel : ℕ) (mem : ℕ → UInt8) (rd : MsgReader) (fs : List WireFrame)
    (c s : List UInt8) (st : List ℕ) (pos : ℕ), At rd fs (c ++ s) st → c.length < fuel →
    (∀ i, i < c.length → mem (pos + i) = c.getD i 0) →
    Reads (msgSwitchReadLoop fuel mem rd c.length pos) fs s st c.length := by
  intro fuel
  induction fuel with
  | zero => intro mem rd fs c s st pos _ h; omega
  | succ fuel ih =>
    intro mem rd fs c s st pos hat hfuel hm
    rcases Nat.eq_zero_or_pos c.length with h0 | hpos
    · -- nothing there
      have hc : c = [] := List.length_eq_zero_iff.1 h0
      subst hc
      refine ⟨fun _ => ⟨rd, [], fs, st, by rw [msgSwitchReadLoop, if_neg (by simp)]; rfl, rfl, hat,
        fun x => by simp⟩, ?_⟩
      rintro ⟨x, -, h₁, -⟩
      simp at h₁
    · rw [msgSwitchReadLoop, if_pos (by omega)]
      generalize hs₀ : c ++ s = s₀ at hat
      cases hat with
      | mid f fs d e hd he =>
        simp only [if_neg (code_ne_zero f.type), ofCode_code]
        refine readLoop_body hd he hm hs₀ (fun hle => ?_) rfl
        refine ih mem .idle fs (c.drop e.length) s _ _ ?_ (by
          rw [List.length_drop]; have := List.length_pos_iff.2 he; omega) (mem_drop hm e.length)
        have : c.drop e.length ++ s = encodeAll fs := by
          have := congrArg (List.drop e.length) hs₀
          rwa [List.drop_left, List.drop_append_of_le_length hle] at this
        rw [this]
        exact At.idle fs
      | idle =>
        cases fs with
        | nil =>
          have := congrArg List.length hs₀
          simp only [List.length_append, encodeAll, List.map_nil, List.flatten_nil,
            List.length_nil] at this
          omega
        | cons f fs =>
          have henc : encodeAll (f :: fs) = leBytes 4 f.type.code ++ (f.body ++ encodeAll fs) := by
            simp [encodeAll, WireFrame.encode]
          rw [henc] at hs₀
          by_cases h4 : c.length < 4
          · -- the chunk ends inside the type
            have hcut : CutAt (typeStarts 0 (f :: fs)) c.length :=
              ⟨0, by rw [typeStarts]; exact List.mem_cons_self, hpos, by omega⟩
            refine ⟨fun h => absurd hcut h, fun _ => ⟨?_, ?_⟩⟩
            · have hloop : msgSwitchReadLoop (fuel + 1) mem .idle c.length pos = none ∨
                  ∃ frames, msgSwitchReadLoop (fuel + 1) mem .idle c.length pos =
                    some (.idle, frames) := readLoop_cut (by omega) (by omega)
              rw [msgSwitchReadLoop, if_pos (by omega)] at hloop
              exact hloop
            · have := congrArg (fun l => (l.drop c.length).head?) hs₀
              simp only [List.drop_left, code_bytes] at this
              rw [this]
              have h123 : c.length = 1 ∨ c.length = 2 ∨ c.length = 3 := by omega
              rcases h123 with h | h | h <;> rw [h] <;> rfl
          · have hc : c = leBytes 4 f.type.code ++ c.drop 4 := by
              have := congrArg (List.take 4) hs₀
              rw [List.take_append_of_le_length (by omega),
                List.take_left' (leBytes_length 4 _)] at this
              rw [← this, List.take_append_drop]
            have htype : slice mem pos 4 = leBytes 4 f.type.code := by
              rw [slice_eq hm (by omega), hc, List.take_left' (leBytes_length 4 _)]
            have hs₁ : c.drop 4 ++ s = f.body ++ encodeAll fs := by
              have := congrArg (List.drop 4) hs₀
              rwa [List.drop_append_of_le_length (by omega),
                List.drop_left' (leBytes_length 4 _)] at this
            have hn : (c.length : ℤ) - 4 = ((c.drop 4).length : ℕ) := by
              rw [List.length_drop]; omega
            have hne : f.body ≠ [] := by
              intro h
              have := f.size_eq
              rw [h, List.length_nil] at this
              cases ht : f.type <;> rw [ht] at this <;> cases this
            simp only [MsgReader.idle, if_true, htype, leNum_code, ofCode_code, hn]
            have hlen : (c.drop 4).length + 4 = c.length := by rw [List.length_drop]; omega
            have h := Reads.type (readLoop_body (d := []) (List.nil_append _).symm hne
              (mem_drop hm 4) hs₁ (fun hle => by
                refine ih mem .idle fs ((c.drop 4).drop f.body.length) s _ _ ?_ (by
                  rw [List.length_drop, List.length_drop]
                  omega) (mem_drop (mem_drop hm 4) f.body.length)
                have : (c.drop 4).drop f.body.length ++ s = encodeAll fs := by
                  have := congrArg (List.drop f.body.length) hs₁
                  rwa [List.drop_left, List.drop_append_of_le_length hle] at this
                rw [this]
                exact At.idle fs) rfl)
            rw [hlen] at h
            exact h

/-! ## Chunk after chunk -/

theorem msgSwitchRead_at {rd : MsgReader} {fs : List WireFrame} {c s : List UInt8} {st : List ℕ}
    (stack : ℕ → UInt8) (h : At rd fs (c ++ s) st) :
    Reads (msgSwitchRead rd c stack) fs s st c.length := by
  refine readLoop_at (c.length + 1) _ rd fs c s st 0 h (by omega) fun i hi => ?_
  rw [Nat.zero_add, List.getD_eq_getElem _ _ hi, List.getD_eq_getElem _ _ hi]

/-- After a cut type the `assert` fails. -/
theorem msgSwitchRead_zero {c : List UInt8} (stack : ℕ → UInt8) (h : c.head? = some 0) :
    msgSwitchRead .idle c stack = none := by
  cases c with
  | nil => cases h
  | cons b c =>
    have hb : b = 0 := Option.some.inj h
    unfold msgSwitchRead
    rw [msgSwitchReadLoop, if_pos (by simp)]
    have : slice (fun i => (b :: c).getD i (stack i)) 0 4 =
        b :: (List.range 3).map fun i => (b :: c).getD (i + 1) (stack (i + 1)) := rfl
    simp only [MsgReader.idle, if_true, this, ofCode_of_head hb]

theorem At.end_eq {rd : MsgReader} {fs : List WireFrame} {st : List ℕ} (h : At rd fs [] st) :
    rd = .idle ∧ fs = [] := by
  generalize hs : ([] : List UInt8) = s at h
  cases h with
  | idle =>
    refine ⟨rfl, ?_⟩
    cases fs with
    | nil => rfl
    | cons f fs =>
      have := congrArg List.length hs
      simp only [encodeAll, List.map_cons, List.flatten_cons, List.length_append, List.length_nil,
        encode_length] at this
      omega
  | mid f fs d e hd he =>
    have := List.append_eq_nil_iff.1 hs.symm
    exact absurd this.1 he

theorem chunkEnds_shift (p k : ℕ) (cs : List (List UInt8 × (ℕ → UInt8))) :
    chunkEnds (p + k) cs = (chunkEnds p cs).map (· + k) := by
  induction cs generalizing p with
  | nil => rfl
  | cons c cs ih =>
    rw [chunkEnds, chunkEnds, List.map_cons, ← ih]
    rw [show p + k + c.1.length = p + c.1.length + k by omega]

/-- What is cut later, seen from the end of the chunk. -/
theorem cutAt_shift {st st' : List ℕ} {n : ℕ} (hn : ¬CutAt st n) (h : ∀ x, x + n ∈ st ↔ x ∈ st')
    (e : ℕ) : CutAt st (e + n) ↔ CutAt st' e := by
  constructor
  · rintro ⟨x, hx, h₁, h₂⟩
    have hle : n ≤ x := by
      by_contra hlt
      -- a type that starts in this chunk ends in it too
      exact hn ⟨x, hx, by omega, by omega⟩
    refine ⟨x - n, ?_, by omega, by omega⟩
    rw [← h, Nat.sub_add_cancel hle]
    exact hx
  · rintro ⟨x, hx, h₁, h₂⟩
    exact ⟨x + n, (h x).2 hx, by omega, by omega⟩

/-- The bytes of the chunks. -/
def chunkBytes (cs : List (List UInt8 × (ℕ → UInt8))) : List UInt8 := (cs.map Prod.fst).flatten

theorem msgSwitchReads_at (cs : List (List UInt8 × (ℕ → UInt8))) :
    ∀ (rd : MsgReader) (fs : List WireFrame) (st : List ℕ), At rd fs (chunkBytes cs) st →
    (∀ c ∈ cs, c.1 ≠ []) →
    ((¬∃ e ∈ chunkEnds 0 cs, CutAt st e) →
      msgSwitchReads rd cs = some (.idle, fs.map WireFrame.sent)) ∧
    ((∃ e ∈ chunkEnds 0 cs, CutAt st e) → msgSwitchReads rd cs = none) := by
  induction cs with
  | nil =>
    intro rd fs st hat _
    obtain ⟨rfl, rfl⟩ := At.end_eq hat
    refine ⟨fun _ => rfl, ?_⟩
    rintro ⟨e, he, -⟩
    cases he
  | cons c cs ih =>
    intro rd fs st hat hne
    obtain ⟨chunk, stack⟩ := c
    have hreads : Reads (msgSwitchRead rd chunk stack) fs (chunkBytes cs) st chunk.length :=
      msgSwitchRead_at stack hat
    have hends : chunkEnds 0 ((chunk, stack) :: cs) =
        chunk.length :: (chunkEnds 0 cs).map (· + chunk.length) := by
      rw [chunkEnds, chunkEnds_shift, Nat.zero_add]
    have hrest : ∀ c ∈ cs, c.1 ≠ [] := fun c hc => hne c (List.mem_cons_of_mem _ hc)
    by_cases hcut : CutAt st chunk.length
    · refine ⟨fun h => absurd ⟨_, by rw [hends]; exact List.mem_cons_self, hcut⟩ h, fun _ => ?_⟩
      obtain ⟨hnone | ⟨frames, hsome⟩, hhead⟩ := hreads.cut hcut
      · simp only [msgSwitchReads, hnone]
      · cases cs with
        | nil => cases hhead
        | cons c' cs =>
          obtain ⟨chunk', stack'⟩ := c'
          have hz : chunk'.head? = some 0 := by
            have hnil : chunk' ≠ [] := hrest _ List.mem_cons_self
            cases chunk' with
            | nil => exact absurd rfl hnil
            | cons b bs => exact hhead
          simp only [msgSwitchReads, hsome, msgSwitchRead_zero stack' hz]
    · obtain ⟨rd', done, fs', st', hout, hfs, hat', hst⟩ := hreads.ok hcut
      have hlater : (∃ e ∈ chunkEnds 0 ((chunk, stack) :: cs), CutAt st e) ↔
          ∃ e ∈ chunkEnds 0 cs, CutAt st' e := by
        rw [hends]
        constructor
        · rintro ⟨e, he, h⟩
          rcases List.mem_cons.1 he with rfl | he
          · exact absurd h hcut
          · obtain ⟨e', he', rfl⟩ := List.mem_map.1 he
            exact ⟨e', he', (cutAt_shift hcut hst e').1 h⟩
        · rintro ⟨e, he, h⟩
          exact ⟨e + chunk.length, List.mem_cons_of_mem _ (List.mem_map_of_mem he),
            (cutAt_shift hcut hst e).2 h⟩
      obtain ⟨hok, hbad⟩ := ih rd' fs' st' hat' hrest
      refine ⟨fun h => ?_, fun h => ?_⟩
      · simp only [msgSwitchReads, hout, hok fun h' => h (hlater.2 h'), hfs, List.map_append]
      · simp only [msgSwitchReads, hout, hbad (hlater.1 h)]

/-- **What the reader dispatches is what was sent**, however the stream is cut into chunks
and whatever the stack holds, exactly when no chunk ends inside a type. -/
theorem frames_dispatched_iff (frames : List WireFrame)
    (chunks : List (List UInt8 × (ℕ → UInt8))) (hs : chunkBytes chunks = encodeAll frames)
    (hne : ∀ c ∈ chunks, c.1 ≠ []) :
    msgSwitchReads .idle chunks = some (.idle, frames.map WireFrame.sent) ↔
      ¬CutsType frames chunks := by
  have hat : At .idle frames (chunkBytes chunks) (typeStarts 0 frames) := by
    rw [hs]
    exact At.idle frames
  obtain ⟨hok, hbad⟩ := msgSwitchReads_at chunks .idle frames _ hat hne
  constructor
  · intro h hcut
    rw [hbad hcut] at h
    cases h
  · exact hok

/-- A response whose status is `OK`, for msg 1. -/
def okFrame : WireFrame := (Frame.resp ⟨1, .ok, 1, none⟩).wire

/-- The type in one chunk, the structure in the next. -/
theorem frames_dispatched_split :
    msgSwitchReads .idle [([1, 0, 0, 0], fun _ => 0), ([1, 0, 0, 0, 1, 0, 0, 0], fun _ => 0)] =
      some (.idle, [okFrame.sent]) := by
  refine (frames_dispatched_iff [okFrame] [([1, 0, 0, 0], fun _ => 0),
    ([1, 0, 0, 0, 1, 0, 0, 0], fun _ => 0)] (by decide) (by simp)).2 ?_
  unfold CutsType
  decide

/-- The first byte alone: the frame is read from the stack, and the rest fails the `assert`. -/
theorem frames_lost : ¬∀ (frames : List WireFrame) (chunks : List (List UInt8 × (ℕ → UInt8))),
    chunkBytes chunks = encodeAll frames → (∀ c ∈ chunks, c.1 ≠ [] ∧ c.1.length ≤ 1024) →
    msgSwitchReads .idle chunks = some (.idle, frames.map WireFrame.sent) := by
  intro h
  have := h [okFrame] [([1], fun _ => 0), ([0, 0, 0, 1, 0, 0, 0, 1, 0, 0, 0], fun _ => 0)]
    (by decide) (by simp)
  revert this
  decide

end Zimr
