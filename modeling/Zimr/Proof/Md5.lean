import Zimr.Lib.Run
import Zimr.Spec.Md5

/-!
# MD5 of a message in pieces

However a message is cut into pieces for `md5_append`, as long as their lengths fit an `int`,
`md5_finish` gives its MD5 digest (`md5_pieces`).
-/

namespace Zimr

variable {pms : Md5State} {msg data p : List UInt8}

/-- What the state is after the message `msg`. -/
structure Md5Of (pms : Md5State) (msg : List UInt8) : Prop where
  abcd : pms.abcd = Blocks.whole 64 md5Process md5Start msg
  buf : pms.buf.take (msg.length % 64) = Blocks.rest 64 msg
  count : pms.count.1.toNat + 2 ^ 32 * pms.count.2.toNat = 8 * msg.length % 2 ^ 64

theorem Md5Of.init (pms : Md5State) : Md5Of (md5Init pms) [] where
  abcd := by
    change (⟨_, _, _, _⟩ : Abcd) = _
    decide
  buf := by simp [Blocks.rest]
  count := rfl

/-! ## The count -/

/-- How far the block is filled. -/
theorem Md5Of.offset (h : Md5Of pms msg) : pms.offset = msg.length % 64 := by
  have hc := h.count
  have h1 := pms.count.1.toNat_lt
  rw [Md5State.offset, UInt32.toNat_and, UInt32.toNat_shiftRight]
  change (pms.count.1.toNat >>> 3) &&& (2 ^ 6 - 1) = _
  rw [Nat.and_two_pow_sub_one_eq_mod, Nat.shiftRight_eq_div_pow]
  omega

theorem Md5Of.countUp (h : Md5Of pms msg) (data : List UInt8) :
    (pms.countUp data.length).count.1.toNat + 2 ^ 32 * (pms.countUp data.length).count.2.toNat =
      8 * (msg ++ data).length % 2 ^ 64 := by
  have hc := h.count
  have h1 := pms.count.1.toNat_lt
  have h2 := pms.count.2.toNat_lt
  rw [List.length_append]
  simp only [Md5State.countUp, UInt32.lt_iff_toNat_lt, UInt32.toNat_add, UInt32.toNat_ofNat',
    Nat.shiftLeft_eq, Nat.shiftRight_eq_div_pow]
  split_ifs with hlt
  · simp only [UInt32.toNat_add, UInt32.toNat_ofNat', UInt32.toNat_one]
    omega
  · simp only [UInt32.toNat_add, UInt32.toNat_ofNat']
    omega

/-! ## Blocks -/

/-- The loop takes all the blocks there are. -/
theorem md5Blocks_eq {n : ℕ} (abcd : Abcd) (h : p.length ≤ n) :
    md5Blocks n abcd p = (Blocks.whole 64 md5Process abcd p, Blocks.rest 64 p) := by
  induction n generalizing abcd p with
  | zero =>
    have h64 : p.length < 64 := by omega
    rw [Blocks.whole_of_lt h64, Blocks.rest_of_lt h64]; rfl
  | succ n ih =>
    simp only [md5Blocks]
    split_ifs with h64
    · have hp : (p.take 64).length = 64 := by rw [List.length_take]; omega
      rw [ih _ (by rw [List.length_drop]; omega)]
      conv_rhs => rw [← List.take_append_drop 64 p]
      rw [Blocks.whole_block (by decide) hp, Blocks.rest_block (by decide) hp]
    · rw [Blocks.whole_of_lt (by omega), Blocks.rest_of_lt (by omega)]

theorem Md5State.copy_take (pms : Md5State) {offset : ℕ} (h : offset + p.length ≤ 64) :
    (pms.copy offset p h).buf.take (offset + p.length) = pms.buf.take offset ++ p := by
  have hl : (pms.buf.take offset ++ p).length = offset + p.length := by
    have := pms.buf_size
    rw [List.length_append, List.length_take]; omega
  rw [← hl]
  exact List.take_left

/-- After the first partial block. -/
theorem md5AppendBlocks_eq (pms : Md5State) (p : List UInt8) :
    (md5AppendBlocks pms p).abcd = Blocks.whole 64 md5Process pms.abcd p ∧
      (md5AppendBlocks pms p).buf.take (p.length % 64) = Blocks.rest 64 p ∧
      (md5AppendBlocks pms p).count = pms.count := by
  have hlen := Blocks.rest_length (n := 64) p
  have heq := md5Blocks_eq pms.abcd (Nat.le_refl p.length)
  simp only [md5AppendBlocks, heq]
  split_ifs with hr
  · have hnil := List.isEmpty_iff.1 hr
    refine ⟨rfl, ?_, rfl⟩
    rw [hnil] at hlen ⊢
    rw [← hlen]; rfl
  · refine ⟨rfl, ?_, rfl⟩
    rw [← hlen, ← Nat.zero_add (List.length _), Md5State.copy_take]; rfl

/-! ## Pieces -/

/-- A piece that ends within the block that was begun. -/
theorem Md5Of.begun (h : Md5Of pms msg) (data : List UInt8) (hlt : pms.offset + data.length < 64) :
    Md5Of ((pms.countUp data.length).copy pms.offset data (Nat.le_of_lt hlt)) (msg ++ data) := by
  have hrest := Blocks.rest_length (n := 64) msg
  have hl : (Blocks.rest 64 msg ++ data).length < 64 := by
    rw [List.length_append, hrest, ← h.offset]; exact hlt
  have hr := Blocks.rest_append (n := 64) (by decide) msg data
  have hmod : (msg ++ data).length % 64 = pms.offset + data.length := by
    rw [← Blocks.rest_length, hr, Blocks.rest_of_lt hl, List.length_append, hrest, h.offset]
  refine ⟨?_, ?_, h.countUp data⟩
  · rw [Blocks.whole_append (by decide), Blocks.whole_of_lt hl, ← h.abcd]; rfl
  · rw [hmod, Md5State.copy_take, hr, Blocks.rest_of_lt hl, ← h.buf, h.offset]; rfl

/-- A piece that fills it. -/
theorem Md5Of.filled {pms' : Md5State} (h : Md5Of pms msg) (p data : List UInt8)
    (hle : pms.offset + p.length ≤ 64) (hfull : pms.offset + p.length = 64)
    (hp : pms' = (pms.countUp (p ++ data).length).copy pms.offset p hle) :
    Md5Of (md5AppendBlocks { pms' with abcd := md5Process pms'.abcd pms'.buf } data)
      (msg ++ (p ++ data)) := by
  have hrest := Blocks.rest_length (n := 64) msg
  have hbuf : pms'.buf = Blocks.rest 64 msg ++ p := by
    have htake : pms'.buf.take (pms.offset + p.length) = pms.buf.take pms.offset ++ p := by
      rw [hp, Md5State.copy_take]; rfl
    rw [hfull, List.take_of_length_le (Nat.le_of_eq pms'.buf_size), h.offset, h.buf] at htake
    exact htake
  have habcd : pms'.abcd = Blocks.whole 64 md5Process md5Start msg := by rw [hp, ← h.abcd]; rfl
  have hl : (Blocks.rest 64 msg ++ p).length = 64 := by
    rw [List.length_append, hrest, ← h.offset]; exact hfull
  have hr : Blocks.rest 64 (msg ++ (p ++ data)) = Blocks.rest 64 data := by
    rw [Blocks.rest_append (by decide), ← List.append_assoc, Blocks.rest_block (by decide) hl]
  obtain ⟨h₁, h₂, h₃⟩ :=
    md5AppendBlocks_eq { pms' with abcd := md5Process pms'.abcd pms'.buf } data
  refine ⟨?_, ?_, ?_⟩
  · rw [h₁, Blocks.whole_append (by decide), ← List.append_assoc,
      Blocks.whole_block (by decide) hl, ← habcd, ← hbuf]
  · rw [← Blocks.rest_length, hr, Blocks.rest_length, h₂]
  · rw [h₃, show pms'.count = _ from congrArg Md5State.count hp]
    exact h.countUp (p ++ data)

/-- **A piece more**, whose length fits an `int` together with the block that was begun. -/
theorem Md5Of.append (h : Md5Of pms msg) (data : List UInt8)
    (hint : pms.offset + data.length < 2147483648) :
    ∃ pms', md5Append pms data data.length = .ok pms' ∧ Md5Of pms' (msg ++ data) := by
  have hlt := pms.offset_lt
  have hsum : intOf (pms.offset + (data.length : ℤ)) = pms.offset + data.length := by
    unfold intOf
    omega
  unfold md5Append
  by_cases hnil : (data.length : ℤ) ≤ 0
  · have hempty : data = [] := List.eq_nil_of_length_eq_zero (by omega)
    rw [if_pos hnil, hempty, List.append_nil]
    exact ⟨pms, rfl, h⟩
  rw [if_neg hnil, if_neg (Int.lt_irrefl _)]
  simp only [Int.toNat_natCast, List.take_length, hsum]
  by_cases h0 : pms.offset = 0
  · -- no block was begun
    rw [if_neg (not_not.2 h0)]
    refine ⟨_, rfl, ?_⟩
    have hb := md5AppendBlocks_eq (pms.countUp data.length) data
    have hr : Blocks.rest 64 msg = [] := List.eq_nil_of_length_eq_zero (by
      rw [Blocks.rest_length, ← h.offset]
      omega)
    have hrst : Blocks.rest 64 (msg ++ data) = Blocks.rest 64 data := by
      rw [Blocks.rest_append (by decide), hr, List.nil_append]
    refine ⟨?_, ?_, ?_⟩
    · rw [hb.1, Blocks.whole_append (by decide), hr, List.nil_append, ← h.abcd]
      rfl
    · rw [← Blocks.rest_length, hrst, Blocks.rest_length, hb.2.1]
    · rw [hb.2.2]
      exact h.countUp data
  rw [if_pos h0]
  by_cases hc : (64 : ℤ) < pms.offset + data.length
  · -- the begun block takes its part, and more comes
    have hlen : (data.take (64 - pms.offset)).length = 64 - pms.offset := by
      rw [List.length_take]
      omega
    have hsplit := List.take_append_drop (64 - pms.offset) data
    rw [if_pos hc, md5AppendPartial, dif_pos (by omega), if_neg (by omega)]
    refine ⟨_, rfl, ?_⟩
    have hfilled := h.filled (data.take (64 - pms.offset)) (data.drop (64 - pms.offset))
      (by omega) (by omega) rfl
    simpa only [hsplit] using hfilled
  · rw [if_neg hc, md5AppendPartial, dif_pos (by rw [List.take_length]; omega)]
    by_cases hfull : pms.offset + data.length < 64
    · -- it stays begun
      rw [if_pos hfull]
      refine ⟨_, rfl, ?_⟩
      simpa only [List.take_length] using h.begun data hfull
    · rw [if_neg hfull]
      refine ⟨_, rfl, ?_⟩
      have hfilled := h.filled data [] (by omega) (by omega) rfl
      simpa only [List.append_nil, List.take_length, List.drop_length] using hfilled

theorem md5Append_none {nbytes : ℤ} (h : nbytes ≤ 0) : md5Append pms data nbytes = .ok pms := by
  unfold md5Append
  exact if_pos h

/-- Only the bytes that are taken matter. -/
theorem md5Append_take {n : ℕ} (hn : n ≤ data.length) :
    md5Append pms data n = md5Append pms (data.take n) (data.take n).length := by
  have hlen : (data.take n).length = n := List.length_take_of_le hn
  unfold md5Append
  rw [hlen, if_neg (by omega : ¬(data.length : ℤ) < n), if_neg (Int.lt_irrefl _)]
  simp only [Int.toNat_natCast, List.take_take, Nat.min_self]

/-- A piece, with its length as an `int`. -/
def md5Piece (pms : Md5State) (piece : List UInt8) : Except BufFault Md5State :=
  md5Append pms piece (intOf piece.length)

theorem Md5Of.piece (h : Md5Of pms msg) (data : List UInt8) (hint : data.length + 63 < 2147483648) :
    ∃ pms', md5Piece pms data = .ok pms' ∧ Md5Of pms' (msg ++ data) := by
  have hlen : intOf data.length = data.length := by
    unfold intOf
    omega
  have hoff := pms.offset_lt
  unfold md5Piece
  rw [hlen]
  exact h.append data (by omega)

theorem Md5Of.pieces {pieces : List (List UInt8)}
    (hint : ∀ piece ∈ pieces, piece.length + 63 < 2147483648) (h : Md5Of pms msg) :
    ∃ pms', Run.run md5Piece pms pieces = .ok pms' ∧ Md5Of pms' (msg ++ pieces.flatten) := by
  induction pieces generalizing pms msg with
  | nil => exact ⟨pms, rfl, by rw [List.flatten_nil, List.append_nil]; exact h⟩
  | cons p ps ih =>
    obtain ⟨pms₁, h₁, hof₁⟩ := h.piece p (hint p List.mem_cons_self)
    obtain ⟨pms₂, h₂, hof₂⟩ := ih (fun q hq => hint q (List.mem_cons_of_mem _ hq)) hof₁
    refine ⟨pms₂, (Run.run_append_ok (Run.run_single h₁) ps).trans h₂, ?_⟩
    rw [List.flatten_cons, ← List.append_assoc]
    exact hof₂

/-! ## The end -/

theorem shifted_byte (w : UInt32) {k : ℕ} (hk : k < 32) :
    (w >>> UInt32.ofNat k).toUInt8 = UInt8.ofNat (w.toNat / 2 ^ k % 256) := by
  have hk' : (UInt32.ofNat k).toNat % 32 = k := by
    rw [UInt32.toNat_ofNat_of_lt' (Nat.lt_trans hk (by decide)), Nat.mod_eq_of_lt hk]
  apply UInt8.toNat_inj.1
  rw [UInt32.toNat_toUInt8, UInt32.toNat_shiftRight, hk', Nat.shiftRight_eq_div_pow,
    UInt8.toNat_ofNat', Nat.mod_mod]

/-- The bytes of a word, the lowest first. -/
theorem count_bytes (w : UInt32) : (List.range 4).map
    (fun i => (w >>> UInt32.ofNat (i <<< 3)).toUInt8) = leBytes 4 w.toNat := by
  simp only [List.range, List.range.loop, List.map_cons, List.map_nil, leBytes]
  rw [shifted_byte w (by decide), shifted_byte w (by decide), shifted_byte w (by decide),
    shifted_byte w (by decide)]
  simp [Nat.div_div_eq_div_mul, Nat.shiftLeft_eq]

theorem leBytes_append (j k v : ℕ) : leBytes (j + k) v = leBytes j v ++ leBytes k (v / 256 ^ j) := by
  induction j generalizing v with
  | zero => simp [leBytes]
  | succ j ih =>
    rw [Nat.add_right_comm]
    simp only [leBytes, ih, List.cons_append, Nat.div_div_eq_div_mul, Nat.pow_succ, Nat.mul_comm]

theorem leBytes_mod (k v w : ℕ) : leBytes k (v + 256 ^ k * w) = leBytes k v := by
  induction k generalizing v with
  | zero => rfl
  | succ k ih =>
    simp only [leBytes]
    have h1 : (v + 256 ^ (k + 1) * w) % 256 = v % 256 := by
      rw [Nat.pow_succ, Nat.mul_comm (256 ^ k), Nat.mul_assoc, Nat.add_mul_mod_self_left]
    have h2 : (v + 256 ^ (k + 1) * w) / 256 = v / 256 + 256 ^ k * w := by
      rw [Nat.pow_succ, Nat.mul_comm (256 ^ k), Nat.mul_assoc, Nat.add_mul_div_left _ _ (by decide)]
    rw [h1, h2, ih]

/-- The count, as it is appended. -/
theorem Md5Of.countBytes (h : Md5Of pms msg) :
    (List.range 8).map (fun i => ((if i >>> 2 = 0 then pms.count.1 else pms.count.2) >>>
      UInt32.ofNat ((i &&& 3) <<< 3)).toUInt8) = leBytes 8 (8 * msg.length % 2 ^ 64) := by
  have h1 := count_bytes pms.count.1
  have h2 := count_bytes pms.count.2
  have hlow : (pms.count.1.toNat + 2 ^ 32 * pms.count.2.toNat) / 2 ^ 32 = pms.count.2.toNat := by
    have := pms.count.1.toNat_lt
    omega
  have hsplit (v : ℕ) : leBytes 8 v = leBytes 4 v ++ leBytes 4 (v / 2 ^ 32) := leBytes_append 4 4 v
  have hmod (v w : ℕ) : leBytes 4 (v + 2 ^ 32 * w) = leBytes 4 v := leBytes_mod 4 v w
  rw [← h.count, hsplit, hmod, hlow, ← h1, ← h2]
  rfl

/-- The registers, as they are given out. -/
theorem Abcd.digest_eq (r : Abcd) : (List.range 16).map (fun i =>
    ((([r.a, r.b, r.c, r.d].getD (i >>> 2) 0)) >>> UInt32.ofNat ((i &&& 3) <<< 3)).toUInt8) =
      r.digest := by
  rw [Abcd.digest, ← count_bytes r.a, ← count_bytes r.b, ← count_bytes r.c, ← count_bytes r.d]
  rfl

/-- How much of `pad` is appended. -/
theorem Md5Of.padding (h : Md5Of pms msg) :
    (((55 : UInt32) - (pms.count.1 >>> 3)) &&& 63).toNat = (119 - msg.length % 64) % 64 := by
  have hoff := h.offset
  rw [Md5State.offset, UInt32.toNat_and] at hoff
  change ((pms.count.1 >>> 3).toNat &&& (2 ^ 6 - 1)) = _ at hoff
  rw [Nat.and_two_pow_sub_one_eq_mod] at hoff
  have hlt := (pms.count.1 >>> 3).toNat_lt
  rw [UInt32.toNat_and, UInt32.toNat_sub]
  change ((2 ^ 32 - (pms.count.1 >>> 3).toNat + 55) % 2 ^ 32) &&& (2 ^ 6 - 1) = _
  rw [Nat.and_two_pow_sub_one_eq_mod]
  omega

/-- **The end of a message.** -/
theorem Md5Of.finish (h : Md5Of pms msg) : md5Finish pms = .ok (md5 msg) := by
  have hpad : md5Padding.length = 64 := rfl
  have htake : md5Padding.take ((119 - msg.length % 64) % 64 + 1) =
      0x80 :: List.replicate ((119 - msg.length % 64) % 64) 0 := by
    rw [md5Padding, List.take_succ_cons, List.take_replicate]
    congr 2
    omega
  obtain ⟨pms₁, h₁, hof₁⟩ := h.append (md5Padding.take ((119 - msg.length % 64) % 64 + 1)) (by
    have := pms.offset_lt
    rw [List.length_take]
    omega)
  obtain ⟨pms₂, h₂, hof₂⟩ := hof₁.append (leBytes 8 (8 * msg.length % 2 ^ 64)) (by
    have := pms₁.offset_lt
    rw [leBytes_length]
    omega)
  rw [← md5Append_take (by omega)] at h₁
  rw [leBytes_length] at h₂
  have hn : ((((55 : UInt32) - (pms.count.1 >>> 3)) &&& 63).toNat : ℤ) + 1 =
      (((119 - msg.length % 64) % 64 + 1 : ℕ) : ℤ) := by
    rw [h.padding]
    rfl
  unfold md5Finish
  simp only [hn, h₁, h.countBytes, bind, Except.bind]
  rw [show md5Append pms₁ (leBytes 8 (8 * msg.length % 2 ^ 64)) 8 = .ok pms₂ from h₂]
  simp only [Abcd.digest_eq]
  rw [hof₂.abcd, htake, md5, md5Pad]
  rfl

/-- **MD5 in pieces**, each short enough that its length and what is left of a block are an `int`. -/
theorem md5_pieces (pms : Md5State) (pieces : List (List UInt8))
    (hint : ∀ piece ∈ pieces, piece.length + 63 < 2147483648) :
    ((Run.run md5Piece (md5Init pms) pieces).bind md5Finish) = .ok (md5 pieces.flatten) := by
  obtain ⟨pms', h, hof⟩ := (Md5Of.init pms).pieces hint
  rw [h]
  exact hof.finish

/-- A state whose memory holds zeros. -/
def blankState : Md5State := ⟨(0, 0), md5Start, List.replicate 64 0, by simp⟩

theorem md5_pieces_abc :
    ((Run.run md5Piece (md5Init blankState) [ascii "a", [], ascii "bc"]).bind md5Finish) =
      .ok [0x90, 0x01, 0x50, 0x98, 0x3c, 0xd2, 0x4f, 0xb0, 0xd6, 0x96, 0x3f, 0x7d, 0x28, 0xe1, 0x7f,
        0x72] := by
  have h := md5_pieces blankState [ascii "a", [], ascii "bc"] (by decide)
  rw [h]
  decide +kernel

/-! ## The tag of a file -/

/-- What `etag_gen` hashes of a path: as many bytes as the `int` says that its length is made. -/
def pathBytes (path : List UInt8) : List UInt8 := path.take (intOf path.length).toNat

/-- **The tag of a file**: the digest of its path and its time, between quotes. -/
theorem etagGen_eq (pms : Md5State) (path : List UInt8) (mtime : UInt64) :
    etagGen pms path mtime = .ok (ascii "\"" ++
      (md5 (pathBytes path ++ leBytes 8 mtime.toNat)).flatMap hexByte ++ ascii "\"") := by
  have hinit := Md5Of.init pms
  have hlen : intOf path.length ≤ path.length ∧ intOf path.length < 2147483648 := by
    unfold intOf
    omega
  have hbytes : (pathBytes path).length = (intOf path.length).toNat :=
    List.length_take_of_le (by omega)
  obtain ⟨pms₁, h₁, hof₁⟩ := hinit.append (pathBytes path) (by
    rw [hinit.offset, hbytes, List.length_nil]
    omega)
  obtain ⟨pms₂, h₂, hof₂⟩ := hof₁.append (leBytes 8 mtime.toNat) (by
    have := pms₁.offset_lt
    rw [leBytes_length]
    omega)
  rw [List.nil_append] at hof₂
  have hpath : md5Append (md5Init pms) path (intOf path.length) = .ok pms₁ := by
    by_cases hneg : intOf path.length ≤ 0
    · -- nothing of the path is taken
      rw [hbytes, Int.toNat_of_nonpos hneg, md5Append_none (by omega)] at h₁
      exact (md5Append_none hneg).trans h₁
    · rw [pathBytes, ← md5Append_take (by omega), Int.toNat_of_nonneg (by omega)] at h₁
      exact h₁
  have htime : md5Append pms₁ (leBytes 8 mtime.toNat) 8 = .ok pms₂ := by
    rw [leBytes_length] at h₂
    exact h₂
  unfold etagGen
  rw [hpath, Run.ok_bind, htime, Run.ok_bind, hof₂.finish, Run.ok_bind]
  rfl

end Zimr
