import Mathlib.Algebra.Group.Nat.Defs
import Zimr.Lib.Blocks
import Zimr.Spec.Headers

/-!
# MD5 (`md5.c`, and `etag_gen` of `lib/zimr.c`)

The machine is little-endian, and a pointer has the size of a `time_t`, eight bytes. The length
that `md5_append` is given is an `int`: `offset + nbytes` wraps, and of `nbytes << 3` the word takes
the low 32 bits.
-/

namespace Zimr

/-- `md5_state_t`; `abcd` apart, which is all that `md5_process` works on. -/
structure Abcd where
  a : UInt32
  b : UInt32
  c : UInt32
  d : UInt32
  deriving DecidableEq, Repr

structure Md5State where
  /-- `count[0]` and `count[1]`. -/
  count : UInt32 × UInt32
  abcd : Abcd
  buf : List UInt8
  buf_size : buf.length = 64

/-- `X[ k ]`. -/
def md5X (data : List UInt8) (k : ℕ) : UInt32 :=
  (data.getD (4 * k) 0).toUInt32 + ((data.getD (4 * k + 1) 0).toUInt32 <<< 8) +
    ((data.getD (4 * k + 2) 0).toUInt32 <<< 16) + ((data.getD (4 * k + 3) 0).toUInt32 <<< 24)

/-- `ROTATE_LEFT`. -/
def rotateLeft (x n : UInt32) : UInt32 := (x <<< n) ||| (x >>> (32 - n))

def md5F (x y z : UInt32) : UInt32 := (x &&& y) ||| (~~~x &&& z)

def md5G (x y z : UInt32) : UInt32 := (x &&& z) ||| (y &&& ~~~z)

def md5H (x y z : UInt32) : UInt32 := x ^^^ y ^^^ z

def md5I (x y z : UInt32) : UInt32 := y ^^^ (x ||| ~~~z)

/-- `T_MASK`. -/
def tMask : UInt32 := ~~~0

/-- One `SET`, with the registers renamed for the next one: `SET( a, b, c, d, .. )` is followed by
`SET( d, a, b, c, .. )`. -/
def md5Set (f : UInt32 → UInt32 → UInt32 → UInt32) (data : List UInt8) (r : Abcd)
    (op : ℕ × UInt32 × UInt32) : Abcd :=
  let (k, s, ti) := op
  let t := r.a + f r.b r.c r.d + md5X data k + ti
  ⟨r.d, rotateLeft t s + r.b, r.b, r.c⟩

/-- The sixteen operations of each round: `k`, `s` and `Ti`. -/
def md5Round1 : List (ℕ × UInt32 × UInt32) :=
  [(0, 7, tMask ^^^ 0x28955b87), (1, 12, tMask ^^^ 0x173848a9), (2, 17, 0x242070db),
    (3, 22, tMask ^^^ 0x3e423111), (4, 7, tMask ^^^ 0x0a83f050), (5, 12, 0x4787c62a),
    (6, 17, tMask ^^^ 0x57cfb9ec), (7, 22, tMask ^^^ 0x02b96afe), (8, 7, 0x698098d8),
    (9, 12, tMask ^^^ 0x74bb0850), (10, 17, tMask ^^^ 0x0000a44e), (11, 22, tMask ^^^ 0x76a32841),
    (12, 7, 0x6b901122), (13, 12, tMask ^^^ 0x02678e6c), (14, 17, tMask ^^^ 0x5986bc71),
    (15, 22, 0x49b40821)]

def md5Round2 : List (ℕ × UInt32 × UInt32) :=
  [(1, 5, tMask ^^^ 0x09e1da9d), (6, 9, tMask ^^^ 0x3fbf4cbf), (11, 14, 0x265e5a51),
    (0, 20, tMask ^^^ 0x16493855), (5, 5, tMask ^^^ 0x29d0efa2), (10, 9, 0x02441453),
    (15, 14, tMask ^^^ 0x275e197e), (4, 20, tMask ^^^ 0x182c0437), (9, 5, 0x21e1cde6),
    (14, 9, tMask ^^^ 0x3cc8f829), (3, 14, tMask ^^^ 0x0b2af278), (8, 20, 0x455a14ed),
    (13, 5, tMask ^^^ 0x561c16fa), (2, 9, tMask ^^^ 0x03105c07), (7, 14, 0x676f02d9),
    (12, 20, tMask ^^^ 0x72d5b375)]

def md5Round3 : List (ℕ × UInt32 × UInt32) :=
  [(5, 4, tMask ^^^ 0x0005c6bd), (8, 11, tMask ^^^ 0x788e097e), (11, 16, 0x6d9d6122),
    (14, 23, tMask ^^^ 0x021ac7f3), (1, 4, tMask ^^^ 0x5b4115bb), (4, 11, 0x4bdecfa9),
    (7, 16, tMask ^^^ 0x0944b49f), (10, 23, tMask ^^^ 0x4140438f), (13, 4, 0x289b7ec6),
    (0, 11, tMask ^^^ 0x155ed805), (3, 16, tMask ^^^ 0x2b10cf7a), (6, 23, 0x04881d05),
    (9, 4, tMask ^^^ 0x262b2fc6), (12, 11, tMask ^^^ 0x1924661a), (15, 16, 0x1fa27cf8),
    (2, 23, tMask ^^^ 0x3b53a99a)]

def md5Round4 : List (ℕ × UInt32 × UInt32) :=
  [(0, 6, tMask ^^^ 0x0bd6ddbb), (7, 10, 0x432aff97), (14, 15, tMask ^^^ 0x546bdc58),
    (5, 21, tMask ^^^ 0x036c5fc6), (12, 6, 0x655b59c3), (3, 10, tMask ^^^ 0x70f3336d),
    (10, 15, tMask ^^^ 0x00100b82), (1, 21, tMask ^^^ 0x7a7ba22e), (8, 6, 0x6fa87e4f),
    (15, 10, tMask ^^^ 0x01d3191f), (6, 15, tMask ^^^ 0x5cfebceb), (13, 21, 0x4e0811a1),
    (4, 6, tMask ^^^ 0x08ac817d), (11, 10, tMask ^^^ 0x42c50dca), (2, 15, 0x2ad7d2bb),
    (9, 21, tMask ^^^ 0x14792c6e)]

/-- `md5_process`, for the 64 bytes `data`. -/
def md5Process (abcd : Abcd) (data : List UInt8) : Abcd :=
  let r := md5Round1.foldl (md5Set md5F data) abcd
  let r := md5Round2.foldl (md5Set md5G data) r
  let r := md5Round3.foldl (md5Set md5H data) r
  let r := md5Round4.foldl (md5Set md5I data) r
  ⟨abcd.a + r.a, abcd.b + r.b, abcd.c + r.c, abcd.d + r.d⟩

/-- `md5_init`. The buffer is left as it is. -/
def md5Init (pms : Md5State) : Md5State :=
  { pms with
    count := (0, 0)
    abcd := ⟨0x67452301, tMask ^^^ 0x10325476, tMask ^^^ 0x67452301, 0x10325476⟩ }

/-- `memcpy( pms->buf + offset, p, n )`, which stays in the buffer. -/
def Md5State.copy (pms : Md5State) (offset : ℕ) (p : List UInt8) (h : offset + p.length ≤ 64) :
    Md5State :=
  { pms with
    buf := pms.buf.take offset ++ p ++ pms.buf.drop (offset + p.length)
    buf_size := by
      have := pms.buf_size
      simp only [List.length_append, List.length_take, List.length_drop]
      omega }

/-- `for ( ; left >= 64; p += 64, left -= 64 ) md5_process( pms, p );` and what is left then. -/
def md5Blocks : ℕ → Abcd → List UInt8 → Abcd × List UInt8
  | 0, abcd, p => (abcd, p)
  | n + 1, abcd, p =>
    if 64 ≤ p.length then md5Blocks n (md5Process abcd (p.take 64)) (p.drop 64) else (abcd, p)

theorem md5Blocks_left {n : ℕ} {abcd : Abcd} {p : List UInt8} (h : p.length ≤ n) :
    (md5Blocks n abcd p).2.length < 64 := by
  induction n generalizing abcd p with
  | zero => simp only [md5Blocks]; omega
  | succ n ih =>
    simp only [md5Blocks]
    split_ifs with h64
    · exact ih (by rw [List.length_drop]; omega)
    · exact Nat.not_le.1 h64

/-- The full blocks and the final partial block. -/
def md5AppendBlocks (pms : Md5State) (p : List UInt8) : Md5State :=
  let r := md5Blocks p.length pms.abcd p
  let pms' := { pms with abcd := r.1 }
  if r.2.isEmpty then pms'
  else pms'.copy 0 r.2 (by rw [Nat.zero_add]; exact Nat.le_of_lt (md5Blocks_left p.length.le_refl))

/-- `( pms->count[0] >> 3 ) & 63`. -/
def Md5State.offset (pms : Md5State) : ℕ := ((pms.count.1 >>> 3) &&& 63).toNat

theorem Md5State.offset_lt (pms : Md5State) : pms.offset < 64 := by
  rw [Md5State.offset, UInt32.toNat_and]
  exact Nat.lt_succ_of_le Nat.and_le_right

/-- The new length of the message in bits, with the carry into `count[1]`. -/
def Md5State.countUp (pms : Md5State) (nbytes : ℕ) : Md5State :=
  let nbits := UInt32.ofNat (nbytes <<< 3)
  let high := pms.count.2 + UInt32.ofNat (nbytes >>> 29)
  let low := pms.count.1 + nbits
  { pms with count := (low, if low < nbits then high + 1 else high) }

/-- The initial partial block, to which `copy` bytes are added, and what comes behind them. -/
def md5AppendPartial (pms : Md5State) (offset copy : ℕ) (data : List UInt8) :
    Except BufFault Md5State :=
  if h : offset + (data.take copy).length ≤ 64 then
    let pms := pms.copy offset (data.take copy) h
    if offset + copy < 64 then .ok pms
    else .ok (md5AppendBlocks { pms with abcd := md5Process pms.abcd pms.buf } (data.drop copy))
  else .error .outOfBounds

/-- `md5_append`, for `nbytes` of the bytes at `data`. Where the sum wraps, `memcpy` runs over the
buffer. -/
def md5Append (pms : Md5State) (data : List UInt8) (nbytes : ℤ) : Except BufFault Md5State :=
  if nbytes ≤ 0 then .ok pms
  else if data.length < nbytes then .error .outOfBounds
  else
    let data := data.take nbytes.toNat
    let offset := pms.offset
    let pms := pms.countUp nbytes.toNat
    if offset ≠ 0 then
      let copy := if 64 < intOf (offset + nbytes) then 64 - offset else nbytes.toNat
      md5AppendPartial pms offset copy data
    else .ok (md5AppendBlocks pms data)

/-- `pad`. -/
def md5Padding : List UInt8 := 0x80 :: List.replicate 63 0

/-- `md5_finish`; the digest. -/
def md5Finish (pms : Md5State) : Except BufFault (List UInt8) := do
  let word (i : ℕ) := if i >>> 2 = 0 then pms.count.1 else pms.count.2
  let data := (List.range 8).map fun i => (word i >>> UInt32.ofNat ((i &&& 3) <<< 3)).toUInt8
  let pms ← md5Append pms md5Padding ((((55 : UInt32) - (pms.count.1 >>> 3)) &&& 63).toNat + 1)
  let pms ← md5Append pms data 8
  let word (i : ℕ) := [pms.abcd.a, pms.abcd.b, pms.abcd.c, pms.abcd.d].getD (i >>> 2) 0
  return (List.range 16).map fun i => (word i >>> UInt32.ofNat ((i &&& 3) <<< 3)).toUInt8

/-! ## What it is for -/

/-- The state before the first block. -/
def md5Start : Abcd := ⟨0x67452301, 0xefcdab89, 0x98badcfe, 0x10325476⟩

/-- The message with its padding: a byte `0x80`, as few zeros as bring it to eight bytes before
the end of a block, and its length in bits modulo `2^64`. -/
def md5Pad (msg : List UInt8) : List UInt8 :=
  msg ++ (0x80 :: List.replicate ((119 - msg.length % 64) % 64) 0) ++
    leBytes 8 (8 * msg.length % 2 ^ 64)

/-- The registers as bytes. -/
def Abcd.digest (r : Abcd) : List UInt8 :=
  leBytes 4 r.a.toNat ++ leBytes 4 r.b.toNat ++ leBytes 4 r.c.toNat ++ leBytes 4 r.d.toNat

/-- The MD5 digest of a message. -/
def md5 (msg : List UInt8) : List UInt8 :=
  (Blocks.whole 64 md5Process md5Start (md5Pad msg)).digest

/-! ## The tag of a file -/

/-- `%02x`. -/
def hexByte (b : UInt8) : List UInt8 :=
  let digit (n : ℕ) := (ascii "0123456789abcdef").getD n 0
  [digit (b.toNat / 16), digit (b.toNat % 16)]

/-- `etag_gen`. What `strlen` returns is made an `int`. -/
def etagGen (pms : Md5State) (path : List UInt8) (mtime : UInt64) :
    Except BufFault (List UInt8) := do
  let state ← md5Append (md5Init pms) path (intOf path.length)
  let state ← md5Append state (leBytes 8 mtime.toNat) 8
  let digest ← md5Finish state
  return ascii "\"" ++ digest.flatMap hexByte ++ ascii "\""

end Zimr
