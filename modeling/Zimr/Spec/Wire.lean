import Zimr.Spec.MsgSwitch

/-!
# Frames on the socket

`msg_switch_write` hands `zs_write` an `int` type and the bytes of a `msg_resp_t` or a
`msg_packet_t`; `msg_switch_read` takes what `zs_read` returned, at most 1024 bytes at a
time, and puts the frames together again.

The buffer of `msg_switch_read` is on the stack. Where the code reads past the bytes that
`zs_read` put there it finds whatever the stack holds; `stack` stands for those bytes.
-/

namespace Zimr

/-- `MSG_TYPE_RESP`, `MSG_TYPE_PACK`. -/
inductive MsgType
  | resp | pack
  deriving DecidableEq, Repr

/-- The number in the `int`. -/
def MsgType.code : MsgType → ℕ
  | .resp => 1
  | .pack => 2

/-- `MSG_TYPE_GET_SIZE`; `msg_resp_t` ends with three bytes of padding. -/
def MsgType.size : MsgType → ℕ
  | .resp => 8
  | .pack => 12 + packDataSize

/-- The `k` bytes of a number, the lowest first. -/
def leBytes : ℕ → ℕ → List UInt8
  | 0, _ => []
  | k + 1, v => UInt8.ofNat (v % 256) :: leBytes k (v / 256)

/-- The number that bytes make. -/
def leNum : List UInt8 → ℕ
  | [] => 0
  | b :: bs => b.toNat + 256 * leNum bs

/-- An `int`, two's complement. -/
def intBytes (z : ℤ) : List UInt8 := leBytes 4 (z % 4294967296).toNat

/-- A frame: its type and the bytes of the structure. -/
structure WireFrame where
  type : MsgType
  body : List UInt8
  size_eq : body.length = type.size

/-- The bytes that `msg_switch_write` hands over. -/
def WireFrame.encode (f : WireFrame) : List UInt8 := leBytes 4 f.type.code ++ f.body

theorem leBytes_length (k v : ℕ) : (leBytes k v).length = k := by
  induction k generalizing v with
  | zero => rfl
  | succ k ih => rw [leBytes, List.length_cons, ih]

/-- `write.data`, for a response or for a packet. -/
def Frame.wire : Frame → WireFrame
  | .resp r =>
    { type := .resp
      body := intBytes r.msgid ++ [if r.status = .ok then 1 else 2] ++ [0, 0, 0]
      size_eq := by simp [intBytes, leBytes_length, MsgType.size] }
  | .pack p =>
    { type := .pack
      body := intBytes p.msgid ++ intBytes p.size ++ intBytes p.type ++
        (p.data ++ List.replicate packDataSize 0).take packDataSize
      size_eq := by simp [intBytes, leBytes_length, MsgType.size]; omega }

/-- `read` and `curr_read_size`: the type, 0 between two frames, and the bytes of the
structure that are there. -/
structure MsgReader where
  type : ℕ
  data : List UInt8
  deriving DecidableEq, Repr

/-- Between two frames. -/
def MsgReader.idle : MsgReader := ⟨0, []⟩

/-- `assert( type == MSG_TYPE_RESP || type == MSG_TYPE_PACK )`. -/
def MsgType.ofCode : ℕ → Option MsgType
  | 1 => some .resp
  | 2 => some .pack
  | _ => none

/-- The bytes `[ pos, pos + len )` of the buffer. -/
def slice (mem : ℕ → UInt8) (pos len : ℕ) : List UInt8 := (List.range len).map fun i => mem (pos + i)

/-- `len_used`, with `n` compared as an unsigned number. -/
def lenUsed (n : ℤ) (room : ℕ) : ℕ := if 0 ≤ n ∧ n < room then n.toNat else room

/-- The `while` of `msg_switch_read`: `n` bytes left, the next one at `pos`. The number
becomes negative when fewer than four were left for a type. Every round that does not
return takes a byte; `none` is the failed `assert`. -/
def msgSwitchReadLoop : ℕ → (ℕ → UInt8) → MsgReader → ℤ → ℕ →
    Option (MsgReader × List (MsgType × List UInt8))
  | 0, _, rd, _, _ => some (rd, [])
  | fuel + 1, mem, rd, n, pos =>
    if 0 < n then
      let type := if rd.type = 0 then leNum (slice mem pos 4) else rd.type
      let n := if rd.type = 0 then n - 4 else n
      let pos := if rd.type = 0 then pos + 4 else pos
      match MsgType.ofCode type with
      | none => none
      | some t =>
        let used := lenUsed n (t.size - rd.data.length)
        let data := rd.data ++ slice mem pos used
        if data.length < t.size then some (⟨type, data⟩, [])
        else
          (msgSwitchReadLoop fuel mem .idle (n - used) (pos + used)).map fun o =>
            (o.1, (t, data) :: o.2)
    else some (rd, [])

/-- `msg_switch_read` for one chunk, with the frames it dispatches. -/
def msgSwitchRead (rd : MsgReader) (chunk : List UInt8) (stack : ℕ → UInt8) :
    Option (MsgReader × List (MsgType × List UInt8)) :=
  msgSwitchReadLoop (chunk.length + 1) (fun i => chunk.getD i (stack i)) rd chunk.length 0

/-- Chunk after chunk. -/
def msgSwitchReads : MsgReader → List (List UInt8 × (ℕ → UInt8)) →
    Option (MsgReader × List (MsgType × List UInt8))
  | rd, [] => some (rd, [])
  | rd, (chunk, stack) :: chunks =>
    match msgSwitchRead rd chunk stack with
    | none => none
    | some (rd, frames) =>
      match msgSwitchReads rd chunks with
      | none => none
      | some (rd, more) => some (rd, frames ++ more)

/-- Where the types of the frames stand in the stream. -/
def typeStarts : ℕ → List WireFrame → List ℕ
  | _, [] => []
  | pos, f :: fs => pos :: typeStarts (pos + f.encode.length) fs

/-- Where the chunks end. -/
def chunkEnds : ℕ → List (List UInt8 × (ℕ → UInt8)) → List ℕ
  | _, [] => []
  | pos, c :: cs => (pos + c.1.length) :: chunkEnds (pos + c.1.length) cs

/-- A chunk ends inside a type. -/
def CutsType (frames : List WireFrame) (chunks : List (List UInt8 × (ℕ → UInt8))) : Prop :=
  ∃ e ∈ chunkEnds 0 chunks, ∃ s ∈ typeStarts 0 frames, s < e ∧ e < s + 4

end Zimr
