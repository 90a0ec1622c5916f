import Zimr.Proof.Wakeup

/-!
# The bytes of a connection

`ReadOK` and `SendOK` tie the buffers of a connection without SSL to the record of what went
through it. Every move keeps them, which gives `reads_lose_nothing` and `writes_complete`.
-/

namespace Zimr

open Run

variable {t t' : Traced} {fd : ℕ} {zs zs' : Zsocket} {c : Cell} {r : RwRes} {l l' : SockLog}

/-! ## Reading -/

/-- What is delivered and not returned is in the buffer, and the buffer is filled only when it
is empty. -/
structure ReadOK (zs : Zsocket) (l : SockLog) : Prop where
  size : zs.read.buffer.length = zsReadSize
  room : zs.read.pos + zs.read.used ≤ zsReadSize
  held : l.delivered = l.returned ++ (zs.read.buffer.drop zs.read.pos).take zs.read.used.toNat
  empty : zs.status.readable = false →
    zs.read.used = 0 ∧ zs.read.pos = 0 ∧ zs.read.rwErrno = none ∧ zs.status.eof = false
  full : zs.status.readable = true → zs.read.rwErrno = none →
    0 ≤ zs.read.used ∧ (zs.read.used = 0 ↔ zs.status.eof = true)
  failed : ∀ e, zs.read.rwErrno = some e → zs.read.used = -1 ∧ l.readErrno = some e
  ended : zs.status.eof = true → l.ended = true

theorem ReadOK.congr (h : ReadOK zs l) (hr : zs'.read = zs.read)
    (hrd : zs'.status.readable = zs.status.readable) (he : zs'.status.eof = zs.status.eof)
    (h₁ : l'.delivered = l.delivered) (h₂ : l'.returned = l.returned) (h₃ : l'.ended = l.ended)
    (h₄ : l'.readErrno = l.readErrno) : ReadOK zs' l' := by
  obtain ⟨a, b, d, e, f, g, i⟩ := h
  constructor
  · rw [hr]; exact a
  · rw [hr]; exact b
  · rw [hr, h₁, h₂]; exact d
  · rw [hr, hrd, he]; exact e
  · rw [hr, hrd, he]; exact f
  · rw [hr, h₄]; exact g
  · rw [he, h₃]; exact i

/-- Nothing is in the buffer. -/
theorem ReadOK.all_returned (h : ReadOK zs l) (hu : zs.read.used ≤ 0) : l.returned = l.delivered := by
  have hz : zs.read.used.toNat = 0 := Int.toNat_of_nonpos hu
  rw [h.held, hz, List.take_zero, List.append_nil]

/-- **The reader**, with an empty buffer. -/
theorem ReadOK.reader (hs : zs.read.buffer.length = zsReadSize) (hu : zs.read.used = 0)
    (hp : zs.read.pos = 0) (he : zs.read.rwErrno = none) (hrd : zs.status.readable = false)
    (heof : zs.status.eof = false) (hl : l.delivered = l.returned) :
    ReadOK (zs.readPlain r) (l.read zs r) := by
  have hstay : ReadOK { zs with status.wantReadFromRead := true } l := by
    refine ⟨hs, ?_, ?_, fun _ => ⟨hu, hp, he, heof⟩, fun h => ?_, fun e h => ?_, fun h => ?_⟩
    · simp only [hu, hp]
      decide
    · simp [hu, hl]
    · simp only [hrd] at h
      cases h
    · simp only [he] at h
      cases h
    · simp only [heof] at h
      cases h
  cases r with
  | wantRead => exact hstay
  | wantWrite => exact hstay
  | fail k e =>
    refine ⟨hs, ?_, ?_, fun h => ?_, fun _ h => ?_, fun e' h => ?_, fun h => ?_⟩
    · simp only [Zsocket.readPlain, Zsocket.got, hp]
      decide
    · simp [Zsocket.readPlain, Zsocket.got, SockLog.read, hl]
    · cases h
    · cases h
    · cases h
      exact ⟨rfl, rfl⟩
    · have : zs.status.eof = true := h
      rw [heof] at this
      cases this
  | bytes bs =>
    unfold Zsocket.readPlain SockLog.read
    simp only [hu, Int.sub_zero, Int.toNat_natCast]
    split
    · rename_i hb
      rw [hb]
      refine ⟨hs, ?_, ?_, fun h => ?_, fun _ _ => ?_, fun e h => ?_, fun _ => ?_⟩
      · simp only [Zsocket.got, hu, hp]
        decide
      · simp [Zsocket.got, hu, hl]
      · cases h
      · simp [Zsocket.got, hu]
      · have : zs.read.rwErrno = some e := h
        rw [he] at this
        cases this
      · simp
    · rename_i hb
      -- the bytes go to the front of the buffer
      have hlen : (bs.take zsReadSize).length ≤ zsReadSize := List.length_take_le _ _
      have hpos : 0 < (bs.take zsReadSize).length := List.length_pos_iff.2 hb
      refine ⟨?_, ?_, ?_, fun h => ?_, fun _ _ => ?_, fun e h => ?_, fun h => ?_⟩
      · simp only [Zsocket.got, Int.toNat_zero, List.take_zero, List.nil_append, Nat.zero_add,
          List.length_append, List.length_drop, hs]
        omega
      · simp only [Zsocket.got, hp]
        omega
      · simp only [Zsocket.got, hp, hl, List.drop_zero, Int.toNat_zero, List.take_zero, List.nil_append,
          Int.zero_add, Int.toNat_natCast, Nat.zero_add]
        rw [List.take_left]
      · cases h
      · simp only [Zsocket.got, heof]
        constructor
        · omega
        · constructor
          · intro h
            omega
          · intro h
            cases h
      · have : zs.read.rwErrno = some e := h
        rw [he] at this
        cases this
      · have : zs.status.eof = true := h
        rw [heof] at this
        cases this

/-! ## The reader does not write, the writer does not read -/

theorem Zsocket.writePlain_read (zs : Zsocket) (r : RwRes) : (zs.writePlain r).read = zs.read := by
  cases r with
  | bytes bs => unfold Zsocket.writePlain; simp only; split <;> rfl
  | _ => rfl

theorem Zsocket.readPlain_write (zs : Zsocket) (r : RwRes) : (zs.readPlain r).write = zs.write := by
  cases r with
  | bytes bs => unfold Zsocket.readPlain; simp only; split <;> rfl
  | _ => rfl

/-! ## The moves keep what is read -/

theorem ReadOK.writeEvent (h : ReadOK zs l) : ReadOK (zs.toWrite.writePlain r) (l.write zs r) := by
  have hl : (l.write zs r).delivered = l.delivered ∧ (l.write zs r).returned = l.returned ∧
      (l.write zs r).ended = l.ended ∧ (l.write zs r).readErrno = l.readErrno := by
    cases r <;> exact ⟨rfl, rfl, rfl, rfl⟩
  refine h.congr (zs.toWrite.writePlain_read r) ?_ ?_ hl.1 hl.2.1 hl.2.2.1 hl.2.2.2
  · obtain hs | hs := zs.toWrite.writePlain_status r <;> rw [hs] <;> rfl
  · obtain hs | hs := zs.toWrite.writePlain_status r <;> rw [hs] <;> rfl

/-- **The read callback** runs with an empty buffer. -/
theorem ReadOK.readEvent (h : ReadOK zs l) (hp : zs.Plain) (hrd : zs.status.readable = false) :
    ReadOK (zs.toRead.readPlain r) (l.read zs r) := by
  obtain ⟨hu, hpos, he, heof⟩ := h.empty hrd
  have hst := hp.toRead
  have hread : zs.toRead.read = zs.read := by
    unfold Zsocket.toRead Zsocket.startRead
    split <;> rfl
  have hlog : l.read zs r = l.read zs.toRead r := by
    unfold SockLog.read
    rw [hread]
  rw [hlog]
  apply ReadOK.reader
  · rw [hread]; exact h.size
  · rw [hread]; exact hu
  · rw [hread]; exact hpos
  · rw [hread]; exact he
  · rw [hst]; exact hrd
  · rw [hst]; exact heof
  · exact (h.all_returned (Int.le_of_eq hu)).symm

/-- `zs_read` returns what is at the front of the buffer. -/
theorem ReadOK.taken (h : ReadOK zs l) (hrd : zs.status.readable = true) (he : zs.read.rwErrno = none)
    (n : ℕ) :
    (zs.take n).read.buffer = zs.read.buffer ∧ 0 ≤ (zs.take n).read.used ∧
      (zs.take n).read.pos + (zs.take n).read.used ≤ zsReadSize ∧
      l.delivered = l.returned ++ zs.taken n ++
        ((zs.take n).read.buffer.drop (zs.take n).read.pos).take (zs.take n).read.used.toNat := by
  obtain ⟨h0, -⟩ := h.full hrd he
  have hroom := h.room
  obtain ⟨u, hu'⟩ := Int.eq_ofNat_of_zero_le h0
  have hmin : (min zs.read.used (n : ℤ)).toNat = min u n := by rw [hu']; omega
  have hused : (zs.take n).read.used = ((u - min u n : ℕ) : ℤ) := by
    show zs.read.used - min zs.read.used (n : ℤ) = _
    rw [hu']
    omega
  have hpos : (zs.take n).read.pos = zs.read.pos + min u n := by
    show zs.read.pos + (min zs.read.used (n : ℤ)).toNat = _
    rw [hmin]
  refine ⟨rfl, by rw [hused]; omega, by rw [hused, hpos]; omega, ?_⟩
  rw [hused, hpos, Int.toNat_natCast]
  unfold Zsocket.taken
  rw [hmin, List.append_assoc]
  show _ = _ ++ (_ ++ (zs.read.buffer.drop (zs.read.pos + min u n)).take (u - min u n))
  rw [← List.drop_drop, ← List.take_add, Nat.add_sub_cancel' (Nat.min_le_left u n), h.held, hu',
    Int.toNat_natCast]

/-- The end of `zs_read`: an empty buffer is filled again. -/
theorem ReadOK.refill {bs : List UInt8} (hs : c.sock.read.buffer.length = zsReadSize)
    (he : c.sock.read.rwErrno = none) (hl : l.delivered = l.returned ++ bs)
    (hd : (c.sock.read.used = 0 && !c.sock.status.eof) = true) :
    ReadOK (c.refill r).sock
      { l.refill c.sock r with returned := (l.refill c.sock r).returned ++ bs } := by
  obtain ⟨hu, heof⟩ : c.sock.read.used = 0 ∧ c.sock.status.eof = false := by simpa using hd
  have hread : ReadOK (c.sock.drained.readPlain r)
      ({ l with returned := l.returned ++ bs }.read c.sock.drained r) :=
    ReadOK.reader hs rfl rfl he rfl heof hl
  unfold Cell.refill SockLog.refill
  rw [if_pos hd, if_pos hd, Cell.update_sock]
  refine hread.congr rfl rfl rfl ?_ ?_ ?_ ?_
  all_goals cases r <;> rfl

/-- **`zs_read`** with something in the buffer. -/
theorem ReadOK.readSome {n : ℕ} (h : ReadOK c.sock l) (hrd : c.sock.status.readable = true)
    (he : c.sock.read.rwErrno = none) (hu : c.sock.read.used ≠ 0) :
    ReadOK (({ c with sock := c.sock.take n } : Cell).refill r).sock
      { l.refill (c.sock.take n) r with
        returned := (l.refill (c.sock.take n) r).returned ++ c.sock.taken n } := by
  obtain ⟨hb, h0, hroom, hheld⟩ := h.taken hrd he n
  cases hd : ((c.sock.take n).read.used = 0 && !(c.sock.take n).status.eof : Bool) with
  | true =>
    have hz : (c.sock.take n).read.used = 0 := by
      have := Bool.and_eq_true_iff.1 hd
      exact of_decide_eq_true this.1
    refine ReadOK.refill (c := { c with sock := c.sock.take n }) (hb ▸ h.size) he ?_ hd
    rw [hz] at hheld
    simpa using hheld
  | false =>
    have hd' : ¬(((c.sock.take n).read.used = 0 && !(c.sock.take n).status.eof : Bool) = true) := by
      rw [hd]; decide
    unfold Cell.refill SockLog.refill
    rw [if_neg hd', if_neg hd']
    refine ⟨hb ▸ h.size, hroom, hheld, fun hn => ?_, fun _ _ => ⟨h0, ?_, fun heof => ?_⟩, fun e hn => ?_,
      h.ended⟩
    · have hn : c.sock.status.readable = false := hn
      rw [hrd] at hn
      cases hn
    · intro hz
      simpa [show (c.sock.take n).read.used = 0 from hz] using hd
    · exact absurd ((h.full hrd he).2.2 heof) hu
    · have hn : c.sock.read.rwErrno = some e := hn
      rw [he] at hn
      cases hn

/-- **`zs_read`** with nothing in it. -/
theorem ReadOK.readEnd (h : ReadOK c.sock l) (hrd : c.sock.status.readable = true)
    (hn : c.sock.read.rwErrno = none → c.sock.read.used = 0) :
    c.sock.read.used ≤ 0 ∧ c.refill r = c ∧ l.refill c.sock r = l := by
  have hd : ¬((c.sock.read.used = 0 && !c.sock.status.eof : Bool) = true) := by
    intro hd
    obtain ⟨hu, heof⟩ : c.sock.read.used = 0 ∧ c.sock.status.eof = false := by simpa using hd
    cases he : c.sock.read.rwErrno with
    | none =>
      rw [(h.full hrd he).2.1 hu] at heof
      cases heof
    | some e =>
      rw [(h.failed e he).1] at hu
      cases hu
  refine ⟨?_, ?_, ?_⟩
  · cases he : c.sock.read.rwErrno with
    | none => exact Int.le_of_eq (hn he)
    | some e =>
      rw [(h.failed e he).1]
      decide
  · unfold Cell.refill
    rw [if_neg hd]
  · unfold SockLog.refill
    rw [if_neg hd]

/-- **The moves of a connection keep its record of the bytes read.** -/
theorem Cell.Move.reads {y : Option Cell} (h : c.Move l y l') (ht : c.sock.type = .connect)
    (hp : c.sock.Plain) (hreg : c.update = c) (hok : ReadOK c.sock l) :
    ∀ c', y = some c' → ReadOK c'.sock l' := by
  rintro c' hc'
  cases h with
  | arm r w =>
    cases hc'
    rw [Cell.update_sock]
    exact hok
  | share => cases hc'; exact hok.congr rfl rfl rfl rfl rfl rfl rfl
  | defer hw => cases hc'; exact hok.congr rfl rfl rfl rfl rfl rfl rfl
  | shut hw => cases hc'
  | readEvent r hrd hw =>
    cases hc'
    rw [Cell.update_sock]
    exact hok.readEvent hp (hp.not_readable ht hreg hrd)
  | writeEvent r hw hcl =>
    cases hc'
    rw [Cell.update_sock]
    exact hok.writeEvent
  | writeShut r hw hcl => cases hc'
  | readEnd r hrd hn bs hb =>
    cases hc'
    obtain ⟨hu, h1, h2⟩ := hok.readEnd (r := r) hrd hn
    rw [h1, h2, hb hu, List.append_nil]
    exact hok
  | readSome n r hrd he hu hn =>
    cases hc'
    exact hok.readSome hrd he hu
  | write buf hw hb he =>
    cases hc'
    rw [Cell.update_sock]
    exact hok.congr rfl rfl rfl rfl rfl rfl rfl
  | writeError hw he =>
    cases hc'
    rw [Cell.update_sock]
    exact hok.congr rfl rfl rfl rfl rfl rfl rfl

theorem Cell.Fresh.reads (h : c.Fresh) : ReadOK c.sock {} := by
  have hs := h.status
  constructor
  · rw [h.read]; exact List.length_replicate
  · rw [h.read]; decide
  · rw [h.read]; rfl
  · intro _
    rw [h.read, hs]
    exact ⟨rfl, rfl, rfl, rfl⟩
  · intro hr
    rw [hs] at hr
    cases hr
  · intro e he
    rw [h.read] at he
    cases he
  · intro he
    rw [hs] at he
    cases he

/-! ## Writing -/

/-- What is accepted and not handed to the kernel is in the buffer, and the buffer is filled only
when it is empty. -/
structure SendOK (zs : Zsocket) (l : SockLog) : Prop where
  ready : zs.status.writable = true → zs.write.buffer = none
  busy : zs.status.writing = true → l.writeFailed = false ∧ ∃ b, zs.write.buffer = some b ∧
    zs.write.used = b.length ∧ zs.write.pos ≤ b.length ∧
    (l.zeroWrite = false → l.accepted = l.handed ++ b.drop zs.write.pos)
  idle : zs.status.writing = false → l.writeFailed = false → l.zeroWrite = false → l.handed = l.accepted
  failed : l.writeFailed = true → (zs.status.writable = true → zs.write.rwErrno ≠ none) ∧
    (l.zeroWrite = false → l.handed <+: l.accepted)

theorem SendOK.congr (h : SendOK zs l) (hw : zs'.write = zs.write)
    (hwr : zs'.status.writable = zs.status.writable) (hwi : zs'.status.writing = zs.status.writing)
    (h₁ : l'.accepted = l.accepted) (h₂ : l'.handed = l.handed) (h₃ : l'.writeFailed = l.writeFailed)
    (h₄ : l'.zeroWrite = l.zeroWrite) : SendOK zs' l' := by
  obtain ⟨a, b, d, e⟩ := h
  constructor
  · rw [hw, hwr]; exact a
  · rw [hw, hwi, h₁, h₂, h₃, h₄]; exact b
  · rw [hwi, h₁, h₂, h₃, h₄]; exact d
  · rw [hw, hwr, h₁, h₂, h₃, h₄]; exact e

/-- The bytes handed over are the first ones accepted. -/
theorem SendOK.handed_first (h : SendOK zs l) (hz : l.zeroWrite = false) : l.handed <+: l.accepted := by
  cases hf : l.writeFailed with
  | true => exact (h.failed hf).2 hz
  | false =>
    cases hw : zs.status.writing with
    | false => rw [h.idle hw hf hz]
    | true =>
      obtain ⟨-, b, -, -, -, hb⟩ := h.busy hw
      exact ⟨_, (hb hz).symm⟩

/-- **The writer**, with something to write. -/
theorem SendOK.writeEvent (h : SendOK zs l) (hw : zs.status.writing = true) :
    SendOK (zs.toWrite.writePlain r) (l.write zs r) := by
  obtain ⟨hf, b, hb, hlen, hpos, hacc⟩ := h.busy hw
  have hstay : SendOK { zs with status.wantWriteFromWrite := true } l := h.congr rfl rfl rfl rfl rfl rfl rfl
  cases r with
  | wantRead => exact hstay
  | wantWrite => exact hstay
  | fail k e =>
    refine ⟨fun _ => rfl, fun hn => ?_, fun _ hn => ?_, fun _ => ⟨fun _ hn => ?_, fun hz => ?_⟩⟩
    · cases hn
    · cases hn
    · cases hn
    · exact ⟨_, (hacc hz).symm⟩
  | bytes bs =>
    -- what the kernel takes is the front of what is left
    have hsplit (n : ℕ) (hz : l.zeroWrite = false) : l.accepted =
        l.handed ++ ((zs.write.buffer.getD []).drop zs.write.pos).take n ++ b.drop (zs.write.pos + n) := by
      rw [hb, Option.getD_some, List.append_assoc, ← List.drop_drop, List.take_append_drop, hacc hz]
    unfold Zsocket.writePlain SockLog.write
    simp only [Zsocket.toWrite, hlen]
    split
    · rename_i hc
      obtain ⟨hn, hleft⟩ : 0 < min bs.length (b.length - zs.write.pos) ∧
          b.length - (zs.write.pos + min bs.length (b.length - zs.write.pos)) ≠ 0 := by
        simpa [Bool.and_eq_true] using hc
      refine ⟨fun hwr => h.ready hwr, fun _ => ⟨hf, b, hb, rfl, ?_, fun hz => ?_⟩, fun hn => ?_,
        fun hn => ?_⟩
      · show zs.write.pos + _ ≤ b.length
        omega
      · exact hsplit _ (Bool.or_eq_false_iff.1 hz).1
      · have hn : zs.status.writing = false := hn
        rw [hw] at hn
        cases hn
      · have hn : l.writeFailed = true := hn
        rw [hf] at hn
        cases hn
    · rename_i hc
      refine ⟨fun _ => rfl, fun hn => ?_, fun _ _ hz => ?_, fun hn => ?_⟩
      · cases hn
      · -- nothing is left
        obtain ⟨hz, hno⟩ := Bool.or_eq_false_iff.1 hz
        have hall : b.length ≤ zs.write.pos + min bs.length (b.length - zs.write.pos) := by
          simp only [Bool.and_eq_true, decide_eq_true_eq, not_and, not_not, ne_eq] at hc
          simp only [Bool.and_eq_false_iff, decide_eq_false_iff_not, List.isEmpty_eq_false_iff] at hno
          rcases hno with hne | hge
          · have := List.length_pos_iff.2 hne
            omega
          · omega
        have hsp := hsplit (min bs.length (b.length - zs.write.pos)) hz
        rw [List.drop_eq_nil_of_le hall, List.append_nil] at hsp
        exact hsp.symm
      · have hn : l.writeFailed = true := hn
        rw [hf] at hn
        cases hn

/-- The reader leaves the writing alone. -/
theorem SendOK.readEvent (h : SendOK zs l) (hp : zs.Plain) : SendOK (zs.toRead.readPlain r) (l.read zs r) := by
  have hst := hp.toRead
  have hw : (zs.toRead.readPlain r).write = zs.write := by
    rw [Zsocket.readPlain_write]
    unfold Zsocket.toRead Zsocket.startRead
    split <;> rfl
  refine h.congr hw ?_ ?_ ?_ ?_ ?_ ?_
  · obtain hs | ⟨e, hs⟩ := zs.toRead.readPlain_status r <;> rw [hs, hst]
  · obtain hs | ⟨e, hs⟩ := zs.toRead.readPlain_status r <;> rw [hs, hst]
  all_goals cases r <;> rfl

theorem SendOK.refill (h : SendOK c.sock l) {l' : SockLog} (h₁ : l'.accepted = l.accepted)
    (h₂ : l'.handed = l.handed) (h₃ : l'.writeFailed = l.writeFailed) (h₄ : l'.zeroWrite = l.zeroWrite) :
    SendOK (c.refill r).sock l' := by
  unfold Cell.refill
  split
  · rw [Cell.update_sock]
    refine h.congr (c.sock.drained.readPlain_write r) ?_ ?_ h₁ h₂ h₃ h₄
    · obtain hs | ⟨e, hs⟩ := c.sock.drained.readPlain_status r <;> simp only [hs] <;> rfl
    · obtain hs | ⟨e, hs⟩ := c.sock.drained.readPlain_status r <;> simp only [hs] <;> rfl
  · exact h.congr rfl rfl rfl h₁ h₂ h₃ h₄

/-- What a read records leaves the writing alone. -/
theorem SockLog.refill_sends (l : SockLog) (zs : Zsocket) (r : RwRes) :
    (l.refill zs r).accepted = l.accepted ∧ (l.refill zs r).handed = l.handed ∧
      (l.refill zs r).writeFailed = l.writeFailed ∧ (l.refill zs r).zeroWrite = l.zeroWrite := by
  unfold SockLog.refill
  split
  · cases r <;> exact ⟨rfl, rfl, rfl, rfl⟩
  · exact ⟨rfl, rfl, rfl, rfl⟩

/-- **The moves of a connection keep its record of the bytes written.** -/
theorem Cell.Move.sends {y : Option Cell} (h : c.Move l y l') (hp : c.sock.Plain) (hok : SendOK c.sock l) :
    ∀ c', y = some c' → SendOK c'.sock l' := by
  rintro c' hc'
  cases h with
  | arm r w =>
    cases hc'
    rw [Cell.update_sock]
    exact hok
  | share => cases hc'; exact hok.congr rfl rfl rfl rfl rfl rfl rfl
  | defer hw => cases hc'; exact hok.congr rfl rfl rfl rfl rfl rfl rfl
  | shut hw => cases hc'
  | readEvent r hrd hw =>
    cases hc'
    rw [Cell.update_sock]
    exact hok.readEvent hp
  | writeEvent r hw hcl =>
    cases hc'
    rw [Cell.update_sock]
    exact hok.writeEvent (hp.writing.trans hw)
  | writeShut r hw hcl => cases hc'
  | readEnd r hrd hn bs hb =>
    cases hc'
    obtain ⟨h1, h2, h3, h4⟩ := l.refill_sends c.sock r
    exact hok.refill h1 h2 h3 h4
  | readSome n r hrd he hu hn =>
    cases hc'
    obtain ⟨h1, h2, h3, h4⟩ := l.refill_sends (c.sock.take n) r
    exact SendOK.refill (c := { c with sock := c.sock.take n })
      (hok.congr rfl rfl rfl rfl rfl rfl rfl) h1 h2 h3 h4
  | write buf hw hb he =>
    cases hc'
    rw [Cell.update_sock]
    have hidle := hp.writable hw
    have hf : l.writeFailed = false := by
      cases hf : l.writeFailed with
      | false => rfl
      | true => exact absurd he ((hok.failed hf).1 hw)
    refine ⟨fun hn => ?_, fun _ => ⟨hf, buf, rfl, rfl, Nat.zero_le _, fun hz => ?_⟩, fun hn => ?_, fun hn => ?_⟩
    · cases hn
    · show l.accepted ++ buf = l.handed ++ buf
      rw [hok.idle hidle hf hz]
    · cases hn
    · have hn : l.writeFailed = true := hn
      rw [hf] at hn
      cases hn
  | writeError hw he =>
    cases hc'
    rw [Cell.update_sock]
    have hidle := hp.writable hw
    refine ⟨fun hn => ?_, fun hn => ?_, hok.idle, fun hf => ⟨fun hn => ?_, (hok.failed hf).2⟩⟩
    · cases hn
    · have hn : c.sock.status.writing = true := hn
      rw [hidle] at hn
      cases hn
    · cases hn

theorem Cell.Fresh.sends (h : c.Fresh) : SendOK c.sock {} := by
  refine ⟨fun _ => ?_, fun hn => ?_, fun _ _ _ => rfl, fun hn => ?_⟩
  · rw [h.write]
  · rw [h.status] at hn
    cases hn
  · cases hn

/-! ## Every run -/

/-- What the moves of a connection without SSL keep, every step keeps. -/
theorem CellStep.keeps {P : Cell → SockLog → Prop} (hfresh : ∀ c : Cell, c.Fresh → P c {})
    (hmove : ∀ (c : Cell) (l l' : SockLog) (y : Option Cell), c.Move l y l' →
      c.sock.type = .connect → c.sock.ssl = false → c.OK → P c l → ∀ c', y = some c' → P c' l')
    {x y : Option Cell} {u u' : SockUses} (h : CellStep x l u y l' u') (hok : ∀ c, x = some c → c.OK)
    (hP : ∀ c, x = some c → c.sock.type = .connect → c.sock.ssl = false → P c l) :
    ∀ c, y = some c → c.sock.type = .connect → c.sock.ssl = false → P c l' := by
  intro c' hc' ht' hs'
  cases h with
  | same => exact hP c' hc' ht' hs'
  | gone => cases hc'
  | plain _ _ ht hs h => exact hmove _ _ _ _ h ht hs (hok _ rfl) (hP _ rfl ht hs) c' hc'
  | secure _ _ _ _ ht hs h =>
    have := (h c' hc').ssl
    rw [hs'] at this
    cases this
  | listen _ _ ht h =>
    have := (h.ok ht (hok _ rfl) c' hc').1
    rw [ht'] at this
    cases this
  | listens c _ _ ht =>
    cases hc'
    rw [ht'] at ht
    cases ht
  | connects c _ _ _ h => cases hc'; exact hfresh _ h
  | connectsSecure c _ _ _ _ h =>
    cases hc'
    have := h.ssl
    rw [hs'] at this
    cases this

/-- The record of every connection without SSL is in order. -/
structure Traced.Bytes (t : Traced) : Prop where
  ok : t.OK
  reads : ∀ fd c, t.zs.cell fd = some c → c.sock.type = .connect → c.sock.ssl = false →
    ReadOK c.sock (t.log fd)
  sends : ∀ fd c, t.zs.cell fd = some c → c.sock.type = .connect → c.sock.ssl = false →
    SendOK c.sock (t.log fd)

theorem Traced.Bytes.init : Traced.init.Bytes :=
  ⟨Traced.OK.init, by rintro fd c ⟨⟩, by rintro fd c ⟨⟩⟩

theorem Traced.Bytes.step {a : ZsAct} (h : t.Bytes) (hs : t.step a = .ok t') : t'.Bytes where
  ok := h.ok.step hs
  reads fd := (Traced.step_cells h.ok.cells h.ok.zs hs fd).keeps (fun _ hf => hf.reads)
    (fun _ _ _ _ hm ht hn hok hP => hm.reads ht (hok.plain ht hn) (hok.reg ht) hP) (h.ok.cells fd)
    (h.reads fd)
  sends fd := (Traced.step_cells h.ok.cells h.ok.zs hs fd).keeps (fun _ hf => hf.sends)
    (fun _ _ _ _ hm ht hn hok hP => hm.sends (hok.plain ht hn) hP) (h.ok.cells fd) (h.sends fd)

theorem Traced.Bytes.run {acts : List ZsAct} (h : t.Bytes) (hrun : run Traced.step t acts = .ok t') :
    t'.Bytes :=
  run_inv (fun _ _ _ hI _ hs => Traced.Bytes.step hI hs) acts _ _ h
    (Along.of_forall (P := fun _ => True) fun _ _ => trivial) hrun

/-! ## The calls succeed -/

theorem zsUpdateFdState_total {σ : Zs} (h : σ.zsockets fd = some zs) :
    ∃ σ', zsUpdateFdState σ fd = .ok σ' := by
  have hg : σ.assertSock fd = .ok zs := by simp only [Zs.assertSock, h]
  unfold zsUpdateFdState
  rw [hg]
  cases ht : zs.type <;> exact ⟨_, by simp only [bind, Except.bind, ht]; rfl⟩

theorem zsReader_total {σ : Zs} (h : σ.zsockets fd = some zs) (hs : zs.ssl = false)
    (hu : 0 ≤ zs.read.used) : ∃ σ', zsReader σ fd r = .ok σ' := by
  have hg : σ.get fd = .ok zs := by simp only [Zs.get, h]
  have hn : ¬zs.read.used < 0 := Int.not_lt.2 hu
  unfold zsReader
  rw [hg]
  cases r with
  | bytes bs =>
    simp only [bind, Except.bind, hs, Bool.false_and, Bool.false_eq_true, if_false, if_neg hn]
    split <;> exact ⟨_, rfl⟩
  | _ =>
    simp only [bind, Except.bind, hs, Bool.false_and, Bool.false_eq_true, if_false, Bool.not_false,
      Bool.true_or, if_true]
    exact ⟨_, rfl⟩

theorem zsRefill_total {σ : Zs} (h : σ.zsockets fd = some zs) (hs : zs.ssl = false) :
    ∃ σ', zsRefill σ fd r = .ok σ' := by
  have hg : σ.get fd = .ok zs := by simp only [Zs.get, h]
  unfold zsRefill
  rw [hg]
  simp only [bind, Except.bind]
  split
  · have hset : ((σ.countDown (σ.activeRead fd && zs.status.readable)).set fd zs.drained).zsockets fd
        = some zs.drained := Function.update_self ..
    obtain ⟨σ₁, h₁⟩ := zsReader_total (r := r) hset hs (Int.le_refl 0)
    have hc := cell_self (zsReader_plain (cell_some hset) hs h₁)
    have hz := (of_cell hc).1
    have hg₁ : σ₁.get fd = .ok (zs.drained.readPlain r) := by simp only [Zs.get]; rw [hz]; rfl
    obtain ⟨σ₂, h₂⟩ := @zsUpdateFdState_total fd _ (σ₁.set fd { zs.drained.readPlain r with
      status.wantReadFromRead := zs.status.wantReadFromRead
      status.wantWriteFromRead := zs.status.wantWriteFromRead }) (Function.update_self ..)
    refine ⟨σ₂, ?_⟩
    show (zsReader ((σ.countDown (σ.activeRead fd && zs.status.readable)).set fd zs.drained) fd r).bind
      _ = _
    rw [h₁]
    show (σ₁.get fd).bind _ = _
    rw [hg₁]
    exact h₂
  · exact ⟨_, rfl⟩

/-- **What `zs_read` answers.** -/
theorem ReadOK.zsRead {σ : Zs} (h : ReadOK zs l) (hz : σ.zsockets fd = some zs)
    (ht : zs.type = .connect) (hs : zs.ssl = false) {n : ℕ} (hn : 1 ≤ n) (r : RwRes) :
    ∃ σ' res, zsRead σ fd n r = .ok (σ', res) ∧
      (res = .ok [] → l.ended = true ∧ l.returned = l.delivered) ∧
      ∀ e, res = .error e → (zs.status.closed = true ∧ e = .ebadf) ∨
        (zs.status.readable = false ∧ e = .eagain) ∨
        (l.readErrno = some e ∧ l.returned = l.delivered) := by
  unfold Zimr.zsRead
  rw [hz]
  simp only [ht, ne_eq, not_true, decide_false, Bool.false_or]
  obtain hcl | hcl := Bool.eq_false_or_eq_true zs.status.closed
  · rw [if_pos hcl]
    refine ⟨_, _, rfl, fun hr => ?_, fun e he => Or.inl ⟨hcl, ?_⟩⟩
    · cases hr
    · cases he; rfl
  rw [if_neg (by rw [hcl]; decide)]
  cases hrd : zs.status.readable with
  | false =>
    refine ⟨_, _, rfl, fun hr => ?_, fun e he => Or.inr (Or.inl ⟨rfl, ?_⟩)⟩
    · cases hr
    · cases he; rfl
  | true =>
    rw [if_neg (by decide)]
    cases he : zs.read.rwErrno with
    | some e =>
      obtain ⟨hu, hl⟩ := h.failed e he
      obtain ⟨σ', hr⟩ := zsRefill_total (r := r) hz hs
      have hlt : min zs.read.used (n : ℤ) < 0 := by rw [hu]; omega
      simp only [bind, Except.bind, hr]
      rw [if_pos hlt]
      refine ⟨σ', _, rfl, fun hr => ?_, fun e' he' => Or.inr (Or.inr ⟨?_, ?_⟩)⟩
      · cases hr
      · cases he'; exact hl
      · exact h.all_returned (by rw [hu]; decide)
    | none =>
      obtain ⟨h0, heof⟩ := h.full hrd he
      by_cases hu : zs.read.used = 0
      · obtain ⟨σ', hr⟩ := zsRefill_total (r := r) hz hs
        have hend := heof.1 hu
        simp only [if_pos hu, hend, bind, Except.bind, hr]
        refine ⟨σ', _, rfl, fun _ => ⟨h.ended hend, h.all_returned (Int.le_of_eq hu)⟩, fun e he => ?_⟩
        cases he
      · have hlt : ¬min zs.read.used (n : ℤ) < 0 := by omega
        simp only [if_neg hu, if_neg hlt]
        obtain ⟨σ', hr⟩ := @zsRefill_total fd _ r (σ.set fd (zs.take n)) (Function.update_self ..) hs
        refine ⟨σ', .ok (zs.taken n), ?_, fun hr => ?_, fun e he => ?_⟩
        · have hrec : zs.take n = { zs.take n with type := .connect, read.rwErrno := none } := by
            rw [← ht, ← he]
            rfl
          rw [hrec] at hr
          show (zsRefill (σ.set fd { zs.take n with type := .connect, read.rwErrno := none }) fd r).bind
            _ = _
          rw [hr]
          rfl
        · -- the buffer holds at least one byte
          have hlen := congrArg List.length (Except.ok.inj hr)
          have hroom := h.room
          have hsize := h.size
          unfold Zsocket.taken at hlen
          rw [List.length_take, List.length_drop, hsize, List.length_nil] at hlen
          omega
        · cases he

/-- **Reads lose nothing**: in every run, what was delivered is what `zs_read` returned and then
what the buffer holds; `zs_read` answers 0 after the end only, and an error after the last byte. -/
theorem reads_lose_nothing (acts : List ZsAct) (t : Traced) (hrun : run Traced.step Traced.init acts = .ok t)
    (fd : ℕ) (zs : Zsocket) (hz : t.zs.zsockets fd = some zs) (ht : zs.type = .connect)
    (hs : zs.ssl = false) :
    (t.log fd).delivered = (t.log fd).returned ++
        (zs.read.buffer.drop zs.read.pos).take zs.read.used.toNat ∧
      zs.read.pos + zs.read.used ≤ zsReadSize ∧ zs.read.buffer.length = zsReadSize ∧
      ∀ n, 1 ≤ n → ∀ r, ∃ σ res, zsRead t.zs fd n r = .ok (σ, res) ∧
        (res = .ok [] → (t.log fd).ended = true ∧ (t.log fd).returned = (t.log fd).delivered) ∧
        ∀ e, res = .error e → (zs.status.closed = true ∧ e = .ebadf) ∨
          (zs.status.readable = false ∧ e = .eagain) ∨
          ((t.log fd).readErrno = some e ∧ (t.log fd).returned = (t.log fd).delivered) := by
  have hok := (Traced.Bytes.init.run hrun).reads fd _ (cell_some hz) ht hs
  exact ⟨hok.held, hok.room, hok.size, fun n hn r => hok.zsRead hz ht hs hn r⟩

/-- Three bytes arrive and two of them are read. -/
def readingRun : List ZsAct :=
  [.zsocket 0 80 .connect .msgZsocket false ⟨.ok 3, true, .bytes []⟩, .setRead 3,
    .zfdRead 3 (.error .eagain) (.bytes [1, 2, 3]) (.bytes []), .read 3 2 .wantRead]

theorem reads_lose_nothing_reading :
    ∃ t zs, run Traced.step Traced.init readingRun = .ok t ∧ t.zs.zsockets 3 = some zs ∧
      (t.log 3).returned = [1, 2] ∧ (t.log 3).delivered = [1, 2] ++
        (zs.read.buffer.drop zs.read.pos).take zs.read.used.toNat := by
  obtain ⟨t, h⟩ : ∃ t, run Traced.step Traced.init readingRun = .ok t := ⟨_, rfl⟩
  have hn : (run Traced.step Traced.init readingRun).toOption.map (fun t =>
      ((t.zs.zsockets 3).map fun zs => (zs.type, zs.ssl), (t.log 3).returned)) =
      some (some (.connect, false), [1, 2]) := by decide +kernel
  rw [h] at hn
  obtain ⟨hn, hret⟩ := Prod.mk.inj (Option.some.inj hn)
  obtain ⟨zs, hz, heq⟩ := Option.map_eq_some_iff.1 hn
  obtain ⟨ht, hs⟩ := Prod.mk.inj heq
  refine ⟨t, zs, h, hz, hret, ?_⟩
  rw [← hret]
  exact (reads_lose_nothing readingRun t h 3 zs hz ht hs).1

/-! ## Writes are complete -/

theorem zsWrite_total {σ : Zs} (h : SendOK zs l) (hz : σ.zsockets fd = some zs) (buf : List UInt8) :
    ∃ σ' res, zsWrite σ fd buf = .ok (σ', res) := by
  unfold zsWrite
  rw [hz]
  simp only
  split
  · exact ⟨_, _, rfl⟩
  split
  · exact ⟨_, _, rfl⟩
  rename_i hw
  have hb : zs.write.buffer = none := h.ready (by simpa using hw)
  rw [if_neg (by rw [hb]; decide)]
  split
  · obtain ⟨σ', hu⟩ := @zsUpdateFdState_total fd _
      ((σ.countDown (σ.activeWrite fd && zs.status.writable)).set fd
        { zs with status.writable := false, write.rwErrno := none }) (Function.update_self ..)
    exact ⟨σ', _, by rw [hu]; rfl⟩
  · obtain ⟨σ', hu⟩ := @zsUpdateFdState_total fd _
      ((σ.countDown (σ.activeWrite fd && zs.status.writable)).set fd { zs with
        status.writable := false, status.writing := true, status.wantWriteFromWrite := true
        write.buffer := some buf, write.used := buf.length, write.pos := 0 }) (Function.update_self ..)
    exact ⟨σ', _, by rw [hu]; rfl⟩

/-- A writer that is done does not write any more. -/
theorem Zsocket.finishes_idle (hs : zs.ssl = false) (h : zs.finishes r = true) :
    (zs.toWrite.writePlain r).status.writing = false := by
  cases r with
  | wantRead => cases h
  | wantWrite => cases h
  | fail k e => rfl
  | bytes bs =>
    simp only [Zsocket.finishes, hs, Bool.false_and, Bool.not_false, Bool.true_and, Bool.or_eq_true,
      List.isEmpty_iff, decide_eq_true_eq] at h
    unfold Zsocket.writePlain
    simp only
    rw [if_neg]
    · rfl
    · simp only [Bool.and_eq_true, decide_eq_true_eq, ne_eq, not_and, not_not]
      show 0 < min bs.length (zs.write.used - zs.write.pos) →
        zs.write.used - (zs.write.pos + min bs.length (zs.write.used - zs.write.pos)) = 0
      intro hn
      rcases h with rfl | h
      · simp at hn
      · omega

/-- The socket is really closed with nothing left to write. -/
theorem Cell.Move.closes (h : c.Move l none l') (hs : c.sock.ssl = false) (hp : c.sock.Plain)
    (hok : SendOK c.sock l) (hz : l'.zeroWrite = false) :
    l'.handed <+: l'.accepted ∧ (l'.handed = l'.accepted ∨ l'.writeFailed = true) := by
  have hend : ∀ {z : Zsocket} {l : SockLog}, SendOK z l → z.status.writing = false →
      l.zeroWrite = false →
      l.handed <+: l.accepted ∧ (l.handed = l.accepted ∨ l.writeFailed = true) := by
    intro z l hok hw hz
    refine ⟨hok.handed_first hz, ?_⟩
    cases hf : l.writeFailed with
    | true => exact Or.inr rfl
    | false => exact Or.inl (hok.idle hw hf hz)
  cases h with
  | shut hw => exact hend hok hw hz
  | writeShut r hw hc => exact hend (hok.writeEvent (hp.writing.trans hw)) (Zsocket.finishes_idle hs hc) hz

/-- **Writes are complete**, as long as `write` takes something when it is given something: what
was handed to the kernel are the first bytes that `zs_write` accepted, and a socket is really
closed after the last of them or after a `write` that failed. -/
theorem writes_complete (acts : List ZsAct) (t : Traced) (hrun : run Traced.step Traced.init acts = .ok t)
    (fd : ℕ) (zs : Zsocket) (hz : t.zs.zsockets fd = some zs) (ht : zs.type = .connect)
    (hs : zs.ssl = false) :
    ((t.log fd).zeroWrite = false → (t.log fd).handed <+: (t.log fd).accepted) ∧
      (zs.status.writable = true → zs.write.buffer = none) ∧
      (∀ buf, ∃ σ res, zsWrite t.zs fd buf = .ok (σ, res)) ∧
      ∀ a t', t.step a = .ok t' → t'.zs.zsockets fd = none → (t'.log fd).zeroWrite = false →
        (t'.log fd).handed <+: (t'.log fd).accepted ∧
          ((t'.log fd).handed = (t'.log fd).accepted ∨ (t'.log fd).writeFailed = true) := by
  have hall := Traced.Bytes.init.run hrun
  have hok := hall.sends fd _ (cell_some hz) ht hs
  refine ⟨hok.handed_first, hok.ready, fun buf => zsWrite_total hok hz buf, fun a t' hstep hgone hzw => ?_⟩
  have hcell := Traced.step_cells hall.ok.cells hall.ok.zs hstep fd
  unfold Traced.Sees at hcell
  rw [cell_some hz, cell_none hgone] at hcell
  have hp := (hall.ok.cells fd _ (cell_some hz)).plain ht hs
  generalize t'.log fd = l' at hcell hzw ⊢
  cases hcell with
  | plain _ _ ht' hs' h => exact h.closes hs hp hok hzw
  | secure _ _ _ _ _ hs' _ =>
    have hs' : zs.ssl = true := hs'
    rw [hs] at hs'
    cases hs'
  | listen _ _ ht' _ =>
    have ht' : zs.type = .listen := ht'
    rw [ht] at ht'
    cases ht'

/-- A response is written and closed at once; the kernel takes it in two parts. -/
def respondingRun : List ZsAct :=
  [.zsocket 0 80 .connect .msgZsocket false ⟨.ok 3, true, .bytes []⟩, .write 3 [1, 2, 3], .close 3,
    .zfdWrite 3 (.bytes [0, 0]) (.bytes [])]

theorem writes_complete_responding :
    ∃ t zs t', run Traced.step Traced.init respondingRun = .ok t ∧ t.zs.zsockets 3 = some zs ∧
      t.step (.zfdWrite 3 (.bytes [0]) (.bytes [])) = .ok t' ∧ t'.zs.zsockets 3 = none ∧
      ((t'.log 3).handed = (t'.log 3).accepted ∨ (t'.log 3).writeFailed = true) := by
  obtain ⟨t, h⟩ : ∃ t, run Traced.step Traced.init respondingRun = .ok t := ⟨_, rfl⟩
  have hn : (run Traced.step Traced.init respondingRun).toOption.bind (fun t =>
      (t.step (.zfdWrite 3 (.bytes [0]) (.bytes []))).toOption.map fun t' =>
        ((t.zs.zsockets 3).map fun zs => (zs.type, zs.ssl), (t'.zs.zsockets 3).isNone,
          (t'.log 3).zeroWrite)) = some (some (.connect, false), true, false) := by decide +kernel
  rw [h] at hn
  obtain ⟨t', hstep, heq⟩ := Option.map_eq_some_iff.1 hn
  obtain ⟨hsock, hrest⟩ := Prod.mk.inj heq
  obtain ⟨hgone, hzw⟩ := Prod.mk.inj hrest
  obtain ⟨zs, hz, hts⟩ := Option.map_eq_some_iff.1 hsock
  obtain ⟨ht, hs⟩ := Prod.mk.inj hts
  have hstep : t.step (.zfdWrite 3 (.bytes [0]) (.bytes [])) = .ok t' := by
    cases hr : t.step (.zfdWrite 3 (.bytes [0]) (.bytes [])) with
    | error e => rw [hr] at hstep; cases hstep
    | ok t₁ => rw [hr] at hstep; cases hstep; rfl
  have hgone := Option.isNone_iff_eq_none.1 hgone
  exact ⟨t, zs, t', h, hz, hstep, hgone,
    ((writes_complete respondingRun t h 3 zs hz ht hs).2.2.2 _ t' hstep hgone hzw).2⟩

end Zimr
