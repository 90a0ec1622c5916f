import Zimr.Lib.Link
import Zimr.Proof.Effect

/-!
# One msg: its invariant and its end of the link

`MsgOK` holds of every live msg between two top-level steps, whatever the peer sends.
`Msg.view` is the end of `Link` that a msg is. `Moves` says what a call does to its
msg: the object, the queues, and the steps of the link it amounts to.

* `msgFlush_moves`, `msgWrite_moves`, `msgRead_moves` — the three calls that move bytes
-/

namespace Zimr

open Link (Item Step Steps Half)

variable {sw sw₁ sw₂ : MsgSwitch} {j : ℕ} {m m₁ m₂ : Msg}

/-- What holds of a live msg between two steps. -/
structure MsgOK (m : Msg) : Prop where
  paw : m.status.packetAvailToWrit = !m.writQueue.isEmpty
  par : m.status.closed = false → m.status.packetAvailToRead = !m.readQueue.isEmpty
  closed_read : m.status.closed = true → m.readQueue = []
  space : m.status.disconnected = false →
    m.status.spaceAvailForRead = decide (m.readQueue.length < msgNBuffPacketsAllowed)
  need : m.status.needToSendResp = true → m.status.disconnected = false →
    m.status.spaceAvailForRead = false
  full : m.status.disconnected = false → msgNBuffPacketsAllowed ≤ m.readQueue.length →
    m.status.needToSendResp = true
  closed_inc : m.status.closed = true → m.incompleteWritPacket = none
  sent : m.status.sentDisconnect = true → m.status.closed = true ∨ m.status.disconnected = true
  disc : m.status.disconnected = true → m.status.sentDisconnect = true ∧ m.imsgid = 0
  queued : m.writQueue ≠ [] → m.status.writing = true ∨ m.status.waitingForResp = true
  writing : m.status.writing = true → m.status.waitingForResp = false ∧ m.writQueue ≠ []
  /-- A closed msg that has not sent its disconnect will. -/
  closing : m.status.closed = true → m.status.sentDisconnect = false →
    m.writQueue ≠ [] ∨ m.status.waitingForResp = true
  used : m.incompleteWritPacket ≠ none ∨ m.writQueue ≠ [] ∨ m.status.waitingForResp = true →
    m.nWrit ≠ 0
  inc_size : ∀ p, m.incompleteWritPacket = some p → p.size ≤ packDataSize
  pos : m.status.closed = false → m.curReadPacketPos = 0 ∨
    ∃ p rest, m.readQueue = p :: rest ∧ m.curReadPacketPos < p.size
  ids : ∀ p, p ∈ m.writQueue ∨ m.incompleteWritPacket = some p →
    p.owner = m.addr ∧ (m.status.disconnected = false → p.msgid = m.wireId)
  wspace : m.status.disconnected = false →
    m.status.spaceAvailForWrit = decide (m.writQueue.length < msgNBuffPacketsAllowed)

/-- The end of the link that a msg is. -/
def Msg.view (m : Msg) : Link.End UInt8 where
  used := m.nWrit != 0 || m.nRead != 0
  sent := m.status.sentDisconnect
  disc := m.status.disconnected
  closed := m.status.closed
  need := m.status.needToSendResp
  waiting := m.status.waitingForResp
  unread := if m.status.closed then []
    else ((m.readQueue.map MsgPacket.data).flatten).drop m.curReadPacketPos
  hollow := m.readQueue.any (·.data.isEmpty)
  unsent := (m.writQueue ++ m.incompleteWritPacket.toList).map MsgPacket.data

/-- A response on the link. -/
def MsgResp.item (r : MsgResp) : Item UInt8 :=
  match r.status with
  | .ok => .ok
  | .discon => .discon

/-- From `sw` to `sw'` the msg in slot `j` went from `m` to `m'`. Responses `R` and, at
the end of `writ_queue`, packets `Q` were queued; the bytes `w` came in from the caller
and `r` went out to it. -/
structure Moves (S H : Prop) (sw sw' : MsgSwitch) (j : ℕ) (m m' : Msg)
    (R : List MsgResp) (Q : List MsgPacket) (w r : List UInt8) : Prop where
  only : Only sw sw' j m' R (if !m.status.writing && m'.status.writing then [m.ptr] else [])
  ok : MsgOK m'
  ptr : m'.ptr = m.ptr
  imsgid : m'.imsgid = m.imsgid
  closed : m'.status.closed = m.status.closed
  sent : m'.status.sentDisconnect = m.status.sentDisconnect
  disc : m'.status.disconnected = m.status.disconnected
  writing : m.status.writing = true → m'.status.writing = true
  still : Q = [] → m'.status.writing = m.status.writing
  from_last : m'.lastFrom = m.lastFrom
  need : m'.status.needToSendResp = true → m.status.needToSendResp = true
  reads : m'.readQueue <:+ m.readQueue
  writs : m'.writQueue = m.writQueue ++ Q
  resps : ∀ r ∈ R, m.status.needToSendResp = true ∧ m.status.disconnected = false ∧
    r = m.resp .ok
  link : ∀ out acc got clo strict y, Steps S H
    ⟨.live m.view, out, acc, got, clo, strict⟩ y
    ⟨.live m'.view, out ++ R.map MsgResp.item, acc ++ w, got ++ r, clo, strict⟩ y

variable {S H : Prop} {R R₁ R₂ : List MsgResp} {Q Q₁ Q₂ : List MsgPacket}
  {w w₁ w₂ r r₁ r₂ : List UInt8}

theorem Moves.refl (h : sw.msgs j = some m) (hm : MsgOK m) :
    Moves S H sw sw j m m [] [] [] [] where
  only := by simpa using Only.refl h
  ok := hm
  ptr := rfl
  imsgid := rfl
  closed := rfl
  sent := rfl
  disc := rfl
  writing := id
  still := fun _ => rfl
  from_last := rfl
  need := id
  reads := List.suffix_rfl
  writs := by simp
  resps := by simp
  link := fun out acc got clo strict y => by simpa using Steps.refl _ _

theorem Msg.wireId_congr (hp : m₁.ptr = m.ptr) (hi : m₁.imsgid = m.imsgid) :
    m₁.wireId = m.wireId := by
  simp only [Msg.ptr, MsgPtr.mk.injEq] at hp
  simp only [Msg.wireId, hi, hp.2]

theorem Moves.trans (h₁ : Moves S H sw sw₁ j m m₁ R₁ Q₁ w₁ r₁)
    (h₂ : Moves S H sw₁ sw₂ j m₁ m₂ R₂ Q₂ w₂ r₂) :
    Moves S H sw sw₂ j m m₂ (R₁ ++ R₂) (Q₁ ++ Q₂) (w₁ ++ w₂) (r₁ ++ r₂) where
  only := by
    have hp : (if !m.status.writing && m₁.status.writing then [m.ptr] else []) ++
        (if !m₁.status.writing && m₂.status.writing then [m₁.ptr] else []) =
        if !m.status.writing && m₂.status.writing then [m.ptr] else [] := by
      have h1 := h₁.writing
      have h2 := h₂.writing
      rw [h₁.ptr]
      cases hm : m.status.writing <;> cases hm₁ : m₁.status.writing <;>
        cases hm₂ : m₂.status.writing <;> simp_all
    rw [← hp]
    exact h₁.only.trans h₂.only
  ok := h₂.ok
  ptr := h₂.ptr.trans h₁.ptr
  imsgid := h₂.imsgid.trans h₁.imsgid
  closed := h₂.closed.trans h₁.closed
  sent := h₂.sent.trans h₁.sent
  disc := h₂.disc.trans h₁.disc
  writing := h₂.writing ∘ h₁.writing
  still := fun hQ => by
    obtain ⟨hQ₁, hQ₂⟩ := List.append_eq_nil_iff.1 hQ
    exact (h₂.still hQ₂).trans (h₁.still hQ₁)
  from_last := h₂.from_last.trans h₁.from_last
  need := h₁.need ∘ h₂.need
  reads := h₂.reads.trans h₁.reads
  writs := by rw [h₂.writs, h₁.writs, List.append_assoc]
  resps := by
    intro r hr
    rcases List.mem_append.1 hr with hr | hr
    · exact h₁.resps r hr
    · obtain ⟨hn, hd, rfl⟩ := h₂.resps r hr
      refine ⟨h₁.need hn, h₁.disc.symm.trans hd, ?_⟩
      have hp := h₁.ptr
      simp only [Msg.ptr, MsgPtr.mk.injEq] at hp
      simp only [Msg.resp, Msg.wireId_congr h₁.ptr h₁.imsgid, hp.1, h₁.from_last]
  link := fun out acc got clo strict y => by
    have := (h₁.link out acc got clo strict y).trans (h₂.link _ _ _ _ _ _)
    simpa [List.append_assoc] using this

/-! ## `msg_update_status` -/

/-- On the link, `msg_update_status` is an acknowledgement or nothing. -/
theorem upd_link (m : Msg) (out : List (Item UInt8)) (acc got : List UInt8) (clo strict : Bool)
    (y : Half UInt8) (hs : m.acks = true → strict = true → m.status.sentDisconnect = false) :
    Steps S H ⟨.live m.view, out, acc, got, clo, strict⟩ y
      ⟨.live m.upd.view, out ++ m.updResps.map MsgResp.item, acc, got, clo, strict⟩ y := by
  cases ha : m.acks with
  | false =>
    have hv : m.upd.view = m.view := by simp [Msg.view, Msg.upd, ha]
    rw [hv]
    simpa [Msg.updResps, ha] using Steps.refl _ _
  | true =>
    have hh := ha
    simp only [Msg.acks, Bool.and_eq_true, Bool.not_eq_true'] at hh
    have hv : m.upd.view = { m.view with need := false } := by simp [Msg.view, Msg.upd, ha]
    rw [hv]
    have := Steps.single (Step.ack (S := S) (H := H)
      (x := ⟨.live m.view, out, acc, got, clo, strict⟩) (y := y) rfl hh.1.1 hh.2 (hs ha))
    simpa [Msg.updResps, ha, MsgResp.item, Msg.resp] using this

theorem MsgOK.acks_eq (hm : MsgOK m) : m.acks = false := by
  have := hm.need
  simp only [Msg.acks]
  grind

theorem MsgOK.starts_eq (hm : MsgOK m) : m.starts = false := by
  have h1 := hm.paw
  have h2 := hm.queued
  simp only [Msg.starts]
  grind

/-- A move in which no link step is taken and no response queued. -/
theorem Moves.silent {m' : Msg} {sw' : MsgSwitch}
    (only : Only sw sw' j m' [] (if !m.status.writing && m'.status.writing then [m.ptr] else []))
    (ok : MsgOK m') (view : m'.view = m.view) (ptr : m'.ptr = m.ptr) (imsgid : m'.imsgid = m.imsgid)
    (from_last : m'.lastFrom = m.lastFrom)
    (writing : m.status.writing = true → m'.status.writing = true)
    (still : Q = [] → m'.status.writing = m.status.writing)
    (reads : m'.readQueue <:+ m.readQueue) (writs : m'.writQueue = m.writQueue ++ Q) :
    Moves S H sw sw' j m m' [] Q [] [] where
  only := only
  ok := ok
  ptr := ptr
  imsgid := imsgid
  closed := congrArg Link.End.closed view
  sent := congrArg Link.End.sent view
  disc := congrArg Link.End.disc view
  writing := writing
  still := still
  from_last := from_last
  need := fun h => (congrArg Link.End.need view).symm.trans h
  reads := reads
  writs := writs
  resps := by simp
  link := fun out acc got clo strict y => by
    rw [view]; simpa using Steps.refl _ _

/-! ## `msg_flush` and `msg_write` -/

theorem MsgOK.pushWrit {p : MsgPacket} (hm : MsgOK m) (hp : m.incompleteWritPacket = some p)
    (hc : m.status.closed = false) : MsgOK (m.pushWrit p).upd where
  paw := by simp [Msg.upd, Msg.pushWrit]
  par := hm.par
  closed_read := hm.closed_read
  space := hm.space
  need := fun hn => hm.need (Bool.and_elim_left hn)
  full := fun hd hl => by
    have : (m.pushWrit p).acks = false := hm.acks_eq
    simp [Msg.upd, this]
    exact hm.full hd hl
  closed_inc := fun _ => rfl
  sent := hm.sent
  disc := hm.disc
  queued := fun _ => by
    simp [Msg.upd, Msg.starts, Msg.pushWrit]
    grind
  writing := by
    have := hm.writing
    simp [Msg.upd, Msg.starts, Msg.pushWrit]
    grind
  closing := fun h => absurd h (by rw [show (m.pushWrit p).upd.status.closed = _ from hc]; simp)
  used := fun _ => hm.used (Or.inl (by simp [hp]))
  inc_size := fun _ h => by cases h
  pos := hm.pos
  ids := by
    intro q hq
    have hq : q ∈ m.writQueue ++ [p] := hq.resolve_right (by simp [Msg.upd, Msg.pushWrit])
    rcases List.mem_append.1 hq with hq | hq
    · exact hm.ids q (Or.inl hq)
    · rw [List.mem_singleton.1 hq]; exact hm.ids p (Or.inr hp)
  wspace := fun hd => by
    have hs := hm.wspace hd
    simp only [Msg.upd, Msg.pushWrit, List.length_append, List.length_singleton] at hs ⊢
    split_ifs with hle
    · symm; exact decide_eq_false (by omega)
    · rw [hs]; simp only [decide_eq_decide]; omega

theorem push_moves {p : MsgPacket} (h : sw.msgs j = some m) (hm : MsgOK m)
    (hp : m.incompleteWritPacket = some p) (hc : m.status.closed = false) :
    ∃ sw' m', msgPushWritPacket sw j = .ok sw' ∧
      Moves S H sw sw' j m m' [] [p] [] [] ∧ m'.incompleteWritPacket = none ∧
      (m.status.waitingForResp = true → m'.status.writing = m.status.writing) := by
  obtain ⟨sw', hs, ho⟩ := msgPushWritPacket_only h hp
  have hacks : (m.pushWrit p).acks = false := hm.acks_eq
  refine ⟨sw', (m.pushWrit p).upd, hs, ?_, rfl, fun hw => by
    simp [Msg.upd, Msg.starts, Msg.pushWrit, hw]⟩
  refine Moves.silent ?_ (hm.pushWrit hp hc) ?_ rfl rfl rfl ?_ (fun h => by cases h)
    List.suffix_rfl rfl
  · have hP : (m.pushWrit p).updPtrs =
        if !m.status.writing && (m.pushWrit p).upd.status.writing then [m.ptr] else [] := by
      have hw := hm.writing
      simp only [Msg.updPtrs, Msg.upd, Msg.starts, Msg.pushWrit, Msg.ptr]
      grind
    rw [← hP]
    simpa [Msg.updResps, hacks] using ho
  · simp [Msg.view, Msg.upd, hacks, hp]
    simp [Msg.pushWrit]
  · intro hw
    simp [Msg.upd, Msg.pushWrit, hw]

/-- **`msg_flush`.** Nothing happens, or the incomplete packet is queued. -/
theorem msgFlush_moves (h : sw.msgs j = some m) (hm : MsgOK m) :
    ∃ sw' m' ret, msgFlush sw j = .ok (sw', ret) ∧
      Moves S H sw sw' j m m' [] m.incompleteWritPacket.toList [] [] ∧
      m'.incompleteWritPacket = none ∧
      (m.status.waitingForResp = true → m'.status.writing = m.status.writing) := by
  simp only [msgFlush, h]
  cases hc : m.status.closed with
  | true =>
    have hp := hm.closed_inc hc
    exact ⟨sw, m, .error .ebadmsg, rfl, by simpa [hp] using Moves.refl h hm, hp, fun _ => rfl⟩
  | false =>
    cases hp : m.incompleteWritPacket with
    | none => exact ⟨sw, m, .ok 0, rfl, by simpa using Moves.refl h hm, hp, fun _ => rfl⟩
    | some p =>
      obtain ⟨sw', m', hs, hmv, hinc, hw⟩ :=
        push_moves (S := S) (H := H) h hm hp hc
      exact ⟨sw', m', .ok 0, by simp [hs, bind, Except.bind, pure, Except.pure], hmv, hinc, hw⟩

/-- The object with a new incomplete packet. -/
def Msg.newPacket (m : Msg) : Msg :=
  { m with
    incompleteWritPacket := some ⟨m.wireId, m.type, [], m.addr⟩
    nWrit := m.nWrit + 1 }

theorem MsgOK.newPacket (hm : MsgOK m) (hc : m.status.closed = false) : MsgOK m.newPacket where
  paw := hm.paw
  par := hm.par
  closed_read := hm.closed_read
  space := hm.space
  need := hm.need
  full := hm.full
  closed_inc := fun h => absurd (hc.symm.trans h) (by simp)
  sent := hm.sent
  disc := hm.disc
  queued := hm.queued
  writing := hm.writing
  closing := hm.closing
  used := fun _ => Nat.succ_ne_zero _
  inc_size := by rintro p ⟨⟩; simp [MsgPacket.size]
  pos := hm.pos
  ids := by
    rintro p (hp | ⟨⟨⟩⟩)
    · exact hm.ids p (Or.inl hp)
    · exact ⟨rfl, fun _ => rfl⟩
  wspace := hm.wspace

/-- The object with bytes added to the incomplete packet. -/
def Msg.append (m : Msg) (p : MsgPacket) (bs : List UInt8) : Msg :=
  { m with incompleteWritPacket := some { p with data := p.data ++ bs } }

theorem MsgOK.append {p : MsgPacket} {bs : List UInt8} (hm : MsgOK m)
    (hp : m.incompleteWritPacket = some p) (hl : p.size + bs.length ≤ packDataSize) :
    MsgOK (m.append p bs) where
  paw := hm.paw
  par := hm.par
  closed_read := hm.closed_read
  space := hm.space
  need := hm.need
  full := hm.full
  closed_inc := fun h => by rw [hm.closed_inc h] at hp; cases hp
  sent := hm.sent
  disc := hm.disc
  queued := hm.queued
  writing := hm.writing
  closing := hm.closing
  used := fun _ => hm.used (Or.inl (by simp [hp]))
  inc_size := by rintro q ⟨⟩; simpa [MsgPacket.size] using hl
  pos := hm.pos
  ids := by
    rintro q (hq | ⟨⟨⟩⟩)
    · exact hm.ids q (Or.inl hq)
    · exact hm.ids p (Or.inr hp)
  wspace := hm.wspace

/-- Bytes from the caller go to the unsent packets. -/
theorem Moves.written {m' : Msg} {sw' : MsgSwitch} (hm : MsgOK m')
    (only : Only sw sw' j m' [] []) (hc : m.status.closed = false)
    (hd : m.status.disconnected = false) (ptr : m'.ptr = m.ptr) (imsgid : m'.imsgid = m.imsgid)
    (from_last : m'.lastFrom = m.lastFrom) (status : m'.status = m.status)
    (reads : m'.readQueue = m.readQueue) (pos : m'.curReadPacketPos = m.curReadPacketPos)
    (writs : m'.writQueue = m.writQueue) (hinc : m'.incompleteWritPacket ≠ none)
    (flat : m'.view.unsent.flatten = m.view.unsent.flatten ++ w) :
    Moves S H sw sw' j m m' [] [] w [] where
  only := by rw [status]; simpa using only
  ok := hm
  ptr := ptr
  imsgid := imsgid
  closed := by rw [status]
  sent := by rw [status]
  disc := by rw [status]
  writing := by rw [status]; exact id
  still := fun _ => by rw [status]
  from_last := from_last
  need := by rw [status]; exact id
  reads := by rw [reads]
  writs := by simp [writs]
  resps := by simp
  link := fun out acc got clo strict y => by
    have hne : m'.view.unsent ≠ [] := by
      cases hp : m'.incompleteWritPacket with
      | none => exact absurd hp hinc
      | some p => simp [Msg.view, hp]
    have hu : (m'.nWrit != 0 || m'.nRead != 0) = true := by
      have := hm.used (Or.inl hinc)
      simp [this]
    have := Steps.single (Step.write (S := S) (H := H)
      (x := ⟨.live m.view, out, acc, got, clo, strict⟩) (y := y) rfl hc hd w m'.view.unsent flat hne)
    have hv : m'.view = { m.view with used := true, unsent := m'.view.unsent } := by
      simp [Msg.view, status, reads, pos, hu]
    rw [hv]
    simpa using this

/-- `msg_packet_new`: the incomplete packet is queued, and a new one begun. -/
theorem msgPacketNew_moves (h : sw.msgs j = some m) (hm : MsgOK m)
    (hc : m.status.closed = false) (hd : m.status.disconnected = false) :
    ∃ sw' m' p, msgPacketNew sw j = .ok sw' ∧
      Moves S H sw sw' j m m' [] m.incompleteWritPacket.toList [] [] ∧
      m'.incompleteWritPacket = some p ∧ p.size = 0 := by
  have hpush : ∃ sw₁ m₁, (if m.incompleteWritPacket.isSome then msgPushWritPacket sw j
        else Except.ok sw) = .ok sw₁ ∧
      Moves S H sw sw₁ j m m₁ [] m.incompleteWritPacket.toList [] [] ∧
      m₁.incompleteWritPacket = none := by
    cases hp : m.incompleteWritPacket with
    | none => exact ⟨sw, m, rfl, by simpa using Moves.refl h hm, hp⟩
    | some p =>
      obtain ⟨sw₁, m₁, h₁, mv₁, hinc, -⟩ := push_moves h hm hp hc
      exact ⟨sw₁, m₁, h₁, mv₁, hinc⟩
  obtain ⟨sw₁, m₁, h₁, mv₁, hinc⟩ := hpush
  refine ⟨sw₁.set j (some m₁.newPacket), m₁.newPacket, _, ?_, ?_, rfl, rfl⟩
  · simp only [msgPacketNew, MsgSwitch.assertMsg, h, bind, Except.bind, pure, Except.pure, h₁,
      mv₁.only.get]
    rfl
  · have hc₁ := mv₁.closed.trans hc
    have mv₂ : Moves S H sw₁ (sw₁.set j (some m₁.newPacket)) j m₁ m₁.newPacket [] [] [] [] :=
      Moves.written (mv₁.ok.newPacket hc₁) (Only.set _ _ _) hc₁ (mv₁.disc.trans hd)
        rfl rfl rfl rfl rfl rfl rfl (by simp [Msg.newPacket])
        (by simp [Msg.view, Msg.newPacket, hinc])
    simpa using mv₁.trans mv₂

/-- The bytes in the packet that is not complete. -/
def Msg.begun (m : Msg) : ℕ := (m.incompleteWritPacket.map MsgPacket.size).getD 0

/-- From `m` to `m'` `n` bytes were written: the packets `Q` that were queued are full, and the
last byte is in the one that is not. -/
structure Fills (m m' : Msg) (Q : List MsgPacket) (n : ℕ) : Prop where
  full : ∀ p ∈ Q, p.size = packDataSize
  bytes : Q.length * packDataSize + m'.begun = m.begun + n
  last : 0 < m.begun + n → 0 < m'.begun

theorem Fills.refl (m : Msg) : Fills m m [] 0 := ⟨by simp, by simp, id⟩

/-- The copy loop of `msg_write`: all the bytes go in, and every packet it queues is
full. The induction is on the rounds; each takes at least one byte. -/
theorem msgWriteLoop_fills : ∀ (n : ℕ) (data : List UInt8) (sw : MsgSwitch) (m : Msg),
    data.length ≤ n → sw.msgs j = some m → MsgOK m → m.status.closed = false →
    m.status.disconnected = false → m.incompleteWritPacket ≠ none →
    ∃ sw' m' Q, msgWriteLoop n sw j data = .ok sw' ∧
      Moves S H sw sw' j m m' [] Q data [] ∧ Fills m m' Q data.length := by
  intro n
  induction n with
  | zero =>
    intro data sw m hl h hm _ _ _
    have : data = [] := List.length_eq_zero_iff.1 (by omega)
    subst this
    exact ⟨sw, m, [], rfl, Moves.refl h hm, Fills.refl m⟩
  | succ n ih =>
    intro data sw m hl h hm hc hd hinc
    cases hdata : data with
    | nil => exact ⟨sw, m, [], by simp [msgWriteLoop], Moves.refl h hm, Fills.refl m⟩
    | cons b bs =>
      -- a full packet is replaced first
      have hnew : ∃ sw₁ m₁ p Q, (if m.incompleteWritPacket.map MsgPacket.size = some packDataSize then
            msgPacketNew sw j else Except.ok sw) = .ok sw₁ ∧
          Moves S H sw sw₁ j m m₁ [] Q [] [] ∧ (∀ p ∈ Q, p.size = packDataSize) ∧
          m₁.incompleteWritPacket = some p ∧ p.size < packDataSize ∧
          Q.length * packDataSize + p.size = m.begun := by
        cases hp : m.incompleteWritPacket with
        | none => exact absurd hp hinc
        | some q =>
          by_cases hq : q.size = packDataSize
          · obtain ⟨sw₁, m₁, p, hs, mv, hp₁, hz⟩ :=
              msgPacketNew_moves (S := S) (H := H) h hm hc hd
            rw [hp] at mv
            refine ⟨sw₁, m₁, p, _, by simp [hq, hs], mv, by simpa using hq, hp₁, ?_, ?_⟩
            · rw [hz]; decide
            · simp [Msg.begun, hp, hq, hz]
          · have := hm.inc_size q hp
            exact ⟨sw, m, q, [], by simp [hq], Moves.refl h hm, by simp, hp, by omega,
              by simp [Msg.begun, hp]⟩
      obtain ⟨sw₁, m₁, p, Q₁, hs, mv₁, hQ₁, hp₁, hlt, hbegun⟩ := hnew
      set chunk := if packDataSize - p.size < (b :: bs).length then packDataSize - p.size
        else (b :: bs).length with hchunk
      have hpos : 0 < chunk := by
        rw [hchunk]; split_ifs
        · omega
        · simp
      have hle : chunk ≤ (b :: bs).length ∧ chunk ≤ packDataSize - p.size := by
        rw [hchunk]; split_ifs <;> omega
      have htake : ((b :: bs).take chunk).length = chunk := by
        rw [List.length_take]; omega
      have hok : MsgOK (m₁.append p ((b :: bs).take chunk)) :=
        mv₁.ok.append hp₁ (by rw [htake]; omega)
      have mv₂ : Moves S H sw₁ (sw₁.set j (some (m₁.append p ((b :: bs).take chunk)))) j m₁
          (m₁.append p ((b :: bs).take chunk)) [] [] ((b :: bs).take chunk) [] :=
        Moves.written hok (Only.set _ _ _) (mv₁.closed.trans hc) (mv₁.disc.trans hd)
          rfl rfl rfl rfl rfl rfl rfl (by simp [Msg.append])
          (by simp [Msg.view, Msg.append, hp₁])
      have mv₁₂ := mv₁.trans mv₂
      obtain ⟨sw', m', Q, hrun, mv₃, hQ⟩ := ih ((b :: bs).drop chunk) _ _
        (by rw [List.length_drop]; rw [hdata] at hl; omega) mv₂.only.get hok
        (mv₁₂.closed.trans hc) (mv₁₂.disc.trans hd) (by simp [Msg.append])
      refine ⟨sw', m', Q₁ ++ [] ++ Q, ?_, ?_, ?_⟩
      · rw [msgWriteLoop]
        simp only [List.isEmpty_cons, Bool.false_eq_true, if_false, MsgSwitch.assertMsg, h, bind,
          Except.bind, pure, Except.pure, hs, mv₁.only.get, hp₁]
        exact hrun
      · have := mv₁₂.trans mv₃
        simpa [List.take_append_drop] using this
      · have hbytes := hQ.bytes
        have hlast := hQ.last
        have hnow : (m₁.append p ((b :: bs).take chunk)).begun = p.size + chunk := by
          simp [Msg.begun, Msg.append, MsgPacket.size, htake]
        rw [hnow, List.length_drop] at hbytes hlast
        refine ⟨fun q hq => ?_, ?_, fun _ => hlast (by omega)⟩
        · rcases List.mem_append.1 hq with hq | hq
          · exact hQ₁ q (by simpa using hq)
          · exact hQ.full q hq
        · rw [List.append_nil, List.length_append, Nat.add_mul]
          omega

/-- **`msg_write` takes all the bytes** when there is space. -/
theorem msgWrite_fills (h : sw.msgs j = some m) (hm : MsgOK m) (hc : m.status.closed = false)
    (hd : m.status.disconnected = false) (hw : m.status.spaceAvailForWrit = true)
    (buf : List UInt8) : ∃ sw' m' Q, msgWrite sw j buf = .ok (sw', .ok buf.length) ∧
      Moves S H sw sw' j m m' [] Q buf [] ∧ Fills m m' Q buf.length := by
  have hnew : ∃ sw₁ m₁, (if m.incompleteWritPacket.isNone then msgPacketNew sw j
        else Except.ok sw) = .ok sw₁ ∧
      Moves S H sw sw₁ j m m₁ [] [] [] [] ∧ m₁.incompleteWritPacket ≠ none ∧
      m₁.begun = m.begun := by
    cases hp : m.incompleteWritPacket with
    | some p => exact ⟨sw, m, rfl, Moves.refl h hm, by simp [hp], rfl⟩
    | none =>
      obtain ⟨sw₁, m₁, p, hs, mv, hp₁, hz⟩ :=
        msgPacketNew_moves (S := S) (H := H) h hm hc hd
      rw [hp] at mv
      exact ⟨sw₁, m₁, hs, mv, by simp [hp₁], by simp [Msg.begun, hp, hp₁, hz]⟩
  obtain ⟨sw₁, m₁, hs, mv₁, hinc, hbegun⟩ := hnew
  obtain ⟨sw', m', Q, hrun, mv₂, hQ⟩ := msgWriteLoop_fills (S := S) (H := H)
    buf.length buf sw₁ m₁ le_rfl mv₁.only.get mv₁.ok (mv₁.closed.trans hc)
    (mv₁.disc.trans hd) hinc
  refine ⟨sw', m', Q, ?_, by simpa using mv₁.trans mv₂, hQ.full, ?_, ?_⟩
  · simp only [msgWrite, h, hc, hd, hw, bind, Except.bind, pure, Except.pure, hs, hrun,
      Bool.not_true, Bool.false_eq_true, if_false]
  · rw [← hbegun]
    exact hQ.bytes
  · rw [← hbegun]
    exact hQ.last

/-- **`msg_write`.** It fails and nothing changes, or all the bytes go in. -/
theorem msgWrite_moves (h : sw.msgs j = some m) (hm : MsgOK m) (buf : List UInt8) :
    (∃ e, msgWrite sw j buf = .ok (sw, .error e)) ∨
    ∃ sw' m' Q, msgWrite sw j buf = .ok (sw', .ok buf.length) ∧
      Moves S H sw sw' j m m' [] Q buf [] ∧ (∀ p ∈ Q, p.size = packDataSize) ∧
      m.status.closed = false ∧ m.status.disconnected = false := by
  cases hc : m.status.closed with
  | true => exact Or.inl ⟨.ebadmsg, by simp only [msgWrite, h, hc, if_true]; rfl⟩
  | false =>
    cases hd : m.status.disconnected with
    | true => exact Or.inl ⟨.epipe, by simp only [msgWrite, h, hc, hd]; rfl⟩
    | false =>
      cases hw : m.status.spaceAvailForWrit with
      | false => exact Or.inl ⟨.eagain, by simp only [msgWrite, h, hc, hd, hw]; rfl⟩
      | true =>
        obtain ⟨sw', m', Q, hrun, mv, hQ⟩ := msgWrite_fills (S := S) (H := H) h hm hc hd hw buf
        exact Or.inr ⟨sw', m', Q, hrun, mv, hQ.full, rfl, rfl⟩

/-! ## `msg_read` -/

/-- Only the head packet bounds the position, so it may be anything here. -/
theorem MsgOK.popRead (hm : MsgOK m) (hc : m.status.closed = false) (hne : m.readQueue ≠ [])
    (pos : ℕ) : MsgOK ({ m with curReadPacketPos := pos } : Msg).popRead.upd where
  paw := hm.paw
  par := fun hc' => by
    have := hm.par hc'
    cases hq : m.readQueue with
    | nil => exact absurd hq hne
    | cons p rest => cases rest <;> simp_all [Msg.upd, Msg.popRead]
  closed_read := fun h => absurd (hc.symm.trans h) (by simp)
  space := fun hd => by
    have := hm.space hd
    simp only [Msg.upd, Msg.popRead, List.length_tail]
    by_cases hl : msgNBuffPacketsAllowed ≤ m.readQueue.length - 1
    · simp [hl, this]; omega
    · simp [hl]; omega
  need := by
    simp only [Msg.upd, Msg.acks, Msg.popRead]
    grind
  full := fun hd hl => by
    have hl : msgNBuffPacketsAllowed ≤ m.readQueue.length - 1 := by
      simpa [Msg.upd, Msg.popRead] using hl
    have hn := hm.full hd (by omega)
    have hs := hm.need hn hd
    simp only [Msg.upd, Msg.acks, Msg.popRead, List.length_tail]
    simp [hl, hn, hs]
  closed_inc := hm.closed_inc
  sent := hm.sent
  disc := hm.disc
  queued := fun h => by
    have := hm.queued h
    simp only [Msg.upd, Msg.popRead]
    grind
  writing := fun h => by
    have hst : ({ m with curReadPacketPos := pos } : Msg).popRead.starts = false := hm.starts_eq
    simp only [Msg.upd, hst, Bool.or_false] at h
    exact hm.writing h
  closing := hm.closing
  used := hm.used
  inc_size := hm.inc_size
  pos := fun _ => Or.inl rfl
  ids := hm.ids
  wspace := hm.wspace

/-- The last bytes of the head packet are read, and it is popped. -/
theorem popRead_moves {p : MsgPacket} {rest : List MsgPacket} (sw : MsgSwitch)
    (hm : MsgOK m) (hc : m.status.closed = false) (hq : m.readQueue = p :: rest) :
    ∃ sw' m' R, msgPopReadPacket (sw.set j (some { m with curReadPacketPos := p.size })) j = .ok sw' ∧
      Moves S H sw sw' j m m' R [] [] (p.data.drop m.curReadPacketPos) ∧
      m'.readQueue = rest := by
  set m₁ : Msg := { m with curReadPacketPos := p.size } with hm₁
  have o₁ := Only.set sw j m₁
  obtain ⟨sw', hs, o₂⟩ := msgPopReadPacket_only o₁.get
  have hst : m₁.popRead.starts = false := hm.starts_eq
  refine ⟨sw', m₁.popRead.upd, m₁.popRead.updResps, hs, ?_, by simp [Msg.upd, Msg.popRead, hm₁, hq]⟩
  have hw : m₁.popRead.upd.status.writing = m.status.writing := by
    simp [Msg.upd, hst]; rfl
  refine ⟨?_, hm.popRead hc (by simp [hq]) _, rfl, rfl, rfl, rfl, rfl, fun h => hw.trans h, fun _ => hw,
    rfl, fun h => Bool.and_elim_left h, ?_, ?_, ?_, ?_⟩
  · have := o₁.trans o₂
    simpa [Msg.updPtrs, hst, hw] using this
  · exact List.tail_suffix _
  · simp [Msg.upd, Msg.popRead, hm₁]
  · intro r hr
    simp only [Msg.updResps] at hr
    split_ifs at hr with ha
    · simp only [Msg.acks, Bool.and_eq_true] at ha
      exact ⟨ha.1.1, (Bool.not_eq_true' _).mp ha.2, List.mem_singleton.1 hr⟩
    · simp at hr
  · intro out acc got clo strict y
    have hunread : m.view.unread =
        p.data.drop m.curReadPacketPos ++ (rest.map MsgPacket.data).flatten := by
      have hle : m.curReadPacketPos ≤ p.data.length := by
        rcases hm.pos hc with h0 | ⟨q, l, hql, hlt⟩
        · omega
        · rw [hq] at hql; cases hql; exact hlt.le
      simp [Msg.view, hc, hq, List.drop_append_of_le_length hle]
    have hread := Step.read (S := S) (H := H)
      (x := ⟨.live m.view, out, acc, got, clo, strict⟩) (y := y) rfl hunread
      (rest.any (·.data.isEmpty)) (by simp only [Msg.view, hq, List.any_cons]; grind)
    have hv : m₁.popRead.view = { m.view with
        unread := (rest.map MsgPacket.data).flatten, hollow := rest.any (·.data.isEmpty) } := by
      simp [Msg.view, Msg.popRead, hm₁, hc, hq]
    have hack := upd_link (S := S) (H := H) m₁.popRead out acc
      (got ++ p.data.drop m.curReadPacketPos) clo strict y fun ha _ => by
        simp only [Msg.acks, Bool.and_eq_true, Bool.not_eq_true'] at ha
        have hd : m.status.disconnected = false := ha.2
        cases hsent : m.status.sentDisconnect with
        | false => exact hsent
        | true => rcases hm.sent hsent with h | h <;> simp_all
    rw [hv] at hack
    simpa using (Steps.single hread).trans hack

/-- Some bytes of the head packet are read, and some are left. -/
theorem eat_moves {p : MsgPacket} {rest : List MsgPacket} {n : ℕ} (sw : MsgSwitch)
    (hm : MsgOK m) (hc : m.status.closed = false) (hq : m.readQueue = p :: rest)
    (hn : m.curReadPacketPos + n < p.size) :
    Moves S H sw (sw.set j (some { m with curReadPacketPos := m.curReadPacketPos + n })) j m
      { m with curReadPacketPos := m.curReadPacketPos + n } [] [] []
      ((p.data.drop m.curReadPacketPos).take n) := by
  have hok : MsgOK { m with curReadPacketPos := m.curReadPacketPos + n } :=
    ⟨hm.paw, hm.par, hm.closed_read, hm.space, hm.need, hm.full, hm.closed_inc, hm.sent, hm.disc,
      hm.queued, hm.writing, hm.closing, hm.used, hm.inc_size, fun _ => Or.inr ⟨p, rest, hq, hn⟩,
      hm.ids, hm.wspace⟩
  refine ⟨by simpa using Only.set _ _ _, hok, rfl, rfl, rfl, rfl, rfl, id, fun _ => rfl, rfl, id,
    List.suffix_rfl, by simp, by simp, ?_⟩
  intro out acc got clo strict y
  have hunread : m.view.unread = (p.data.drop m.curReadPacketPos).take n ++
      ((m.readQueue.map MsgPacket.data).flatten).drop (m.curReadPacketPos + n) := by
    have hle : n ≤ (p.data.drop m.curReadPacketPos).length := by
      rw [List.length_drop]; simp only [MsgPacket.size] at hn; omega
    have htake : (p.data.drop m.curReadPacketPos).take n =
        (((m.readQueue.map MsgPacket.data).flatten).drop m.curReadPacketPos).take n := by
      rw [hq, List.map_cons, List.flatten_cons, List.drop_append_of_le_length (by
        simp only [MsgPacket.size] at hn; omega), List.take_append_of_le_length hle]
    rw [htake, ← List.drop_drop]
    simp [Msg.view, hc]
  have hread := Step.read (S := S) (H := H)
    (x := ⟨.live m.view, out, acc, got, clo, strict⟩) (y := y) rfl hunread m.view.hollow id
  have := Steps.single hread
  simpa [Msg.view, hc] using this

/-- The copy loop of `msg_read`. The induction is on the rounds, one packet each; it
returns nothing only when there are only empty packets. -/
theorem msgReadLoop_moves : ∀ (n : ℕ) (sw : MsgSwitch) (m : Msg) (size : ℕ) (buf : List UInt8),
    m.readQueue.length < n → sw.msgs j = some m → MsgOK m → m.status.closed = false →
    m.readQueue ≠ [] ∨ size = 0 →
    ∃ sw' m' R r, msgReadLoop n sw j size buf = .ok (sw', buf ++ r) ∧
      Moves S H sw sw' j m m' R [] [] r ∧
      (size ≠ 0 → r = [] → ∀ p ∈ m.readQueue, p.data = []) := by
  intro n
  induction n with
  | zero => intro sw m size buf hl; omega
  | succ n ih =>
    intro sw m size buf hl h hm hc hne
    by_cases hz : size = 0
    · exact ⟨sw, m, [], [], by simp [msgReadLoop, hz], Moves.refl h hm, fun h => absurd hz h⟩
    cases hq : m.readQueue with
    | nil => exact absurd hq (hne.resolve_right hz)
    | cons p rest =>
      have hpos : m.curReadPacketPos ≤ p.size ∧ (p.size ≠ 0 → m.curReadPacketPos < p.size) := by
        rcases hm.pos hc with h0 | ⟨q, l, hql, hlt⟩
        · omega
        · rw [hq] at hql; cases hql; omega
      rw [hq, List.length_cons] at hl
      by_cases hlt : size < p.size - m.curReadPacketPos
      -- the caller's buffer ends inside the packet
      · have mv := eat_moves (S := S) (H := H) (j := j) (n := size) sw hm hc hq
          (by omega)
        refine ⟨_, _, [], _, ?_, mv, ?_⟩
        · have hend : m.curReadPacketPos + size ≠ p.size := by omega
          have hn : ∀ sw b, msgReadLoop n sw j 0 b = .ok (sw, b) := by
            intro sw b; cases n <;> simp [msgReadLoop]
          rw [msgReadLoop]
          simp only [hz, if_false, MsgSwitch.assertMsg, h, bind, Except.bind, hq, hlt, if_true, hend,
            Nat.sub_self, hn]
        · intro _ hr
          have : ((p.data.drop m.curReadPacketPos).take size).length = size := by
            rw [List.length_take, List.length_drop]; simp only [MsgPacket.size] at hlt; omega
          rw [hr] at this
          exact absurd this.symm hz
      · -- the packet is used up
        obtain ⟨sw₁, m₁, R₁, hs, mv₁, hrest⟩ :=
          popRead_moves (S := S) (H := H) (j := j) sw hm hc hq
        have hend : m.curReadPacketPos + (p.size - m.curReadPacketPos) = p.size := by omega
        have htake : (p.data.drop m.curReadPacketPos).take (p.size - m.curReadPacketPos) =
            p.data.drop m.curReadPacketPos := by
          apply List.take_of_length_le; rw [List.length_drop]; rfl
        have hpar := mv₁.ok.par (mv₁.closed.trans hc)
        have hempty : p.data.drop m.curReadPacketPos = [] → p.data = [] := by
          intro hd
          have hlen := congrArg List.length hd
          rw [List.length_drop, List.length_nil] at hlen
          simp only [MsgPacket.size] at hpos
          exact List.length_eq_zero_iff.1 (by omega)
        have hstep : ∀ sw' buf', (if !m₁.status.packetAvailToRead then
              Except.ok (sw₁, buf ++ p.data.drop m.curReadPacketPos)
            else msgReadLoop n sw₁ j (size - (p.size - m.curReadPacketPos))
              (buf ++ p.data.drop m.curReadPacketPos)) = .ok (sw', buf') →
            msgReadLoop (n + 1) sw j size buf = .ok (sw', buf') := by
          intro sw' buf' hrun
          simp only [hq] at hs
          rw [msgReadLoop]
          simp only [hz, if_false, MsgSwitch.assertMsg, h, bind, Except.bind, pure, Except.pure, hq,
            hlt, hend, if_true, htake, hs, mv₁.only.get]
          exact hrun
        cases hrq : rest with
        | nil =>
          refine ⟨sw₁, m₁, R₁, _, hstep _ _ (by simp [hpar, hrest, hrq]), mv₁, ?_⟩
          intro _ hr q hqm
          rw [List.mem_singleton.1 hqm]; exact hempty hr
        | cons p' rest' =>
          obtain ⟨sw', m', R, r, hrun, mv₂, hr₂⟩ := ih sw₁ m₁ (size - (p.size - m.curReadPacketPos))
            (buf ++ p.data.drop m.curReadPacketPos) (by rw [hrest]; omega) mv₁.only.get mv₁.ok
            (mv₁.closed.trans hc) (Or.inl (by rw [hrest, hrq]; simp))
          refine ⟨sw', m', R₁ ++ R, _, hstep _ _ ?_, mv₁.trans mv₂, ?_⟩
          · rw [← List.append_assoc]; simpa [hpar, hrest, hrq] using hrun
          · intro _ hr q hqm
            obtain ⟨hr₁, hr₂'⟩ := List.append_eq_nil_iff.1 hr
            have hd := hempty hr₁
            rcases List.mem_cons.1 hqm with rfl | hqm
            · exact hd
            · refine hr₂ ?_ hr₂' q (by rw [hrest, hrq]; exact hqm)
              simp only [MsgPacket.size, hd, List.length_nil]; omega

/-- **`msg_read`.** It fails or is at the end of file, or takes bytes off the queue. -/
theorem msgRead_moves (h : sw.msgs j = some m) (hm : MsgOK m) (size : ℕ) :
    ∃ sw' ret, msgRead sw j size = .ok (sw', ret) ∧
      ((∃ e, ret = .error e ∧ sw' = sw) ∨
        ∃ m' R r, ret = .ok r ∧ Moves S H sw sw' j m m' R [] [] r ∧
          m.status.closed = false ∧
          (size ≠ 0 → r = [] → (m.status.disconnected = true ∧ m.readQueue = []) ∨
            (m.readQueue ≠ [] ∧ ∀ p ∈ m.readQueue, p.data = []))) := by
  simp only [msgRead, h]
  cases hc : m.status.closed with
  | true => exact ⟨sw, _, rfl, Or.inl ⟨_, rfl, rfl⟩⟩
  | false =>
    have hpar := hm.par hc
    cases hq : m.readQueue with
    | nil =>
      cases hd : m.status.disconnected with
      | true =>
        refine ⟨sw, .ok [], by simp [hpar, hq, pure, Except.pure], Or.inr ⟨m, [], [], rfl,
          Moves.refl h hm, rfl, fun _ _ => Or.inl ⟨rfl, rfl⟩⟩⟩
      | false =>
        exact ⟨sw, .error .eagain, by simp [hpar, hq, pure, Except.pure], Or.inl ⟨_, rfl, rfl⟩⟩
    | cons p rest =>
      obtain ⟨sw', m', R, r, hrun, mv, hr⟩ := msgReadLoop_moves (S := S) (H := H)
        (m.readQueue.length + 1) sw m size [] (by omega) h hm hc (Or.inl (by simp [hq]))
      rw [hq] at hrun hr
      refine ⟨sw', .ok r, ?_, Or.inr ⟨m', R, r, rfl, mv, rfl, fun hz hnil =>
        Or.inr ⟨by simp, hr hz hnil⟩⟩⟩
      rw [List.nil_append] at hrun
      simp [hpar, hq, bind, Except.bind, pure, Except.pure] at hrun ⊢
      simp [hrun]

end Zimr
