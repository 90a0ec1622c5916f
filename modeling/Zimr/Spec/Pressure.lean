import Zimr.Spec.Routing

/-!
# Back-pressure

A response goes through the daemon a packet at a time: what `msg_read` returns for the msg of a client
is handed to `zs_write`, which takes it only when the socket is writable. `Daemon.Eager` is what keeps
the two in step, and `Daemon.acceptedIn` and `Daemon.returnedIn` are the bytes of a run on both sides.
-/

namespace Zimr

/-- What `zs_write` has taken for the socket between the two states: it alone starts a write. -/
def Zs.accepted (σ σ' : Zs) (fd : ℕ) : List UInt8 :=
  match σ.zsockets fd, σ'.zsockets fd with
  | some zs, some zs' =>
    if !zs.status.writing && zs'.status.writing then zs'.write.buffer.getD [] else []
  | _, _ => []

namespace Daemon

/-- In `MSG_EVT_READ_READY`: the state after `msg_read`, the socket of the webapp, the msg, and the bytes
that were read. -/
def reading (d : Daemon) : Callback → Option (Daemon × ℕ × ℕ × List UInt8)
  | .msgRead fd msgid _ _ _ =>
    match d.switches fd with
    | some sw =>
      if sw.activeReadFdSet msgid && (sw.msgs msgid).all
          (fun msg => msg.status.packetAvailToRead || msg.status.disconnected) then
        match d.assertMsg' fd fun sw => msgClrRead sw msgid with
        | .ok d =>
          match d.tryMsg fd fun sw => msgRead sw msgid packDataSize with
          | .ok (d, some buf) => some (d, fd, msgid, buf)
          | _ => none
        | .error _ => none
      else none
    | none => none
  | _ => none

/-- What `msg_read` returns in the callback for the msg of the client. -/
def returned (d : Daemon) (c : ℕ) (a : Callback) : List UInt8 :=
  match d.reading a, d.connections c with
  | some (_, fd, msgid, buf), some conn =>
    if conn.websiteSockfd = some fd ∧ conn.msgid = msgid then buf else []
  | _, _ => []

/-- With what the callback comes to `zs_write` in `MSG_EVT_READ_READY`: the state, the socket of the
client and the bytes. -/
def relays (d : Daemon) (a : Callback) : Option (Daemon × ℕ × List UInt8) :=
  match d.reading a with
  | some (d, fd, msgid, buf) =>
    match d.msgGetType fd msgid with
    | .ok type =>
      if buf = [] ∨ type < 0 then none
      else
        match d.callZs' (zsSetWrite d.zs type.toNat) with
        | .ok d => some (d, type.toNat, buf)
        | .error _ => none
    | .error _ => none
  | none => none

/-- The msg of a client is armed for reading only while its socket takes a write. -/
def Eager (d : Daemon) : Prop :=
  ∀ c conn w sw, d.connections c = some conn → conn.websiteSockfd = some w → d.switches w = some sw →
    sw.activeReadFdSet conn.msgid = true →
    ∃ zs, d.zs.zsockets c = some zs ∧ zs.status.writable = true ∧ zs.status.writing = false

/-- What `zs_write` takes for the client along a run. -/
def acceptedIn (c : ℕ) : List Callback → Daemon → List UInt8
  | [], _ => []
  | a :: as, d =>
    match d.step a with
    | .ok d' => d.zs.accepted d'.zs c ++ acceptedIn c as d'
    | .error _ => []

/-- What `msg_read` returns for its msg along a run. -/
def returnedIn (c : ℕ) : List Callback → Daemon → List UInt8
  | [], _ => []
  | a :: as, d =>
    match d.step a with
    | .ok d' => d.returned c a ++ returnedIn c as d'
    | .error _ => []

end Daemon

end Zimr
