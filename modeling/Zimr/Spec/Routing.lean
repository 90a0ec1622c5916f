import Zimr.Spec.Strays

/-!
# Whose response it is

`Daemon.Routed` is what the tables of connections, websites and msgs have to agree on. A webapp can
upset that with frames that the library never sends (`Daemon.unruly`).
-/

namespace Zimr

/-! ## Frames that no webapp sends -/

/-- The frame disconnects a msg once more that is still in use, or opens one that is no command. -/
def MsgSwitch.strayFrame (sw : MsgSwitch) : Frame → Bool
  | .resp resp =>
    match msgGet sw resp.msgid with
    | some msg => decide (resp.status = .discon) && msg.status.sentDisconnect && !msg.status.closed
    | none => false
  | .pack packet => (msgGet sw packet.msgid).isNone && decide (0 ≤ packet.type)

/-- One of the frames does, when its turn comes. -/
def MsgSwitch.strayFrames : List Frame → MsgSwitch → Bool
  | [], _ => false
  | frame :: frames, sw =>
    sw.strayFrame frame ||
      match msgSwitchDispatch sw frame with
      | .ok sw => strayFrames frames sw
      | .error _ => false

namespace Daemon

/-- The callback reads such a frame. -/
def unruly (d : Daemon) : Callback → Bool
  | .zsRead fd r frames =>
    match d.zs.zsockets fd with
    | some zs =>
      if d.zs.activeRead fd && zs.status.readable && decide (zs.eventHdlr = .msgZsocket)
          && decide (zs.type = .connect) then
        match d.callZs (zsRead d.zs fd 1024 r) with
        | .ok (d, .ok bytes) =>
          decide (bytes ≠ []) && (d.switches fd).any fun sw => MsgSwitch.strayFrames frames
            { sw with nSelectable := d.nSelectable, writeArmed := d.zs.activeWrite fd }
        | _ => false
      else false
    | none => false
  | _ => false

/-- **The tables agree.** -/
structure Routed (d : Daemon) : Prop where
  /-- The socket of a client is open. -/
  socket : ∀ fd conn, d.connections fd = some conn →
    ∃ zs, d.zs.zsockets fd = some zs ∧ zs.type = .connect ∧ zs.status.closed = false
  website : ∀ fd conn w, d.connections fd = some conn → conn.websiteSockfd = some w →
    ∃ site ∈ d.websites, site.sockfd = w
  /-- The msg of a client is in use and has its descriptor. -/
  msg : ∀ fd conn w, d.connections fd = some conn → conn.websiteSockfd = some w →
    ∃ sw msg, d.switches w = some sw ∧ msgGet sw conn.msgid = some msg ∧ msg.type = fd ∧
      msg.status.closed = false
  unique : ∀ fd fd' conn conn' w, d.connections fd = some conn → d.connections fd' = some conn' →
    conn.websiteSockfd = some w → conn'.websiteSockfd = some w → conn.msgid = conn'.msgid → fd = fd'
  /-- What is read from a msg goes to the client that it was opened for. -/
  answers : ∀ w sw msgid msg, d.switches w = some sw → sw.msgs msgid = some msg →
    msg.status.closed = false → 0 ≤ msg.type →
    ∃ conn, d.connections msg.type.toNat = some conn ∧ conn.websiteSockfd = some w ∧ conn.msgid = msgid

end Daemon

end Zimr
