import Zimr.Spec.Zimrd

/-!
# The callbacks at which the daemon's tables can go astray

Each is a question about the state before the callback and the callback.
-/

namespace Zimr

namespace Daemon

/-- The callback handles `ZM_CMD_WS_STOP` or `MSG_SWITCH_EVT_IO_ERROR` for this socket. -/
def drops (d : Daemon) : Callback → Option ℕ
  | .msgRead fd msgid _ _ _ =>
    match d.switches fd with
    | some sw =>
      match sw.msgs msgid with
      | some msg =>
        if sw.activeReadFdSet msgid && (msg.status.packetAvailToRead || msg.status.disconnected)
            && decide (msg.type = -2) then some fd else none
      | none => none
    | none => none
  | .zsRead fd r _ =>
    match d.zs.zsockets fd with
    | some zs =>
      if d.zs.activeRead fd && zs.status.readable && decide (zs.eventHdlr = .msgZsocket)
          && decide (zs.type = .connect) then
        match zsRead d.zs fd 1024 r with
        | .ok (_, .ok bytes) => if bytes = [] then some fd else none
        | .ok (_, .error _) => some fd
        | .error _ => none
      else none
    | none => none
  | .zsWrite fd =>
    match d.zs.zsockets fd with
    | some zs =>
      if d.zs.activeWrite fd && zs.status.writable && decide (zs.eventHdlr = .msgZsocket)
          && decide (zs.type = .connect) then
        match d.assertMsg fd msgSwitchWrite with
        | .ok (d, frame) =>
          match zsWrite d.zs fd frame.wire.encode with
          | .ok (_, .error _) => some fd
          | _ => none
        | .error _ => none
      else none
    | none => none
  | _ => none

/-- Nothing in the tables refers to the socket, and `website_find` returns no website of
it. -/
structure NoRefs (d : Daemon) (fd : ℕ) : Prop where
  websites : ∀ site ∈ d.websites, site.sockfd ≠ fd
  connections : ∀ c < fdSetSize, ∀ conn, d.connections c = some conn → conn.websiteSockfd ≠ some fd
  found : ∀ url protocol ip site, websiteFind d.websites url protocol ip = some site →
    site.sockfd ≠ fd

/-- How many websites are registered for the socket. -/
def sitesOf (d : Daemon) (fd : ℕ) : ℕ := d.websites.countP fun site => site.sockfd = fd

/-! ## Listeners -/

/-- A connection that still has to be given a website, by the address of its listener, has an open
listener. -/
def Listened (d : Daemon) : Prop :=
  ∀ fd conn, d.connections fd = some conn → conn.websiteSockfd = none →
    ∃ zs, d.zs.zsockets conn.exlisnfd = some zs ∧ zs.type = .listen

/-- With the first website of the socket goes a listener that no other website uses, while a client
of that listener has no website yet. -/
def strandsAt (d : Daemon) (fd : ℕ) : Bool :=
  (websiteGetBySockfd d.websites fd).any fun site =>
    (d.zs.zsockets site.exlisnfd).any (fun zs => decide (zs.nOpen ≤ 1)) &&
      (List.range fdSetSize).any fun c => (d.connections c).any fun conn =>
        conn.websiteSockfd.isNone && decide (conn.exlisnfd = site.exlisnfd)

/-- The callback takes away such a website. -/
def strands (d : Daemon) (a : Callback) : Bool := (d.drops a).any d.strandsAt

/-- The state and the buffer with which the callback comes to `start_website`. -/
def starting (d : Daemon) : Callback → Option (Daemon × List UInt8)
  | .msgRead fd msgid stack _ _ =>
    match d.switches fd with
    | some sw =>
      if sw.activeReadFdSet msgid && (sw.msgs msgid).all
          (fun msg => msg.status.packetAvailToRead || msg.status.disconnected) then
        match d.assertMsg' fd fun sw => msgClrRead sw msgid with
        | .ok d =>
          match d.tryMsg fd fun sw => msgRead sw msgid packDataSize with
          | .ok (d, some buf) =>
            match d.msgGetType fd msgid with
            | .ok type =>
              if decide (buf ≠ []) && decide (type = -1) then
                some (d, (buf ++ stack.drop buf.length).take packDataSize) else none
            | .error _ => none
          | _ => none
        | .error _ => none
      else none
    | none => none
  | _ => none

/-- The callback takes a connection for the listener of a website: `zs_get_by_info` has found it
under the address and the port. -/
def takesClient (d : Daemon) (a : Callback) : Bool :=
  match d.starting a with
  | none => false
  | some (d, buf) =>
    let url := cstr buf
    let ip := cstr (buf.drop (url.length + 1))
    if (websiteGetByFullUrl d.websites url ip).isSome then false
    else
      match getPortFromUrl buf with
      | .error _ => false
      | .ok port =>
        match (zsGetByInfo d.zs (inetAddr ip) port).bind d.zs.zsockets with
        | some zs => decide (zs.type = .connect)
        | none => false

end Daemon

end Zimr
