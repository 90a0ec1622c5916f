import Zimr.Spec.Switches
import Zimr.Spec.Website

/-!
# The daemon (`zimrd/main.c`)

`Daemon` holds the sockets, the switch of each internal socket, the websites and the
table of client connections. A step is one callback of `zfd_select`, `zs_select` or
`msg_switch_select`, called only when its entry is armed and ready.

* The pointer to a switch is `udata` of its socket and goes with it (`setZs`).
* The functions of `msg_switch.c` arm and disarm the socket as they go. `writeArmed` carries
  the interest through a call; the socket is told afterwards, when it has changed.
* `msg_switch_read` puts frames together from bytes (`Spec.Wire`); here the frames that a
  read completes are an argument of the step.
* `gethostbyaddr` is disabled in the source, so there is no host name.
-/

namespace Zimr

/-- `conn_data_t`. A `website_sockfd` of `-1` and a `request_type` of 0 are `none`; `buffer`
holds the first `bufferlen` bytes, the rest of it is zero. -/
structure ConnData where
  exlisnfd : ℕ
  addr : ℕ
  websiteSockfd : Option ℕ := none
  msgid : ℕ := 0
  requestType : Option ReqType := none
  postlen : ℕ := 0
  isHttps : Bool
  buffer : Option (List UInt8) := none
  deriving DecidableEq, Repr

/-- The state of `zimrd`. `nSelectable` is the counter of `msg_switch.c`. -/
structure Daemon where
  zs : Zs
  switches : ℕ → Option MsgSwitch
  nSelectable : ℤ
  websites : List Website
  connections : ℕ → Option ConnData

/-- `website_init`, `zs_init` and the `memset` of `connections`. -/
def Daemon.init : Daemon := ⟨zsInit, fun _ => none, 0, [], fun _ => none⟩

namespace Daemon

variable {α : Type}

/-! ## The layers below -/

/-- The sockets change; a switch whose socket is freed is out of reach. -/
def setZs (d : Daemon) (zs : Zs) : Daemon :=
  { d with
    zs
    switches := fun fd => if (zs.zsockets fd).isSome then d.switches fd else none }

/-- A call of `zsocket.c`. -/
def callZs (d : Daemon) (r : Except ZsFault (Zs × α)) : Except DFault (Daemon × α) :=
  match r with
  | .ok (zs, a) => .ok (d.setZs zs, a)
  | .error e => .error (.zs e)

/-- One that returns nothing. -/
def callZs' (d : Daemon) (r : Except ZsFault Zs) : Except DFault Daemon :=
  match r with
  | .ok zs => .ok (d.setZs zs)
  | .error e => .error (.zs e)

/-- The socket learns whether there is something to write. -/
def rearm (d : Daemon) (fd : ℕ) (armed : Bool) : Except DFault Daemon :=
  if armed = d.zs.activeWrite fd then .ok d
  else d.callZs' (if armed then zsSetWrite d.zs fd else zsClrWrite d.zs fd)

/-- A call of `msg_switch.c` on the switch of `fd`. -/
def callMsg (d : Daemon) (fd : ℕ) (sw : MsgSwitch)
    (f : MsgSwitch → Except Fault (MsgSwitch × α)) : Except DFault (Daemon × α) :=
  match f { sw with nSelectable := d.nSelectable, writeArmed := d.zs.activeWrite fd } with
  | .error e => .error (.msg e)
  | .ok (sw, a) => do
    let d ← { d with
      switches := Function.update d.switches fd (some sw)
      nSelectable := sw.nSelectable }.rearm fd sw.writeArmed
    return (d, a)

/-- A function that asserts the switch. -/
def assertMsg (d : Daemon) (fd : ℕ) (f : MsgSwitch → Except Fault (MsgSwitch × α)) :
    Except DFault (Daemon × α) :=
  match d.switches fd with
  | none => .error .assertion
  | some sw => d.callMsg fd sw f

/-- One that returns `-1` without it, and sometimes with it: `none`. The daemon does not
look at `errno`. -/
def tryMsg (d : Daemon) (fd : ℕ) (f : MsgSwitch → Except Fault (MsgSwitch × Except Errno α)) :
    Except DFault (Daemon × Option α) :=
  match d.switches fd with
  | none => .ok (d, none)
  | some sw => d.callMsg fd sw fun sw => (f sw).map fun r => (r.1, r.2.toOption)

/-- One that returns nothing. -/
def assertMsg' (d : Daemon) (fd : ℕ) (f : MsgSwitch → Except Fault MsgSwitch) :
    Except DFault Daemon := do
  let (d, _) ← d.assertMsg fd fun sw => (f sw).map fun sw => (sw, ())
  return d

/-- `msg_exists`. -/
def msgExists (d : Daemon) (fd : ℕ) (msgid : ℕ) : Except DFault Bool :=
  match d.switches fd with
  | none => .error .assertion
  | some sw => .ok (msgGet sw msgid).isSome

/-- `msg_get_type`. -/
def msgGetType (d : Daemon) (fd : ℕ) (msgid : ℕ) : Except DFault ℤ :=
  match d.switches fd with
  | none => .error .assertion
  | some sw =>
    match msgGet sw msgid with
    | none => .error .nullDeref
    | some msg => .ok msg.type

/-- `msg_switch_create`. -/
def msgSwitchCreate (d : Daemon) (fd : ℕ) : Except DFault Daemon :=
  if (d.switches fd).isSome || (d.zs.zsockets fd).isNone then .ok d
  else do
    let d ← d.callZs' (zsSetEventHdlr d.zs fd .msgZsocket)
    let d ← d.callZs' (zsSetRead d.zs fd)
    return { d with switches := Function.update d.switches fd (some Zimr.msgSwitchCreate) }

/-- `msg_switch_destroy`. -/
def msgSwitchDestroy (d : Daemon) (fd : ℕ) : Except DFault Daemon :=
  match d.switches fd with
  | none => .ok d
  | some sw =>
    match Zimr.msgSwitchDestroy { sw with nSelectable := d.nSelectable } with
    | .error e => .error (.msg e)
    | .ok sw => do
      let d := { d with
        switches := Function.update d.switches fd none, nSelectable := sw.nSelectable }
      let d ← d.callZs' (zsClrRead d.zs fd)
      d.callZs' (zsClrWrite d.zs fd)

/-! ## Connections and websites -/

/-- `connections[ fd ]`, which is followed. -/
def getConn (d : Daemon) (fd : ℤ) : Except DFault ConnData :=
  if fd < 0 ∨ (fdSetSize : ℤ) ≤ fd then .error .connIndex
  else
    match d.connections fd.toNat with
    | none => .error .nullConn
    | some conn => .ok conn

/-- A write through the pointer `connections[ fd ]`. -/
def setConn (d : Daemon) (fd : ℕ) (conn : ConnData) : Daemon :=
  { d with connections := Function.update d.connections fd (some conn) }

/-- The first half of `cleanup_connection`. -/
def closeMsg (d : Daemon) (conn : ConnData) : Except DFault Daemon :=
  match conn.websiteSockfd with
  | none => .ok d
  | some w => do
    let found ← d.msgExists w conn.msgid
    if found then
      let (d, _) ← d.tryMsg w fun sw => msgClose sw conn.msgid
      return d
    else return d

/-- `cleanup_connection`. -/
def cleanupConnection (d : Daemon) (sockfd : ℤ) : Except DFault Daemon := do
  let conn ← d.getConn sockfd
  let d ← d.closeMsg conn
  let (d, _) ← d.callZs (zsClose d.zs sockfd.toNat)
  return { d with connections := Function.update d.connections sockfd.toNat none }

/-- The loop of `remove_website`. -/
def cleanupWebsite : List ℕ → Daemon → ℕ → Except DFault Daemon
  | [], d, _ => .ok d
  | i :: is, d, fd => do
    let d ← (if (d.connections i).any (fun conn => conn.websiteSockfd = some fd) then
      d.cleanupConnection i else .ok d)
    cleanupWebsite is d fd

/-- `remove_website`: the first website of the socket. -/
def removeWebsite (d : Daemon) (fd : ℕ) : Except DFault Daemon :=
  match websiteGetBySockfd d.websites fd with
  | none => .ok d
  | some website => do
    let d ← cleanupWebsite (List.range fdSetSize) d fd
    let d ← d.msgSwitchDestroy fd
    let (d, _) ← d.callZs (zsClose d.zs fd)
    let (d, _) ← d.callZs (zsClose d.zs website.exlisnfd)
    return { d with websites := d.websites.eraseP fun w => w.sockfd = fd }

/-- `sprintf( error_msg, "FAIL error opening external socket: %s, %s", ... )`, into 64 bytes. -/
def openingError (ip strerror : List UInt8) : Except DFault (List UInt8) :=
  let text := ascii "FAIL error opening external socket: " ++ ip ++ ascii ", " ++ strerror
  if 64 ≤ text.length then .error .outOfBounds else .ok text

/-- `start_website`, with the buffer that holds the URL and then the address. -/
def startWebsite (d : Daemon) (fd : ℕ) (buf : List UInt8) (k : SockRes) (strerror : List UInt8) :
    Except DFault (Daemon × List UInt8) :=
  let url := cstr buf
  let ip := cstr (buf.drop (url.length + 1))
  if buf.length ≤ url.length + 1 + ip.length then .error .outOfBounds
  else if (websiteGetByFullUrl d.websites url ip).isSome then
    .ok (d, ascii "FAIL website already exists")
  else do
    let port ← getPortFromUrl buf
    let (d, exlisnfd) ← d.callZs (zsocket d.zs (inetAddr ip) port .listen .exsock
      (startswith url (ascii "https://")) k)
    match exlisnfd with
    | .error _ => do
      let text ← openingError ip strerror
      return (d, text)
    | .ok exlisnfd => do
      let website ← websiteAdd fd url ip exlisnfd
      let d := { d with websites := d.websites ++ [website] }
      let d ← d.callZs' (zsSetRead d.zs exlisnfd)
      return (d, ascii "OK")

/-- `command_handler`: `ZM_CMD_WS_START` and `ZM_CMD_WS_STOP`. -/
def commandHandler (d : Daemon) (fd msgid : ℕ) (type : ℤ) (buf : List UInt8) (k : SockRes)
    (strerror : List UInt8) : Except DFault Daemon :=
  if type = -1 then do
    let (d, retMsg) ← d.startWebsite fd buf k strerror
    let (d, _) ← d.tryMsg fd fun sw => msgWrite sw msgid (retMsg ++ [0])
    let (d, _) ← d.tryMsg fd fun sw => msgClose sw msgid
    return d
  else if type = -2 then d.removeWebsite fd
  else .ok d

/-! ## A request -/

/-- The error pages. -/
inductive Page
  | p400 | p404 | p414 | p502
  deriving DecidableEq, Repr

/-- `html_error_*`, with the NUL that `sizeof` counts. -/
def Page.html : Page → List UInt8
  | .p400 => ascii "HTTP/1.1 400 Bad Request\r\nContent-Length: 65\r\n\r\n<!doctype html><html><body><h1>400 Bad Request</h1></body></html>" ++ [0]
  | .p404 => ascii "HTTP/1.1 404 Not Found\r\nContent-Length: 63\r\n\r\n<!doctype html><html><body><h1>404 Not Found</h1></body></html>" ++ [0]
  | .p414 => ascii "HTTP/1.1 414 Request-URI Too Long\r\nContent-Length: 74\r\n\r\n<!doctype html><html><body><h1>414 Request-URI Too Long</h1></body></html>" ++ [0]
  | .p502 => ascii "HTTP/1.1 502 Bad Gateway\r\nContent-Length: 65\r\n\r\n<!doctype html><html><body><h1>502 Bad Gateway</h1></body></html>" ++ [0]

/-- An error page, then `goto cleanup`. -/
def refuse (d : Daemon) (sockfd : ℕ) (page : Page) : Except DFault Daemon := do
  let (d, _) ← d.callZs (zsWrite d.zs sockfd page.html)
  d.cleanupConnection sockfd

/-- The request type at the start of the buffer. -/
def requestType (buffer : List UInt8) : Option ReqType :=
  if startswith buffer (ascii "GET") then some .get
  else if startswith buffer (ascii "POST") then some .post
  else none

/-- `endofhdrs - buffer`. -/
def endOfHeaders (buffer : List UInt8) : Option ℕ :=
  (strnstr buffer (ascii "\r\n\r\n") packDataSize).map (· + 4)

/-- `postlen` from the header: `none` for the error page. The number is copied into a buffer
of 32 bytes. -/
def requestPostlen (type : ReqType) (buffer : List UInt8) : Except DFault (Option ℕ) :=
  match type, strnstr buffer (ascii "Content-Length: ") packDataSize with
  | .post, some i =>
    match strnstr (buffer.drop (i + 16)) (ascii "\r\n") (packDataSize - (i + 16)) with
    | none => .ok none
    | some n =>
      if 32 ≤ n then .error .outOfBounds
      else .ok (some (strtoumax ((buffer.drop (i + 16)).take n)))
  | _, _ => .ok (some 0)

/-- `msglen`. -/
def msgLen (hdrlen postlen : ℕ) : ℕ := (hdrlen + postlen + 4 + 1) % sizeMod

/-- What `exread` writes for the header: the length, the address, the empty host name and
the header block. -/
def headWrites (addr : ℕ) (buffer : List UInt8) (hdrlen postlen : ℕ) : List (List UInt8) :=
  [leBytes 8 (msgLen hdrlen postlen), leBytes 4 addr, [0], buffer.take hdrlen]

/-- `msg_write` after `msg_write`, until one returns `-1`. -/
def msgWrites (d : Daemon) (fd msgid : ℕ) : List (List UInt8) → Except DFault (Daemon × Bool)
  | [] => .ok (d, true)
  | buf :: bufs => do
    let (d, n) ← d.tryMsg fd fun sw => msgWrite sw msgid buf
    match n with
    | none => return (d, false)
    | some _ => d.msgWrites fd msgid bufs

/-- `postlen` after `left` bytes are passed on: the larger of the two, less `left`. -/
def postlenLeft (postlen left : ℕ) : ℕ := (if postlen < left then left else postlen) - left

/-- The bytes of the body that are passed on. -/
def bodyWrites (conn : ConnData) (rest : List UInt8) : List (List UInt8) :=
  if conn.requestType = some .post ∧ conn.postlen ≠ 0 then [rest] else []

/-- `postlen` after them. -/
def bodyLeft (conn : ConnData) (rest : List UInt8) : ℕ :=
  if conn.requestType = some .post ∧ conn.postlen ≠ 0 then postlenLeft conn.postlen rest.length
  else conn.postlen

/-- `postlen = -1`. -/
def allReceived : ℕ := sizeMod - 1

/-- The end of `exread`: `rest` is what the buffer holds from `ptr` on. -/
def exreadBody (d : Daemon) (sockfd : ℕ) (w : ℕ) (conn : ConnData) (rest : List UInt8) :
    Except DFault Daemon := do
  let (d, ok) ← d.msgWrites w conn.msgid (bodyWrites conn rest)
  if !ok then d.refuse sockfd .p502
  else if bodyLeft conn rest = 0 then do
    -- no more data is coming
    let (d, _) ← d.tryMsg w fun sw => msgFlush sw conn.msgid
    let d ← d.callZs' (zsSetRead d.zs sockfd)
    return d.setConn sockfd { conn with postlen := allReceived, buffer := none }
  else do
    let d ← d.assertMsg' w fun sw => msgSetWrite sw conn.msgid
    return d.setConn sockfd { conn with postlen := bodyLeft conn rest, buffer := none }

/-- `exread` once the website is found: the msg is opened and the header passed on. The
callers of `msg_open` never see its `-1`: without a switch `cleanup_connection` fails its
`assert`. -/
def exreadOpen (d : Daemon) (sockfd : ℕ) (website : Website) (conn : ConnData) (type : ReqType)
    (buffer : List UInt8) (hdrlen : ℕ) : Except DFault Daemon := do
  let (d, msgid) ← d.assertMsg website.sockfd fun sw => msgOpen sw sockfd
  let conn := { conn with msgid }
  let d := d.setConn sockfd conn
  let d ← d.callZs' (zsSetWrite d.zs sockfd)
  let postlen ← requestPostlen type buffer
  match postlen with
  | none => d.refuse sockfd .p400
  | some postlen => do
    let conn := { conn with postlen }
    let d := d.setConn sockfd conn
    let (d, ok) ← d.msgWrites website.sockfd msgid (headWrites conn.addr buffer hdrlen postlen)
    if !ok then d.refuse sockfd .p502
    else d.exreadBody sockfd website.sockfd conn (buffer.drop hdrlen)

/-- `exread` before the website is known. -/
def exreadHeader (d : Daemon) (sockfd : ℕ) (conn : ConnData) (buffer : List UInt8) :
    Except DFault Daemon :=
  match endOfHeaders buffer with
  | none =>
    if buffer.length = packDataSize then d.refuse sockfd .p414
    else d.callZs' (zsSetRead d.zs sockfd)
  | some hdrlen =>
    match requestType buffer with
    | none => d.refuse sockfd .p400
    | some type => do
      let conn := { conn with requestType := some type }
      let d := d.setConn sockfd conn
      let url ← getUrlFromHttpHeader buffer packDataSize
      match url with
      | none => d.refuse sockfd .p400
      | some url =>
        -- `zs_get_addr( conn_data->exlisnfd )->sin_addr`
        match d.zs.zsockets conn.exlisnfd with
        | none => .error .nullDeref
        | some exlisn =>
          match websiteFind d.websites url (ascii (if conn.isHttps then "https://" else "http://"))
              (inetNtoa exlisn.addr) with
          | none => d.refuse sockfd .p404
          | some website =>
            let conn := { conn with websiteSockfd := some website.sockfd }
            let d := d.setConn sockfd conn
            if website.exlisnfd ≠ conn.exlisnfd then d.refuse sockfd .p404
            else d.exreadOpen sockfd website conn type buffer hdrlen

/-- `exread`; `r` answers the read that `zs_read` starts when it has given out everything. -/
def exread (d : Daemon) (sockfd : ℕ) (r : RwRes) : Except DFault Daemon := do
  let conn ← d.getConn sockfd
  let buffer := conn.buffer.getD []
  let d := d.setConn sockfd { conn with buffer := some buffer }
  let (d, got) ← d.callZs (zsRead d.zs sockfd (packDataSize - buffer.length) r)
  match got with
  | .error _ => d.cleanupConnection sockfd
  | .ok bytes =>
    if bytes = [] then d.cleanupConnection sockfd
    else if conn.postlen = allReceived then return d
    else
      let buffer := buffer ++ bytes
      let conn := { conn with buffer := some buffer }
      let d := d.setConn sockfd conn
      match conn.websiteSockfd with
      | none => d.exreadHeader sockfd conn buffer
      | some w =>
        match websiteGetBySockfd d.websites w with
        | none => d.refuse sockfd .p502
        | some website => d.exreadBody sockfd website.sockfd conn buffer

/-! ## Handlers -/

/-- `MSG_SWITCH_EVT_IO_ERROR` without a website: the connections of the msgs are closed. -/
def cleanupMsgs : List ℕ → Daemon → ℕ → Except DFault Daemon
  | [], d, _ => .ok d
  | n :: ns, d, fd => do
    let found ← d.msgExists fd n
    if found then do
      let type ← d.msgGetType fd n
      let d ← (if 0 < type then d.cleanupConnection type else .ok d)
      cleanupMsgs ns d fd
    else cleanupMsgs ns d fd

/-- `msg_event_handler`, `MSG_SWITCH_EVT_IO_ERROR`. -/
def ioError (d : Daemon) (fd : ℕ) : Except DFault Daemon :=
  if (websiteGetBySockfd d.websites fd).isSome then d.removeWebsite fd
  else do
    let d ← cleanupMsgs (List.range fdSetSize) d fd
    let d ← d.msgSwitchDestroy fd
    let (d, _) ← d.callZs (zsClose d.zs fd)
    return d

/-- `msg_switch_failed`, with the handler it calls. -/
def switchFailed (d : Daemon) (fd : ℕ) : Except DFault Daemon := do
  let d ← d.callZs' (zsClrRead d.zs fd)
  let d ← d.callZs' (zsClrWrite d.zs fd)
  let d ← d.assertMsg' fd fun sw => .ok (msgSwitchFailed sw)
  d.ioError fd

/-- The frames of one read, one after the other. -/
def dispatchAll : List Frame → MsgSwitch → Except Fault MsgSwitch
  | [], sw => .ok sw
  | frame :: frames, sw => do
    let sw ← msgSwitchDispatch sw frame
    dispatchAll frames sw

/-- `msg_switch_read`. -/
def switchRead (d : Daemon) (fd : ℕ) (r : RwRes) (frames : List Frame) : Except DFault Daemon :=
  match d.switches fd with
  | none => .error .assertion
  | some _ => do
    let (d, got) ← d.callZs (zsRead d.zs fd 1024 r)
    match got with
    | .error _ => d.switchFailed fd
    | .ok bytes => if bytes = [] then d.switchFailed fd else d.assertMsg' fd (dispatchAll frames)

/-- `msg_switch_write`. -/
def switchWrite (d : Daemon) (fd : ℕ) : Except DFault Daemon := do
  let (d, frame) ← d.assertMsg fd msgSwitchWrite
  let (d, n) ← d.callZs (zsWrite d.zs fd frame.wire.encode)
  match n with
  | .error _ => d.switchFailed fd
  | .ok _ => return d

/-- `msg_event_handler`, `MSG_EVT_ACCEPT_READY`: `msg_accept` returns the id of the msg, and 0
where it fails. -/
def msgAcceptReady (d : Daemon) (fd msgid : ℕ) : Except DFault Daemon := do
  let (d, r) ← d.tryMsg fd fun sw => msgAccept sw msgid
  if r.getD 0 = 0 then return d
  else d.assertMsg' fd fun sw => msgSetRead sw msgid

/-- The data of a response, for the client it goes to. -/
def relay (d : Daemon) (type : ℤ) (buf : List UInt8) : Except DFault Daemon := do
  let d ← d.callZs' (zsSetWrite d.zs type.toNat)
  let (d, n) ← d.callZs (zsWrite d.zs type.toNat buf)
  match n with
  | .error _ => d.cleanupConnection type
  | .ok _ => return d

/-- `msg_event_handler`, `MSG_EVT_READ_READY`; `stack` is what `buf` held before. -/
def msgReadReady (d : Daemon) (fd msgid : ℕ) (stack : List UInt8) (k : SockRes)
    (strerror : List UInt8) : Except DFault Daemon := do
  let d ← d.assertMsg' fd fun sw => msgClrRead sw msgid
  let (d, n) ← d.tryMsg fd fun sw => msgRead sw msgid packDataSize
  let type ← d.msgGetType fd msgid
  match n with
  | none => d.cleanupConnection type
  | some buf =>
    if buf = [] then d.cleanupConnection type
    else if type < 0 then
      d.commandHandler fd msgid type ((buf ++ stack.drop buf.length).take packDataSize) k strerror
    else d.relay type buf

/-- `msg_event_handler`, `MSG_EVT_WRITE_READY`. -/
def msgWriteReady (d : Daemon) (fd msgid : ℕ) : Except DFault Daemon := do
  let type ← d.msgGetType fd msgid
  if type < 0 then .error .outOfBounds
  else do
    let d ← d.callZs' (zsSetRead d.zs type.toNat)
    d.assertMsg' fd fun sw => msgClrWrite sw msgid

/-- `insock_event_hdlr`, `ZS_EVT_ACCEPT_READY`. -/
def insockAccept (d : Daemon) (fd : ℕ) : Except DFault Daemon := do
  let (d, newfd) ← d.callZs (zsAccept d.zs fd)
  match newfd with
  | .ok (some newfd) => d.msgSwitchCreate newfd
  | _ => return d

/-- `exsock_event_hdlr`, `ZS_EVT_ACCEPT_READY`. -/
def exsockAccept (d : Daemon) (fd : ℕ) : Except DFault Daemon := do
  let (d, newfd) ← d.callZs (zsAccept d.zs fd)
  match newfd with
  | .ok (some newfd) =>
    if (d.connections newfd).isSome then .error .assertion
    else
      match d.zs.zsockets newfd, d.zs.zsockets fd with
      | some child, some exlisn => do
        let d := d.setConn newfd { exlisnfd := fd, addr := child.addr, isHttps := exlisn.ssl }
        d.callZs' (zsSetRead d.zs newfd)
      | _, _ => .error .nullDeref
  | _ => return d

/-- `exsock_event_hdlr`, `ZS_EVT_READ_READY`. -/
def exsockRead (d : Daemon) (fd : ℕ) (r : RwRes) : Except DFault Daemon := do
  let d ← d.callZs' (zsClrRead d.zs fd)
  d.exread fd r

/-- `exsock_event_hdlr`, `ZS_EVT_WRITE_READY`. A `website_sockfd` of `-1` is no index. -/
def exsockWrite (d : Daemon) (fd : ℕ) : Except DFault Daemon := do
  let d ← d.callZs' (zsClrWrite d.zs fd)
  let conn ← d.getConn fd
  match conn.websiteSockfd with
  | none => .error .outOfBounds
  | some w => d.assertMsg' w fun sw => msgSetRead sw conn.msgid

/-! ## Steps -/

/-- The loop of `main`: a listening socket for webapps on every address of the
configuration. -/
def start : List (ℕ × ℤ × SockRes) → Daemon → Except DFault Daemon
  | [], d => .ok d
  | (addr, portno, k) :: proxies, d => do
    let (d, sockfd) ← d.callZs (zsocket d.zs addr portno .listen .insock false k)
    match sockfd with
    | .error _ => .error .quit
    | .ok sockfd => do
      let d ← d.callZs' (zsSetRead d.zs sockfd)
      start proxies d

/-- The callbacks, with what the kernel answers. -/
inductive Callback
  | zfdRead (fd : ℕ) (accept : Except SockErrno (ℕ × ℕ)) (r₁ r₂ : RwRes)
  | zfdWrite (fd : ℕ) (r₁ r₂ : RwRes)
  | zsRead (fd : ℕ) (r : RwRes) (frames : List Frame)
  | zsWrite (fd : ℕ)
  | msgAccept (fd msgid : ℕ)
  | msgRead (fd msgid : ℕ) (stack : List UInt8) (k : SockRes) (strerror : List UInt8)
  | msgWrite (fd msgid : ℕ)

/-- `zs_select`, the first test: the handler of the socket gets `ZS_EVT_READ_READY` or
`ZS_EVT_ACCEPT_READY`. -/
def zsReadReady (d : Daemon) (fd : ℕ) (zs : Zsocket) (r : RwRes) (frames : List Frame) :
    Except DFault Daemon :=
  match zs.eventHdlr, zs.type with
  | .insock, .listen => d.insockAccept fd
  | .exsock, .listen => d.exsockAccept fd
  | .exsock, .connect => d.exsockRead fd r
  | .msgZsocket, .connect => d.switchRead fd r frames
  | .insock, .connect => .ok d
  | .msgZsocket, .listen => .ok d

/-- The second test, for `ZS_EVT_WRITE_READY`. -/
def zsWriteReady (d : Daemon) (fd : ℕ) (zs : Zsocket) : Except DFault Daemon :=
  match zs.type, zs.eventHdlr with
  | .listen, _ => .error .assertion
  | .connect, .insock => .ok d
  | .connect, .exsock => d.exsockWrite fd
  | .connect, .msgZsocket => d.switchWrite fd

/-- A callback that is not due does nothing. -/
def step (d : Daemon) : Callback → Except DFault Daemon
  | .zfdRead fd accept r₁ r₂ => d.callZs' (d.zs.step (.zfdRead fd accept r₁ r₂))
  | .zfdWrite fd r₁ r₂ => d.callZs' (d.zs.step (.zfdWrite fd r₁ r₂))
  | .zsRead fd r frames =>
    match d.zs.zsockets fd with
    | some zs =>
      if d.zs.activeRead fd && zs.status.readable then d.zsReadReady fd zs r frames else .ok d
    | none => .ok d
  | .zsWrite fd =>
    match d.zs.zsockets fd with
    | some zs => if d.zs.activeWrite fd && zs.status.writable then d.zsWriteReady fd zs else .ok d
    | none => .ok d
  | .msgAccept fd msgid =>
    match (d.switches fd).bind (·.msgs msgid) with
    | some msg => if !msg.status.connected then d.msgAcceptReady fd msgid else .ok d
    | none => .ok d
  | .msgRead fd msgid stack k strerror =>
    match d.switches fd with
    | some sw =>
      if sw.activeReadFdSet msgid && (sw.msgs msgid).all
          (fun msg => msg.status.packetAvailToRead || msg.status.disconnected) then
        d.msgReadReady fd msgid stack k strerror
      else .ok d
    | none => .ok d
  | .msgWrite fd msgid =>
    match d.switches fd with
    | some sw =>
      if sw.activeWriteFdSet msgid && (sw.msgs msgid).all
          (fun msg => msg.status.spaceAvailForWrit || msg.status.disconnected) then
        d.msgWriteReady fd msgid
      else .ok d
    | none => .ok d

end Daemon

end Zimr
