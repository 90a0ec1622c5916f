import Zimr.Proof.Answer
import Zimr.Proof.Handshake
import Zimr.Proof.Switch

/-!
# Files

`zimr_file_handler` goes on from where the file stands to the end of the range, whatever `read`
returns each time (`pumpFile_spec`), and the page handler gives it a range inside of the file
(`pageAnswer_read`).

* `pump_sends_length_iff` — when as many bytes are sent as `Content-Length` says
-/

namespace Zimr

variable {env : ServeEnv} {reply reply' : Reply} {request : Headers} {name : String}
  {value : List UInt8}

/-! ## The file -/

/-- A connected msg with room for a packet: what a `MSG_EVT_WRITE_READY` says, after which the
file is watched. -/
structure Writable (sw : MsgSwitch) (msgid : ℕ) (m : Msg) : Prop where
  slot : sw.msgs msgid = some m
  ok : MsgOK m
  opened : m.status.closed = false
  linked : m.status.disconnected = false
  space : m.status.spaceAvailForWrit = true

/-- Then `msg_write` takes everything. -/
theorem msgWrite_takes {sw : MsgSwitch} {msgid : ℕ} {m : Msg} (h : Writable sw msgid m)
    (buf : List UInt8) : ∃ sw', msgWrite sw msgid buf = .ok (sw', .ok buf.length) := by
  obtain ⟨sw', -, -, hw, -⟩ :=
    msgWrite_fills (S := True) (H := True) h.slot h.ok h.opened h.linked h.space buf
  exact ⟨sw', hw⟩

variable {msgid : ℕ} {file : FileRead}

/-- The calls of a connection whose client stays: the msg has room at each of them, and the
file does not change. -/
def Pumps (msgid : ℕ) : FileRead → List PumpCall → Prop
  | _, [] => True
  | file, call :: calls =>
    (∃ m, Writable call.sw msgid m) ∧ file.Reads call.got ∧
      (0 < call.got → Pumps msgid { file with pos := file.pos + call.got } calls)

/-- What holds of the file between two calls. -/
structure FileRead.InRange (file : FileRead) : Prop where
  pos : (file.pos : ℤ) ≤ file.rangeEnd
  stop : file.rangeEnd ≤ file.content.length
  small : file.content.length < 2147483648

/-- How much of the range is left. -/
def FileRead.left (file : FileRead) : ℕ := file.rangeEnd.toNat - file.pos

/-- What is left of the range. -/
def FileRead.tail (file : FileRead) : List UInt8 := (file.content.drop file.pos).take file.left

theorem FileRead.asked_eq (h : file.InRange) : file.asked = min (fileBuffer : ℤ) file.left := by
  have h₁ := h.pos
  have h₂ := h.stop
  have h₃ := h.small
  have hmod : file.rangeEnd % (sizeMod : ℤ) = file.rangeEnd := by
    unfold sizeMod
    omega
  have hleft : (file.left : ℤ) = file.rangeEnd - file.pos := by
    unfold FileRead.left
    omega
  unfold FileRead.asked
  rw [hmod, hleft]
  unfold fileBuffer
  split
  · rw [intOf_small (by omega) (by omega)]
    omega
  · omega

/-- **A call takes the next part of the range**, or closes the connection at its end. -/
theorem zimrFileHandler_spec (h : file.InRange) {sw : MsgSwitch} {m : Msg} {got : ℕ}
    (hw : Writable sw msgid m) (hr : file.Reads got) :
    ∃ sw', zimrFileHandler sw msgid file got = .ok (sw', { file with pos := file.pos + got },
        (file.content.drop file.pos).take got, decide (got = 0)) ∧
      got ≤ file.left ∧ (got = 0 → file.left = 0) := by
  have hasked := file.asked_eq h
  have h₂ := h.stop
  have h₃ := h.pos
  have hgot : got ≤ file.left := by
    have := hr.asked
    omega
  have hzero : got = 0 → file.left = 0 := by
    intro hz
    by_contra hl
    have hpos : 0 < file.asked := by
      rw [hasked]
      unfold fileBuffer
      omega
    have := hr.some hpos (by unfold FileRead.left at hl; omega)
    omega
  obtain ⟨sw₁, h₁, o₁⟩ := msgSetWrite_only hw.slot
  by_cases hz : got = 0
  · refine ⟨sw₁, ?_, hgot, hzero⟩
    simp only [zimrFileHandler, h₁, bind, Except.bind, pure, Except.pure, hz, if_true,
      List.take_zero, decide_true]
  · obtain ⟨sw₂, h₂⟩ := msgWrite_takes
      (⟨o₁.get, hw.ok, hw.opened, hw.linked, hw.space⟩ : Writable sw₁ msgid m) ((file.content.drop file.pos).take got)
    refine ⟨sw₂, ?_, hgot, hzero⟩
    simp only [zimrFileHandler, h₁, h₂, bind, Except.bind, pure, Except.pure, hz, if_false,
      decide_false]

/-- After a call the range is what it was, and less of it is left. -/
theorem FileRead.InRange.next (h : file.InRange) {got : ℕ} (hgot : got ≤ file.left) :
    ({ file with pos := file.pos + got } : FileRead).InRange ∧
      ({ file with pos := file.pos + got } : FileRead).left = file.left - got ∧
      file.tail = (file.content.drop file.pos).take got ++
        ({ file with pos := file.pos + got } : FileRead).tail := by
  have h₁ := h.pos
  have h₂ := h.stop
  unfold FileRead.left at hgot
  refine ⟨⟨?_, h.stop, h.small⟩, ?_, ?_⟩
  · show ((file.pos + got : ℕ) : ℤ) ≤ file.rangeEnd
    omega
  · show file.rangeEnd.toNat - (file.pos + got) = file.rangeEnd.toNat - file.pos - got
    omega
  · unfold FileRead.tail FileRead.left
    show (file.content.drop file.pos).take (file.rangeEnd.toNat - file.pos) =
      (file.content.drop file.pos).take got ++
        (file.content.drop (file.pos + got)).take (file.rangeEnd.toNat - (file.pos + got))
    rw [← List.drop_drop, ← List.take_add]
    congr 1
    omega

/-- **The calls send the range from where the file stands**, and there are no more of them than
bytes and one. The induction is on the calls. -/
theorem pumpFile_spec : ∀ (calls : List PumpCall) (file : FileRead), file.InRange →
    Pumps msgid file calls → ∃ sent closed, pumpFile msgid file calls = .ok (sent, closed) ∧
      sent <+: file.tail ∧ (closed = true → sent = file.tail) ∧
      (file.left < calls.length → closed = true) := by
  intro calls
  induction calls with
  | nil =>
    intro file _ _
    exact ⟨[], false, rfl, List.nil_prefix, fun h => Bool.noConfusion h,
      fun h => absurd h (Nat.not_lt_zero _)⟩
  | cons call calls ih =>
    intro file hin hp
    obtain ⟨⟨m, hw⟩, hr, hnext⟩ := hp
    obtain ⟨sw', hcall, hgot, hzero⟩ := zimrFileHandler_spec hin hw hr
    obtain ⟨hin', hleft, htail⟩ := hin.next hgot
    by_cases hz : call.got = 0
    · -- the end of the range
      have hl := hzero hz
      refine ⟨[], true, ?_, List.nil_prefix, fun _ => ?_, fun _ => rfl⟩
      · rw [pumpFile, hcall]
        simp only [bind, Except.bind, pure, Except.pure, hz, decide_true, if_true, List.take_zero]
      · rw [FileRead.tail, hl, List.take_zero]
    · obtain ⟨sent, closed, hrun, hpre, hclosed, hend⟩ := ih _ hin' (hnext (by omega))
      refine ⟨(file.content.drop file.pos).take call.got ++ sent, closed, ?_, ?_, ?_, ?_⟩
      · rw [pumpFile, hcall]
        simp only [bind, Except.bind, pure, Except.pure, hz, decide_false, Bool.false_eq_true,
          if_false, hrun]
      · rw [htail]
        exact (List.prefix_append_right_inj _).2 hpre
      · intro hc
        rw [htail, hclosed hc]
      · intro hlt
        apply hend
        rw [hleft]
        rw [List.length_cons] at hlt
        omega

/-! ## The page handler -/

/-- The page handler comes to its end, and the calls of `zimr_file_handler` send as many bytes as
`Content-Length` says: those of the file from `range_start` on. Then they close the connection;
until then there are no more of them than one for each byte. -/
def SendsLength (env : ServeEnv) (reply : Reply) (ignored : List UInt8 → Bool) (file : PageFile) :
    Prop :=
  ∃ reply' writes read, zimrDefaultPageHandler env reply ignored (.file file true) =
      .ok (reply', writes, read) ∧
    ∃ len : ℕ, (headersGetHeader reply'.headers (ascii "Content-Length")).map (·.value) =
        some (decText len) ∧
      (∃ status rest, writes = status :: headersToString reply'.headers :: rest) ∧
      (read = none → len = 0) ∧
      ∀ f msgid calls, read = some f → Pumps msgid f calls →
        ∃ sent closed, pumpFile msgid f calls = .ok (sent, closed) ∧
          sent <+: (file.content.drop f.rangeStart.toNat).take len ∧
          (closed = true → sent = (file.content.drop f.rangeStart.toNat).take len ∧
            sent.length = len) ∧
          (len < calls.length → closed = true)

/-- What the page handler leaves behind, when it comes to its end. -/
theorem page_spec {ignored : List UInt8 → Bool} {file : PageFile}
    {served : Reply × List (List UInt8) × Option FileRead}
    (h : zimrDefaultPageHandler env reply ignored (.file file true) = .ok served) :
    HeadRoom env reply (pageAnswer env.request reply file).code
        (pageAnswer env.request reply file).sets ∧
      served.2.2 = (pageAnswer env.request reply file).read ∧
      served.1.httpStatus = (pageAnswer env.request reply file).code ∧
      (∃ status, served.2.1 = [status, headersToString served.1.headers] ++
        (if served.2.2.isSome then [] else [[]])) ∧
      (∀ s ∈ (pageAnswer env.request reply file).sets,
        headersGetHeader served.1.headers s.1 = some ⟨keyOf s.1, s.2⟩) ∧
      ∀ name, keyOf name ∉ headNames →
        (∀ s ∈ (pageAnswer env.request reply file).sets, keyOf name ≠ keyOf s.1) →
          headersGetHeader served.1.headers name = headersGetHeader reply.headers name := by
  obtain ⟨hplain, hdiff⟩ := pageAnswer_plain env env.request reply file
  rw [page_eq env reply ignored file] at h
  obtain ⟨⟨r, head⟩, hsent, rfl⟩ := Run.map_inv h
  obtain ⟨hstatus, ⟨status, rfl⟩, hset, hother⟩ := headWith_spec hplain hdiff hsent
  exact ⟨(headWith_inv hplain hdiff hsent).1, rfl, hstatus, ⟨status, rfl⟩, hset, hother⟩

/-- **As many bytes are sent as `Content-Length` says**, once the head of the answer is sent. -/
theorem sendsLength_of_room (env : ServeEnv) (reply : Reply) (ignored : List UInt8 → Bool)
    (file : PageFile) (hS : file.content.length < 2147483648)
    (h : HeadRoom env reply (pageAnswer env.request reply file).code
      (pageAnswer env.request reply file).sets) : SendsLength env reply ignored file := by
  obtain ⟨hplain, hdiff⟩ := pageAnswer_plain env env.request reply file
  obtain ⟨sent, hsent⟩ := headWith_ok hplain hdiff h
  obtain ⟨⟨reply', writes, read⟩, hserved⟩ : ∃ served,
      zimrDefaultPageHandler env reply ignored (.file file true) = .ok served :=
    ⟨_, by rw [page_eq env reply ignored file, hsent]; rfl⟩
  obtain ⟨-, rfl, -, ⟨status, hwrites⟩, hset, -⟩ := page_spec hserved
  obtain ⟨-, hnone, hsome⟩ := pageAnswer_read env.request reply file
  have hlength {n : ℕ} (hmem : (ascii "Content-Length", intText n) ∈
      (pageAnswer env.request reply file).sets) :
      (headersGetHeader reply'.headers (ascii "Content-Length")).map (·.value) =
        some (decText n) := by
    rw [hset _ hmem, ← intText_nat]
    rfl
  refine ⟨reply', writes, _, hserved, ?_⟩
  cases hr : (pageAnswer env.request reply file).read with
  | none =>
    exact ⟨0, hlength (hnone hr).2, ⟨status, _, hwrites⟩, fun _ => rfl, fun f _ _ hf => by cases hf⟩
  | some f =>
    obtain ⟨hcontent, hpos, hpart, -, -, hmem⟩ := hsome f hr
    rw [intOf_small (by omega) (by omega)] at hpart
    obtain ⟨h₀, h₁, h₂⟩ := @filePart_inside env.request _ (Int.natCast_nonneg file.content.length)
    rw [← hpart] at h₀ h₁ h₂
    dsimp only at h₀ h₁ h₂
    have hleft : ((f.left : ℕ) : ℤ) = f.rangeEnd - f.rangeStart := by
      unfold FileRead.left
      omega
    rw [← hleft] at hmem
    refine ⟨f.left, hlength hmem, ⟨status, _, hwrites⟩, fun h => (by cases h), ?_⟩
    intro g msgid calls hg hp
    cases hg
    have hin : f.InRange := ⟨by omega, by rw [hcontent]; omega, by rw [hcontent]; omega⟩
    obtain ⟨sent, closed, hrun, hpre, hclosed, hend⟩ := pumpFile_spec calls f hin hp
    have htail : f.tail = (file.content.drop f.rangeStart.toNat).take f.left := by
      rw [FileRead.tail, hcontent, hpos]
    rw [htail] at hpre hclosed
    refine ⟨sent, closed, hrun, hpre, fun hc => ⟨hclosed hc, ?_⟩, hend⟩
    -- the range lies inside of the file
    rw [hclosed hc, List.length_take, List.length_drop]
    omega

/-- **When the pump sends what `Content-Length` says**: for every file and every request, unless the
head of the answer or its line in the log runs over its buffer; from the headers that a connection
starts with, and without cookies, only the line may. When the page handler comes to its end, there
is a part of the file to send exactly when the file opens and is not one that the client has. -/
theorem pump_sends_length_iff (env : ServeEnv) (reply : Reply) (ignored : List UInt8 → Bool)
    (file : PageFile) (hS : file.content.length < 2147483648) :
    (SendsLength env reply ignored file ↔
      HeadRoom env reply (pageAnswer env.request reply file).code
        (pageAnswer env.request reply file).sets) ∧
    (env.cookies = [] → ∀ version : List UInt8, version.length ≤ 3 →
      (SendsLength env (freshReply version) ignored file ↔ env.logBytes 200 < 1024)) ∧
    ∀ opens served, zimrDefaultPageHandler env reply ignored (.file file opens) = .ok served →
      (served.2.2.isSome ↔ opens = true ∧ ¬CopyGood env.request
        ((valueOf reply.headers "Last-Modified").getD file.mtime)
        ((valueOf reply.headers "ETag").getD file.etag)) := by
  have hiff : ∀ reply, SendsLength env reply ignored file ↔
      HeadRoom env reply (pageAnswer env.request reply file).code
        (pageAnswer env.request reply file).sets := fun reply =>
    ⟨fun ⟨_, _, _, h, _⟩ => (page_spec h).1, sendsLength_of_room env reply ignored file hS⟩
  refine ⟨hiff reply, fun hck version hv => (hiff _).trans (fresh_room_iff hck hv file), ?_⟩
  intro opens served h
  cases opens with
  | false =>
    obtain ⟨r, -, rfl⟩ := Run.map_inv h
    exact ⟨fun h => (by cases h), fun h => (by cases h.1)⟩
  | true =>
    obtain ⟨-, hread, -⟩ := page_spec h
    rw [hread, ← (pageAnswer_read env.request reply file).1, Option.isSome_iff_ne_none]
    exact (and_iff_right rfl).symm

/-- A file of three bytes. -/
def smallFile : PageFile where
  content := ascii "abc"
  mimeType := ascii "text/plain"
  mtime := ascii "Thu, 01 Jan 2026 12:00:00 GMT"
  etag := List.replicate 34 34
  mime_short := by decide
  mtime_short := by decide
  etag_length := by decide

/-- Somebody asks for `/a.txt`. -/
def smallConnection : Connection where
  website := ⟨ascii "http://example.com", 3, ascii "0.0.0.0", 5⟩
  sockfd := 7
  ip := [127, 0, 0, 1]
  hostname := []
  type := .get
  fullUrl := ascii "a.txt"
  url := 0
  params := []
  httpVersion := ascii "1.1"
  rest := []

def smallEnv : ServeEnv where
  connection := smallConnection
  request := []
  logNow := ascii "Thu Jan 01 12:00:00 UTC 2026"
  now := ascii "Thu, 01 Jan 2026 12:00:00 GMT"
  version := ascii "0.1"
  cookies := []
  errorHandler := none
  now_short := by decide
  version_short := by decide

/-- The last two bytes are asked for. -/
def smallRange : ServeEnv := { smallEnv with request := [⟨ascii "Range", ascii "bytes=1-"⟩] }

/-- A switch with one open msg. -/
def openSwitch : MsgSwitch :=
  { msgSwitchCreate with
    msgs := Function.update (fun _ => none) 4 (some (Msg.fresh 0 4 0 true 0)) }

theorem openSwitch_writable : Writable openSwitch 4 (Msg.fresh 0 4 0 true 0) where
  slot := rfl
  ok := MsgOK.fresh ..
  opened := rfl
  linked := rfl
  space := rfl

/-- What the page handler leaves of the file. -/
def smallRead : FileRead := { content := ascii "abc", pos := 1, rangeStart := 1, rangeEnd := 3 }

theorem smallRead_pumps : Pumps 4 smallRead [⟨openSwitch, 1⟩, ⟨openSwitch, 1⟩, ⟨openSwitch, 0⟩] := by
  refine ⟨⟨_, openSwitch_writable⟩, ⟨by decide, by decide, fun _ _ => by decide⟩,
    fun _ => ⟨⟨_, openSwitch_writable⟩,
      ⟨by decide, by decide, fun _ _ => by decide⟩,
    fun _ => ⟨⟨_, openSwitch_writable⟩, ⟨by decide, by decide, ?_⟩,
      fun h => absurd h (by decide)⟩⟩⟩
  intro _ h
  exact absurd h (by decide)

/-- What the page handler does with the request for the last two bytes. -/
theorem smallPage : (zimrDefaultPageHandler smallRange (freshReply (ascii "1.1"))
    (fun _ => false) (.file smallFile true)).toOption.map (fun s =>
      (s.2.2, (headersGetHeader s.1.headers (ascii "Content-Length")).map (·.value))) =
    some (some smallRead, some (decText 2)) := by
  decide +kernel

theorem pump_sends_length_two : ∃ reply writes read sent,
    zimrDefaultPageHandler smallRange (freshReply (ascii "1.1")) (fun _ => false)
      (.file smallFile true) = .ok (reply, writes, some read) ∧
    pumpFile 4 read [⟨openSwitch, 1⟩, ⟨openSwitch, 1⟩, ⟨openSwitch, 0⟩] = .ok (sent, true) ∧
      sent = ascii "bc" := by
  obtain ⟨-, hfresh, -⟩ := pump_sends_length_iff smallRange (freshReply (ascii "1.1"))
    (fun _ => false) smallFile (by decide)
  obtain ⟨reply, writes, read, hserved, len, hlen, -, -, hpump⟩ :=
    (hfresh rfl (ascii "1.1") (by decide)).2 (by decide)
  have hpage := smallPage
  rw [hserved] at hpage
  simp only [Except.toOption, Option.map_some, Option.some.injEq, Prod.mk.injEq] at hpage
  obtain rfl : len = 2 := by
    rw [hpage.2, Option.some.injEq] at hlen
    exact (decText_inj hlen).symm
  obtain ⟨rfl, -⟩ := hpage
  obtain ⟨sent, closed, hrun, -, hclosed, hend⟩ := hpump smallRead 4 _ rfl smallRead_pumps
  obtain rfl : closed = true := hend (by decide)
  exact ⟨reply, writes, smallRead, sent, hserved, hrun, (hclosed rfl).1.trans (by decide)⟩

/-- The name of the browser has 1100 bytes. -/
def longAgent : ServeEnv :=
  { smallEnv with request := [⟨ascii "User-Agent", List.replicate 1100 97⟩] }

/-- Then the line of the log runs over its buffer before the file is looked at. -/
theorem pump_overruns : ¬∀ (env : ServeEnv) (reply : Reply) (ignored : List UInt8 → Bool)
    (file : PageFile), file.content.length < 2147483648 → SendsLength env reply ignored file := by
  intro h
  obtain ⟨_, _, _, hserved, -⟩ := h longAgent (freshReply (ascii "1.1")) (fun _ => false) smallFile
    (by decide)
  have hlog := (page_spec hserved).1.log
  have hagent : headerText longAgent.request "User-Agent" = List.replicate 1100 97 := rfl
  unfold ServeEnv.logBytes at hlog
  rw [hagent, List.length_replicate] at hlog
  omega

end Zimr
