import Zimr.Proof.HeaderBytes
import Zimr.Proof.Page
import Zimr.Spec.Serving

/-!
# What is taken of a reply

A msg takes bytes until two full packets wait to be written. `msgWrites_iff` says which calls of
`msg_write` that refuses, and `replies_in_full_iff` when a directory or an error page comes out as
long as its `Content-Length` says.
-/

namespace Zimr

open Run

variable {sw : MsgSwitch} {msgid n : ℕ} {m : Msg} {env : ServeEnv} {reply : Reply}

/-! ## Calls of `msg_write` -/

/-- A connected msg that waits to write `n` bytes, in full packets and the one that is begun. -/
structure Holding (sw : MsgSwitch) (msgid : ℕ) (m : Msg) (n : ℕ) : Prop where
  slot : sw.msgs msgid = some m
  ok : MsgOK m
  opened : m.status.closed = false
  linked : m.status.disconnected = false
  bytes : m.writQueue.length * packDataSize + m.begun = n
  last : 0 < n → 0 < m.begun

theorem MsgOK.begun_le (h : MsgOK m) : m.begun ≤ packDataSize := by
  unfold Msg.begun
  cases hp : m.incompleteWritPacket with
  | none => exact Nat.zero_le _
  | some p => exact h.inc_size p hp

/-- There is space until two packets are full and another one is begun. -/
theorem Holding.space (h : Holding sw msgid m n) :
    m.status.spaceAvailForWrit = decide (n ≤ 2 * packDataSize) := by
  have hbegun := h.ok.begun_le
  have hbytes := h.bytes
  have hlast := h.last
  rw [h.ok.wspace h.linked]
  apply decide_eq_decide.2
  unfold msgNBuffPacketsAllowed packDataSize at *
  omega

/-- **With space, all bytes are taken.** -/
theorem Holding.write (h : Holding sw msgid m n) (hn : n ≤ 2 * packDataSize) (buf : List UInt8) :
    ∃ sw' m', msgWrite sw msgid buf = .ok (sw', .ok buf.length) ∧
      Holding sw' msgid m' (n + buf.length) := by
  obtain ⟨sw', m', Q, hw, mv, hf⟩ := msgWrite_fills (S := True) (H := True) h.slot h.ok h.opened
    h.linked (h.space.trans (decide_eq_true hn)) buf
  have hbytes := h.bytes
  have hfill := hf.bytes
  refine ⟨sw', m', hw, mv.only.get, mv.ok, mv.closed.trans h.opened, mv.disc.trans h.linked, ?_, ?_⟩
  · rw [mv.writs, List.length_append, Nat.add_mul]
    omega
  · intro hpos
    refine hf.last ?_
    by_cases hz : n = 0
    · omega
    · have := h.last (Nat.pos_of_ne_zero hz)
      omega

/-- **Without it, the call fails** and nothing changes. -/
theorem Holding.refuse (h : Holding sw msgid m n) (hn : ¬n ≤ 2 * packDataSize) (buf : List UInt8) :
    msgWrite sw msgid buf = .ok (sw, .error .eagain) := by
  have hspace := h.space.trans (decide_eq_false hn)
  simp only [msgWrite, h.slot, h.opened, h.linked, hspace]
  rfl

/-- All calls have succeeded. -/
def AllTaken (results : List (Except Errno ℕ)) : Prop := ∀ r ∈ results, ∃ k, r = .ok k

theorem AllTaken.cons_iff {r : Except Errno ℕ} {results : List (Except Errno ℕ)} :
    AllTaken (r :: results) ↔ (∃ k, r = .ok k) ∧ AllTaken results := List.forall_mem_cons

/-- **Calls one after the other.** They all succeed if and only if there is space before the last
one, and then each takes all of its bytes. -/
theorem msgWrites_iff : ∀ (bufs : List (List UInt8)) {sw : MsgSwitch} {m : Msg} {n : ℕ},
    Holding sw msgid m n → ∃ sw' results, msgWrites sw msgid bufs = .ok (sw', results) ∧
      (AllTaken results ↔ bufs = [] ∨ n + bufs.dropLast.flatten.length ≤ 2 * packDataSize) ∧
      (AllTaken results → results = bufs.map fun buf => .ok buf.length) := by
  intro bufs
  induction bufs with
  | nil =>
    intro sw m n _
    refine ⟨sw, [], rfl, ⟨fun _ => Or.inl rfl, fun _ r hr => ?_⟩, fun _ => rfl⟩
    exact (List.not_mem_nil hr).elim
  | cons buf bufs ih =>
    intro sw m n h
    by_cases hn : n ≤ 2 * packDataSize
    · obtain ⟨sw₁, m₁, hw, h₁⟩ := h.write hn buf
      obtain ⟨sw', results, hrun, hiff, hmap⟩ := ih h₁
      refine ⟨sw', .ok buf.length :: results, ?_, ?_, fun hall => ?_⟩
      · rw [msgWrites, hw]
        show (msgWrites sw₁ msgid bufs).bind _ = _
        rw [hrun]
        rfl
      · rw [AllTaken.cons_iff, hiff]
        cases bufs with
        | nil =>
          have hlen : ([buf] : List (List UInt8)).dropLast.flatten.length = 0 := rfl
          exact ⟨fun _ => Or.inr (by omega), fun _ => ⟨⟨_, rfl⟩, Or.inl rfl⟩⟩
        | cons b bs =>
          rw [List.dropLast_cons_cons, List.flatten_cons, List.length_append, ← Nat.add_assoc]
          constructor
          · rintro ⟨-, hb | hb⟩
            · cases hb
            · exact Or.inr hb
          · rintro (hb | hb)
            · cases hb
            · exact ⟨⟨_, rfl⟩, Or.inr hb⟩
      · rw [hmap (AllTaken.cons_iff.1 hall).2]
        rfl
    · obtain ⟨sw', results, hrun, -, -⟩ := ih h
      have hno : ¬AllTaken (.error .eagain :: results) := by
        intro hall
        obtain ⟨k, hk⟩ := (AllTaken.cons_iff.1 hall).1
        cases hk
      refine ⟨sw', .error .eagain :: results, ?_, ⟨fun hall => (hno hall).elim, ?_⟩,
        fun hall => (hno hall).elim⟩
      · rw [msgWrites, h.refuse hn]
        show (msgWrites sw msgid bufs).bind _ = _
        rw [hrun]
        rfl
      · rintro (hb | hb)
        · cases hb
        · omega

/-! ## The head of a page -/

/-- The headers that are set for a page of `size` bytes. -/
def pageSets (env : ServeEnv) (size : ℕ) : List (List UInt8 × List UInt8) :=
  [(ascii "Content-Type", mimeHtml), (ascii "Content-Length", decText size)] ++ headSets env

/-- What a directory and an error page begin with. -/
def pageHead (env : ServeEnv) (reply : Reply) (code size : ℕ) :
    Except BufFault (Reply × List (List UInt8)) := do
  let reply ← ({ reply with httpStatus := code } : Reply).set "Content-Type" mimeHtml
  let reply ← reply.set "Content-Length" (← sizebuf size)
  sendHead env reply

/-- The buffers and the table have room for the head of a page, and the log for its line. -/
structure HeadFits (env : ServeEnv) (reply : Reply) (code : ℕ) (status : List UInt8)
    (size : ℕ) : Prop where
  digits : (decText size).length < 10
  line : reply.httpVersion.length + status.length + 8 < 100
  room : TableRoom reply.headers (pageSets env size) env.cookies
  text : textBytes reply.headers (pageSets env size) env.cookies < 1024
  log : env.logBytes code < 1024

theorem pageSets_plain (env : ServeEnv) {size : ℕ} (hd : (decText size).length < 10) :
    ∀ s ∈ pageSets env size, PlainSet s := by
  intro s hs
  rcases List.mem_append.1 hs with hs | hs
  · rcases List.mem_cons.1 hs with rfl | hs
    · exact plainSet (by decide) (by decide)
    · rcases List.mem_singleton.1 hs with rfl
      refine plainSet (by decide) ?_
      unfold headerValueMaxLen
      omega
  · exact headSets_plain env s hs

theorem pageSets_different (env : ServeEnv) (size : ℕ) : Different (pageSets env size) :=
  different_of_names [ascii "Content-Type", ascii "Content-Length", ascii "Date", ascii "Server"] rfl
    (by decide)

theorem sizebuf_ok_iff (k : ℕ) : (∃ text, sizebuf k = .ok text) ↔ (decText k).length < 10 := by
  unfold sizebuf
  split
  · refine ⟨fun h => ?_, fun h => by omega⟩
    obtain ⟨text, h⟩ := h
    cases h
  · exact ⟨fun _ => by omega, fun _ => ⟨_, rfl⟩⟩

theorem sizebuf_inv {k : ℕ} {text : List UInt8} (h : sizebuf k = .ok text) : text = decText k := by
  unfold sizebuf at h
  split at h
  · cases h
  · exact (Except.ok.inj h).symm

variable {code size : ℕ} {status : List UInt8}

theorem pageHead_eq (env : ServeEnv) (reply : Reply) (code : ℕ) (hd : (decText size).length < 10) :
    pageHead env reply code size = headWith env reply code
      [(ascii "Content-Type", mimeHtml), (ascii "Content-Length", decText size)] := by
  obtain ⟨digits, hdigits⟩ := (sizebuf_ok_iff size).2 hd
  cases sizebuf_inv hdigits
  unfold pageHead headWith
  simp only [Reply.set, hdigits, run, setStep, bind, Except.bind]
  cases headersSetHeader reply.headers (ascii "Content-Type") mimeHtml with
  | error e => rfl
  | ok hs₁ =>
    simp only [Except.map]
    cases headersSetHeader hs₁ (ascii "Content-Length") (decText size) with
    | error e => rfl
    | ok hs₂ => rfl

/-- **The head of a page**: a line and the text of the headers, with the length of the page. -/
theorem pageHead_inv {reply' : Reply} {head : List (List UInt8)}
    (hstatus : responseStatus code = some status)
    (h : pageHead env reply code size = .ok (reply', head)) :
    HeadFits env reply code status size ∧
      (∃ line text, head = [line, text] ∧
        line.length = reply.httpVersion.length + status.length + 8 ∧
        text.length = textBytes reply.headers (pageSets env size) env.cookies) ∧
      (headersGetHeader reply'.headers (ascii "Content-Length")).map (·.value) =
        some (decText size) := by
  have hpage := h
  obtain ⟨r₁, -, h⟩ := bind_inv h
  obtain ⟨digits, hd, h⟩ := bind_inv h
  have hshort := (sizebuf_ok_iff size).1 ⟨digits, hd⟩
  cases sizebuf_inv hd
  obtain ⟨r₂, h₂, h⟩ := bind_inv h
  have hlength : (headersGetHeader reply'.headers (ascii "Content-Length")).map (·.value) =
      some (decText size) := by
    rw [(sendHead_spec h).2.2 _ (by decide), Reply.set_get (by decide) h₂]
    rfl
  rw [pageHead_eq env reply code hshort] at hpage
  obtain ⟨hroom, line, text, hhead, hline, htext⟩ :=
    headWith_inv (pageSets_plain env hshort) (pageSets_different env size) hpage
  refine ⟨⟨hshort, ?_, hroom.room, hroom.text, hroom.log⟩,
    ⟨line, text, hhead, hline status hstatus, htext⟩, hlength⟩
  exact hroom.line_lt hstatus

theorem pageHead_ok (hstatus : responseStatus code = some status)
    (h : HeadFits env reply code status size) :
    ∃ reply' head, pageHead env reply code size = .ok (reply', head) := by
  rw [pageHead_eq env reply code h.digits]
  obtain ⟨⟨reply', head⟩, hsent⟩ := headWith_ok (pageSets_plain env h.digits)
    (pageSets_different env size) ⟨⟨status, hstatus, h.line⟩, h.room, h.text, h.log⟩
  exact ⟨reply', head, hsent⟩

/-! ## Redirects -/

/-- The headers that are set for a redirect. -/
def redirectSets (env : ServeEnv) (url : List UInt8) : List (List UInt8 × List UInt8) :=
  [(ascii "Location", url)] ++ headSets env

theorem redirectSets_plain (env : ServeEnv) {url : List UInt8} (hurl : url.length < headerValueMaxLen) :
    ∀ s ∈ redirectSets env url, PlainSet s := by
  intro s hs
  rcases List.mem_append.1 hs with hs | hs
  · rcases List.mem_singleton.1 hs with rfl
    exact plainSet (by decide) hurl
  · exact headSets_plain env s hs

theorem redirectSets_different (env : ServeEnv) (url : List UInt8) : Different (redirectSets env url) :=
  different_of_names [ascii "Location", ascii "Date", ascii "Server"] rfl (by decide)

theorem redirect_eq (env : ServeEnv) (reply : Reply) (url : List UInt8) :
    zimrConnectionSendRedirect env reply url = headWith env reply 301 [(ascii "Location", url)] := by
  unfold zimrConnectionSendRedirect headWith
  simp only [Reply.set, run, setStep, bind, Except.bind]
  cases headersSetHeader reply.headers (ascii "Location") url with
  | error e => rfl
  | ok hs => rfl

/-- **A redirect is sent** exactly when its url is a value, and its head fits; the client then finds
the url in the `Location`. -/
theorem redirect_ok_iff (env : ServeEnv) (reply : Reply) (url : List UInt8)
    (hstatus : responseStatus 301 = some status) :
    (∃ reply' head, zimrConnectionSendRedirect env reply url = .ok (reply', head) ∧
        (headersGetHeader reply'.headers (ascii "Location")).map (·.value) = some url) ↔
      url.length < headerValueMaxLen ∧ reply.httpVersion.length + status.length + 8 < 100 ∧
        TableRoom reply.headers (redirectSets env url) env.cookies ∧
        textBytes reply.headers (redirectSets env url) env.cookies < 1024 ∧
        env.logBytes 301 < 1024 := by
  constructor
  · rintro ⟨reply', head, hsent, -⟩
    obtain ⟨r, hset, -⟩ := bind_inv hsent
    have hurl : url.length < headerValueMaxLen := by
      obtain ⟨hs, hset, -⟩ := map_inv hset
      unfold headersSetHeader at hset
      simp only at hset
      split at hset
      · cases hset
      · omega
    rw [redirect_eq] at hsent
    obtain ⟨hroom, -⟩ := headWith_inv (redirectSets_plain env hurl)
      (redirectSets_different env url) hsent
    exact ⟨hurl, hroom.line_lt hstatus, hroom.room, hroom.text, hroom.log⟩
  · rintro ⟨hurl, hline, hroom, htext, hlog⟩
    obtain ⟨⟨reply', head⟩, hsent⟩ := headWith_ok (redirectSets_plain env hurl)
      (redirectSets_different env url) ⟨⟨status, hstatus, hline⟩, hroom, htext, hlog⟩
    rw [← redirect_eq] at hsent
    obtain ⟨r, hset, hhead⟩ := bind_inv hsent
    refine ⟨reply', head, hsent, ?_⟩
    rw [(sendHead_spec hhead).2.2 _ (by decide)]
    show (headersGetHeader r.headers (ascii "Location")).map (·.value) = some url
    rw [Reply.set_get (by decide) hset]
    rfl

/-! ## Replies -/

/-- All calls of a reply succeed, and behind its head as many bytes are taken as its
`Content-Length` says. -/
def InFull (sw : MsgSwitch) (msgid : ℕ) (sent : Except BufFault (Reply × List (List UInt8))) : Prop :=
  ∃ reply writes sw' results, sent = .ok (reply, writes) ∧
    msgWrites sw msgid writes = .ok (sw', results) ∧ AllTaken results ∧
    (headersGetHeader reply.headers (ascii "Content-Length")).map (·.value) =
      some (decText (bytesTaken (results.drop 2)))

/-- A page fits when there is room for its head and, after `n` bytes, space before its last piece:
`front` are the bytes of the others. -/
structure PageFits (env : ServeEnv) (reply : Reply) (n code : ℕ) (status : List UInt8)
    (size front : ℕ) : Prop where
  head : HeadFits env reply code status size
  space : n + (reply.httpVersion.length + status.length + 8) +
    textBytes reply.headers (pageSets env size) env.cookies + front ≤ 2 * packDataSize

theorem bytesTaken_map (bufs : List (List UInt8)) :
    bytesTaken (bufs.map fun buf => .ok buf.length) = bufs.flatten.length := by
  induction bufs with
  | nil => rfl
  | cons buf bufs ih =>
    rw [List.map_cons, bytesTaken, ih, List.flatten_cons, List.length_append]

/-- **A page with this body.** -/
theorem page_in_full_iff (env : ServeEnv) (reply : Reply) (h : Holding sw msgid m n)
    (hstatus : responseStatus code = some status)
    {body : List (List UInt8)} (hbody : body ≠ []) (hsize : body.flatten.length = size) :
    InFull sw msgid ((pageHead env reply code size).map fun r => (r.1, r.2 ++ body)) ↔
      PageFits env reply n code status size body.dropLast.flatten.length := by
  have hlast (line text : List UInt8) : ([line, text] ++ body).dropLast.flatten.length =
      line.length + text.length + body.dropLast.flatten.length := by
    rw [List.dropLast_append_of_ne_nil hbody, List.flatten_append, List.length_append]
    simp
  constructor
  · intro hfull
    obtain ⟨reply', writes, sw', results, hsent, hrun, hall, hlen⟩ := hfull
    obtain ⟨⟨r, head⟩, hhead, hsent⟩ := map_inv hsent
    cases hsent
    obtain ⟨hfits, ⟨line, text, rfl, hline, htext⟩, -⟩ := pageHead_inv hstatus hhead
    obtain ⟨sw₂, results₂, hrun₂, hiff, -⟩ := msgWrites_iff ([line, text] ++ body) h
    cases hrun.symm.trans hrun₂
    refine ⟨hfits, ?_⟩
    rcases hiff.1 hall with hnil | hspace
    · cases hnil
    · rw [hlast] at hspace
      omega
  · rintro ⟨hfits, hspace⟩
    obtain ⟨reply', head, hhead⟩ := pageHead_ok hstatus hfits
    obtain ⟨-, ⟨line, text, rfl, hline, htext⟩, hcl⟩ := pageHead_inv hstatus hhead
    obtain ⟨sw', results, hrun, hiff, hmap⟩ := msgWrites_iff ([line, text] ++ body) h
    have hall : AllTaken results := hiff.2 (Or.inr (by rw [hlast]; omega))
    refine ⟨reply', [line, text] ++ body, sw', results, ?_, hrun, hall, ?_⟩
    · rw [hhead]
      rfl
    · rw [hcl, hmap hall]
      show _ = some (decText (bytesTaken (body.map fun buf => .ok buf.length)))
      rw [bytesTaken_map, hsize]

/-- The buffers of a directory behind its head. -/
def dirBody (env : ServeEnv) (ignored : List UInt8 → Bool) (entries : List DirEntry) :
    List (List UInt8) :=
  [htmlHeader env.connection.urlText] ++
    (dirLines ignored env.connection.urlText entries).mergeSort (fun a b => directorySort a b ≠ -1) ++
    [htmlFooter env]

/-- The size of a directory, as it is summed up. -/
def dirSize (env : ServeEnv) (ignored : List UInt8 → Bool) (entries : List DirEntry) : ℕ :=
  (dirLines ignored env.connection.urlText entries).foldl (fun size file => size + file.length)
    ((htmlHeader env.connection.urlText).length + (htmlFooter env).length)

theorem foldl_length (files : List (List UInt8)) (k : ℕ) :
    files.foldl (fun size file => size + file.length) k = k + files.flatten.length := by
  induction files generalizing k with
  | nil => rfl
  | cons file files ih =>
    rw [List.foldl_cons, ih, List.flatten_cons, List.length_append, Nat.add_assoc]

theorem sendDir_eq (env : ServeEnv) (reply : Reply) (ignored : List UInt8 → Bool)
    (entries : List DirEntry) : zimrConnectionSendDir env reply ignored (some entries) =
      (pageHead env reply 200 (dirSize env ignored entries)).map fun r =>
        (r.1, r.2 ++ dirBody env ignored entries) := by
  unfold zimrConnectionSendDir pageHead
  simp only [bind, Except.bind]
  cases ({ reply with httpStatus := 200 } : Reply).set "Content-Type" mimeHtml with
  | error e => rfl
  | ok r₁ =>
    simp only
    rw [show (dirLines ignored env.connection.urlText entries).foldl
      (fun size file => size + file.length) ((htmlHeader env.connection.urlText).length +
        (htmlFooter env).length) = dirSize env ignored entries from rfl]
    cases sizebuf (dirSize env ignored entries) with
    | error e => rfl
    | ok digits =>
      simp only
      cases r₁.set "Content-Length" digits with
      | error e => rfl
      | ok r₂ =>
        simp only
        cases sendHead env r₂ with
        | error e => rfl
        | ok sent =>
          simp only [dirBody, List.append_assoc]
          rfl

/-- The order of the lines does not matter for their length. -/
theorem sorted_length (files : List (List UInt8)) (le : List UInt8 → List UInt8 → Bool) :
    (files.mergeSort le).flatten.length = files.flatten.length := by
  have hperm : (files.mergeSort le).Perm files := List.mergeSort_perm files le
  exact hperm.flatten.length_eq

theorem dirBody_length (env : ServeEnv) (ignored : List UInt8 → Bool) (entries : List DirEntry) :
    (dirBody env ignored entries).flatten.length = dirSize env ignored entries ∧
      (dirBody env ignored entries).dropLast.flatten.length =
        (htmlHeader env.connection.urlText).length +
          (dirLines ignored env.connection.urlText entries).flatten.length := by
  have hsorted := sorted_length (dirLines ignored env.connection.urlText entries)
    fun a b => directorySort a b ≠ -1
  unfold dirBody dirSize
  rw [foldl_length, List.dropLast_concat]
  simp only [List.flatten_append, List.flatten_cons, List.flatten_nil, List.append_nil,
    List.length_append, hsorted]
  exact ⟨by omega, trivial⟩

/-- The buffers of an error page behind its head. -/
def errorBody (status message : List UInt8) : List (List UInt8) :=
  [errorMsgTop, status, errorMsgMiddle, message, errorMsgBottom]

/-- What `zimr_connection_send_error` does first: it calls the `error_handler` of the website, if
there is one that has not called it. -/
def errorStart (env : ServeEnv) (reply : Reply) : Reply × List (List UInt8) × Bool :=
  match if reply.sendingError then none else env.errorHandler with
  | some handler => handler { reply with sendingError := true }
  | none => (reply, [], false)

/-- It makes the page itself, for the response `own`: the `error_handler`, if it has called one, has
written nothing and not answered. -/
def OwnPage (env : ServeEnv) (reply own : Reply) : Prop := errorStart env reply = (own, [], false)

/-- The page without an `error_handler`. -/
theorem sendError_bare (hno : (if reply.sendingError then none else env.errorHandler) = none)
    (hstatus : responseStatus code = some status) (message : List UInt8) :
    zimrConnectionSendError env reply code message =
      (pageHead env reply code (errorBody status message).flatten.length).map fun r =>
        (r.1, r.2 ++ errorBody status message) := by
  have hsize : status.length + message.length + (errorMsgTop.length + 1)
      + (errorMsgMiddle.length + 1) + (errorMsgBottom.length + 1) - 3 =
        (errorBody status message).flatten.length := by
    simp only [errorBody, List.flatten_cons, List.flatten_nil, List.length_append, List.length_nil]
    omega
  unfold zimrConnectionSendError pageHead
  simp only [hno, hstatus, hsize, bind, Except.bind, Bool.false_eq_true, if_false]
  cases ({ reply with httpStatus := code } : Reply).set "Content-Type" mimeHtml with
  | error e => rfl
  | ok r₁ =>
    simp only
    cases sizebuf (errorBody status message).flatten.length with
    | error e => rfl
    | ok digits =>
      simp only
      cases r₁.set "Content-Length" digits with
      | error e => rfl
      | ok r₂ =>
        simp only
        cases sendHead env r₂ with
        | error e => rfl
        | ok sent => rfl

theorem sendError_eq {own : Reply} (hown : OwnPage env reply own)
    (hstatus : responseStatus code = some status) (message : List UInt8) :
    zimrConnectionSendError env reply code message =
      (pageHead env own code (errorBody status message).flatten.length).map fun r =>
        (r.1, r.2 ++ errorBody status message) := by
  unfold OwnPage errorStart at hown
  cases hh : (if reply.sendingError then none else env.errorHandler) with
  | none =>
    rw [hh] at hown
    cases hown
    exact sendError_bare hh hstatus message
  | some handler =>
    rw [hh] at hown
    simp only at hown
    -- what follows the handler is a call without one
    have hsame : zimrConnectionSendError env reply code message =
        zimrConnectionSendError { env with errorHandler := none } own code message := by
      unfold zimrConnectionSendError
      rw [hh, ite_self]
      simp only [hown]
      rfl
    rw [hsame]
    exact sendError_bare (ite_self none) hstatus message

/-- **An error page of its own.** -/
theorem error_in_full_iff {own : Reply} (h : Holding sw msgid m n) (hown : OwnPage env reply own)
    (hstatus : responseStatus code = some status) (message : List UInt8) :
    InFull sw msgid (zimrConnectionSendError env reply code message) ↔
      PageFits env own n code status
        (errorMsgTop.length + status.length + errorMsgMiddle.length + message.length +
          errorMsgBottom.length)
        (errorMsgTop.length + status.length + errorMsgMiddle.length + message.length) := by
  have hsize : (errorBody status message).flatten.length =
      errorMsgTop.length + status.length + errorMsgMiddle.length + message.length +
        errorMsgBottom.length := by
    simp only [errorBody, List.flatten_cons, List.flatten_nil, List.length_append, List.length_nil]
    omega
  have hfront : (errorBody status message).dropLast.flatten.length =
      errorMsgTop.length + status.length + errorMsgMiddle.length + message.length := by
    simp only [errorBody, List.dropLast, List.flatten_cons, List.flatten_nil, List.length_append,
      List.length_nil]
    omega
  have hne : errorBody status message ≠ [] := List.cons_ne_nil errorMsgTop _
  have hpage := page_in_full_iff env own h hstatus hne hsize
  rw [hfront] at hpage
  rw [sendError_eq hown hstatus, hsize]
  exact hpage

/-- The bytes of a directory before its footer. -/
def dirFront (env : ServeEnv) (ignored : List UInt8 → Bool) (entries : List DirEntry) : ℕ :=
  (htmlHeader env.connection.urlText).length +
    (dirLines ignored env.connection.urlText entries).flatten.length

/-- **A directory.** -/
theorem dir_in_full_iff (h : Holding sw msgid m n) (hstatus : responseStatus 200 = some status)
    (ignored : List UInt8 → Bool) (entries : List DirEntry) :
    InFull sw msgid (zimrConnectionSendDir env reply ignored (some entries)) ↔
      PageFits env reply n 200 status (dirFront env ignored entries + (htmlFooter env).length)
        (dirFront env ignored entries) := by
  obtain ⟨hsize, hfront⟩ := dirBody_length env ignored entries
  have hdir : dirSize env ignored entries =
      dirFront env ignored entries + (htmlFooter env).length := by
    unfold dirSize dirFront
    rw [foldl_length]
    omega
  have hne : dirBody env ignored entries ≠ [] :=
    List.append_ne_nil_of_right_ne_nil _ (List.cons_ne_nil (htmlFooter env) [])
  have hpage := page_in_full_iff env reply h hstatus hne hsize
  rw [hfront, hdir] at hpage
  rw [sendDir_eq, hdir]
  exact hpage

/-- A connected msg whose queue of packets is empty. -/
structure Idle (sw : MsgSwitch) (msgid : ℕ) (m : Msg) : Prop where
  slot : sw.msgs msgid = some m
  ok : MsgOK m
  connected : m.status.connected = true
  opened : m.status.closed = false
  linked : m.status.disconnected = false
  empty : m.writQueue = []

theorem Idle.holding (h : Idle sw msgid m) : Holding sw msgid m m.begun where
  slot := h.slot
  ok := h.ok
  opened := h.opened
  linked := h.linked
  bytes := by
    rw [h.empty]
    exact Nat.zero_add _
  last := id

/-- **Directories and error pages come out in full** exactly when their head fits into its buffers,
the line of the log into its own, and what the msg has to write before their last piece is no more
than two packets. -/
theorem replies_in_full_iff (sw : MsgSwitch) (msgid : ℕ) (m : Msg) (h : Idle sw msgid m)
    (env : ServeEnv) (reply : Reply) :
    (∀ ignored entries,
      InFull sw msgid (zimrConnectionSendDir env reply ignored (some entries)) ↔
        PageFits env reply m.begun 200 (ascii "200 OK")
          (dirFront env ignored entries + (htmlFooter env).length)
          (dirFront env ignored entries)) ∧
      ∀ code status message own, responseStatus code = some status → OwnPage env reply own →
        (InFull sw msgid (zimrConnectionSendError env reply code message) ↔
          PageFits env own m.begun code status
            (errorMsgTop.length + status.length + errorMsgMiddle.length + message.length +
              errorMsgBottom.length)
            (errorMsgTop.length + status.length + errorMsgMiddle.length + message.length)) :=
  ⟨fun ignored entries => dir_in_full_iff h.holding (by decide) ignored entries,
    fun _ _ message _ hstatus hown => error_in_full_iff h.holding hown hstatus message⟩

theorem openSwitch_idle : Idle openSwitch 4 (Msg.fresh 0 4 0 true 0) where
  slot := rfl
  ok := openSwitch_writable.ok
  connected := rfl
  opened := rfl
  linked := rfl
  empty := rfl

theorem replies_in_full_404 :
    InFull openSwitch 4 (zimrConnectionSendError smallEnv (freshReply (ascii "1.1")) 404 []) := by
  obtain ⟨-, herror⟩ := replies_in_full_iff openSwitch 4 _ openSwitch_idle smallEnv
    (freshReply (ascii "1.1"))
  refine (herror 404 (ascii "404 Not Found") [] _ (by decide +kernel) rfl).2
    ⟨⟨?_, ?_, ?_, ?_, ?_⟩, ?_⟩
  all_goals decide +kernel

/-- An error page with a message of 16400 bytes: two packets are full before its last piece. -/
theorem page_cut : ¬∀ (sw : MsgSwitch) (msgid : ℕ) (m : Msg), Idle sw msgid m →
    ∀ (env : ServeEnv) (reply : Reply),
      (∀ ignored entries,
        InFull sw msgid (zimrConnectionSendDir env reply ignored (some entries))) ∧
      ∀ code status message own, responseStatus code = some status → OwnPage env reply own →
        InFull sw msgid (zimrConnectionSendError env reply code message) := by
  intro h
  have hstatus : responseStatus 500 = some (ascii "500 Internal Server Error") := by decide +kernel
  have hown : OwnPage smallEnv (freshReply (ascii "1.1")) (freshReply (ascii "1.1")) := rfl
  obtain ⟨-, herror⟩ := h openSwitch 4 _ openSwitch_idle smallEnv (freshReply (ascii "1.1"))
  have hfull := herror 500 _ (List.replicate 16400 97) _ hstatus hown
  have hspace := ((error_in_full_iff openSwitch_idle.holding hown hstatus _).1 hfull).space
  rw [List.length_replicate] at hspace
  unfold packDataSize at hspace
  omega

end Zimr
