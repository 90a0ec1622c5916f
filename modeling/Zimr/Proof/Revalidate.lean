import Zimr.Proof.Md5
import Zimr.Proof.Page

/-!
# Asking again for a file

A client that has a file sends back the time and the tag that came with it. It gets the file once
more unless both are still those of the file (`revalidated`). The tag is made from the path and the
time (`etagGen_eq`), so that an unchanged file keeps it.
-/

namespace Zimr

variable {env : ServeEnv} {reply : Reply} {file : PageFile} {writes : List (List UInt8)}
  {read : Option FileRead} {version : List UInt8} {ignored : List UInt8 → Bool}

/-! ## The tag -/

theorem md5_length (msg : List UInt8) : (md5 msg).length = 16 := by
  simp only [md5, Abcd.digest, List.length_append, leBytes_length]

theorem hexBytes_length (bs : List UInt8) : (bs.flatMap hexByte).length = 2 * bs.length := by
  induction bs with
  | nil => rfl
  | cons b bs ih =>
    have hbyte : (hexByte b).length = 2 := rfl
    rw [List.flatMap_cons, List.length_append, ih, hbyte, List.length_cons]
    omega

/-- What `etag_gen` returns. -/
def etagOf (pms : Md5State) (path : List UInt8) (mtime : UInt64) :
    { tag : List UInt8 // etagGen pms path mtime = .ok tag ∧ tag.length = 34 } :=
  ⟨_, etagGen_eq pms path mtime, by
    have hq : (ascii "\"").length = 1 := by decide
    rw [List.length_append, List.length_append, hexBytes_length, md5_length, hq]⟩

/-- A regular file as `stat` and `mime_get_type` describe it. -/
structure FileStat where
  content : List UInt8
  mtime : UInt64
  mimeType : List UInt8
  mime_short : mimeType.length < 40

/-- What `zimr_connection_default_page_handler` makes of it: the time as `strftime` prints it,
and the tag. -/
def FileStat.page (strftime : UInt64 → { s : List UInt8 // s.length < 80 }) (pms : Md5State)
    (path : List UInt8) (st : FileStat) : PageFile where
  content := st.content
  mimeType := st.mimeType
  mtime := strftime st.mtime
  etag := etagOf pms path st.mtime
  mime_short := st.mime_short
  mtime_short := (strftime st.mtime).2
  etag_length := (etagOf pms path st.mtime).2.2

/-! ## The headers of a file -/

/-- A reply starts without the headers of a file. -/
theorem fresh_absent (version : List UInt8) (file : PageFile) :
    ∀ s ∈ fileSets file, headersGetHeader (freshReply version).headers s.1 = none := by
  simp only [fileSets, List.forall_mem_cons]
  exact ⟨by rfl, by rfl, by rfl, by rfl, fun s hs => (List.not_mem_nil hs).elim⟩

/-- **A reply with a file carries its time and its tag.** -/
theorem page_tagged
    (h : zimrDefaultPageHandler env (freshReply version) ignored (.file file true) =
      .ok (reply, writes, read)) :
    valueOf reply.headers "Last-Modified" = some file.mtime ∧
      valueOf reply.headers "ETag" = some file.etag := by
  obtain ⟨-, -, -, -, hset, -⟩ := page_spec h
  obtain ⟨ranges, length, -, -, -, hsets⟩ := pageAnswer_sets env.request (freshReply version) file
  have hvalue {name : String} {value : List UInt8} (hmem : (ascii name, value) ∈ fileSets file) :
      valueOf reply.headers name = some value := by
    have hin : (ascii name, value) ∈ (pageAnswer env.request (freshReply version) file).sets := by
      rw [hsets]
      exact List.mem_append_left _ (List.mem_filter.2
        ⟨hmem, by rw [fresh_absent version file _ hmem]; rfl⟩)
    unfold valueOf
    rw [hset _ hin]
    rfl
  exact ⟨hvalue (by simp [fileSets]), hvalue (by simp [fileSets])⟩

/-- **What is answered for a file**: that the client has it, or the part that it asks for. -/
theorem page_answered
    (h : zimrDefaultPageHandler env (freshReply version) ignored (.file file true) =
      .ok (reply, writes, read)) :
    (CopyGood env.request file.mtime file.etag →
      reply.httpStatus = 304 ∧ read = none ∧ ∃ status text, writes = [status, text, []]) ∧
    (¬CopyGood env.request file.mtime file.etag →
      reply.httpStatus ≠ 304 ∧ read = some ⟨file.content,
        (filePart env.request (intOf file.content.length)).1.toNat,
        (filePart env.request (intOf file.content.length)).1,
        (filePart env.request (intOf file.content.length)).2⟩) := by
  obtain ⟨-, hread, hcode, ⟨status, hwrites⟩, -, -⟩ := page_spec h
  dsimp only at hread hcode hwrites
  obtain ⟨hiff, hnone, hsome⟩ := pageAnswer_read env.request (freshReply version) file
  have htime : valueOf (freshReply version).headers "Last-Modified" = none := rfl
  have htag : valueOf (freshReply version).headers "ETag" = none := rfl
  -- the reply had neither of them, so the copy is compared with the file
  rw [htime, htag, Option.getD_none, Option.getD_none] at hiff
  refine ⟨fun hgood => ?_, fun hnot => ?_⟩
  · have hn := hiff.2 hgood
    rw [hn] at hread
    rw [hread] at hwrites
    exact ⟨hcode.trans (hnone hn).1, hread, status, _, hwrites⟩
  · obtain ⟨f, hf⟩ := Option.ne_none_iff_exists'.1 fun hn => hnot (hiff.1 hn)
    obtain ⟨hcontent, hpos, hpart, hst, -, -⟩ := hsome f hf
    obtain ⟨content, pos, start, stop⟩ := f
    dsimp only at hcontent hpos hpart
    rw [hread, hf, ← hpart, hcontent, hpos]
    refine ⟨?_, rfl⟩
    rw [hcode, hst]
    split
    · decide
    · show (200 : ℕ) ≠ 304
      decide

theorem ok_eq_iff {x y : Except BufFault (List UInt8)} {a b : List UInt8} (hx : x = .ok a)
    (hy : y = .ok b) : a = b ↔ y = x := by
  subst hx hy
  rw [Except.ok.injEq]
  exact eq_comm

/-- **Asking again.** A client that was answered for a file sends back the `Last-Modified` and the
`ETag` it got. For every file that is there by then: unless it asks for a new copy, it is told that
its copy is good exactly when time and tag are the same still; otherwise it gets the part of the
file that it asks for, and without a `Range` the whole file. A file of the same path and time has
the same time and tag. -/
theorem revalidated (env env' : ServeEnv) (version version' : List UInt8)
    (ignored ignored' : List UInt8 → Bool)
    (strftime : UInt64 → { s : List UInt8 // s.length < 80 }) (pms pms' : Md5State)
    (path : List UInt8) (st st' : FileStat) (reply reply' : Reply)
    (writes writes' : List (List UInt8)) (read read' : Option FileRead)
    (h : zimrDefaultPageHandler env (freshReply version) ignored
      (.file (st.page strftime pms path) true) = .ok (reply, writes, read))
    (hm : valueOf env'.request "If-Modified-Since" = valueOf reply.headers "Last-Modified")
    (he : valueOf env'.request "If-None-Match" = valueOf reply.headers "ETag")
    (h' : zimrDefaultPageHandler env' (freshReply version') ignored'
      (.file (st'.page strftime pms' path) true) = .ok (reply', writes', read')) :
    (reply'.httpStatus = 304 ↔ wantsAgain env'.request = false ∧
      (strftime st'.mtime).1 = (strftime st.mtime).1 ∧
      etagGen pms' path st'.mtime = etagGen pms path st.mtime) ∧
    (reply'.httpStatus = 304 → read' = none ∧ ∃ status text, writes' = [status, text, []]) ∧
    (reply'.httpStatus ≠ 304 → read' = some ⟨st'.content,
      (filePart env'.request (intOf st'.content.length)).1.toNat,
      (filePart env'.request (intOf st'.content.length)).1,
      (filePart env'.request (intOf st'.content.length)).2⟩) ∧
    (reply'.httpStatus ≠ 304 → headersGetHeader env'.request (ascii "Range") = none →
      read' = some ⟨st'.content, 0, 0, intOf st'.content.length⟩) ∧
    (st'.mtime = st.mtime → wantsAgain env'.request = false → reply'.httpStatus = 304) := by
  obtain ⟨htime, htag⟩ := page_tagged h
  obtain ⟨hyes, hno⟩ := page_answered h'
  have htags : (etagOf pms path st.mtime).1 = (etagOf pms' path st'.mtime).1 ↔
      etagGen pms' path st'.mtime = etagGen pms path st.mtime :=
    ok_eq_iff (etagOf pms path st.mtime).2.1 (etagOf pms' path st'.mtime).2.1
  have hgood : CopyGood env'.request (st'.page strftime pms' path).mtime
      (st'.page strftime pms' path).etag ↔ wantsAgain env'.request = false ∧
        (strftime st'.mtime).1 = (strftime st.mtime).1 ∧
        etagGen pms' path st'.mtime = etagGen pms path st.mtime := by
    unfold CopyGood
    rw [hm, he, htime, htag, Option.some.injEq, Option.some.injEq, ← htags]
    exact and_congr_right fun _ => and_congr_left fun _ => eq_comm
  have hiff : reply'.httpStatus = 304 ↔ CopyGood env'.request (st'.page strftime pms' path).mtime
      (st'.page strftime pms' path).etag :=
    ⟨fun hst => by_contra fun hn => (hno hn).1 hst, fun hh => (hyes hh).1⟩
  have hsent : reply'.httpStatus ≠ 304 → read' = some ⟨st'.content,
      (filePart env'.request (intOf st'.content.length)).1.toNat,
      (filePart env'.request (intOf st'.content.length)).1,
      (filePart env'.request (intOf st'.content.length)).2⟩ :=
    fun hst => (hno fun hh => hst (hiff.2 hh)).2
  refine ⟨hiff.trans hgood, fun hst => (hyes (hiff.1 hst)).2, hsent, fun hst hrange => ?_,
    fun heq hw => ?_⟩
  · have hpart : filePart env'.request (intOf st'.content.length) = (0, intOf st'.content.length) := by
      unfold filePart rangeTaken
      rw [hrange]
      rfl
    rw [hsent hst, hpart]
    rfl
  · refine hiff.2 (hgood.2 ⟨hw, by rw [heq], ?_⟩)
    rw [heq, etagGen_eq, etagGen_eq]

theorem textPlain_length : (ascii "text/plain").length < 40 := by decide

/-- A file of three bytes, changed at the second 7. -/
def smallStat : FileStat := ⟨ascii "abc", 7, ascii "text/plain", textPlain_length⟩

/-- A clock that prints one time. -/
def oneTime : UInt64 → { s : List UInt8 // s.length < 80 } :=
  fun _ => ⟨ascii "Thu, 01 Jan 1970 12:00:07 GMT", by decide⟩

/-- What the client sends the second time. -/
def secondRequest : ServeEnv :=
  { smallEnv with
    request := [⟨ascii "If-Modified-Since", ascii "Thu, 01 Jan 1970 12:00:07 GMT"⟩,
      ⟨ascii "If-None-Match", etagOf blankState (ascii "/srv/a.txt") 7⟩] }

theorem revalidated_unchanged : ∃ reply' writes' read',
    zimrDefaultPageHandler secondRequest (freshReply (ascii "1.1")) (fun _ => false)
      (.file (smallStat.page oneTime blankState (ascii "/srv/a.txt")) true) =
        .ok (reply', writes', read') ∧
      reply'.httpStatus = 304 ∧ read' = none := by
  have served : ∀ env : ServeEnv, env.cookies = [] → env.logBytes 200 < 1024 →
      ∃ served, zimrDefaultPageHandler env (freshReply (ascii "1.1")) (fun _ => false)
        (.file (smallStat.page oneTime blankState (ascii "/srv/a.txt")) true) = .ok served := by
    intro env hck hlog
    obtain ⟨reply, writes, read, h, -⟩ := sendsLength_of_room env (freshReply (ascii "1.1"))
      (fun _ => false) (smallStat.page oneTime blankState (ascii "/srv/a.txt")) (by decide)
      ((fresh_room_iff hck (by decide) _).2 hlog)
    exact ⟨_, h⟩
  obtain ⟨⟨reply, writes, read⟩, h⟩ := served smallEnv rfl (by decide)
  obtain ⟨⟨reply', writes', read'⟩, h'⟩ := served secondRequest rfl (by decide)
  obtain ⟨htime, htag⟩ := page_tagged h
  obtain ⟨-, hread, -, -, hsame⟩ := revalidated smallEnv secondRequest (ascii "1.1") (ascii "1.1")
    (fun _ => false) (fun _ => false) oneTime blankState blankState (ascii "/srv/a.txt") smallStat
    smallStat reply reply' writes writes' read read' h (htime.symm ▸ rfl) (htag.symm ▸ rfl) h'
  have hst := hsame rfl (by decide)
  exact ⟨reply', writes', read', h', hst, (hread hst).1⟩

end Zimr
