import Zimr.Proof.Body
import Zimr.Proof.HeaderBytes
import Zimr.Proof.Page
import Zimr.Proof.Urldecoder
import Zimr.Spec.Serving

/-!
# What a request has to fit into

The daemon looks at the length of the header block and nobody looks at a length again.
`buffers_hold_iff` says when the four buffers that parts of it are put into are long enough.
-/

namespace Zimr

open Run

variable {reply : Reply} {env : ServeEnv}

/-! ## Paths -/

theorem fullFilepath_ok_iff (dir filepath : List UInt8) :
    (∃ path, fullFilepath dir filepath = .ok path) ↔
      dir.length + filepath.length < fullFilepathLen := by
  unfold fullFilepath
  rw [List.length_append]
  split
  · refine ⟨fun h => ?_, fun h => by omega⟩
    obtain ⟨path, h⟩ := h
    cases h
  · exact ⟨fun _ => by omega, fun _ => ⟨_, rfl⟩⟩

/-- **Whatever there is on disk, the loop over the public directories stays in `full_filepath`**
exactly when each of them leaves room for the url. -/
theorem findInPubdirs_ok_iff (filepath : List UInt8) : ∀ pubdirs : List (List UInt8),
    (∀ stat, ∃ found, findInPubdirs stat filepath pubdirs = .ok found) ↔
      ∀ dir ∈ pubdirs, ∃ path, fullFilepath dir filepath = .ok path := by
  intro pubdirs
  constructor
  · intro h
    -- when nothing is there, each of them is tried
    obtain ⟨found, hfound⟩ := h fun _ => none
    clear h
    induction pubdirs with
    | nil => exact fun dir hd => (List.not_mem_nil hd).elim
    | cons dir dirs ih =>
      obtain ⟨path, hpath, hrest⟩ := bind_inv hfound
      intro d hd
      rcases List.mem_cons.1 hd with rfl | hd
      · exact ⟨path, hpath⟩
      · exact ih hrest d hd
  · intro h stat
    induction pubdirs with
    | nil => exact ⟨none, rfl⟩
    | cons dir dirs ih =>
      obtain ⟨path, hpath⟩ := h dir List.mem_cons_self
      obtain ⟨found, hfound⟩ := ih fun d hd => h d (List.mem_cons_of_mem _ hd)
      simp only [findInPubdirs, hpath, bind, Except.bind]
      cases stat path with
      | some isDir => exact ⟨_, rfl⟩
      | none => exact ⟨found, hfound⟩

theorem findInPubdirs_inv {stat : List UInt8 → Option Bool} {filepath path : List UInt8}
    {isDir : Bool} : ∀ {pubdirs : List (List UInt8)},
    findInPubdirs stat filepath pubdirs = .ok (some (path, isDir)) →
      ∃ dir ∈ pubdirs, fullFilepath dir filepath = .ok path := by
  intro pubdirs
  induction pubdirs with
  | nil => intro h; cases h
  | cons dir dirs ih =>
    intro h
    obtain ⟨p, hp, h⟩ := bind_inv h
    split at h
    · cases h
      exact ⟨dir, List.mem_cons_self, hp⟩
    · obtain ⟨d, hd, hpath⟩ := ih h
      exact ⟨d, List.mem_cons_of_mem _ hd, hpath⟩

theorem findDefaultPage_inv {stat : List UInt8 → Option Bool} {dir path : List UInt8} :
    ∀ {pages : List (List UInt8)}, findDefaultPage stat dir pages = .ok path →
      path = dir ∨ ∃ page ∈ pages, fullFilepath dir page = .ok path := by
  intro pages
  induction pages with
  | nil => intro h; exact Or.inl (Except.ok.inj h).symm
  | cons page pages ih =>
    intro h
    obtain ⟨full, hfull, h⟩ := bind_inv h
    split at h
    · cases h
      exact Or.inr ⟨page, List.mem_cons_self, hfull⟩
    · refine (ih h).imp_right fun hrest => ?_
      obtain ⟨p, hp, hpath⟩ := hrest
      exact ⟨p, List.mem_cons_of_mem _ hp, hpath⟩

theorem fullFilepath_inv {dir filepath path : List UInt8} (h : fullFilepath dir filepath = .ok path) :
    path = dir ++ filepath ∧ path.length < fullFilepathLen := by
  unfold fullFilepath at h
  split at h
  · cases h
  · cases h
    exact ⟨rfl, Nat.not_le.1 ‹_›⟩

/-- The path that a page handler is called with. -/
def FileAnswer.path : FileAnswer → Option (List UInt8)
  | .pageHandler _ path => some path
  | .defaultPageHandler path => some path
  | _ => none

theorem pageHandlerFor_path (site : FileSite) (path : List UInt8) :
    (pageHandlerFor site path).path = some path := by
  unfold pageHandlerFor
  simp only
  split
  · rfl
  · split <;> rfl

/-- **A page handler gets a path in a public directory**, with one of the default pages or without. -/
theorem send_file_path {site : FileSite} {stat : List UInt8 → Option Bool} {stale : Bool}
    {fullUrl filepath path : List UInt8} {answer : FileAnswer}
    (hdirs : site.pubdirs ≠ []) (hrel : filepath.head? ≠ some 47)
    (h : zimrConnectionSendFile site stat stale fullUrl filepath true = .ok answer)
    (hp : answer.path = some path) :
    ∃ dir ∈ site.pubdirs, ∃ page ∈ [] :: site.defaultPages, path = dir ++ filepath ++ page ∧
      path.length < fullFilepathLen := by
  obtain ⟨found, hfound, h⟩ := bind_inv h
  rw [if_pos ⟨rfl, hrel⟩, if_neg hdirs] at hfound
  split at h
  · cases h
    cases hp
  rename_i base isDir
  obtain ⟨dir, hdir, hbase⟩ := findInPubdirs_inv hfound
  obtain ⟨rfl, hshort⟩ := fullFilepath_inv hbase
  split at h
  · cases h
  split at h
  · cases h
    cases hp
  obtain ⟨p, hpage, h⟩ := bind_inv h
  have hpath : p = path := by
    split at h
    · cases h
      cases hp
    · cases h
      rw [pageHandlerFor_path] at hp
      exact Option.some.inj hp
  subst hpath
  have hcase : p = dir ++ filepath ∨ ∃ page ∈ site.defaultPages,
      fullFilepath (dir ++ filepath) page = .ok p := by
    split at hpage
    · exact findDefaultPage_inv hpage
    · exact Or.inl (Except.ok.inj hpage).symm
  refine ⟨dir, hdir, ?_⟩
  rcases hcase with rfl | ⟨page, hmem, hfull⟩
  · exact ⟨[], List.mem_cons_self, (List.append_nil _).symm, hshort⟩
  · exact ⟨page, List.mem_cons_of_mem _ hmem, fullFilepath_inv hfull⟩

/-! ## The decoded URL -/

/-- The characters that `url_decode` writes twice: those before an escape that is cut off. -/
def repeated (ps : List Piece) : ℕ := if endsCut ps then lastRun 0 ps else 0

/-- The length of what is decoded. -/
theorem urlDecode_length {target : List UInt8} (h : ∀ c ∈ target, c ≠ 0) :
    (urlDecode target target.length).length + saved (pieces target) =
      target.length + repeated (pieces target) := by
  have hlen := decoded_length target []
  rw [urlDecode_eq, cstr_eq_self h, List.take_length, hlen, List.length_nil, Nat.zero_add]
  unfold repeated
  cases endsCut (pieces target) <;> rfl

/-! ## All of them -/

/-- `connection_create` makes a connection of this message: behind the address and the host name
stand `GET` or `POST`, a target that ends at a `?` or a space of its line, a query string with a space
behind it that `params_parse_qs` can store, and a version after `HTTP/` with its line end; and the
decoded target and the path of the website stay in `urlbuf` and `full_url`. -/
def Accepted (website : Website) (msgid : ℕ) (raw : List UInt8) : Prop :=
  ∃ c, connectionCreate website msgid raw = .ok (some c)

theorem rawTarget_eq (raw : List UInt8) : rawTarget raw = (requestHead raw).map (·.target) := by
  unfold rawTarget requestHead
  cases requestText raw with
  | error e => rfl
  | ok found =>
    cases found with
    | none => rfl
    | some line =>
      obtain ⟨type, text⟩ := line
      show ((targetEnd text).bind _) = ((targetEnd text).bind _).map _
      cases targetEnd text with
      | none => rfl
      | some ends => rfl

theorem target_ne_zero {raw : List UInt8} {head : RequestHead} (h : requestHead raw = some head) :
    ∀ c ∈ head.target, c ≠ 0 := by
  obtain ⟨found, -, h⟩ := Option.bind_eq_some_iff.1 h
  obtain ⟨line, -, h⟩ := Option.bind_eq_some_iff.1 h
  obtain ⟨ends, -, h⟩ := Option.bind_eq_some_iff.1 h
  cases h
  exact fun c hc => cstr_ne_zero (List.mem_of_mem_take hc)

/-- **What `connection_create` reads from the head of a forwarded request.** -/
theorem connectionCreate_head {website : Website} {msgid : ℕ} {req : Forwarded} {c : Connection}
    (h : connectionCreate website msgid req.raw = .ok (some c)) :
    ∃ head, requestHead req.raw = some head ∧ c.urlText = urlOf website head.target ∧
      c.type = head.type ∧ headersParse c.rest = head.headers ∧ c.website = website ∧
      c.ip = req.ip ∧ c.hostname = [] := by
  obtain ⟨type, text, tmp, ptr, htext, hend, hurl, rfl, hrest, hsite, hip, hhost⟩ :=
    connectionCreate_parts h
  refine ⟨⟨c.type, (cstr text).take ptr, headersParse (text.drop (tmp + 2))⟩, ?_, urlText_eq hurl,
    rfl, congrArg headersParse hrest, hsite, ?_, ?_⟩
  · unfold requestHead
    rw [htext]
    show (targetEnd text).bind _ = _
    rw [hend]
    rfl
  · rw [hip, Forwarded.raw, ← req.ip_length, List.take_left]
  · rw [hhost, Forwarded.raw, ← req.ip_length, List.drop_left]
    rfl

/-- A request that is answered is short enough for the three buffers of the answer. -/
structure AnswerFits (website : Website) (pubdirs : List (List UInt8)) (env : ServeEnv)
    (now : List UInt8) (reply : Reply) (ip : List UInt8) (head : RequestHead) : Prop where
  path : ∀ dir ∈ pubdirs, dir.length + (urlOf website head.target).length < fullFilepathLen
  headers : TableRoom reply.headers (headSets env) env.cookies →
    textBytes reply.headers (headSets env) env.cookies < 1024
  log : now.length + (inetNtoa (leNum ip)).length + (httpType head.type).length +
      website.fullUrl.length + (urlOf website head.target).length +
      (decText reply.httpStatus).length + (headerText head.headers "User-Agent").length +
      (headerText head.headers "Referer").length + 15 < 1024

/-- **The buffers hold what is put into them** exactly when the target, less what its escapes save,
is short enough for `PATH_MAX`, and what an answer puts together of it, of the headers of both sides
and of the names of the website is short enough for the others. -/
theorem buffers_hold_iff (website : Website) (msgid : ℕ) (pubdirs : List (List UInt8))
    (env : ServeEnv) (now : List UInt8) (reply : Reply) (req : Forwarded) :
    BuffersHold website msgid pubdirs env now reply req.raw ↔
      ∀ head, requestHead req.raw = some head →
        head.target.length + repeated (pieces head.target) < pathMax + saved (pieces head.target) ∧
          (Accepted website msgid req.raw →
            AnswerFits website pubdirs env now reply req.ip head) := by
  constructor
  · intro h head hhead
    refine ⟨?_, fun hacc => ?_⟩
    · have htarget : rawTarget req.raw = some head.target := by rw [rawTarget_eq, hhead]; rfl
      have hshort := h.url head.target htarget
      have hlen := urlDecode_length (target_ne_zero hhead)
      omega
    · obtain ⟨c, hc⟩ := hacc
      obtain ⟨head', hhead', hurl, htype, hheaders, hsite, hip, hhost⟩ := connectionCreate_head hc
      cases hhead.symm.trans hhead'
      refine ⟨fun dir hdir => ?_, fun hroom => ?_, ?_⟩
      · rw [← hurl]
        exact (fullFilepath_ok_iff _ _).1 (h.path c hc dir hdir)
      · obtain ⟨headers, hset⟩ :=
          (setAndCookies_iff (headSets_plain env) (headSets_different env)).2 hroom
        rw [← setAndCookies_text (headSets_plain env) (headSets_different env) hset]
        exact h.headers c hc headers ((responseHeaders_eq env reply).trans hset)
      · have hlog := (zimrLogRequest_ok_iff ..).1 (h.log c hc)
        rw [hurl, htype, hheaders, hsite, hip, hhost] at hlog
        exact hlog
  · intro h
    refine ⟨fun target htarget => ?_, fun c hc dir hdir => ?_, fun c hc headers hset => ?_,
      fun c hc => ?_⟩
    · rw [rawTarget_eq] at htarget
      obtain ⟨head, hhead, rfl⟩ := Option.map_eq_some_iff.1 htarget
      have hshort := (h head hhead).1
      have hlen := urlDecode_length (target_ne_zero hhead)
      omega
    all_goals
      obtain ⟨head, hhead, hurl, htype, hheaders, hsite, hip, hhost⟩ := connectionCreate_head hc
      have hfits := (h head hhead).2 ⟨c, hc⟩
    · rw [hurl]
      exact (fullFilepath_ok_iff _ _).2 (hfits.path dir hdir)
    · rw [responseHeaders_eq] at hset
      rw [setAndCookies_text (headSets_plain env) (headSets_different env) hset]
      exact hfits.headers
        ((setAndCookies_iff (headSets_plain env) (headSets_different env)).1 ⟨headers, hset⟩)
    · have hlog := hfits.log
      rw [zimrLogRequest_ok_iff, hurl, htype, hheaders, hsite, hip, hhost]
      exact hlog

/-- The header block of a request for a file with a name of 300 characters. -/
def longBlock : List UInt8 :=
  ascii "GET /test/" ++ List.replicate 300 97 ++ ascii " HTTP/1.1\r\nHost: example.com\r\n\r\n"

theorem longBlock_size : longBlock.length ≤ packDataSize := by decide +kernel

theorem longBlock_end : crlf ++ crlf <:+ longBlock := by
  apply List.isSuffixOf_iff_suffix.1
  decide +kernel

/-- 127.0.0.1. -/
def localhost : List UInt8 := [127, 0, 0, 1]

theorem localhost_length : localhost.length = 4 := rfl

def longRequest : Forwarded where
  ip := localhost
  block := longBlock
  body := []
  ip_length := localhost_length
  block_size := longBlock_size
  block_end := longBlock_end

/-- The header block has 354 bytes, and the path does not fit into `full_filepath`. -/
theorem buffers_too_short : ¬∀ (website : Website) (msgid : ℕ) (pubdirs : List (List UInt8))
    (env : ServeEnv) (now : List UInt8) (reply : Reply) (req : Forwarded),
    BuffersHold website msgid pubdirs env now reply req.raw := by
  intro h
  have hc : ((connectionCreate testSite 7 longRequest.raw).toOption.join.map
      fun c => c.urlText.length) = some 300 := by decide +kernel
  obtain ⟨c, hcreate, hlen⟩ : ∃ c, connectionCreate testSite 7 longRequest.raw = .ok (some c) ∧
      c.urlText.length = 300 := by
    cases hx : connectionCreate testSite 7 longRequest.raw with
    | error e =>
      rw [hx] at hc
      cases hc
    | ok found =>
      rw [hx] at hc
      cases found with
      | none => cases hc
      | some c => exact ⟨c, rfl, Option.some.inj hc⟩
  have hpath := (h testSite 7 [ascii "./"] smallEnv [] (freshReply (ascii "1.1")) longRequest).path c
    hcreate (ascii "./") List.mem_cons_self
  have hshort := (fullFilepath_ok_iff _ _).1 hpath
  unfold fullFilepathLen at hshort
  omega

end Zimr
