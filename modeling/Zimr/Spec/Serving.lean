import Zimr.Spec.Reply

/-!
# From a request to its answer (`lib/zimr.c`)

`zimr_connection_send_redirect`, and `zimr_connection_send_file` with the path it puts together. At
the end is what an answer collects in buffers of a fixed size, from a request that only the daemon
has looked at.
-/

namespace Zimr

/-- `zimr_connection_send_redirect`. -/
def zimrConnectionSendRedirect (env : ServeEnv) (reply : Reply) (url : List UInt8) :
    Except BufFault (Reply × List (List UInt8)) := do
  let reply ← reply.set "Location" url
  sendHead env { reply with httpStatus := 301 }

/-! ## Files -/

/-- `sizeof( full_filepath )`. -/
def fullFilepathLen : ℕ := 256

/-- `strcpy` of a directory into `full_filepath`, and `strcat` of what is in it. -/
def fullFilepath (dir filepath : List UInt8) : Except BufFault (List UInt8) :=
  if fullFilepathLen ≤ (dir ++ filepath).length then .error .outOfBounds else .ok (dir ++ filepath)

/-- The loop over the public directories: the first path that `stat` finds, and whether that is a
directory. -/
def findInPubdirs (stat : List UInt8 → Option Bool) (filepath : List UInt8) :
    List (List UInt8) → Except BufFault (Option (List UInt8 × Bool))
  | [] => .ok none
  | dir :: dirs => do
    let path ← fullFilepath dir filepath
    match stat path with
    | some isDir => return some (path, isDir)
    | none => findInPubdirs stat filepath dirs

/-- The loop over the default pages of a directory: the first one that is there, or the directory. -/
def findDefaultPage (stat : List UInt8 → Option Bool) (path : List UInt8) :
    List (List UInt8) → Except BufFault (List UInt8)
  | [] => .ok path
  | page :: pages => do
    let full ← fullFilepath path page
    if (stat full).isSome then return full else findDefaultPage stat path pages

/-- `strrchr`. -/
def strrchr (s : List UInt8) (c : UInt8) : Option ℕ :=
  ((cstr s).reverse.findIdx? (· = c)).map fun i => (cstr s).length - 1 - i

/-- What `website_data_t` says about files; a page handler is known by its `page_type`. -/
structure FileSite where
  pubdirs : List (List UInt8)
  defaultPages : List (List UInt8)
  ignored : List UInt8 → Bool
  pageTypes : List (List UInt8)

/-- How a request for a file goes on. -/
inductive FileAnswer
  | notFound
  | redirect (location : List UInt8)
  | pageHandler (i : ℕ) (path : List UInt8)
  | defaultPageHandler (path : List UInt8)
  deriving DecidableEq, Repr

/-- The page handler for the extension of a path. -/
def pageHandlerFor (site : FileSite) (path : List UInt8) : FileAnswer :=
  let ext := ((strrchr path 46).map fun dot => path.drop (dot + 1)).getD []
  if ext = [] then .defaultPageHandler path
  else
    match site.pageTypes.findIdx? (· = ext) with
    | some i => .pageHandler i path
    | none => .defaultPageHandler path

/-- `zimr_connection_send_file`, for a request with this `full_url`. `stale` is what `file_stat`
holds when `stat` is never called. -/
def zimrConnectionSendFile (site : FileSite) (stat : List UInt8 → Option Bool) (stale : Bool)
    (fullUrl filepath : List UInt8) (usePubdir : Bool) : Except BufFault FileAnswer := do
  let found ← (if usePubdir ∧ filepath.head? ≠ some 47 then
      if site.pubdirs = [] then pure (some ([], stale))
      else findInPubdirs stat filepath site.pubdirs
    else (fullFilepath [] filepath).map fun path => some (path, stale))
  match found with
  | none => return .notFound
  | some (path, isDir) =>
    if isDir ∧ fullUrl = [] then throw .outOfBounds
    else if isDir ∧ fullUrl.getLast? ≠ some 47 then
      let start := ((strrchr fullUrl 47).map (· + 1)).getD 0
      return .redirect (fullUrl.drop start ++ [47])
    else
      let path ← (if isDir then findDefaultPage stat path site.defaultPages else pure path)
      return if site.ignored filepath then .notFound else pageHandlerFor site path

/-! ## What has to fit -/

/-- A request as the daemon forwards it: the address of the client, no host name, the header
block, whose end it has found in the first `PACK_DATA_SIZE` bytes, and the body. -/
structure Forwarded where
  ip : List UInt8
  block : List UInt8
  body : List UInt8
  ip_length : ip.length = 4
  block_size : block.length ≤ packDataSize
  block_end : crlf ++ crlf <:+ block

/-- The message. -/
def Forwarded.raw (req : Forwarded) : List UInt8 := req.ip ++ 0 :: (req.block ++ req.body)

/-- The buffers hold what is put into them for a request: `urlbuf` the decoded URL, `full_filepath`
a public directory and the url, and each 1024 bytes the headers of the response and the line of
the log. -/
structure BuffersHold (website : Website) (msgid : ℕ) (pubdirs : List (List UInt8))
    (env : ServeEnv) (now : List UInt8) (reply : Reply) (raw : List UInt8) : Prop where
  url : ∀ target, rawTarget raw = some target →
    (urlDecode target target.length).length < pathMax
  path : ∀ c, connectionCreate website msgid raw = .ok (some c) → ∀ dir ∈ pubdirs,
    ∃ path, fullFilepath dir c.urlText = .ok path
  headers : ∀ c, connectionCreate website msgid raw = .ok (some c) →
    ∀ headers, responseHeaders env reply = .ok headers → (headersToString headers).length < 1024
  log : ∀ c, connectionCreate website msgid raw = .ok (some c) →
    ∃ line, zimrLogRequest now c (headersParse c.rest) reply.httpStatus = .ok line

/-- The head of a request as it comes in: its type, the raw target, and the headers. -/
structure RequestHead where
  type : ReqType
  target : List UInt8
  headers : Headers

/-- The head of a message, if its first line has one. -/
def requestHead (raw : List UInt8) : Option RequestHead := do
  let (type, text) ← (← (requestText raw).toOption)
  let (tmp, ptr) ← targetEnd text
  return { type, target := (cstr text).take ptr, headers := headersParse (text.drop (tmp + 2)) }

end Zimr
