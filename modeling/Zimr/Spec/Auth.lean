import Zimr.Spec.Headers

/-!
# The authentication module (`modauth.c`)

`modzimr_connection_new` looks for the credentials of a request in the table that
`read_htpasswd_file` has filled, or asks PAM. `crypt` and PAM are parameters.
-/

namespace Zimr

/-! ## The credentials -/

/-- `base64_decode_digit`. -/
def base64DecodeDigit (c : UInt8) : ℕ :=
  if c = 61 then 0
  else if c = 43 then 62
  else if c = 47 then 63
  else if 48 ≤ c && c ≤ 57 then c.toNat - 48 + 52
  else if 97 ≤ c && c ≤ 122 then c.toNat - 97 + 26
  else if 65 ≤ c && c ≤ 90 then c.toNat - 65
  else 255

/-- The loop of `base64_decode`: the characters from `p` on, `p - s` and `n`, which is an
`unsigned`. -/
def base64DecodeLoop : List UInt8 → ℕ → ℕ → List UInt8
  | [], _, _ => []
  | c :: p, i, n =>
    if c = 0 then []
    else
      let n := (64 * n + base64DecodeDigit c) % 4294967296
      if (i + 1) % 4 = 0 then
        UInt8.ofNat (n / 65536) :: UInt8.ofNat (n % 65536 / 256) :: UInt8.ofNat (n % 256) ::
          base64DecodeLoop p (i + 1) 0
      else base64DecodeLoop p (i + 1) n

/-- `base64_decode`: what is written from `buf` on. -/
def base64Decode (s : List UInt8) : List UInt8 := base64DecodeLoop s 0 0 ++ [0]

/-- `sizeof( user )`. -/
def authUserSize : ℕ := 256

/-- The user and the password in the value of a header, if it has the form of them. -/
def basicCredentials (value : List UInt8) : Except BufFault (Option (List UInt8 × List UInt8)) :=
  if startswith value (ascii "Basic ") then
    let user := base64Decode (value.drop 6)
    if authUserSize < user.length then .error .outOfBounds
    else
      match strchr user 58 with
      | none => .ok none
      | some n => .ok (some (user.take n, cstr (user.drop (n + 1))))
  else .ok none

/-! ## The password file -/

/-- `auth_user_t`. -/
structure AuthUser where
  name : List UInt8
  passwd : List UInt8
  deriving DecidableEq, Repr

/-- The size of `auth_users`, and of each array of an entry. -/
def authUsersMax : ℕ := 100
def authFieldSize : ℕ := 64

/-- `fgets( buf, size, fp )`: the line, or its first `size - 1` bytes, and what is left. -/
def fgets (size : ℕ) (s : List UInt8) : List UInt8 × List UInt8 :=
  let n := min (((s.findIdx? (· = 10)).map (· + 1)).getD s.length) (size - 1)
  (s.take n, s.drop n)

/-- `chomp`. -/
def chomp (s : List UInt8) : List UInt8 := s.takeWhile fun c => c ≠ 10 && c ≠ 13

/-- The loop of `read_htpasswd_file`. A name that fills its array runs on into the password; the
entry behind the last one is cleared. -/
def readHtpasswdLoop : ℕ → List UInt8 → List AuthUser → Except BufFault (List AuthUser)
  | 0, _, users => .ok users
  | fuel + 1, s, users =>
    if s = [] then .ok users
    else
      let buf := cstr (fgets 256 s).1
      match strchr buf 58 with
      | none => .error .outOfBounds
      | some n =>
        if authFieldSize < n || authFieldSize < buf.length - n || authUsersMax ≤ users.length + 1 then
          .error .outOfBounds
        else
          let passwd := chomp (buf.drop (n + 1))
          let name := buf.take n ++ (if n = authFieldSize then passwd else [])
          readHtpasswdLoop fuel (fgets 256 s).2 (users ++ [⟨name, passwd⟩])

/-- `read_htpasswd_file`. Without the file the table is empty. -/
def readHtpasswdFile : Option (List UInt8 × ℕ) → Except BufFault (List AuthUser)
  | none => .ok []
  | some (text, _) => readHtpasswdLoop (text.length + 1) text []

/-- `auth_users`, up to the entry that is cleared, and `htpasswd_mtime`. -/
structure AuthState where
  users : List AuthUser
  mtime : ℕ
  deriving DecidableEq, Repr

/-- `modzimr_init`. -/
def authInit : AuthState := ⟨[], 0⟩

/-- `htpasswd_file_was_modified`. -/
def htpasswdFileWasModified (file : Option (List UInt8 × ℕ)) (σ : AuthState) : AuthState × Bool :=
  match file with
  | none => (σ, false)
  | some (_, mtime) => if σ.mtime = mtime then (σ, false) else ({ σ with mtime }, true)

/-! ## A connection -/

/-- `AUTH_HTPASSWD`, `AUTH_PAM`. -/
inductive AuthType
  | htpasswd | pam
  deriving DecidableEq, Repr

/-- `auth_info_t`, of whose `args` the first is used. -/
structure AuthInfo where
  type : AuthType
  url : List UInt8
  service : List UInt8

/-- What the module reads of a connection, and the headers of its response. -/
structure AuthRequest where
  url : List UInt8
  headers : Headers
  response : Headers

/-- The request goes on, or error 401 is sent with these headers. -/
inductive AuthAnswer
  | passes
  | unauthorized (response : Headers)
  deriving DecidableEq, Repr

/-- `not_auth`. -/
def notAuth (info : AuthInfo) (req : AuthRequest) : Except BufFault AuthAnswer :=
  if startswith req.url info.url then
    (headersSetHeader req.response (ascii "WWW-Authenticate") (ascii "Basic realm=\"Secure Area\"")).map
      .unauthorized
  else .ok .passes

/-- The inner loop of `modzimr_connection_new`, which ends at the first cleared entry. -/
def authUsersHave (crypt : List UInt8 → List UInt8 → List UInt8) (users : List AuthUser)
    (user pass : List UInt8) : Bool :=
  (users.takeWhile (·.name ≠ [])).any fun u => u.name = user && u.passwd = crypt pass u.passwd

/-- `modzimr_connection_new`. -/
def modzimrConnectionNew (crypt : List UInt8 → List UInt8 → List UInt8)
    (pam : List UInt8 → List UInt8 → List UInt8 → Bool) (info : AuthInfo)
    (file : Option (List UInt8 × ℕ)) (σ : AuthState) (req : AuthRequest) :
    Except BufFault (AuthState × AuthAnswer) := do
  let refuse (σ : AuthState) : Except BufFault (AuthState × AuthAnswer) := do
    return (σ, ← notAuth info req)
  match headersGetHeader req.headers (ascii "Authorization") with
  | none => refuse σ
  | some header =>
    match ← basicCredentials header.value with
    | none => refuse σ
    | some (user, pass) =>
      match info.type with
      | .pam => if pam info.service user pass then return (σ, .passes) else refuse σ
      | .htpasswd =>
        if authUsersHave crypt σ.users user pass then return (σ, .passes)
        let (σ, modified) := htpasswdFileWasModified file σ
        if modified then
          let σ := { σ with users := ← readHtpasswdFile file }
          if authUsersHave crypt σ.users user pass then return (σ, .passes) else refuse σ
        else refuse σ

/-- The user and the password of a request. -/
def AuthRequest.credentials (req : AuthRequest) : Except BufFault (Option (List UInt8 × List UInt8)) :=
  match headersGetHeader req.headers (ascii "Authorization") with
  | none => .ok none
  | some header => basicCredentials header.value

/-! ## Edits and requests -/

/-- A line `name:hash`. -/
structure HtLine where
  name : List UInt8
  hash : List UInt8
  name_text : 0 ∉ name ∧ 10 ∉ name ∧ 58 ∉ name
  hash_text : 0 ∉ hash ∧ 10 ∉ hash ∧ 13 ∉ hash

def HtLine.text (l : HtLine) : List UInt8 := l.name ++ 58 :: (l.hash ++ [10])

/-- The password file. -/
structure HtFile where
  lines : List HtLine
  mtime : ℕ

def HtFile.text (f : HtFile) : List UInt8 := (f.lines.map HtLine.text).flatten

/-- The module, the file, and the file as it was when it was last read. -/
structure AuthWorld where
  auth : AuthState
  file : Option HtFile
  seen : Option HtFile

inductive AuthAct
  | edit (file : Option HtFile)
  | request (req : AuthRequest)

namespace AuthWorld

def init : AuthWorld := ⟨authInit, none, none⟩

section Step

variable (crypt : List UInt8 → List UInt8 → List UInt8) (pam : List UInt8 → List UInt8 → List UInt8 → Bool)
  (info : AuthInfo)

/-- A request. The module takes a new modification time when it reads the file. -/
def request (w : AuthWorld) (req : AuthRequest) : Except BufFault (AuthWorld × AuthAnswer) := do
  let (auth, answer) ← modzimrConnectionNew crypt pam info (w.file.map fun f => (f.text, f.mtime))
    w.auth req
  return (⟨auth, w.file, if auth.mtime = w.auth.mtime then w.seen else w.file⟩, answer)

def step (w : AuthWorld) : AuthAct → Except BufFault AuthWorld
  | .edit file => .ok { w with file }
  | .request req => (w.request crypt pam info req).map Prod.fst

end Step

/-- The file is as it was when it was read, or the table does not have the credentials; and no name
in the file fills its array. -/
def Current (w : AuthWorld) (crypt : List UInt8 → List UInt8 → List UInt8) (req : AuthRequest) : Prop :=
  (w.seen = w.file ∨ ∀ user pass, req.credentials = .ok (some (user, pass)) →
    authUsersHave crypt w.auth.users user pass = false) ∧
  ∀ f, w.file = some f → ∀ l ∈ f.lines, l.name.length ≠ authFieldSize

/-- The file has the credentials of the request. -/
def Accepts (w : AuthWorld) (crypt : List UInt8 → List UInt8 → List UInt8) (req : AuthRequest) : Prop :=
  ∃ user pass f, req.credentials = .ok (some (user, pass)) ∧ w.file = some f ∧
    ∃ l ∈ f.lines, l.name = user ∧ l.hash = crypt pass l.hash

end AuthWorld

end Zimr
