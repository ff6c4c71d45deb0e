import StorageFeatures.Json.Basic

/-!
# HTTP requests and their targets

`Uri.parse` reads the target of a request: a path, `*`, an authority alone, or an absolute form
with scheme, authority and path. Only characters that a target may hold are accepted, none of
which lies outside of ASCII; a fragment is dropped.

A request is as a server sees it, and an answer as a client reads it. The target of a request is
written as one text and read back, so a name that holds `?` or `#` changes where the path ends.
-/

namespace StorageFeatures.Http

structure Uri where
  scheme : Option String := none
  authority : String := ""
  /-- The path; empty only in the authority form. -/
  path : String := ""
  query : Option String := none
  deriving DecidableEq, Repr

/-- Why a text is no target. -/
inductive UriFault where
  | empty
  | tooLong
  | badCharacter
  | badAuthority
  | badFormat
  | schemeTooLong
  deriving DecidableEq, Repr

namespace UriFault

def message : UriFault → String
  | empty => "empty string"
  | tooLong => "uri too long"
  | badCharacter => "invalid uri character"
  | badAuthority => "invalid authority"
  | badFormat => "invalid format"
  | schemeTooLong => "scheme too long"

end UriFault

namespace Uri

/-- The longest target. -/
def maxLength : Nat := 65534

/-- Whether a path may hold a character. -/
def isPathChar (c : Char) : Bool :=
  let n := c.toNat
  n == 0x21 || n == 0x22 || (0x24 ≤ n && n ≤ 0x3B) || n == 0x3D || (0x40 ≤ n && n ≤ 0x5F) ||
    (0x61 ≤ n && n ≤ 0x7E)

/-- Whether a query may hold a character. -/
def isQueryChar (c : Char) : Bool :=
  let n := c.toNat
  n == 0x21 || (0x24 ≤ n && n ≤ 0x3B) || n == 0x3D || (0x3F ≤ n && n ≤ 0x7E)

/-- Whether a scheme may hold a character. -/
def isSchemeChar (c : Char) : Bool := c.isAlphanum || c == '+' || c == '-' || c == '.'

/-- Whether an authority may hold a character without being judged by its place. -/
def isAuthorityChar (c : Char) : Bool :=
  c.isAlphanum || "!$&'()*+,-.;=_~".toList.contains c

/-! ### Path and query -/

/-- What stands before a fragment. -/
def beforeFragment (cs : List Char) : List Char := cs.takeWhile (· ≠ '#')

/-- Reads a path with its query. -/
def parsePath (cs : List Char) : Except UriFault (String × Option String) :=
  let path := cs.takeWhile fun c => c ≠ '?' && c ≠ '#'
  if !path.all isPathChar then .error .badCharacter
  else
    let written := if path.isEmpty then "/" else String.ofList path
    match cs.drop path.length with
    | '?' :: r =>
      let query := beforeFragment r
      if query.all isQueryChar then .ok (written, some (String.ofList query))
      else .error .badCharacter
    | _ => .ok (written, none)

/-! ### Authority -/

/-- What has been seen of an authority. -/
structure AuthorityScan where
  colons : Nat := 0
  opened : Bool := false
  closed : Bool := false
  percent : Bool := false
  /-- Whether the last character was an `@`. -/
  atEnd : Bool := false

/-- Looks at one character of an authority. -/
def AuthorityScan.step (s : AuthorityScan) (c : Char) : Except UriFault AuthorityScan :=
  let s := { s with atEnd := c = '@' }
  if c = ':' then
    if 8 ≤ s.colons then .error .badAuthority else .ok { s with colons := s.colons + 1 }
  else if c = '[' then
    if s.percent || s.opened then .error .badAuthority else .ok { s with opened := true }
  else if c = ']' then
    if !s.opened || s.closed then .error .badAuthority
    else .ok { s with closed := true, colons := 0, percent := false }
  else if c = '@' then .ok { s with colons := 0, percent := false }
  else if c = '%' then .ok { s with percent := true }
  else if isAuthorityChar c then .ok s
  else .error .badCharacter

/-- Whether a scanned authority is complete: brackets are closed, there is at most one colon
before the port, something follows an `@`, and no host is percent-encoded. -/
def AuthorityScan.isComplete (s : AuthorityScan) : Bool :=
  s.opened == s.closed && s.colons ≤ 1 && !s.atEnd && !s.percent

/-- Cuts the authority off. -/
def takeAuthority (cs : List Char) : Except UriFault (List Char × List Char) := do
  let authority := cs.takeWhile fun c => c ≠ '/' && c ≠ '?' && c ≠ '#'
  let s ← authority.foldlM AuthorityScan.step {}
  if s.isComplete then return (authority, cs.drop authority.length) else .error .badAuthority

/-! ### Targets -/

/-- Cuts the scheme off with its `://`, if there is one. -/
def takeScheme (cs : List Char) : Except UriFault (Option String × List Char) :=
  let scheme := cs.takeWhile isSchemeChar
  match cs.drop scheme.length with
  | ':' :: '/' :: '/' :: r =>
    if 64 < scheme.length then .error .schemeTooLong else .ok (some (String.ofList scheme), r)
  | _ => .ok (none, cs)

/-- Reads a target that does not begin with a path. -/
def parseFull (cs : List Char) : Except UriFault Uri := do
  let (scheme, r) ← takeScheme cs
  let (authority, r) ← takeAuthority r
  match scheme with
  | none =>
    if r.isEmpty then return { authority := String.ofList authority } else .error .badFormat
  | some scheme =>
    if authority.isEmpty then .error .badFormat
    else
      let (path, query) ← parsePath r
      return { scheme, authority := String.ofList authority, path, query }

def parse (s : String) : Except UriFault Uri :=
  let cs := s.toList
  if maxLength < s.utf8ByteSize then .error .tooLong
  else match cs with
    | [] => .error .empty
    | ['*'] => .ok { path := "*" }
    | '/' :: _ => do
      let (path, query) ← parsePath cs
      return { path, query }
    | [c] =>
      if c = '?' || c = '#' then .error .badCharacter else parseFull cs
    | _ => parseFull cs

end Uri

/-- Whether a text is a method: one or more characters of a token. -/
def isMethod (s : String) : Bool :=
  !s.isEmpty && s.toList.all fun c => c.isAlphanum || "!#$%&'*+-.^_`|~".toList.contains c

/-! ### Requests and answers -/

structure Request where
  method : String
  path : String
  query : Option String
  body : Option Json

structure Response where
  status : Nat
  body : String
  deriving DecidableEq, Repr

/-- A request for a target. -/
def Request.make (method target : String) (body : Option Json) : Except UriFault Request := do
  let uri ← Uri.parse target
  return ⟨method, uri.path, uri.query, body⟩

/-- Whether an answer reports an error. -/
def Response.isError (r : Response) : Bool := 400 ≤ r.status && r.status < 600

end StorageFeatures.Http
