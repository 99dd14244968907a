/-
# Addresses of servers

An address has a scheme; for the schemes that name a server, also a host, a port, a path and a query. Extra or
missing slashes after the scheme and slashes written backwards are accepted there. Blanks at the ends and line
breaks anywhere do not count. What is kept is what a client needs: the scheme, the port, and the target of a request.

Key definitions: `Url`, `Url.parse`, `Url.target`.
-/
import OracleRelay.Url.Host

namespace OracleRelay

/-- An address that could be read. -/
structure Url where
  scheme : String
  /-- the path, from its first slash on -/
  path : String
  /-- the query behind the question mark -/
  query : Option String
  /-- the port, where the address names one -/
  port : Option Nat
  deriving DecidableEq, Repr

namespace Url

/-- The schemes whose addresses name a server. -/
def isServerScheme (scheme : List Char) : Bool :=
  ["http", "https", "ws", "wss", "ftp"].any (·.toList = scheme)

/-- Splits a scheme in lower case from the rest behind its colon. -/
def splitScheme : List Char → Option (List Char × List Char)
  | [] => none
  | c :: cs => if c.isAlpha then go [c.toLower] cs else none
where
  go (scheme : List Char) : List Char → Option (List Char × List Char)
    | [] => none
    | c :: cs =>
      if c = ':' then some (scheme.reverse, cs)
      else if c.isAlphanum ∨ c = '+' ∨ c = '-' ∨ c = '.' then go (c.toLower :: scheme) cs
      else none

/-- Whether a character ends the part with the host. -/
def endsAuthority (isServer : Bool) (c : Char) : Bool :=
  c = '/' || c = '?' || c = '#' || (isServer && c = '\\')

/-- Leaves out a user and password in front of the last sign between them and the host, and tells whether one of the
two is there. A sign with nothing in front of it needs a host behind it. -/
def skipUser (authority rest : List Char) : Except Fault (List Char × Bool) :=
  match authority.reverse.span (· ≠ '@') with
  | (_, []) => .ok (authority, false)
  | (host, _ :: user) =>
    if user.isEmpty then
      if host.isEmpty ∧ !rest.isEmpty then .error .emptyHost else .ok (host.reverse, false)
    else .ok (host.reverse, user ≠ [':'])

/-- Splits host and port at the first colon outside brackets. -/
def splitPort (inBrackets : Bool) : List Char → List Char × Option (List Char)
  | [] => ([], none)
  | c :: cs =>
    if c = ':' ∧ !inBrackets then ([], some cs)
    else
      let inside := if c = '[' then true else if c = ']' then false else inBrackets
      let (host, port) := splitPort inside cs
      (c :: host, port)

/-- The port that a text behind a colon names: digits for a number below `2 ^ 16`, or nothing. -/
def portOf (cs : List Char) : Except Fault (Option Nat) :=
  if cs.isEmpty then .ok none
  else match Numeral.value? 10 cs with
    | some n => if n < 65536 then .ok (some n) else .error .invalidPort
    | none => .error .invalidPort

/-- Checks the part between the slashes and the path, and gives the port in it. -/
def checkAuthority (isServer : Bool) (authority rest : List Char) : Except Fault (Option Nat) := do
  let (text, hasUser) ← skipUser authority rest
  let (host, port) := splitPort false text
  if isServer then
    if host.isEmpty then throw .emptyHost
    checkHost host
  else
    checkOpaqueHost host
    if host.isEmpty && (hasUser || port.isSome) then throw .emptyHost
  match port with
  | some digits => portOf (digits.takeWhile (· ≠ '\\'))
  | none => return none

/-- The octets of a text as percent escapes. -/
def percentEncode (c : Char) : List Char :=
  (Utf8.encodeChar c).flatMap fun b =>
    ['%', (Numeral.digitChar (b.toNat / 16)).toUpper, (Numeral.digitChar (b.toNat % 16)).toUpper]

/-- A character of a path as it is sent. -/
def encodePathChar (c : Char) : List Char :=
  if c.toNat < 0x21 ∨ 0x7E < c.toNat ∨ "\"#<>?`\x7b\x7d".toList.contains c then percentEncode c else [c]

/-- A character of a query as it is sent. -/
def encodeQueryChar (c : Char) : List Char :=
  if c.toNat < 0x21 ∨ 0x7E < c.toNat ∨ "\"#<>'".toList.contains c then percentEncode c else [c]

/-- The segments of a path between slashes of either kind. -/
def splitSegments (cs : List Char) : List (List Char) :=
  cs.foldr (fun c parts =>
    if c = '/' ∨ c = '\\' then [] :: parts
    else match parts with
      | p :: ps => (c :: p) :: ps
      | [] => [[c]]) [[]]

/-- Points with their percent escapes read. -/
def readPoints : List Char → List Char
  | '%' :: '2' :: 'e' :: rest | '%' :: '2' :: 'E' :: rest => '.' :: readPoints rest
  | c :: rest => c :: readPoints rest
  | [] => []

/-- The segments of a path after those that lead upward are followed. `above` holds the ones already
passed, the last first. -/
def resolveSegments (above : List (List Char)) : List (List Char) → List (List Char)
  | [] => above.reverse
  | s :: rest =>
    let isLast := rest.isEmpty
    if readPoints s = ['.', '.'] then resolveSegments (if isLast then [] :: above.drop 1 else above.drop 1) rest
    else if readPoints s = ['.'] then resolveSegments (if isLast then [] :: above else above) rest
    else resolveSegments (s.flatMap encodePathChar :: above) rest

/-- The path of a server address as it is sent. -/
def serverPath (cs : List Char) : List Char :=
  let inner := match cs with
    | '/' :: rest | '\\' :: rest => rest
    | _ => cs
  (resolveSegments [] (splitSegments inner)).flatMap ('/' :: ·)

/-- The address behind the scheme of one that names a server. -/
def parseServer (scheme rest : List Char) : Except Fault Url := do
  let rest := rest.dropWhile fun c => c = '/' || c = '\\'
  let (authority, rest) := rest.span fun c => !endsAuthority true c
  let port ← checkAuthority true authority rest
  let (path, rest) := rest.span fun c => c ≠ '?' ∧ c ≠ '#'
  let query := match rest with
    | '?' :: q => some (String.ofList ((q.takeWhile (· ≠ '#')).flatMap encodeQueryChar))
    | _ => none
  return ⟨String.ofList scheme, String.ofList (serverPath path), query, port⟩

/-- Whether two characters are a drive: a letter and a colon or bar. -/
def isDrive : List Char → Bool
  | [c, d] => c.isAlpha && (d = ':' || d = '|')
  | _ => false

/-- Checks what follows the scheme of a file: a host is only read between two slashes and the next. -/
def checkFile : List Char → Except Fault Unit
  | a :: b :: rest =>
    if (a = '/' ∨ a = '\\') ∧ (b = '/' ∨ b = '\\') then
      let host := rest.takeWhile fun c => !endsAuthority true c
      if host.isEmpty || isDrive host then .ok () else checkHost host
    else .ok ()
  | _ => .ok ()

/-- Checks what follows a scheme that names no server. -/
def checkOther : List Char → Except Fault Unit
  | '/' :: '/' :: rest =>
    let (authority, rest) := rest.span fun c => !endsAuthority false c
    (checkAuthority false authority rest).map fun _ => ()
  | _ => .ok ()

/-- Reads an address. -/
def parse (s : String) : Except Fault Url :=
  let isEdge (c : Char) : Bool := c.toNat ≤ 0x20
  let trimmed := ((s.toList.dropWhile isEdge).reverse.dropWhile isEdge).reverse
  let cs := trimmed.filter fun c => c ≠ '\t' ∧ c ≠ '\n' ∧ c ≠ '\r'
  match splitScheme cs with
  | none => .error .relative
  | some (scheme, rest) =>
    if isServerScheme scheme then parseServer scheme rest
    else
      let check := if scheme = "file".toList then checkFile rest else checkOther rest
      check.map fun _ => ⟨String.ofList scheme, "", none, none⟩

/-- An address without the slashes at its end. -/
def withoutSlashes (url : String) : String :=
  String.ofList (url.toList.reverse.dropWhile (· = '/')).reverse

/-- The target of a request to the address: path and query. -/
def target (u : Url) : String :=
  match u.query with
  | some q => u.path ++ "?" ++ q
  | none => u.path

end Url
end OracleRelay
