/-
# Reading JSON text

A text is split into a tree by descent over the characters; each call reads at least one character, so the
length of the text bounds the descent.

Key definitions: `Json.Tree.read`, `Json.Tree.ofText?`, `Json.parse?`.
-/
import OracleRelay.Json.Tree
import OracleRelay.Json.Literal

namespace OracleRelay
namespace Json

/-- The blank characters between the parts of a text. -/
def isBlank (c : Char) : Bool := c = ' ' || c = '\n' || c = '\t' || c = '\r'

/-- Leaves out the blanks in front. -/
def skipBlanks : List Char → List Char
  | [] => []
  | c :: cs => if isBlank c then skipBlanks cs else c :: cs

namespace Tree

mutual

/-- The tree in front, and what follows it. -/
def read : Nat → List Char → Option (Tree × List Char)
  | 0, _ => none
  | fuel + 1, cs =>
    match skipBlanks cs with
    | 'n' :: 'u' :: 'l' :: 'l' :: rest => some (.null, rest)
    | 't' :: 'r' :: 'u' :: 'e' :: rest => some (.bool true, rest)
    | 'f' :: 'a' :: 'l' :: 's' :: 'e' :: rest => some (.bool false, rest)
    | '"' :: rest => (Literal.readText rest).map fun (s, rest) => (.text s, rest)
    | '[' :: rest =>
      match skipBlanks rest with
      | ']' :: rest => some (.array [], rest)
      | rest => (readItems fuel rest).map fun (ts, rest) => (.array ts, rest)
    | '\x7b' :: rest =>
      match skipBlanks rest with
      | '\x7d' :: rest => some (.object [], rest)
      | rest => (readMembers fuel rest).map fun (ms, rest) => (.object ms, rest)
    | rest => (Literal.readNumber rest).map fun (n, rest) => (.number n, rest)

/-- One or more elements and the bracket that closes them. -/
def readItems : Nat → List Char → Option (List Tree × List Char)
  | 0, _ => none
  | fuel + 1, cs =>
    match read fuel cs with
    | none => none
    | some (t, rest) =>
      match skipBlanks rest with
      | ',' :: rest => (readItems fuel rest).map fun (ts, rest) => (t :: ts, rest)
      | ']' :: rest => some ([t], rest)
      | _ => none

/-- One or more members and the brace that closes them. -/
def readMembers : Nat → List Char → Option (List (Option String × Tree) × List Char)
  | 0, _ => none
  | fuel + 1, cs =>
    match skipBlanks cs with
    | '"' :: rest =>
      match Literal.readText rest with
      | none => none
      | some (k, rest) =>
        match skipBlanks rest with
        | ':' :: rest =>
          match read fuel rest with
          | none => none
          | some (t, rest) =>
            match skipBlanks rest with
            | ',' :: rest => (readMembers fuel rest).map fun (ms, rest) => ((k, t) :: ms, rest)
            | '\x7d' :: rest => some ([(k, t)], rest)
            | _ => none
        | _ => none
    | _ => none

end

/-- The tree of a whole text; after it only blanks may follow. -/
def ofChars? (cs : List Char) : Option Tree :=
  match read (2 * cs.length + 2) cs with
  | some (t, rest) => if (skipBlanks rest).isEmpty then some t else none
  | none => none

/-- The tree of a whole text. -/
def ofText? (s : String) : Option Tree := ofChars? s.toList

end Tree

/-- The value of a whole text. -/
def parse? (s : String) : Option Json := (Tree.ofText? s).bind (Tree.value? maxDepth)

end Json
end OracleRelay
