/-
# Compact JSON text

A value written without blanks. Strings escape the quote, the backslash and the control characters below
the blank; everything else stands as it is. A double that is no number of the format is written `null`.

Key definitions: `Json.quote`, `Json.print`, `Json.render`.
-/
import OracleRelay.Json.Value

namespace OracleRelay
namespace Json

/-- A hexadecimal digit in lower case. -/
def hexDigit (d : Nat) : Char := Numeral.digitChar d

/-- A character as it stands between quotes. -/
def escape (c : Char) : List Char :=
  if c = '"' then ['\\', '"']
  else if c = '\\' then ['\\', '\\']
  else if 0x20 ≤ c.toNat then [c]
  else if c = '\x08' then ['\\', 'b']
  else if c = '\t' then ['\\', 't']
  else if c = '\n' then ['\\', 'n']
  else if c = '\x0c' then ['\\', 'f']
  else if c = '\r' then ['\\', 'r']
  else ['\\', 'u', '0', '0', hexDigit (c.toNat / 16), hexDigit (c.toNat % 16)]

/-- A string between quotes. -/
def quote (s : String) : List Char := '"' :: s.toList.flatMap escape ++ ['"']

/-- The text of an integer. -/
def printInt : Int → List Char
  | .ofNat n => Numeral.render 10 n
  | .negSucc n => '-' :: Numeral.render 10 (n + 1)

/-- The text of a number. -/
def Number.print : Number → List Char
  | .int n => printInt n
  | .double x => if x.isFinite then x.render else ['n', 'u', 'l', 'l']

mutual

/-- The text of a value. -/
def print : Json → List Char
  | .null => ['n', 'u', 'l', 'l']
  | .bool true => ['t', 'r', 'u', 'e']
  | .bool false => ['f', 'a', 'l', 's', 'e']
  | .number n => n.print
  | .text s => quote s
  | .array items => '[' :: printItems items ++ [']']
  | .object members => '\x7b' :: printMembers members ++ ['\x7d']

/-- The elements of an array, with commas between them. -/
def printItems : List Json → List Char
  | [] => []
  | [v] => print v
  | v :: w :: rest => print v ++ ',' :: printItems (w :: rest)

/-- The members of an object, with commas between them. -/
def printMembers : List (String × Json) → List Char
  | [] => []
  | [(k, v)] => quote k ++ ':' :: print v
  | (k, v) :: m :: rest => quote k ++ ':' :: (print v ++ ',' :: printMembers (m :: rest))

end

/-- The text of a value, as a string. -/
def render (v : Json) : String := String.ofList (print v)

/-- The text of an object whose members stay in the order given. -/
def renderMembers (members : List (String × Json)) : String :=
  String.ofList ('\x7b' :: printMembers members ++ ['\x7d'])

/-- A value where a name is wanted: a string as it is, anything else as its text. -/
def plainText : Json → String
  | .text s => s
  | v => v.render

end Json
end OracleRelay
