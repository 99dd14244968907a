/-
# JSON text as octets

Octets that spell no character do no harm where nobody looks at them: inside a string literal they leave the literal
without a value, and anywhere else they spoil the text.

Key definitions: `Json.standIn`, `Json.readOctets?`.
-/
import OracleRelay.Json.Record
import OracleRelay.Text.Utf8

namespace OracleRelay
namespace Json

/-- Two units that make no character, whatever stands in front of them. -/
def unpaired : List Char := "\\udc00\\udc00".toList

/-- Characters with something that has no value in place of what is none. After a backslash nothing but a character
will do; a line break there spoils the text. -/
def standIn (escaped : Bool) : List (Option Char) → List Char
  | [] => []
  | some c :: rest => c :: standIn (c = '\\' && !escaped) rest
  | none :: rest => (if escaped then ['\n'] else unpaired) ++ standIn false rest

/-- A value of a type read from the octets of a whole text. -/
def readOctets? {α : Type} (reader : Reader α) (bs : List UInt8) : Option α :=
  (Tree.ofChars? (standIn false (Utf8.scan bs))).bind (reader maxDepth)

end Json
end OracleRelay
