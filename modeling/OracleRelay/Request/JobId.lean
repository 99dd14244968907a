/-
# Job identifiers

A job is named by a text. Logs name it by one word of 32 octets: the octets of the text, cut or filled up
with zeros on the right.

Key definitions: `JobId.word`, `JobId.topic`, `JobId.matchesTopic`.
-/
import OracleRelay.Text.Hex

namespace OracleRelay
namespace JobId

/-- The octets of a word. -/
def wordLength : Nat := 32

/-- The word of a job. -/
def word (jobId : String) : List UInt8 :=
  let bs := (Utf8.ofString jobId).take wordLength
  bs ++ List.replicate (wordLength - bs.length) 0

/-- The word of a job as the topic of a log. -/
def topic (jobId : String) : String := Hex.marked (word jobId)

/-- Whether a topic is the word of a job: hexadecimal in any letter case, the mark in front or not. -/
def matchesTopic (topic jobId : String) : Bool :=
  (Hex.stripMark topic).toList.map Char.toLower = Hex.encode (word jobId)

end JobId
end OracleRelay
