/-
# White space

The characters that count as blank at the ends of a text, and the text without them.

Key definitions: `Blank.isBlank`, `Blank.trim`, `Blank.isBlankText`.
-/

namespace OracleRelay
namespace Blank

/-- The code points with the property of white space, as ranges. -/
def ranges : List (Nat × Nat) :=
  [(0x9, 0xD), (0x20, 0x20), (0x85, 0x85), (0xA0, 0xA0), (0x1680, 0x1680), (0x2000, 0x200A), (0x2028, 0x2029),
    (0x202F, 0x202F), (0x205F, 0x205F), (0x3000, 0x3000)]

/-- Whether a character is white space. -/
def isBlank (c : Char) : Bool := ranges.any fun (low, high) => low ≤ c.toNat && c.toNat ≤ high

/-- Leaves out what satisfies `p` at both ends. -/
def trimBy (p : Char → Bool) (cs : List Char) : List Char :=
  ((cs.dropWhile p).reverse.dropWhile p).reverse

/-- The text without white space at its ends. -/
def trim (cs : List Char) : List Char := trimBy isBlank cs

/-- Whether a text is white space only. -/
def isBlankText (s : String) : Bool := s.toList.all isBlank

end Blank
end OracleRelay
