/-
# Number and string literals of JSON

A string literal is read as characters and 16-bit units; two units that form a pair make one character, and
a unit left over makes the literal one without a value. The digits of a number are gathered into a 64-bit
significand as long as they fit; the rest of the number only shifts the decimal point, and the double is the
significand times or divided by one power of ten.

Key definitions: `Json.Literal.readText`, `Json.Literal.joinUnits`, `Json.Literal.readNumber`.
-/
import OracleRelay.Json.Value

namespace OracleRelay
namespace Json
namespace Literal

/-- What a string literal is made of: characters, and 16-bit units given by number. -/
inductive Piece where
  | char (c : Char)
  | unit (n : Nat)

/-- Four hexadecimal digits as a number. -/
def unit? (a b c d : Char) : Option Nat := Numeral.value? 16 [a, b, c, d]

/-- The character that a backslash and a letter stand for. -/
def escaped? (c : Char) : Option Char :=
  if c = '"' ∨ c = '\\' ∨ c = '/' then some c
  else if c = 'b' then some '\x08'
  else if c = 'f' then some '\x0c'
  else if c = 'n' then some '\n'
  else if c = 'r' then some '\r'
  else if c = 't' then some '\t'
  else none

/-- The pieces up to the closing quote, and what follows it. Control characters must be escaped. -/
def readPieces : List Char → Option (List Piece × List Char)
  | [] => none
  | '"' :: rest => some ([], rest)
  | '\\' :: 'u' :: a :: b :: c :: d :: rest =>
    match unit? a b c d, readPieces rest with
    | some n, some (ps, rest') => some (.unit n :: ps, rest')
    | _, _ => none
  | '\\' :: e :: rest =>
    match escaped? e, readPieces rest with
    | some c, some (ps, rest') => some (.char c :: ps, rest')
    | _, _ => none
  | c :: rest =>
    if c.toNat < 0x20 ∨ c = '\\' then none
    else match readPieces rest with
      | some (ps, rest') => some (.char c :: ps, rest')
      | none => none

/-- The characters of the pieces, if every unit is a character or one half of a pair. -/
def joinUnits : List Piece → Option (List Char)
  | [] => some []
  | .char c :: rest => (joinUnits rest).map (c :: ·)
  | .unit n :: rest =>
    if 0xD800 ≤ n ∧ n ≤ 0xDBFF then
      match rest with
      | .unit m :: rest' =>
        if 0xDC00 ≤ m ∧ m ≤ 0xDFFF then
          (joinUnits rest').map (Char.ofNat ((n - 0xD800) * 0x400 + (m - 0xDC00) + 0x10000) :: ·)
        else none
      | _ => none
    else if 0xDC00 ≤ n ∧ n ≤ 0xDFFF then none
    else (joinUnits rest).map (Char.ofNat n :: ·)

/-- A string literal after its opening quote: its value, if it has one, and what follows it. -/
def readText (cs : List Char) : Option (Option String × List Char) :=
  (readPieces cs).map fun (ps, rest) => ((joinUnits ps).map String.ofList, rest)

/-- The digits in front. -/
def takeDigits : List Char → List Nat × List Char
  | [] => ([], [])
  | c :: cs =>
    match Numeral.digit? 10 c with
    | some d => (d :: (takeDigits cs).1, (takeDigits cs).2)
    | none => ([], c :: cs)

/-- Appends digits to the significand while it fits 64 bits. Gives the significand and the count of digits
that were left. -/
def absorb (significand : Nat) : List Nat → Nat × Nat
  | [] => (significand, 0)
  | d :: ds =>
    if significand * 10 + d < 0x10000000000000000 then absorb (significand * 10 + d) ds
    else (significand, ds.length + 1)

/-- Divides by powers of ten down to the least exponent that one division reaches. -/
def scaleDown (f : Float) (exp : Int) : Nat → Float × Int
  | 0 => (f, exp)
  | fuel + 1 =>
    if exp < -308 ∧ f != 0 then scaleDown (f / Float.ofScientific 1 false 308) (exp + 308) fuel
    else (f, exp)

/-- The magnitude `significand * 10 ^ exp` as a double, or none when it is beyond the doubles. -/
def magnitude? (significand : Nat) (exp : Int) : Option Float :=
  let f := Float.ofNat significand
  if 0 ≤ exp then
    if significand = 0 then some f
    else if 308 < exp then none
    else
      let x := f * Float.ofScientific 1 false exp.toNat
      if x.isInf then none else some x
  else
    let (f, exp) := scaleDown f exp 4
    if f == 0 then some f else some (f / Float.ofScientific 1 false (-exp).toNat)

/-- A double with the sign that was written. -/
def signed (negative : Bool) (f : Float) : Number := .double (.ofFloat (if negative then -f else f))

/-- The value of a number literal from its parts: the digits before and after the point, and the exponent
with its sign. An integer that fits 64 bits stays one; minus zero does not. -/
def numberValue? (negative : Bool) (whole : List Nat) (fraction : Option (List Nat))
    (exp : Option (Bool × List Nat)) : Option Number :=
  let (significand, left) := absorb 0 whole
  match fraction, exp with
  | none, none =>
    if left ≠ 0 then (magnitude? significand left).map (signed negative)
    else if !negative then some (.int significand)
    else if significand = 0 ∨ 0x8000000000000000 < significand then some (signed true (Float.ofNat significand))
    else some (.int (-significand))
  | _, _ =>
    let digits := fraction.getD []
    let (significand, rest) := absorb significand digits
    let point : Int := (left : Int) - ((digits.length - rest : Nat) : Int)
    match exp with
    | none => (magnitude? significand point).map (signed negative)
    | some (down, ds) =>
      let e : Nat := ds.foldl (fun n d => n * 10 + d) 0
      if 0x80000000 ≤ e then
        if significand ≠ 0 ∧ !down then none else some (signed negative 0)
      else (magnitude? significand (if down then point - (e : Int) else point + (e : Int))).map (signed negative)

/-- The exponent of a number: none when none is written, and a failure when no digit follows its mark. -/
def readExponent : List Char → Option (Option (Bool × List Nat) × List Char)
  | c :: cs =>
    if c = 'e' ∨ c = 'E' then
      let (down, cs) := match cs with
        | '-' :: rest => (true, rest)
        | '+' :: rest => (false, rest)
        | _ => (false, cs)
      match takeDigits cs with
      | ([], _) => none
      | (ds, rest) => some (some (down, ds), rest)
    else some (none, c :: cs)
  | [] => some (none, [])

/-- The fraction of a number: none when there is no point, and a failure when no digit follows the point. -/
def readFraction : List Char → Option (Option (List Nat) × List Char)
  | '.' :: cs =>
    match takeDigits cs with
    | ([], _) => none
    | (ds, rest) => some (some ds, rest)
  | cs => some (none, cs)

/-- A number literal after its sign: its value, if it has one, and what follows it. A zero stands alone in
front of the point. -/
def readMagnitude (negative : Bool) (cs : List Char) : Option (Option Number × List Char) :=
  match takeDigits cs with
  | ([], _) => none
  | (0 :: _ :: _, _) => none
  | (whole, rest) =>
    match readFraction rest with
    | none => none
    | some (fraction, rest) =>
      match readExponent rest with
      | none => none
      | some (exp, rest) => some (numberValue? negative whole fraction exp, rest)

/-- A number literal: its value, if it has one, and what follows it. -/
def readNumber : List Char → Option (Option Number × List Char)
  | '-' :: cs => readMagnitude true cs
  | cs => readMagnitude false cs

end Literal
end Json
end OracleRelay
