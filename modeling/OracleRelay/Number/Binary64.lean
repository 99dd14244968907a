/-
# Double-precision numbers

A double is kept as its 64 bits, so that two of them are equal exactly when they are the same number of the
format. Its text has the fewest digits that read back to it, the nearest such digits when there are several.

Key definitions: `Binary64`, `Binary64.shortest`, `Binary64.render`.
-/
import OracleRelay.Text.Numeral

namespace OracleRelay

/-- A binary64 number by its bits. -/
structure Binary64 where
  bits : UInt64
  deriving DecidableEq, Repr, Inhabited

namespace Binary64

/-- The double of a machine number. -/
def ofFloat (x : Float) : Binary64 := ⟨x.toBits⟩

/-- The sign bit. -/
def isNegative (x : Binary64) : Bool := x.bits.toNat ≥ Nat.pow 2 63

/-- The exponent field. -/
def exponentField (x : Binary64) : Nat := x.bits.toNat / Nat.pow 2 52 % Nat.pow 2 11

/-- The fraction field. -/
def fractionField (x : Binary64) : Nat := x.bits.toNat % Nat.pow 2 52

/-- Neither infinite nor a NaN. -/
def isFinite (x : Binary64) : Bool := x.exponentField < 2047

/-- A positive or negative zero. -/
def isZero (x : Binary64) : Bool := x.bits.toNat % Nat.pow 2 63 = 0

/-- The magnitude of a finite double is `significand * 2 ^ exponent`. -/
def significand (x : Binary64) : Nat :=
  if x.exponentField = 0 then x.fractionField else Nat.pow 2 52 + x.fractionField

/-- The power of two that goes with `significand`. -/
def exponent (x : Binary64) : Int :=
  if x.exponentField = 0 then -1074 else (x.exponentField : Int) - 1075

/-- The gap to the next smaller magnitude is half of the gap to the next larger one. -/
def narrowBelow (x : Binary64) : Bool := x.fractionField = 0 && 1 < x.exponentField

/-- `digits * 10 ^ exp`. -/
structure Decimal where
  digits : Nat
  exp : Int
  deriving DecidableEq, Repr

/-- Compares `a * 10 ^ i` with `n * 2 ^ j`. -/
def compareScaled (a : Nat) (i : Int) (n : Nat) (j : Int) : Ordering :=
  compare (a * Nat.pow 10 i.toNat * Nat.pow 2 (-j).toNat) (n * Nat.pow 2 j.toNat * Nat.pow 10 (-i).toNat)

/-- A decimal reads back to the magnitude of `x` when it lies between the points halfway to the
neighbours, the points themselves included when the significand is even. -/
def readsBack (x : Binary64) (d : Decimal) : Bool :=
  let low := if x.narrowBelow then 4 * x.significand - 1 else 4 * x.significand - 2
  let high := 4 * x.significand + 2
  let ends := x.significand % 2 == 0
  let above := compareScaled d.digits d.exp low (x.exponent - 2)
  let below := compareScaled d.digits d.exp high (x.exponent - 2)
  (above == .gt || (ends && above == .eq)) && (below == .lt || (ends && below == .eq))

/-- The least `k` from `start` on with the magnitude of `x` below `10 ^ k`; the search ends after `fuel` steps. -/
def scaleFrom (x : Binary64) (start : Int) : Nat → Int
  | 0 => start
  | fuel + 1 =>
    if compareScaled 1 start x.significand x.exponent == .gt then start else scaleFrom x (start + 1) fuel

/-- The least `k` with the magnitude of `x` below `10 ^ k`. -/
def scale (x : Binary64) : Int := scaleFrom x (-330) 650

/-- The multiples of `10 ^ exp` around the magnitude of `x`, the nearer first, of two equally near the even. -/
def gridNeighbours (x : Binary64) (exp : Int) : List Decimal :=
  let num := x.significand * Nat.pow 2 x.exponent.toNat * Nat.pow 10 (-exp).toNat
  let den := Nat.pow 2 (-x.exponent).toNat * Nat.pow 10 exp.toNat
  let q := num / den
  let lower : Decimal := ⟨q, exp⟩
  let upper : Decimal := ⟨q + 1, exp⟩
  match compare (2 * (num % den)) den with
  | .lt => [lower, upper]
  | .gt => [upper, lower]
  | .eq => if q % 2 = 0 then [lower, upper] else [upper, lower]

/-- The first grid, from one digit up to seventeen, with a point that reads back. -/
def shortestFrom (x : Binary64) (k : Int) (count : Nat) : Nat → Option Decimal
  | 0 => none
  | fuel + 1 =>
    match (x.gridNeighbours (k - count)).find? x.readsBack with
    | some d => some d
    | none => shortestFrom x k (count + 1) fuel

/-- Moves trailing zeros of the digits into the exponent. -/
def Decimal.strip (d : Decimal) : Decimal :=
  if _ : d.digits ≠ 0 ∧ d.digits % 10 = 0 then
    Decimal.strip ⟨d.digits / 10, d.exp + 1⟩
  else d
termination_by d.digits
decreasing_by exact Nat.div_lt_self (by omega) (by omega)

/-- The fewest digits that read back to a finite double other than zero. -/
def shortest (x : Binary64) : Decimal :=
  ((shortestFrom x x.scale 1 17).getD ⟨x.significand * Nat.pow 2 x.exponent.toNat * Nat.pow 5 (-x.exponent).toNat,
    min x.exponent 0⟩).strip

/-- Digits with the decimal point `point` places after their start. Plain from a hundred-thousandth up to
sixteen integral digits, with a fraction always; beyond that one digit before the point and a signed exponent. -/
def layout (digits : List Char) (point : Int) : List Char :=
  let count : Int := digits.length
  if count ≤ point ∧ point ≤ 16 then digits ++ List.replicate (point - count).toNat '0' ++ ['.', '0']
  else if 0 < point ∧ point ≤ 16 then digits.take point.toNat ++ '.' :: digits.drop point.toNat
  else if -5 < point ∧ point ≤ 0 then '0' :: '.' :: List.replicate (-point).toNat '0' ++ digits
  else
    let exp := point - 1
    let sign := if exp < 0 then '-' else '+'
    let lead := digits.take 1
    let fraction := match digits.drop 1 with
      | [] => []
      | more => '.' :: more
    lead ++ fraction ++ 'e' :: sign :: Numeral.render 10 exp.natAbs

/-- The text of a finite double. -/
def render (x : Binary64) : List Char :=
  let magnitude := if x.isZero then ['0', '.', '0'] else
    let d := x.shortest
    let digits := Numeral.render 10 d.digits
    layout digits (d.exp + digits.length)
  if x.isNegative then '-' :: magnitude else magnitude

end Binary64
end OracleRelay
