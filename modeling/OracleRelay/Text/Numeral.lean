/-
# Numerals

Natural numbers as digits of a base, most significant digit first, and back. Digits above nine are the
letters from `a`, written in lower case and read in either case.

Key definitions: `Numeral.render`, `Numeral.value?`, `Numeral.unsigned?`, `Numeral.signed?`.
-/

namespace OracleRelay
namespace Numeral

/-- The character of a digit below sixteen. -/
def digitChar (d : Nat) : Char :=
  if d < 10 then Char.ofNat (48 + d) else Char.ofNat (87 + d)

/-- The value of a digit character of the base, in either letter case. -/
def digit? (base : Nat) (c : Char) : Option Nat :=
  let n := c.toNat
  let d := if 48 ≤ n ∧ n ≤ 57 then n - 48
    else if 97 ≤ n ∧ n ≤ 122 then n - 87
    else if 65 ≤ n ∧ n ≤ 90 then n - 55
    else base
  if d < base then some d else none

/-- The digits of `n` in front of `rest`. A base below two has only the one digit. -/
def renderOnto (base n : Nat) (rest : List Char) : List Char :=
  if _ : n < base ∨ base < 2 then digitChar n :: rest
  else renderOnto base (n / base) (digitChar (n % base) :: rest)
termination_by n
decreasing_by exact Nat.div_lt_self (by omega) (by omega)

/-- The numeral of `n`: no leading zeros, `0` for zero. -/
def render (base n : Nat) : List Char := renderOnto base n []

/-- Digits read on to the number `acc`, or nothing when a character is no digit of the base. -/
def valueFrom? (base : Nat) : Nat → List Char → Option Nat
  | acc, [] => some acc
  | acc, c :: cs =>
    match digit? base c with
    | some d => valueFrom? base (acc * base + d) cs
    | none => none

/-- The value of one or more digits. -/
def value? (base : Nat) : List Char → Option Nat
  | [] => none
  | cs => valueFrom? base 0 cs

/-- An unsigned number below `bound`: digits, after one plus sign at most. -/
def unsigned? (base bound : Nat) (cs : List Char) : Option Nat :=
  let digits := match cs with
    | '+' :: rest => rest
    | _ => cs
  (value? base digits).filter (· < bound)

/-- A signed decimal number of `bits` bits: digits, after one sign at most. -/
def signed? (bits : Nat) : List Char → Option Int
  | '-' :: digits => ((value? 10 digits).filter (· ≤ Nat.pow 2 (bits - 1))).map fun n => -(n : Int)
  | '+' :: digits => ((value? 10 digits).filter (· < Nat.pow 2 (bits - 1))).map fun n => (n : Int)
  | digits => ((value? 10 digits).filter (· < Nat.pow 2 (bits - 1))).map fun n => (n : Int)

/-- The decimal numeral of a natural number. -/
def decimal (n : Nat) : String := String.ofList (render 10 n)

/-- The decimal numeral of an integer, with a minus sign when it is negative. -/
def decimalInt : Int → String
  | .ofNat n => decimal n
  | .negSucc n => String.ofList ('-' :: render 10 (n + 1))

end Numeral
end OracleRelay
