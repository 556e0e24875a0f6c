import Bytelink.Host.Duration
import Bytelink.Text.Search

/-!
# Durations written in seconds

A duration on the command line is a decimal numeral: digits with or without a point, and an exponent
of ten if wanted. It is read as the nearest binary fraction of 53 significant bits and then as the
nearest whole number of nanoseconds; both roundings send a tie to the even neighbour. A duration
that is not positive or not below 2 ^ 64 seconds is refused.
-/
namespace Bytelink

/-- The integer nearest to a fraction; of two that are equally near, the even one. -/
def nearestEven (numerator denominator : Nat) : Nat :=
  let quotient := numerator / denominator
  let twice := 2 * (numerator % denominator)
  if denominator < twice ∨ (twice = denominator ∧ quotient % 2 = 1) then quotient + 1
  else quotient

/-- A decimal numeral: `significand * 10 ^ exponent`. -/
structure Decimal where
  significand : Nat
  exponent : Int
  deriving DecidableEq, Repr

namespace Decimal

/-- A run of digits with a sign in front or not. -/
def integer? (t : Text) : Option Int :=
  match t with
  | '-' :: digits => (Text.natural? digits).map fun n => -(n : Int)
  | '+' :: digits => (Text.natural? digits).map Int.ofNat
  | digits => (Text.natural? digits).map Int.ofNat

/-- Digits with at most one point among them. -/
def mantissa? (t : Text) : Option Decimal :=
  let (whole, fraction) := match Text.cut ['.'] t with
    | some parts => parts
    | none => (t, [])
  (Text.natural? (whole ++ fraction)).map fun n => ⟨n, -(fraction.length : Int)⟩

def unsigned? (t : Text) : Option Decimal :=
  let isMark (c : Char) : Bool := c == 'e' || c == 'E'
  match t.dropWhile (!isMark ·) with
  | [] => mantissa? t
  | _ :: power => do
      let mantissa ← mantissa? (t.takeWhile (!isMark ·))
      let shift ← integer? power
      pure ⟨mantissa.significand, mantissa.exponent + shift⟩

/-- A numeral that is not negative. A minus sign is accepted in front of zero only. -/
def parse? (t : Text) : Option Decimal :=
  match t with
  | '+' :: rest => unsigned? rest
  | '-' :: rest => (unsigned? rest).filter (·.significand = 0)
  | _ => unsigned? t

/-- The number as a fraction of two natural numbers. -/
def fraction (d : Decimal) : Nat × Nat :=
  if 0 ≤ d.exponent then (d.significand * Nat.pow 10 d.exponent.toNat, 1)
  else (d.significand, Nat.pow 10 (-d.exponent).toNat)

/-- The place of the first digit: the number lies below ten to this power, and at least at a tenth
of that. -/
def magnitude (d : Decimal) : Int := (Text.decimal d.significand).length + d.exponent

end Decimal

/-- The fraction of 53 significant bits that is nearest to a positive fraction, again as a fraction:
the number is scaled by a power of two to lie from 2 ^ 52 to 2 ^ 53, rounded there and scaled back.
-/
def nearestBinary (numerator denominator : Nat) : Nat × Nat :=
  let guess := (Nat.log2 numerator : Int) - Nat.log2 denominator - 52
  let scaled (power : Int) : Nat × Nat :=
    if 0 ≤ power then (numerator, denominator * Nat.pow 2 power.toNat)
    else (numerator * Nat.pow 2 (-power).toNat, denominator)
  let fits := (scaled guess).2 * Nat.pow 2 52 ≤ (scaled guess).1
  let power := if fits then guess else guess - 1
  let bits := nearestEven (scaled power).1 (scaled power).2
  if 0 ≤ power then (bits * Nat.pow 2 power.toNat, 1)
  else (bits, Nat.pow 2 (-power).toNat)

namespace Duration

/-- The duration of so many seconds, unless it is zero or too long. Numbers far outside the range
are refused by their magnitude alone. -/
def ofDecimal? (d : Decimal) : Option Duration :=
  if d.significand = 0 ∨ d.magnitude < -9 ∨ 21 < d.magnitude then none
  else
    let (numerator, denominator) := nearestBinary d.fraction.1 d.fraction.2
    let nanos := nearestEven (numerator * perSecond) denominator
    if nanos = 0 ∨ denominator * UInt64.size ≤ numerator then none else some ⟨nanos⟩

def ofSeconds? (t : Text) : Option Duration := (Decimal.parse? t).bind ofDecimal?

end Duration
end Bytelink
