import Bytelink.Text.Numeral

/-!
# Durations

A length of time is a number of nanoseconds. It is written in the largest unit of which it holds at
least one, exactly, without zeros at the end of the decimals.
-/
namespace Bytelink

structure Duration where
  nanos : Nat
  deriving DecidableEq, Repr

namespace Duration

def perSecond : Nat := 1000000000

def ofParts (seconds nanos : Nat) : Duration := ⟨seconds * perSecond + nanos⟩

def ofMillis (millis : Nat) : Duration := ⟨millis * 1000000⟩

def seconds (d : Duration) : Nat := d.nanos / perSecond

def subsecond (d : Duration) : Nat := d.nanos % perSecond

/-- The decimals of a fraction of a unit of `10 ^ places`, without zeros at the end. -/
def decimals (places part : Nat) : Text :=
  ((Text.decimalWide places part).reverse.dropWhile (· == '0')).reverse

/-- So many units of `10 ^ places` nanoseconds, with decimals and the unit's sign. -/
def inUnit (places : Nat) (unit : Text) (d : Duration) : Text :=
  let whole := Text.decimal (d.nanos / Nat.pow 10 places)
  let fraction := decimals places (d.nanos % Nat.pow 10 places)
  whole ++ (if fraction.isEmpty then [] else '.' :: fraction) ++ unit

def text (d : Duration) : Text :=
  if d.nanos ≥ Nat.pow 10 9 then d.inUnit 9 "s"
  else if d.nanos ≥ Nat.pow 10 6 then d.inUnit 6 "ms"
  else if d.nanos ≥ Nat.pow 10 3 then d.inUnit 3 "µs"
  else d.inUnit 0 "ns"

end Duration
end Bytelink
