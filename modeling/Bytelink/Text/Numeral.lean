import Bytelink.Text.Basic

/-!
# Numerals

Digits of a positional system, their value, and the two readers built on them: a run of digits in a
given base, and an unsigned decimal with an upper bound. All digits are ASCII.
-/
namespace Bytelink.Text

/-- The decimal numeral of a number, without leading zeros. -/
def decimal (n : Nat) : Text := Nat.toDigits 10 n

/-- The decimal numeral of an integer, with a minus sign in front of a negative one. -/
def decimalInt : Int → Text
  | .ofNat n => decimal n
  | .negSucc n => '-' :: decimal (n + 1)

/-- The numeral of `n` in base sixteen with lower-case letters. -/
def hexadecimal (n : Nat) : Text := Nat.toDigits 16 n

/-- `n` as a decimal numeral with zeros in front up to `width` digits. -/
def decimalWide (width n : Nat) : Text :=
  let digits := decimal n
  List.replicate (width - digits.length) '0' ++ digits

def isDigit (c : Char) : Bool := '0' ≤ c && c ≤ '9'

def isOctalDigit (c : Char) : Bool := '0' ≤ c && c ≤ '7'

def digitValue (c : Char) : Nat := c.toNat - '0'.toNat

def valueIn (base : Nat) (digits : Text) : Nat :=
  digits.foldl (fun value c => value * base + digitValue c) 0

/-- A non-empty run of decimal digits, read as a number. -/
def natural? (t : Text) : Option Nat :=
  if !t.isEmpty && t.all isDigit then some (valueIn 10 t) else none

/-- An unsigned decimal: an optional plus sign, then digits whose value is at most `bound`. -/
def unsigned? (bound : Nat) (t : Text) : Option Nat :=
  let digits := match t with
    | '+' :: rest => rest
    | _ => t
  (natural? digits).filter (· ≤ bound)

end Bytelink.Text
