import Bytelink.Host.Script.Quoting
import Bytelink.Text.Numeral

/-!
# Numbers with units

An argument that states a number may have a unit behind it, such as `k` for 1024; alone the unit
stands for one of it. Each program knows units of its own. A zero among them means that larger units
may be powers of ten besides, as in `kB`, or say that they are not, as in `KiB`.
-/
namespace Bytelink.Script

/-- What an argument states. -/
inductive Amount
  | exactly (n : Nat)
  | malformed
  /-- More than a machine word holds. -/
  | tooLarge
  deriving DecidableEq, Repr

namespace Amount

/-- The largest number of a machine word. -/
def wordLimit : Nat := 18446744073709551615

/-- Which power of 1024 or 1000 a letter stands for. -/
def power? (c : Char) : Option Nat :=
  match c with
  | 'k' | 'K' => some 1
  | 'm' | 'M' => some 2
  | 'g' | 'G' => some 3
  | 't' | 'T' => some 4
  | 'P' => some 5
  | 'E' => some 6
  | 'Z' => some 7
  | 'Y' => some 8
  | 'R' => some 9
  | 'Q' => some 10
  | _ => none

/-- The factor that the letters behind a number stand for. -/
def factor? (units : Text) : Text → Option Nat
  | [] => some 1
  | c :: rest =>
      if !units.contains c then none
      else match power? c, rest with
        | some power, [] => some (Nat.pow 1024 power)
        | some power, ['i', 'B'] => if units.contains '0' then some (Nat.pow 1024 power) else none
        | some power, ['B'] => if units.contains '0' then some (Nat.pow 1000 power) else none
        | some power, ['D'] => if units.contains '0' then some (Nat.pow 1000 power) else none
        | none, [] => match c with
          | 'b' => some 512
          | 'B' => some 1024
          | 'c' => some 1
          | 'w' => some 2
          | _ => none
        | _, _ => none

def read (units : Text) (t : Text) : Amount :=
  let t := t.dropWhile fun c => c == ' ' || ('\t' ≤ c && c ≤ '\x0d')
  let t := if t.head? = some '+' then t.drop 1 else t
  let digits := t.takeWhile Text.isDigit
  let rest := t.drop digits.length
  match factor? units rest with
  | none => .malformed
  | some factor =>
      if digits.isEmpty && (rest.isEmpty || t.length != rest.length) then .malformed
      else
        let n := (if digits.isEmpty then 1 else Text.valueIn 10 digits) * factor
        if wordLimit < n then .tooLarge else .exactly n

def complaint (what : Text) (t : Text) (fault? : Option Nat) : Complaint :=
  [.plain (what ++ ": "), .word t] ++ match fault? with
    | some number => [.plain (": " ++ SystemError.describe number)]
    | none => []

/-- The number of the error that a value is too large, and of the one that it is out of range. -/
def overflow : Nat := 75

def outOfRange : Nat := 34

/-- The number that an argument states, which must lie within bounds. -/
def within (what : Text) (units : Text) (low high : Nat) (t : Text) : Except Complaint Nat :=
  match read units t with
  | .malformed => .error (complaint what t none)
  | .tooLarge => .error (complaint what t (some overflow))
  | .exactly n =>
      if low ≤ n ∧ n ≤ high then .ok n
      else .error (complaint what t (some (if 1073741823 < n then overflow else outOfRange)))

/-- The whole number that an argument states. -/
def whole (what : Text) (t : Text) : Except Complaint Int :=
  let t' := t.dropWhile fun c => c == ' ' || ('\t' ≤ c && c ≤ '\x0d')
  let isNegative := t'.head? = some '-'
  let digits := if isNegative || t'.head? = some '+' then t'.drop 1 else t'
  match Text.natural? digits with
  | none => .error (complaint what t none)
  | some n =>
      if wordLimit / 2 < n then .error (complaint what t (some overflow))
      else .ok (if isNegative then -(n : Int) else n)

end Amount
end Bytelink.Script
