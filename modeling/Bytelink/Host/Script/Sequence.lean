import Bytelink.Host.Script.Printing
import Bytelink.Host.Script.Stream

/-!
# Sequences of numbers

The program that prints numbers from one to another, a step apart. They are reckoned with exactly.
How many digits are shown, and how wide the numbers are, follows from how the operands are written.
-/
namespace Bytelink.Script.Sequence

open Routine

/-- A decimal number: a whole number and how many of its digits are behind the point. -/
structure Decimal where
  digits : Int
  places : Nat
  deriving DecidableEq, Repr

namespace Decimal

def atPlaces (d : Decimal) (places : Nat) : Int := d.digits * Nat.pow 10 (places - d.places)

/-- A whole number times a power of ten. -/
def ofPower (n : Int) (power : Int) : Decimal :=
  if power < 0 then ⟨n, power.natAbs⟩ else ⟨n * Nat.pow 10 power.toNat, 0⟩

/-- A whole number times a power of two. -/
def ofPowerOfTwo (n : Int) (power : Int) : Decimal :=
  if power < 0 then ⟨n * Nat.pow 5 power.natAbs, power.natAbs⟩
  else ⟨n * Nat.pow 2 power.toNat, 0⟩

end Decimal

inductive Value
  | number (d : Decimal)
  | endless (isNegative : Bool)
  | notANumber
  deriving DecidableEq, Repr

/-- The value of an operand, if it is written well. -/
def Value.ofText? (t : Text) : Option Value :=
  let t := t.dropWhile fun c => c == ' ' || ('\t' ≤ c && c ≤ '\x0d')
  let (isNegative, t) := match t with
    | '-' :: t => (true, t)
    | '+' :: t => (false, t)
    | t => (false, t)
  let signed (n : Nat) : Int := if isNegative then -n else n
  let isHexadecimal := (t.take 2).map Char.toLower = ['0', 'x']
  let limit (e : Int) : Bool := e.natAbs ≤ 5000
  match String.ofList (t.map Char.toLower) with
  | "inf" => some (.endless isNegative)
  | "infinity" => some (.endless isNegative)
  | "nan" => some .notANumber
  | _ =>
      if isHexadecimal then
        let isDigit (c : Char) : Bool := c.isDigit || ('a' ≤ c.toLower && c.toLower ≤ 'f')
        match Binary.pointed? isDigit (t.drop 2) with
        | none => none
        | some (whole, fraction, rest) =>
            let (e, rest) := Binary.exponentAt (fun c => c == 'p' || c == 'P') rest
            if !rest.isEmpty || !limit e then none
            else some (.number (.ofPowerOfTwo (signed (Binary.hexadecimalValue (whole ++ fraction)))
              (e - 4 * (fraction.length : Int))))
      else
        match Binary.pointed? Text.isDigit t with
        | none => none
        | some (whole, fraction, rest) =>
            let (e, rest) := Binary.exponentAt (fun c => c == 'e' || c == 'E') rest
            if !rest.isEmpty || !limit e then none
            else some (.number (.ofPower (signed (Text.valueIn 10 (whole ++ fraction)))
              (e - (fraction.length : Int))))

/-- An operand: its value, how wide it is, and how many digits it has behind the point, unless that
does not show. -/
structure Operand where
  text : Text
  value : Value
  width : Int
  places? : Option Nat

def isExponentMark (c : Char) : Bool := c == 'e' || c == 'E'

def Operand.ofText (text : Text) (value : Value) : Operand :=
  let t := text.dropWhile fun c => c == ' ' || c == '+' || ('\t' ≤ c && c ≤ '\x0d')
  let hasPoint := t.contains '.'
  let isFinite := value matches .number _
  if !isFinite || t.any fun c => c == 'x' || c == 'X' then
    ⟨text, value, 0, if hasPoint || t.contains 'p' then none else some 0⟩
  else
    let front := t.takeWhile (· != '.')
    let fraction := ((t.drop (front.length + 1)).takeWhile (!isExponentMark ·)).length
    let width : Int := t.length
    let width := if !hasPoint then width
      else if fraction = 0 then width - 1
      else if front.getLast?.any Char.isDigit then width
      else width + 1
    let places := if hasPoint then fraction else 0
    let exponent := t.dropWhile (!isExponentMark ·)
    if exponent.isEmpty then ⟨text, value, width, some places⟩
    else
      let e := (Binary.exponentAt isExponentMark exponent).1
      let width := width - exponent.length
      if e < 0 then
        let width := if !hasPoint || fraction = 0 then width + 1 else width
        ⟨text, value, width + e.natAbs, some (places + e.natAbs)⟩
      else
        let left := places - e.toNat
        let width := if hasPoint && left = 0 && fraction ≠ 0 then width - 1 else width
        ⟨text, value, width + (e.toNat - fraction : Nat), some left⟩

/-- The text of a whole number whose last digits are behind the point. -/
def pointText (places : Nat) (n : Int) : Text :=
  let digits := Text.decimalWide (places + 1) n.natAbs
  let whole := digits.take (digits.length - places)
  (if n < 0 then ['-'] else []) ++ whole ++
    (if places = 0 then [] else '.' :: digits.drop whole.length)

structure Format where
  front : Text
  conversion : Conversion
  back : Text

/-- A text up to a conversion, in which two percent signs stand for one, and what follows the sign
of the conversion. -/
def upToConversion : Text → Text × Option Text
  | [] => ([], none)
  | '%' :: '%' :: rest =>
      let (t, behind?) := upToConversion rest
      ('%' :: t, behind?)
  | '%' :: rest => ([], some rest)
  | c :: rest =>
      let (t, behind?) := upToConversion rest
      (c :: t, behind?)

def Format.read (t : Text) : Except Complaint Format :=
  let problem (t' : Text) : Complaint := [.plain "format ", .word t, .plain t']
  match upToConversion t with
  | (_, none) => .error (problem " has no % directive")
  | (front, some rest) =>
      let flags := rest.takeWhile (['-', '+', '#', '0', ' ', '\''] : Text).contains
      let rest := rest.drop flags.length
      let width := rest.takeWhile Char.isDigit
      let rest := rest.drop width.length
      let (precision?, rest) := match rest with
        | '.' :: behind =>
            let digits := behind.takeWhile Char.isDigit
            (some (Text.valueIn 10 digits), behind.drop digits.length)
        | rest => (none, rest)
      let rest := if rest.head? = some 'L' then rest.drop 1 else rest
      match rest with
      | [] => .error (problem " ends in %")
      | kind :: behind =>
          if !(['e', 'f', 'g', 'a', 'E', 'F', 'G', 'A'] : Text).contains kind then
            .error (problem (" has unknown %" ++ kind :: " directive"))
          else match upToConversion behind with
            | (back, none) => .ok ⟨front, ⟨flags, Text.valueIn 10 width, precision?, kind⟩, back⟩
            | (_, some _) => .error (problem " has too many % directives")

def Format.show (f : Format) (d : Decimal) : Text :=
  let x := (Binary.ofFraction (decide (d.digits < 0)) d.digits.natAbs (Nat.pow 10 d.places)).1
  f.front ++ f.conversion.real x ++ f.back

/-- Numbers from one to another, a step apart, newest first; fuel bounds their count. -/
def progression (step : Int) (last? : Option Int) : Nat → Int → List Int → List Int
  | 0, _, done => done
  | fuel + 1, n, done =>
      if last?.any fun last => (0 ≤ step && last < n) || (step < 0 && n < last) then done
      else progression step last? fuel (n + step) (n :: done)

/-- How many numbers are printed at a time. -/
def batch : Nat := 10000

def known : Known :=
  .ofText "wf:s:" [("equal-width", 'w'), ("format", 'f'), ("separator", 's')]

/-- How many of the arguments are options: they end in front of what looks like a number. -/
def optionCount : List Text → Nat
  | [] => 0
  | t :: rest =>
      match t with
      | ['-'] => 0
      | ['-', '-'] => 1
      | '-' :: '-' :: word =>
          let takesNext := !word.contains '=' && (word.isPrefixOf "format".toList ||
            word.isPrefixOf "separator".toList)
          if takesNext then (match rest with
            | [] => 1
            | _ :: rest => 2 + optionCount rest)
          else 1 + optionCount rest
      | '-' :: c :: letters =>
          if c.isDigit || c = '.' then 0
          else
            let value := (c :: letters).dropWhile fun c => c != 'f' && c != 's'
            if value.length = 1 then (match rest with
              | [] => 1
              | _ :: rest => 2 + optionCount rest)
            else 1 + optionCount rest
      | _ => 0

/-- What is printed: from a number on, a step apart, up to another if there is an end. -/
structure Plan where
  first : Decimal
  step : Decimal
  last? : Option Decimal
  separator : Text
  show_ : Decimal → Text

def Plan.print (p : Plan) : Routine Nat := do
  let places := max (max p.first.places p.step.places) ((p.last?.map (·.places)).getD 0)
  let step := p.step.atPlaces places
  let last? := p.last?.map (·.atPlaces places)
  goRound (fun (n, isFirst) => do
    let numbers := (progression step last? batch n []).reverse
    if numbers.isEmpty then
      if !isFirst then say ['\n']
      pure (.inr 0)
    else
      let texts := numbers.map fun n => p.show_ ⟨n, places⟩
      say ((if isFirst then [] else p.separator) ++ Text.join p.separator texts)
      pure (.inl (n + step * numbers.length, false))) 0 rounds (p.first.atPlaces places, true)

/-- A number with so many digits behind the point, filled up with zeros to a width. -/
def shown (width places : Nat) (d : Decimal) : Text :=
  let n := if d.places ≤ places then d.atPlaces places
    else Int.tdiv d.digits (Nat.pow 10 (d.places - places))
  let t := pointText places n
  let (sign, digits) := match t with
    | '-' :: digits => (['-'], digits)
    | digits => (([] : Text), digits)
  sign ++ List.replicate (width - t.length) '0' ++ digits

/-- How numbers are shown between two operands, a step apart. -/
def usualShow (isWide : Bool) (first step last : Operand) : Decimal → Text :=
  match first.places?, step.places?, last.places? with
  | some a, some b, some c =>
      let places := max a b
      let point (has : Bool) : Int := if has then 1 else 0
      let firstWidth := first.width + places - a + point (a = 0 && places ≠ 0)
      let lastWidth := last.width + places - c - point (c ≠ 0 && places = 0) +
        point (c = 0 && places ≠ 0)
      shown (if isWide then (max firstWidth lastWidth).toNat else 0) places
  | _, _, _ => (Format.mk [] ⟨[], 0, none, 'g'⟩ []).show

def seq : Command := fun arguments => do
  let count := optionCount arguments
  let refuse (problem : Complaint) : Routine Nat := do
    reportPhrases problem
    refuseUsage 1
  match known.read true (arguments.take count) with
  | .error fault =>
      report fault.message
      refuseUsage 1
  | .ok (given, _) =>
      let operands := arguments.drop count
      match operands, operands.drop 3 with
      | [], _ => refuseMissing
      | _, extra :: _ => refuse [.plain "extra operand ", .word extra]
      | operands, [] =>
          let format? := argument? given 'f'
          match format?.mapM Format.read with
          | .error problem =>
              reportPhrases problem
              pure 1
          | .ok format? =>
              if format?.isSome && isGiven given 'w' then
                refuse [.plain ("format string may not be specified when printing equal width " ++
                  "strings")]
              else match read operands with
                | .error problem => refuse problem
                | .ok found => go given format? found
where
  /-- The operands in the order in which they are looked at. -/
  read (operands : List Text) : Except Complaint (List Operand) :=
    operands.mapM fun t => match Value.ofText? t with
      | none => .error [.plain "invalid floating point argument: ", .word t]
      | some .notANumber =>
          .error [.plain "invalid ", .word "not-a-number", .plain " argument: ", .word t]
      | some value => .ok (.ofText t value)
  go (given : List Given) (format? : Option Format) (operands : List Operand) : Routine Nat := do
    let one : Operand := .ofText ['1'] (.number ⟨1, 0⟩)
    let (first, step, last) := match operands with
      | [last] => (one, one, last)
      | [first, last] => (first, one, last)
      | first :: step :: last :: _ => (first, step, last)
      | [] => (one, one, one)
    match first.value, step.value, last.value with
    | .number from_, .number by_, last' =>
        if by_.digits = 0 then
          reportPhrases [.plain "invalid Zero increment value: ", .word step.text]
          refuseUsage 1
        else
          let isReached := match last' with
            | .endless isNegative => isNegative != decide (by_.digits < 0)
            | _ => false
          if isReached then pure 0
          else
            let show_ := match format? with
              | some f => f.show
              | none => usualShow (isGiven given 'w') first step last
            let last? := match last' with
              | .number d => some d
              | _ => none
            Plan.print ⟨from_, by_, last?, (argument? given 's').getD ['\n'], show_⟩
    | _, _, _ => pure 0

end Bytelink.Script.Sequence
