import Bytelink.Text.Numeral

/-!
# Numbers in binary floating point as decimal texts

A finite number in binary floating point is a whole number times a power of two, so that its decimal
digits can be computed exactly and rounded once; of two equally near results the even one is taken.
-/
namespace Bytelink

/-- A number in binary floating point. -/
inductive Binary
  | finite (isNegative : Bool) (mantissa : Nat) (exponent : Int)
  | infinite (isNegative : Bool)
  | notANumber (isNegative : Bool)
  deriving DecidableEq, Repr

namespace Binary

open Text (decimal decimalWide digitValue isDigit valueIn)

/-- `n / d`, rounded to the nearest whole number, to the even one from the middle. -/
def roundedQuotient (n d : Nat) : Nat :=
  let q := n / d
  let twice := 2 * (n % d)
  if twice < d then q
  else if d < twice then q + 1
  else if q % 2 = 0 then q else q + 1

def power (base : Nat) (e : Int) : Nat := Nat.pow base e.toNat

/-- The exponent of the smallest number, and how many binary digits a number has. -/
def leastExponent : Int := -1074

def precision : Nat := 53

/-- A fraction rounded to a number with the binary digits and the exponents that there are, and
whether it is too great for that, or too small for its own digits. -/
def ofFraction (isNegative : Bool) (n d : Nat) : Binary × Bool :=
  let at_ (e : Int) : Nat × Nat := (n * power 2 (-e), d * power 2 e)
  let guess := max leastExponent ((Nat.log2 n : Int) - Nat.log2 d - precision)
  let (top, bottom) := at_ guess
  let e := if Nat.pow 2 precision ≤ top / bottom then guess + 1 else guess
  let (top, bottom) := at_ e
  let m := roundedQuotient top bottom
  if 1024 < (Nat.log2 m : Int) + 1 + e then (.infinite isNegative, true)
  else (.finite isNegative m e, m < Nat.pow 2 (precision - 1) && m * bottom != top)

/-- A whole number. -/
def ofNat (n : Nat) : Binary := (ofFraction false n 1).1

/-- A positive number times a power of ten, as a fraction. -/
def scaled (mantissa : Nat) (exponent power : Int) : Nat × Nat :=
  (mantissa * Binary.power 2 exponent * Binary.power 10 power,
    Binary.power 2 (-exponent) * Binary.power 10 (-power))

def fixedDigits (mantissa : Nat) (exponent : Int) (places : Nat) (keepsPoint : Bool) : Text :=
  let (n, d) := scaled mantissa exponent places
  let digits := decimalWide (places + 1) (roundedQuotient n d)
  let whole := digits.take (digits.length - places)
  if places = 0 && !keepsPoint then whole else whole ++ '.' :: digits.drop whole.length

/-- The power of ten of the first digit, sought downward from a power that is too great. -/
def leadingPower (mantissa : Nat) (exponent : Int) : Nat → Int → Int
  | 0, power => power
  | fuel + 1, power =>
      let (n, d) := scaled mantissa exponent (-power)
      if d ≤ n then power else leadingPower mantissa exponent fuel (power - 1)

/-- A number as digits of which the first stands before the point, and a power of ten. -/
def scientific (mantissa : Nat) (exponent : Int) (places : Nat) : Text × Int :=
  if mantissa = 0 then (List.replicate (places + 1) '0', 0)
  else
    let power := leadingPower mantissa exponent 700 309
    let (n, d) := scaled mantissa exponent ((places : Int) - power)
    let digits := decimal (roundedQuotient n d)
    if places + 1 < digits.length then (digits.take (places + 1), power + 1) else (digits, power)

def exponentText (power : Int) : Text :=
  (if power < 0 then ['e', '-'] else ['e', '+']) ++ decimalWide 2 power.natAbs

def scientificText (digits : Text) (power : Int) (keepsPoint : Bool) : Text :=
  let fraction := digits.drop 1
  digits.take 1 ++ (if fraction.isEmpty && !keepsPoint then [] else '.' :: fraction) ++
    exponentText power

def withoutZeros (t : Text) : Text :=
  if t.contains '.' then
    ((t.reverse.dropWhile (· == '0')).dropWhile (· == '.')).reverse
  else t

/-- The text of a number without its sign, in the form that `kind` says: `f`, `e` or `g`. -/
def magnitudeText (kind : Char) (places : Nat) (keepsPoint : Bool) : Binary → Text
  | .infinite _ => "inf"
  | .notANumber _ => "nan"
  | .finite _ mantissa exponent =>
      if kind = 'f' then fixedDigits mantissa exponent places keepsPoint
      else if kind = 'e' then
        let (digits, power) := scientific mantissa exponent places
        scientificText digits power keepsPoint
      else
        let count := max 1 places
        let (digits, power) := scientific mantissa exponent (count - 1)
        if -4 ≤ power && power < count then
          let t := fixedDigits mantissa exponent ((count : Int) - 1 - power).toNat keepsPoint
          if keepsPoint then t else withoutZeros t
        else
          let digits := if keepsPoint then digits
            else digits.take 1 ++ ((digits.drop 1).reverse.dropWhile (· == '0')).reverse
          scientificText digits power keepsPoint

def isNegative : Binary → Bool
  | .finite isNegative _ _ => isNegative
  | .infinite isNegative => isNegative
  | .notANumber isNegative => isNegative

def hexadecimalValue (digits : Text) : Nat :=
  digits.foldl (fun n c => 16 * n + (if isDigit c then digitValue c
    else (c.toLower.toNat - 'a'.toNat) + 10)) 0

/-- An exponent behind a letter, and what follows it; where no digits are it is zero. -/
def exponentAt (isMark : Char → Bool) (t : Text) : Int × Text :=
  match t with
  | [] => (0, t)
  | c :: behind =>
      let (isDown, digitsFrom) := match behind with
        | '-' :: r => (true, r)
        | '+' :: r => (false, r)
        | r => (false, r)
      let digits := digitsFrom.takeWhile isDigit
      if !isMark c || digits.isEmpty then (0, t)
      else
        let n : Int := valueIn 10 digits
        (if isDown then -n else n, digitsFrom.drop digits.length)

/-- The digits of a number in base sixteen behind the mark `0x`: all of them, or as many places as
are asked for. The first digit is not zero unless the number is too small. -/
def hexadecimalText (places? : Option Nat) (keepsPoint : Bool) (mantissa : Nat) (exponent : Int) :
    Text :=
  let shift := min (precision - 1 - Nat.log2 mantissa) (exponent - leastExponent).toNat
  let m := if mantissa = 0 then 0 else mantissa * Nat.pow 2 shift
  let e : Int := if mantissa = 0 then 0 else exponent - shift + (precision - 1 : Nat)
  let all := (precision - 1) / 4
  let digitsOf (places n : Nat) : Text :=
    let digits := Nat.toDigits 16 (n % Nat.pow 16 places)
    if places = 0 then [] else List.replicate (places - digits.length) '0' ++ digits
  let (whole, fraction) := match places? with
    | none => (m / Nat.pow 16 all,
        ((digitsOf all m).reverse.dropWhile (· == '0')).reverse)
    | some places =>
        let kept := min places all
        let n := roundedQuotient m (Nat.pow 16 (all - kept))
        (n / Nat.pow 16 kept, digitsOf kept n ++ List.replicate (places - kept) '0')
  decimal whole ++ (if fraction.isEmpty && !keepsPoint then [] else '.' :: fraction) ++
    'p' :: (if e < 0 then '-' else '+') :: decimal e.natAbs

/-- A number at the front of a text. -/
structure Leading where
  value : Binary
  /-- Whether it cannot be told from infinity, or not with all of its digits. -/
  isOutOfRange : Bool
  rest : Text
  deriving DecidableEq, Repr

/-- Digits of a class with a point among them: those in front of it, those behind it, and what
follows; none if there is no digit. -/
def pointed? (isIn : Char → Bool) (t : Text) : Option (Text × Text × Text) :=
  let whole := t.takeWhile isIn
  let (fraction, rest) := match t.drop whole.length with
    | '.' :: behind =>
        let digits := behind.takeWhile isIn
        (digits, behind.drop digits.length)
    | rest => ([], rest)
  if whole.isEmpty && fraction.isEmpty then none else some (whole, fraction, rest)

def ofDigits (isNegative : Bool) (value : Nat) (base : Nat) (e : Int) (rest : Text) : Leading :=
  let (x, isOutOfRange) :=
    ofFraction isNegative (value * Binary.power base e) (Binary.power base (-e))
  ⟨x, isOutOfRange, rest⟩

/-- The hexadecimal number behind its mark `0x`. -/
def leadingHexadecimal? (isNegative : Bool) (t : Text) : Option Leading :=
  (pointed? (fun c => isDigit c || ('a' ≤ c.toLower && c.toLower ≤ 'f')) t).map
    fun (whole, fraction, rest) =>
      let (e, rest) := exponentAt (fun c => c == 'p' || c == 'P') rest
      ofDigits isNegative (hexadecimalValue (whole ++ fraction)) 2
        (max (-20000) (min 20000 e) - 4 * (fraction.length : Int)) rest

/-- What is no number behind its name, which may be followed by something in parentheses. -/
def behindName (t : Text) : Text :=
  match t with
  | '(' :: behind =>
      let inside := behind.takeWhile fun c => c.isAlphanum || c == '_'
      match behind.drop inside.length with
      | ')' :: rest => rest
      | _ => t
  | _ => t

/-- The number at the front of a text. -/
def leading? (t : Text) : Option Leading :=
  let t := t.dropWhile fun c => c == ' ' || ('\t' ≤ c && c ≤ '\x0d')
  let (isNegative, t) := match t with
    | '-' :: t => (true, t)
    | '+' :: t => (false, t)
    | t => (false, t)
  let hexadecimal? := match t with
    | '0' :: x :: behind =>
        if x = 'x' || x = 'X' then leadingHexadecimal? isNegative behind else none
    | _ => none
  let lower := t.map Char.toLower
  match hexadecimal?, pointed? isDigit t with
  | some result, _ => some result
  | none, some (whole, fraction, rest) =>
      let (e, rest) := exponentAt (fun c => c == 'e' || c == 'E') rest
      some (ofDigits isNegative (valueIn 10 (whole ++ fraction)) 10
        (max (-2000) (min 2000 e) - (fraction.length : Int)) rest)
  | none, none =>
      if ("infinity" : String).toList.isPrefixOf lower then
        some ⟨.infinite isNegative, false, t.drop 8⟩
      else if ("inf" : String).toList.isPrefixOf lower then
        some ⟨.infinite isNegative, false, t.drop 3⟩
      else if ("nan" : String).toList.isPrefixOf lower then
        some ⟨.notANumber isNegative, false, behindName (t.drop 3)⟩
      else none

/-- Compares two numbers; one that is none comes in front of all others. -/
def compare (a b : Binary) : Ordering :=
  match a, b with
  | .notANumber _, .notANumber _ => .eq
  | .notANumber _, _ => .lt
  | _, .notANumber _ => .gt
  | .infinite x, .infinite y => if x == y then .eq else if x then .lt else .gt
  | .infinite x, _ => if x then .lt else .gt
  | _, .infinite y => if y then .gt else .lt
  | .finite x m e, .finite y n f =>
      let least := min e f
      let value (isNegative : Bool) (m : Nat) (e : Int) : Int :=
        let n : Int := m * Binary.power 2 (e - least)
        if isNegative then -n else n
      Ord.compare (value x m e) (value y n f)

end Binary
end Bytelink
