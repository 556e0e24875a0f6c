import Bytelink.Host.Script.Arithmetic
import Bytelink.Host.Script.Options
import Bytelink.Text.Rounded

/-!
# Printing commands

`echo` and `printf`. A backslash begins an escape: a letter for a control character, or up to three
octal digits for a byte. A format is used again and again until all arguments are printed.
-/
namespace Bytelink.Script

def controlEscape? : Char → Option Char
  | 'a' => some '\x07'
  | 'b' => some '\x08'
  | 'e' => some '\x1b'
  | 'f' => some '\x0c'
  | 'n' => some '\n'
  | 'r' => some '\x0d'
  | 't' => some '\t'
  | 'v' => some '\x0b'
  | '\\' => some '\\'
  | _ => none

/-- The byte of a number that may be too great for one. -/
def byteChar (n : Nat) : Char := Char.ofNat (n % 256)

/-- The character of an escape and what follows it, given what stands after the backslash. When
`leading` is set, a zero in front of octal digits does not count as one of the three. What is no
escape stands for the backslash. -/
def escaped (leading : Bool) (t : Text) : Char × Text :=
  match t with
  | [] => ('\\', [])
  | c :: rest =>
      if Text.isOctalDigit c then
        let source := if leading && c == '0' && rest.head?.any Text.isOctalDigit then rest else t
        let digits := (source.take 3).takeWhile Text.isOctalDigit
        (byteChar (Text.valueIn 8 digits), source.drop digits.length)
      else match controlEscape? c with
        | some control => (control, rest)
        | none => ('\\', t)

/-- A text with its escapes replaced, newest character first, and whether an escape has ended all
output. -/
def unescape : Nat → Text → Text → Text × Bool
  | 0, done, _ => (done, false)
  | _ + 1, done, [] => (done, false)
  | _ + 1, done, '\\' :: 'c' :: _ => (done, true)
  | fuel + 1, done, '\\' :: rest =>
      let (c, rest) := escaped true rest
      unescape fuel (c :: done) rest
  | fuel + 1, done, c :: rest => unescape fuel (c :: done) rest

def unescaped (t : Text) : Text × Bool :=
  let (done, stops) := unescape (t.length + 1) [] t
  (done.reverse, stops)

def echo : Command := fun arguments => do
  let (endsLine, words) := match arguments with
    | ['-', 'n'] :: rest => (false, rest)
    | words => (true, words)
  let (t, stops) := unescaped (Text.join [' '] words)
  Routine.say (if endsLine && !stops then t ++ ['\n'] else t)
  pure 0

structure Conversion where
  flags : Text
  width : Nat
  precision? : Option Nat
  kind : Char
  deriving DecidableEq, Repr

/-- Fills converted characters up to the width, on the right if a flag says so, and with zeros
behind the sign if that is allowed and a flag says so. -/
def Conversion.pad (c : Conversion) (mayZero : Bool) (sign digits : Text) : Text :=
  let missing := c.width - (sign.length + digits.length)
  if c.flags.contains '-' then sign ++ digits ++ List.replicate missing ' '
  else if mayZero && c.flags.contains '0' then sign ++ List.replicate missing '0' ++ digits
  else List.replicate missing ' ' ++ sign ++ digits

def Conversion.sign (c : Conversion) (isNegative : Bool) : Text :=
  if isNegative then ['-']
  else if c.flags.contains '+' then ['+']
  else if c.flags.contains ' ' then [' ']
  else []

/-- A text, cropped and filled up. -/
def Conversion.textual (c : Conversion) (t : Text) : Text :=
  c.pad false [] (match c.precision? with
    | some count => t.take count
    | none => t)

/-- A whole number in the base of the conversion. -/
def Conversion.integral (c : Conversion) (n : Int) : Text :=
  let isSigned := c.kind == 'd' || c.kind == 'i'
  let magnitude := if isSigned then n.natAbs else (n % Nat.pow 2 64).toNat
  let isAlternate := c.flags.contains '#'
  let digits := match c.kind with
    | 'o' => Nat.toDigits 8 magnitude
    | 'x' => Nat.toDigits 16 magnitude
    | 'X' => (Nat.toDigits 16 magnitude).map Char.toUpper
    | _ => Text.decimal magnitude
  let digits := match c.precision? with
    | some least =>
        if least = 0 && magnitude == 0 then []
        else List.replicate (least - digits.length) '0' ++ digits
    | none => digits
  let digits := if isAlternate && c.kind == 'o' && digits.head? != some '0' then '0' :: digits
    else digits
  let sign : Text :=
    if isSigned then c.sign (decide (n < 0))
    else if isAlternate && magnitude != 0 && c.kind == 'x' then ['0', 'x']
    else if isAlternate && magnitude != 0 && c.kind == 'X' then ['0', 'X']
    else []
  c.pad c.precision?.isNone sign digits

/-- A number in floating point. -/
def Conversion.real (c : Conversion) (x : Binary) : Text :=
  let keepsPoint := c.flags.contains '#'
  let cased (t : Text) : Text := if c.kind.isUpper then t.map Char.toUpper else t
  let sign := c.sign x.isNegative
  match x with
  | .finite _ m e =>
      if c.kind.toLower = 'a' then
        c.pad true (sign ++ cased ['0', 'x'])
          (cased (Binary.hexadecimalText c.precision? keepsPoint m e))
      else
        c.pad true sign
          (cased (Binary.magnitudeText c.kind.toLower (c.precision?.getD 6) keepsPoint x))
  | x => c.pad false sign (cased (Binary.magnitudeText 'f' 0 false x))

/-- A format under way: the output so far in pieces, the newest first, the arguments that are left,
and what was wrong with those that have been used, the newest first. -/
structure Printing where
  output : List Text
  arguments : List Text
  faults : List Text
  isStopped : Bool

namespace Printing

def add (p : Printing) (t : Text) : Printing := { p with output := t :: p.output }

def next (p : Printing) : Option Text × Printing :=
  (p.arguments.head?, { p with arguments := p.arguments.drop 1 })

def complain (p : Printing) (t : Text) : Printing := { p with faults := t :: p.faults }

/-- Notes what is wrong with a numeral of which `rest` could not be read. -/
def check (p : Printing) (argument : Text) (rest? : Option Text) : Printing :=
  match rest? with
  | none =>
      if argument.isEmpty then p else p.complain (argument ++ ": expected numeric value")
  | some [] => p
  | some _ => p.complain (argument ++ ": not completely converted")

/-- The next argument as a whole number; a quote stands for the number of the character behind
it. -/
def nextInteger (p : Printing) (isSigned : Bool) : Int × Printing :=
  let (argument?, p) := p.next
  match argument?.getD [] with
  | '\'' :: rest => ((rest.headD '\x00').toNat, p)
  | '"' :: rest => ((rest.headD '\x00').toNat, p)
  | argument =>
      match Arithmetic.leadingNumber? false argument with
      | none => (0, p.check argument none)
      | some (n, rest) =>
          let least : Int := if isSigned then -(Arithmetic.greatest : Int) - 1
            else -(Nat.pow 2 64 : Int) + 1
          let most : Int := if isSigned then Arithmetic.greatest else (Nat.pow 2 64 : Int) - 1
          let p := if rest.isEmpty && !(least ≤ n && n ≤ most) then
              p.complain (argument ++ ": Numerical result out of range")
            else p.check argument (some rest)
          (if n < least then (if isSigned then least else most) else min n most, p)

/-- The next argument as a number in floating point. -/
def nextReal (p : Printing) : Binary × Printing :=
  let (argument?, p) := p.next
  match argument?.getD [] with
  | '\'' :: rest => (.ofNat (rest.headD '\x00').toNat, p)
  | '"' :: rest => (.ofNat (rest.headD '\x00').toNat, p)
  | argument =>
      match Binary.leading? argument with
      | none => (.ofNat 0, p.check argument none)
      | some ⟨x, isOutOfRange, rest⟩ =>
          (x, if rest.isEmpty && isOutOfRange then
              p.complain (argument ++ ": Numerical result out of range")
            else p.check argument (some rest))

/-- A width or precision: digits, or an argument where an asterisk stands. -/
def size (p : Printing) (t : Text) : Int × Text × Printing :=
  match t with
  | '*' :: rest =>
      let (n, p) := p.nextInteger true
      (n, rest, p)
  | t =>
      let digits := t.takeWhile Char.isDigit
      (Text.valueIn 10 digits, t.drop digits.length, p)

/-- The conversion after a percent sign, with what follows it, or what is wrong with it. -/
def conversion (p : Printing) (t : Text) : Except Text (Conversion × Text × Printing) :=
  let isFlag (c : Char) : Bool := (['-', '+', ' ', '0', '#'] : Text).contains c
  let flags := t.takeWhile isFlag
  let (width, rest, p) := p.size (t.drop flags.length)
  let flags := if width < 0 then '-' :: flags else flags
  let (precision?, rest, p) := match rest with
    | '.' :: behind =>
        let (n, rest, p) := p.size behind
        (if n < 0 then none else some n.toNat, rest, p)
    | rest => (none, rest, p)
  match rest with
  | kind :: behind =>
      let isKnown := (['b', 'c', 's', 'd', 'i', 'o', 'u', 'x', 'X', 'e', 'E', 'f', 'F', 'g', 'G',
        'a', 'A'] : Text).contains kind
      if isKnown then .ok (⟨flags, width.natAbs, precision?, kind⟩, behind, p)
      else .error ('%' :: t.take (t.length - behind.length) ++ ": invalid directive")
  | [] => .error "missing format character"

/-- Prints the next argument under a conversion. -/
def convert (p : Printing) (c : Conversion) : Printing :=
  if c.kind = 's' then
    let (argument?, p) := p.next
    p.add (c.textual (argument?.getD []))
  else if c.kind = 'b' then
    let (argument?, p) := p.next
    let (t, stops) := unescaped (argument?.getD [])
    { p.add (c.textual t) with isStopped := stops }
  else if c.kind = 'c' then
    let (argument?, p) := p.next
    p.add (c.pad false [] [(argument?.getD []).headD '\x00'])
  else if (['e', 'E', 'f', 'F', 'g', 'G', 'a', 'A'] : Text).contains c.kind then
    let (x, p) := p.nextReal
    p.add (c.real x)
  else
    let (n, p) := p.nextInteger (c.kind == 'd' || c.kind == 'i')
    p.add (c.integral n)

/-- Prints a format once. Fuel bounds its length. -/
def once : Nat → Printing → Text → Printing × Option Text
  | 0, p, _ => (p, none)
  | _ + 1, p, [] => (p, none)
  | fuel + 1, p, '\\' :: rest =>
      let (c, rest) := escaped false rest
      once fuel (p.add [c]) rest
  | fuel + 1, p, '%' :: '%' :: rest => once fuel (p.add ['%']) rest
  | fuel + 1, p, '%' :: rest =>
      match p.conversion rest with
      | .error problem => (p, some problem)
      | .ok (c, rest, p) =>
          let p := p.convert c
          if p.isStopped then (p, none) else once fuel p rest
  | fuel + 1, p, c :: rest => once fuel (p.add [c]) rest

/-- Prints a format until no argument is left, or as long as it uses any. -/
def all (format : Text) : Nat → Printing → Printing × Option Text
  | 0, p => (p, none)
  | fuel + 1, p =>
      let (q, problem?) := once (format.length + 1) p format
      if problem?.isSome || q.isStopped || q.arguments.isEmpty
          || q.arguments.length = p.arguments.length then (q, problem?)
      else all format fuel q

end Printing

def printf : Command := fun arguments => do
  let (_, operands) ← Routine.takeLetters "" arguments
  match operands with
  | [] => Routine.fail "usage: printf format [arg ...]"
  | format :: rest =>
      let (p, problem?) := Printing.all format (rest.length + 1) ⟨[], rest, [], false⟩
      for fault in p.faults.reverse do Routine.warn fault
      match problem? with
      | none =>
          Routine.say p.output.reverse.flatten
          pure (if p.faults.isEmpty then 0 else 1)
      | some problem =>
          Routine.say p.output.reverse.flatten
          Routine.fail problem

end Bytelink.Script
