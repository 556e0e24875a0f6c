import Bytelink.Host.Script.Amount
import Bytelink.Host.Script.Stream

/-!
# Fronts and ends

`head` shows the first lines or bytes of its input and `tail` the last ones; either may be told to
count from the other end. What `head` does not show is left to be read. Both know an old way to
write a count, behind a dash or a plus.
-/
namespace Bytelink.Script.Ends

open Routine

/-- What is shown: a number of lines or bytes. -/
structure Portion where
  ofLines : Bool
  count : Nat
  /-- Whether the number counts from the other end. -/
  isInverted : Bool
  deriving DecidableEq, Repr

/-- The number of characters in the first lines. -/
def lengthOfLines : Nat → Nat → Text → Nat
  | 0, length, _ => length
  | _ + 1, length, [] => length
  | count + 1, length, c :: rest =>
      if c = '\n' then lengthOfLines count (length + 1) rest
      else lengthOfLines (count + 1) (length + 1) rest

/-- All but the last lines or bytes. -/
def Portion.withoutLast (p : Portion) (t : Text) : Text :=
  if p.ofLines then
    let (lines, isOpen) := wholeLines t
    let kept := lines.length - p.count
    if kept = lines.length && isOpen then t else joinLines (lines.take kept)
  else t.take (t.length - p.count)

def Portion.last (p : Portion) (t : Text) : Text :=
  if p.isInverted then
    if p.ofLines then t.drop (lengthOfLines (p.count - 1) 0 t) else t.drop (p.count - 1)
  else if p.ofLines then
    let (lines, isOpen) := wholeLines t
    let kept := joinLines (lines.drop (lines.length - p.count))
    if isOpen then kept.dropLast else kept
  else t.drop (t.length - p.count)

def nameOf (operand : Text) : Text := if operand = ['-'] then "standard input" else operand

/-- Opens each operand, shows headings where they are wanted and hands the descriptor over. -/
def eachFile (hasHeadings : Bool) (operands : List Text)
    (body : Nat → Routine (Except SystemError Unit)) : Routine Nat := do
  let mut status := 0
  let mut isFirst := true
  for operand in (if operands.isEmpty then [['-']] else operands) do
    let name ← quoted (nameOf operand)
    match ← openInput operand with
    | .error e =>
        report ("cannot open " ++ name ++ " for reading: " ++ reason e)
        status := 1
    | .ok descriptor =>
        if hasHeadings then
          say ((if isFirst then [] else ['\n']) ++ "==> " ++ nameOf operand ++ " <==\n")
        isFirst := false
        match ← body descriptor with
        | .ok () => pure ()
        | .error e =>
            let isMissing := e = .badDescriptor && (← get).name = ("tail" : Text)
            let what : Text := if isMissing then "cannot fstat " else "error reading "
            report (what ++ name ++ ": " ++ reason e)
            status := 1
        closeInput descriptor
  endInput ['-'] operands status

/-- Copies the first lines or bytes of a descriptor and leaves the others to be read. -/
def copyFront (isZero : Bool) (p : Portion) (descriptor : Nat) :
    Routine (Except SystemError Unit) := do
  let pid := (← get).pid
  if p.isInverted then
    match ← readAll descriptor with
    | .error e => pure (.error e)
    | .ok bytes =>
        let shown := p.withoutLast (swapped isZero (Narrow.ofBytes bytes))
        say (swapped isZero shown)
        change (·.rewind pid descriptor (bytes.length - shown.length))
        pure (.ok ())
  else
    goRound (fun left => do
      if left = 0 then pure (.inr (.ok ()))
      else
        match ← readSome descriptor 8192 with
        | .error e => pure (.inr (.error e))
        | .ok [] => pure (.inr (.ok ()))
        | .ok bytes =>
            let t := swapped isZero (Narrow.ofBytes bytes)
            let length := if p.ofLines then lengthOfLines left 0 t else min left t.length
            let front := t.take length
            say (swapped isZero front)
            change (·.rewind pid descriptor (t.length - length))
            pure (.inl (left - if p.ofLines then front.count '\n' else length)))
      (.ok ()) rounds p.count

/-- The portion that options ask for, or what is wrong with them. -/
def portion (given : List Given) (isFromStart : Bool) : Except Complaint Portion :=
  let last? := given.reverse.find? fun g => g.1 = 'n' || g.1 = 'c'
  match last? with
  | none => .ok ⟨true, 10, false⟩
  | some (letter, value?) =>
      let value := value?.getD []
      let sign : Char := if isFromStart then '-' else '+'
      let isInverted := value.head? = some sign
      let digits := if value.head? = some '-' then value.drop 1 else value
      let kind : Text := if letter = 'n' then "lines" else "bytes"
      (Amount.within ("invalid number of " ++ kind) "bkKmMGTPEZYRQ0" 0 Amount.wordLimit digits).map
        fun count => ⟨letter == 'n', count, isInverted⟩

def wantsHeadings (given : List Given) (operands : List Text) : Bool :=
  match lastOf? given ['q', 'v'] with
  | some c => c == 'v'
  | none => 1 < operands.length

def oldLetters (digits : Text) : Text → Bool → Option Char → List Given →
    Except Char (List Given)
  | [], ofLines, unit?, given =>
      .ok (given ++ [(if ofLines then 'n' else 'c', some (digits ++ unit?.toList))])
  | 'c' :: rest, _, _, given => oldLetters digits rest false none given
  | 'l' :: rest, _, unit?, given => oldLetters digits rest true unit? given
  | c :: rest, ofLines, unit?, given =>
      if c = 'b' || c = 'k' || c = 'm' then oldLetters digits rest false (some c) given
      else if c = 'q' || c = 'v' || c = 'z' then
        oldLetters digits rest ofLines unit? (given ++ [(c, none)])
      else .error c

def oldFront : List Text → Except Char (List Given × List Text)
  | ('-' :: c :: t) :: rest =>
      if c.isDigit then
        let digits := (c :: t).takeWhile Char.isDigit
        (oldLetters digits ((c :: t).drop digits.length) true none []).map (·, rest)
      else .ok ([], ('-' :: c :: t) :: rest)
  | arguments => .ok ([], arguments)

def knownOfHead : Known :=
  .ofText "c:n:qvz" [("bytes", 'c'), ("lines", 'n'), ("quiet", 'q'), ("silent", 'q'),
    ("verbose", 'v'), ("zero-terminated", 'z')]

def head : Command := fun arguments => do
  let refuse (message : Text) : Routine Nat := do
    report message
    refuseUsage 1
  match oldFront arguments with
  | .error c => refuse ("invalid trailing option -- " ++ [c])
  | .ok (old, arguments) => match knownOfHead.read false arguments with
    | .error (.unknownLetter c) =>
        refuse (if c.isDigit then "invalid trailing option -- " ++ [c]
          else OptionFault.message (.unknownLetter c))
    | .error fault => refuse fault.message
    | .ok (given, operands) =>
        let given := old ++ given
        withValue (portion given true) fun p =>
          eachFile (wantsHeadings given operands) operands (copyFront (isGiven given 'z') p)

/-- The options in an old count that stands alone or in front of a single operand. -/
def oldEnd? (arguments : List Text) : Option (List Given × List Text) :=
  let isAlone := match arguments with
    | [_] => true
    | [_, t] => !(t.head? = some '-' && 1 < t.length)
    | [_, ['-', '-'], _] => true
    | _ => false
  match arguments with
  | (sign :: t) :: rest =>
      let digits := t.takeWhile Char.isDigit
      let letters := t.drop digits.length
      let isCount := sign = '+' || sign = '-' && t ≠ [] && t ≠ ['c']
      let (kind, unit, letters) : Char × Text × Text := match letters with
        | 'b' :: letters => ('c', ['b'], letters)
        | 'c' :: letters => ('c', [], letters)
        | 'l' :: letters => ('n', [], letters)
        | letters => ('n', [], letters)
      let count := if digits.isEmpty then ['1', '0'] else digits
      let own : Given := (kind, some ((if sign = '+' then ['+'] else []) ++ count ++ unit))
      if isAlone && isCount && (letters.isEmpty || letters = ['f']) then
        some (own :: letters.map (·, none), rest)
      else none
  | _ => none

def knownOfTail : Known :=
  .ofText "c:n:fFqs:vz\x01:" [("bytes", 'c'), ("follow", '\x02'), ("lines", 'n'), ("pid", '\x01'),
    ("quiet", 'q'), ("retry", '\x03'), ("silent", 'q'), ("sleep-interval", 's'), ("verbose", 'v'),
    ("zero-terminated", 'z')]

def tail : Command := fun arguments => do
  let refuse (message : Text) : Routine Nat := do
    report message
    refuseUsage 1
  let (old, arguments) := (oldEnd? arguments).getD ([], arguments)
  match knownOfTail.read false arguments with
  | .error (.unknownLetter c) =>
      if c.isDigit then
        report ("option used in invalid context -- " ++ [c])
        pure 1
      else refuse (OptionFault.message (.unknownLetter c))
  | .error fault => refuse fault.message
  | .ok (given, operands) =>
      let given := old ++ given
      let isZero := isGiven given 'z'
      withValue (portion given false) fun p => do
        let follows := ['f', 'F', '\x02'].any (isGiven given)
        if isGiven given '\x01' && !follows then
          report "warning: PID ignored; --pid=PID is useful only when following"
        if p.count = 0 && !p.isInverted && !follows then return 0
        let status ← eachFile (wantsHeadings given operands) operands fun descriptor => do
          match ← readAll descriptor with
          | .error e => pure (.error e)
          | .ok bytes =>
              say (swapped isZero (p.last (swapped isZero (Narrow.ofBytes bytes))))
              pure (.ok ())
        if follows && !operands.isEmpty then
          let found ← operands.filterM fun t => do return (← find t).isOk
          if found.isEmpty then report "no files remaining"
          else
            flush
            block fun _ => false
        pure status

end Bytelink.Script.Ends
