import Bytelink.Host.Script.Regex
import Bytelink.Host.Script.Stream

/-!
# Reckoning with words

The program that takes its arguments for an expression: whole numbers of any size and their four
operations, comparisons, the choice between two values, and questions about texts. Alternatives bind
the least, then conjunctions, comparisons, sums, products and matches. An operand that cannot change
the result is read but not reckoned with.
-/
namespace Bytelink.Script.Reckoning

/-- What is wrong with an expression. -/
inductive Fault
  | missingAfter (word : Text)
  | unexpected (word : Text)
  | unexpectedClosing
  | unclosed (word : Text)
  | notClosing (word : Text)
  | notInteger
  | division
  | pattern (fault : RegexFault)
  deriving DecidableEq, Repr

def Fault.message : Fault → Complaint
  | .missingAfter word => [.plain "syntax error: missing argument after ", .word word]
  | .unexpected word => [.plain "syntax error: unexpected argument ", .word word]
  | .unexpectedClosing => [.plain "syntax error: unexpected ')'"]
  | .unclosed word => [.plain "syntax error: expecting ')' after ", .word word]
  | .notClosing word => [.plain "syntax error: expecting ')' instead of ", .word word]
  | .notInteger => [.plain "non-integer argument"]
  | .division => [.plain "division by zero"]
  | .pattern fault => [.plain fault.message]

structure Rest where
  words : List Text
  before : Text

abbrev Reckon := StateT Rest (Except Fault)

/-- The number that a value is. -/
def integer? (t : Text) : Option Int :=
  let (isNegative, digits) := match t with
    | '-' :: digits => (true, digits)
    | digits => (false, digits)
  if digits.isEmpty || !digits.all Char.isDigit then none
  else
    let n : Int := Text.valueIn 10 digits
    some (if isNegative then -n else n)

def ofInt (n : Int) : Text := if n < 0 then '-' :: Text.decimal n.natAbs else Text.decimal n.natAbs

/-- Whether a value stands for no: it is empty, or a zero. -/
def isNull (t : Text) : Bool :=
  match t with
  | '-' :: digits => !digits.isEmpty && digits.all (· == '0')
  | digits => digits.all (· == '0')

def ofBool (b : Bool) : Text := if b then ['1'] else ['0']

def next? (words : List String) : Reckon (Option Text) := do
  let s ← get
  match s.words with
  | w :: rest =>
      if words.any (·.toList == w) then
        set (Rest.mk rest w)
        pure (some w)
      else pure none
  | [] => pure none

/-- Takes the next word, which has to be there. -/
def word : Reckon Text := do
  let s ← get
  match s.words with
  | w :: rest =>
      set (Rest.mk rest w)
      pure w
  | [] => throw (.missingAfter s.before)

variable (isWide : Bool)

/-- The part of a text that a pattern matches from its beginning on: what is in the first group, or
how long it is if the pattern has no group. -/
def matched (t pattern : Text) : Except Fault Text :=
  match Regex.read ⟨false, true⟩ (Wide.seen isWide pattern) with
  | .error fault => .error (.pattern fault)
  | .ok compiled =>
      let hasGroup := compiled.groups != 0
      let chars := (Wide.seen isWide t).toArray
      match Regex.matchAt? ⟨chars, isWide, false, true⟩ compiled.regex (fun _ _ => true) 0 with
      | none => .ok (if hasGroup then [] else ['0'])
      | some m =>
          if hasGroup then
            .ok (match m.groups.lookup 1 with
              | some (start, stop) => Wide.unseen isWide (chars.extract start stop).toList
              | none => [])
          else .ok (Text.decimal m.stop)

/-- A comparison, of numbers if both sides are such. -/
def compared (operator a b : Text) : Bool :=
  let order : Int := match integer? a, integer? b with
    | some m, some n => if m < n then -1 else if n < m then 1 else 0
    | _, _ => if a = b then 0 else if Text.le a b then -1 else 1
  match String.ofList operator with
  | "<" => order < 0
  | "<=" => order ≤ 0
  | "=" => order == 0
  | "==" => order == 0
  | "!=" => order != 0
  | ">=" => 0 ≤ order
  | _ => 0 < order

def computed (operator a b : Text) : Except Fault Text :=
  match integer? a, integer? b with
  | some m, some n => match String.ofList operator with
    | "+" => .ok (ofInt (m + n))
    | "-" => .ok (ofInt (m - n))
    | "*" => .ok (ofInt (m * n))
    | "/" => if n = 0 then .error .division else .ok (ofInt (Int.tdiv m n))
    | _ => if n = 0 then .error .division else .ok (ofInt (Int.tmod m n))
  | _, _ => .error .notInteger

def partOf (t place length : Text) : Text :=
  match integer? place, integer? length with
  | some place, some length =>
      if place ≤ 0 || length ≤ 0 then []
      else
        Wide.unseen isWide (((Wide.seen isWide t).drop (place.toNat - 1)).take length.toNat)
  | _, _ => []

/-- How tightly operators bind. -/
inductive Level
  | alternative
  | conjunction
  | comparison
  | sum
  | product
  | matching
  | single
  deriving DecidableEq, Repr

def Level.operators : Level → List String
  | .alternative => ["|"]
  | .conjunction => ["&"]
  | .comparison => ["<", "<=", "=", "==", "!=", ">=", ">"]
  | .sum => ["+", "-"]
  | .product => ["*", "/", "%"]
  | .matching => [":"]
  | .single => []

def Level.tighter : Level → Level
  | .alternative => .conjunction
  | .conjunction => .comparison
  | .comparison => .sum
  | .sum => .product
  | .product => .matching
  | _ => .single

/-- Whether the right side of an operator counts when the left one is known. -/
def Level.counts : Level → Text → Bool
  | .alternative, left => isNull left
  | .conjunction, left => !isNull left
  | _, _ => true

def Level.value (l : Level) (operator left right : Text) :
    Except Fault Text :=
  match l with
  | .alternative =>
      .ok (if !isNull left then left else if isNull right then ['0'] else right)
  | .conjunction => .ok (if isNull left || isNull right then ['0'] else left)
  | .comparison => .ok (ofBool (compared operator left right))
  | .matching => matched isWide left right
  | _ => computed operator left right

mutual

/-- The value of an expression that begins with the next word. Fuel bounds the number of steps. -/
def expression : Nat → Bool → Level → Reckon Text
  | 0, _, _ => throw .unexpectedClosing
  | fuel + 1, counts, level =>
      if level = .single then operand fuel counts
      else do
        let left ← expression fuel counts level.tighter
        further fuel counts level left

def further : Nat → Bool → Level → Text → Reckon Text
  | 0, _, _, left => pure left
  | fuel + 1, counts, level, left => do
      match ← next? level.operators with
      | none => pure left
      | some operator =>
          let right ← expression fuel (counts && level.counts left) level.tighter
          let value ← if counts && level.counts left then
              StateT.lift (level.value isWide operator left right)
            else if level = .alternative || level = .conjunction then
              StateT.lift (level.value isWide operator left ['0'])
            else pure left
          further fuel counts level value

/-- A single word, an expression in parentheses or a question about texts. -/
def operand : Nat → Bool → Reckon Text
  | 0, _ => throw .unexpectedClosing
  | fuel + 1, counts => do
      let w ← word
      match String.ofList w with
      | "+" => word
      | "length" =>
          let t ← operand fuel counts
          pure (Text.decimal (Wide.seen isWide t).length)
      | "match" =>
          let t ← operand fuel counts
          let pattern ← operand fuel counts
          if counts then StateT.lift (matched isWide t pattern) else pure t
      | "index" =>
          let t ← operand fuel counts
          let among ← operand fuel counts
          let chars := Wide.seen isWide t
          let front := chars.takeWhile fun c => !(Wide.seen isWide among).contains c
          pure (if front.length = chars.length then ['0'] else Text.decimal (front.length + 1))
      | "substr" =>
          let t ← operand fuel counts
          let place ← operand fuel counts
          let length ← operand fuel counts
          pure (partOf isWide t place length)
      | "(" =>
          let value ← expression fuel counts .alternative
          let s ← get
          match s.words with
          | [] => throw (.unclosed s.before)
          | [')'] :: rest =>
              set (Rest.mk rest [')'])
              pure value
          | other :: _ => throw (.notClosing other)
      | ")" => throw .unexpectedClosing
      | _ => pure w

end

def reckon (words : List Text) : Except Fault Text := do
  let (value, s) ← (expression isWide (10 * words.length + 10) true .alternative).run ⟨words, []⟩
  match s.words with
  | [] => pure value
  | w :: _ => throw (.unexpected w)

open Routine in
def expr : Command := fun arguments => do
  let words := match arguments with
    | ['-', '-'] :: rest => rest
    | words => words
  if words.isEmpty then
    report "missing operand"
    refuseUsage 2
  else
    match reckon (← get).isUnicode words with
    | .error fault =>
        reportPhrases fault.message
        pure 2
    | .ok value =>
        say (value ++ ['\n'])
        pure (if isNull value then 1 else 0)

end Bytelink.Script.Reckoning
