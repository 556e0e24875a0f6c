import Bytelink.Host.Script.Lexer
import Bytelink.Host.Script.Shell

/-!
# Arithmetic in scripts

Expressions over integers of 64 bits, which wrap, with the usual operators and precedence. Division
goes toward zero. A variable stands for the numeral that it holds, and for zero when it holds none
of any kind. An operand that does not decide the value of an expression is read but has no effect.
-/
namespace Bytelink.Script.Arithmetic

/-- Why an expression has no value. -/
inductive Fault
  | noOperand
  | noClosing
  | noAlternative
  | noEnd
  | divisionByZero
  | badNumber (text : Text)
  | readOnly (name : Text)
  deriving DecidableEq, Repr

def Fault.message (expression : Text) : Fault → Text
  | noOperand => about "expecting primary"
  | noClosing => about "expecting ')'"
  | noAlternative => about "expecting ':'"
  | noEnd => about "expecting EOF"
  | divisionByZero => about "division by zero"
  | badNumber text => "Illegal number: " ++ text
  | readOnly name => name ++ ": is read only"
where
  about (t : Text) : Text := "arithmetic expression: " ++ t ++ ": \"" ++ expression ++ "\""

def isHexDigit (c : Char) : Bool :=
  c.isDigit || ('a' ≤ c && c ≤ 'f') || ('A' ≤ c && c ≤ 'F')

def hexValue (digits : Text) : Nat :=
  digits.foldl (fun value c =>
    value * 16 + if c.isDigit then c.toNat - 48 else c.toLower.toNat - 87) 0

def isBlank (c : Char) : Bool :=
  c == ' ' || ('\t' ≤ c && c ≤ '\x0d')

/-- The digits at the front of a text: their value in base sixteen after `0x`, in base eight after a
zero and in base ten otherwise, and what follows them. -/
def constant? (t : Text) : Option (Nat × Text) :=
  match t with
  | '0' :: x :: digits =>
      let hex := digits.takeWhile isHexDigit
      if (x = 'x' || x = 'X') && !hex.isEmpty then some (hexValue hex, digits.drop hex.length)
      else
        let octal := t.takeWhile Text.isOctalDigit
        some (Text.valueIn 8 octal, t.drop octal.length)
  | _ =>
      let digits := t.takeWhile Text.isDigit
      if digits.isEmpty then none else some (Text.valueIn 10 digits, t.drop digits.length)

def greatest : Nat := 0x7FFFFFFFFFFFFFFF

/-- A numeral at the front of a text, blanks and a sign in front of it allowed, and what follows.
The base is ten if `isDecimal` says so. -/
def leadingNumber? (isDecimal : Bool) (t : Text) : Option (Int × Text) :=
  let t := t.dropWhile isBlank
  let (isNegative, t) := match t with
    | '-' :: t => (true, t)
    | '+' :: t => (false, t)
    | t => (false, t)
  let digits := t.takeWhile Text.isDigit
  let magnitude? :=
    if !isDecimal then constant? t
    else if digits.isEmpty then none
    else some (Text.valueIn 10 digits, t.drop digits.length)
  magnitude?.map fun (n, rest) => (if isNegative then -(n : Int) else n, rest)

/-- The value of a whole text as a numeral, with blanks on both sides. A text without any digit is
zero in the bases of constants and is no decimal numeral. -/
def number? (isDecimal : Bool) (t : Text) : Option Int :=
  let fits (n : Int) : Bool := -(greatest : Int) - 1 ≤ n && n ≤ greatest
  match leadingNumber? isDecimal t with
  | some (n, rest) => if rest.all isBlank && fits n then some n else none
  | none => if !isDecimal && t.all isBlank then some 0 else none

/-- A count or status that is written in decimal. -/
def natural? (t : Text) : Option Nat :=
  match number? true t with
  | some (.ofNat n) => if n ≤ 0x7FFFFFFF then some n else none
  | _ => none

inductive Token
  | number (n : Int64)
  | name (t : Text)
  | operator (t : String)
  | unknown
  | finish
  deriving DecidableEq, Repr

/-- The operators, longer ones before those that they begin with. -/
def operators : List String :=
  ["<<=", ">>=", "<<", ">>", "<=", ">=", "==", "!=", "&&", "||", "+=", "-=", "*=", "/=", "%=",
    "&=", "|=", "^=", "=", "+", "-", "*", "/", "%", "<", ">", "(", ")", "!", "&", "|", "^", "~",
    "?", ":"]

/-- The first token of a text and what follows it. -/
def token (t : Text) : Token × Text :=
  match t.dropWhile fun c => c == ' ' || c == '\t' || c == '\n' with
  | [] => (.finish, [])
  | c :: rest =>
      let t := c :: rest
      if isNameStart c then
        let name := t.takeWhile isNameChar
        (.name name, t.drop name.length)
      else match constant? t with
        | some (n, rest) => (.number (Int64.ofNat (min n greatest)), rest)
        | none => match operators.find? fun o => o.toList.isPrefixOf t with
          | some o => (.operator o, t.drop o.length)
          | none => (.unknown, t)

/-- How tightly a binary operator binds. -/
def level? : String → Option Nat
  | "|" => some 1
  | "^" => some 2
  | "&" => some 3
  | "==" | "!=" => some 4
  | "<" | "<=" | ">" | ">=" => some 5
  | "<<" | ">>" => some 6
  | "+" | "-" => some 7
  | "*" | "/" | "%" => some 8
  | _ => none

def ofBool (b : Bool) : Int64 := if b then 1 else 0

def binary (operator : String) (a b : Int64) : Except Fault Int64 :=
  match operator with
  | "|" => .ok (a ||| b)
  | "^" => .ok (a ^^^ b)
  | "&" => .ok (a &&& b)
  | "==" => .ok (ofBool (a == b))
  | "!=" => .ok (ofBool (a != b))
  | "<" => .ok (ofBool (a < b))
  | "<=" => .ok (ofBool (a ≤ b))
  | ">" => .ok (ofBool (b < a))
  | ">=" => .ok (ofBool (b ≤ a))
  | "<<" => .ok (a <<< b)
  | ">>" => .ok (a >>> b)
  | "+" => .ok (a + b)
  | "-" => .ok (a - b)
  | "*" => .ok (a * b)
  | "/" => if b = 0 then .error .divisionByZero else .ok (a / b)
  | _ => if b = 0 then .error .divisionByZero else .ok (a % b)

/-- What an operator does in front of its only operand. -/
def unary? : String → Option (Int64 → Int64)
  | "+" => some id
  | "-" => some fun n => -n
  | "!" => some fun n => ofBool (n == 0)
  | "~" => some fun n => ~~~n
  | _ => none

/-- The operator that an assignment applies first, if it is one: none for a plain one. -/
def assignment? (operator : String) : Option (Option String) :=
  match operator with
  | "=" => some none
  | "+=" => some (some "+")
  | "-=" => some (some "-")
  | "*=" => some (some "*")
  | "/=" => some (some "/")
  | "%=" => some (some "%")
  | "&=" => some (some "&")
  | "|=" => some (some "|")
  | "^=" => some (some "^")
  | "<<=" => some (some "<<")
  | ">>=" => some (some ">>")
  | _ => none

/-- What is left of an expression, and the shell whose variables it uses. -/
structure Reader where
  rest : Text
  shell : Shell

abbrev Evaluation := StateT Reader (Except Fault)

/-- The next token, which stays. -/
def peek : Evaluation Token := return (token (← get).rest).1

def skip : Evaluation Unit := modify fun r => { r with rest := (token r.rest).2 }

/-- The value of a variable. -/
def lookup (name : Text) : Evaluation Int64 := do
  let text := ((← get).shell.value? name).getD []
  match number? false text with
  | some n => pure (Int64.ofInt n)
  | none => throw (.badNumber text)

/-- Gives a variable a value. -/
def store (name : Text) (value : Int64) : Evaluation Unit := do
  let r ← get
  if r.shell.isReadOnly name then throw (.readOnly name)
  set { r with shell := r.shell.setValue name (Text.decimalInt value.toInt) }

mutual

/-- An expression; it takes effect if `isLive` says so. -/
def expression : Nat → Bool → Evaluation Int64
  | 0, _ => throw .noOperand
  | fuel + 1, isLive => do
      let before ← get
      match ← peek with
      | .name name =>
          skip
          match ← peek with
          | .operator o =>
              match assignment? o with
              | some operation? =>
                  skip
                  let value ← expression fuel isLive
                  if isLive then
                    let value ← match operation? with
                      | some operation => do
                          let old ← lookup name
                          liftM (binary operation old value)
                      | none => pure value
                    store name value
                    pure value
                  else pure value
              | none =>
                  set before
                  choice fuel isLive
          | _ =>
              set before
              choice fuel isLive
      | _ => choice fuel isLive

/-- An expression that may choose between two others. -/
def choice : Nat → Bool → Evaluation Int64
  | 0, _ => throw .noOperand
  | fuel + 1, isLive => do
      let condition ← disjunction fuel isLive
      if (← peek) = .operator "?" then
        skip
        let yes ← expression fuel (isLive && condition != 0)
        if (← peek) = .operator ":" then
          skip
          let no ← choice fuel (isLive && condition == 0)
          pure (if condition != 0 then yes else no)
        else throw .noAlternative
      else pure condition

def disjunction : Nat → Bool → Evaluation Int64
  | 0, _ => throw .noOperand
  | fuel + 1, isLive => do
      let a ← conjunction fuel isLive
      if (← peek) = .operator "||" then
        skip
        let b ← disjunction fuel (isLive && a == 0)
        pure (ofBool (a != 0 || b != 0))
      else pure a

def conjunction : Nat → Bool → Evaluation Int64
  | 0, _ => throw .noOperand
  | fuel + 1, isLive => do
      let a ← operations fuel isLive 0 (← operand fuel isLive)
      if (← peek) = .operator "&&" then
        skip
        let b ← conjunction fuel (isLive && a != 0)
        pure (ofBool (a != 0 && b != 0))
      else pure a

/-- The binary operations after an operand that bind more tightly than `level`. -/
def operations : Nat → Bool → Nat → Int64 → Evaluation Int64
  | 0, _, _, left => pure left
  | fuel + 1, isLive, level, left => do
      match ← peek with
      | .operator o =>
          match level? o with
          | some own =>
              if own ≤ level then pure left
              else
                skip
                let right ← operations fuel isLive own (← operand fuel isLive)
                let value ← if isLive then liftM (binary o left right) else pure right
                operations fuel isLive level value
          | none => pure left
      | _ => pure left

def operand : Nat → Bool → Evaluation Int64
  | 0, _ => throw .noOperand
  | fuel + 1, isLive => do
      match ← peek with
      | .number n =>
          skip
          pure n
      | .name name =>
          skip
          if isLive then lookup name else pure 0
      | .operator o =>
          match unary? o with
          | some operation =>
              skip
              return operation (← operand fuel isLive)
          | none =>
              if o = "(" then
                skip
                let value ← expression fuel isLive
                if (← peek) = .operator ")" then
                  skip
                  pure value
                else throw .noClosing
              else throw .noOperand
      | _ => throw .noOperand

end

def value (s : Shell) (t : Text) : Except Fault (Int × Shell) := do
  let (n, r) ← (expression (8 * t.length + 8) true).run ⟨t, s⟩
  if (token r.rest).1 = .finish then pure (n.toInt, r.shell) else throw .noEnd

end Bytelink.Script.Arithmetic
