import Bytelink.Host.Script.Arithmetic

/-!
# Conditions

What `test` and `[` decide: questions about files and texts, comparisons of texts and of numbers,
and their negation, conjunction and disjunction. A word may be an operator or an operand; which it
is shows in the words behind it.
-/
namespace Bytelink.Script.Condition

def unaryOperators : List String :=
  ["-r", "-w", "-x", "-e", "-f", "-d", "-c", "-b", "-p", "-u", "-g", "-k", "-s", "-t", "-z", "-n",
    "-h", "-O", "-G", "-L", "-S"]

def binaryOperators : List String :=
  ["=", "!=", "<", ">", "-eq", "-ne", "-ge", "-gt", "-le", "-lt", "-nt", "-ot", "-ef"]

/-- What a word is. -/
inductive Role
  | finish
  | operand
  | unary
  | binary
  | negation
  | conjunction
  | disjunction
  | opening
  | closing
  deriving DecidableEq, Repr

def operatorRole? (t : Text) : Option Role :=
  if isOneOf unaryOperators t then some .unary
  else if isOneOf binaryOperators t then some .binary
  else match String.ofList t with
    | "!" => some .negation
    | "-a" => some .conjunction
    | "-o" => some .disjunction
    | "(" => some .opening
    | ")" => some .closing
    | _ => none

def roleAt (words : List Text) (place : Nat) : Role :=
  match words.drop place with
  | [] => .finish
  | t :: rest =>
      match operatorRole? t, rest with
      | none, _ => .operand
      | some .unary, [] => .operand
      | some .unary, next :: _ :: _ =>
          if operatorRole? next = some .binary then .operand else .unary
      | some .opening, [] => .operand
      | some role, _ => role

def compare (isNewer isSame : Text → Text → Bool) (operator a b : Text) : Except Text Bool :=
  let numbers (relation : Int → Int → Bool) : Except Text Bool := do
    let number (t : Text) : Except Text Int := match Arithmetic.number? true t with
      | some n => .ok n
      | none => .error ("Illegal number: " ++ t)
    let m ← number a
    let n ← number b
    pure (relation m n)
  match String.ofList operator with
  | "=" => .ok (a == b)
  | "!=" => .ok (a != b)
  | "<" => .ok (a != b && Text.le a b)
  | ">" => .ok (a != b && Text.le b a)
  | "-eq" => numbers fun m n => m == n
  | "-ne" => numbers fun m n => m != n
  | "-ge" => numbers fun m n => n ≤ m
  | "-gt" => numbers fun m n => n < m
  | "-le" => numbers fun m n => m ≤ n
  | "-lt" => numbers fun m n => m < n
  | "-nt" => .ok (isNewer a b)
  | "-ot" => .ok (isNewer b a)
  | _ => .ok (isSame a b)

/-- What is asked about files. -/
structure Files where
  holds : String → Text → Bool
  isNewer : Text → Text → Bool
  isSame : Text → Text → Bool

/-- A condition under way: the place of the latest word that has been used. -/
abbrev Deciding := StateT Nat (Except Text)

mutual

/-- A disjunction of conjunctions that begins with a word of the given role. -/
def decideEither (files : Files) (words : List Text) : Nat → Role → Bool → Deciding Bool
  | 0, _, so => pure so
  | fuel + 1, role, so => do
      let so := (← decideBoth files words fuel role true) || so
      let place ← get
      if roleAt words (place + 1) = .disjunction then
        set (place + 2)
        decideEither files words fuel (roleAt words (place + 2)) so
      else pure so

def decideBoth (files : Files) (words : List Text) : Nat → Role → Bool → Deciding Bool
  | 0, _, so => pure so
  | fuel + 1, role, so => do
      let so := (← decideNot files words fuel role) && so
      let place ← get
      if roleAt words (place + 1) = .conjunction then
        set (place + 2)
        decideBoth files words fuel (roleAt words (place + 2)) so
      else pure so

def decideNot (files : Files) (words : List Text) : Nat → Role → Deciding Bool
  | 0, _ => pure false
  | fuel + 1, role => do
      if role = .negation then
        let place ← get
        let next := roleAt words (place + 1)
        if next != .finish then set (place + 1)
        return !(← decideNot files words fuel next)
      else decidePrimary files words fuel role

def decidePrimary (files : Files) (words : List Text) : Nat → Role → Deciding Bool
  | 0, _ => pure false
  | fuel + 1, role => do
      let place ← get
      let word := (words.drop place).headD []
      match role with
      | .finish => pure false
      | .opening =>
          let next := roleAt words (place + 1)
          set (place + 1)
          if next = .closing then pure false
          else
            let so ← decideEither files words fuel next false
            let place ← get
            set (place + 1)
            if roleAt words (place + 1) = .closing then pure so
            else throw ("closing paren expected" : Text)
      | .unary =>
          set (place + 1)
          match words[place + 1]? with
          | none => throw (word ++ ": argument expected")
          | some operand =>
              match String.ofList word with
              | "-z" => pure operand.isEmpty
              | "-n" => pure !operand.isEmpty
              | "-t" =>
                  if (Arithmetic.number? true operand).isSome then pure false
                  else throw ("Illegal number: " ++ operand)
              | question => pure (files.holds question operand)
      | _ =>
          if roleAt words (place + 1) = .binary then
            let operator := (words.drop (place + 1)).headD []
            match words[place + 2]? with
            | none => throw (operator ++ ": argument expected")
            | some operand =>
                set (place + 2)
                liftM (compare files.isNewer files.isSame operator word operand)
          else pure !word.isEmpty

end

/-- Whether a condition holds. Up to four words have a meaning of their own: a comparison of two
words comes before everything else, then parentheses around one or two, then a negation. -/
def decideWords (files : Files) : Nat → Bool → List Text → Except Text Bool
  | 0, _, _ => .ok false
  | fuel + 1, isAffirmed, words => do
      let whole (role? : Option Role) (words : List Text) : Except Text Bool := do
        let (so, place) ←
          (decideEither files words (8 * words.length + 8)
            (role?.getD (roleAt words 0)) false).run 0
        match words.drop place with
        | word :: _ :: _ =>
            let subject : Text := if word.isEmpty then [] else word ++ ": "
            throw (subject ++ "unexpected operator")
        | _ => pure (so == isAffirmed)
      let isComparison : Bool := match words with
        | [_, operator, _] => operatorRole? operator == some .binary
        | _ => false
      if words.isEmpty then pure !isAffirmed
      else if isComparison then whole (some .operand) words
      else if words.length = 3 || words.length = 4 then
        if words.head? = some ['('] && words.getLast? = some [')'] then
          whole none (words.drop 1).dropLast
        else if words.head? = some ['!'] then decideWords files fuel (!isAffirmed) (words.drop 1)
        else whole none words
      else whole none words

/-- What a volume says about files. -/
def filesOf (v : Volume) (directory : NodeId) : Files where
  holds question word :=
    let path : Path := Routine.pathOf word
    let isEntry := question == "-h" || question == "-L"
    let found := if isEntry then v.findEntry directory path else v.find directory path
    match found with
    | .error _ => false
    | .ok n => answer question (v.node n)
  isNewer a b := match node? a, node? b with
    | some first, some second => second.modified < first.modified
    | _, _ => false
  isSame a b := match v.find directory (Routine.pathOf a), v.find directory (Routine.pathOf b) with
    | .ok first, .ok second => first == second
    | _, _ => false
where
  node? (word : Text) : Option Inode :=
    (v.find directory (Routine.pathOf word)).toOption.map v.node
  answer (question : String) (n : Inode) : Bool :=
    match question with
    | "-h" => n.isLink
    | "-L" => n.isLink
    | "-e" => true
    | "-f" => n.isFile
    | "-d" => n.isDirectory
    | "-c" => n.isDevice
    | "-p" => n.isQueue
    | "-s" => if n.isFile then !n.bytes.isEmpty else n.isDirectory
    | "-r" => n.grants .read
    | "-w" => n.grants .write
    | "-x" => n.grants .search
    | "-u" => n.mode / 2048 % 2 == 1
    | "-g" => n.mode / 1024 % 2 == 1
    | "-k" => n.mode / 512 % 2 == 1
    | "-O" => n.isOwn
    | "-G" => n.isOwn
    | _ => false

/-- Decides a condition; with brackets, the closing one has to be there. -/
def test (isBracket : Bool) : Command := fun arguments => do
  if isBracket && arguments.getLast? != some [']'] then Routine.fail "missing ]"
  else
    let words := if isBracket then arguments.dropLast else arguments
    let files ← Routine.inVolume filesOf
    match decideWords files (words.length + 1) true words with
    | .ok so => pure (if so then 0 else 1)
    | .error message => Routine.fail message

end Bytelink.Script.Condition
