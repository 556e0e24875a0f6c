import Bytelink.Host.Script.Quoting

/-!
# Options of programs

Arguments in front of which a dash stands are options: single letters, of which several may share
one dash, or words after two dashes, which may be cut short as long as it is clear what is meant.
Options and operands may be mixed unless a program says otherwise; two dashes alone end the options.
-/
namespace Bytelink.Script

inductive Takes
  | nothing
  | argument
  /-- An argument only where it is written in the same word. -/
  | attached
  deriving DecidableEq, Repr

/-- Options that a program knows by letter, and those that it knows by word, each of which stands
for a letter. -/
structure Known where
  letters : List (Char × Takes)
  words : List (String × Char)

abbrev Given := Char × Option Text

inductive OptionFault
  | unknownLetter (letter : Char)
  | lacksArgument (letter : Char)
  | unknownWord (word : Text)
  | ambiguous (word : Text) (candidates : List Text)
  | wordLacksArgument (word : Text)
  | takesNone (word : Text)
  deriving DecidableEq, Repr

namespace OptionFault

def message : OptionFault → Text
  | unknownLetter letter => "invalid option -- " ++ quote [letter]
  | lacksArgument letter => "option requires an argument -- " ++ quote [letter]
  | unknownWord word => "unrecognized option " ++ quote ("--" ++ word)
  | ambiguous word candidates =>
      "option " ++ quote ("--" ++ word) ++ " is ambiguous; possibilities:" ++
        candidates.flatMap fun c => ' ' :: quote ("--" ++ c)
  | wordLacksArgument word => "option " ++ quote ("--" ++ word) ++ " requires an argument"
  | takesNone word => "option " ++ quote ("--" ++ word) ++ " doesn't allow an argument"
where
  quote (t : Text) : Text := '\'' :: t ++ ['\'']

end OptionFault

namespace Known

/-- Options by letter: a colon behind a letter stands for an argument, two for an attached one. -/
def ofText (letters : String) (words : List (String × Char)) : Known := ⟨go letters.toList, words⟩
where
  go : Text → List (Char × Takes)
    | c :: ':' :: ':' :: rest => (c, .attached) :: go rest
    | c :: ':' :: rest => (c, .argument) :: go rest
    | c :: rest => (c, .nothing) :: go rest
    | [] => []

def takes? (k : Known) (letter : Char) : Option Takes := k.letters.lookup letter

/-- The options in the letters behind a dash. If the last of them still needs its argument, that is
the next word of the command. -/
def readLetters (k : Known) : Text → Except OptionFault (List Given × Option Char)
  | [] => .ok ([], none)
  | c :: rest =>
      match k.takes? c with
      | none => .error (.unknownLetter c)
      | some .nothing => (k.readLetters rest).map fun (given, open?) => ((c, none) :: given, open?)
      | some .attached => .ok ([(c, if rest.isEmpty then none else some rest)], none)
      | some .argument => .ok (if rest.isEmpty then ([], some c) else ([(c, some rest)], none))

/-- The option that a word behind two dashes means. -/
def word (k : Known) (name : Text) : Except OptionFault (Text × Char) :=
  match k.words.find? (·.1.toList == name) with
  | some w => .ok (w.1.toList, w.2)
  | none =>
      match k.words.filter (name.isPrefixOf ·.1.toList) with
      | [] => .error (.unknownWord name)
      | w :: others =>
          if others.all (·.2 == w.2) then .ok (w.1.toList, w.2)
          else .error (.ambiguous name ((w :: others).map (·.1.toList)))

/-- Takes the options out of the arguments. If `isStrict`, the first operand ends them. -/
def read (k : Known) (isStrict : Bool) : List Text → Except OptionFault (List Given × List Text)
  | [] => .ok ([], [])
  | ['-', '-'] :: rest => .ok ([], rest)
  | ('-' :: '-' :: body) :: rest => do
      let name := body.takeWhile (· != '=')
      let value? := if body.length = name.length then none else some (body.drop (name.length + 1))
      let (word, letter) ← k.word name
      match (k.takes? letter).getD .nothing, value? with
      | .nothing, some _ => throw (.takesNone word)
      | .argument, none => match rest with
        | value :: rest =>
            let (given, operands) ← k.read isStrict rest
            pure ((letter, some value) :: given, operands)
        | [] => throw (.wordLacksArgument word)
      | _, _ =>
          let (given, operands) ← k.read isStrict rest
          pure ((letter, value?) :: given, operands)
  | ('-' :: c :: letters) :: rest => do
      let (first, open?) ← k.readLetters (c :: letters)
      match open? with
      | none =>
          let (given, operands) ← k.read isStrict rest
          pure (first ++ given, operands)
      | some letter => match rest with
        | value :: rest =>
            let (given, operands) ← k.read isStrict rest
            pure (first ++ (letter, some value) :: given, operands)
        | [] => throw (.lacksArgument letter)
  | operand :: rest =>
      if isStrict then .ok ([], operand :: rest)
      else (k.read isStrict rest).map fun (given, operands) => (given, operand :: operands)

end Known

def isGiven (given : List Given) (letter : Char) : Bool := given.any (·.1 == letter)

def argument? (given : List Given) (letter : Char) : Option Text :=
  (given.reverse.find? (·.1 == letter)).bind (·.2)

def lastOf? (given : List Given) (letters : Text) : Option Char :=
  (given.reverse.find? fun g => letters.contains g.1).map (·.1)

/-- The meaning of a word, which may be cut short, among the words for the values of an option. -/
def chosen {α : Type} [DecidableEq α] (option : String) (words : List (String × α)) (t : Text) :
    Except Complaint α :=
  let problem (kind : Text) : Complaint :=
    [.plain (kind ++ " argument "), .word t, .plain " for ", .word option,
      .plain "\nValid arguments are:"] ++ listed none words
  match words.find? (·.1.toList == t) with
  | some w => .ok w.2
  | none => match words.filter (t.isPrefixOf ·.1.toList) with
    | [] => .error (problem "invalid")
    | w :: others => if others.all (·.2 = w.2) then .ok w.2 else .error (problem "ambiguous")
where
  /-- All words, those with one meaning in one line. -/
  listed : Option α → List (String × α) → Complaint
    | _, [] => []
    | last?, (word, value) :: rest =>
        .plain (if last? = some value then ", " else "\n  - ") :: .word word ::
          listed (some value) rest

namespace Routine

/-- Tells something under the name of the program, whatever output is still gathered. -/
def interject (t : Text) : Routine Unit := do complain ((← get).name ++ ": " ++ t)

/-- Tells something under the name of the program, after what it has written so far. -/
def report (t : Text) : Routine Unit := do
  flush
  interject t

/-- Tells of a problem under the name of the program. -/
def reportPhrases (parts : Complaint) : Routine Unit := do report (← phrased parts)

/-- Goes on with a value, or tells what is wrong with it. -/
def withValue {α : Type} (value : Except Complaint α) (body : α → Routine Nat) : Routine Nat :=
  match value with
  | .ok a => body a
  | .error problem => do
      reportPhrases problem
      pure 1

/-- Points to the help of the program, and fails. -/
def refuseUsage (status : Nat) : Routine Nat := do
  complain ("Try '" ++ (← get).name ++ " --help' for more information.")
  pure status

/-- The options of a builtin, which are letters and stand in front of the operands, and the
operands. -/
def takeLetters (letters : String) (arguments : List Text) :
    Routine (List Given × List Text) :=
  go (Known.ofText letters []) arguments
where
  go (k : Known) : List Text → Routine (List Given × List Text)
    | ['-', '-'] :: rest => pure ([], rest)
    | ('-' :: c :: behind) :: rest =>
        match k.readLetters (c :: behind) with
        | .ok (first, none) => do
            let (given, operands) ← go k rest
            pure (first ++ given, operands)
        | .ok (first, some letter) => match rest with
          | value :: rest => do
              let (given, operands) ← go k rest
              pure (first ++ (letter, some value) :: given, operands)
          | [] => fail ("No arg for -" ++ [letter] ++ " option")
        | .error (.unknownLetter letter) => fail ("Illegal option -" ++ [letter])
        | .error fault => fail fault.message
    | operands => pure ([], operands)

def withOptions (k : Known) (arguments : List Text)
    (body : List Given → List Text → Routine Nat) : Routine Nat :=
  match k.read false arguments with
  | .ok (given, operands) => body given operands
  | .error fault => do
      report fault.message
      refuseUsage 1

def refuseMissing : Routine Nat := do
  report "missing operand"
  refuseUsage 1

/-- Does something for each item in turn; the status is the worst of all. -/
def forEach {α : Type} (items : List α) (step : α → Routine Nat) : Routine Nat := do
  let mut status := 0
  for item in items do
    status := max status (← step item)
  pure status

/-- Succeeds, or tells what went wrong. -/
def settle (message : Text) : Except SystemError Unit → Routine Nat
  | .ok () => pure 0
  | .error e => do
      report (message ++ ": " ++ reason e)
      pure 1

end Routine
end Bytelink.Script
