import Bytelink.Host.Script.Expansion
import Bytelink.Host.Script.Options
import Bytelink.Host.Script.Stream
import Bytelink.Text.Search

/-!
# Parameters and variables

The builtins with which a script changes its options, parameters and variables, and reads values
from its input.
-/
namespace Bytelink.Script.Parameters

open Routine

/-- The number that an argument states. -/
def number (t : Text) : Routine Nat :=
  match Arithmetic.natural? t with
  | some n => pure n
  | none => fail ("Illegal number: " ++ t)

/-- A text between quotes, as it can be read again. Single quotes in it stand between double
ones. -/
def inQuotes (t : Text) : Text := go (t.length + 1) t
where
  go : Nat → Text → Text
    | 0, _ => []
    | fuel + 1, t =>
        let run := t.takeWhile (· != '\'')
        let rest := t.drop run.length
        let quotes := rest.takeWhile (· == '\'')
        let behind := rest.drop quotes.length
        '\'' :: run ++ ['\''] ++ (if quotes.isEmpty then [] else '"' :: quotes ++ ['"']) ++
          (if behind.isEmpty then [] else go fuel behind)

/-- The options by letter and by name, in the order in which they are listed. -/
def settingNames : List (Char × String) :=
  [('e', "errexit"), ('f', "noglob"), ('I', "ignoreeof"), ('i', "interactive"), ('m', "monitor"),
    ('n', "noexec"), ('s', "stdin"), ('x', "xtrace"), ('v', "verbose"), ('V', "vi"),
    ('E', "emacs"), ('C', "noclobber"), ('a', "allexport"), ('b', "notify"), ('u', "nounset"),
    ('p', "privileged"), ('\x01', "nolog"), ('\x02', "debug")]

def setOption (letter : Char) (isOn : Bool) : Routine Unit := do
  if letter > '\x02' && (settingNames.lookup letter).isNone then
    fail ("Illegal option -" ++ [letter])
  else modify fun s => { s with settings :=
    if isOn then letter :: s.settings.filter (· != letter) else s.settings.filter (· != letter) }

/-- What the command line of a shell adds to its options. -/
structure Settings where
  isCommand : Bool
  /-- Whether parameters are given, be it none. -/
  parameters? : Option (List Text)

/-- Takes options off the front of arguments. With `isOuter` they are those of a shell as a
program. -/
def takeOptions (isOuter : Bool) : List Text → Routine Settings
  | [] => pure ⟨false, none⟩
  | ['-'] :: rest => do
      if !isOuter then
        setOption 'x' false
        setOption 'v' false
      pure ⟨false, if rest.isEmpty && !isOuter then none else some rest⟩
  | ['-', '-'] :: rest => pure ⟨false, some rest⟩
  | (mark :: letters) :: rest => do
      if mark = '-' || (mark = '+' && !letters.isEmpty) then
        let isOn := mark == '-'
        let names := letters.count 'o'
        for letter in letters do
          if letter = 'o' then pure ()
          else if letter = 'c' && isOuter then pure ()
          else setOption letter isOn
        let result ←
          if names = 0 then takeOptions isOuter rest
          else match rest with
            | [] => do
                list isOn
                pure ⟨false, none⟩
            | name :: rest =>
                match settingNames.find? (·.2.toList == name) with
                | none => fail ("Illegal option -o " ++ name)
                | some (letter, _) => do
                    setOption letter isOn
                    takeOptions isOuter rest
        pure { result with isCommand := result.isCommand || (isOuter && letters.contains 'c') }
      else pure ⟨false, some ((mark :: letters) :: rest)⟩
  | [] :: rest => pure ⟨false, some ([] :: rest)⟩
where
  list (isOn : Bool) : Routine Unit := do
    let s ← get
    if isOn then
      say "Current option settings\n"
      for (letter, name) in settingNames do
        say (Text.padRight 16 name.toList ++ (if s.isSet letter then "on\n" else "off\n"))
    else
      for (letter, name) in settingNames do
        say ("set " ++ (if s.isSet letter then ['-'] else ['+']) ++ "o " ++ name ++ ['\n'])

def listVariables (word : Text) (isListed : Variable → Bool) : Routine Unit := do
  let s ← get
  let shown := s.bindings.filter fun v => isListed v.2
  for (name, v) in shown.mergeSort fun a b => Text.le a.1 b.1 do
    say (word ++ name ++ (match v.value? with
      | some value => '=' :: inQuotes value
      | none => []) ++ ['\n'])

def set : Command := fun arguments => do
  if arguments.isEmpty then
    listVariables [] fun v => v.value?.isSome
    pure 0
  else
    let settings ← takeOptions false arguments
    match settings.parameters? with
    | some ps => modify fun s => { s with parameters := ps, optionIndex := 1, optionPlace := 0 }
    | none => pure ()
    pure 0

def shift : Command := fun arguments => do
  let count ← match arguments with
    | t :: _ => number t
    | [] => pure 1
  let s ← get
  if s.parameters.length < count then fail "can't shift that many"
  else
    modify fun s => { s with
      parameters := s.parameters.drop count, optionIndex := 1, optionPlace := 0 }
    pure 0

/-- The name and the value in a word of the form `name=value`. -/
def nameAndValue (t : Text) : Text × Option Text :=
  match Text.cut ['='] t with
  | some (name, value) => (name, some value)
  | none => (t, none)

/-- Gives variables a property and perhaps a value. -/
def mark (word : Text) (isMarked : Variable → Bool) (marked : Variable → Variable) : Command :=
  fun arguments => do
    let (given, operands) ← takeLetters "p" arguments
    if isGiven given 'p' || operands.isEmpty then
      listVariables (word ++ [' ']) isMarked
      pure 0
    else
      for operand in operands do
        let (name, value?) := nameAndValue operand
        match value? with
        | some value => assign name value
        | none => if !isName name then fail (name ++ ": bad variable name")
        modify fun s =>
          let v := (s.binding? name).getD ⟨none, false, false⟩
          s.setVariable name (marked v)
      pure 0

def exportCommand : Command := mark "export" (·.isExported) fun v => { v with isExported := true }

def readonlyCommand : Command :=
  mark "readonly" (·.isReadOnly) fun v => { v with isReadOnly := true }

/-- Notes the value of a variable, to be put back when the function returns. -/
def keepVariable (name : Text) : Routine Unit :=
  modify fun s => match s.frames with
    | [] => s
    | frame :: outer =>
        if frame.any (·.1 == name) then s
        else { s with frames := ((name, s.binding? name) :: frame) :: outer }

def localCommand : Command := fun arguments => do
  if (← get).frames.isEmpty then fail "not in a function"
  for argument in arguments do
    let (name, value?) := nameAndValue argument
    if name = ['-'] then
      modify fun s => match s.frames with
        | frame :: outer => { s with
            frames := ((['-'], some ⟨some s.settings, false, false⟩) :: frame) :: outer }
        | [] => s
    else
      keepVariable name
      match value? with
      | some value => assign name value
      | none => if !isName name then fail (name ++ ": bad variable name")
  pure 0

def unset : Command := fun arguments => do
  let (given, operands) ← takeLetters "fv" arguments
  let isFunction := lastOf? given ['f', 'v'] == some 'f'
  for name in operands do
    if isFunction then
      modify fun s => { s with functions := s.functions.filter (·.1 ≠ name) }
    else if (← get).isReadOnly name then fail (name ++ ": is read only")
    else if !isName name then fail (name ++ ": bad variable name")
    else if name = ("OPTIND" : Text) then fail "Illegal number: "
    else modify fun s => s.removeVariable name
  pure 0

/-- The letters of the options of a script, one after another. -/
def getopts : Command := fun arguments => do
  match arguments with
  | letters :: name :: words =>
      let s ← get
      let words := if words.isEmpty then s.parameters else words
      let index := if words.length + 1 < s.optionIndex then 1 else s.optionIndex
      let before := (words[index - 2]?).getD []
      let isInside := 1 < index && s.optionPlace ≠ 0 && s.optionPlace < before.length
      let isQuiet := letters.head? = some ':'
      if isInside then
        letter letters name isQuiet (before.drop s.optionPlace) index words
      else
        match words[index - 1]? with
        | some ['-', '-'] => finish name ['?'] (index + 1) 0 1
        | some ('-' :: c :: rest) =>
            letter letters name isQuiet (c :: rest) (index + 1) words
        | _ => finish name ['?'] index 0 1
  | _ => fail "Usage: getopts optstring var [arg...]"
where
  finish (name value : Text) (index place status : Nat) : Routine Nat := do
    assign "OPTIND" (Text.decimal index)
    modify fun s => { s with optionIndex := index, optionPlace := place }
    assign name value
    pure status
  /-- Takes the next letter of a word; `index` is the number of the word behind it. -/
  letter (letters name : Text) (isQuiet : Bool) (rest : Text) (index : Nat)
      (words : List Text) : Routine Nat := do
    match rest with
    | [] => finish name ['?'] index 0 1
    | c :: rest =>
        let size := ((words[index - 2]?).getD []).length
        let place := if rest.isEmpty then size else size - rest.length
        let known := letters.zipIdx.find? fun k => k.1 == c && c != ':'
        match known with
        | none =>
            if isQuiet then assign "OPTARG" [c]
            else
              complain ("Illegal option -" ++ [c])
              modify fun s => s.removeVariable "OPTARG"
            finish name ['?'] index place 0
        | some (_, at_) =>
            if letters[at_ + 1]? = some ':' then
              if !rest.isEmpty then
                assign "OPTARG" rest
                finish name [c] index 0 0
              else
                match words[index - 1]? with
                | some argument =>
                    assign "OPTARG" argument
                    finish name [c] (index + 1) 0 0
                | none =>
                    if isQuiet then
                      assign "OPTARG" [c]
                      finish name [':'] index 0 0
                    else
                      complain ("No arg for -" ++ [c] ++ " option")
                      modify fun s => s.removeVariable "OPTARG"
                      finish name ['?'] index 0 0
            else
              assign "OPTARG" []
              finish name [c] index place 0

/-- The characters of a line, each with whether it may separate. A backslash takes that from the
character behind it. Says besides whether the line goes on. -/
def unescaped : Text → Marked × Bool
  | [] => ([], false)
  | ['\\'] => ([], true)
  | '\\' :: c :: rest =>
      let (cs, goesOn) := unescaped rest
      ((c, false) :: cs, goesOn)
  | c :: rest =>
      let (cs, goesOn) := unescaped rest
      ((c, true) :: cs, goesOn)

/-- Reads a line, together with those that it goes on in, and whether its end was seen. -/
def wholeLine (isRaw : Bool) : Nat → Marked → Routine (Marked × Bool)
  | 0, read => pure (read, false)
  | fuel + 1, read => do
      match ← Routine.readLine 0 with
      | .error _ => pure (read, false)
      | .ok bytes =>
          let t := (Narrow.ofBytes bytes).filter (· != '\x00')
          let hasEnd := t.getLast? == some '\n'
          let line := if hasEnd then t.dropLast else t
          if isRaw then pure (read ++ line.map (·, true), hasEnd)
          else
            let (cs, goesOn) := unescaped line
            if goesOn && hasEnd then wholeLine isRaw fuel (read ++ cs)
            else pure (read ++ cs, hasEnd)

def readCommand : Command := fun arguments => do
  let (given, names) ← takeLetters "p:r" arguments
  if names.isEmpty then fail "arg count"
  let (line, hasEnd) ← wholeLine (isGiven given 'r') lineLimit []
  let s ← get
  let values := shareOut s.separators names.length line
  for (name, place) in names.zipIdx do
    assign name ((values[place]?).getD [])
  pure (if hasEnd then 0 else 1)

def aliasCommand : Command := fun arguments => do
  if arguments.isEmpty then
    for (name, t) in Shell.inLists Shell.nameLists (← get).aliases do
      say (name ++ '=' :: inQuotes t ++ ['\n'])
    pure 0
  else
    forEach arguments fun argument => do
      match nameAndValue argument with
      | (name, some t) =>
          modify fun s => { s with aliases := Shell.keep name t s.aliases }
          pure 0
      | (name, none) => match (← get).aliases.lookup name with
        | some t =>
            say (name ++ '=' :: inQuotes t ++ ['\n'])
            pure 0
        | none =>
            complain ("alias: " ++ name ++ " not found")
            pure 1

def unaliasCommand : Command := fun arguments => do
  let (given, names) ← takeLetters "a" arguments
  if isGiven given 'a' then
    modify fun s => { s with aliases := [] }
    pure 0
  else
    forEach names fun name => do
      if ((← get).aliases.lookup name).isSome then
        modify fun s => { s with aliases := s.aliases.filter (·.1 ≠ name) }
        pure 0
      else
        complain ("unalias: " ++ name ++ " not found")
        pure 1

end Bytelink.Script.Parameters
