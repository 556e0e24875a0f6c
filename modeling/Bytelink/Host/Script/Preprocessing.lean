import Bytelink.Host.Script.Stream

/-!
# Preparing sources

The first stage of a compiler: it takes comments out, obeys directives, puts the meaning of a name
in its place, and keeps every other token on its line. Names mean what the arguments, the compiler
itself or a directive says; macros with parameters are not known. What is printed begins with lines
that tell where the text comes from, and tells so again wherever more than seven lines are left out.
-/
namespace Bytelink.Script.Preprocessing

open Routine

/-- A character of a source and where it stands. -/
structure Spot where
  char : Char
  line : Nat
  column : Nat
  deriving DecidableEq, Repr

/-- The characters of a text from a line and column on. A line that ends in a backslash goes on. -/
def spots : Nat → Nat → Text → List Spot
  | _, _, [] => []
  | line, _, '\\' :: '\n' :: rest => spots (line + 1) 1 rest
  | line, column, '\x0d' :: '\n' :: rest => ⟨'\n', line, column⟩ :: spots (line + 1) 1 rest
  | line, column, '\n' :: rest => ⟨'\n', line, column⟩ :: spots (line + 1) 1 rest
  | line, column, c :: rest => ⟨c, line, column⟩ :: spots line (column + 1) rest

inductive Kind
  | name
  | number
  | literal
  | mark
  | lineEnd
  deriving DecidableEq, Repr

structure Token where
  kind : Kind
  text : Text
  line : Nat
  column : Nat
  /-- Whether blanks or comments stand in front of it. -/
  isSpaced : Bool
  deriving DecidableEq, Repr

def isBlank (c : Char) : Bool := c == ' ' || c == '\t' || c == '\x0b' || c == '\x0c' || c == '\x00'

def isNameStart (c : Char) : Bool := c.isAlpha || c == '_' || c == '$'

def isNamePart (c : Char) : Bool := isNameStart c || c.isDigit

/-- The end of a number, which may hold signs behind an exponent mark. -/
def numberTail : List Spot → List Spot × List Spot
  | a :: b :: rest =>
      if "eEpP".toList.contains a.char && (b.char == '+' || b.char == '-') then
        let (tail, rest) := numberTail rest
        (a :: b :: tail, rest)
      else if isNamePart a.char || a.char == '.' then
        let (tail, rest) := numberTail (b :: rest)
        (a :: tail, rest)
      else ([], a :: b :: rest)
  | [a] => if isNamePart a.char || a.char == '.' then ([a], []) else ([], [a])
  | [] => ([], [])

/-- A literal up to its closing mark, or the rest of the line if that is missing. -/
def literalTail (mark : Char) : List Spot → List Spot × List Spot
  | [] => ([], [])
  | a :: rest =>
      if a.char = '\n' then ([], a :: rest)
      else if a.char = mark then ([a], rest)
      else match a.char, rest with
        | '\\', b :: rest =>
            if b.char = '\n' then ([a], b :: rest)
            else
              let (tail, rest) := literalTail mark rest
              (a :: b :: tail, rest)
        | _, rest =>
            let (tail, rest) := literalTail mark rest
            (a :: tail, rest)

/-- What stands behind a comment; none if it does not end. -/
def afterComment? : List Spot → Option (List Spot)
  | a :: b :: rest =>
      if a.char = '*' && b.char = '/' then some rest else afterComment? (b :: rest)
  | _ => none

/-- The tokens of a source, or where a comment begins that does not end. Every step takes at least
one character, so the number of characters is enough fuel. -/
def tokens : Nat → Bool → List Spot → Except Spot (List Token)
  | 0, _, _ => .ok []
  | _, _, [] => .ok []
  | fuel + 1, isSpaced, a :: rest =>
      let token (kind : Kind) (tail rest : List Spot) : Except Spot (List Token) :=
        (tokens fuel false rest).map
          (⟨kind, (a :: tail).map (·.char), a.line, a.column, isSpaced⟩ :: ·)
      let next? := (rest.head?).map (·.char)
      if a.char = '\n' then token .lineEnd [] rest
      else if isBlank a.char then tokens fuel true rest
      else if a.char = '/' && next? = some '/' then
        tokens fuel true (rest.dropWhile (·.char != '\n'))
      else if a.char = '/' && next? = some '*' then
        match afterComment? (rest.drop 1) with
        | some rest => tokens fuel true rest
        | none => .error a
      else if a.char = '"' || a.char = '\'' then
        let (tail, rest) := literalTail a.char rest
        token .literal tail rest
      else if isNameStart a.char then
        token .name (rest.takeWhile (isNamePart ·.char)) (rest.dropWhile (isNamePart ·.char))
      else if a.char.isDigit || (a.char = '.' && next?.any Char.isDigit) then
        let (tail, rest) := numberTail rest
        token .number tail rest
      else token .mark [] rest

def tokenLines : List Token → List Token → List (List Token)
  | current, [] => if current.isEmpty then [] else [current.reverse]
  | current, t :: rest =>
      if t.kind = .lineEnd then current.reverse :: tokenLines [] rest
      else tokenLines (t :: current) rest

/-- Tokens as they are quoted in messages and in the meanings of names. -/
def spell : List Token → Text
  | [] => []
  | t :: rest => t.text ++ rest.flatMap fun t => (if t.isSpaced then [' '] else []) ++ t.text

abbrev Meanings := List (Text × List Token)

def Meanings.without (m : Meanings) (name : Text) : Meanings := m.filter (·.1 != name)

/-- The tokens of a text that stands nowhere in a source. -/
def loose (t : Text) : List Token := (tokens (t.length + 1) false (spots 1 1 t)).toOption.getD []

/-- What the compiler itself says of names. -/
def standing : Meanings :=
  ["linux", "unix", "__linux__", "__unix__", "__linux", "__unix", "__x86_64__", "__x86_64",
    "__STDC__"].map fun name => (name.toList, loose ['1'])

/-- Tokens with the meanings of names in their place; a name within its own meaning stays. The depth
of meanings within meanings is limited by the number of names that are left. -/
def expand (file : Text) (line : Nat) : Nat → Meanings → Token → List Token
  | 0, _, t => [t]
  | fuel + 1, m, t =>
      if t.kind != .name then [t]
      else if t.text = ("__LINE__" : Text) then
        [{ t with kind := .number, text := Text.decimal line }]
      else if t.text = ("__FILE__" : Text) then
        [{ t with kind := .literal, text := '"' :: file ++ ['"'] }]
      else match m.lookup t.text with
        | none => [t]
        | some body =>
            match body.flatMap (expand file line fuel (m.without t.text)) with
            | [] => []
            | first :: rest => { first with isSpaced := t.isSpaced } :: rest

/-- Whether two tokens would be read as one if nothing stood between them. -/
def wouldJoin (a b : Token) : Bool :=
  match a.kind, b.kind with
  | .name, .name => true
  | .name, .number => true
  | .number, .name => true
  | .number, .number => true
  | .number, .mark => ["+", "-", "."].any (·.toList == b.text)
  | .mark, .mark => a.text == b.text && ["+", "-", "<", ">", "&", "|", "#", "="].any
      (·.toList == b.text)
  | _, _ => false

/-- What is printed so far, the newest first, and the line of the source that it has come to. -/
structure Page where
  file : Text
  printed : List Text
  line : Nat
  isInside : Bool

namespace Page

def put (p : Page) (t : Text) : Page := { p with printed := t :: p.printed }

/-- Goes on to a line of the source. -/
def goTo (p : Page) (line : Nat) : Page :=
  let p := if p.isInside then { p.put ['\n'] with line := p.line + 1, isInside := false } else p
  if line < p.line || p.line + 8 ≤ line then
    { p.put ("# " ++ Text.decimal line ++ " \"" ++ p.file ++ "\"\n") with line := line }
  else { p.put (List.replicate (line - p.line) '\n') with line := line }

def begin (p : Page) (t : Token) : Page :=
  { (p.goTo t.line).put (List.replicate (t.column - 2) ' ') with isInside := true }

def putLine (p : Page) (m : Meanings) (line : List Token) : Page :=
  match line with
  | [] => p
  | first :: _ => go (p.begin first) none line
where
  go (p : Page) (before? : Option (Token × Bool)) : List Token → Page
    | [] => p
    | t :: rest =>
        let p := if p.line < t.line then p.begin t else p
        let meaning := expand p.file t.line (m.length + 1) m t
        let isNew := meaning != [t]
        let (p, before?) := meaning.foldl (fun (p, before?) u =>
          let isApart := u.isSpaced || match before? with
            | some (before, wasNew) => (isNew || wasNew) && wouldJoin before u
            | none => false
          (p.put ((if isApart then [' '] else []) ++ u.text), some (u, isNew))) (p, before?)
        go p before? rest

end Page

/-- Where the preparation of a source has come to. -/
structure State where
  meanings : Meanings
  page : Page
  /-- For each condition that is open: whether its part is taken, and whether any part was. -/
  conditions : List (Bool × Bool)
  messages : List Text
  failures : Nat

namespace State

def isTaken (s : State) : Bool := s.conditions.all (·.1)

end State

/-- A line from a column on, with blanks up to the next multiple of eight for every tab. -/
def spread (column : Nat) : Text → Text
  | [] => []
  | '\t' :: rest => List.replicate (8 - column % 8) ' ' ++ spread (column + (8 - column % 8)) rest
  | c :: rest => c :: spread (column + 1) rest

/-- A message about a place in a source, with the line and marks under it. -/
def diagnose (file source : Text) (t : Token) (text : Text) : Text :=
  let lines := (wholeLines source).1
  let line := (lines[t.line - 1]?).getD []
  let shown := spread 0 line
  let place := (spread 0 (line.take (t.column - 1))).length
  let number := Text.decimal t.line
  file ++ ":" ++ number ++ ":" ++ Text.decimal (place + 1) ++ ": " ++ text ++ "\n" ++
    List.replicate (5 - number.length) ' ' ++ number ++ " | " ++ shown ++ "\n      | " ++
    List.replicate place ' ' ++ "^" ++ List.replicate (t.text.length - 1) '~'

/-- Whether the condition of a directive holds: a number that is not zero, or a name that is known.
-/
def holds (m : Meanings) : List Token → Bool
  | [t] =>
      match expand [] 0 (m.length + 1) m t with
      | [u] => u.kind == .number && u.text.any (fun c => '1' ≤ c && c ≤ '9')
      | _ => false
  | t :: rest =>
      if t.text = ['!'] then !holds m rest
      else if t.text = ("defined" : Text) then
        rest.any fun u => u.kind == .name && (m.lookup u.text).isSome
      else false
  | [] => false

/-- Obeys a directive: what stands behind the mark, its name first. -/
def obey (file source : Text) (s : State) (line : List Token) : State :=
  match line with
  | [] => s
  | name :: rest =>
      let known (t : List Token) : Bool := t.any fun u => (s.meanings.lookup u.text).isSome
      let open_ (isTrue : Bool) : State :=
        { s with conditions := (s.isTaken && isTrue, !s.isTaken || isTrue) :: s.conditions }
      let tell (text : Text) (failures : Nat) : State :=
        { s with
          messages := diagnose file source name text :: s.messages
          failures := s.failures + failures }
      match String.ofList name.text, s.conditions with
      | "ifdef", _ => open_ (known (rest.take 1))
      | "ifndef", _ => open_ (!known (rest.take 1))
      | "if", _ => open_ (holds s.meanings rest)
      | "elif", (_, hadOne) :: outer =>
          let isTrue := !hadOne && holds s.meanings rest
          { s with conditions := (isTrue, hadOne || isTrue) :: outer }
      | "else", (_, hadOne) :: outer => { s with conditions := (!hadOne, true) :: outer }
      | "endif", _ :: outer => { s with conditions := outer }
      | directive, conditions =>
          if !s.isTaken then s
          else match directive, rest with
            | "define", macroName :: body =>
                { s with
                  meanings := (macroName.text, body) :: s.meanings.without macroName.text }
            | "undef", macroName :: _ => { s with meanings := s.meanings.without macroName.text }
            | "error", _ => tell ("error: #error " ++ spell rest) 1
            | "warning", _ => tell ("warning: #warning " ++ spell rest ++ " [-Wcpp]") 0
            | "pragma", _ =>
                let page := s.page.goTo name.line
                { s with page := { page.put ('#' :: spell (name :: rest)) with isInside := true } }
            | "ident", _ => s
            | "line", _ => s
            | _, _ =>
                if name.kind = .number then s
                else if conditions.isEmpty &&
                    ["elif", "else", "endif"].any (·.toList == name.text) then
                  tell ("error: #" ++ name.text ++ " without #if") 1
                else tell ("error: invalid preprocessing directive #" ++ name.text) 1

def takeLines (file source : Text) : State → List (List Token) → State
  | s, [] => s
  | s, line :: rest =>
      let s := match line with
        | t :: directive =>
            if t.kind = .mark && t.text = ['#'] then obey file source s directive
            else if s.isTaken then { s with page := s.page.putLine s.meanings line }
            else s
        | [] => s
      takeLines file source s rest

/-- What a source becomes, or the messages about it. -/
def prepare (file : Text) (meanings : Meanings) (source : Text) : Except (List Text) Text :=
  match tokens (source.length + 1) false (spots 1 1 source) with
  | .error a =>
      .error [diagnose file source ⟨.mark, ['/'], a.line, a.column, false⟩
        "error: unterminated comment"]
  | .ok ts =>
      let s := takeLines file source ⟨meanings, ⟨file, [], 1, false⟩, [], [], 0⟩ (tokenLines [] ts)
      if s.failures = 0 then
        let page := if s.page.isInside then s.page.put ['\n'] else s.page
        .ok (front ++ page.printed.reverse.flatten)
      else .error s.messages.reverse
where
  front : Text :=
    let names (name : Text) : Text := " \"" ++ name ++ "\""
    "# 0" ++ names file ++ "\n# 0" ++ names "<built-in>" ++ "\n# 0" ++ names "<command-line>" ++
      "\n# 1" ++ names "/usr/include/stdc-predef.h" ++ " 1 3 4\n# 0" ++ names "<command-line>" ++
      " 2\n# 1" ++ names file ++ "\n"

/-- The arguments of a compiler: names with their meanings, where the output goes, and sources. -/
def readArguments : List Text → Meanings × Option Text × List Text
  | [] => ([], none, [])
  | ['-', 'o'] :: output :: rest =>
      let (m, output?, sources) := readArguments rest
      (m, output?.or (some output), sources)
  | ('-' :: 'D' :: setting) :: rest =>
      let (m, others) := readArguments rest
      let name := setting.takeWhile (· != '=')
      let value : Text := if name = setting then ['1'] else setting.drop (name.length + 1)
      (m ++ [(name, loose value)], others)
  | ('-' :: _) :: rest => readArguments rest
  | source :: rest =>
      let (m, output?, sources) := readArguments rest
      (m, output?, source :: sources)

/-- The first stage of a compiler. -/
def compile : Command := fun arguments => do
  let (given, output?, sources) := readArguments arguments
  let stop (who text : Text) : Routine Nat := do
    complain (who ++ ": fatal error: " ++ text ++ "\ncompilation terminated.")
    pure 1
  match sources with
  | [] => stop (← get).name "no input files"
  | source :: _ =>
      match ← load source with
      | .error e => stop "cc1" (source ++ ": " ++ reason e)
      | .ok content =>
          match prepare source (given ++ standing) (Narrow.ofBytes content) with
          | .error messages =>
              for m in messages do complain m
              pure 1
          | .ok prepared =>
              match output? with
              | none =>
                  say prepared
                  pure 0
              | some output =>
                  match ← openFile output .writing with
                  | .error e => stop "cc1" ("opening output file " ++ output ++ ": " ++ reason e)
                  | .ok descriptor =>
                      let _ ← write descriptor (Narrow.toBytes prepared)
                      close descriptor
                      pure 0

end Bytelink.Script.Preprocessing
