import Bytelink.Host.Script.Grammar
import Bytelink.Text.Numeral

/-!
# The text of a script

A script is read character by character. A backslash in front of a line end joins two lines; such
pairs vanish wherever a character is looked at, except between single quotes. Text documents begin
behind the end of the line on which they are announced; a script refers to them by number. What
cannot be read is refused with the line that has been reached.
-/
namespace Bytelink.Script

structure Document where
  number : Nat
  mark : Text
  stripsTabs : Bool
  isQuoted : Bool
  deriving DecidableEq, Repr

/-- An other name whose text is being read. -/
structure Expanding where
  name : Text
  /-- How much of the script is left behind the text. -/
  behind : Nat
  /-- Whether the text ends in a blank, so that the word behind it may be an other name too. -/
  opensNext : Bool
  deriving DecidableEq, Repr

/-- What is left of a script, and the line on which it begins. -/
structure Source where
  rest : Text
  line : Nat
  /-- The documents that begin behind the next line end. -/
  pending : List Document
  /-- The document that is being read. -/
  document? : Option Document
  /-- The documents that have been read, by number, and how many numbers are in use. -/
  documents : List (Nat × Word)
  documentCount : Nat
  /-- Other names for commands. -/
  aliases : List (Text × Text)
  expanding : List Expanding
  /-- Whether the end of the text has been seen. -/
  isExhausted : Bool

/-- Why a script cannot be read. -/
inductive Problem
  | unexpected (found : Text) (expected? : Option Text)
  | openQuotes
  | openBrace
  | openArithmetic
  | openBackQuote
  | badLoopVariable
  | badFunctionName
  | badDescriptor
  deriving DecidableEq, Repr

/-- Whether what is missing could follow. -/
def Problem.isAtEnd : Problem → Bool
  | unexpected found _ => found == endOfFile
  | openQuotes => true
  | openBrace => true
  | openArithmetic => true
  | openBackQuote => true
  | _ => false
where
  endOfFile : Text := "end of file"

/-- Whether the line that cannot be read is the one in front of the line that has been reached. -/
def Problem.isAtLineEnd : Problem → Bool
  | unexpected found _ => found == lineEnd
  | _ => false
where
  lineEnd : Text := "newline"

structure Refused where
  line : Nat
  problem : Problem
  deriving DecidableEq, Repr

def Problem.message : Problem → Text
  | unexpected found expected? =>
      "Syntax error: " ++ found ++ " unexpected" ++
        (match expected? with
          | some word => " (expecting " ++ word ++ ")"
          | none => [])
  | openQuotes => "Syntax error: Unterminated quoted string"
  | openBrace => "Syntax error: Missing '\x7d'"
  | openArithmetic => "Syntax error: Missing '))'"
  | openBackQuote => "Syntax error: EOF in backquote substitution"
  | badLoopVariable => "Syntax error: Bad for loop variable"
  | badFunctionName => "Syntax error: Bad function name"
  | badDescriptor => "Syntax error: Bad fd number"

abbrev Reading (α : Type) := StateT Source (Except Refused) α

namespace Source

def ofText (t : Text) : Source := ⟨t, 1, [], none, [], 0, [], [], false⟩

/-- Steps over one character. -/
def drop (s : Source) : Source :=
  match s.rest with
  | '\n' :: rest => { s with rest := rest, line := s.line + 1 }
  | _ :: rest => { s with rest := rest }
  | [] => s

/-- A text without the pairs of a backslash and a line end at its front, and the number of the line
on which it begins. -/
def joined : Text → Nat → Text × Nat
  | '\\' :: '\n' :: rest, line => joined rest (line + 1)
  | t, line => (t, line)

/-- The text of an other name that is not being read already. -/
def alias? (s : Source) (name : Text) : Option Text :=
  let left := s.rest.length
  let isExpanding := s.expanding.any fun e => e.name == name && e.behind ≤ left
  if isExpanding then none else s.aliases.lookup name

/-- Puts the text of an other name in its place. -/
def expand (s : Source) (name value : Text) : Source :=
  let left := s.rest.length
  let opensNext := value.getLast? == some ' ' || value.getLast? == some '\t'
  if value.isEmpty then s
  else { s with
    rest := value ++ s.rest
    expanding := ⟨name, left, opensNext⟩ :: s.expanding.filter (·.behind ≤ left) }

/-- Whether the end of a text that ends in a blank lies in a gap that has been stepped over. -/
def isOpened (before after : Source) : Bool :=
  let left := after.rest.length
  before.expanding.any fun e =>
    e.opensNext && left ≤ e.behind && e.behind < before.rest.length

end Source

namespace Reading

def refuse {α : Type} (problem : Problem) : Reading α := do
  throw ⟨(← get).line, problem⟩

/-- Notes that the end of the text has been seen. -/
def exhaust : Reading Unit := modify fun s => { s with isExhausted := true }

/-- The next character, which stays. -/
def peek : Reading (Option Char) := do
  let s ← get
  match s.rest with
  | '\\' :: '\n' :: _ =>
      let (rest, line) := Source.joined s.rest s.line
      set { s with rest := rest, line := line }
      if rest.isEmpty then exhaust
      pure rest.head?
  | c :: _ => pure (some c)
  | [] =>
      exhaust
      pure none

def skip : Reading Unit := modify Source.drop

/-- The next character, without regard to line joins. -/
def take : Reading (Option Char) := do
  let s ← get
  if s.rest.isEmpty then exhaust else set s.drop
  pure s.rest.head?

/-- Takes the next character if it is the given one. -/
def accept (c : Char) : Reading Bool := do
  if (← peek) == some c then
    skip
    pure true
  else pure false

/-- Takes characters of a class, at most `limit` of them. -/
def takeWhile (isIn : Char → Bool) : Nat → Reading Text
  | 0 => pure []
  | limit + 1 => do
      match ← peek with
      | some c =>
          if isIn c then
            skip
            return c :: (← takeWhile isIn limit)
          else pure []
      | none => pure []

def takeThrough (mark : Char) (problem : Problem) : Nat → Text → Reading Text
  | 0, _ => refuse problem
  | fuel + 1, inside => do
      match ← take with
      | some c =>
          if c = mark then pure inside.reverse else takeThrough mark problem fuel (c :: inside)
      | none => refuse problem

/-- More characters than any script has. -/
def steps : Nat := 1000000000

/-- Steps over blanks and a comment. -/
def skipGap : Nat → Reading Unit
  | 0 => pure ()
  | limit + 1 => do
      match ← peek with
      | some c =>
          if c = ' ' || c = '\t' then
            skip
            skipGap limit
          else if c = '#' then
            modify fun s => { s with rest := s.rest.dropWhile (· != '\n') }
            skipGap limit
          else pure ()
      | none => pure ()

end Reading

def isNameStart (c : Char) : Bool := c.isAlpha || c == '_'

def isNameChar (c : Char) : Bool := c.isAlphanum || c == '_'

def isName (t : Text) : Bool := t.head?.any isNameStart && t.all isNameChar

/-- Parameters whose name is a single mark. -/
def isSpecialName (c : Char) : Bool :=
  c.isDigit || (['@', '*', '#', '?', '$', '!', '-'] : Text).contains c

def endsWord (c : Char) : Bool :=
  c == ' ' || c == '\t' || c == '\n' || (['|', '&', ';', '<', '>', '(', ')'] : Text).contains c

def addPlain (c : Char) : Word → Word
  | .plain t :: pieces => .plain (t ++ [c]) :: pieces
  | pieces => .plain [c] :: pieces

def addQuoted (c : Char) : Word → Word
  | .quoted t :: pieces => .quoted (t ++ [c]) :: pieces
  | pieces => .quoted [c] :: pieces

def addChar (isQuoted : Bool) (c : Char) (w : Word) : Word :=
  if isQuoted then addQuoted c w else addPlain c w

/-- The text of a word that is written without quotes and expansions. -/
def bare? : Word → Option Text
  | [.plain t] => some t
  | _ => none

def literalText (w : Word) : Text :=
  w.flatMap fun
    | .plain t => t
    | .quoted t => t
    | _ => []

/-- A word of the form `name=value`, taken apart. -/
def assignment? : Word → Option (Text × Word)
  | .plain t :: pieces =>
      let name := t.takeWhile (· != '=')
      match t.drop name.length with
      | '=' :: value =>
          if isName name then
            some (name, if value.isEmpty then pieces else .plain value :: pieces)
          else none
      | _ => none
  | _ => none

/-- A token. For a word it is known whether any of it was quoted; a redirection lacks its word. -/
inductive Token
  | word (word : Word) (isQuoted : Bool)
  | redirect (descriptor? : Option Nat) (operator : Text)
  | operator (text : Text)
  | newline
  | finish

def reservedWords : List String :=
  ["if", "then", "elif", "else", "fi", "while", "until", "for", "do", "done", "case", "esac",
    "in", "\x7b", "\x7d", "!"]

def closingWords : List String :=
  ["then", "elif", "else", "fi", "do", "done", "esac", "\x7d"]

def isOneOf (words : List String) (t : Text) : Bool := words.any (·.toList == t)

def Token.keyword? : Token → Option Text
  | .word w false => (bare? w).filter (isOneOf reservedWords)
  | _ => none

/-- How messages name a token. -/
def Token.describe (mayBeKeyword : Bool) (t : Token) : Text :=
  let inQuotes (text : Text) : Text := '"' :: text ++ ['"']
  match t with
  | .operator text => inQuotes text
  | .redirect .. => "redirection"
  | .newline => "newline"
  | .finish => "end of file"
  | .word .. => match t.keyword? with
    | some reserved => if mayBeKeyword then inQuotes reserved else "word"
    | none => "word"

/-- Whether a token ends a list of commands that stands inside something. -/
def Token.isClosing (t : Token) : Bool :=
  match t with
  | .finish => true
  | .operator text => text == [')'] || text == [';', ';']
  | _ => t.keyword?.any (isOneOf closingWords)

/-- What follows a line that consists of a mark, if the text begins with one. -/
def behindMark? (mark : Text) (t : Text) : Option Text :=
  if !mark.isPrefixOf t then none
  else match t.drop mark.length with
    | [] => some []
    | '\n' :: rest => some rest
    | _ => none

/-- The lines up to one that consists of the mark, each with its line end, and what follows; nothing
follows if there is no such line. -/
def documentLines (d : Document) : Nat → Text → List Text × Option Text
  | 0, _ => ([], none)
  | _ + 1, [] => ([], none)
  | fuel + 1, t =>
      let t := if d.stripsTabs then t.dropWhile (· == '\t') else t
      match behindMark? d.mark t with
      | some rest => ([], some rest)
      | none =>
          let line := t.takeWhile (· != '\n')
          let (lines, rest?) := documentLines d fuel (t.drop (line.length + 1))
          ((line ++ (t.drop line.length).take 1) :: lines, rest?)

namespace Reading

/-- Takes the lines of a document in which nothing is expanded, and its mark. -/
def quotedDocument (d : Document) : Reading Text := do
  let s ← get
  let (lines, rest?) := documentLines d steps s.rest
  let taken := s.rest.length - (rest?.getD []).length
  let count := (s.rest.take taken).count '\n'
  set { s with
    rest := rest?.getD [], line := s.line + count, isExhausted := s.isExhausted || rest?.isNone }
  pure lines.flatten

/-- Whether the document that is being read ends with the line that begins here, which is taken
then. -/
def endsDocument : Reading Bool := do
  let s ← get
  match s.document? with
  | none => pure false
  | some d =>
      let (t, line) := Source.joined s.rest s.line
      let t := if d.stripsTabs then t.dropWhile (· == '\t') else t
      match behindMark? d.mark t with
      | some rest =>
          set { s with rest := rest, line := line + 1, document? := none }
          pure true
      | none =>
          set { s with rest := t, line := line }
          pure false

/-- Puts a document in the line of those that begin behind the next line end, and gives it a
number. -/
def announce (mark : Text) (stripsTabs isQuoted : Bool) : Reading Nat := do
  let s ← get
  let number := s.documentCount
  let document : Document := ⟨number, mark, stripsTabs, isQuoted⟩
  set { s with documentCount := number + 1, pending := s.pending ++ [document] }
  pure number

end Reading

end Bytelink.Script
