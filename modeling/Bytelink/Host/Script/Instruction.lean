import Bytelink.Host.Script.Regex

/-!
# Editing instructions

The instructions by which lines are edited, and how they are read. An instruction has up to two
addresses that say for which lines it is meant. Blocks and labels are places in the list of
instructions. A fault in an instruction is told with the place at which it was noticed.
-/
namespace Bytelink.Script

/-- A regular expression with its modifiers. -/
structure Expression where
  regex : Regex
  ignoresCase : Bool
  hasLines : Bool
  deriving DecidableEq, Repr

/-- A single line, or each line of a kind. -/
inductive Spot
  | line (number : Nat)
  | stepped (first step : Nat)
  | last
  /-- A line that matches; the last expression that was used if none is given. -/
  | matching (expression? : Option Expression)
  deriving DecidableEq, Repr

inductive RangeEnd
  | spot (s : Spot)
  | after (count : Nat)
  | multiple (factor : Nat)
  deriving DecidableEq, Repr

/-- The lines that an instruction is meant for: all if there is no address. -/
structure Selector where
  start? : Option Spot
  stop? : Option RangeEnd
  isNegated : Bool
  deriving DecidableEq, Repr

inductive ReplacementPart
  | text (t : Text)
  | group (number : Nat)
  /-- Changes the case of what follows, up to the next such part. -/
  | casing (casing? : Option Text.Casing)
  /-- Changes the case of the next character. -/
  | nextCasing (casing : Text.Casing)
  deriving DecidableEq, Repr

structure Replacing where
  expression? : Option Expression
  parts : List ReplacementPart
  isGlobal : Bool
  /-- Which of several matches is the first to be replaced, counted from one. -/
  number : Nat
  prints : Bool
  executes : Bool
  output? : Option Text
  deriving DecidableEq, Repr

inductive JumpKind
  | always
  | ifReplaced
  | unlessReplaced
  deriving DecidableEq, Repr

/-- What an instruction does. -/
inductive Action
  /-- Begins a block; `stop` is the place of its end. -/
  | openBlock (stop : Nat)
  | closeBlock
  | label
  | jump (kind : JumpKind) (label : Text)
  | replace (r : Replacing)
  | translate (pairs : List (Char × Char))
  | append (t : Text)
  | insert (t : Text)
  | change (t : Text)
  | delete
  | deleteFirst
  | print
  | printFirst
  | next
  | joinNext
  | hold
  | holdMore
  | fetch
  | fetchMore
  | exchange
  | number
  | list (width? : Option Nat)
  | name
  | empty
  | quit (status : Nat)
  | quitSilent (status : Nat)
  | appendFile (path : Text)
  | appendLine (path : Text)
  | write (path : Text)
  | writeFirst (path : Text)
  | execute (command : Text)
  deriving DecidableEq, Repr

structure Instruction where
  selector : Selector
  action : Action
  deriving DecidableEq, Repr

structure EditScript where
  instructions : Array Instruction
  labels : List (Text × Nat)
  /-- Whether the script asks for lines to be printed only on demand. -/
  isSilent : Bool

inductive EditFault
  | unexpectedComma
  | badFirstAddress
  | badLineZero
  | severalBangs
  | commentAddress
  | unexpectedClose
  | closeAddress
  | labelAddress
  | labelMissing
  | textMissing
  | oneAddress
  | pathMissing
  | openReplacing
  | openTranslation
  | openAddress
  | severalPrints
  | severalGlobals
  | severalNumbers
  | numberZero
  | unknownOption
  | badReference (number : Nat)
  | unequalLengths
  | commandMissing
  | unknownCommand (c : Char)
  | excess
  | openBlock
  | regex (fault : RegexFault)
  deriving DecidableEq, Repr

def EditFault.message : EditFault → Text
  | unexpectedComma => "unexpected \x60,'"
  | badFirstAddress => "invalid usage of +N or ~N as first address"
  | badLineZero => "invalid usage of line address 0"
  | severalBangs => "multiple \x60!'s"
  | commentAddress => "comments don't accept any addresses"
  | unexpectedClose => "unexpected \x60\x7d'"
  | closeAddress => "\x7d doesn't want any addresses"
  | labelAddress => ": doesn't want any addresses"
  | labelMissing => "\":\" lacks a label"
  | textMissing => "expected \\ after \x60a', \x60c' or \x60i'"
  | oneAddress => "command only uses one address"
  | pathMissing => "missing filename in r/R/w/W commands"
  | openReplacing => "unterminated \x60s' command"
  | openTranslation => "unterminated \x60y' command"
  | openAddress => "unterminated address regex"
  | severalPrints => "multiple \x60p' options to \x60s' command"
  | severalGlobals => "multiple \x60g' options to \x60s' command"
  | severalNumbers => "multiple number options to \x60s' command"
  | numberZero => "number option to \x60s' command may not be zero"
  | unknownOption => "unknown option to \x60s'"
  | badReference number =>
      "invalid reference \\" ++ Text.decimal number ++ " on \x60s' command's RHS"
  | unequalLengths => "strings for \x60y' command are different lengths"
  | commandMissing => "missing command"
  | unknownCommand c => "unknown command: \x60" ++ c :: ['\'']
  | excess => "extra characters after command"
  | openBlock => "unmatched \x60\x7b'"
  | regex fault => fault.message

/-- Where a part of an editing script comes from. -/
inductive EditSource
  | expression (number : Nat)
  | file (path : Text)
  deriving DecidableEq, Repr

/-- How far a script has been read. -/
structure EditCursor where
  rest : Text
  /-- How many characters of the part, and how many of its lines, have been read. -/
  place : Nat
  lines : Nat
  source : EditSource
  isFirst : Bool
  later : List (EditSource × Text)
  isExtended : Bool
  /-- Whether characters are wide. -/
  isWide : Bool

namespace EditCursor

/-- A message about a place in a script. -/
def locate (c : EditCursor) (message : Text) : Text :=
  match c.source with
  | .expression number =>
      "-e expression #" ++ Text.decimal number ++ ", char " ++ Text.decimal c.place ++ ": " ++
        message
  | .file path => "file " ++ path ++ " line " ++ Text.decimal (c.lines + 1) ++ ": " ++ message

end EditCursor

/-- Reads a script, or says with its place what is wrong. -/
abbrev EditReading := StateT EditCursor (Except Text)

namespace EditReading

variable {α : Type}

def fault (f : EditFault) : EditReading α := do throw ((← get).locate f.message)

def next : EditReading (Option Char) := do
  let c ← get
  match c.rest with
  | [] => pure none
  | x :: rest =>
      set { c with
        rest := rest, place := c.place + 1
        lines := if x = '\n' then c.lines + 1 else c.lines }
      pure (some x)

def back (x? : Option Char) : EditReading Unit :=
  match x? with
  | none => pure ()
  | some x => modify fun c => { c with
      rest := x :: c.rest, place := c.place - 1
      lines := if x = '\n' then c.lines - 1 else c.lines }

/-- Takes characters of a kind. -/
def takeAll (isIn : Char → Bool) : EditReading Text := do
  let c ← get
  let taken := c.rest.takeWhile isIn
  set { c with
    rest := c.rest.drop taken.length, place := c.place + taken.length
    lines := c.lines + taken.count '\n' }
  pure taken

def skipBlanks : EditReading Unit := do
  let _ ← takeAll fun x => x == ' ' || x == '\t'

def nextSolid : EditReading (Option Char) := do
  skipBlanks
  next

def number (digit : Char) : EditReading Nat := do
  return Text.valueIn 10 (digit :: (← takeAll Char.isDigit))

def numberNext : EditReading Nat := do
  match ← nextSolid with
  | some x => if x.isDigit then number x else do
      back (some x)
      pure 0
  | none => pure 0

def endCommand : EditReading Unit := do
  match ← nextSolid with
  | none => pure ()
  | some x =>
      if x = '\x7d' || x = '#' then back (some x)
      else if x = '\n' || x = ';' then pure ()
      else fault .excess

/-- What stands between brackets, from behind the first of them up to and with the last. -/
def bracketed? : Text → Option Text
  | t =>
      let (head, t) : Text × Text := match t with
        | '^' :: ']' :: rest => (['^', ']'], rest)
        | ']' :: rest => ([']'], rest)
        | t => ([], t)
      (go (t.length + 1) t).map (head ++ ·)
where
  go : Nat → Text → Option Text
    | 0, _ => none
    | fuel + 1, t => match t with
      | [] => none
      | ']' :: _ => some [']']
      | '\n' :: _ => none
      | '[' :: mark :: rest =>
          if mark = ':' || mark = '.' || mark = '=' then
            (inner fuel mark rest).bind fun (t, rest) =>
              (go fuel rest).map fun more => '[' :: mark :: t ++ more
          else (go fuel (mark :: rest)).map ('[' :: ·)
      | x :: rest => (go fuel rest).map (x :: ·)
  inner : Nat → Char → Text → Option (Text × Text)
    | 0, _, _ => none
    | fuel + 1, mark, t => match t with
      | [] => none
      | '\n' :: _ => none
      | x :: ']' :: rest =>
          if x = mark then some ([x, ']'], rest)
          else (inner fuel mark (']' :: rest)).map fun (t, rest) => (x :: t, rest)
      | x :: rest => (inner fuel mark rest).map fun (t, rest) => (x :: t, rest)

/-- Takes what stands in front of a mark. In an expression brackets hide the mark, and a line feed
may be written as an escape. -/
def delimited (mark : Char) (isExpression : Bool) : Nat → Text → EditReading (Option Text)
  | 0, _ => pure none
  | fuel + 1, taken => do
      match ← next with
      | none => pure none
      | some '\n' =>
          back (some '\n')
          pure none
      | some '\\' =>
          if mark = '\\' then pure (some taken.reverse)
          else match ← next with
            | none => pure none
            | some x =>
                if x = mark && !(!isExpression && x == '&') then
                  delimited mark isExpression fuel (x :: taken)
                else if x = 'n' && isExpression then
                  delimited mark isExpression fuel ('\n' :: taken)
                else if x = '\n' && isExpression then
                  delimited mark isExpression fuel ('\n' :: taken)
                else delimited mark isExpression fuel (x :: '\\' :: taken)
      | some x =>
          if x = mark then pure (some taken.reverse)
          else if x = '[' && isExpression then
            match bracketed? (← get).rest with
            | none => do
                let _ ← takeAll (· != '\n')
                pure none
            | some inside =>
                modify fun c => { c with
                  rest := c.rest.drop inside.length, place := c.place + inside.length }
                delimited mark isExpression fuel
                  ((Text.replaceAll ['\\', 'n'] ['\n'] inside).reverse ++ '[' :: taken)
          else delimited mark isExpression fuel (x :: taken)

def delimitedBy (mark : Char) (isExpression : Bool) : EditReading (Option Text) := do
  delimited mark isExpression ((← get).rest.length + 1) []

def codeOf (base count : Nat) (isIn : Char → Bool) (t : Text) : Option (Char × Text) :=
  let digits := (t.take count).takeWhile isIn
  let value (c : Char) : Nat := if c.isDigit then Text.digitValue c else c.toLower.toNat - 87
  if digits.isEmpty then none
  else some (Char.ofNat (digits.foldl (fun n c => base * n + value c) 0 % 256),
    t.drop digits.length)

/-- The character that an escape stands for, given what follows the backslash. -/
def escape? : Text → Option (Char × Text)
  | 'a' :: rest => some ('\x07', rest)
  | 'f' :: rest => some ('\x0c', rest)
  | 'n' :: rest => some ('\n', rest)
  | 'r' :: rest => some ('\x0d', rest)
  | 't' :: rest => some ('\t', rest)
  | 'v' :: rest => some ('\x0b', rest)
  | 'c' :: c :: rest => some (Char.ofNat (c.toUpper.toNat ^^^ 64), rest)
  | 'd' :: rest => codeOf 10 3 Char.isDigit rest
  | 'o' :: rest => codeOf 8 3 Text.isOctalDigit rest
  | 'x' :: rest =>
      codeOf 16 2 (fun c => c.isDigit || (['a', 'b', 'c', 'd', 'e', 'f'] : Text).contains c.toLower)
        rest
  | _ => none

/-- An expression in which characters are written out that were given by escapes. -/
def plainExpression : Nat → Text → Text
  | 0, t => t
  | fuel + 1, t => match t with
    | '\\' :: rest =>
        match escape? rest, rest with
        | some (c, rest), _ =>
            let special : Text := ['$', '*', '.', '[', '\\', ']', '^']
            (if special.contains c then ['\\', c] else [c]) ++ plainExpression fuel rest
        | none, x :: rest => '\\' :: x :: plainExpression fuel rest
        | none, [] => ['\\']
    | x :: rest => x :: plainExpression fuel rest
    | [] => []

/-- Reads an expression; an empty one stands for the last that was used. The number of its groups
comes with it. -/
def expression (t : Text) (ignoresCase hasLines : Bool) :
    EditReading (Option Expression × Nat) := do
  if t.isEmpty then pure (none, 9)
  else
    let c ← get
    match Regex.read ⟨c.isExtended, false⟩ (Wide.seen c.isWide (plainExpression t.length t)) with
    | .error f => fault (.regex f)
    | .ok compiled => pure (some ⟨compiled.regex, ignoresCase, hasLines⟩, compiled.groups)

def spot? (x? : Option Char) : EditReading (Option Spot) := do
  match x? with
  | some '$' => pure (some .last)
  | some x =>
      if x = '/' || x = '\\' then
        let mark? ← if x = '\\' then next else pure (some x)
        match ← delimitedBy (mark?.getD '/') true with
        | none => fault .openAddress
        | some t =>
            let flags ← flags ((← get).rest.length + 1)
            let (e?, _) ← expression t (flags.contains 'I') (flags.contains 'M')
            pure (some (.matching e?))
      else if x.isDigit then
        let first ← number x
        match ← nextSolid with
        | some '~' =>
            let step ← numberNext
            pure (some (if step = 0 then .line first else .stepped first step))
        | x? =>
            back x?
            pure (some (.line first))
      else pure none
  | none => pure none
where
  flags : Nat → EditReading Text
    | 0 => pure []
    | fuel + 1 => do
        match ← nextSolid with
        | some 'I' => return 'I' :: (← flags fuel)
        | some 'M' => return 'M' :: (← flags fuel)
        | x? =>
            back x?
            pure []

def rangeEnd? (x? : Option Char) : EditReading (Option RangeEnd) := do
  match x? with
  | some '+' => return some (.after (← numberNext))
  | some '~' =>
      let n ← numberNext
      return some (if n = 0 then .after 0 else .multiple n)
  | x? => return (← spot? x?).map .spot

/-- The addresses in front of a command, and the character behind them. -/
def selector (x? : Option Char) : EditReading (Selector × Option Char) := do
  if x? = some '+' || x? = some '~' then
    let _ ← numberNext
    fault .badFirstAddress
  let start? ← spot? x?
  let x? ← if start?.isSome then nextSolid else pure x?
  let (stop?, x?) ←
    if start?.isSome && x? == some ',' then do
      match ← rangeEnd? (← nextSolid) with
      | none => fault .unexpectedComma
      | some stop => pure (some stop, ← nextSolid)
    else pure (none, x?)
  let isZeroFine := match stop? with
    | some (.spot (.matching _)) => true
    | _ => false
  if start? == some (.line 0) && !isZeroFine then fault .badLineZero
  if x? = some '!' then
    let x? ← nextSolid
    if x? = some '!' then fault .severalBangs
    pure (⟨start?, stop?, true⟩, x?)
  else pure (⟨start?, stop?, false⟩, x?)

def plainText : Nat → Text → Text
  | 0, t => t
  | fuel + 1, t => match t with
    | '\\' :: rest =>
        match escape? rest, rest with
        | some (c, rest), _ => c :: plainText fuel rest
        | none, x :: rest => x :: plainText fuel rest
        | none, [] => []
    | x :: rest => x :: plainText fuel rest
    | [] => []

/-- The lines of a text, each but the last ended by a backslash, with their escapes resolved. A part
that ends in a backslash goes on in the next one; if there is none, escapes stay as they are. -/
def textLines : Nat → Text → EditReading Text
  | 0, taken => pure taken.reverse
  | fuel + 1, taken => do
      let whole := ('\n' :: taken).reverse
      match ← next with
      | none => pure (plainText whole.length whole)
      | some '\n' => pure (plainText whole.length whole)
      | some '\\' =>
          match ← next with
          | some x => textLines fuel (x :: '\\' :: taken)
          | none =>
              let c ← get
              match c.later with
              | [] => pure whole
              | (source, t) :: later =>
                  set { c with rest := t, place := 0, lines := 0, source := source, later := later }
                  textLines fuel ('\n' :: taken)
      | some x => textLines fuel (x :: taken)

/-- The text that an instruction brings. It begins on the next line, or on the same one; then a
backslash in front of it keeps blanks, and the character behind that is taken as it is. -/
def broughtText : EditReading Text := do
  match ← nextSolid with
  | none => fault .textMissing
  | some '\\' =>
      match ← next with
      | none =>
          let c ← get
          match c.later with
          | [] => pure []
          | (source, t) :: later =>
              set { c with rest := t, place := 0, lines := 0, source := source, later := later }
              lines []
      | some '\n' => lines []
      | some x => lines [x]
  | x? =>
      back x?
      lines []
where
  lines (start : Text) : EditReading Text := do
    let c ← get
    let size := c.later.foldl (fun n part => n + part.2.length + 1) (c.rest.length + 1)
    textLines size start

/-- A path is all that is left of the line. -/
def path : EditReading Text := do
  skipBlanks
  let t ← takeAll (· != '\n')
  let _ ← next
  if t.isEmpty then fault .pathMissing
  pure t

def labelText : EditReading Text := do
  skipBlanks
  let t ← takeAll fun x => !(x.isWhitespace || ([';', '\x7d', '#'] : Text).contains x)
  pure t

def parts : Nat → Text → List ReplacementPart
  | 0, _ => []
  | fuel + 1, t => match t with
    | [] => []
    | '&' :: rest => .group 0 :: parts fuel rest
    | '\\' :: 'U' :: rest => .casing (some .upper) :: parts fuel rest
    | '\\' :: 'L' :: rest => .casing (some .lower) :: parts fuel rest
    | '\\' :: 'E' :: rest => .casing none :: parts fuel rest
    | '\\' :: 'u' :: rest => .nextCasing .upper :: parts fuel rest
    | '\\' :: 'l' :: rest => .nextCasing .lower :: parts fuel rest
    | '\\' :: rest =>
        match escape? rest, rest with
        | some (c, rest), _ => .text [c] :: parts fuel rest
        | none, x :: rest =>
            (if x.isDigit then ReplacementPart.group (Text.digitValue x) else .text [x]) ::
              parts fuel rest
        | none, [] => []
    | x :: rest => .text [x] :: parts fuel rest

def replacingOptions : Nat → Replacing → Text → EditReading (Replacing × Text)
  | 0, r, flags => pure (r, flags)
  | fuel + 1, r, flags => do
      match ← next with
      | none => pure (r, flags)
      | some x =>
          if x = '\n' || x = ';' then pure (r, flags)
          else if x = '\x7d' || x = '#' then
            back (some x)
            pure (r, flags)
          else if x = ' ' then replacingOptions fuel r flags
          else if x = 'i' || x = 'I' then replacingOptions fuel r ('I' :: flags)
          else if x = 'm' || x = 'M' then replacingOptions fuel r ('M' :: flags)
          else if x = 'e' then replacingOptions fuel { r with executes := true } flags
          else if x = 'p' then
            if r.prints then fault .severalPrints
            replacingOptions fuel { r with prints := true } flags
          else if x = 'g' then
            if r.isGlobal then fault .severalGlobals
            replacingOptions fuel { r with isGlobal := true } flags
          else if x = 'w' then
            let t ← path
            pure ({ r with output? := some t }, flags)
          else if x.isDigit then
            if r.number ≠ 0 then fault .severalNumbers
            let n ← number x
            if n = 0 then fault .numberZero
            replacingOptions fuel { r with number := n } flags
          else fault .unknownOption

def replacing : EditReading Replacing := do
  let mark? ← next
  let mark := mark?.getD '\n'
  if mark = '\n' || mark = '\\' then fault .openReplacing
  match ← delimitedBy mark true with
  | none => fault .openReplacing
  | some t => match ← delimitedBy mark false with
    | none => fault .openReplacing
    | some replacement =>
        let parts := parts replacement.length replacement
        let (r, flags) ← replacingOptions ((← get).rest.length + 1)
          ⟨none, parts, false, 0, false, false, none⟩ []
        let (e?, groups) ← expression t (flags.contains 'I') (flags.contains 'M')
        let highest := parts.foldl (fun n part => match part with
          | .group number => max n number
          | _ => n) 0
        if groups < highest then fault (.badReference highest)
        pure { r with expression? := e?, number := max 1 r.number }

def sideChars : Nat → Text → Text
  | 0, t => t
  | fuel + 1, t => match t with
    | '\\' :: '\\' :: rest => '\\' :: sideChars fuel rest
    | '\\' :: rest => match escape? rest with
      | some (c, rest) => c :: sideChars fuel rest
      | none => '\\' :: sideChars fuel rest
    | x :: rest => x :: sideChars fuel rest
    | [] => []

def translation : EditReading (List (Char × Char)) := do
  let mark := (← next).getD '\n'
  if mark = '\n' || mark = '\\' then fault .openTranslation
  match ← delimitedBy mark false with
  | none => fault .openTranslation
  | some source => match ← delimitedBy mark false with
    | none => fault .openTranslation
    | some target =>
        let isWide := (← get).isWide
        let source := Wide.seen isWide (sideChars source.length source)
        let target := Wide.seen isWide (sideChars target.length target)
        if source.length ≠ target.length then fault .unequalLengths
        endCommand
        pure (source.zip target)

/-- What has been read of a script: its instructions, the newest first, the places of blocks that
are open, and labels. -/
structure Gathered where
  instructions : Array Instruction
  blocks : List Nat
  labels : List (Text × Nat)
  isSilent : Bool

def count? : EditReading (Option Nat) := do
  match ← nextSolid with
  | some x =>
      if x.isDigit then
        let n ← number x
        endCommand
        pure (some n)
      else
        back (some x)
        endCommand
        pure none
  | none => pure none

/-- The commands that consist of one letter. -/
def plainActions : List (Char × Action) :=
  [('=', .number), ('d', .delete), ('D', .deleteFirst), ('F', .name), ('g', .fetch),
    ('G', .fetchMore), ('h', .hold), ('H', .holdMore), ('n', .next), ('N', .joinNext),
    ('p', .print), ('P', .printFirst), ('z', .empty), ('x', .exchange)]

/-- The action of a command letter, which takes its operands. -/
def action (s : Selector) (letter : Char) : EditReading Action := do
  let single : EditReading Unit := if s.stop?.isSome then fault .oneAddress else pure ()
  match letter with
  | 'a' => return .append (← broughtText)
  | 'i' => return .insert (← broughtText)
  | 'c' => return .change (← broughtText)
  | 'b' => return .jump .always (← labelText)
  | 't' => return .jump .ifReplaced (← labelText)
  | 'T' => return .jump .unlessReplaced (← labelText)
  | 'q' =>
      single
      return .quit ((← count?).getD 0)
  | 'Q' =>
      single
      return .quitSilent ((← count?).getD 0)
  | 'l' => return .list (← count?)
  | 'r' => return .appendFile (← path)
  | 'R' => return .appendLine (← path)
  | 'w' => return .write (← path)
  | 'W' => return .writeFirst (← path)
  | 'e' =>
      skipBlanks
      let t ← takeAll (· != '\n')
      let _ ← next
      return .execute t
  | 's' => return .replace (← replacing)
  | 'y' => return .translate (← translation)
  | letter => match plainActions.lookup letter with
    | some a =>
        endCommand
        return a
    | none => fault (.unknownCommand letter)

def command (g : Gathered) (x : Char) : EditReading Gathered := do
  let isAtStart := (← get).place == 1 && (← get).isFirst
  let (s, x?) ← selector (some x)
  let place := g.instructions.size
  let isAddressed := s.start?.isSome
  match x? with
  | none => fault .commandMissing
  | some '\n' => fault .commandMissing
  | some ';' => if isAddressed then fault (.unknownCommand ';') else pure g
  | some '#' =>
      if isAddressed then fault .commentAddress
      let t ← takeAll (· != '\n')
      let _ ← next
      pure { g with isSilent := g.isSilent || (isAtStart && t == ['n']) }
  | some '\x7b' => pure { g with
      instructions := g.instructions.push ⟨s, .openBlock 0⟩, blocks := place :: g.blocks }
  | some '\x7d' =>
      match g.blocks with
      | [] => fault .unexpectedClose
      | start :: blocks =>
          if isAddressed then fault .closeAddress
          endCommand
          let opened := g.instructions.modify start fun i => { i with action := .openBlock place }
          pure { g with instructions := opened.push ⟨s, .closeBlock⟩, blocks := blocks }
  | some ':' =>
      if isAddressed then fault .labelAddress
      let label ← labelText
      if label.isEmpty then fault .labelMissing
      pure { g with
        instructions := g.instructions.push ⟨s, .label⟩, labels := (label, place) :: g.labels }
  | some letter =>
      let a ← action s letter
      pure { g with instructions := g.instructions.push ⟨s, a⟩ }

def commands : Nat → Gathered → EditReading Gathered
  | 0, g => pure g
  | fuel + 1, g => do
      let _ ← takeAll fun x => x.isWhitespace || x == ';'
      match ← next with
      | some x => commands fuel (← command g x)
      | none =>
          let c ← get
          match c.later with
          | [] => pure g
          | (source, t) :: later =>
              set { c with
                rest := t, place := 0, lines := 0, source := source, later := later
                isFirst := false }
              commands fuel g

end EditReading

def EditScript.read (isWide isExtended : Bool) (sources : List (EditSource × Text)) :
    Except Text EditScript := do
  let size := sources.foldl (fun n part => n + part.2.length + 2) 2
  let cursor : EditCursor := ⟨[], 0, 0, .expression 1, true, sources, isExtended, isWide⟩
  let (g, c) ← (do
    let c ← get
    match c.later with
    | [] => pure ()
    | (source, t) :: later => set { c with rest := t, source := source, later := later }
    EditReading.commands size ⟨#[], [], [], false⟩ : EditReading _).run cursor
  if !g.blocks.isEmpty then throw ({ c with place := 0 }.locate EditFault.openBlock.message)
  pure ⟨g.instructions, g.labels, g.isSilent⟩

def EditScript.missingLabel? (script : EditScript) : Option Text :=
  script.instructions.toList.findSome? fun i => match i.action with
    | .jump _ label =>
        if label.isEmpty || (script.labels.lookup label).isSome then none else some label
    | _ => none

end Bytelink.Script
