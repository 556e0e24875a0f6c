import Bytelink.Host.Script.Amount
import Bytelink.Host.Script.Regex
import Bytelink.Host.Script.Stream

/-!
# Filters

Programs that copy their input to their output, as it is or line by line in another form.
-/
namespace Bytelink.Script.Filters

open Routine

/-- How lines are shown. -/
structure Display where
  numbersAll : Bool
  numbersFull : Bool
  marksEnds : Bool
  marksTabs : Bool
  marksControls : Bool
  squeezes : Bool

/-- The state of a display: the number of the latest line, how many empty lines came last, and
whether a line is under way. -/
structure Displayed where
  number : Nat
  empties : Nat
  isInside : Bool
  /-- Whether a carriage return at the end of a file is still to be shown. -/
  holdsReturn : Bool

/-- A byte in a form that can be seen. -/
def visible (c : Char) : Text :=
  let low (n : Nat) : Text :=
    if n < 32 then ['^', Char.ofNat (n + 64)]
    else if n = 127 then ['^', '?']
    else [Char.ofNat n]
  if 128 ≤ c.toNat then ['M', '-'] ++ low (c.toNat - 128)
  else if c = '\t' then [c]
  else low c.toNat

def Display.char (d : Display) (c : Char) : Text :=
  if c = '\t' then if d.marksTabs then ['^', 'I'] else [c]
  else if d.marksControls then visible c
  else [c]

/-- A carriage return shows only in front of a line end whose place is marked; at the end of a file
it has to wait for what comes. -/
def Display.showsReturns (d : Display) : Bool := d.marksEnds && !d.marksControls

def Display.filter (d : Display) : Filter Displayed where
  step s line hasEnd :=
    let isEmpty := line.isEmpty && hasEnd && !s.isInside
    let empties := if isEmpty then s.empties + 1 else 0
    if d.squeezes && 1 < empties then ({ s with empties := empties }, [])
    else
      let isNumbered := !s.isInside && (if d.numbersFull then !isEmpty else d.numbersAll)
      let number := if isNumbered then s.number + 1 else s.number
      let front := if isNumbered then padLeft 6 (Text.decimal number) ++ ['\t'] else []
      let ending : Text := if hasEnd then if d.marksEnds then ['$', '\n'] else ['\n'] else []
      let line := if s.holdsReturn then '\x0d' :: line else line
      let endsInReturn := d.showsReturns && line.getLast? = some '\x0d'
      let body := (if endsInReturn then line.dropLast else line).flatMap d.char ++
        (if endsInReturn && hasEnd then ['^', 'M'] else [])
      (⟨number, empties, !hasEnd, endsInReturn && !hasEnd⟩, [front ++ body ++ ending])
  isDone _ := false

/-- Whether the output goes to the end of a file that is read, so that copying would not end. -/
def isOwnOutput (descriptor : Nat) : Routine Bool := do
  let pid := (← get).pid
  look fun system =>
    match system.opening? pid descriptor, system.opening? pid 1 with
    | some input, some output =>
        match input.endpoint, output.endpoint with
        | .file a, .file b =>
            let size := (system.volume.node b).bytes.size
            a == b && input.position < (if output.appends then size else output.position)
        | _, _ => false
    | _, _ => false

/-- Copies a descriptor to the output as it is. -/
def copyAll (descriptor : Nat) : Routine (Except SystemError Unit) :=
  goRound (fun () => do
    match ← readSome descriptor 131072 with
    | .error e => pure (.inr (.error e))
    | .ok [] => pure (.inr (.ok ()))
    | .ok bytes =>
        match ← write 1 bytes with
        | .ok () => pure (.inl ())
        | .error e =>
            report ("write error: " ++ reason e)
            finish (.exited 1)) (.ok ()) rounds ()

def knownOfCat : Known :=
  .ofText "benstuvAET" [("number-nonblank", 'b'), ("number", 'n'), ("squeeze-blank", 's'),
    ("show-nonprinting", 'v'), ("show-ends", 'E'), ("show-tabs", 'T'), ("show-all", 'A')]

def showFiles (d : Display) (isPlain : Bool) (operands : List Text) : Routine Nat := do
  let mut status := 0
  let mut state : Displayed := ⟨0, 0, false, false⟩
  for operand in (if operands.isEmpty then [['-']] else operands) do
    match ← openInput operand with
    | .error e =>
        reportFile operand e
        status := 1
    | .ok descriptor =>
        let result ←
          if ← isOwnOutput descriptor then
            report ((← quotedIfNeeded operand) ++ ": input file is output file")
            status := 1
            pure (.ok ())
          else if isPlain then copyAll descriptor
          else
            let (result, next) ← feed d.filter descriptor state
            state := next
            flush
            pure result
        closeInput descriptor
        match result with
        | .ok () => pure ()
        | .error e =>
            reportFile operand e
            status := 1
  if state.holdsReturn then say ['\x0d']
  endInput "closing standard input" operands status

def cat : Command := fun arguments =>
  withOptions knownOfCat arguments fun given operands => do
    let pid := (← get).pid
    if ← look fun system => (system.descriptor? pid 1).isNone then
      report ("standard output: " ++ reason .badDescriptor)
      pure 1
    else
      let is (letters : String) : Bool := letters.toList.any (isGiven given)
      showFiles ⟨is "n", is "b", is "AEe", is "ATt", is "Avet", is "s"⟩ (!is "bnAEeTtvs") operands

/-- Writes to each target, and yields those that are left and whether there was a fault. -/
def spread (quietly : Bool) (bytes : Bytes) : List (Nat × Text) → Routine (List (Nat × Text) × Bool)
  | [] => pure ([], false)
  | (descriptor, name) :: rest => do
      match ← write descriptor bytes with
      | .ok () =>
          let (kept, hasFault) ← spread quietly bytes rest
          pure ((descriptor, name) :: kept, hasFault)
      | .error e =>
          let isQuiet := quietly && e = .numbered 32
          if !isQuiet then reportFile name e
          let (kept, hasFault) ← spread quietly bytes rest
          pure (kept, hasFault || !isQuiet)

/-- Copies the input to the output and to files. -/
def tee : Command := fun arguments =>
  withOptions (.ofText "aip\x01::" [("append", 'a'), ("ignore-interrupts", 'i'),
      ("output-error", '\x01')]) arguments fun given operands => do
    let chosen : Except Complaint Nat := match (given.reverse.find? fun g => g.1 = '\x01') with
      | some (_, some t) => chosen "--output-error" [("warn", 1), ("warn-nopipe", 2), ("exit", 3),
          ("exit-nopipe", 4)] t
      | some _ => .ok 2
      | none => .ok (if isGiven given 'p' then 2 else 0)
    match chosen with
    | .error problem =>
        reportPhrases problem
        refuseUsage 1
    | .ok mode =>
        let pid := (← get).pid
        if mode != 0 then
          change fun system => system.updateMember pid fun m =>
            { m with ignored := brokenPipe :: m.ignored }
        let mut status := 0
        let mut targets : List (Nat × Text) := [(1, "standard output")]
        for operand in operands do
          match ← openFile operand (if isGiven given 'a' then .appending else .writing) with
          | .ok descriptor => targets := targets ++ [(descriptor, operand)]
          | .error e =>
              reportFile operand e
              status := 1
        let isFine ← goRound (fun (targets, isFine) => do
          if targets.isEmpty then pure (.inr isFine)
          else match ← readSome 0 chunkSize with
            | .ok [] => pure (.inr isFine)
            | .ok bytes =>
                let (kept, hasFault) ← spread (mode == 2 || mode == 4) bytes targets
                if hasFault && 3 ≤ mode then pure (.inr false)
                else pure (.inl (kept, isFine && !hasFault))
            | .error e =>
                report ("read error: " ++ reason e)
                pure (.inr false)) true rounds (targets, true)
        endInput "standard input" [] (if isFine then status else 1)

/-- Repeats a line for ever. -/
def yes : Command := fun arguments => do
  match (Known.ofText "" []).read true arguments with
  | .error fault =>
      report fault.message
      refuseUsage 1
  | .ok (_, words) =>
      let line := Text.join [' '] (if words.isEmpty then [['y']] else words) ++ ['\n']
      let block := Narrow.toBytes (List.replicate (8192 / line.length + 1) line).flatten
      goRound (fun () => do
        match ← write 1 block with
        | .ok () => pure (.inl ())
        | .error e =>
            report ("standard output: " ++ reason e)
            pure (.inr 1)) 0 rounds ()

def columnAfter (countsBytes : Bool) (column : Nat) (c : Char) : Nat :=
  if countsBytes then column + 1
  else match c with
    | '\x08' => column - 1
    | '\x0d' => 0
    | '\t' => column + (8 - column % 8)
    | _ => column + 1

/-- How lines are broken. -/
structure Breaking where
  width : Nat
  countsBytes : Bool
  atSpaces : Bool
  deriving DecidableEq, Repr

/-- A line under way: the complete pieces and the current one, each with the newest first. -/
structure Broken where
  pieces : List Text
  current : Text
  column : Nat
  deriving DecidableEq, Repr

namespace Breaking

/-- Takes in a character. One that would stand beyond the width begins a piece of its own, or goes
with what stands behind the last space. -/
def add (k : Breaking) (s : Broken) (c : Char) : Broken := go 3 s
where
  go : Nat → Broken → Broken
    | 0, s => { s with current := c :: s.current, column := columnAfter k.countsBytes s.column c }
    | fuel + 1, s =>
        let column := columnAfter k.countsBytes s.column c
        if column ≤ k.width then { s with current := c :: s.current, column := column }
        else
          let behind := s.current.takeWhile fun c => c != ' ' && c != '\t'
          if k.atSpaces && behind.length < s.current.length then
            go fuel {
              pieces := s.current.drop behind.length :: s.pieces
              current := behind
              column := behind.reverse.foldl (columnAfter k.countsBytes) 0 }
          else if s.current.isEmpty then { s with current := [c], column := column }
          else go fuel ⟨s.current :: s.pieces, [], 0⟩

def pieces (k : Breaking) (line : Text) : List Text :=
  let s := line.foldl k.add ⟨[], [], 0⟩
  (s.current :: s.pieces).reverse.map List.reverse

end Breaking

/-- Breaks lines that are too long. -/
def fold : Command := fun arguments =>
  withOptions (.ofText "bsw:0::1::2::3::4::5::6::7::8::9::" [("bytes", 'b'), ("spaces", 's'),
      ("width", 'w')]) arguments fun given operands => do
    let widths := given.filterMap fun g =>
      if g.1 = 'w' then g.2 else if g.1.isDigit then some (g.1 :: g.2.getD []) else none
    withValue (Amount.within "invalid number of columns" [] 1 (Amount.wordLimit / 2 - 8)
      (widths.getLastD ['8', '0'])) fun width => do
      let k : Breaking := ⟨width, isGiven given 'b', isGiven given 's'⟩
      let f : Filter Unit :=
        { step := fun _ line hasEnd =>
            ((), [Text.join ['\n'] (k.pieces line) ++ (if hasEnd then ['\n'] else [])])
          isDone := fun _ => false }
      endInput ['-'] operands (← feedFiles f operands ()).1

/-- The records of a text from its end on, newest first. A record ends behind the mark, or begins
with it. The text is given backwards, as is the mark. -/
def recordsBack (mark : Text) (isBefore : Bool) : Nat → Text → Text → List Text
  | 0, record, _ => [record]
  | _ + 1, record, [] => if record.isEmpty then [] else [record]
  | fuel + 1, record, c :: rest =>
      if !mark.isEmpty && mark.isPrefixOf (c :: rest) then
        let below := (c :: rest).drop mark.length
        if isBefore then (mark.reverse ++ record) :: recordsBack mark isBefore fuel [] below
        else
          let more := recordsBack mark isBefore fuel mark.reverse below
          if record.isEmpty then more else record :: more
      else recordsBack mark isBefore fuel (c :: record) rest

def reversed (mark : Text) (isBefore : Bool) (t : Text) : Text :=
  (recordsBack mark.reverse isBefore (t.length + 1) [] t.reverse).flatten

def tac : Command := fun arguments =>
  withOptions (.ofText "brs:" [("before", 'b'), ("regex", 'r'), ("separator", 's')]) arguments
    fun given operands => do
      let mark := (argument? given 's').getD ['\n']
      let mark := if mark.isEmpty then ['\x00'] else mark
      let status ← forEach (if operands.isEmpty then [['-']] else operands) fun operand => do
        match ← openInput operand with
        | .error e =>
            interject ("failed to open " ++ (← quoted operand) ++ " for reading: " ++ reason e)
            pure 1
        | .ok descriptor =>
            let result ← readAll descriptor
            closeInput descriptor
            match result with
            | .ok bytes =>
                say (reversed mark (isGiven given 'b') (Narrow.ofBytes bytes))
                pure 0
            | .error e =>
                let e := if e = .isADirectory then .invalidArgument else e
                let name : Text := if operand = ['-'] then "standard input" else operand
                interject ((← quotedIfNeeded name) ++ ": read error: " ++ reason e)
                pure 1
      endInput ['-'] operands status

def rev : Command := fun arguments =>
  withOptions (.ofText "" []) arguments fun _ operands => do
    let isUnicode := (← get).isUnicode
    let turned (line : Text) : Text :=
      if isUnicode then Wide.toNarrow (Wide.ofNarrow line).reverse else line.reverse
    let f : Filter Unit :=
      { step := fun _ line hasEnd =>
          ((), [turned line ++ (if hasEnd then ['\n'] else [])])
        isDone := fun _ => false }
    forEach (if operands.isEmpty then [['-']] else operands) fun operand => do
      let opened ← if operands.isEmpty then pure (.ok 0) else openFile operand .reading
      match opened with
      | .error e =>
          interject ("cannot open " ++ operand ++ ": " ++ reason e)
          pure 1
      | .ok descriptor =>
          let (result, ()) ← feed f descriptor ()
          closeInput descriptor
          match result with
          | .ok () => pure 0
          | .error e =>
              let name : Text := if operands.isEmpty then "stdin" else operand
              interject (name ++ ": " ++ reason e)
              pure 1

/-- Which lines of a section are numbered. -/
inductive NumberStyle
  | all
  | full
  | none
  | matching (r : Regex)
  deriving Repr

inductive Section
  | header
  | body
  | footer
  deriving DecidableEq, Repr

structure Numbering where
  styles : Section → NumberStyle
  start : Int
  step : Int
  joined : Nat
  width : Nat
  format : Char
  separator : Text
  delimiter : Text
  keepsNumber : Bool

/-- The next number, how many empty lines came last, and the section. -/
structure Numbered where
  number : Int
  empties : Nat
  place : Section
  deriving DecidableEq, Repr

namespace Numbering

def section? (k : Numbering) (line : Text) : Option Section :=
  if k.delimiter.isEmpty then none
  else if line = k.delimiter then some .footer
  else if line = k.delimiter ++ k.delimiter then some .body
  else if line = k.delimiter ++ k.delimiter ++ k.delimiter then some .header
  else none

def shown (k : Numbering) (n : Int) : Text :=
  let digits := Text.decimalInt n
  if k.format = 'l' then Text.padRight k.width digits
  else if k.format = 'z' then
    let sign : Text := if n < 0 then ['-'] else []
    sign ++ Text.decimalWide (k.width - sign.length) n.natAbs
  else padLeft k.width digits

def number (k : Numbering) (s : Numbered) (line : Text) : Numbered × List Text :=
  match k.section? line with
  | some place =>
      ({ s with number := if k.keepsNumber then s.number else k.start, place := place }, [['\n']])
  | none =>
      let plain : Text := List.replicate (k.width + k.separator.length) ' ' ++ line ++ ['\n']
      let withNumber (empties : Nat) : Numbered × List Text :=
        ({ s with number := s.number + k.step, empties := empties },
          [k.shown s.number ++ k.separator ++ line ++ ['\n']])
      match k.styles s.place with
      | .none => (s, [plain])
      | .full => if line.isEmpty then (s, [plain]) else withNumber s.empties
      | .all =>
          if k.joined ≤ 1 then withNumber s.empties
          else if !line.isEmpty || s.empties + 1 = k.joined then withNumber 0
          else ({ s with empties := s.empties + 1 }, [plain])
      | .matching r =>
          if (Regex.search ⟨line.toArray, false, false, false⟩ r 0).isSome then withNumber s.empties
          else (s, [plain])

end Numbering

/-- The style that an argument names. -/
def numberStyle (kind : Text) (t : Text) : Except (Complaint × Bool) NumberStyle :=
  match t with
  | 'a' :: _ => .ok .all
  | 't' :: _ => .ok .full
  | 'n' :: _ => .ok .none
  | 'p' :: pattern => match Regex.read ⟨false, true⟩ pattern with
      | .ok compiled => .ok (.matching compiled.regex)
      | .error _ => .error ([.plain "Invalid regular expression"], false)
  | t => .error ([.plain ("invalid " ++ kind ++ " numbering style: "), .word t], true)

/-- Reads the options of `nl` in their order. A fault comes with whether it points to the help. -/
def readNumbering : List Given → Numbering → Except (Complaint × Bool) Numbering
  | [], k => .ok k
  | (letter, value?) :: rest, k => do
      let t := value?.getD []
      let plain {α : Type} (r : Except Complaint α) : Except (Complaint × Bool) α :=
        r.mapError (·, false)
      let inStyle (place : Section) (kind : Text) : Except (Complaint × Bool) Numbering := do
        let style ← numberStyle kind t
        pure { k with styles := fun p => if p = place then style else k.styles p }
      let k ← match letter with
        | 'b' => inStyle .body "body"
        | 'h' => inStyle .header "header"
        | 'f' => inStyle .footer "footer"
        | 'v' => do pure { k with start := ← plain (Amount.whole "invalid starting line number" t) }
        | 'i' => do pure { k with step := ← plain (Amount.whole "invalid line number increment" t) }
        | 'l' => do
            let n ← plain (Amount.within "invalid line number of blank lines" [] 0
              Amount.wordLimit t)
            pure { k with joined := n }
        | 'w' => do
            let n ← plain (Amount.within "invalid line number field width" [] 1 2147483647 t)
            pure { k with width := n }
        | 's' => pure { k with separator := t }
        | 'p' => pure { k with keepsNumber := true }
        | 'd' => pure { k with delimiter := if t.length = 1 then t ++ k.delimiter.drop 1 else t }
        | _ => match String.ofList t with
          | "ln" => pure { k with format := 'l' }
          | "rn" => pure { k with format := 'r' }
          | "rz" => pure { k with format := 'z' }
          | _ => throw ([.plain "invalid line numbering format: ", .word t], true)
      readNumbering rest k

def nl : Command := fun arguments =>
  withOptions (.ofText "b:d:f:h:i:l:n:ps:v:w:" [("header-numbering", 'h'), ("body-numbering", 'b'),
      ("footer-numbering", 'f'), ("starting-line-number", 'v'), ("line-increment", 'i'),
      ("no-renumber", 'p'), ("join-blank-lines", 'l'), ("number-separator", 's'),
      ("number-width", 'w'), ("number-format", 'n'), ("section-delimiter", 'd')]) arguments
    fun given operands => do
      let usual : Numbering := {
        styles := fun place => if place = .body then .full else .none
        start := 1
        step := 1
        joined := 1
        width := 6
        format := 'r'
        separator := ['\t']
        delimiter := ['\\', ':']
        keepsNumber := false }
      match readNumbering given usual with
      | .error (problem, pointsToHelp) =>
          reportPhrases problem
          if pointsToHelp then refuseUsage 1 else pure 1
      | .ok k =>
          let f : Filter Numbered :=
            { step := fun s line _ => k.number s line
              isDone := fun _ => false }
          endInput ['-'] operands (← feedFiles f operands ⟨k.start, 0, .body⟩).1

end Bytelink.Script.Filters
