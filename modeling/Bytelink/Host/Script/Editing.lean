import Bytelink.Host.Script.Instruction
import Bytelink.Host.Script.Stream

/-!
# Editing lines

Runs editing instructions on the lines of files. Each line goes through the instructions in a space
of its own, beside which there is a place to hold a text. A line without an end keeps lacking it
when it is printed, and gets it before anything else is printed. Lines are read ahead only where an
instruction has to know whether there are more.
-/
namespace Bytelink.Script.Editing

/-- A text under construction in which the case of characters may be changed. -/
structure Cased where
  isWide : Bool
  /-- The characters, the last one first. -/
  chars : Text
  casing? : Option Text.Casing
  nextCasing? : Option Text.Casing

def Cased.inCase (s : Cased) (k? : Option Text.Casing) (c : Char) : Char :=
  match k? with
  | some .upper => if s.isWide then Text.inUpperCase c else c.toUpper
  | some .lower => if s.isWide then Text.inLowerCase c else c.toLower
  | none => c

def Cased.add (s : Cased) (t : Text) : Cased :=
  t.foldl (fun s c => match s.nextCasing? with
    | some k => { s with chars := s.inCase (some k) c :: s.chars, nextCasing? := none }
    | none => { s with chars := s.inCase s.casing? c :: s.chars }) s

def filled (isWide : Bool) (group : Nat → Text) (parts : List ReplacementPart) : Text :=
  (parts.foldl (fun (s : Cased) part => match part with
    | .text t => s.add (Wide.seen isWide t)
    | .group number => s.add (group number)
    | .casing k? => { s with casing? := k?, nextCasing? := none }
    | .nextCasing k => { s with nextCasing? := some k }) ⟨isWide, [], none, none⟩).chars

def between (a : Array Char) (start stop : Nat) : Text := (a.extract start stop).toList

/-- Goes through the matches from a place on. `count` of them have been seen, and the last of them
ended at `stop?`; what is finished of the new text comes last character first. -/
def replaceFrom (r : Replacing) (e : Expression) (s : Regex.Subject) :
    Nat → Nat → Nat → Option Nat → Text → Bool → Option Text
  | 0, _, _, _, _, _ => none
  | fuel + 1, place, count, stop?, done, isReplaced =>
      let rest : Text := between s.chars place s.chars.size
      let finish (isReplaced : Bool) : Option Text :=
        if isReplaced then some (done.reverse ++ rest) else none
      match e.regex.search s place with
      | none => finish isReplaced
      | some m =>
          let skipped := (between s.chars place m.start).reverse ++ done
          let isEmpty := m.start == m.stop
          let next := if isEmpty then m.stop + 1 else m.stop
          let behind := (between s.chars m.stop next).reverse
          if isEmpty && stop? == some m.start then
            if s.chars.size < next then finish isReplaced
            else replaceFrom r e s fuel next count none (behind ++ skipped) isReplaced
          else if count + 1 < r.number then
            let matched := (between s.chars m.start m.stop).reverse
            if s.chars.size < next then finish isReplaced
            else replaceFrom r e s fuel next (count + 1) (some m.stop)
              (behind ++ matched ++ skipped) isReplaced
          else
            let group (number : Nat) : Text :=
              if number = 0 then between s.chars m.start m.stop
              else match m.groups.lookup number with
                | some (start, stop) => between s.chars start stop
                | none => []
            let new := filled s.isWide group r.parts ++ skipped
            if !r.isGlobal || s.chars.size < next then
              some (new.reverse ++ between s.chars m.stop s.chars.size)
            else replaceFrom r e s fuel next (count + 1) (some m.stop) (behind ++ new) true

def replaced? (isWide : Bool) (r : Replacing) (e : Expression) (t : Text) : Option Text :=
  let s : Regex.Subject :=
    ⟨(Wide.seen isWide t).toArray, isWide, e.ignoresCase, e.hasLines⟩
  (replaceFrom r e s (t.length + 2) 0 0 none [] false).map (Wide.unseen isWide)

/-- A text written so that every character of it can be seen, in pieces that may not be broken. -/
def visiblePieces (t : Text) : List Text :=
  t.map fun
    | '\\' => ['\\', '\\']
    | '\x07' => ['\\', 'a']
    | '\x08' => ['\\', 'b']
    | '\x0c' => ['\\', 'f']
    | '\n' => ['\\', 'n']
    | '\x0d' => ['\\', 'r']
    | '\t' => ['\\', 't']
    | '\x0b' => ['\\', 'v']
    | c =>
        if ' ' ≤ c && c ≤ '~' then [c]
        else
          let digits := Nat.toDigits 8 c.toNat
          '\\' :: List.replicate (3 - digits.length) '0' ++ digits

/-- Visible pieces in lines that are no longer than a width, unless that is zero, up to a dollar
sign. -/
def wrapped (width : Nat) (pieces : List Text) : Text :=
  let room := width - 1
  let (lines, _) := pieces.foldl (fun ((done, used) : List Text × Nat) piece =>
    if 0 < room && room < used + piece.length then (piece :: ['\\', '\n'] :: done, piece.length)
    else (piece :: done, used + piece.length)) ([], 0)
  lines.reverse.flatten ++ ['$']

structure Line where
  text : Text
  hasEnd : Bool

inductive RangeState
  /-- Until an address applies. -/
  | open
  /-- Up to a line, which may be passed unseen. -/
  | until (number : Nat)
  /-- Up to a line, or the first one behind it if that is not seen. -/
  | reaching (number : Nat)
  | closed
  deriving DecidableEq, Repr

/-- What is to be printed at the end of a round. -/
inductive Appendix
  | text (t : Text)
  | file (path : Text)
  | line (path : Text)

/-- A file that lines are written to, which may lack the end of its last line; if there is no
descriptor, this is the main output. What is gathered for it comes newest first. -/
structure Outlet where
  descriptor? : Option Nat
  lacksEnd : Bool
  pending : List Text
  pendingSize : Nat

/-- What stays the same while an editor runs. -/
structure Setting where
  script : EditScript
  /-- Whether characters are wide. -/
  isWide : Bool
  isSilent : Bool
  isSeparate : Bool
  /-- Whether nothing is gathered before it is written. -/
  isUnbuffered : Bool
  /-- Set if files are changed in place; the ending then names the copies that are kept. -/
  ending? : Option Text
  /-- The character at the end of a line. -/
  mark : Char
  width : Nat

structure Editor where
  space : Line
  held : Line
  number : Nat
  isReplaced : Bool
  expression? : Option Expression
  ranges : List (Nat × RangeState)
  /-- The newest first. -/
  appended : List Appendix
  files : List Text
  /-- The file that lines are read from, and its name. -/
  descriptor? : Option Nat
  opened : Text
  /-- Whether no line of it has been taken. -/
  isNew : Bool
  /-- The name of the file that was the last to be opened or looked for. -/
  name : Text
  /-- Lines that have been read ahead, and the start of one, last character first. -/
  ahead : List Line
  begun : Text
  /-- What has been printed for the file that is changed in place, the newest first. -/
  printed : List Text
  lacksEnd : Bool
  outlets : List (Text × Outlet)
  readers : List (Text × List Text)
  isMissing : Bool

def openRanges (script : EditScript) : List (Nat × RangeState) :=
  script.instructions.toList.zipIdx.filterMap fun (i, place) =>
    if i.selector.start? == some (.line 0) then some (place, RangeState.open) else none

/-- What is done with the text of the editor by others. -/
abbrev Edition := StateT Editor Routine

/-- How it goes on after an instruction. -/
inductive Flow
  | onward
  | jump (place : Nat)
  | endRound (prints : Bool)
  /-- The next round begins with what is there. -/
  | again
  | quit (status : Nat) (prints : Bool)

/-- Comes off with a message. -/
inductive Halt
  | fault (message : Text) (status : Nat)

/-- Ends the editor because of its output. -/
def giveUp {α : Type} (message : Text) (e : SystemError) : Routine α := do
  Routine.interject (message ++ ": " ++ reason e)
  Routine.finish (.exited 4)

def giveUpWriting {α : Type} (count : Nat) (name : Text) (e : SystemError) : Routine α :=
  let items : Text := if count = 1 then " item" else " items"
  giveUp ("couldn't write " ++ Text.decimal count ++ items ++ " to " ++ name) e

/-- Writes what is left of the main output. -/
def finishOutput : Routine Unit := do
  Routine.flush
  match (← get).outputFault? with
  | none => pure ()
  | some e => if e ≠ .badDescriptor then giveUp "couldn't flush stdout" e

/-- Writes what has been gathered for a file. -/
def Outlet.flush (o : Outlet) : Routine (Except SystemError Outlet) := do
  let t := o.pending.reverse.flatten
  let result ← match o.descriptor? with
    | some descriptor => Routine.write descriptor (Narrow.toBytes t)
    | none => do
        Routine.say t
        match (← get).outputFault? with
        | none => pure (.ok ())
        | some e => pure (.error e)
  return result.map fun _ => { o with pending := [], pendingSize := 0 }

/-- Writes what has been gathered for files, and closes the main output. -/
def closeAll (outlets : List Outlet) : Routine Unit := do
  for o in outlets.reverse do
    match ← o.flush with
    | .ok _ => pure ()
    | .error e => giveUp "couldn't flush <unknown>" e
  finishOutput
  let pid := (← get).pid
  if ← Routine.look fun system => (system.descriptor? pid 1).isNone then
    giveUp "couldn't close stdout" .badDescriptor

namespace Edition

variable (c : Setting)

def emitPieces (pieces : List Text) (hasEnd : Bool) : Edition Unit := do
  let e ← get
  let pieces := if e.lacksEnd then [c.mark] :: pieces else pieces
  set { e with lacksEnd := !hasEnd }
  if c.ending?.isSome then modify fun e => { e with printed := pieces.flatten :: e.printed }
  else
    for piece in pieces do
      Routine.say piece
      match (← (get : Routine Shell)).outputFault? with
      | none => pure ()
      | some e => giveUpWriting piece.length "stdout" e
    if c.isUnbuffered then finishOutput

/-- Prints on the main output. -/
def emit (t : Text) (hasEnd : Bool) : Edition Unit := emitPieces c [t] hasEnd

def piecesOf (l : Line) : List Text := if l.hasEnd then [l.text, [c.mark]] else [l.text]

def emitLine (l : Line) : Edition Unit := emitPieces c (piecesOf c l) l.hasEnd

/-- Writes a line to a file by its name. -/
def writeTo (path : Text) (l : Line) : Edition Unit := do
  match (← get).outlets.lookup path with
  | none => pure ()
  | some outlet =>
      let t := (piecesOf c l).flatten
      let t := if outlet.lacksEnd then c.mark :: t else t
      let outlet := { outlet with
        lacksEnd := !l.hasEnd, pending := t :: outlet.pending
        pendingSize := outlet.pendingSize + t.length }
      let isDue := c.isUnbuffered || outlet.descriptor?.isNone ||
        Routine.bufferSize < outlet.pendingSize
      let result ← if isDue then (outlet.flush : Routine _) else pure (.ok outlet)
      match result with
      | .ok outlet => modify fun e => { e with outlets := e.outlets.map fun o =>
          if o.1 = path then (path, outlet) else o }
      | .error e =>
          if c.isUnbuffered then giveUp ("couldn't flush " ++ path) e
          else giveUpWriting t.length (if outlet.descriptor?.isNone then "stdout" else path) e

/-- A text in portions as files are read. -/
def portions (t : Text) : List Text :=
  go t.length t
where
  go : Nat → Text → List Text
    | _, [] => []
    | 0, t => [t]
    | fuel + 1, t => t.take 8192 :: go fuel (t.drop 8192)

def markedLines (mark : Char) (t : Text) : List Text :=
  let lines := Text.splitOn mark t
  lines.dropLast.map (· ++ [mark]) ++ lines.getLast?.toList.filter (· ≠ [])

/-- Prints what was to be printed at the end of the round. -/
def emitAppended : Edition Unit := do
  let appended := (← get).appended.reverse
  modify fun e => { e with appended := [] }
  for a in appended do
    match a with
    | .text t => emit c t true
    | .file path =>
        match ← (Routine.load (if path = ("/dev/stdin" : Text) then ['-'] else path)) with
        | .ok bytes => emitPieces c (portions (Narrow.ofBytes bytes)) true
        | .error _ => emitPieces c [] true
    | .line path =>
        let lines ← match (← get).readers.lookup path with
          | some lines => pure lines
          | none => do
              match ← (Routine.load path) with
              | .ok bytes => pure (markedLines c.mark (Narrow.ofBytes bytes))
              | .error _ => pure []
        match lines with
        | [] => modify fun e => { e with
            readers := (path, []) :: e.readers.filter (·.1 ≠ path) }
        | t :: rest =>
            modify fun e => { e with
              readers := (path, rest) :: e.readers.filter (·.1 ≠ path) }
            emit c t true

/-- Puts what was printed for a file in its place. -/
def replaceFile : Edition Unit := do
  let e ← get
  match c.ending? with
  | none => pure ()
  | some ending =>
      if !e.opened.isEmpty then
        let base := ((e.opened.reverse.takeWhile (· != '/')).reverse)
        let backup := if ending.contains '*' then Text.replaceAll ['*'] base ending
          else base ++ ending
        let copy := if backup.contains '/' then backup
          else e.opened.take (e.opened.length - base.length) ++ backup
        let path := Routine.pathOf e.opened
        let bytes := (Narrow.toBytes e.printed.reverse.flatten).toArray
        let _ ← Routine.attempt fun v here => do
          let goal ← v.goal .name here path
          match goal.last with
          | .name name =>
              v.mayChange goal.directory
              let mode := (v.node (← v.find here path)).mode
              let v ← if ending.isEmpty then pure v else v.move here path (Routine.pathOf copy)
              let (n, v) := v.add ⟨.file bytes, mode, true, v.time⟩
              pure (v.setName goal.directory name n)
          | _ => throw .isADirectory
      set { e with printed := [], lacksEnd := false, opened := [] }

def closeFile : Edition Unit := do
  match (← get).descriptor? with
  | some descriptor =>
      Routine.closeInput descriptor
      modify fun e => { e with descriptor? := none }
      replaceFile c
  | none => pure ()

def openNext : List Text → Edition Bool
  | [] => do
      modify fun e => { e with files := [] }
      pure false
  | file :: rest => do
      let isInput := file = ['-'] && c.ending?.isNone
      match ← (if isInput then pure (Except.ok 0) else Routine.openFile file .reading) with
      | .error problem =>
          Routine.interject ("can't read " ++ file ++ ": " ++ reason problem)
          modify fun e => { e with isMissing := true, name := file }
          openNext rest
      | .ok descriptor =>
          modify fun e => { e with
            files := rest, descriptor? := some descriptor, opened := file, name := file
            isNew := true }
          pure true

/-- Reads until at least one line is there, or says that there is none. If `stays`, only the file
that is open is read. -/
def readAhead (stays : Bool) : Edition (Option Halt) := fun e =>
  Routine.goRound (fun e => do
    if !e.ahead.isEmpty then pure (.inr (none, e))
    else
      match e.descriptor? with
      | none =>
          if stays then pure (.inr (none, e))
          else
            let (isOpen, e) ← (openNext c e.files).run e
            pure (if isOpen then .inl e else .inr (none, e))
      | some descriptor =>
          match ← Routine.readSome descriptor Routine.chunkSize with
          | .error problem =>
              if c.ending?.isSome then
                Routine.interject ("couldn't edit " ++ e.opened ++ ": not a regular file")
                Routine.closeInput descriptor
                pure (.inl { e with descriptor? := none, opened := [], isMissing := true })
              else
                let name : Text := if e.opened = ['-'] then "stdin" else e.opened
                let message := "read error on " ++ name ++ ": " ++ reason problem
                pure (.inr (some (.fault message 4), e))
          | .ok [] =>
              if !e.begun.isEmpty then
                pure (.inl { e with ahead := [⟨e.begun.reverse, false⟩], begun := [] })
              else if stays then pure (.inr (none, e))
              else
                let ((), e) ← (closeFile c).run e
                pure (.inl e)
          | .ok bytes =>
              let (lines, begun) := cutLines e.begun [] (Narrow.ofBytes bytes)
              pure (.inl { e with ahead := lines, begun := begun })) (none, e) Routine.rounds e
where
  cutLines : Text → List Line → Text → List Line × Text
    | current, done, [] => (done.reverse, current)
    | current, done, x :: rest =>
        if x = c.mark then cutLines [] (⟨current.reverse, true⟩ :: done) rest
        else cutLines (x :: current) done rest

/-- Whether there are no more lines, in this file or, unless files are separate, in any. -/
def isLast : Edition Bool := do
  let _ ← readAhead c c.isSeparate
  pure (← get).ahead.isEmpty

def nextLine : Edition (Except Halt (Option Line)) := do
  emitAppended c
  modify fun e => { e with isReplaced := false }
  match ← readAhead c false with
  | some halt => pure (.error halt)
  | none =>
      let e ← get
      match e.ahead with
      | [] => pure (.ok none)
      | l :: ahead =>
          set { e with ahead := ahead, number := e.number + 1, isNew := false }
          if e.isNew && c.isSeparate then
            modify fun e => { e with
              number := 1, held := ⟨[], true⟩, readers := [], ranges := openRanges c.script }
            emitPieces c [] true
          pure (.ok (some l))

/-- The expression that is meant, which becomes the last that was used. -/
def resolve (e? : Option Expression) : Edition (Option Expression) := do
  match e? with
  | some x =>
      modify fun e => { e with expression? := some x }
      pure (some x)
  | none => pure (← get).expression?

def isAt : Spot → Edition (Except Halt Bool)
  | .line number => return .ok ((← get).number == number)
  | .stepped first step => do
      let n := (← get).number
      return .ok (first ≤ n && (n - first) % step == 0)
  | .last => return .ok (← isLast c)
  | .matching e? => do
      match ← resolve e? with
      | none => return .error (.fault noExpression 1)
      | some x =>
          let chars := (Wide.seen c.isWide (← get).space.text).toArray
          let s : Regex.Subject := ⟨chars, c.isWide, x.ignoresCase, x.hasLines⟩
          return .ok (x.regex.search s 0).isSome
where
  noExpression : Text := "-e expression #1, char 0: no previous regular expression"

def setRange (place : Nat) (state? : Option RangeState) : Edition Unit :=
  modify fun e => { e with
    ranges := (state?.map (place, ·)).toList ++ e.ranges.filter (·.1 ≠ place) }

/-- Whether the line is in a range. One that begins at a numbered line begins behind it if that is
not seen. -/
def isInRange (place : Nat) (start : Spot) (stop : RangeEnd) : Edition (Except Halt Bool) := do
  let number := (← get).number
  match (← get).ranges.lookup place with
  | some (.until last) =>
      if last ≤ number then setRange place (some .closed)
      pure (.ok (number ≤ last))
  | some (.reaching last) =>
      if last ≤ number then setRange place (some .closed)
      pure (.ok true)
  | some .open =>
      match stop with
      | .spot s =>
          match ← isAt c s with
          | .ok isOver =>
              if isOver then setRange place (some .closed)
              pure (.ok true)
          | .error halt => pure (.error halt)
      | _ => pure (.ok true)
  | state? =>
      let begins ← match start, stop with
        | .line first, .spot (.line last) =>
            pure (.ok (number == first || (first ≤ number && number ≤ last)))
        | .line first, _ => pure (.ok (state? != some .closed && first ≤ number))
        | _, _ => isAt c start
      match begins with
      | .ok true =>
          match stop with
          | .spot (.line last) =>
              setRange place (if number < last then some (.until last) else some .closed)
          | .after count =>
              setRange place (if count = 0 then some .closed else some (.reaching (number + count)))
          | .multiple factor =>
              setRange place (some (.reaching ((number / factor + 1) * factor)))
          | .spot _ => setRange place (some .open)
          pure (.ok true)
      | result => pure result

/-- Whether an instruction is meant for the line. -/
def selects (place : Nat) (s : Selector) : Edition (Except Halt Bool) := do
  let isIn ← match s.start?, s.stop? with
    | none, _ => pure (Except.ok true)
    | some start, none => isAt c start
    | some start, some stop => isInRange c place start stop
  pure (isIn.map (· != s.isNegated))

/-- Puts a command's output in front of what follows. -/
def runCommand (run : Text → Routine Text) (command : Text) : Edition Text := do
  Routine.flush
  (run command : Routine Text)

/-- Carries out what an instruction asks for. -/
def perform (run : Text → Routine Text) (place : Nat) : Action → Edition (Except Halt Flow)
  | .openBlock _ => onward
  | .closeBlock => onward
  | .label => onward
  | .jump kind label => do
      let e ← get
      let isTaken := match kind with
        | .always => true
        | .ifReplaced => e.isReplaced
        | .unlessReplaced => !e.isReplaced
      if kind != .always then modify fun e => { e with isReplaced := false }
      if !isTaken then onward
      else if label.isEmpty then pure (.ok (.endRound true))
      else pure (.ok (.jump ((c.script.labels.lookup label).getD 0)))
  | .replace r => do
      match ← resolve r.expression? with
      | none => pure (.error (.fault isAt.noExpression 1))
      | some x =>
          match replaced? c.isWide r x (← get).space.text with
          | none => onward
          | some t =>
              modify fun e => { e with space := { e.space with text := t }, isReplaced := true }
              if r.executes then
                let output ← runCommand run t
                let t := if output.getLast? = some '\n' then output.dropLast else output
                modify fun e => { e with space := { e.space with text := t } }
              if r.prints then emitLine c (← get).space
              match r.output? with
              | some path => writeTo c path (← get).space
              | none => pure ()
              onward
  | .translate pairs => do
      let translated (t : Text) : Text :=
        Wide.unseen c.isWide ((Wide.seen c.isWide t).map fun x => (pairs.lookup x).getD x)
      modify fun e => { e with space := { e.space with text := translated e.space.text } }
      onward
  | .append t => do
      modify fun e => { e with appended := .text t :: e.appended }
      onward
  | .insert t => do
      emit c (ended t) true
      onward
  | .change t => do
      let isInside := match (← get).ranges.lookup place with
        | none => false
        | some .closed => false
        | some _ => true
      if !isInside then emit c (ended t) true
      pure (.ok (.endRound false))
  | .delete => pure (.ok (.endRound false))
  | .deleteFirst => do
      let e ← get
      match Text.cut [c.mark] e.space.text with
      | none => pure (.ok (.endRound false))
      | some (_, rest) =>
          set { e with space := { e.space with text := rest } }
          pure (.ok .again)
  | .print => do
      emitLine c (← get).space
      onward
  | .printFirst => do
      emitLine c (firstOf (← get).space)
      onward
  | .next => do
      if ← isLast c then pure (.ok (.endRound true))
      else
        if !c.isSilent then emitLine c (← get).space
        advance fun _ l => l
  | .joinNext => do
      if ← isLast c then pure (.ok (.endRound true))
      else advance fun before l => ⟨before.text ++ c.mark :: l.text, l.hasEnd⟩
  | .hold => do
      modify fun e => { e with held := e.space }
      onward
  | .holdMore => do
      modify fun e => { e with
        held := ⟨e.held.text ++ c.mark :: e.space.text, e.space.hasEnd⟩ }
      onward
  | .fetch => do
      modify fun e => { e with space := e.held }
      onward
  | .fetchMore => do
      modify fun e => { e with
        space := ⟨e.space.text ++ c.mark :: e.held.text, e.held.hasEnd⟩ }
      onward
  | .exchange => do
      modify fun e => { e with space := e.held, held := e.space }
      onward
  | .number => do
      emit c (Text.decimal (← get).number ++ [c.mark]) true
      onward
  | .list width? => do
      let pieces := visiblePieces (← get).space.text
      emit c (wrapped (width?.getD c.width) pieces ++ [c.mark]) true
      onward
  | .name => do
      emit c ((← get).name ++ [c.mark]) true
      onward
  | .empty => do
      modify fun e => { e with space := { e.space with text := [] } }
      onward
  | .quit status => pure (.ok (.quit status true))
  | .quitSilent status => pure (.ok (.quit status false))
  | .appendFile path => do
      modify fun e => { e with appended := .file path :: e.appended }
      onward
  | .appendLine path => do
      modify fun e => { e with appended := .line path :: e.appended }
      onward
  | .write path => do
      writeTo c path (← get).space
      onward
  | .writeFirst path => do
      writeTo c path (firstOf (← get).space)
      onward
  | .execute command => do
      if command.isEmpty then
        let output ← runCommand run (← get).space.text
        let t := if output.getLast? = some '\n' then output.dropLast else output
        modify fun e => { e with space := { e.space with text := t } }
      else
        let output ← runCommand run command
        if !output.isEmpty then emit c output true
      onward
where
  onward : Edition (Except Halt Flow) := pure (.ok .onward)
  /-- The first of several lines. -/
  firstOf (l : Line) : Line :=
    ⟨l.text.takeWhile (· != c.mark), l.hasEnd || l.text.contains c.mark⟩
  /-- A text with the mark of a line at its end instead of a line feed. -/
  ended (t : Text) : Text := if t.isEmpty then [] else t.dropLast ++ [c.mark]
  advance (join : Line → Line → Line) : Edition (Except Halt Flow) := do
    match ← nextLine c with
    | .error halt => pure (.error halt)
    | .ok none => pure (.ok (.quit 0 true))
    | .ok (some l) =>
        modify fun e => { e with space := join e.space l }
        onward

/-- One step: the next instruction, or the next line if there is no instruction left. Yields where
to go on, or the status at the end. -/
def step (run : Text → Routine Text) (place? : Option Nat) :
    Edition (Except Halt (Option Nat ⊕ Nat)) := do
  match place? with
  | none =>
      match ← nextLine c with
      | .error halt => pure (.error halt)
      | .ok none => pure (.ok (.inr 0))
      | .ok (some l) =>
          modify fun e => { e with space := l }
          pure (.ok (.inl (some 0)))
  | some place =>
      match c.script.instructions[place]? with
      | none => endRound true
      | some i =>
          match ← selects c place i.selector with
          | .error halt => pure (.error halt)
          | .ok false =>
              match i.action with
              | .openBlock stop => pure (.ok (.inl (some (stop + 1))))
              | _ => pure (.ok (.inl (some (place + 1))))
          | .ok true =>
              match ← perform c run place i.action with
              | .error halt => pure (.error halt)
              | .ok .onward => pure (.ok (.inl (some (place + 1))))
              | .ok (.jump target) => pure (.ok (.inl (some target)))
              | .ok (.endRound prints) => endRound prints
              | .ok .again =>
                  emitAppended c
                  pure (.ok (.inl (some 0)))
              | .ok (.quit status prints) =>
                  if prints then
                    if !c.isSilent then emitLine c (← get).space
                    emitPieces c [] true
                    emitAppended c
                  pure (.ok (.inr status))
where
  endRound (prints : Bool) : Edition (Except Halt (Option Nat ⊕ Nat)) := do
    if prints && !c.isSilent then emitLine c (← get).space
    pure (.ok (.inl none))

end Edition

def outputsOf (script : EditScript) : List Text :=
  (script.instructions.toList.filterMap fun i => match i.action with
    | .write path => some path
    | .writeFirst path => some path
    | .replace r => r.output?
    | _ => none).eraseDups

/-- Opens the files that a script writes to. -/
def openOutlets : List Text → Routine (Except Text (List (Text × Outlet)))
  | [] => pure (.ok [])
  | path :: rest => do
      let opened : Except SystemError (Option Nat) ←
        if path = ("/dev/stdout" : Text) then pure (.ok none)
        else if path = ("/dev/stderr" : Text) then pure (.ok (some 2))
        else (·.map some) <$> Routine.openFile path .writing
      match opened with
      | .error e => pure (.error ("couldn't open file " ++ path ++ ": " ++ reason e))
      | .ok descriptor? =>
          return (← openOutlets rest).map ((path, ⟨descriptor?, false, [], 0⟩) :: ·)

def runScript (c : Setting) (run : Text → Routine Text) (files : List Text) : Routine Nat := do
  match ← openOutlets (outputsOf c.script) with
  | .error message =>
      Routine.interject message
      pure 4
  | .ok outlets =>
      let begin : Editor := {
        space := ⟨[], true⟩
        held := ⟨[], true⟩
        number := 0
        isReplaced := false
        expression? := none
        ranges := openRanges c.script
        appended := []
        files := files
        descriptor? := none
        opened := []
        isNew := false
        name := []
        ahead := []
        begun := []
        printed := []
        lacksEnd := false
        outlets := outlets
        readers := []
        isMissing := false }
      Routine.goRound (fun (e, place?) => do
        let (result, e) ← (Edition.step c run place?).run e
        match result with
        | .ok (.inl place?) => pure (.inl (e, place?))
        | .ok (.inr status) =>
            let ((), e) ← (Edition.closeFile c).run e
            closeAll (e.outlets.map (·.2))
            let missing := if c.ending?.isSome && e.isMissing then 4 else 2
            pure (.inr (if e.isMissing then missing else status))
        | .error (.fault message status) =>
            Routine.interject message
            pure (.inr status)) 1 Routine.rounds (begin, none)

def known : Known :=
  .ofText "bsnrzuEe:f:l:i::\x01\x02\x03" [("expression", 'e'), ("file", 'f'), ("quiet", 'n'),
    ("silent", 'n'), ("regexp-extended", 'E'), ("in-place", 'i'), ("line-length", 'l'),
    ("null-data", 'z'), ("zero-terminated", 'z'), ("separate", 's'), ("unbuffered", 'u'),
    ("posix", '\x01'), ("debug", '\x02'), ("follow-symlinks", '\x03')]

/-- The parts of the script, from options or the first operand. -/
def sourcesOf (given : List Given) : Routine (Except Text (List (EditSource × Text))) := do
  let mut sources : List (EditSource × Text) := []
  let mut number := 0
  for g in given do
    match g with
    | ('e', some t) =>
        number := number + 1
        sources := sources ++ [(.expression number, t)]
    | ('f', some file) =>
        match ← Routine.load file with
        | .error e => return .error ("couldn't open file " ++ file ++ ": " ++ reason e)
        | .ok bytes =>
            let t := Narrow.ofBytes bytes
            let t := if t.getLast? = some '\n' then t.dropLast else t
            sources := sources ++ [(.file file, t)]
    | _ => pure ()
  return .ok sources

/-- Edits lines; `run` yields the output of a command. -/
def sed (run : Text → Routine Text) : Command := fun arguments => do
  match known.read false arguments with
  | .error fault =>
      Routine.interject fault.message
      Routine.complain usage
      pure 1
  | .ok (given, operands) =>
      match ← sourcesOf given with
      | .error message =>
          Routine.interject message
          pure 4
      | .ok sources =>
          match sources, operands with
          | [], [] =>
              Routine.complain usage
              pure 1
          | [], t :: files => go given [(.expression 1, t)] files
          | sources, files => go given sources files
where
  usage : Text :=
    "Usage: sed [OPTION]... \x7bscript-only-if-no-other-script\x7d [input-file]..."
  go (given : List Given) (sources : List (EditSource × Text)) (files : List Text) :
      Routine Nat := do
    let isWide := (← (get : Routine Shell)).isUnicode
    match EditScript.read isWide (isGiven given 'E' || isGiven given 'r') sources with
    | .error message =>
        Routine.interject message
        pure 1
    | .ok script =>
      match script.missingLabel? with
      | some label =>
          Routine.interject ("can't find label for jump to \x60" ++ label ++ ['\''])
          pure 4
      | none =>
        let isInPlace := isGiven given 'i'
        let setting : Setting := {
          script := script
          isWide := isWide
          isSilent := isGiven given 'n' || script.isSilent
          isSeparate := isGiven given 's' || isInPlace
          isUnbuffered := isGiven given 'u'
          ending? := if isInPlace then some ((argument? given 'i').getD []) else none
          mark := if isGiven given 'z' then '\x00' else '\n'
          width := ((argument? given 'l').bind Text.natural?).getD 70 }
        if isInPlace && files.isEmpty then
          Routine.interject "no input files"
          pure 4
        else runScript setting run (if files.isEmpty then [['-']] else files)

end Bytelink.Script.Editing
