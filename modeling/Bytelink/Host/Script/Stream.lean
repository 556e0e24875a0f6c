import Bytelink.Host.Script.Options

/-!
# Streams of lines

Programs that work on their input line by line, and do not wait for its end before they print. What
such a program does with a line is a step from one state to another that prints something; here are
the ways to lead lines to it: from one descriptor, and from files that are named as operands.
-/
namespace Bytelink.Script

/-- The complete lines of a text and the beginning of the line after them, given what has been read
of the current line, newest character first, and the complete lines before, newest first. -/
def splitLines : Text → List Text → Text → List Text × Text
  | current, done, [] => (done.reverse, current)
  | current, done, '\n' :: rest => splitLines [] (current.reverse :: done) rest
  | current, done, c :: rest => splitLines (c :: current) done rest

def wholeLines (t : Text) : List Text × Bool :=
  let (lines, open_) := splitLines [] [] t
  if open_.isEmpty then (lines, false) else (lines ++ [open_.reverse], true)

/-- The pieces of a whole text that a mark ends; at the end it may be missing. -/
def wholePieces (mark : Char) (t : Text) : List Text :=
  if mark = '\n' then (wholeLines t).1
  else
    let pieces := Text.splitOn mark t
    if pieces.getLast? = some [] then pieces.dropLast else pieces

def joinPieces (mark : Char) (pieces : List Text) : Text := pieces.flatMap (· ++ [mark])

/-- A text in which, if it is wanted, the zero byte and the line end stand for each other. -/
def swapped (isWanted : Bool) (t : Text) : Text :=
  if isWanted then t.map fun c => if c = '\n' then '\x00' else if c = '\x00' then '\n' else c
  else t

/-- A text, filled up with spaces in front. -/
def padLeft (width : Nat) (t : Text) : Text := List.replicate (width - t.length) ' ' ++ t

def joinLines (lines : List Text) : Text := lines.flatMap (· ++ ['\n'])

structure Filter (σ : Type) where
  /-- Takes a line and whether it has an end; gives what is printed. -/
  step : σ → Text → Bool → σ × List Text
  /-- Whether no more lines are wanted. -/
  isDone : σ → Bool
  /-- Looks at what has been read at once, before it is cut into lines. -/
  prepare : σ → Text → σ × Text := fun s t => (s, t)

namespace Filter

variable {σ : Type}

/-- Takes in several complete lines. What is printed is gathered, the newest first. -/
def takeLines (f : Filter σ) : σ → List Text → List Text → σ × List Text
  | s, printed, [] => (s, printed)
  | s, printed, line :: rest =>
      if f.isDone s then (s, printed)
      else
        let (s, more) := f.step s line true
        takeLines f s (more.reverse ++ printed) rest

/-- Takes in what has been read at once, in a state and with the beginning of a line, the newest
character first. Yields what is printed besides. -/
def takeChunk (f : Filter σ) : σ × Text → Text → (σ × Text) × Text
  | (s, current), t =>
      let (s, t) := f.prepare s t
      let (lines, current) := splitLines current [] t
      let (s, printed) := f.takeLines s [] lines
      ((s, current), printed.reverse.flatten)

end Filter

namespace Routine

variable {σ α : Type}

/-- How often a program may go round. -/
def rounds : Nat := 1000000000

/-- Goes round with a state until there is a result. Others may act between two rounds. -/
def goRound (step : σ → Routine (σ ⊕ α)) (otherwise : α) : Nat → σ → Routine α
  | 0, _ => pure otherwise
  | fuel + 1, s => do
      look fun _ => ()
      match ← step s with
      | .inl s => goRound step otherwise fuel s
      | .inr a => pure a

/-- Leads the lines that come from a descriptor to a filter. -/
def feed (f : Filter σ) (descriptor : Nat) (s : σ) : Routine (Except SystemError Unit × σ) :=
  goRound (fun (s, current) => do
    if f.isDone s then pure (.inr (.ok (), s))
    else
      match ← readSome descriptor chunkSize with
      | .error e => pure (.inr (.error e, s))
      | .ok [] =>
          if current.isEmpty then pure (.inr (.ok (), s))
          else
            let (s, printed) := f.step s current.reverse false
            say printed.flatten
            pure (.inr (.ok (), s))
      | .ok bytes =>
          let (state, printed) := f.takeChunk (s, current) (Narrow.ofBytes bytes)
          say printed
          pure (.inl state)) (.ok (), s) rounds (s, ([] : Text))

/-- Opens an operand for reading; a single dash is the input. -/
def openInput (t : Text) : Routine (Except SystemError Nat) :=
  if t = ['-'] then pure (.ok 0) else openFile t .reading

def closeInput (descriptor : Nat) : Routine Unit :=
  if descriptor = 0 then pure () else close descriptor

/-- Complains, under some label, of an input that was never open, which shows when it is closed. -/
def endInput (label : Text) (operands : List Text) (status : Nat) : Routine Nat := do
  let pid := (← get).pid
  let isUsed := operands.isEmpty || operands.contains ['-']
  if isUsed && (← look fun system => (system.descriptor? pid 0).isNone) then
    report (label ++ ": " ++ reason .badDescriptor)
    pure 1
  else pure status

def reportFile (t : Text) (e : SystemError) : Routine Unit := do
  report ((← quotedIfNeeded t) ++ ": " ++ reason e)

/-- Leads the lines of several files to a filter, or of the input if there are none. Yields a status
besides. -/
def feedFiles (f : Filter σ) (operands : List Text) (s : σ) : Routine (Nat × σ) := do
  let mut status := 0
  let mut state := s
  for operand in (if operands.isEmpty then [['-']] else operands) do
    match ← openInput operand with
    | .error e =>
        reportFile operand e
        status := 1
    | .ok descriptor =>
        let (result, next) ← feed f descriptor state
        closeInput descriptor
        state := next
        match result with
        | .ok () => pure ()
        | .error e =>
            reportFile operand e
            status := 1
  pure (status, state)

/-- The texts of several files one after another, or that of the input. -/
def loadFiles (operands : List Text) : Routine (Nat × Text) := do
  let mut status := 0
  let mut contents : List Text := []
  for operand in (if operands.isEmpty then [['-']] else operands) do
    match ← load operand with
    | .ok bytes => contents := Narrow.ofBytes bytes :: contents
    | .error e =>
        reportFile operand e
        status := 1
  pure (status, contents.reverse.flatten)

end Routine
end Bytelink.Script
