import Bytelink.Host.Process
import Bytelink.Host.Script.Grammar
import Bytelink.Text.Narrow

/-!
# Running programs

A routine is a program under way: it has a state of its own, acts on the system, and goes on with a
value or comes off in one of the ways of `Outcome`. What it becomes in the end is a `Process`. The
state is that of a shell; a program that comes with the machine uses little of it. All texts in it
are narrow: their characters are bytes.
-/
namespace Bytelink.Script

structure Variable where
  value? : Option Text
  isExported : Bool
  isReadOnly : Bool
  deriving DecidableEq, Repr

/-- How a part of a script comes off before its end. -/
inductive Outcome
  | exited
  /-- A fault that ends a script unless the command at fault stands for itself. -/
  | failed
  | broken (levels : Nat)
  | continued (levels : Nat)
  | returned
  deriving DecidableEq, Repr

/-- Processes that run beside the script under one number, that of the last of them. -/
structure Job where
  members : List Nat
  /-- How the last of them has ended, once that is known. -/
  status? : Option ExitStatus
  deriving DecidableEq, Repr

structure Shell where
  pid : Nat
  /-- The number of the process that the script began in. -/
  origin : Nat
  directory : NodeId
  /-- The path of the directory, as it was reached. -/
  path : Text
  /-- The path of the directory without links, where it is known. -/
  physical : Text
  name : Text
  parameters : List Text
  bindings : List (Text × Variable)
  functions : List (Text × Node)
  /-- The text documents of what has been read, by number, and how many numbers are in use. -/
  documents : List (Nat × Word)
  documentCount : Nat
  /-- The letters of the options that are set. -/
  settings : Text
  status : Nat
  /-- The line of the command that runs. -/
  line : Nat
  /-- The builtin that runs, for messages. -/
  command? : Option Text
  /-- The status of the latest substitution in the command that runs. -/
  captured : Nat
  /-- How many loops, how many functions, and how many calls of any kind, the script is in. -/
  loops : Nat
  depth : Nat
  calls : Nat
  /-- What is to be put back when functions return, the innermost first. -/
  frames : List (List (Text × Option Variable))
  /-- What is to be done on signals; zero stands for the end of the script. -/
  traps : List (Nat × Text)
  jobs : List Job
  lastJob? : Option Nat
  /-- Which argument has its option letters read next, and how many letters of the argument before
  it have been read; zero if all have. -/
  optionIndex : Nat
  optionPlace : Nat
  /-- Other names for commands. -/
  aliases : List (Text × Text)
  /-- Where programs that have been called were found. -/
  found : List (Text × Text)
  /-- The status before the action on a signal that runs. -/
  interrupted? : Option Nat
  /-- The rights that new files do not get, in groups of three bits. -/
  mask : Nat
  /-- Output that is still to be written, in chunks, the newest first, and its size. -/
  pending : List Bytes
  pendingSize : Nat
  /-- Why output could not be written. -/
  outputFault? : Option SystemError

/-- A program under way that yields a value. -/
def Routine (α : Type) : Type := Shell → (Except Outcome α → Shell → Process) → Process

namespace Routine

variable {α β : Type}

instance : Monad Routine where
  pure a := fun s go => go (.ok a) s
  bind m f := fun s go => m s fun result s => match result with
    | .ok a => f a s go
    | .error outcome => go (.error outcome) s

instance : MonadStateOf Shell Routine where
  get := fun s go => go (.ok s) s
  set s := fun _ go => go (.ok ()) s
  modifyGet f := fun s go => let (a, s) := f s; go (.ok a) s

instance : MonadExceptOf Outcome Routine where
  throw outcome := fun s go => go (.error outcome) s
  tryCatch m handle := fun s go => m s fun result s => match result with
    | .ok a => go (.ok a) s
    | .error outcome => handle outcome s go

instance : Inhabited (Routine α) := ⟨throw .failed⟩

/-- Does something to the system at once. -/
def act (step : System → System × α) : Routine α := fun s go =>
  .act fun system =>
    let (system, a) := step system
    (system, go (.ok a) s)

def look (view : System → α) : Routine α := act fun system => (system, view system)

def change (step : System → System) : Routine Unit := act fun system => (step system, ())

def pause (nanos : Nat) : Routine Unit := fun s go => .pause nanos (go (.ok ()) s)

def block (isReady : System → Bool) : Routine Unit := fun s go => .block isReady (go (.ok ()) s)

def finish (status : ExitStatus) : Routine α := fun s _ =>
  .act fun system => (system.finish s.pid status, .ended)

def process (program : Routine Unit) (s : Shell) : Process := program s fun _ _ => .ended

/-- Starts a process of its own, which begins as a copy, and yields its number. -/
def spawn (child : Routine Unit) : Routine Nat := fun s go =>
  .spawn (fun pid => child.process { s with pid := pid }) fun pid => go (.ok pid) s

/-- Runs a part and then another, however the first has come off. -/
def ensuring (part : Routine α) (after : Routine Unit) : Routine α := do
  match ← (try Except.ok <$> part catch outcome => pure (Except.error outcome)) with
  | .ok a =>
      after
      pure a
  | .error outcome =>
      after
      throw outcome

/-- How many bytes are read at a time. -/
def chunkSize : Nat := 65536

def deviceTime : Nat := 500000

/-- Reads what is there, at most `count` bytes; none at the end. -/
def readSome (descriptor count : Nat) : Routine (Except SystemError Bytes) := do
  let pid := (← get).pid
  block (·.canRead pid descriptor)
  if ← look fun system => system.endpoint? pid descriptor matches some (.device (_ :: _) _) then
    pause deviceTime
  act fun system => match system.read pid descriptor count with
    | (.done bytes, system) => (system, .ok bytes)
    | (.failed e, system) => (system, .error e)
    | (_, system) => (system, .ok [])

/-- How many bytes a program gathers at most; a longer input is taken never to end. -/
def gatheringLimit : Nat := 20000000

def readAll (descriptor : Nat) : Routine (Except SystemError Bytes) :=
  go (gatheringLimit + 1) 0 []
where
  go : Nat → Nat → List Bytes → Routine (Except SystemError Bytes)
    | 0, _, chunks => pure (.ok chunks.reverse.flatten)
    | fuel + 1, size, chunks => do
        if gatheringLimit < size then block fun _ => false
        match ← readSome descriptor chunkSize with
        | .error e => pure (.error e)
        | .ok [] => pure (.ok chunks.reverse.flatten)
        | .ok bytes => go fuel (size + bytes.length) (bytes :: chunks)

/-- How many pieces of a line are read at most. -/
def lineLimit : Nat := 1000000000

def readLine (descriptor : Nat) : Routine (Except SystemError Bytes) := go lineLimit []
where
  go : Nat → List Bytes → Routine (Except SystemError Bytes)
    | 0, pieces => pure (.ok pieces.reverse.flatten)
    | fuel + 1, pieces => do
        let pid := (← get).pid
        block (·.canRead pid descriptor)
        match ← act fun system => (system.readPortion pid descriptor .line).swap with
        | .done bytes =>
            if bytes.isEmpty || bytes.getLast? = some 0x0A then
              pure (.ok (bytes :: pieces).reverse.flatten)
            else go fuel (bytes :: pieces)
        | .failed e => pure (.error e)
        | _ => pure (.ok pieces.reverse.flatten)

/-- The number of the signal that a writer gets when nobody reads. -/
def brokenPipe : Nat := 13

/-- Writes all bytes. A writer whom nobody reads is killed unless it ignores that. -/
def write (descriptor : Nat) (bytes : Bytes) : Routine (Except SystemError Unit) :=
  if bytes.isEmpty then pure (.ok ()) else go (bytes.length + 1) bytes
where
  go : Nat → Bytes → Routine (Except SystemError Unit)
    | 0, _ => pure (.ok ())
    | fuel + 1, bytes => do
        let pid := (← get).pid
        block (·.canWrite pid descriptor)
        match ← act fun system => (system.write pid descriptor bytes).swap with
        | .done [] => pure (.ok ())
        | .done rest => go fuel rest
        | .waiting => go fuel bytes
        | .failed e => pure (.error e)
        | .broken =>
            if ← look fun system => (system.member? pid).any (·.ignored.contains brokenPipe) then
              pure (.error (.numbered 32))
            else finish (.signalled brokenPipe false)

/-- How much output is gathered before it is written. -/
def bufferSize : Nat := 4096

/-- Writes output; a fault is kept in mind. -/
def writeOutput (bytes : Bytes) : Routine Unit := do
  match ← write 1 bytes with
  | .ok () => pure ()
  | .error e => modify fun s => { s with outputFault? := some e }

def flush : Routine Unit := do
  let s ← get
  if s.pending.isEmpty then pure ()
  else
    set { s with pending := [], pendingSize := 0 }
    writeOutput s.pending.reverse.flatten

/-- Adds bytes to the output, of which whole portions are written if they are too many to keep. -/
def put (bytes : Bytes) : Routine Unit := do
  let s ← get
  let size := s.pendingSize + bytes.length
  if bytes.isEmpty then pure ()
  else if size ≤ bufferSize then set { s with pending := bytes :: s.pending, pendingSize := size }
  else
    let (due, kept) := (bytes :: s.pending).reverse.flatten.splitAt (size / bufferSize * bufferSize)
    set { s with pending := if kept.isEmpty then [] else [kept], pendingSize := kept.length }
    writeOutput due

def say (t : Text) : Routine Unit := put (Narrow.toBytes t)

/-- Writes a line to the error output. -/
def complain (t : Text) : Routine Unit := do
  let _ ← write 2 (Narrow.toBytes (t ++ ['\n']))

def pathOf (t : Text) : Path := ⟨Narrow.toText t⟩

def inVolume (view : Volume → NodeId → α) : Routine α := do
  let directory := (← get).directory
  look fun system => view system.volume directory

def find (t : Text) : Routine (Except SystemError (NodeId × Inode)) :=
  inVolume fun v directory => (v.find directory (pathOf t)).map fun n => (n, v.node n)

/-- What a path leads to; a link at the end is not followed. -/
def findEntry (t : Text) : Routine (Except SystemError (NodeId × Inode)) :=
  inVolume fun v directory => (v.findEntry directory (pathOf t)).map fun n => (n, v.node n)

def nodeAt (n : NodeId) : Routine Inode := look fun system => system.volume.node n

/-- Changes the volume if that is possible. -/
def attempt (step : Volume → NodeId → Except SystemError Volume) :
    Routine (Except SystemError Unit) := do
  let directory := (← get).directory
  act fun system => match step system.volume directory with
    | .ok volume => ({ system with volume := volume }, .ok ())
    | .error e => (system, .error e)

/-- A mode less the rights that new files do not get. -/
def masked (mode : Nat) : Routine Nat := do
  return mode &&& (0o7777 - (← get).mask)

/-- Opens a file under the least free descriptor from a number on. Who opens one end of a pipe waits
for the other. -/
def openFileFrom (least : Nat) (t : Text) (access : Access) :
    Routine (Except SystemError Nat) := do
  let s ← get
  let result : Except SystemError (Nat × Option System.Meeting) ← act fun system =>
    match system.openFile s.pid s.directory s.mask (pathOf t) access with
    | .ok (opened, system) =>
        let number := system.freeDescriptor s.pid least
        (system.place s.pid number ⟨opened.opening, true⟩, .ok (number, opened.meeting?))
    | .error e => (system, .error e)
  match result with
  | .ok (number, some meeting) =>
      block (·.isMet meeting)
      pure (.ok number)
  | .ok (number, none) => pure (.ok number)
  | .error e => pure (.error e)

def openFile (t : Text) (access : Access) : Routine (Except SystemError Nat) :=
  openFileFrom 3 t access

def close (descriptor : Nat) : Routine Unit := do
  let pid := (← get).pid
  change (·.close pid descriptor)

/-- What a file holds; a single dash stands for the input. -/
def load (t : Text) : Routine (Except SystemError Bytes) := do
  if t = ['-'] then readAll 0
  else
    match ← openFile t .reading with
    | .error e => pure (.error e)
    | .ok descriptor =>
        let content ← readAll descriptor
        close descriptor
        pure content

end Routine

/-- What a program or builtin does with its arguments; it yields its status. -/
abbrev Command := List Text → Routine Nat

namespace Shell

/-- A shell about to begin. -/
def start (pid : Nat) (directory : NodeId) (mask : Nat) (name : Text)
    (bindings : List (Text × Variable)) : Shell where
  pid := pid
  origin := pid
  directory := directory
  path := []
  physical := []
  name := name
  parameters := []
  bindings := bindings
  functions := []
  documents := []
  documentCount := 0
  settings := []
  status := 0
  line := 0
  command? := none
  captured := 0
  loops := 0
  depth := 0
  calls := 0
  frames := []
  traps := []
  jobs := []
  lastJob? := none
  optionIndex := 1
  optionPlace := 0
  aliases := []
  found := []
  interrupted? := none
  mask := mask
  pending := []
  pendingSize := 0
  outputFault? := none

def isSet (s : Shell) (letter : Char) : Bool := s.settings.contains letter

def binding? (s : Shell) (name : Text) : Option Variable := s.bindings.lookup name

def value? (s : Shell) (name : Text) : Option Text := (s.binding? name).bind (·.value?)

def isReadOnly (s : Shell) (name : Text) : Bool := (s.binding? name).any (·.isReadOnly)

/-- Puts a value under a name, behind the others if it is a new one. -/
def keep {α : Type} (name : Text) (value : α) (kept : List (Text × α)) : List (Text × α) :=
  if kept.any (·.1 == name) then kept.map fun k => if k.1 == name then (name, value) else k
  else kept ++ [(name, value)]

def setVariable (s : Shell) (name : Text) (v : Variable) : Shell :=
  { s with bindings := keep name v s.bindings }

def removeVariable (s : Shell) (name : Text) : Shell :=
  { s with bindings := s.bindings.filter (·.1 ≠ name) }

/-- Gives a variable a value and leaves its other properties alone. Where programs are is forgotten
when the places to look change. -/
def setValue (s : Shell) (name value : Text) : Shell :=
  let v := (s.binding? name).getD ⟨none, s.isSet 'a', false⟩
  let s := s.setVariable name
    { v with value? := some value, isExported := v.isExported || s.isSet 'a' }
  if name = ("PATH" : Text) then { s with found := [] } else s

/-- The variables that programs get to see. -/
def environment (s : Shell) : List (Text × Variable) :=
  s.bindings.filterMap fun v =>
    if v.2.isExported && v.2.value?.isSome then some (v.1, { v.2 with isReadOnly := false })
    else none

/-- In which of several lists a shell keeps something by its name. -/
def listOf (count : Nat) (name : Text) : Nat :=
  (16 * (name.headD '\x00').toNat + (name.map Char.toNat).foldl (· + ·) 0) % count

/-- What a shell keeps in several lists, in the order in which it goes through them. -/
def inLists {α : Type} (count : Nat) (kept : List (Text × α)) : List (Text × α) :=
  kept.mergeSort fun a b => listOf count a.1 ≤ listOf count b.1

/-- In how many lists a shell keeps variables and other names, and in how many programs. -/
def nameLists : Nat := 39

def programLists : Nat := 31

def handedOver (s : Shell) : List (Text × Variable) := inLists nameLists s.environment

/-- Notes the path of the directory. -/
def withPath (s : Shell) (path physical : Text) : Shell :=
  { s with path := path, physical := physical }.setVariable "PWD" ⟨some path, true, false⟩

def message (s : Shell) (t : Text) : Text :=
  s.name ++ ": " ++ Text.decimal s.line ++ ": " ++
    (match s.command? with
      | some command => command ++ ": "
      | none => []) ++ t

end Shell

namespace Routine

variable {α : Type}

def warn (t : Text) : Routine Unit := do complain ((← get).message t)

/-- Tells of a fault that ends the script. -/
def fail (t : Text) : Routine α := do
  warn t
  modify fun s => { s with status := 2 }
  throw .failed

end Routine

def reason : SystemError → Text
  | .numbered number => SystemError.describe number
  | .described text => text

end Bytelink.Script
