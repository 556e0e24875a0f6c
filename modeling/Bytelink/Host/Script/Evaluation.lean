import Bytelink.Host.Script.Programs
import Bytelink.Host.Script.Reader
import Bytelink.Host.Script.Redirecting

/-!
# Running a script

Evaluates the tree of a script. Most commands are programs, which run in processes of their own;
builtins and functions run in the process of the script. A part that stands in parentheses or in a
pipeline is evaluated by a copy of the script. Fuel bounds the depth of the evaluation.
-/
namespace Bytelink.Script

/-- How a part of a script is evaluated. -/
structure Mode where
  /-- Whether somebody asks for its status, so that failure is no reason to leave. -/
  isTested : Bool
  /-- Whether the script ends with it. -/
  isFinal : Bool
  deriving DecidableEq, Repr

namespace Mode

def plain : Mode := ⟨false, false⟩

def tested : Mode := ⟨true, false⟩

def final : Mode := ⟨false, true⟩

/-- The mode of a part behind which more follows. -/
def inner (m : Mode) : Mode := { m with isFinal := false }

end Mode

open Routine in
def leaveLoops (way : Nat → Outcome) : Command := fun arguments => do
  let levels ← match arguments with
    | t :: _ => do
        let n ← Parameters.number t
        if n = 0 then fail ("Illegal number: " ++ t) else pure n
    | [] => pure 1
  modify fun s => { s with status := 0 }
  let loops := (← get).loops
  if loops = 0 then pure 0 else throw (way (min levels loops))

/-- Ends the script, with the status of the last command unless another is stated. While the action
on a signal runs, the last command is the one before it. -/
def exit : Command := fun arguments => do
  let status ← match arguments with
    | t :: _ => Parameters.number t
    | [] => do
        let s ← get
        pure (s.interrupted?.getD s.status)
  modify fun s => { s with status := status }
  throw .exited

def returnCommand : Command := fun arguments => do
  let status ← match arguments with
    | t :: _ => Parameters.number t
    | [] => pure (← get).status
  modify fun s => { s with status := status }
  throw .returned

/-- Builtins that need nothing but the state of the script. -/
def builtins : List (String × Command) :=
  [(":", fun _ => pure 0), ("true", fun _ => pure 0), ("false", fun _ => pure 1),
    ("echo", echo), ("printf", printf), ("test", Condition.test false),
    ("[", Condition.test true), ("alias", Parameters.aliasCommand),
    ("unalias", Parameters.unaliasCommand), ("export", Parameters.exportCommand),
    ("readonly", Parameters.readonlyCommand), ("local", Parameters.localCommand),
    ("unset", Parameters.unset), ("set", Parameters.set), ("shift", Parameters.shift),
    ("getopts", Parameters.getopts), ("read", Parameters.readCommand), ("cd", Surroundings.cd),
    ("chdir", Surroundings.cd), ("pwd", Surroundings.pwd), ("umask", Surroundings.umask),
    ("times", Surroundings.times), ("ulimit", Surroundings.ulimit), ("trap", Signals.trap),
    ("kill", Signals.kill), ("wait", Signals.wait), ("jobs", Signals.jobs),
    ("exit", exit), ("return", returnCommand), ("break", leaveLoops .broken),
    ("continue", leaveLoops .continued)]

/-- Builtins that evaluate or start something themselves. -/
def evaluatingBuiltins : List String := ["eval", ".", "exec", "command", "type", "hash"]

/-- Builtins whose failure ends a script, and before which assignments stay. -/
def specialBuiltins : List String :=
  [":", ".", "break", "continue", "eval", "exec", "exit", "export", "local", "readonly",
    "return", "set", "shift", "times", "trap", "unset"]

def assigningBuiltins : List String := ["alias", "export", "local", "readonly"]

inductive Callee
  | builtin (name : Text)
  | function (body : Node)
  | program

/-- What a name of a command means. -/
def Shell.callee (s : Shell) (skipsFunctions : Bool) (name : Text) : Callee :=
  let isBuiltin := isOneOf evaluatingBuiltins name || builtins.any (·.1.toList == name)
  if isOneOf specialBuiltins name then .builtin name
  else match (if skipsFunctions then none else s.functions.lookup name) with
    | some body => .function body
    | none => if isBuiltin then .builtin name else .program

/-- The arguments behind `command` and its options, and whether the usual places are to be searched;
none if the command itself is meant. -/
def behindCommand (isDefault : Bool) : List Text → Option (Bool × List Text)
  | [] => none
  | ['-', '-'] :: rest => if rest.isEmpty then none else some (isDefault, rest)
  | ('-' :: c :: letters) :: rest =>
      if (c :: letters).all (· == 'p') then behindCommand true rest else none
  | arguments => some (isDefault, arguments)

structure Call where
  arguments : List Text
  callee? : Option Callee
  /-- Whether failure ends the script. -/
  isSpecial : Bool
  /-- Whether assignments in front of the command hold only while it runs. -/
  isTemporary : Bool
  /-- Whether programs are looked for in the usual places. -/
  isDefault : Bool

/-- Follows `command` to what it calls. -/
def Shell.follow (s : Shell) : Nat → Bool → List Text → Bool × Option Callee × List Text
  | 0, isDefault, arguments => (isDefault, none, arguments)
  | _ + 1, isDefault, [] => (isDefault, none, [])
  | fuel + 1, isDefault, name :: rest =>
      match s.callee true name with
      | .builtin builtin =>
          if builtin = ("command" : Text) then
            match behindCommand isDefault rest with
            | some (isDefault, arguments) => s.follow fuel isDefault arguments
            | none => (isDefault, some (.builtin builtin), name :: rest)
          else (isDefault, some (.builtin builtin), name :: rest)
      | callee => (isDefault, some callee, name :: rest)

def Shell.call (s : Shell) (arguments : List Text) : Call :=
  match arguments with
  | [] => ⟨[], none, false, false, false⟩
  | name :: _ =>
      match s.callee false name with
      | .builtin builtin =>
          let isSpecial := isOneOf specialBuiltins builtin
          let (isDefault, callee?, arguments) := s.follow arguments.length false arguments
          ⟨arguments, callee?, isSpecial, !isSpecial, isDefault⟩
      | callee => ⟨arguments, some callee, false, true, false⟩

def leadsNowhere (e : SystemError) : Bool :=
  isAbsence e || e == .tooManyLinks || e == .nameTooLong

/-- Why a program cannot be run, in the words of the shell. -/
def runningReason (e : SystemError) : Text := if isAbsence e then "not found" else reason e

/-- The paths from the first one on that leads to a file that may be run, or why there is none. -/
def programAt (volume : Volume) (directory : NodeId) : SystemError → List Text →
    Except SystemError (Text × List Text)
  | fault, [] => .error fault
  | fault, path :: rest =>
      match volume.find directory ⟨Narrow.toText path⟩ with
      | .ok n =>
          let node := volume.node n
          if node.isFile && node.grants .search then .ok (path, rest)
          else programAt volume directory .permissionDenied rest
      | .error e =>
          programAt volume directory (if isAbsence e then fault else e) rest

/-- The values from the surroundings that a shell begins with. -/
def shellVariables (parent : Nat) (given : List (Text × Variable)) : List (Text × Variable) :=
  let own (name value : Text) : Text × Variable := (name, ⟨some value, false, false⟩)
  let usual := [own "OPTIND" "1", own "IFS" defaultSeparators, own "PS1" "$ ", own "PS2" "> ",
    own "PS4" "+ ", own "PPID" (Text.decimal parent)]
  let isUsual (name : Text) : Bool := usual.any (·.1 == name)
  let kept := given.filter fun v => isName v.1 && !isUsual v.1
  usual ++ (if kept.any (·.1 == ("PATH" : Text)) then [] else [own "PATH" defaultPath]) ++ kept

namespace Routine

/-- Waits for ever. -/
def stuck {α : Type} (otherwise : α) : Routine α := do
  block fun _ => false
  pure otherwise

/-- Starts a copy of the script that carries out something and then leaves. Actions on signals are
not copied. A copy in the background reads nothing unless it is part of a pipeline. -/
def fork (isBackground hasNoInput : Bool) (leaving : Routine Unit) (body : Routine Unit) :
    Routine Nat :=
  spawn do
    modify fun s => { s with traps := s.traps.filter (·.2.isEmpty), jobs := [] }
    if isBackground then
      let s ← get
      change fun system =>
        let system := system.updateMember s.pid fun m => { m with ignored := 2 :: 3 :: m.ignored }
        if !hasNoInput then system
        else match system.openFile s.pid s.directory s.mask ⟨"/dev/null"⟩ .reading with
          | .ok (opened, system) => system.place s.pid 0 ⟨opened.opening, false⟩
          | .error _ => system
    try body catch _ => pure ()
    leaving

/-- A pipe, both ends of which are kept under high numbers. -/
def openPair : Routine (Nat × Nat) := do
  let pid := (← get).pid
  act fun system =>
    let (reader, writer, system) := system.openPipe []
    let first := system.freeDescriptor pid keptFrom
    let second := system.freeDescriptor pid (first + 1)
    (system.placeAll pid [(first, ⟨reader, true⟩), (second, ⟨writer, true⟩)], (first, second))

/-- Makes a descriptor lead to where one that is kept leads. -/
def connect (kept descriptor : Nat) : Routine Unit := do
  let pid := (← get).pid
  change fun system => match system.descriptor? pid kept with
    | some d => (system.place pid descriptor ⟨d.opening, false⟩).close pid kept
    | none => system

/-- Notes processes that run beside the script. -/
def addJob (members : List Nat) : Routine Unit :=
  modify fun s => { s with jobs := s.jobs ++ [⟨members, none⟩], lastJob? := members.getLast? }

/-- Puts the variables back that were noted since the frame was begun. -/
def endFrame : Routine Unit :=
  modify fun s => match s.frames with
    | [] => s
    | frame :: outer =>
        let s := { s with frames := outer }
        frame.foldl (fun s (name, v?) => match v? with
          | some v => if name = ['-'] then { s with settings := v.value?.getD [] }
            else s.setVariable name v
          | none => s.removeVariable name) s

/-- Where the shell looks for a program. -/
def placesOf (isDefault : Bool) (name : Text) : Routine (List Text) := do
  let s ← get
  let path := if isDefault then defaultPath else (s.value? "PATH").getD []
  return searchPaths path name

/-- Whether there are actions on signals. -/
def hasTraps : Routine Bool := do
  return (← get).traps.any (!·.2.isEmpty)

/-- Tells of a program that cannot be run, and ends the process. -/
def giveUp (name : Text) (e : SystemError) : Routine Nat := do
  warn (name ++ ": " ++ runningReason e)
  modify fun s => { s with status := if leadsNowhere e then 127 else 126 }
  throw .exited

/-- Shows a command before it runs. -/
def trace (diversions : List Diversion) (words : List Text) : Routine Unit := do
  let s ← get
  if s.isSet 'x' then
    let descriptor := match (diversions.reverse.find? (·.descriptor == 2)).bind (·.kept?) with
      | some kept => kept
      | none => 2
    let line := (s.value? "PS4").getD [] ++ Text.join [' '] words ++ ['\n']
    let _ ← write descriptor (Narrow.toBytes line)

/-- Describes what a name of a command means; tells the whole or just the place of it. -/
def describe (isWhole : Bool) (isDefault : Bool) (name : Text) : Routine Nat := do
  let s ← get
  let tell (meaning short : Text) : Routine Nat := do
    say ((if isWhole then name ++ ' ' :: meaning else short) ++ ['\n'])
    pure 0
  if isOneOf reservedWords name then tell "is a shell keyword" name
  else match s.aliases.lookup name with
    | some t => tell ("is an alias for " ++ t) ("alias " ++ name ++ '=' :: Parameters.inQuotes t)
    | none => match s.callee false name with
      | .builtin builtin =>
          tell (if isOneOf specialBuiltins builtin then "is a special shell builtin"
            else "is a shell builtin") name
      | .function _ => tell "is a shell function" name
      | .program =>
          let places ← placesOf isDefault name
          match ← inVolume fun v directory => programAt v directory .notFound places with
          | .ok (path, _) =>
              let isTracked := (s.found.lookup name).isSome
              tell ((if isTracked then "is a tracked alias for " else "is ") ++ path) path
          | .error _ =>
              if isWhole then say (name ++ ": not found\n")
              pure 127

def keepPlace (name : Text) : Routine Nat := do
  match (← get).callee false name with
  | .program =>
      let places ← placesOf false name
      match ← inVolume fun v directory => programAt v directory .notFound places with
      | .ok (path, _) =>
          modify fun s => { s with found := Shell.keep name path s.found }
          pure 0
      | .error _ =>
          warn (name ++ ": not found")
          pure 1
  | _ => pure 0

/-- Runs a part of a loop. Ways out of more than one loop are passed on. -/
def inRound (part : Routine Nat) : Routine (Option Nat ⊕ Unit) := do
  try return .inl (some (← part))
  catch
    | .broken levels => if levels ≤ 1 then return .inr () else throw (.broken (levels - 1))
    | .continued levels =>
        if levels ≤ 1 then return .inl none else throw (.continued (levels - 1))
    | outcome => throw outcome

/-- Something that is done inside one more loop. -/
def asLoop (part : Routine Nat) : Routine Nat := do
  modify fun s => { s with loops := s.loops + 1 }
  ensuring part (modify fun s => { s with loops := s.loops - 1 })

/-- How deep functions may call each other. -/
def functionLimit : Nat := 1000

/-- How deep functions, files and texts may call each other. -/
def callLimit : Nat := 10000

/-- The number of the signal for a process that has used up its memory for calls. -/
def memoryFault : Nat := 11

/-- Something that is done one call deeper. -/
def asCall {α : Type} (part : Routine α) : Routine α := do
  if callLimit ≤ (← get).calls then finish (.signalled memoryFault false)
  modify fun s => { s with calls := s.calls + 1 }
  ensuring part (modify fun s => { s with calls := s.calls - 1 })

/-- How long a round of a loop takes. -/
def roundTime : Nat := 20000

/-- A text that a script is read from, such as a file, as far as it is there. -/
structure Input where
  /-- The part that has not been shown, and the number of the line on which it begins. -/
  unshown : Text
  line : Nat
  /-- Where more of it comes from. -/
  descriptor? : Option Nat

def scriptText (bytes : Bytes) : Text := Narrow.ofBytes (bytes.filter (· != 0))

/-- How much of a script is read at a time. -/
def scriptPortion : Nat := 8192

def readMore (descriptor : Nat) (input? : Option Input) : Routine (Text × Option Input) := do
  let bytes := (← readSome descriptor scriptPortion).toOption.getD []
  let more := scriptText bytes
  pure (more, input?.map fun input => { input with
    unshown := input.unshown ++ more
    descriptor? := if bytes.isEmpty then none else input.descriptor? })

/-- What follows some lines of a text. -/
def behindLines : Nat → Text → Text
  | 0, t => t
  | _ + 1, [] => []
  | count + 1, '\n' :: rest => behindLines count rest
  | count + 1, _ :: rest => behindLines (count + 1) rest

/-- Shows the lines of an input in front of the line of a number if the script asks for that. -/
def showLines (line : Nat) (input? : Option Input) : Routine (Option Input) := do
  match input? with
  | none => pure none
  | some input =>
      let rest := behindLines (line - input.line) input.unshown
      if (← get).isSet 'v' then
        let shown := input.unshown.take (input.unshown.length - rest.length)
        let _ ← write 2 (Narrow.toBytes shown)
      pure (some { input with unshown := rest, line := line })

end Routine

open Routine

mutual

/-- Does what is to be done on signals that have arrived. -/
def runTraps : Nat → Routine Unit
  | 0 => stuck ()
  | fuel + 1 => do
      let numbers ← arrived
      if !numbers.isEmpty then
        let pid := (← get).pid
        change fun system => system.updateMember pid fun m => { m with arrived := [] }
        for number in numbers.eraseDups.mergeSort fun a b => a ≤ b do
          let before ← get
          match before.traps.lookup number with
          | some (c :: action) =>
              modify fun s => { s with
                interrupted? := some (before.interrupted?.getD before.status) }
              let _ ← evaluateText fuel .plain (c :: action)
              modify fun s => { s with
                status := before.status, interrupted? := before.interrupted? }
          | _ => pure ()

/-- Evaluates a part of a script and yields its status. -/
def evaluate : Nat → Mode → Node → Routine Nat
  | 0, _, _ => stuck 0
  | fuel + 1, mode, node => do
      runTraps fuel
      if (← get).isSet 'n' then
        if mode.isFinal then throw .exited
        return (← get).status
      let (status, isChecked) ← carryOut fuel mode node
      modify fun s => { s with status := status }
      runTraps fuel
      let s ← get
      if isChecked && !mode.isTested && status ≠ 0 && s.isSet 'e' then throw .exited
      if mode.isFinal then throw .exited
      return s.status

/-- Carries out a part of a script. The status comes with whether failure may end the script. -/
def carryOut : Nat → Mode → Node → Routine (Nat × Bool)
  | 0, _, _ => stuck (0, false)
  | fuel + 1, mode, node => do
      match node with
      | .simple line assignments words redirections =>
          return (← runSimple fuel mode line assignments words redirections, true)
      | .pipeline stages => return (← awaitCommand (← startStages fuel false none stages), true)
      | .negated node =>
          let status ← evaluate fuel .tested node
          return (if status = 0 then 1 else 0, false)
      | .both first second =>
          let status ← evaluate fuel .tested first
          if status ≠ 0 then return (status, false)
          else return (← evaluate fuel mode second, false)
      | .either first second =>
          let status ← evaluate fuel .tested first
          if status = 0 then return (0, false)
          else return (← evaluate fuel mode second, false)
      | .sequence nodes => return (← evaluateAll fuel mode nodes, false)
      | .background node =>
          match node with
          | .pipeline stages => addJob (← startStages fuel true none stages)
          | node =>
              let pid ← fork true true (leave fuel) do
                let _ ← evaluate fuel .final node
              addJob [pid]
          return (0, true)
      | .branch condition yes no? =>
          let status ← evaluate fuel .tested condition
          if status = 0 then return (← evaluate fuel mode yes, false)
          else match no? with
            | some no => return (← evaluate fuel mode no, false)
            | none => return (0, false)
      | .loop isUntil condition body =>
          let status ← asLoop (goRound (fun status => do
            pause roundTime
            match ← inRound (evaluate fuel .tested condition) with
            | .inr () => pure (.inr status)
            | .inl none => pure (.inl status)
            | .inl (some answer) =>
                if (answer == 0) == isUntil then pure (.inr status)
                else match ← inRound (evaluate fuel mode.inner body) with
                  | .inr () => pure (.inr (← get).status)
                  | .inl none => pure (.inl (← get).status)
                  | .inl (some status) => pure (.inl status)) 0 rounds 0)
          return (status, false)
      | .each line name items? body =>
          modify fun s => { s with line := line }
          let items ← match items? with
            | some words => expandArguments (capture fuel) words
            | none => pure (← get).parameters
          let status ← asLoop (goRound (fun (items, status) => do
            match items with
            | [] => pure (.inr status)
            | item :: items =>
                assign name item
                match ← inRound (evaluate fuel mode.inner body) with
                | .inr () => pure (.inr (← get).status)
                | .inl none => pure (.inl (items, (← get).status))
                | .inl (some status) => pure (.inl (items, status))) 0 rounds (items, 0))
          return (status, false)
      | .select line subject arms =>
          modify fun s => { s with line := line }
          let t ← expandText (capture fuel) subject
          match ← firstArm fuel t arms with
          | none => return (0, false)
          | some (.sequence []) => return (0, false)
          | some body => return (← evaluate fuel mode body, false)
      | .redirected line body redirections =>
          modify fun s => { s with line := line }
          let targets ← redirections.mapM (target (capture fuel))
          let (diversions, isFine) ← divertAll true targets []
          let status ← ensuring (if isFine then evaluate fuel mode.inner body else pure 2)
            (restore diversions)
          return (status, false)
      | .subshell line body redirections =>
          modify fun s => { s with line := line }
          let inside : Routine Unit := do
            let targets ← redirections.mapM (target (capture fuel))
            let (_, isFine) ← divertAll false targets []
            if isFine then
              let _ ← evaluate fuel { mode with isFinal := true } body
            else
              modify fun s => { s with status := 2 }
              throw .failed
          if mode.isFinal && !(← hasTraps) then
            inside
            return ((← get).status, true)
          else
            let pid ← fork false false (leave fuel) inside
            return (← awaitCommand [pid], true)
      | .define _ name body =>
          modify fun s => { s with
            functions := (name, body) :: s.functions.filter (·.1 ≠ name) }
          return (0, false)

def evaluateAll : Nat → Mode → List Node → Routine Nat
  | 0, _, _ => stuck 0
  | fuel + 1, mode, nodes => do
      match nodes with
      | [] => return (← get).status
      | [node] => evaluate fuel mode node
      | node :: rest =>
          let _ ← evaluate fuel mode.inner node
          evaluateAll fuel mode rest

def firstArm : Nat → Text → List (List Word × Node) → Routine (Option Node)
  | 0, _, _ => stuck none
  | _ + 1, _, [] => pure none
  | fuel + 1, t, (patterns, body) :: rest => do
      let isMeant ← patterns.foldlM (fun isMeant w => do
        if isMeant then pure true
        else return (← expandPattern (capture fuel) w).covers t) false
      if isMeant then pure (some body) else firstArm fuel t rest

/-- Starts the stages of a pipeline, each in a copy of the script that reads what the one before it
writes. -/
def startStages : Nat → Bool → Option Nat → List Node → Routine (List Nat)
  | 0, _, _, _ => stuck []
  | _ + 1, _, _, [] => pure []
  | fuel + 1, isBackground, input?, stage :: rest => do
      let pair? ← if rest.isEmpty then pure none else some <$> openPair
      let hasNoInput := isBackground && input?.isNone
      let pid ← fork isBackground hasNoInput (leave fuel) do
        match input? with
        | some input => connect input 0
        | none => pure ()
        match pair? with
        | some (reader, writer) =>
            connect writer 1
            close reader
        | none => pure ()
        let _ ← evaluate fuel .final stage
      match input? with
      | some input => close input
      | none => pure ()
      match pair? with
      | some (reader, writer) =>
          close writer
          return pid :: (← startStages fuel isBackground (some reader) rest)
      | none => return [pid]

/-- The output of a part of a script, without the line ends behind it. -/
def capture : Nat → Node → Routine Text
  | 0, _ => stuck []
  | fuel + 1, node => do
      match node with
      | .sequence [] =>
          modify fun s => { s with captured := 0 }
          pure []
      | node =>
          let (reader, writer) ← openPair
          let pid ← fork false false (leave fuel) do
            connect writer 1
            close reader
            let _ ← evaluate fuel .final node
          close writer
          let bytes ← readAll reader
          close reader
          let status ← awaitCommand [pid]
          modify fun s => { s with captured := status }
          let t := Narrow.ofBytes ((bytes.toOption.getD []).filter (· != 0))
          pure ((t.reverse.dropWhile (· == '\n')).reverse)

/-- The arguments of a simple command. Behind a builtin that assigns, a word may be an assignment,
which is not cut. -/
def expandWords : Nat → List Text → List Word → Routine (List Text)
  | 0, done, _ => stuck done
  | _ + 1, done, [] => pure done
  | fuel + 1, done, w :: rest => do
      let s ← get
      let name := match s.call done with
        | ⟨name :: _, some (.builtin _), _, _, _⟩ => name
        | _ => []
      match (if isOneOf assigningBuiltins name then assignment? w else none) with
      | some (name, value) =>
          let t ← expandAssigned (capture fuel) value
          expandWords fuel (done ++ [name ++ '=' :: t]) rest
      | none => expandWords fuel (done ++ (← expandArguments (capture fuel) [w])) rest

def runSimple : Nat → Mode → Nat → List (Text × Word) → List Word → List Redirection → Routine Nat
  | 0, _, _, _, _, _ => stuck 0
  | fuel + 1, mode, line, assignments, words, redirections => do
      modify fun s => { s with line := line, captured := 0 }
      let arguments ← expandWords fuel [] words
      let call := (← get).call arguments
      let replaces := match call.callee? with
        | some (.builtin name) => name == ("exec" : Text)
        | _ => false
      if call.isTemporary then modify fun s => { s with frames := [] :: s.frames }
      let inside : Routine Nat := do
        let targets ← redirections.mapM (target (capture fuel))
        let (diversions, isFine) ← divertAll true targets []
        let body : Routine Nat := do
          let shown ← assignments.mapM fun (name, w) => do
            let value ← expandAssigned (capture fuel) w
            if call.isTemporary then Parameters.keepVariable name
            assign name value
            if call.isTemporary || (replaces && 1 < call.arguments.length) then
              modify fun s => match s.binding? name with
                | some v => s.setVariable name { v with isExported := true }
                | none => s
            pure (name ++ '=' :: value)
          trace diversions (shown ++ arguments)
          perform fuel mode call
        if !isFine then
          restore diversions
          modify fun s => { s with status := 2 }
          if call.isSpecial then throw .failed
          pure 2
        else if replaces then
          let status ← body
          for d in diversions do
            match d.kept? with
            | some kept => close kept
            | none => pure ()
          pure status
        else ensuring body (restore diversions)
      ensuring inside (if call.isTemporary then endFrame else pure ())

/-- Carries out a call. -/
def perform : Nat → Mode → Call → Routine Nat
  | 0, _, _ => stuck 0
  | fuel + 1, mode, call => do
      match call.callee?, call.arguments with
      | some (.builtin name), _ :: arguments =>
          callBuiltin fuel mode.inner call.isSpecial name arguments
      | some (.function body), _ :: arguments => callFunction fuel mode.inner body arguments
      | some .program, name :: _ =>
          let places ← placesOf call.isDefault name
          let found ← if name.contains '/' then pure (Except.ok (name, []))
            else inVolume fun v directory => programAt v directory .notFound places
          match found with
          | .error e =>
              warn (name ++ ": " ++ runningReason e)
              pure 127
          | .ok (path, others) =>
              if !name.contains '/' then
                modify fun s => { s with found := Shell.keep name path s.found }
              let start : Routine Nat := do
                giveUp name (← become fuel .shell (path :: others) call.arguments)
              if mode.isFinal && !(← hasTraps) then start
              else
                let pid ← fork false false (leave fuel) do
                  let _ ← start
                awaitCommand [pid]
      | _, _ => return (← get).captured

/-- Runs a builtin. Unless it is special its faults are its own. -/
def callBuiltin : Nat → Mode → Bool → Text → List Text → Routine Nat
  | 0, _, _, _, _ => stuck 0
  | fuel + 1, mode, isSpecial, name, arguments => do
      let before := (← get).command?
      modify fun s => { s with command? := some name, outputFault? := none }
      let body : Routine Nat := match builtins.find? (·.1.toList == name) with
        | some (_, command) => command arguments
        | none => runBuiltin fuel mode name arguments
      let result ← try Except.ok <$> body catch outcome => pure (Except.error outcome)
      flush
      let s ← get
      if s.outputFault?.isSome then warn (name ++ ": I/O error")
      modify fun s => { s with command? := before, outputFault? := none }
      match result with
      | .ok status => pure (if s.outputFault?.isSome then status ||| 1 else status)
      | .error .failed => if isSpecial then throw .failed else pure s.status
      | .error outcome => throw outcome

def runBuiltin : Nat → Mode → Text → List Text → Routine Nat
  | 0, _, _, _ => stuck 0
  | fuel + 1, mode, name, arguments => do
      match String.ofList name with
      | "eval" => asCall (evaluateText fuel mode.inner (Text.join [' '] arguments))
      | "." =>
          let (_, operands) ← takeLetters "" arguments
          match operands with
          | [] => pure 0
          | file :: _ => runFile fuel file
      | "exec" =>
          let (_, operands) ← takeLetters "" arguments
          match operands with
          | [] => pure 0
          | name :: _ => giveUp name (← become fuel .shell (← placesOf false name) operands)
      | "command" =>
          let (given, operands) ← takeLetters "pvV" arguments
          match lastOf? given ['v', 'V'] with
          | some letter =>
              forEach (operands.take 1) (describe (letter == 'V') (isGiven given 'p'))
          | none => pure 0
      | "hash" =>
          let (given, operands) ← takeLetters "r" arguments
          if isGiven given 'r' then
            modify fun s => { s with found := [] }
            pure 0
          else
            if operands.isEmpty then
              for (_, path) in Shell.inLists Shell.programLists (← get).found do
                say (path ++ ['\n'])
            forEach operands keepPlace
      | _ =>
          let (_, operands) ← takeLetters "" arguments
          forEach operands (describe true false)

def runFile : Nat → Text → Routine Nat
  | 0, _ => stuck 0
  | fuel + 1, file => do
      let places ← placesOf false file
      let path? ← if file.contains '/' then pure (some file)
        else do
          let found ← places.filterM fun path => inVolume fun v directory =>
            v.isFile directory (pathOf path)
          pure found.head?
      match path? with
      | none => fail (file ++ ": not found")
      | some path =>
          match ← load (if path = ['-'] then ['.', '/', '-'] else path) with
          | .error e => fail ("cannot open " ++ path ++ ": " ++ openingReason .reading e)
          | .ok bytes =>
              modify fun s => { s with command? := some path }
              asCall do
                try evaluateInput fuel ⟨scriptText bytes, 1, none⟩
                catch
                  | .returned => return (← get).status
                  | outcome => throw outcome

def callFunction : Nat → Mode → Node → List Text → Routine Nat
  | 0, _, _, _ => stuck 0
  | fuel + 1, mode, body, arguments => do
      let before ← get
      if functionLimit ≤ before.depth then
        fail ("Maximum function recursion depth (" ++ Text.decimal functionLimit ++ ") reached")
      modify fun s => { s with
        parameters := arguments, loops := 0, depth := before.depth + 1
        optionIndex := 1, optionPlace := 0 }
      let inside : Routine Nat := do
        try evaluate fuel mode.inner body
        catch
          | .returned => return (← get).status
          | outcome => throw outcome
      asCall (ensuring inside (modify fun s => { s with
        parameters := before.parameters, loops := before.loops, depth := before.depth
        optionIndex := before.optionIndex, optionPlace := before.optionPlace }))

def evaluateText : Nat → Mode → Text → Routine Nat
  | 0, _, _ => stuck 0
  | fuel + 1, mode, t => evaluateLines fuel mode none (.ofText t) 0

def evaluateInput : Nat → Input → Routine Nat
  | 0, _ => stuck 0
  | fuel + 1, input => evaluateLines fuel .plain (some input) (.ofText input.unshown) 0

/-- Evaluates what is left of a text or an input, given the status of what has been evaluated. -/
def evaluateLines : Nat → Mode → Option Input → Source → Nat → Routine Nat
  | 0, _, _, _, _ => stuck 0
  | fuel + 1, mode, input?, source, status => do
      let s ← get
      let result := readLine { source with
        aliases := s.aliases, documents := [], documentCount := s.documentCount
        isExhausted := false }
      let wantsMore := match result with
        | .ok (_, after) => after.isExhausted
        | .error refused => refused.problem.isAtEnd
      match input?.bind (·.descriptor?) with
      | some descriptor =>
          if wantsMore then
            let (more, input?) ← readMore descriptor input?
            let source := { source with rest := source.rest ++ more }
            return ← evaluateLines fuel mode input? source status
      | none => pure ()
      match result with
      | .error refused =>
          let _ ← showLines (refused.line + if refused.problem.isAtLineEnd then 0 else 1) input?
          modify fun s => { s with line := refused.line }
          fail refused.problem.message
      | .ok ((node?, isEnd), after) =>
          let input? ← showLines (if isEnd then after.line + 1 else after.line) input?
          modify fun s => { s with
            documents := after.documents ++ s.documents, documentCount := after.documentCount }
          let status ← match node? with
            | some node => evaluate fuel { mode with isFinal := mode.isFinal && isEnd } node
            | none => pure status
          if isEnd then pure status else evaluateLines fuel mode input? after status

/-- Does what is to be done at the end of a script, and ends the process. -/
def leave : Nat → Routine Unit
  | 0 => stuck ()
  | fuel + 1 => do
      let s ← get
      match s.traps.lookup 0 with
      | some (c :: action) =>
          modify fun s => { s with
            traps := s.traps.filter (·.1 ≠ 0), interrupted? := some s.status, command? := none }
          let keeps ← try
              let _ ← evaluateText fuel .plain (c :: action)
              pure false
            catch outcome => pure (outcome == .exited || outcome == .failed)
          if !keeps then modify fun after => { after with status := s.status }
      | _ => pure ()
      flush
      finish (.exited ((← get).status % 256))

/-- Lets a program take the place of the process. Comes back only if that is impossible. -/
def become : Nat → Starter → List Text → List Text → Routine SystemError
  | 0, _, _, _ => stuck .notFound
  | fuel + 1, starter, paths, arguments => do
      let s ← get
      let bindings := if starter = .shell then s.handedOver else s.environment
      let environment := bindings.map fun v => v.1 ++ '=' :: v.2.value?.getD []
      match ← look fun system =>
          Image.fitting starter system s.directory environment arguments paths with
      | .error e => pure e
      | .ok image =>
          change fun system =>
            let kept := (system.descriptors s.pid).filter fun d => !d.2.closesOnExec
            (system.withDescriptors s.pid kept).updateMember s.pid fun m =>
              { m with caught := [] }
          set { Shell.start s.pid s.directory s.mask (image.arguments.headD []) bindings with
            calls := s.calls + 1 }
          runProgram fuel image
          pure .notFound

def runProgram : Nat → Image → Routine Unit
  | 0, _ => stuck ()
  | fuel + 1, image => do
      let arguments := image.arguments.drop 1
      if isOneOf Programs.shells image.program then runShell fuel arguments
      else
        let programs := Programs.all fun paths arguments => become fuel .program paths arguments
        let status ← match programs.find? (·.1.toList == image.program) with
          | some (_, command) => try command arguments catch _ => pure (← get).status
          | none => pure 127
        let isEarly := (← get).outputFault?.isSome
        flush
        match (← get).outputFault? with
        | some e =>
            for message in Programs.faultyOutput image.program isEarly e do report message
            finish (.exited (Programs.faultyStatus image.program e))
        | none => finish (.exited (status % 256))

def runShell : Nat → List Text → Routine Unit
  | 0, _ => stuck ()
  | fuel + 1, arguments => do
      let s ← get
      let parent ← look fun system => match system.member? s.pid with
        | some m => m.parent
        | none => 0
      let given? := (s.value? "PWD").filter (·.head? == some '/')
      let isHere ← match given? with
        | some t => match ← find t with
          | .ok (n, _) => pure (n == s.directory)
          | .error _ => pure false
        | none => pure false
      modify fun s => { s with
        origin := s.pid, bindings := shellVariables parent s.bindings }
      if isHere then modify fun s => s.withPath (given?.getD []) []
      else Surroundings.learnPath
      try
        let settings ← Parameters.takeOptions true arguments
        match settings.isCommand, settings.parameters?.getD [] with
        | true, [] => fail "-c requires an argument"
        | true, text :: rest =>
            modify fun s => { s with name := rest.headD s.name, parameters := rest.drop 1 }
            let _ ← evaluateText fuel .final text
        | false, operands =>
            if operands.isEmpty || (← get).isSet 's' then
              modify fun s => { s with parameters := operands }
              let _ ← evaluateInput fuel ⟨[], 1, some 0⟩
            else
              let file := operands.headD []
              match ← load (if file = ['-'] then ['.', '/', '-'] else file) with
              | .error e => fail ("cannot open " ++ file ++ ": " ++ openingReason .reading e)
              | .ok bytes =>
                  modify fun s => { s with name := file, parameters := operands.drop 1 }
                  let _ ← evaluateInput fuel ⟨scriptText bytes, 1, none⟩
      catch _ => pure ()
      leave fuel

end

/-- More than any script is deep. -/
def evaluationFuel : Nat := 1000000000

end Bytelink.Script
