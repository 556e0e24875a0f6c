import Bytelink.Host.Script.Parameters

/-!
# Signals and jobs

The builtins that send signals, say what is to be done when one arrives, and wait for processes that
run beside the script.
-/
namespace Bytelink.Script

/-- The names of signals by number; zero stands for the end of a script. -/
def signalName (number : Nat) : Text :=
  if number = 0 then "EXIT"
  else if number = 16 then "16"
  else if number < 32 then ((signalNames[number - 1]?).getD "").toList
  else if number < 34 then Text.decimal number
  else if number = 34 then "RTMIN"
  else if number < 50 then "RTMIN+" ++ Text.decimal (number - 34)
  else if number < 64 then "RTMAX-" ++ Text.decimal (64 - number)
  else "RTMAX"

/-- One more than the greatest number of a signal. -/
def signalCount : Nat := 65

def signalDescription (number : Nat) : Text :=
  let texts : List String :=
    ["Hangup", "Interrupt", "Quit", "Illegal instruction", "Trace/breakpoint trap", "Aborted",
      "Bus error", "Floating point exception", "Killed", "User defined signal 1",
      "Segmentation fault", "User defined signal 2", "Broken pipe", "Alarm clock", "Terminated",
      "Stack fault", "Child exited", "Continued", "Stopped (signal)", "Stopped",
      "Stopped (tty input)", "Stopped (tty output)", "Urgent I/O condition",
      "CPU time limit exceeded", "File size limit exceeded", "Virtual timer expired",
      "Profiling timer expired", "Window changed", "I/O possible", "Power failure",
      "Bad system call"]
  match number with
  | 0 => "Unknown signal 0"
  | n + 1 => match texts[n]? with
    | some t => t.toList
    | none => "Real-time signal " ++ Text.decimal (number - 34)

def signalNumber? (least : Nat) (t : Text) : Option Nat :=
  match Text.natural? t with
  | some n => if n < signalCount then some n else none
  | none =>
      ((List.range signalCount).drop least).find? fun n => signalName n == t.map Char.toUpper

/-- The status that a script sees of a process. -/
def statusOf : ExitStatus → Nat
  | .exited code => code
  | .signalled number _ => 128 + number
  | .stopped number => 128 + number
  | _ => 0

namespace Routine

def arrived : Routine (List Nat) := do
  let pid := (← get).pid
  look fun system => match system.member? pid with
    | some m => m.arrived
    | none => []

/-- Waits until processes have ended, and says how the last of them has. If it may be interrupted, a
signal that the script handles ends the waiting. -/
def awaitMembers (isInterruptible : Bool) (members : List Nat) : Routine (Option ExitStatus) := do
  let pid := (← get).pid
  let haveEnded (system : System) : Bool := members.all fun m =>
    (system.member? m).isNone || system.hasEnded m
  block fun system => haveEnded system ||
    (isInterruptible && (system.member? pid).any fun m => !m.arrived.isEmpty)
  act fun system =>
    if haveEnded system then
      let status? := members.getLast?.bind system.ending?
      (members.foldl System.forget system, some (status?.getD (.exited 0)))
    else (system, none)

/-- Tells of a process that a signal has killed. -/
def tellEnding (status : ExitStatus) : Routine Unit := do
  match status with
  | .signalled number isDumped =>
      if number ≠ 2 && number ≠ brokenPipe then
        complain (signalDescription number ++ (if isDumped then (" (core dumped)" : Text) else []))
  | _ => pure ()

/-- Waits for the processes of a command, and yields its status. -/
def awaitCommand (members : List Nat) : Routine Nat := do
  match ← awaitMembers false members with
  | some status =>
      tellEnding status
      pure (statusOf status)
  | none => pure 0

end Routine

namespace Signals

open Routine

/-- The conditions of a `trap` command. -/
def setTraps (action? : Option Text) : List Text → Routine Nat
  | [] => pure 0
  | condition :: rest => do
      match signalNumber? 0 condition with
      | none =>
          complain ("trap: " ++ condition ++ ": bad trap")
          pure 1
      | some number =>
          modify fun s => { s with traps :=
            (action?.map (number, ·)).toList ++ s.traps.filter (·.1 ≠ number) }
          let pid := (← get).pid
          if number ≠ 0 then
            change fun system => system.updateMember pid fun m =>
              let caught := m.caught.filter (· ≠ number)
              let ignored := m.ignored.filter (· ≠ number)
              match action? with
              | none => { m with caught := caught, ignored := ignored }
              | some [] => { m with caught := caught, ignored := number :: ignored }
              | some _ => { m with caught := number :: caught, ignored := ignored }
          setTraps action? rest

def trap : Command := fun arguments => do
  let (_, arguments) ← takeLetters "" arguments
  match arguments with
  | [] =>
      for (number, action) in (← get).traps.mergeSort fun a b => a.1 ≤ b.1 do
        say ("trap -- " ++ Parameters.inQuotes action ++ ' ' :: signalName number ++ ['\n'])
      pure 0
  | [condition] => setTraps none [condition]
  | action :: conditions =>
      if (Text.natural? action).any (· < signalCount) then setTraps none (action :: conditions)
      else setTraps (if action = ['-'] then none else some action) conditions

def job (t : Text) : Routine Job := do
  let jobs := (← get).jobs
  let found? := match t with
    | ['%'] => jobs.getLast?
    | ['%', '%'] => jobs.getLast?
    | ['%', '+'] => jobs.getLast?
    | '%' :: digits => match Text.natural? digits with
      | some (n + 1) => jobs[n]?
      | _ => none
    | _ => none
  match found? with
  | some job => pure job
  | none => fail ("No such job: " ++ t)

def send (number : Nat) (targets : List Text) : Routine Nat :=
  forEach targets fun t => do
    let target? ← match t with
      | '%' :: _ => do
          let _ ← job t
          pure none
      | '-' :: digits => do
          let _ ← Parameters.number digits
          pure none
      | digits => some <$> Parameters.number digits
    let isThere ← match target? with
      | some pid => act fun system => (system.signal pid number).swap
      | none => pure false
    if isThere then pure 0
    else
      warn "No such process\n"
      pure 1

def kill : Command := fun arguments => do
  match arguments with
  | [] => fail usage
  | ('-' :: name) :: rest =>
      match signalNumber? 1 name with
      | some number => if rest.isEmpty then fail usage else send number rest
      | none => do
          let (given, rest) ← takeLetters "ls:" arguments
          let number? := (argument? given 's').map (signalNumber? 1)
          if number? = some none then
            fail ("invalid signal number or name: " ++ (argument? given 's').getD [])
          else if isGiven given 'l' then
            if number?.isSome then fail usage else list rest
          else if rest.isEmpty then fail usage
          else send ((number?.bind id).getD 15) rest
  | targets => send 15 targets
where
  usage : Text :=
    "Usage: kill [-s sigspec | -signum | -sigspec] [pid | job]... or\nkill -l [exitstatus]"
  list (arguments : List Text) : Routine Nat := do
    match arguments with
    | [] =>
        say "0\n"
        for n in (List.range signalCount).drop 1 do
          say (signalName n ++ ['\n'])
        pure 0
    | t :: _ =>
        let n ← Parameters.number t
        let n := if 128 < n then n - 128 else n
        if 0 < n && n < signalCount then
          say (signalName n ++ ['\n'])
          pure 0
        else fail ("invalid signal number or exit status: " ++ t)

def lookAtJobs : Routine Unit := do
  let jobs ← (← get).jobs.mapM fun job => do
    if job.status?.isSome then pure job
    else
      let haveEnded ← look fun system => job.members.all fun m =>
        (system.member? m).isNone || system.hasEnded m
      if haveEnded then
        let status? ← awaitMembers false job.members
        pure { job with status? := status? }
      else pure job
  modify fun s => { s with jobs := jobs }

/-- Waits for a job and keeps its status; yields none if a signal comes first. -/
def awaitJob (job : Job) : Routine (Option ExitStatus) := do
  match job.status? with
  | some status => pure (some status)
  | none =>
      match ← awaitMembers true job.members with
      | none => pure none
      | some status =>
          tellEnding status
          modify fun s => { s with jobs := s.jobs.map fun j =>
            if j.members = job.members then { j with status? := some status } else j }
          pure (some status)

/-- The status of a builtin whose waiting was interrupted. -/
def interruption : Routine Nat := do
  return 128 + ((← arrived).getLast?.getD 0)

def wait : Command := fun arguments => do
  let (_, arguments) ← takeLetters "" arguments
  if arguments.isEmpty then all ((← get).jobs)
  else each 127 arguments
where
  all : List Job → Routine Nat
    | [] => do
        modify fun s => { s with jobs := [] }
        pure 0
    | job :: rest => do
        if job.status?.isSome then all rest
        else match ← awaitMembers true job.members with
          | none => interruption
          | some status =>
              modify fun s => { s with jobs := s.jobs.map fun j =>
                if j.members = job.members then { j with status? := some status } else j }
              all rest
  each (status : Nat) : List Text → Routine Nat
    | [] => pure status
    | t :: rest => do
        let job? ← match t with
          | '%' :: _ => some <$> job t
          | digits => do
              let pid ← Parameters.number digits
              pure ((← get).jobs.find? fun j => j.members.getLast? == some pid)
        match job? with
        | none => each status rest
        | some job => match ← awaitJob job with
          | none => interruption
          | some ending => each (statusOf ending) rest

def jobs : Command := fun arguments => do
  let (given, _) ← takeLetters "lp" arguments
  lookAtJobs
  let s ← get
  let last := s.jobs.length - 1
  for (job, place) in s.jobs.zipIdx do
    let pid := Text.decimal (job.members.getLast?.getD 0)
    if isGiven given 'p' then say (pid ++ ['\n'])
    else
      let mark := if place = last then '+' else if place + 1 = last then '-' else ' '
      let condition : Text := match job.status? with
        | none => "Running"
        | some (.exited 0) => "Done"
        | some (.exited n) => "Done(" ++ Text.decimal n ++ [')']
        | some (.signalled n isDumped) =>
            signalDescription n ++ (if isDumped then (" (core dumped)" : Text) else [])
        | some _ => "Stopped"
      let front := "[" ++ Text.decimal (place + 1) ++ "] " ++ mark :: ' ' ::
        (if isGiven given 'l' then pid ++ [' '] else [])
      say (Text.padRight 33 (front ++ condition) ++ ['\n'])
  modify fun s => { s with jobs := s.jobs.filter (·.status?.isNone) }
  pure 0

end Signals
end Bytelink.Script
