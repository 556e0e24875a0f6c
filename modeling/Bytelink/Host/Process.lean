import Bytelink.Host.System
import Bytelink.Host.Token

/-!
# Processes

What a running program does: it acts on the system at once, lets time pass, waits for a condition,
or starts a process of its own. A schedule holds all that runs, and the cancel tokens, which no act
on the system gets to. Of the tasks that can go on it always takes the one that is due first, so a
run is determined by its beginning; acts of one task that follow each other without a pause are not
interrupted.
-/
namespace Bytelink

inductive Process
  | ended
  | act (step : System → System × Process)
  | pause (nanos : Nat) (next : Process)
  | block (isReady : System → Bool) (next : Process)
  /-- Starts a copy of the process. Both go on with the number of the copy. -/
  | spawn (child next : Nat → Process)
  /-- Sets a cancel token. -/
  | trigger (token : Token) (next : Process)

instance : Inhabited Process := ⟨.ended⟩

/-- A process and the time at which it goes on. -/
structure Task where
  pid : Nat
  due : Nat
  process : Process

/-- A system with everything that runs on it. -/
structure Schedule where
  system : System
  tokens : Tokens
  tasks : List Task

namespace Schedule

/-- The time from the start of a process to its first act. -/
def forkTime : Nat := 200000

/-- How many acts of one task follow each other at most before others get their turn. -/
def sliceLength : Nat := 10000

/-- How long so many acts take. -/
def sliceTime : Nat := 1000000

/-- The number under which tasks run that belong to no process. -/
def nobody : Nat := 0

/-- Whether a task may go on: its process runs, or it belongs to none. -/
def isAlive (s : System) (pid : Nat) : Bool := pid == nobody || s.isRunning pid

/-- Whether a task may still go on at some time. -/
def mayGoOn (s : System) (t : Task) : Bool :=
  t.pid == nobody || (s.condition? t.pid).any fun c => c = .running || c = .stopped

/-- When a task goes on, as things stand. -/
def timeOf? (s : System) (t : Task) : Option Nat :=
  if isAlive s t.pid then
    match t.process with
    | .ended => none
    | .block isReady _ => if isReady s then some (max t.due s.clock) else none
    | _ => some (max t.due s.clock)
  else none

def add (c : Schedule) (t : Task) : Schedule := { c with tasks := c.tasks ++ [t] }

/-- Lets a process act until it pauses, waits, ends or has used up its slice. What comes out is the
schedule with the tasks that were started, and what is left of the process with the time it is
due. -/
def runSlice (pid : Nat) : Nat → Schedule → Process → Schedule × Option Task
  | 0, c, p => (c, some ⟨pid, c.system.clock + sliceTime, p⟩)
  | _ + 1, c, .ended => (c, none)
  | fuel + 1, c, .act step =>
      let (s, next) := step c.system
      let c := { c with system := s }
      if isAlive s pid then runSlice pid fuel c next
      else (c, some ⟨pid, s.clock, next⟩)
  | _ + 1, c, .pause nanos next => (c, some ⟨pid, c.system.clock + nanos, next⟩)
  | fuel + 1, c, .block isReady next =>
      if isReady c.system then runSlice pid fuel c next
      else (c, some ⟨pid, c.system.clock, .block isReady next⟩)
  | fuel + 1, c, .spawn child next =>
      let (number, s) := c.system.fork pid
      let c := { c with system := s }.add ⟨number, s.clock + forkTime, child number⟩
      runSlice pid fuel c (next number)
  | fuel + 1, c, .trigger token next =>
      runSlice pid fuel { c with tokens := c.tokens.cancel token } next

def first? (s : System) : List Task → Option (Task × Nat × List Task)
  | [] => none
  | t :: rest =>
      match timeOf? s t, first? s rest with
      | none, none => none
      | none, some (u, time, others) => some (u, time, t :: others)
      | some time, none => some (t, time, rest)
      | some time, some (u, later, others) =>
          if time ≤ later then some (t, time, rest) else some (u, later, t :: others)

/-- Sets the clock forward. -/
def atTime (c : Schedule) (time : Nat) : Schedule :=
  { c with system := c.system.atTime time }

def resume (c : Schedule) (t : Task) (others : List Task) : Schedule :=
  let process := match t.process with
    | .block _ next => next
    | p => p
  let (c, left?) := runSlice t.pid sliceLength { c with tasks := others } process
  { c with tasks := (c.tasks ++ left?.toList).filter (mayGoOn c.system) }

/-- Runs tasks in the order of time until a condition holds, the deadline is reached or nothing can
go on. Fuel bounds the number of slices. -/
def run (isDone : System → Bool) (deadline? : Option Nat) : Nat → Schedule → Schedule
  | 0, c => c
  | fuel + 1, c =>
      if isDone c.system then c
      else
        let stopped := match deadline? with
          | some deadline => c.atTime deadline
          | none => c
        match first? c.system c.tasks with
        | none => stopped
        | some (t, time, others) =>
            if deadline?.any (· < time) then stopped
            else run isDone deadline? fuel ((c.atTime time).resume t others)

/-- How many slices a run may take. -/
def runLength : Nat := 3000000

end Schedule
end Bytelink
