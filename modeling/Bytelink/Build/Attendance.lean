import Bytelink.Build.Tool
import Bytelink.Host.Capture
import Bytelink.Host.Wait

/-!
# A command at work

From the start of a program to the report on it three parties are at work, in any order: a reader
for each of its two outputs, and whoever waits for the program. When the program has exited, the
report is put off until both readers have stopped. After a kill it gives what is captured at that
moment, and the readers are left to themselves.
-/
namespace Bytelink

def Command.watch (c : Command) : Watch := ⟨c.timeout?, c.cancel?.isSome⟩

namespace Verdict

/-- Whether the report is put off until all output has been read. -/
def awaitsReaders : Verdict → Bool
  | exited _ => true
  | _ => false

/-- How a run comes to its end, with what was captured from the program. -/
def ending : Verdict → Bytes → Ending
  | exited status, output => .exited status output
  | cancelled, output => .cancelled output
  | timedOut limit, output => .timedOut limit output
  | lost reason, _ => .lost reason

end Verdict

/-- A command whose program has been started. -/
structure Attendance where
  command : Command
  intake : Intake
  waiting : Waiting
  ending? : Option Ending
  deriving DecidableEq, Repr

/-- What can happen next. What cannot, changes nothing. -/
inductive Event
  | read (outlet : Outlet) (result : ReadResult)
  | append (outlet : Outlet)
  | look (observation : Observation)
  | report
  deriving DecidableEq, Repr

namespace Attendance

/-- A program has been started that will write these two streams. -/
def start (command : Command) (standard errors : Bytes) : Attendance :=
  ⟨command, .start standard errors, .start, none⟩

def step (s : Attendance) : Event → Attendance
  | .read outlet result => { s with intake := s.intake.read outlet result }
  | .append outlet => { s with intake := s.intake.append outlet }
  | .look observation => { s with waiting := s.command.watch.look s.waiting observation }
  | .report =>
      match s.waiting.verdict?, s.ending? with
      | some verdict, none =>
          if verdict.awaitsReaders && !s.intake.hasStopped then s
          else { s with ending? := some (verdict.ending s.intake.captured.bytes) }
      | _, _ => s

def run (s : Attendance) (events : List Event) : Attendance := events.foldl step s

/-- What the run of the command returns, if it has returned. -/
def result? (s : Attendance) : Option (Except ToolError Text) := s.ending?.map s.command.outcome

end Attendance
end Bytelink
