import Bytelink.Host.Duration
import Bytelink.Host.ExitStatus
import Bytelink.Host.SystemError

/-!
# Waiting for a program

A program under watch is looked at again and again. Each look shows whether it has exited, whether
the cancel token is set and how much time has passed, and the first look that decides ends the wait:
an exit before a cancellation, a cancellation before the time limit. A program without limit and
token is not watched but waited for.
-/
namespace Bytelink

/-- What asking after a program comes to. -/
inductive Glance
  | running
  | exited (status : ExitStatus)
  /-- The system does not say. -/
  | failed (reason : SystemError)
  deriving DecidableEq, Repr

/-- What one look at a running program shows. -/
structure Observation where
  glance : Glance
  tokenSet : Bool
  elapsed : Duration
  deriving DecidableEq, Repr

/-- What a running program is watched for. -/
structure Watch where
  limit? : Option Duration
  hasToken : Bool
  deriving DecidableEq, Repr

/-- How a wait ends. -/
inductive Verdict
  | exited (status : ExitStatus)
  | cancelled
  | timedOut (limit : Duration)
  | lost (reason : SystemError)
  deriving DecidableEq, Repr

/-- What is done after a look. -/
inductive Handling
  | kill
  /-- Takes note of the end of a program that has been killed. -/
  | reap
  /-- Lets time pass until the next look. -/
  | pause
  deriving DecidableEq, Repr

/-- A wait that goes on or has come to its end, with all that was done. -/
structure Waiting where
  handled : List Handling
  verdict? : Option Verdict
  deriving DecidableEq, Repr

/-- How a wait ends for which only the program counts. -/
def Glance.verdict? : Glance → Option Verdict
  | running => none
  | exited status => some (.exited status)
  | failed reason => some (.lost reason)

def Waiting.start : Waiting := ⟨[], none⟩

/-- A program that is killed is waited for at once. -/
def Handling.termination : List Handling := [.kill, .reap]

namespace Watch

/-- Without limit and token there is nothing to look out for. -/
def isBlocking (w : Watch) : Bool := w.limit?.isNone && !w.hasToken

/-- What one look at a program leads to, and whether it ends the wait. -/
def poll (w : Watch) (o : Observation) : List Handling × Option Verdict :=
  match o.glance.verdict? with
  | some verdict => ([], some verdict)
  | none =>
      if w.hasToken && o.tokenSet then (Handling.termination, some .cancelled)
      else match w.limit? with
        | some limit =>
            if limit.nanos ≤ o.elapsed.nanos then (Handling.termination, some (.timedOut limit))
            else ([.pause], none)
        | none => ([.pause], none)

/-- Who only waits for the end of a program minds nothing else. -/
def respond (w : Watch) (o : Observation) : List Handling × Option Verdict :=
  if w.isBlocking then ([], o.glance.verdict?) else w.poll o

/-- Goes on with a wait, unless it has come to its end. -/
def look (w : Watch) (waiting : Waiting) (o : Observation) : Waiting :=
  match waiting.verdict? with
  | some _ => waiting
  | none =>
      let (handled, verdict?) := w.respond o
      ⟨waiting.handled ++ handled, verdict?⟩

/-- What comes of a series of looks. -/
def wait (w : Watch) (looks : List Observation) : Waiting := looks.foldl w.look .start

end Watch
end Bytelink
