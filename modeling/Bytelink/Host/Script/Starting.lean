import Bytelink.Host.Script.Loading
import Bytelink.Host.Script.Signals
import Bytelink.Host.Script.Stream

/-!
# Starting programs

What programs need that start other programs: a process of its own for a part of the work, and ways
to find a program and to let it take the place of a process. How that happens is left open here.
-/
namespace Bytelink.Script.Starting

open Routine

/-- Lets the first program that is found under one of several paths take the place of the process,
with its arguments. Comes back only if that is impossible. -/
abbrev Become := List Text → List Text → Routine SystemError

/-- Runs a program in a process of its own and waits for its end. -/
def runApart (body : Routine Nat) : Routine ExitStatus := do
  flush
  let pid ← spawn do
    let status ← try body catch _ => pure (← get).status
    flush
    finish (.exited (status % 256))
  return (← awaitMembers false [pid]).getD (.exited 0)

/-- The paths under which the variables say that a program may be. -/
def pathsOf (name : Text) : Routine (List Text) := do
  return searchPaths (((← get).value? "PATH").getD defaultPath) name

/-- Lets a program take the place of the process, or tells why it cannot. -/
def becomeOrTell (become : Become) (arguments : List Text) : Routine Nat := do
  match arguments with
  | [] => pure 0
  | name :: _ =>
      let e ← become (← pathsOf name) arguments
      report ((← marked name) ++ ": " ++ reason e)
      pure (if isAbsence e then 127 else 126)

/-- The output of a command that a shell runs. -/
def outputOf (become : Become) (command : Text) : Routine Text := do
  let pid := (← get).pid
  let (reader, writer) ← act fun system =>
    let (reader, writer, system) := system.openPipe []
    let low := system.freeDescriptor pid 3
    let high := system.freeDescriptor pid (low + 1)
    (system.placeAll pid [(low, ⟨reader, true⟩), (high, ⟨writer, true⟩)], (low, high))
  let child ← spawn do
    let pid := (← get).pid
    change fun system => match system.descriptor? pid writer with
      | some d => system.place pid 1 ⟨d.opening, false⟩
      | none => system
    let _ ← become ["/bin/sh"] ["sh", "-c", command]
    finish (.exited 127)
  close writer
  let bytes ← readAll reader
  close reader
  let _ ← awaitMembers false [child]
  pure (Narrow.ofBytes (bytes.toOption.getD []))

end Bytelink.Script.Starting
