import Bytelink.Build.Plan
import Bytelink.Text.Utf8

/-!
# Tool runs

The requests of a plan by name, and the two halves of a tool run: starting a command and waiting for
it. A run succeeds when the program exits with status zero; its result is what the program wrote,
read as UTF-8 with a mark for every invalid piece.
-/
namespace Bytelink

namespace Plan

def isDirectory (path : Path) : Plan Bool := request (.isDirectory path)

def isFile (path : Path) : Plan Bool := request (.isFile path)

def currentDirectory : Plan (Except SystemError Path) := request .currentDirectory

/-- A path from the root. Only for one that is relative the current directory has to be known. -/
def absolute (path : Path) : Plan (Except SystemError Path) :=
  if path.text.isEmpty || path.isAbsolute then pure (path.absolute ⟨[]⟩)
  else do
    match ← currentDirectory with
    | .ok directory => pure (path.absolute directory)
    | .error e => pure (.error e)

def entryNames (directory : Path) : Plan (Except SystemError (List Text)) :=
  request (.entryNames directory)

def fileContent (path : Path) : Plan (Except SystemError Bytes) := request (.fileContent path)

def writeFile (path : Path) (content : Bytes) : Plan (Except SystemError Unit) :=
  request (.writeFile path content)

def removeFile (path : Path) : Plan (Except SystemError Unit) := request (.removeFile path)

def makeDirectories (path : Path) : Plan (Except SystemError Unit) :=
  request (.makeDirectories path)

def launch (command : Command) : Plan (Except Refusal Run) := request (.launch command)

def await (run : Run) : Plan Ending := request (.await run)

def turn (workers : List (Option Run)) : Plan Nat := request (.turn workers)

def isCancelled (token : Token) : Plan Bool := request (.isCancelled token)

def report (level : Level) (reporter : Reporter) (text : Text) : Plan Unit :=
  request (.report ⟨level, reporter, text⟩)

def readText (path : Path) : Plan (Except SystemError Text) := do
  match ← fileContent path with
  | .error e => pure (.error e)
  | .ok bytes =>
      match Utf8.decode? bytes with
      | some text => pure (.ok text)
      | none => pure (.error .invalidText)

end Plan

namespace Command

/-- Starts the program, unless the token forbids it. -/
def start (c : Command) : Plan (Except ToolError Run) := do
  match ← Plan.launch c with
  | .error .cancelled => pure (.error (.cancelled c.line []))
  | .error (.impossible reason) =>
      Plan.report .debug .tool ("running " ++ c.line)
      pure (.error (.notStarted c.line reason))
  | .ok run =>
      Plan.report .debug .tool ("running " ++ c.line)
      pure (.ok run)

/-- What the end of a run means for the command. -/
def outcome (c : Command) : Ending → Except ToolError Text
  | .exited status output =>
      if status.isSuccess then .ok (Utf8.decodeLossy output)
      else .error (.unsuccessful c.line status (Utf8.decodeLossy output))
  | .timedOut limit output => .error (.timedOut c.line limit (Utf8.decodeLossy output))
  | .cancelled output => .error (.cancelled c.line (Utf8.decodeLossy output))
  | .lost reason => .error (.lost c.line reason)

/-- Waits for the started program. -/
def finish (c : Command) (run : Run) : Plan (Except ToolError Text) :=
  c.outcome <$> Plan.await run

/-- Runs the program to its end. -/
def run (c : Command) : Plan (Except ToolError Text) := do
  match ← c.start with
  | .error e => pure (.error e)
  | .ok run => c.finish run

end Command
end Bytelink
