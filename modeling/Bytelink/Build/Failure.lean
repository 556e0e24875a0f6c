import Bytelink.Build.Config
import Bytelink.Data.Fault
import Bytelink.Host.ExitStatus

/-!
# Failures of a build

A build fails in one stage for one cause. A cause may rest on another: `chain` lists the texts from
the cause itself down to the error of the operating system at its bottom.
-/
namespace Bytelink

/-- Where a build stands. -/
inductive Stage
  | idle
  | preprocessing
  | compiling
  | aggregating
  | linking
  | assembling
  | done
  | failed
  deriving DecidableEq, Repr, Inhabited

def Stage.text : Stage → Text
  | idle => "idle"
  | preprocessing => "preprocessing"
  | compiling => "compiling"
  | aggregating => "aggregating"
  | linking => "linking"
  | assembling => "assembling"
  | done => "done"
  | failed => "failed"

/-- Why a template cannot be used. -/
inductive TemplateError
  | missingPlaceholder
  | unreadable (path : Path) (reason : SystemError)
  deriving DecidableEq, Repr

namespace TemplateError

def message : TemplateError → Text
  | missingPlaceholder => "template does not contain the class placeholder 'Prog'"
  | unreadable path reason => "cannot read template " ++ path.text ++ ": " ++ reason.message

def causes : TemplateError → List Text
  | missingPlaceholder => []
  | unreadable _ reason => [reason.message]

end TemplateError

/-- Why a tool run failed. Every case carries the command line. -/
inductive ToolError
  | notStarted (commandLine : Text) (reason : SystemError)
  | unsuccessful (commandLine : Text) (status : ExitStatus) (output : Text)
  | timedOut (commandLine : Text) (limit : Duration) (output : Text)
  | cancelled (commandLine : Text) (output : Text)
  | lost (commandLine : Text) (reason : SystemError)
  deriving DecidableEq, Repr

namespace ToolError

def commandLine : ToolError → Text
  | notStarted commandLine _ => commandLine
  | unsuccessful commandLine _ _ => commandLine
  | timedOut commandLine _ _ => commandLine
  | cancelled commandLine _ => commandLine
  | lost commandLine _ => commandLine

/-- What the tool had written, if it ran. -/
def output? : ToolError → Option Text
  | unsuccessful _ _ output => some output
  | timedOut _ _ output => some output
  | cancelled _ output => some output
  | notStarted _ _ => none
  | lost _ _ => none

def exitCode? : ToolError → Option Nat
  | unsuccessful _ status _ => status.code?
  | _ => none

def message : ToolError → Text
  | notStarted commandLine reason => "cannot run `" ++ commandLine ++ "`: " ++ reason.message
  | unsuccessful commandLine status output =>
      "`" ++ commandLine ++ "` failed (" ++ status.text ++ ")\n" ++ output
  | timedOut commandLine limit output =>
      "`" ++ commandLine ++ "` timed out after " ++ limit.text ++ "\n" ++ output
  | cancelled commandLine output => "`" ++ commandLine ++ "` was cancelled\n" ++ output
  | lost commandLine reason => "cannot wait for `" ++ commandLine ++ "`: " ++ reason.message

def causes : ToolError → List Text
  | notStarted _ reason => [reason.message]
  | lost _ reason => [reason.message]
  | _ => []

end ToolError

/-- Why a build failed. -/
inductive Cause
  | noSources (directory : Path)
  | config (error : ConfigError)
  | tool (error : ToolError)
  | data (error : DataError)
  | template (error : TemplateError)
  | file (path : Path) (reason : SystemError)
  | missingArtifact (path : Path)
  | cancelled
  deriving DecidableEq, Repr

namespace Cause

def message : Cause → Text
  | noSources directory => "no C sources found in " ++ directory.text
  | config error => error.message
  | tool error => error.message
  | data error => error.message
  | template error => error.message
  | file path reason => path.text ++ ": " ++ reason.message
  | missingArtifact path => "assembler did not produce " ++ path.text
  | cancelled => "build cancelled"

/-- The cause's own text and the texts of what it rests on. -/
def chain (c : Cause) : List Text :=
  c.message :: match c with
    | tool error => error.causes
    | template error => error.causes
    | file _ reason => [reason.message]
    | _ => []

end Cause

/-- The stage that was running and the single cause. -/
structure BuildError where
  stage : Stage
  cause : Cause
  deriving DecidableEq, Repr

def BuildError.message (e : BuildError) : Text := e.stage.text ++ " stage failed"

end Bytelink
