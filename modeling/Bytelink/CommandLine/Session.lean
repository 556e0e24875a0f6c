import Bytelink.Build.Pipeline
import Bytelink.CommandLine.Log
import Bytelink.CommandLine.Usage

/-!
# A run of the program

From the arguments to the exit code: what the program writes to its output and, after the log, to
its error stream. Success is told in one line. An error is followed by the errors that it rests on.
-/
namespace Bytelink.CommandLine

/-- What a run leaves behind. -/
structure Report where
  code : Nat
  output : Text
  errors : Text
  deriving DecidableEq, Repr

def errorLine (message : Text) : Text := "error: " ++ message ++ "\n"

/-- The report on arguments that are not understood. A wish for help is answered on the output. -/
def ArgumentError.report : ArgumentError → Report
  | .helpWanted => ⟨1, usage ++ "\n", []⟩
  | e => ⟨1, [], errorLine e.message ++ usage ++ "\n"⟩

def buildReport : Except BuildError Artifact → Report
  | .ok a =>
      ⟨0, "Built " ++ a.classFile.text ++ " (" ++ Text.decimal a.sources ++ " sources, "
        ++ Text.decimal a.symbols ++ " symbols, " ++ Text.decimal a.segmentSize.toNat
        ++ " data bytes)\n", []⟩
  | .error e =>
      ⟨1, [], errorLine e.message
        ++ e.cause.chain.flatMap fun text : Text => ("caused by: " : Text) ++ text ++ ['\n']⟩

/-- A run of the program with the given arguments. -/
def execute (arguments : List Text) : Plan Report :=
  match parse arguments with
  | .error e => pure e.report
  | .ok .help => pure ⟨0, usage ++ "\n", []⟩
  | .ok (.build a) =>
      match a.config with
      | .error e => pure ⟨1, [], errorLine e.message⟩
      | .ok config => buildReport <$> build config

/-- Whether the arguments ask for a detailed log. -/
def isVerboseRun (arguments : List Text) : Bool :=
  match parse arguments with
  | .ok (.build a) => a.verbose
  | _ => false

/-- The log that goes to the error stream. Unless it is set otherwise it holds warnings, and down to
debugging records in a verbose run. -/
def renderLog (setting? : Option Text) (arguments : List Text) (records : List Record) : Text :=
  let setting := setting?.getD (if isVerboseRun arguments then ("debug" : Text) else "warn")
  (records.filter (isShown (directives setting))).flatMap logLine

end Bytelink.CommandLine
