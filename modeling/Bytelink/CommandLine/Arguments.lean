import Bytelink.Build.Config
import Bytelink.CommandLine.Seconds

/-!
# Command line arguments

The arguments after `build` are read from left to right. Each is a request for help, a switch, a
flag whose value is the argument after it, or the source directory. A later value for the same field
takes the place of an earlier one; only the source directory may be given once. Reading ends at the
first argument in error.
-/
namespace Bytelink.CommandLine

/-- The largest job count that can be written. -/
def jobLimit : Nat := UInt64.size - 1

def valueFlags : List Text :=
  ["--class", "-o", "--out-dir", "--gcc", "--cc1", "--assembler", "--template", "--timeout", "-j",
    "--jobs"]

/-- Why arguments are not understood. -/
inductive ArgumentError
  | missingCommand
  | unknownCommand (command : Text)
  | helpWanted
  | unknownOption (option : Text)
  | missingValue (option : Text)
  | invalidTimeout (value : Text)
  | invalidJobs (value : Text)
  | multipleSources
  | missingSource
  | missingClass
  deriving DecidableEq, Repr

/-- What the command line says about a build, before it is checked. -/
structure BuildArguments where
  sourceDir : Path
  className : Text
  outDir? : Option Path
  preprocessor? : Option Path
  compiler? : Option Path
  assembler? : Option Path
  template? : Option Path
  timeout? : Option Duration
  jobs : Nat
  verbose : Bool
  deriving DecidableEq, Repr

/-- The fields as far as they have been set. -/
structure Fields where
  sourceDir? : Option Path
  className? : Option Text
  outDir? : Option Path
  preprocessor? : Option Path
  compiler? : Option Path
  assembler? : Option Path
  template? : Option Path
  timeout? : Option Duration
  jobs : Nat
  verbose : Bool
  deriving DecidableEq, Repr

/-- Nothing set: one job, quiet. -/
def Fields.initial : Fields where
  sourceDir? := none
  className? := none
  outDir? := none
  preprocessor? := none
  compiler? := none
  assembler? := none
  template? := none
  timeout? := none
  jobs := 1
  verbose := false

def isHelp (argument : Text) : Bool :=
  argument == ("--help" : Text) || argument == ("-h" : Text)

def isVerbose (argument : Text) : Bool :=
  argument == ("--verbose" : Text) || argument == ("-v" : Text)

def isOption (argument : Text) : Bool := argument.head? == some '-'

namespace Fields

def set (f : Fields) (flag value : Text) : Except ArgumentError Fields :=
  if flag = ("--class" : Text) then .ok { f with className? := some value }
  else if flag = ("-o" : Text) ∨ flag = ("--out-dir" : Text) then
    .ok { f with outDir? := some ⟨value⟩ }
  else if flag = ("--gcc" : Text) then .ok { f with preprocessor? := some ⟨value⟩ }
  else if flag = ("--cc1" : Text) then .ok { f with compiler? := some ⟨value⟩ }
  else if flag = ("--assembler" : Text) then .ok { f with assembler? := some ⟨value⟩ }
  else if flag = ("--template" : Text) then .ok { f with template? := some ⟨value⟩ }
  else if flag = ("--timeout" : Text) then
    match Duration.ofSeconds? value with
    | some limit => .ok { f with timeout? := some limit }
    | none => .error (.invalidTimeout value)
  else if flag = ("-j" : Text) ∨ flag = ("--jobs" : Text) then
    match Text.unsigned? jobLimit value with
    | some jobs => .ok { f with jobs := jobs }
    | none => .error (.invalidJobs value)
  else .error (.unknownOption flag)

/-- Reads arguments up to the first in error. A flag takes the argument after it whatever that looks
like. -/
def read (f : Fields) : List Text → Except ArgumentError Fields
  | [] => .ok f
  | argument :: rest =>
      if isHelp argument then .error .helpWanted
      else if isVerbose argument then { f with verbose := true }.read rest
      else if isOption argument then
        if valueFlags.contains argument then
          match rest with
          | [] => .error (.missingValue argument)
          | value :: rest =>
              match f.set argument value with
              | .error e => .error e
              | .ok f => f.read rest
        else .error (.unknownOption argument)
      else if f.sourceDir?.isSome then .error .multipleSources
      else { f with sourceDir? := some ⟨argument⟩ }.read rest

/-- What has been set, if the two fields without a default are among it. -/
def finish (f : Fields) : Except ArgumentError BuildArguments :=
  match f.sourceDir?, f.className? with
  | none, _ => .error .missingSource
  | some _, none => .error .missingClass
  | some sourceDir, some className =>
      .ok ⟨sourceDir, className, f.outDir?, f.preprocessor?, f.compiler?, f.assembler?,
        f.template?, f.timeout?, f.jobs, f.verbose⟩

end Fields

/-- Reads the arguments after `build`. -/
def parseBuild (arguments : List Text) : Except ArgumentError BuildArguments :=
  match Fields.initial.read arguments with
  | .error e => .error e
  | .ok fields => fields.finish

/-- What the program is asked to do. -/
inductive Invocation
  | help
  | build (arguments : BuildArguments)
  deriving DecidableEq, Repr

/-- Reads all arguments. -/
def parse : List Text → Except ArgumentError Invocation
  | [] => .error .missingCommand
  | command :: rest =>
      if isHelp command then .ok .help
      else if command = ("build" : Text) then (parseBuild rest).map .build
      else .error (.unknownCommand command)

def BuildArguments.config (a : BuildArguments) : Except ConfigError Config := do
  let target ← Target.parse a.className
  let config ← (Config.new a.sourceDir target).withJobs a.jobs
  pure { config with
    outDir? := a.outDir?
    preprocessor := a.preprocessor?.getD config.preprocessor
    compiler := a.compiler?.getD config.compiler
    assembler := a.assembler?.getD config.assembler
    template? := a.template?
    timeout? := a.timeout? }

end Bytelink.CommandLine
