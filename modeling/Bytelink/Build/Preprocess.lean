import Bytelink.Build.Sources

/-!
# Preprocessing

Every source goes through the preprocessor. With one job the sources are taken one after another;
with more they are cut into consecutive chunks of equal size, one worker per chunk, and a `turn`
request decides which worker moves next. A worker stops at its first failure. Whatever the order of
the moves, the outputs come out in source order, and of several failures the one of the earliest
source counts.
-/
namespace Bytelink

/-- A part of a build: it ends with a value or with a cause of failure. -/
abbrev Part := ExceptT Cause Plan

namespace Config

/-- A tool named by a relative path of several steps is looked up from the current directory, since
it runs in the source directory; a bare name is left for the search path, and so is any name while
the current directory is not known. -/
def resolveTool (program : Path) : Plan Path := do
  if !program.isAbsolute && program.components.length > 1 then
    match ← Plan.absolute program with
    | .ok path => pure path
    | .error _ => pure program
  else pure program

def command (c : Config) (program : Path) (arguments : List Text) : Plan Command := do
  let program ← resolveTool program
  return { program, arguments, directory? := some c.sourceDir
           timeout? := c.timeout?, cancel? := c.cancel? }

def preprocessCommand (c : Config) (source : Path) : Plan Command :=
  c.command c.preprocessor
    ["-E", "-DVERSION=\"java\"", intermediateName source ['c'], "-o", intermediateName source ['i']]

end Config

/-- A worker that preprocesses its sources one by one. Outputs are kept newest first. -/
inductive Worker
  | ready (todo : List Path) (outputs : List Text)
  | waiting (source : Path) (command : Command) (run : Run) (todo : List Path) (outputs : List Text)
  | stopped (cause : Cause)
  deriving DecidableEq, Repr

namespace Worker

/-- What the worker waits for, if it can still move at all. -/
def pending? : Worker → Option (Option Run)
  | ready (_ :: _) _ => some none
  | waiting _ _ run _ _ => some (some run)
  | ready [] _ => none
  | stopped _ => none

/-- How many moves the worker has before it, if nothing fails. -/
def movesLeft : Worker → Nat
  | ready todo _ => 2 * todo.length
  | waiting _ _ _ todo _ => 2 * todo.length + 1
  | stopped _ => 0

/-- Announces and starts the next source, or takes the result of the one that is running. -/
def move (c : Config) : Worker → Plan Worker
  | ready (source :: todo) outputs => do
      Plan.report .info .pipeline ("preprocessing " ++ intermediateName source ['c'])
      let command ← c.preprocessCommand source
      match ← command.start with
      | .ok run => pure (waiting source command run todo outputs)
      | .error e => pure (stopped (.tool e))
  | waiting source command run todo outputs => do
      match ← command.finish run with
      | .ok _ => pure (ready todo (intermediateName source ['i'] :: outputs))
      | .error e => pure (stopped (.tool e))
  | worker => pure worker

/-- The outputs of a worker in source order, or its failure. -/
def result : Worker → Except Cause (List Text)
  | ready _ outputs => .ok outputs.reverse
  | waiting _ _ _ _ outputs => .ok outputs.reverse
  | stopped cause => .error cause

end Worker

namespace Preprocess

/-- The places of the workers that can move, with what each waits for. -/
def movable (workers : List Worker) : List (Nat × Option Run) :=
  (workers.zipIdx).filterMap fun w => w.1.pending?.map fun run => (w.2, run)

def movesLeft : List Worker → Nat
  | [] => 0
  | worker :: rest => worker.movesLeft + movesLeft rest

/-- Lets workers move until none can, at most `moves` times. -/
def runWorkers (c : Config) : Nat → List Worker → Plan (List Worker)
  | 0, workers => pure workers
  | moves + 1, workers => do
      let candidates := movable workers
      if candidates.isEmpty then pure workers
      else
        let chosen ← Plan.turn (candidates.map (·.2))
        match candidates[chosen % candidates.length]? with
        | none => pure workers
        | some (place, _) =>
            match workers[place]? with
            | none => pure workers
            | some worker => do
                let moved ← worker.move c
                runWorkers c moves (workers.set place moved)

/-- Consecutive pieces of `size` elements; the last piece may be shorter. A piece has at least one
element. -/
def chunks {α : Type} (size : Nat) : List α → List (List α)
  | [] => []
  | a :: rest =>
      have : (rest.drop (size - 1)).length < (a :: rest).length := by
        simp only [List.length_drop, List.length_cons]
        omega
      (a :: rest.take (size - 1)) :: chunks size (rest.drop (size - 1))
termination_by l => l.length

/-- All outputs in order, or the first failure. -/
def gather : List Worker → Except Cause (List Text)
  | [] => .ok []
  | worker :: rest => do
      let outputs ← worker.result
      let others ← gather rest
      pure (outputs ++ others)

/-- Preprocesses one source and names its output. -/
def one (c : Config) (source : Path) : Part Text := do
  Plan.report .info .pipeline ("preprocessing " ++ intermediateName source ['c'])
  match ← (← c.preprocessCommand source).run with
  | .ok _ => pure (intermediateName source ['i'])
  | .error e => throw (.tool e)

/-- Preprocesses all sources and names their outputs in source order. -/
def all (c : Config) (sources : List Path) : Part (List Text) := do
  let jobs := min c.jobs sources.length
  if jobs ≤ 1 then sources.mapM (one c)
  else
    Plan.report .debug .pipeline ("preprocessing on " ++ Text.decimal jobs ++ " workers")
    let size := (sources.length + jobs - 1) / jobs
    let workers := (chunks size sources).map fun chunk => Worker.ready chunk []
    let finished ← runWorkers c (movesLeft workers) workers
    ExceptT.mk (pure (gather finished))

end Preprocess
end Bytelink
