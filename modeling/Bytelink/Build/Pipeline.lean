import Bytelink.Build.Preprocess
import Bytelink.Link.Program

/-!
# The build

A build turns every source of a directory into one class. It passes six stages, each of which has to
succeed before the next is entered: it clears the ground, preprocesses and compiles every source,
collects and writes the data segment, links and writes the assembler source, and runs the assembler.
The class file of an earlier build is removed at the beginning. A failure ends the build in the
stage where it happened, and a triggered cancel token ends it where the next stage is entered.
-/
namespace Bytelink

/-- What a successful build has made. -/
structure Artifact where
  classFile : Path
  segmentFile : Path
  linkedSource : Path
  sources : Nat
  symbols : Nat
  segmentSize : UInt32
  deriving DecidableEq, Repr

namespace Build

/-- The file into which the compiler writes a unit's static data. -/
def listingFile : Path := ⟨"global.s"⟩

def linkedFile : Path := ⟨"prog.j"⟩

def segmentFile (target : Target) : Path := ⟨withExtension target.simpleName "global"⟩

def onFile {α : Type} (path : Path) (operation : Plan (Except SystemError α)) : Part α :=
  ExceptT.mk do
    match ← operation with
    | .ok value => pure (.ok value)
    | .error e => pure (.error (.file path e))

/-- A tool run, whose failure is the build's. -/
def runTool (command : Command) : Part Unit := do
  match ← command.run with
  | .ok _ => pure ()
  | .error e => throw (.tool e)

def debug (text : Text) : Part Unit := Plan.report .debug .pipeline text

def info (text : Text) : Part Unit := Plan.report .info .pipeline text

/-- Removes a file and says so; that there is none is no failure. -/
def removeStale (path : Path) : Part Unit := do
  match ← Plan.removeFile path with
  | .ok () => debug ("removed stale " ++ path.text)
  | .error e => if e = .notFound then pure () else throw (.file path e)

/-- Moves on to a stage, in which the build fails at once if its token is triggered. -/
def enter (c : Config) (previous stage : Stage) : Part Unit := do
  debug (previous.text ++ " -> " ++ stage.text)
  match c.cancel? with
  | none => pure ()
  | some token => if ← Plan.isCancelled token then throw .cancelled else pure ()

/-- Gives a failure the stage in which it happened. -/
def within {α : Type} (stage : Stage) (part : Part α) : ExceptT BuildError Plan α :=
  ExceptT.mk do
    match ← part.run with
    | .ok value => pure (.ok value)
    | .error cause =>
        Plan.report .debug .pipeline
          (stage.text ++ " -> " ++ Stage.failed.text ++ ": " ++ cause.message)
        pure (.error ⟨stage, cause⟩)

def loadTemplate (path : Path) : Plan (Except TemplateError Template) := do
  match ← Plan.readText path with
  | .error e => pure (.error (.unreadable path e))
  | .ok text =>
      match Template.ofText? text with
      | some template => pure (.ok template)
      | none => pure (.error .missingPlaceholder)

def validate (directory : Path) : Plan (Except ConfigError Unit) := do
  if ← Plan.isDirectory directory then pure (.ok ())
  else pure (.error (.notADirectory directory))

/-- What is known before the first tool runs. -/
structure Ground where
  outDir : Path
  classFile : Path
  template : Template
  sources : List Path
  deriving DecidableEq, Repr

def chooseTemplate (c : Config) : Part Template :=
  match c.template? with
  | none => pure Template.standard
  | some path => do
      match ← loadTemplate path with
      | .ok template => pure template
      | .error e => throw (.template e)

/-- Makes the output directory, removes the old class file and finds the sources. -/
def survey (c : Config) (template : Template) : Part Ground := do
  let outDir ← onFile c.outDir (Plan.absolute c.outDir)
  onFile outDir (Plan.makeDirectories outDir)
  let classFile := c.target.classFile outDir
  removeStale classFile
  let sources ← onFile c.sourceDir (Sources.discover c.sourceDir)
  if sources.isEmpty then throw (.noSources c.sourceDir)
  else pure ⟨outDir, classFile, template, sources⟩

/-- Checks the configuration and clears the ground. -/
def prepare (c : Config) : Part Ground := do
  match ← validate c.sourceDir with
  | .error e => throw (.config e)
  | .ok () =>
      let template ← chooseTemplate c
      survey c template

/-- The static data that a unit has left behind; the file is gone afterwards. -/
def takeListing (path : Path) (fragment : Fragment) : Part Fragment := do
  match ← Plan.readText path with
  | .ok text =>
      match ← Plan.removeFile path with
      | .ok () => pure (fragment.withListing text)
      | .error e =>
          if e = .notFound then pure (fragment.withListing text) else throw (.file path e)
  | .error e => if e = .notFound then pure fragment else throw (.file path e)

def compile (c : Config) (source : Path) (input : Text) : Part Fragment := do
  let listing := c.sourceDir.join listingFile
  removeStale listing
  let output := intermediateName source ['j']
  info ("compiling " ++ input)
  runTool (← c.command c.compiler ["-O8", "-fno-function-cse", input, "-o", output])
  let bodyFile := c.sourceDir.join ⟨output⟩
  let body ← onFile bodyFile (Plan.readText bodyFile)
  takeListing listing (.ofBody (intermediateName source ['c']) body)

def compileAll (c : Config) : List (Path × Text) → Part (List Fragment)
  | [] => pure []
  | (source, input) :: rest => do
      let fragment ← compile c source input
      let fragments ← compileAll c rest
      pure (fragment :: fragments)

/-- What is logged while listings are read: the origin of each and what it adds to the segment, up
to the first faulty one. -/
def listingReports (segment : Segment) : List Fragment → List Text
  | [] => []
  | f :: rest =>
      match f.listing with
      | none => listingReports segment rest
      | some text =>
          match segment.append .standard f.origin text with
          | .error _ => []
          | .ok next =>
              (f.origin ++ ": " ++ Text.decimal (next.size - segment.size) ++ " symbol(s), "
                ++ Text.decimal (next.totalSize.toNat - segment.totalSize.toNat)
                ++ " byte(s) of global data") :: listingReports next rest

def reportAll (reporter : Reporter) : List Text → Plan Unit
  | [] => pure ()
  | text :: rest => do
      Plan.report .debug reporter text
      reportAll reporter rest

def aggregate (c : Config) (fragments : List Fragment) : Part (Segment × Path) := do
  reportAll .segment (listingReports .empty fragments)
  match Segment.ofFragments .standard fragments with
  | .error e => throw (.data e)
  | .ok segment =>
      let path := c.sourceDir.join (segmentFile c.target)
      onFile path (Plan.writeFile path segment.toBytes)
      debug ("wrote " ++ Text.decimal segment.size ++ " symbol(s), "
        ++ Text.decimal segment.totalSize.toNat ++ " byte(s) to " ++ path.text)
      pure (segment, path)

def linkAll (c : Config) (ground : Ground) (fragments : List Fragment) (segment : Segment) :
    Part Path := do
  let program := link ground.template c.target.name fragments segment
  let bytes := Utf8.encode program.text
  Plan.report .debug .linker ("linked " ++ Text.decimal fragments.length
    ++ " fragment(s) against " ++ Text.decimal segment.size ++ " symbol(s) into "
    ++ Text.decimal bytes.length ++ " bytes")
  let relative := c.sourceDir.join linkedFile
  let path ← onFile relative (Plan.absolute relative)
  onFile path (Plan.writeFile path bytes)
  pure path

def assemble (c : Config) (ground : Ground) (linked : Path) : Part Unit := do
  runTool (← c.command c.assembler ["-d", ground.outDir.text, linked.text])
  if ← Plan.isFile ground.classFile then
    debug (Stage.assembling.text ++ " -> " ++ Stage.done.text)
    info ("built " ++ ground.classFile.text ++ " from " ++ Text.decimal ground.sources.length
      ++ " source(s)")
  else throw (.missingArtifact ground.classFile)

def stages (c : Config) : ExceptT BuildError Plan Artifact := do
  let ground ← within .idle (prepare c)
  let inputs ← within .preprocessing do
    enter c .idle .preprocessing
    Preprocess.all c ground.sources
  let fragments ← within .compiling do
    enter c .preprocessing .compiling
    compileAll c (ground.sources.zip inputs)
  let (segment, segmentPath) ← within .aggregating do
    enter c .compiling .aggregating
    aggregate c fragments
  let linked ← within .linking do
    enter c .aggregating .linking
    linkAll c ground fragments segment
  within .assembling do
    enter c .linking .assembling
    assemble c ground linked
  pure ⟨ground.classFile, segmentPath, linked, ground.sources.length, segment.size,
    segment.totalSize⟩

end Build

def build (c : Config) : Plan (Except BuildError Artifact) := (Build.stages c).run

end Bytelink
