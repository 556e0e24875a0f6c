import Bytelink.CommandLine.Session
import Bytelink.Host.Workspace

/-!
# The program

Runs the command line on the files of the disk. What the arguments name is read into the volume of a
simulated machine, the plan of the run is performed there, and the changes to the volume are written
back. Tools are scripts that the machine interprets; a file that begins with `#!` is one.
-/
namespace Bytelink.Disk

/-- The place on the disk to which some steps lead from the top. -/
def placeOf (steps : List Text) : IO.FS.DirEntry where
  root := String.ofList ('/' :: Text.join ['/'] steps.dropLast)
  fileName := String.ofList (steps.getLast?.getD [])

/-- The path of the same place in a volume. -/
def pathOf (steps : List Text) : Path := ⟨'/' :: Text.join ['/'] steps⟩

def stepsOf (path : Path) : List Text :=
  path.components.foldl (fun steps step => match step with
    | .name text => steps ++ [text]
    | .parent => steps.dropLast
    | _ => steps) []

def isScript (content : Bytes) : Bool := (Utf8.encode ("#!" : Text)).isPrefixOf content

/-- Reads a file, or a directory at most `depth` levels down, into the volume of a machine. -/
def load : Nat → Machine → List Text → IO Machine
  | 0, m, _ => pure m
  | depth + 1, m, steps => do
      let place := (placeOf steps).path
      let path := pathOf steps
      if ← place.isDir then
        let enter (m : Machine) (child : IO.FS.DirEntry) : IO Machine :=
          load depth m (steps ++ [child.fileName.toList])
        (← place.readDir).foldlM enter (m.putDirectory path)
      else if ← place.pathExists then
        let content := (← IO.FS.readBinFile place).toList
        pure (m.putFile path content (isScript content))
      else pure m

/-- How far down directories are read. -/
def depthLimit : Nat := 64

/-- What a volume holds, by the steps that lead there. -/
def contents (v : Volume) : List (List Text × Inode) :=
  (v.below id Volume.root).map fun e => (e.1, v.node e.2)

/-- Makes the disk follow the change from one volume to another. -/
def save (before after : Volume) : IO Unit := do
  let old := contents before
  let new := contents after
  for (steps, node) in new do
    let isKept := match old.lookup steps with
      | some was => was.isDirectory == node.isDirectory && was.bytes == node.bytes
      | none => false
    if !isKept then
      if node.isDirectory then IO.FS.createDirAll (placeOf steps).path
      else if node.isFile then
        IO.FS.writeBinFile (placeOf steps).path (ByteArray.mk node.bytes)
  for (steps, node) in old.reverse do
    if (new.lookup steps).isNone then
      if node.isDirectory then IO.FS.removeDir (placeOf steps).path
      else IO.FS.removeFile (placeOf steps).path

def namedPaths (arguments : List Text) : List Path :=
  match CommandLine.parse arguments with
  | .ok (.build a) =>
      let optional := [a.outDir?, a.preprocessor?, a.compiler?, a.assembler?, a.template?]
      a.sourceDir :: optional.filterMap id
  | _ => []

/-- A machine in the current directory that holds what the arguments name. -/
def machine (arguments : List Text) : IO Machine := do
  let here : Path := ⟨(← IO.currentDir).toString.toList⟩
  let places := (namedPaths arguments).filterMap fun path =>
    (path.absolute here).toOption.map stepsOf
  places.foldlM (load depthLimit) (Machine.new here)

end Bytelink.Disk

open Bytelink in
def main (arguments : List String) : IO UInt32 := do
  let arguments := arguments.map String.toList
  let before ← Disk.machine arguments
  let (report, after) := (CommandLine.execute arguments).run Machine.host before
  Disk.save before.volume after.volume
  IO.print (String.ofList report.output)
  IO.eprint (String.ofList
    (CommandLine.renderLog none arguments after.records.reverse ++ report.errors))
  return UInt32.ofNat report.code
