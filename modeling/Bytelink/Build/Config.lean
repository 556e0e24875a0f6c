import Bytelink.Build.Target
import Bytelink.Host.Duration
import Bytelink.Host.Token
import Bytelink.Text.Quoted

/-!
# Build configurations

Everything one build needs to know. A configuration is a value: a build reads it and leaves it
alone.
-/
namespace Bytelink

def ConfigError.message : ConfigError → Text
  | emptyTarget => "target name is empty"
  | emptySegment name =>
      "target name '" ++ name ++ "' has an empty package or class segment"
  | invalidCharacter name invalid =>
      "target name '" ++ name ++ "' contains invalid character " ++ Text.quotedChar invalid
  | zeroJobs => "job count must be at least 1"
  | notADirectory path => "source directory " ++ path.text ++ " is not a directory"

structure Config where
  sourceDir : Path
  target : Target
  /-- Receives the class file; the source directory when absent. -/
  outDir? : Option Path
  preprocessor : Path
  compiler : Path
  assembler : Path
  /-- Replaces the standard class template. -/
  template? : Option Path
  /-- Bounds every tool run. -/
  timeout? : Option Duration
  /-- How many workers preprocess at once. -/
  jobs : Nat
  jobs_pos : 0 < jobs
  /-- Aborts the build when triggered. -/
  cancel? : Option Token

namespace Config

/-- A configuration with the tools looked up by their usual names, and all else left out. -/
def new (sourceDir : Path) (target : Target) : Config where
  sourceDir := sourceDir
  target := target
  outDir? := none
  preprocessor := ⟨"gcc"⟩
  compiler := ⟨"cc1"⟩
  assembler := ⟨"jasmin"⟩
  template? := none
  timeout? := none
  jobs := 1
  jobs_pos := Nat.one_pos
  cancel? := none

def withJobs (c : Config) (jobs : Nat) : Except ConfigError Config :=
  if h : 0 < jobs then .ok { c with jobs := jobs, jobs_pos := h } else .error .zeroJobs

/-- The directory that receives the class file. -/
def outDir (c : Config) : Path := c.outDir?.getD c.sourceDir

end Config
end Bytelink
