import Bytelink.Proofs.Dialogue
import Bytelink.Proofs.FileNames
import Mathlib.Logic.Relation

/-!
# A source directory with tools at work

A `Site` is what a build takes for granted: its source directory, the current directory and what the
preprocessor and the compiler make of the content of their input. A `Workshop` is what can change:
what stands under which path, and the runs that have been started. Different names in the source
directory are different files.

Runs go on by themselves. `Site.Works` is one step of a run: it reads its input, writes at its
outputs, and comes to its end. A run that fails may have left anything anywhere, and nothing is
known of a run that is neither the preprocessor's nor the compiler's. `Site.Serves` is the immediate
effect of each request, and `Site.answers` puts the two together: before any request is served, all
runs may have moved on. A request that fails may fail for any reason.
-/
namespace Bytelink

/-- What stands under a path: a regular file, or something else. -/
inductive Entry
  | file (content : Bytes)
  | other
  deriving DecidableEq, Repr

/-- What the tools make of the content of their input, unless they fail. The compiler makes a body
and, for a source with static data, a data listing. -/
structure Tools where
  preprocess : Bytes → Option Bytes
  compile : Bytes → Option (Text × Option Text)

/-- What a run is to do in the source directory: it reads one file, and its content decides what it
writes into which files, or that it fails. -/
structure Duty where
  input : Text
  output : Text
  effect : Bytes → Option (List (Text × Bytes))

/-- How far a run has come. -/
inductive Phase
  | started
  | loaded (content : Bytes)
  | succeeded
  | failed
  deriving DecidableEq, Repr

/-- A run, with its duty if it has one in the source directory. -/
structure Job where
  duty? : Option Duty
  phase : Phase

structure Workshop where
  node : Path → Option Entry
  jobs : Run → Option Job

structure Site where
  directory : Path
  currentDirectory : Path
  tools : Tools

/-- The file into which the compiler writes a data listing. -/
def listingName : Text := ['g', 'l', 'o', 'b', 'a', 'l', '.', 's']

/-- The file with the linked program. -/
def programName : Text := ['p', 'r', 'o', 'g', '.', 'j']

theorem linkedFile_eq : Build.linkedFile = ⟨programName⟩ := rfl

theorem isPlain_programName : IsPlain programName := by decide

namespace Target

theorem segmentName_ne_programName (t : Target) : t.segmentName ≠ programName := by
  intro he
  have hlast := t.getLast?_segmentName
  rw [he] at hlast
  exact absurd hlast (by decide)

theorem segmentName_ne_className (t : Target) : t.segmentName ≠ t.className := by
  intro he
  have hlast := t.getLast?_segmentName
  rw [he, getLast?_className] at hlast
  exact absurd hlast (by decide)

theorem programName_ne_className (t : Target) : programName ≠ t.className := by
  intro he
  have hlast := t.getLast?_className
  rw [← he] at hlast
  exact absurd hlast (by decide)

end Target

namespace Duty

def preprocess (tools : Tools) (input output : Text) : Duty where
  input := input
  output := output
  effect content := (tools.preprocess content).map fun made => [(output, made)]

/-- The compiler writes the body into its output, and the listing, if there is one, into the file
that all units share. -/
def compile (tools : Tools) (input output : Text) : Duty where
  input := input
  output := output
  effect content := (tools.compile content).map fun made =>
    (output, Utf8.encode made.1) ::
      made.2.toList.map fun listing => (listingName, Utf8.encode listing)

/-- Where a run may be writing: into its output from the beginning, and once it has read its input
into all files that it is to leave. -/
def MayWrite (t : Duty) : Phase → Text → Prop
  | .started, name => name = t.output
  | .loaded content, name =>
      name = t.output ∨ ∃ files, t.effect content = some files ∧ name ∈ files.map (·.1)
  | _, _ => False

end Duty

namespace Workshop

def Idle (w : Workshop) : Prop := ∀ run, w.jobs run = none

def setJob (w : Workshop) (run : Run) (job? : Option Job) : Workshop :=
  { w with jobs := fun r => if r = run then job? else w.jobs r }

@[simp] theorem setJob_node (w : Workshop) (run : Run) (job? : Option Job) :
    (w.setJob run job?).node = w.node := rfl

@[simp] theorem setJob_jobs_self (w : Workshop) (run : Run) (job? : Option Job) :
    (w.setJob run job?).jobs run = job? := if_pos rfl

theorem setJob_jobs_of_ne (w : Workshop) {run r : Run} (job? : Option Job) (h : r ≠ run) :
    (w.setJob run job?).jobs r = w.jobs r := if_neg h

end Workshop

namespace Site

def entry (site : Site) (w : Workshop) (name : Text) : Option Entry :=
  w.node (site.directory.join ⟨name⟩)

def LeadsTo (site : Site) (path : Path) (name : Text) : Prop :=
  path = site.directory.join ⟨name⟩ ∨
    (site.directory.join ⟨name⟩).absolute site.currentDirectory = .ok path

def duty? (site : Site) (command : Command) : Option Duty :=
  if command.directory? = some site.directory then
    match command.arguments with
    | [flag, _, input, mark, output] =>
        if mark = ['-', 'o'] then
          if flag = ['-', 'E'] then some (.preprocess site.tools input output)
          else if flag = ['-', 'O', '8'] then some (.compile site.tools input output)
          else none
        else none
    | _ => none
  else none

/-- One step of a run. -/
inductive Works (site : Site) : Workshop → Workshop → Prop
  | load {w : Workshop} {run : Run} {duty : Duty} {content : Bytes} :
      w.jobs run = some ⟨some duty, .started⟩ → IsPlain duty.input →
      site.entry w duty.input = some (.file content) →
      Works site w (w.setJob run (some ⟨some duty, .loaded content⟩))
  | write {w w' : Workshop} {run : Run} {duty : Duty} {phase : Phase} {name : Text} :
      w.jobs run = some ⟨some duty, phase⟩ → duty.MayWrite phase name → w'.jobs = w.jobs →
      (∀ other, IsPlain other → other ≠ name → site.entry w' other = site.entry w other) →
      Works site w w'
  | finish {w : Workshop} {run : Run} {duty : Duty} {content : Bytes}
      {files : List (Text × Bytes)} :
      w.jobs run = some ⟨some duty, .loaded content⟩ → duty.effect content = some files →
      (∀ file ∈ files, site.entry w file.1 = some (.file file.2)) →
      Works site w (w.setJob run (some ⟨some duty, .succeeded⟩))
  | fail {w : Workshop} {run : Run} {job : Job} :
      w.jobs run = some job → job.phase ≠ .succeeded →
      Works site w (w.setJob run (some ⟨job.duty?, .failed⟩))
  | spoil {w w' : Workshop} {run : Run} {job : Job} :
      w.jobs run = some job → job.phase = .failed ∨ job.duty? = none → w'.jobs = w.jobs →
      Works site w w'
  | exit {w : Workshop} {run : Run} {phase : Phase} :
      w.jobs run = some ⟨none, phase⟩ →
      Works site w (w.setJob run (some ⟨none, .succeeded⟩))

/-- What a request does and what its reply tells. -/
def Serves (site : Site) : (r : Request) → r.Reply → Workshop → Workshop → Prop
  | .isDirectory _, _, w, w' => w' = w
  | .isFile path, reply, w, w' =>
      w' = w ∧ (reply = true ↔ ∃ content, w.node path = some (.file content))
  | .currentDirectory, reply, w, w' =>
      w' = w ∧ ∀ path, reply = .ok path → path = site.currentDirectory
  | .entryNames path, reply, w, w' =>
      w' = w ∧ (path = site.directory → ∀ names, reply = .ok names →
        names.Nodup ∧ ∀ name, name ∈ names ↔ IsPlain name ∧ site.entry w name ≠ none)
  | .fileContent path, reply, w, w' =>
      w' = w ∧
        (∀ content, reply = .ok content → w.node path = some (.file content) ∨
          w.node path = some .other) ∧
        (reply = .error .notFound → w.node path = none)
  | .writeFile path content, reply, w, w' =>
      w'.jobs = w.jobs ∧
        (reply = .ok () → ∀ name, IsPlain name → site.LeadsTo path name →
          site.entry w' name = some (.file content) ∧
          ∀ other, IsPlain other → other ≠ name → site.entry w' other = site.entry w other)
  | .removeFile path, reply, w, w' =>
      w'.jobs = w.jobs ∧
        (reply = .ok () → w'.node path = none ∧
          ∀ name, IsPlain name → path.fileName? ≠ some name →
            site.entry w' name = site.entry w name) ∧
        (reply = .error .notFound → w'.node = w.node ∧ w.node path = none)
  | .makeDirectories _, reply, w, w' =>
      w'.jobs = w.jobs ∧
        (reply = .ok () → ∀ name, IsPlain name →
          site.entry w' name = site.entry w name ∨
            site.entry w name = none ∧ site.entry w' name = some .other)
  | .launch command, reply, w, w' =>
      (∀ refusal, reply = .error refusal → w' = w) ∧
        ∀ run, reply = .ok run → w.jobs run = none ∧
          w' = w.setJob run (some ⟨site.duty? command, .started⟩)
  | .await run, reply, w, w' =>
      (w.jobs run = none → w' = w) ∧
        ∀ job, w.jobs run = some job →
          ((∃ status output, reply = .exited status output ∧ status.isSuccess) →
            job.phase = .succeeded ∧ w' = w.setJob run none) ∧
          (¬ (∃ status output, reply = .exited status output ∧ status.isSuccess) →
            job.phase = .failed ∧ w' = w)
  | .turn _, _, w, w' => w' = w
  | .isCancelled _, _, w, w' => w' = w
  | .report _, _, w, w' => w' = w

/-- All runs may move on, and then the request is served. -/
def answers (site : Site) : Answers Workshop := fun r reply w w' =>
  ∃ between, Relation.ReflTransGen site.Works w between ∧ site.Serves r reply between w'

end Site
end Bytelink
