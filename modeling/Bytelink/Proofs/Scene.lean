import Bytelink.Proofs.Workshop

/-!
# Surroundings with tools of any kind

In a `Workshop` the tools compute functions. Here nothing is assumed of them: a `Setting` says which
steps a run may take, and these may be any steps at all. A `Scene` is what stands under each path
together with the log of the requests so far and of the replies to them. The log tells which runs
there are and which of them have succeeded. A run that has not succeeded counts as being at work for
ever, since it may have left processes behind.

A step leaves the name of its run on what it changes (`Standing.maker?`), so a scene tells what the
tools of a build have made from what was there before and from what the build has written itself.
Two paths with different last names are different places, unless a symbolic link stands at one of
them. A write of the build goes through such a link, and what it makes at the other end is put down
to the run that has made the link.
-/
namespace Bytelink

/-- What is found under a path, links followed, whether it is found through a symbolic link, and the
run that has put it there, if one has. At the end of a link that leads nowhere there is something
other than a file. -/
structure Standing where
  entry : Entry
  isLink : Bool
  maker? : Option Run
  deriving DecidableEq, Repr

/-- The same thing, whatever has become of its content. -/
def Standing.Like (a b : Standing) : Prop := a.isLink = b.isLink ∧ a.maker? = b.maker?

abbrev Places := Path → Option Standing

structure Exchange where
  request : Request
  reply : request.Reply

namespace Exchange

def started? : Exchange → Option (Run × Command)
  | ⟨.launch command, .ok run⟩ => some (run, command)
  | _ => none

def ended? : Exchange → Option Run
  | ⟨.await run, .exited status _⟩ => if status.isSuccess then some run else none
  | _ => none

def cleared? : Exchange → Option Path
  | ⟨.removeFile path, .ok _⟩ => some path
  | ⟨.removeFile path, .error e⟩ => if e = .notFound then some path else none
  | _ => none

end Exchange

structure Scene where
  places : Places
  log : List Exchange

namespace Scene

variable (w : Scene)

def runs : List (Run × Command) := w.log.filterMap Exchange.started?

def ended : List Run := w.log.filterMap Exchange.ended?

def cleared : List Path := w.log.filterMap Exchange.cleared?

def AtWork (run : Run) (command : Command) : Prop := (run, command) ∈ w.runs ∧ run ∉ w.ended

def Idle : Prop := ∀ run command, ¬ w.AtWork run command

def Holds (path : Path) (content : Bytes) : Prop :=
  ∃ standing, w.places path = some standing ∧ standing.entry = .file content

def reply (after : Places) (r : Request) (reply : r.Reply) : Scene := ⟨after, w.log ++ [⟨r, reply⟩]⟩

variable {w} (after : Places)

theorem filterMap_reply {α : Type} (f : Exchange → Option α) (r : Request) (answer : r.Reply) :
    (w.reply after r answer).log.filterMap f = w.log.filterMap f ++ (f ⟨r, answer⟩).toList := by
  simp only [reply, List.filterMap_append]
  cases h : f ⟨r, answer⟩ <;> simp [h]

theorem filterMap_reply_of_none {α : Type} {f : Exchange → Option α} {r : Request}
    {answer : r.Reply} (h : f ⟨r, answer⟩ = none) :
    (w.reply after r answer).log.filterMap f = w.log.filterMap f := by
  rw [filterMap_reply, h, Option.toList_none, List.append_nil]

theorem runs_reply {r : Request} (h : ∀ command, r ≠ .launch command) (answer : r.Reply) :
    (w.reply after r answer).runs = w.runs := by
  refine filterMap_reply_of_none after ?_
  cases r with
  | launch command => exact absurd rfl (h command)
  | _ => rfl

theorem ended_reply {r : Request} (h : ∀ run, r ≠ .await run) (answer : r.Reply) :
    (w.reply after r answer).ended = w.ended := by
  refine filterMap_reply_of_none after ?_
  cases r with
  | await run => exact absurd rfl (h run)
  | _ => rfl

theorem cleared_reply {r : Request} (h : ∀ path, r ≠ .removeFile path) (answer : r.Reply) :
    (w.reply after r answer).cleared = w.cleared := by
  refine filterMap_reply_of_none after ?_
  cases r with
  | removeFile path => exact absurd rfl (h path)
  | _ => rfl

theorem runs_launch (command : Command) (run : Run) :
    (w.reply after (.launch command) (.ok run)).runs = w.runs ++ [(run, command)] :=
  filterMap_reply after Exchange.started? (.launch command) (.ok run)

theorem runs_refused (command : Command) (e : Refusal) :
    (w.reply after (.launch command) (.error e)).runs = w.runs :=
  filterMap_reply_of_none after (f := Exchange.started?) (r := .launch command) rfl

theorem ended_await {run : Run} {status : ExitStatus} (output : Bytes) (h : status.isSuccess) :
    (w.reply after (.await run) (.exited status output)).ended = w.ended ++ [run] := by
  have hended : Exchange.ended? ⟨.await run, .exited status output⟩ = some run := if_pos h
  refine (filterMap_reply after Exchange.ended? (.await run) (.exited status output)).trans ?_
  rw [hended]
  rfl

theorem ended_failed {run : Run} {ending : Ending}
    (h : ∀ status output, ending = .exited status output → ¬ status.isSuccess) :
    (w.reply after (.await run) ending).ended = w.ended := by
  refine filterMap_reply_of_none after (f := Exchange.ended?) (r := .await run) ?_
  cases ending with
  | exited status output => exact if_neg (h status output rfl)
  | _ => rfl

theorem cleared_removed (path : Path) :
    (w.reply after (.removeFile path) (.ok ())).cleared = w.cleared ++ [path] :=
  filterMap_reply after Exchange.cleared? (.removeFile path) (.ok ())

theorem cleared_missing (path : Path) :
    (w.reply after (.removeFile path) (.error .notFound)).cleared = w.cleared ++ [path] :=
  filterMap_reply after Exchange.cleared? (.removeFile path) (.error .notFound)

theorem cleared_failed {path : Path} {e : SystemError} (h : e ≠ .notFound) :
    (w.reply after (.removeFile path) (.error e)).cleared = w.cleared :=
  filterMap_reply_of_none after (f := Exchange.cleared?) (r := .removeFile path) (if_neg h)

end Scene

/-- Where a build takes place, and what its tools may do: the steps that a run of a command may
take, and the places in which it may exit with success. -/
structure Setting where
  directory : Path
  currentDirectory : Path
  step : Run → Command → Places → Places → Prop
  exit : Run → Command → Places → Prop

namespace Setting

variable (setting : Setting)

/-- The path of an entry of the source directory: below it, or the same from the root. -/
def IsEntry (path : Path) : Prop :=
  ∃ name, IsPlain name ∧ (path = setting.directory.join ⟨name⟩ ∨
    (setting.directory.join ⟨name⟩).absolute setting.currentDirectory = .ok path)

/-- There is no symbolic link in the source directory. -/
def NoLinks (places : Places) : Prop :=
  ∀ path standing, setting.IsEntry path → places path = some standing → standing.isLink = false

/-- A step of one run. What it changes bears its name. -/
def StepOf (run : Run) (command : Command) (before after : Places) : Prop :=
  setting.step run command before after ∧ ∀ path standing, after path = some standing →
    before path = some standing ∨ standing.maker? = some run

def Works (w w' : Scene) : Prop :=
  ∃ run command, w.AtWork run command ∧ setting.StepOf run command w.places w'.places ∧
    w'.log = w.log

/-- Nothing appears, and what stays is the same but for its content. -/
def Fades (before after : Places) : Prop :=
  ∀ path standing, after path = some standing →
    ∃ standing', before path = some standing' ∧ standing.Like standing'

/-- No symbolic link appears in the source directory. -/
def KeepsLinks (before after : Places) : Prop :=
  ∀ path standing, setting.IsEntry path → after path = some standing → standing.isLink →
    ∃ standing', before path = some standing' ∧ standing.Like standing'

/-- What a write at a path does. What stands anywhere stays, but for its content. Under another name
something appears only by way of a link. -/
def Written (path : Path) (before after : Places) : Prop :=
  (∀ other standing, before other = some standing →
    ∃ standing', after other = some standing' ∧ standing'.Like standing) ∧
  ∀ other standing, before other = none → after other = some standing → standing.isLink = false ∧
    (other.fileName? = path.fileName? ∨
      ∃ link, before path = some link ∧ link.isLink ∧ standing.maker? = link.maker?)

/-- What a request does to the places, and what its reply tells. -/
def Serves (w : Scene) (after : Places) : (r : Request) → r.Reply → Prop
  | .isDirectory _, _ => after = w.places
  | .isFile path, reply => after = w.places ∧ (reply = true ↔ ∃ content, w.Holds path content)
  | .currentDirectory, reply =>
      after = w.places ∧ ∀ path, reply = .ok path → path = setting.currentDirectory
  | .entryNames _, _ => after = w.places
  | .fileContent path, reply =>
      after = w.places ∧ (∀ content, reply = .ok content → w.places path ≠ none ∧
        ∀ found, w.Holds path found → found = content) ∧
      (reply = .error .notFound → ∀ content, ¬ w.Holds path content)
  | .writeFile path _, _ => Written path w.places after
  | .removeFile path, reply =>
      (reply = .ok () → after path = none ∧ Fades w.places after) ∧
      (reply ≠ .ok () → after = w.places) ∧ (reply = .error .notFound → w.places path = none)
  | .makeDirectories _, _ =>
      (∀ path content, w.Holds path content → after path = w.places path) ∧
        setting.KeepsLinks w.places after
  | .launch _, reply =>
      after = w.places ∧ ∀ run, reply = .ok run → run ∉ w.ended ∧ run ∉ w.runs.map (·.1)
  | .await run, reply =>
      after = w.places ∧ ∀ command status output, (run, command) ∈ w.runs →
        reply = .exited status output → status.isSuccess → setting.exit run command w.places
  | .turn _, _ => after = w.places
  | .isCancelled _, _ => after = w.places
  | .report _, _ => after = w.places

/-- The runs at work may go on, and then the request is served. -/
def answers : Answers Scene := fun r reply w w' =>
  ∃ between after, Relation.ReflTransGen setting.Works w between ∧
    setting.Serves between after r reply ∧ w' = between.reply after r reply

end Setting
end Bytelink
