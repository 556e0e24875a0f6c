import Bytelink.Build.Pipeline
import Bytelink.Proofs.Deeds

/-!
# Steps of a build

A build is made of steps that either succeed or fail with a cause. A `Step` names what is to be done
and, where the build goes on with a value, the value to be found. `Step.Goes` says which deeds
belong to a step and how it comes out, in terms of requests and replies alone. The deeds decide how
a step has come out (`Step.Goes.unique`).

`Performs` connects a part of the build to its step: whatever it is answered, its deeds are those of
the step, and it succeeds or fails as the step does.
-/
namespace Bytelink

/-- One step of a build. -/
inductive Step
  /-- There has to be a directory. -/
  | checkDirectory (path : Path)
  /-- The template has to be found: the standard one, or the one in a file. -/
  | loadTemplate (path? : Option Path) (template : Template)
  /-- The path from the root has to be found. -/
  | locate (path found : Path)
  | makeDirectories (path : Path)
  /-- There must be no file any more. -/
  | clear (path : Path)
  | discover (directory : Path) (sources : List Path)
  /-- There has to be a source. -/
  | demand (directory : Path) (sources : List Path)
  /-- The token must not be triggered where a stage is entered. -/
  | enter
  | tool (program : Path) (arguments : List Text)
  | read (path : Path) (text : Text)
  /-- The listing has to be taken away, if there is one. -/
  | take (path : Path) (listing? : Option Text)
  /-- All listings have to be read into a segment. -/
  | collect (fragments : List Fragment) (segment : Segment)
  | write (path : Path) (content : Bytes)
  /-- There has to be a regular file. -/
  | inspect (path : Path)

/-- How a step comes out that was to find `value`. -/
def Found {α : Type} (found : Except Cause α) (value : α) (outcome : Except Cause Unit) : Prop :=
  match found with
  | .ok a => a = value ∧ outcome = .ok ()
  | .error cause => outcome = .error cause

/-- The content of a file as text. -/
def textOf : Except SystemError Bytes → Except SystemError Text
  | .ok bytes => match Utf8.decode? bytes with
    | some text => .ok text
    | none => .error .invalidText
  | .error e => .error e

/-- The template in a file that has been read. -/
def templateOf (path : Path) (content : Except SystemError Bytes) : Except Cause Template :=
  match textOf content with
  | .ok text => match Template.ofText? text with
    | some template => .ok template
    | none => .error (.template .missingPlaceholder)
  | .error e => .error (.template (.unreadable path e))

def removalOf (path : Path) : Except SystemError Unit → Except Cause Unit
  | .ok () => .ok ()
  | .error e => if e = .notFound then .ok () else .error (.file path e)

theorem removalOf_missing (path : Path) : removalOf path (.error .notFound) = .ok () := by
  simp only [removalOf, if_true]

theorem removalOf_failed {e : SystemError} (h : e ≠ .notFound) (path : Path) :
    removalOf path (.error e) = .error (.file path e) := by
  simp only [removalOf, h, if_false]

def Located (path : Path) (log : List Exchange) (found : Except SystemError Path) : Prop :=
  if path.text.isEmpty || path.isAbsolute then log = [] ∧ found = path.absolute ⟨[]⟩
  else ∃ directory, log = [⟨.currentDirectory, directory⟩] ∧ found = directory.bind path.absolute

/-- The deeds by which the command of a tool is found. -/
def Resolved (c : Config) (program : Path) (arguments : List Text) (log : List Exchange)
    (command : Command) : Prop :=
  ∃ resolved, command = ⟨resolved, arguments, some c.sourceDir, c.timeout?, c.cancel?⟩ ∧
    if !program.isAbsolute && program.components.length > 1 then
      ∃ found, Located program log found ∧ resolved = match found with
        | .ok path => path
        | .error _ => program
    else log = [] ∧ resolved = program

def Command.refusal (command : Command) : Refusal → ToolError
  | .cancelled => .cancelled command.line []
  | .impossible reason => .notStarted command.line reason

def Ran (command : Command) (log : List Exchange) (outcome : Except Cause Unit) : Prop :=
  (∃ e, log = [⟨.launch command, .error e⟩] ∧ outcome = .error (.tool (command.refusal e))) ∨
    ∃ run ending, log = [⟨.launch command, .ok run⟩, ⟨.await run, ending⟩] ∧
      outcome = ((command.outcome ending).mapError .tool).map fun _ => ()

/-- The deeds by which a listing is taken away. -/
def Taken (path : Path) (log : List Exchange) (taken : Except Cause (Option Text)) : Prop :=
  (∃ reply e, textOf reply = .error e ∧ log = [⟨.fileContent path, reply⟩] ∧
    taken = if e = .notFound then .ok none else .error (.file path e)) ∨
  ∃ reply text removal, textOf reply = .ok text ∧
    log = [⟨.fileContent path, reply⟩, ⟨.removeFile path, removal⟩] ∧
    taken = (removalOf path removal).map fun _ => some text

/-- The deeds by which a stage is entered. -/
def Entered : Option Token → List Exchange → Except Cause Unit → Prop
  | none, log, outcome => log = [] ∧ outcome = .ok ()
  | some token, log, outcome => ∃ answer : Bool, log = [⟨.isCancelled token, answer⟩] ∧
      outcome = if answer then .error .cancelled else .ok ()

namespace Step

variable (c : Config)

/-- The deeds of a step and how it comes out with them. -/
def Goes : Step → List Exchange → Except Cause Unit → Prop
  | checkDirectory path, log, outcome => ∃ answer : Bool, log = [⟨.isDirectory path, answer⟩] ∧
      outcome = if answer then .ok () else .error (.config (.notADirectory path))
  | loadTemplate none template, log, outcome => log = [] ∧ Found (.ok .standard) template outcome
  | loadTemplate (some path) template, log, outcome => ∃ reply,
      log = [⟨.fileContent path, reply⟩] ∧ Found (templateOf path reply) template outcome
  | locate path found, log, outcome => ∃ reply, Located path log reply ∧
      Found (reply.mapError (.file path)) found outcome
  | makeDirectories path, log, outcome => ∃ reply, log = [⟨.makeDirectories path, reply⟩] ∧
      outcome = reply.mapError (.file path)
  | clear path, log, outcome => ∃ reply, log = [⟨.removeFile path, reply⟩] ∧
      outcome = removalOf path reply
  | discover directory sources, log, outcome =>
      (∃ e, log = [⟨.entryNames directory, .error e⟩] ∧ outcome = .error (.file directory e)) ∨
      ∃ names, ∃ looks : List (Text × Bool), looks.map (·.1) = names.filter Sources.isSourceName ∧
        log = ⟨.entryNames directory, .ok names⟩ ::
          looks.map (fun look => ⟨.isFile (directory.join ⟨look.1⟩), look.2⟩) ∧
        sources = (((looks.filter (·.2)).map (·.1)).mergeSort Text.le).map
          (fun name => directory.join ⟨name⟩) ∧ outcome = .ok ()
  | demand directory sources, log, outcome => log = [] ∧
      outcome = if sources.isEmpty then .error (.noSources directory) else .ok ()
  | enter, log, outcome => Entered c.cancel? log outcome
  | tool program arguments, log, outcome => ∃ looked command ran, log = looked ++ ran ∧
      Resolved c program arguments looked command ∧ Ran command ran outcome
  | read path text, log, outcome => ∃ reply, log = [⟨.fileContent path, reply⟩] ∧
      Found ((textOf reply).mapError (.file path)) text outcome
  | take path listing?, log, outcome => ∃ taken, Taken path log taken ∧
      Found taken listing? outcome
  | collect fragments segment, log, outcome => log = [] ∧
      Found ((Segment.ofFragments .standard fragments).mapError .data) segment outcome
  | write path content, log, outcome => ∃ reply, log = [⟨.writeFile path content, reply⟩] ∧
      outcome = reply.mapError (.file path)
  | inspect path, log, outcome => ∃ answer : Bool, log = [⟨.isFile path, answer⟩] ∧
      outcome = if answer then .ok () else .error (.missingArtifact path)

end Step

section

variable {c : Config} {log log' more more' : List Exchange}

theorem Exchange.reply_eq {r : Request} {reply reply' : r.Reply}
    (h : ⟨r, reply⟩ :: more = ⟨r, reply'⟩ :: more') : reply = reply' := by
  rw [List.cons.injEq, Exchange.mk.injEq] at h
  exact eq_of_heq h.1.2

theorem Found.unique {α : Type} {found : Except Cause α} {value : α}
    {outcome outcome' : Except Cause Unit} (h : Found found value outcome)
    (h' : Found found value outcome') : outcome = outcome' := by
  cases found with
  | ok a => exact h.2.trans h'.2.symm
  | error cause => exact h.trans h'.symm

theorem Located.unique {path : Path} {found found' : Except SystemError Path}
    (h : Located path log found) (h' : Located path log' found')
    (heq : log ++ more = log' ++ more') : log = log' ∧ found = found' := by
  unfold Located at h h'
  split at h
  · rename_i hknown
    rw [if_pos hknown] at h'
    exact ⟨h.1.trans h'.1.symm, h.2.trans h'.2.symm⟩
  · rename_i hunknown
    rw [if_neg hunknown] at h'
    obtain ⟨directory, rfl, rfl⟩ := h
    obtain ⟨directory', rfl, rfl⟩ := h'
    obtain rfl : directory = directory' := Exchange.reply_eq heq
    exact ⟨rfl, rfl⟩

theorem Resolved.unique {program : Path} {arguments : List Text} {command command' : Command}
    (h : Resolved c program arguments log command) (h' : Resolved c program arguments log' command')
    (heq : log ++ more = log' ++ more') : log = log' ∧ command = command' := by
  obtain ⟨resolved, rfl, h⟩ := h
  obtain ⟨resolved', rfl, h'⟩ := h'
  split at h
  · rename_i hrelative
    rw [if_pos hrelative] at h'
    obtain ⟨found, hfound, rfl⟩ := h
    obtain ⟨found', hfound', rfl⟩ := h'
    obtain ⟨rfl, rfl⟩ := hfound.unique hfound' heq
    exact ⟨rfl, rfl⟩
  · rename_i hplain
    rw [if_neg hplain] at h'
    obtain ⟨rfl, rfl⟩ := h
    obtain ⟨rfl, rfl⟩ := h'
    exact ⟨rfl, rfl⟩

theorem Ran.unique {command : Command} {outcome outcome' : Except Cause Unit}
    (h : Ran command log outcome) (h' : Ran command log' outcome')
    (heq : log ++ more = log' ++ more') : log = log' ∧ outcome = outcome' := by
  rcases h with ⟨e, rfl, rfl⟩ | ⟨run, ending, rfl, rfl⟩
  · rcases h' with ⟨e', rfl, rfl⟩ | ⟨run', ending', rfl, rfl⟩
    · obtain rfl := Except.error.inj (Exchange.reply_eq heq)
      exact ⟨rfl, rfl⟩
    · cases Exchange.reply_eq heq
  · rcases h' with ⟨e', rfl, rfl⟩ | ⟨run', ending', rfl, rfl⟩
    · cases Exchange.reply_eq heq
    · obtain rfl := Except.ok.inj (Exchange.reply_eq heq)
      obtain rfl := Exchange.reply_eq (List.cons.inj heq).2
      exact ⟨rfl, rfl⟩

theorem Taken.unique {path : Path} {taken taken' : Except Cause (Option Text)}
    (h : Taken path log taken) (h' : Taken path log' taken')
    (heq : log ++ more = log' ++ more') : log = log' ∧ taken = taken' := by
  rcases h with ⟨reply, e, htext, rfl, rfl⟩ | ⟨reply, text, removal, htext, rfl, rfl⟩
  · rcases h' with ⟨reply', e', htext', rfl, rfl⟩ | ⟨reply', text', removal', htext', rfl, rfl⟩
    · obtain rfl := Exchange.reply_eq heq
      obtain rfl := Except.error.inj (htext.symm.trans htext')
      exact ⟨rfl, rfl⟩
    · obtain rfl := Exchange.reply_eq heq
      cases htext.symm.trans htext'
  · rcases h' with ⟨reply', e', htext', rfl, rfl⟩ | ⟨reply', text', removal', htext', rfl, rfl⟩
    · obtain rfl := Exchange.reply_eq heq
      cases htext.symm.trans htext'
    · obtain rfl := Exchange.reply_eq heq
      obtain rfl := Except.ok.inj (htext.symm.trans htext')
      obtain rfl := Exchange.reply_eq (List.cons.inj heq).2
      exact ⟨rfl, rfl⟩

theorem Entered.unique {token? : Option Token} {outcome outcome' : Except Cause Unit}
    (h : Entered token? log outcome) (h' : Entered token? log' outcome')
    (heq : log ++ more = log' ++ more') : log = log' ∧ outcome = outcome' := by
  cases token? with
  | none => exact ⟨h.1.trans h'.1.symm, h.2.trans h'.2.symm⟩
  | some token =>
      obtain ⟨answer, rfl, rfl⟩ := h
      obtain ⟨answer', rfl, rfl⟩ := h'
      obtain rfl := Exchange.reply_eq heq
      exact ⟨rfl, rfl⟩

/-- Whatever is done afterwards, the deeds of a step end where they end, and decide how it has come
out. -/
theorem Step.Goes.unique {step : Step} {outcome outcome' : Except Cause Unit}
    (h : step.Goes c log outcome) (h' : step.Goes c log' outcome')
    (heq : log ++ more = log' ++ more') : log = log' ∧ outcome = outcome' := by
  cases step with
  | checkDirectory | makeDirectories | clear | write | inspect =>
      obtain ⟨reply, rfl, rfl⟩ := h
      obtain ⟨reply', rfl, rfl⟩ := h'
      obtain rfl := Exchange.reply_eq heq
      exact ⟨rfl, rfl⟩
  | loadTemplate path? template =>
      cases path? with
      | none => exact ⟨h.1.trans h'.1.symm, h.2.unique h'.2⟩
      | some path =>
          obtain ⟨reply, rfl, hfound⟩ := h
          obtain ⟨reply', rfl, hfound'⟩ := h'
          obtain rfl := Exchange.reply_eq heq
          exact ⟨rfl, hfound.unique hfound'⟩
  | locate path found =>
      obtain ⟨reply, hlocated, hfound⟩ := h
      obtain ⟨reply', hlocated', hfound'⟩ := h'
      obtain ⟨rfl, rfl⟩ := hlocated.unique hlocated' heq
      exact ⟨rfl, hfound.unique hfound'⟩
  | discover directory sources =>
      rcases h with ⟨e, rfl, rfl⟩ | ⟨names, looks, hlooks, rfl, -, rfl⟩
      · rcases h' with ⟨e', rfl, rfl⟩ | ⟨names', looks', -, rfl, -, rfl⟩
        · obtain rfl := Except.error.inj (Exchange.reply_eq heq)
          exact ⟨rfl, rfl⟩
        · cases Exchange.reply_eq heq
      · rcases h' with ⟨e', rfl, rfl⟩ | ⟨names', looks', hlooks', rfl, -, rfl⟩
        · cases Exchange.reply_eq heq
        · obtain rfl := Except.ok.inj (Exchange.reply_eq heq)
          have hlength : looks.length = looks'.length := by
            rw [← List.length_map, hlooks, ← hlooks', List.length_map]
          exact ⟨List.append_inj_left heq (by simp [hlength]), rfl⟩
  | demand => exact ⟨h.1.trans h'.1.symm, h.2.trans h'.2.symm⟩
  | enter => exact Entered.unique h h' heq
  | tool program arguments =>
      obtain ⟨looked, command, ran, rfl, hresolved, hran⟩ := h
      obtain ⟨looked', command', ran', rfl, hresolved', hran'⟩ := h'
      rw [List.append_assoc, List.append_assoc] at heq
      obtain ⟨rfl, rfl⟩ := hresolved.unique hresolved' heq
      obtain ⟨rfl, rfl⟩ := hran.unique hran' (List.append_cancel_left heq)
      exact ⟨rfl, rfl⟩
  | read path text =>
      obtain ⟨reply, rfl, hfound⟩ := h
      obtain ⟨reply', rfl, hfound'⟩ := h'
      obtain rfl := Exchange.reply_eq heq
      exact ⟨rfl, hfound.unique hfound'⟩
  | take path listing? =>
      obtain ⟨taken, htaken, hfound⟩ := h
      obtain ⟨taken', htaken', hfound'⟩ := h'
      obtain ⟨rfl, rfl⟩ := htaken.unique htaken' heq
      exact ⟨rfl, hfound.unique hfound'⟩
  | collect => exact ⟨h.1.trans h'.1.symm, h.2.unique h'.2⟩

end
end Bytelink
