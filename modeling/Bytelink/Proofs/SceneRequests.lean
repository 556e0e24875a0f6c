import Bytelink.Build.Pipeline
import Bytelink.Proofs.Scene
import Bytelink.Proofs.ToolRuns

/-!
# Requests and tool runs in a scene

What can be relied on while runs are at work is what neither their steps nor answers to questions
end (`Setting.Lasting`). While none is at work nothing changes but the log (`lasting_heard`), and a
run that is started then has the scene to itself until it has succeeded (`Setting.ensures_run`).

The rules are stated under a `Licence`, which says what a part of a build may do besides asking
questions. No part announces that a stage is entered: that is left to `Build.enter`.
-/
namespace Bytelink

def Build.entering (previous stage : Stage) : Record :=
  ⟨.debug, .pipeline, previous.text ++ " -> " ++ stage.text⟩

/-- The report says that a stage is entered in which there is work to do. -/
def Record.Enters (record : Record) : Prop :=
  ∃ previous stage, stage ≠ .done ∧ record = Build.entering previous stage

namespace Record

variable {record : Record}

theorem not_enters_of_reporter (h : record.reporter ≠ .pipeline) : ¬ record.Enters := by
  intro ⟨previous, stage, _, he⟩
  exact h (he ▸ rfl)

theorem not_enters_of_level (h : record.level ≠ .debug) : ¬ record.Enters := by
  intro ⟨previous, stage, _, he⟩
  exact h (he ▸ rfl)

theorem not_enters_of_start {start : Text} (hstart : start <+: record.text)
    (h : ∀ previous stage, ¬ start <+: (Build.entering previous stage).text) :
    ¬ record.Enters := by
  intro ⟨previous, stage, _, he⟩
  exact h previous stage (he ▸ hstart)

end Record

/-- A request that leaves everything as it is. -/
def Request.IsQuestion : Request → Prop
  | .launch _ | .await _ | .writeFile _ _ | .removeFile _ | .makeDirectories _ => False
  | _ => True

/-- The first argument, which tells the tools of a build apart. -/
def Command.HasFlag (command : Command) (flag : Text) : Prop :=
  command.arguments.head? = some flag

instance (command : Command) (flag : Text) : Decidable (command.HasFlag flag) :=
  inferInstanceAs (Decidable (_ = _))

theorem Command.hasFlag_of_arguments {command : Command} {arguments : List Text} {flag : Text}
    (h : command.arguments = arguments) (hflag : arguments.head? = some flag) :
    command.HasFlag flag :=
  (congrArg List.head? h).trans hflag

def Scene.Lacks (w : Scene) (flag : Text) : Prop :=
  ∀ run command, (run, command) ∈ w.runs → ¬ command.HasFlag flag

/-- The commands that may be started, the files that may be written, and the directories that may be
made, in a scene. -/
structure Licence where
  starts : Command → Scene → Prop
  writes : Path → Bytes → Scene → Prop
  makes : Path → Prop

def Licence.Lets (l : Licence) (flag : Text) : Prop :=
  ∀ command w, command.HasFlag flag → l.starts command w

def Licence.Allows (l : Licence) : Request → Scene → Prop
  | .launch command, w => l.starts command w
  | .writeFile path content, w => l.writes path content w
  | .makeDirectories path, _ => l.makes path
  | .report record, _ => ¬ record.Enters
  | _, _ => True

namespace Scene

/-- Nothing but answers to questions lies between the two scenes. -/
structure Heard (w w' : Scene) : Prop where
  places : w'.places = w.places
  runs : w'.runs = w.runs
  ended : w'.ended = w.ended
  cleared : w'.cleared = w.cleared

variable {w w' w'' : Scene}

theorem Heard.refl (w : Scene) : w.Heard w := ⟨rfl, rfl, rfl, rfl⟩

theorem Heard.trans (h : w.Heard w') (h' : w'.Heard w'') : w.Heard w'' :=
  ⟨h'.places.trans h.places, h'.runs.trans h.runs, h'.ended.trans h.ended,
    h'.cleared.trans h.cleared⟩

theorem Heard.of_question {r : Request} (hr : r.IsQuestion) (reply : r.Reply) :
    w.Heard (w.reply w.places r reply) := by
  constructor
  · rfl
  · exact runs_reply _ (fun _ he => by simp [he, Request.IsQuestion] at hr) reply
  · exact ended_reply _ (fun _ he => by simp [he, Request.IsQuestion] at hr) reply
  · exact cleared_reply _ (fun _ he => by simp [he, Request.IsQuestion] at hr) reply

theorem Idle.of_log (h : w.Idle) (hruns : w'.runs = w.runs) (hended : w'.ended = w.ended) :
    w'.Idle := by
  intro run command hwork
  rw [AtWork, hruns, hended] at hwork
  exact h run command hwork

theorem Heard.idle (h : w.Heard w') (hidle : w.Idle) : w'.Idle := hidle.of_log h.runs h.ended

theorem Heard.holds_iff (h : w.Heard w') {path : Path} {content : Bytes} :
    w'.Holds path content ↔ w.Holds path content := by
  rw [Holds, h.places, Holds]

end Scene

namespace Setting

variable {setting : Setting} {l : Licence} {G : Request → Scene → Prop} {w w' : Scene}
variable {P : Scene → Prop}

/-- Neither a step of a run nor an answer to a question ends the condition. -/
structure Lasting (setting : Setting) (P : Scene → Prop) : Prop where
  works : ∀ w w', P w → setting.Works w w' → P w'
  heard : ∀ w w', P w → w.Heard w' → P w'

theorem Lasting.steps (hP : setting.Lasting P) (hw : P w)
    (h : Relation.ReflTransGen setting.Works w w') : P w' := by
  induction h with
  | refl => exact hw
  | tail _ hstep ih => exact hP.works _ _ ih hstep

theorem lasting_heard (hidle : w.Idle) : setting.Lasting w.Heard := by
  refine ⟨?_, fun _ _ h h' => h.trans h'⟩
  intro w₁ w₂ hheard ⟨run, command, hwork, _⟩
  exact absurd hwork (hheard.idle hidle run command)

/-- What the log decides lasts, and so does what it decides together with the places where no run is
at work. -/
theorem lasting_of_log (hP : ∀ w w', P w → w'.runs = w.runs → w'.ended = w.ended →
    (w.Idle → w'.places = w.places) → P w') : setting.Lasting P := by
  refine ⟨?_, fun w w' h hheard => hP w w' h hheard.runs hheard.ended fun _ => hheard.places⟩
  intro w w' h ⟨run, command, hwork, _, hlog⟩
  refine hP w w' h ?_ ?_ fun hidle => absurd hwork (hidle run command)
  · rw [Scene.runs, hlog, Scene.runs]
  · rw [Scene.ended, hlog, Scene.ended]

theorem Serves.places_eq {r : Request} {reply : r.Reply} {after : Places}
    (h : setting.Serves w after r reply) (hr : r.IsQuestion) : after = w.places := by
  cases r with
  | launch | await | writeFile | removeFile | makeDirectories => exact hr.elim
  | isDirectory | entryNames | turn | isCancelled | report => exact h
  | isFile | currentDirectory | fileContent => exact h.1

theorem ensures_of_lasting {r : Request} {Q : r.Reply → Scene → Prop} (hP : setting.Lasting P)
    (hw : P w) (hG : G r w) (hQ : ∀ reply w₁ after, P w₁ → setting.Serves w₁ after r reply →
      Q reply (w₁.reply after r reply)) :
    (Plan.request r).Ensures setting.answers G Q w := by
  refine Plan.ensures_request.mpr ⟨hG, ?_⟩
  intro reply w' ⟨w₁, after, hsteps, hserves, hw'⟩
  rw [hw']
  exact hQ reply w₁ after (hP.steps hw hsteps) hserves

theorem ensures_ask {r : Request} (hP : setting.Lasting P) (hw : P w) (hr : r.IsQuestion)
    (hG : G r w) : (Plan.request r).Ensures setting.answers G (fun _ w' => P w') w := by
  refine ensures_of_lasting hP hw hG ?_
  intro reply w₁ after hw₁ hserves
  obtain rfl := hserves.places_eq hr
  exact hP.heard w₁ _ hw₁ (.of_question hr reply)

theorem ensures_report {level : Level} {reporter : Reporter} {text : Text}
    (hP : setting.Lasting P) (hw : P w) (hG : G (.report ⟨level, reporter, text⟩) w) :
    (Plan.report level reporter text).Ensures setting.answers G (fun _ w' => P w') w :=
  ensures_ask (r := .report ⟨level, reporter, text⟩) hP hw trivial hG

theorem ensures_absolute {path : Path} (hP : setting.Lasting P) (hw : P w) :
    (Plan.absolute path).Ensures setting.answers l.Allows (fun reply w' => P w' ∧
      ∀ full, reply = .ok full → path.absolute setting.currentDirectory = .ok full) w := by
  unfold Plan.absolute
  split
  · rename_i hself
    refine Plan.ensures_pure.mpr ⟨hw, ?_⟩
    intro full hfull
    rw [← hfull]
    rw [Bool.or_eq_true] at hself
    rcases hself with hempty | habs
    · simp [Path.absolute, hempty]
    · exact Path.absolute_of_isAbsolute habs _ _
  · have hcurrent : Plan.currentDirectory.Ensures setting.answers l.Allows (fun reply w' =>
        P w' ∧ ∀ directory, reply = .ok directory → directory = setting.currentDirectory) w := by
      refine ensures_of_lasting (r := .currentDirectory) hP hw trivial ?_
      intro reply w₁ after hw₁ hserves
      obtain ⟨rfl, hdirectory⟩ := hserves
      exact ⟨hP.heard w₁ _ hw₁ (.of_question (r := .currentDirectory) trivial reply), hdirectory⟩
    refine Plan.Ensures.bind hcurrent ?_
    intro reply w' hreply
    obtain ⟨hw', hdirectory⟩ := hreply
    cases reply with
    | error e =>
        refine Plan.ensures_pure.mpr ⟨hw', ?_⟩
        intro full hfull
        cases hfull
    | ok directory =>
        refine Plan.ensures_pure.mpr ⟨hw', ?_⟩
        intro full hfull
        rw [← hdirectory directory rfl]
        exact hfull

theorem ensures_resolveTool {program : Path} (hP : setting.Lasting P) (hw : P w) :
    (Config.resolveTool program).Ensures setting.answers l.Allows (fun _ w' => P w') w := by
  unfold Config.resolveTool
  split
  · refine Plan.Ensures.bind (ensures_absolute hP hw) ?_
    intro reply w' ⟨hw', _⟩
    cases reply with
    | error e => exact Plan.ensures_pure.mpr hw'
    | ok path => exact Plan.ensures_pure.mpr hw'
  · exact Plan.ensures_pure.mpr hw

theorem ensures_command {c : Config} {program : Path} {arguments : List Text}
    (hP : setting.Lasting P) (hw : P w) :
    (c.command program arguments).Ensures setting.answers l.Allows (fun command w' =>
      P w' ∧ command.arguments = arguments) w := by
  refine Plan.Ensures.bind (ensures_resolveTool hP hw) ?_
  intro program w' hw'
  exact Plan.ensures_pure.mpr ⟨hw', rfl⟩

variable {command : Command} {run : Run}

theorem ensures_start {P' : Run → Scene → Prop} (hP : setting.Lasting P)
    (hP' : ∀ run, setting.Lasting (P' run)) (hw : P w) (hstarts : l.starts command w)
    (hlaunch : ∀ w run, P w → run ∉ w.ended →
      P' run (w.reply w.places (.launch command) (.ok run))) :
    command.start.Ensures setting.answers l.Allows (fun reply w' =>
      (∀ run, reply = .ok run → P' run w') ∧ ∀ e, reply = .error e → P w') w := by
  have hreply : (Plan.launch command).Ensures setting.answers l.Allows (fun reply w' =>
      (∀ run, reply = .ok run → P' run w') ∧ ∀ e, reply = .error e → P w') w := by
    refine ensures_of_lasting (r := .launch command) hP hw hstarts ?_
    intro reply w₁ after hw₁ ⟨hafter, hfresh⟩
    subst hafter
    constructor
    · intro run hrun
      subst hrun
      exact hlaunch w₁ run hw₁ (hfresh run rfl).1
    · intro e he
      subst he
      exact hP.heard w₁ _ hw₁ ⟨rfl, Scene.runs_refused _ command e,
        Scene.ended_reply _ (by simp) _, Scene.cleared_reply _ (by simp) _⟩
  refine Plan.Ensures.bind hreply ?_
  intro reply w₁ ⟨hstarted, hrefused⟩
  match reply with
  | .error .cancelled =>
      exact Plan.ensures_pure.mpr ⟨fun run h => (nomatch h), fun e _ => hrefused _ rfl⟩
  | .error (.impossible reason) =>
      refine Plan.Ensures.bind (ensures_report hP (hrefused _ rfl) ?_) ?_
      · exact Record.not_enters_of_reporter (by simp)
      · intro _ w₂ hw₂
        exact Plan.ensures_pure.mpr ⟨fun run h => (nomatch h), fun e _ => hw₂⟩
  | .ok run =>
      refine Plan.Ensures.bind (ensures_report (hP' run) (hstarted run rfl) ?_) ?_
      · exact Record.not_enters_of_reporter (by simp)
      · intro _ w₂ hw₂
        refine Plan.ensures_pure.mpr ⟨fun other h => ?_, fun e h => (nomatch h)⟩
        exact Except.ok.inj h ▸ hw₂

/-- Whoever waits for a run learns whether it has succeeded. -/
theorem ensures_finish {Q : Scene → Prop} (hP : setting.Lasting P) (hw : P w)
    (hsuccess : ∀ w status output, P w → status.isSuccess →
      (∀ command, (run, command) ∈ w.runs → setting.exit run command w.places) →
      Q (w.reply w.places (.await run) (.exited status output))) :
    (command.finish run).Ensures setting.answers l.Allows (fun reply w' =>
      (∀ text, reply = .ok text → Q w') ∧ ∀ e, reply = .error e → P w') w := by
  refine Plan.Ensures.map (ensures_of_lasting (r := .await run) hP hw trivial ?_)
  intro ending w₁ after hw₁ ⟨hafter, hexit⟩
  subst hafter
  constructor
  · intro text htext
    obtain ⟨status, output, rfl, hstatus⟩ :=
      (Site.outcome_eq_ok_iff command).mp ⟨text, htext⟩
    exact hsuccess w₁ status output hw₁ hstatus fun command hmem =>
      hexit command status output hmem rfl hstatus
  · intro e he
    refine hP.heard w₁ _ hw₁ ⟨rfl, Scene.runs_reply _ (by simp) _, ?_,
      Scene.cleared_reply _ (by simp) _⟩
    refine Scene.ended_failed _ fun status output hending hstatus => ?_
    obtain ⟨text, htext⟩ :=
      (Site.outcome_eq_ok_iff command).mpr ⟨status, output, hending, hstatus⟩
    cases htext.symm.trans he

def RunsTo (setting : Setting) (run : Run) (command : Command) : Places → Places → Prop :=
  Relation.ReflTransGen (setting.StepOf run command)

/-- Nothing has changed since the scene `before`, in which no run was at work, but through the run,
and it has not succeeded yet. -/
structure Alone (setting : Setting) (before : Scene) (run : Run) (command : Command) (w : Scene) :
    Prop where
  runs : w.runs = before.runs ++ [(run, command)]
  fresh : run ∉ w.ended
  ended : w.ended = before.ended
  cleared : w.cleared = before.cleared
  places : setting.RunsTo run command before.places w.places

/-- Nothing has changed since the scene `before` but through the run, and it has succeeded. -/
structure Ran (setting : Setting) (before : Scene) (run : Run) (command : Command) (w : Scene) :
    Prop where
  idle : w.Idle
  runs : w.runs = before.runs ++ [(run, command)]
  cleared : w.cleared = before.cleared
  places : setting.RunsTo run command before.places w.places
  exit : setting.exit run command w.places

variable {before : Scene}

theorem lasting_alone (hidle : before.Idle) :
    setting.Lasting (setting.Alone before run command) := by
  constructor
  · intro w w' h ⟨r, other, ⟨hmem, hnot⟩, hstep, hlog⟩
    rw [h.runs, List.mem_append, List.mem_singleton] at hmem
    rw [h.ended] at hnot
    rcases hmem with hmem | hmem
    · exact absurd ⟨hmem, hnot⟩ (hidle r other)
    · obtain ⟨rfl, rfl⟩ : r = run ∧ other = command := by simpa using hmem
      refine ⟨?_, ?_, ?_, ?_, h.places.tail hstep⟩
      · rw [Scene.runs, hlog, ← Scene.runs, h.runs]
      · rw [Scene.ended, hlog]
        exact h.fresh
      · rw [Scene.ended, hlog, ← Scene.ended, h.ended]
      · rw [Scene.cleared, hlog, ← Scene.cleared, h.cleared]
  · intro w w' h hheard
    refine ⟨hheard.runs.trans h.runs, ?_, hheard.ended.trans h.ended,
      hheard.cleared.trans h.cleared, ?_⟩
    · rw [hheard.ended]
      exact h.fresh
    · rw [hheard.places]
      exact h.places

theorem Alone.ran {status : ExitStatus} {output : Bytes} (hidle : before.Idle)
    (h : setting.Alone before run command w) (hsuccess : status.isSuccess)
    (hexit : setting.exit run command w.places) :
    setting.Ran before run command (w.reply w.places (.await run) (.exited status output)) := by
  have hruns : (w.reply w.places (.await run) (.exited status output)).runs =
      before.runs ++ [(run, command)] :=
    (Scene.runs_reply _ (by simp) _).trans h.runs
  have hended : (w.reply w.places (.await run) (.exited status output)).ended =
      before.ended ++ [run] := by
    rw [Scene.ended_await _ output hsuccess, h.ended]
  refine ⟨?_, hruns, (Scene.cleared_reply _ (by simp) _).trans h.cleared, h.places, hexit⟩
  intro r other ⟨hmem, hnot⟩
  rw [hruns, List.mem_append, List.mem_singleton, Prod.mk.injEq] at hmem
  rw [hended, List.mem_append, List.mem_singleton, not_or] at hnot
  rcases hmem with hmem | ⟨hself, -⟩
  · exact hidle r other ⟨hmem, hnot.1⟩
  · exact hnot.2 hself

theorem Ran.heard {w' : Scene} (h : setting.Ran before run command w) (h' : w.Heard w') :
    setting.Ran before run command w' :=
  ⟨h'.idle h.idle, h'.runs.trans h.runs, h'.cleared.trans h.cleared, h'.places ▸ h.places,
    h'.places ▸ h.exit⟩

theorem alone_of_launch (hfresh : run ∉ w.ended) (hheard : before.Heard w) :
    setting.Alone before run command (w.reply w.places (.launch command) (.ok run)) := by
  have hended : (w.reply w.places (.launch command) (.ok run)).ended = w.ended :=
    Scene.ended_reply _ (by simp) _
  refine ⟨?_, hended ▸ hfresh, hended.trans hheard.ended,
    (Scene.cleared_reply _ (by simp) _).trans hheard.cleared, ?_⟩
  · rw [Scene.runs_launch, hheard.runs]
  · show setting.RunsTo run command before.places w.places
    rw [hheard.places]
    exact .refl

/-- A command that is run while nothing else is at work has succeeded, or is the last run and has
not. -/
theorem ensures_run (hidle : w.Idle) (hstarts : l.starts command w) :
    command.run.Ensures setting.answers l.Allows (fun reply w' =>
      (∀ text, reply = .ok text → ∃ run, setting.Ran w run command w') ∧
      ∀ e, reply = .error e → w.Heard w' ∨ ∃ run, setting.Alone w run command w') w := by
  have hlaunch : ∀ w₁ run, w.Heard w₁ → run ∉ w₁.ended → setting.Alone w run command
      (w₁.reply w₁.places (.launch command) (.ok run)) :=
    fun w₁ run hheard hfresh => alone_of_launch hfresh hheard
  have hlasting : ∀ run, setting.Lasting (setting.Alone w run command) := fun _ =>
    lasting_alone hidle
  have hstart := ensures_start (lasting_heard hidle) hlasting (.refl w) hstarts hlaunch
  refine Plan.Ensures.bind hstart ?_
  intro reply w₁ ⟨hstarted, hrefused⟩
  cases reply with
  | error e =>
      exact Plan.ensures_pure.mpr ⟨fun text h => (nomatch h), fun e' _ => Or.inl (hrefused e rfl)⟩
  | ok run =>
      have hsuccess : ∀ w₂ status output, setting.Alone w run command w₂ → status.isSuccess →
          (∀ command, (run, command) ∈ w₂.runs → setting.exit run command w₂.places) →
          setting.Ran w run command (w₂.reply w₂.places (.await run) (.exited status output)) := by
        intro w₂ status output halone hstatus hexit
        exact halone.ran hidle hstatus (hexit command (by simp [halone.runs]))
      refine (ensures_finish (lasting_alone hidle) (hstarted run rfl) hsuccess).mono ?_
      intro reply w₂ ⟨hran, halone⟩
      exact ⟨fun text h => ⟨run, hran text h⟩, fun e h => Or.inr ⟨run, halone e h⟩⟩

end Setting
end Bytelink
