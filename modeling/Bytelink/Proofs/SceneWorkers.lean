import Bytelink.Proofs.SceneFiles
import Bytelink.Proofs.Turns

/-!
# Preprocessing in a scene

Nothing is asked here of the preprocessor. What matters is that preprocessing, if it succeeds,
leaves no run at work, and names one output for each source in order (`succeeds_preprocessAll`).
With several workers this is an account of the runs: unless a worker has stopped, every run at work
is one that a worker waits for.
-/
namespace Bytelink

def preprocessedName (source : Path) : Text := intermediateName source ['i']

/-- The outputs of a worker that comes to its end without a failure. -/
def Worker.outputs? : Worker → Option (List Text)
  | .ready todo outputs => some (outputs.reverse ++ todo.map preprocessedName)
  | .waiting source _ _ todo outputs =>
      some (outputs.reverse ++ (source :: todo).map preprocessedName)
  | .stopped _ => none

namespace Setting

/-- Unless a worker has stopped, the outputs come to what is expected of each, and some worker waits
for every run at work. -/
def Accounted (expected : List (List Text)) (workers : List Worker) (w : Scene) : Prop :=
  (∃ cause, .stopped cause ∈ workers) ∨
    (workers.map Worker.outputs? = expected.map some ∧
      ∀ run command, w.AtWork run command → ∃ worker ∈ workers, worker.WaitsFor run)

variable {setting : Setting} {l : Licence} {w w' : Scene} {c : Config}
variable {expected : List (List Text)} {workers : List Worker} {worker moved : Worker} {place : Nat}

theorem lasting_accounted : setting.Lasting (Accounted expected workers) := by
  refine lasting_of_log fun w w' h hruns hended _ => h.imp_right fun ⟨houtputs, howned⟩ => ?_
  refine ⟨houtputs, fun run command hwork => howned run command ?_⟩
  rwa [Scene.AtWork, hruns, hended] at hwork

theorem mem_set_of_ne {other : Worker} (h : other ∈ workers)
    (hplace : workers[place]? = some worker) (hne : other ≠ worker) :
    other ∈ workers.set place moved := by
  obtain ⟨i, hi⟩ := List.mem_iff_getElem?.mp h
  refine List.mem_iff_getElem?.mpr ⟨i, ?_⟩
  rw [List.getElem?_set_ne, hi]
  rintro rfl
  exact hne (Option.some.inj (hi.symm.trans hplace))

theorem mem_set_self (hplace : workers[place]? = some worker) : moved ∈ workers.set place moved :=
  List.mem_set (List.getElem?_eq_some_iff.mp hplace).1 moved

/-- A worker that can move may be replaced by one with the same outputs, if nobody is left waiting
for what is at work. -/
theorem Accounted.replace (h : Accounted expected workers w)
    (hplace : workers[place]? = some worker) (hpending : worker.pending? ≠ none)
    (houtputs : moved.outputs? = worker.outputs?)
    (hkept : ∀ run command, w'.AtWork run command → moved.WaitsFor run ∨
      w.AtWork run command ∧ ¬ worker.WaitsFor run) :
    Accounted expected (workers.set place moved) w' := by
  rcases h with ⟨cause, hstopped⟩ | ⟨hexpected, howned⟩
  · refine Or.inl ⟨cause, mem_set_of_ne hstopped hplace ?_⟩
    rintro rfl
    exact hpending rfl
  · refine Or.inr ⟨?_, fun run command hwork => ?_⟩
    · rw [← hexpected, List.map_set, houtputs]
      refine List.ext_getElem? fun i => ?_
      by_cases hi : place = i
      · subst hi
        obtain ⟨hlt, rfl⟩ := List.getElem?_eq_some_iff.mp hplace
        simp [hlt]
      · simp [List.getElem?_set_ne hi]
    · rcases hkept run command hwork with hself | ⟨hother, hnot⟩
      · exact ⟨moved, mem_set_self hplace, hself⟩
      · obtain ⟨other, hmem, hwaits⟩ := howned run command hother
        refine ⟨other, mem_set_of_ne hmem hplace ?_, hwaits⟩
        rintro rfl
        exact hnot hwaits

theorem accounted_of_stopped {cause : Cause} (hplace : workers[place]? = some worker) :
    Accounted expected (workers.set place (.stopped cause)) w :=
  Or.inl ⟨cause, mem_set_self hplace⟩

theorem Accounted.launched {source : Path} {command : Command} {run : Run} {todo : List Path}
    {outputs : List Text} (h : Accounted expected workers w)
    (hplace : workers[place]? = some (.ready (source :: todo) outputs)) :
    Accounted expected (workers.set place (.waiting source command run todo outputs))
      (w.reply w.places (.launch command) (.ok run)) := by
  refine h.replace hplace (by simp [Worker.pending?]) rfl ?_
  intro other otherCommand ⟨hmem, hnot⟩
  have hended : (w.reply w.places (.launch command) (.ok run)).ended = w.ended :=
    Scene.ended_reply _ (by simp) _
  rw [hended] at hnot
  rw [Scene.runs_launch, List.mem_append, List.mem_singleton, Prod.mk.injEq] at hmem
  rcases hmem with hmem | ⟨rfl, rfl⟩
  · refine Or.inr ⟨⟨hmem, hnot⟩, ?_⟩
    rintro ⟨_, _, _, _, hworker⟩
    cases hworker
  · exact Or.inl ⟨source, otherCommand, todo, outputs, rfl⟩

theorem Accounted.collected {source : Path} {command : Command} {run : Run} {todo : List Path}
    {outputs : List Text} {status : ExitStatus} {output : Bytes} (h : Accounted expected workers w)
    (hplace : workers[place]? = some (.waiting source command run todo outputs))
    (hstatus : status.isSuccess) :
    Accounted expected (workers.set place (.ready todo (preprocessedName source :: outputs)))
      (w.reply w.places (.await run) (.exited status output)) := by
  refine h.replace hplace (by simp [Worker.pending?]) (by simp [Worker.outputs?]) ?_
  intro other otherCommand ⟨hmem, hnot⟩
  have hruns : (w.reply w.places (.await run) (.exited status output)).runs = w.runs :=
    Scene.runs_reply _ (by simp) _
  rw [hruns] at hmem
  rw [Scene.ended_await _ output hstatus, List.mem_append, List.mem_singleton, not_or] at hnot
  refine Or.inr ⟨⟨hmem, hnot.1⟩, ?_⟩
  rintro ⟨_, _, _, _, hworker⟩
  cases hworker
  exact hnot.2 rfl

theorem ensures_preprocessCommand {P : Scene → Prop} {source : Path} (hP : setting.Lasting P)
    (hw : P w) : (c.preprocessCommand source).Ensures setting.answers l.Allows (fun command w' =>
      P w' ∧ command.HasFlag ['-', 'E']) w := by
  refine (ensures_command hP hw).mono fun command w' h => ⟨h.1, ?_⟩
  exact Command.hasFlag_of_arguments h.2 rfl

theorem ensures_move_ready {source : Path} {todo : List Path} {outputs : List Text}
    (hl : l.Lets ['-', 'E']) (h : Accounted expected workers w)
    (hplace : workers[place]? = some (.ready (source :: todo) outputs)) :
    ((Worker.ready (source :: todo) outputs).move c).Ensures setting.answers l.Allows
      (fun moved w' => Accounted expected (workers.set place moved) w' ∧
        moved.movesLeft < (Worker.ready (source :: todo) outputs).movesLeft) w := by
  have hreport : ∀ text, ¬ (⟨.info, .pipeline, text⟩ : Record).Enters := fun _ =>
    Record.not_enters_of_level (by simp)
  refine Plan.Ensures.bind (ensures_report lasting_accounted h (hreport _)) ?_
  intro _ w₁ h₁
  refine Plan.Ensures.bind (ensures_preprocessCommand lasting_accounted h₁) ?_
  intro command w₂ ⟨h₂, hflag⟩
  have hlaunch : ∀ w₃ run, Accounted expected workers w₃ → run ∉ w₃.ended →
      Accounted expected (workers.set place (.waiting source command run todo outputs))
        (w₃.reply w₃.places (.launch command) (.ok run)) :=
    fun w₃ run h₃ _ => h₃.launched hplace
  have hlasting : setting.Lasting (Accounted expected workers) := lasting_accounted
  have hstart := ensures_start hlasting (fun run => lasting_accounted) h₂
    (hl command w₂ hflag) hlaunch
  refine Plan.Ensures.bind hstart ?_
  intro reply w₃ ⟨hstarted, _⟩
  cases reply with
  | error e =>
      exact Plan.ensures_pure.mpr ⟨accounted_of_stopped hplace, by simp [Worker.movesLeft]⟩
  | ok run =>
      refine Plan.ensures_pure.mpr ⟨hstarted run rfl, ?_⟩
      simp only [Worker.movesLeft, List.length_cons]
      omega

theorem ensures_move_waiting {source : Path} {command : Command} {run : Run} {todo : List Path}
    {outputs : List Text} (h : Accounted expected workers w)
    (hplace : workers[place]? = some (.waiting source command run todo outputs)) :
    ((Worker.waiting source command run todo outputs).move c).Ensures setting.answers l.Allows
      (fun moved w' => Accounted expected (workers.set place moved) w' ∧
        moved.movesLeft < (Worker.waiting source command run todo outputs).movesLeft) w := by
  refine Plan.Ensures.bind (ensures_finish lasting_accounted h
    fun w₁ status output h₁ hstatus _ => h₁.collected hplace hstatus) ?_
  intro reply w₁ ⟨hcollected, _⟩
  cases reply with
  | error e =>
      exact Plan.ensures_pure.mpr ⟨accounted_of_stopped hplace, by simp [Worker.movesLeft]⟩
  | ok text => exact Plan.ensures_pure.mpr ⟨hcollected text rfl, by simp [Worker.movesLeft]⟩

theorem ensures_move (hl : l.Lets ['-', 'E']) (h : Accounted expected workers w)
    (hplace : workers[place]? = some worker) (hpending : worker.pending? ≠ none) :
    (worker.move c).Ensures setting.answers l.Allows (fun moved w' =>
      Accounted expected (workers.set place moved) w' ∧ moved.movesLeft < worker.movesLeft) w := by
  match worker with
  | .stopped _ | .ready [] _ => exact absurd rfl hpending
  | .ready (source :: todo) outputs => exact ensures_move_ready hl h hplace
  | .waiting source command run todo outputs => exact ensures_move_waiting h hplace

theorem outputs_of_gather {outputs : List Text}
    (hend : ∀ worker ∈ workers, worker.pending? = none)
    (hgather : Preprocess.gather workers = .ok outputs) :
    ∃ parts : List (List Text), workers.map Worker.outputs? = parts.map some ∧
      outputs = parts.flatten := by
  induction workers generalizing outputs with
  | nil => exact ⟨[], rfl, (Except.ok.inj hgather).symm⟩
  | cons first rest ih =>
      have hrest : ∀ worker ∈ rest, worker.pending? = none := fun worker h =>
        hend worker (List.mem_cons_of_mem first h)
      simp only [Preprocess.gather, bind, Except.bind] at hgather
      have hfirst := hend first List.mem_cons_self
      cases first with
      | stopped cause => cases hgather
      | waiting source command run todo made => cases hfirst
      | ready todo made =>
          cases todo with
          | cons source todo => cases hfirst
          | nil =>
              simp only [Worker.result] at hgather
              cases hothers : Preprocess.gather rest with
              | error cause => simp [hothers] at hgather
              | ok others =>
                  obtain ⟨parts, hparts, rfl⟩ := ih hrest hothers
                  rw [hothers] at hgather
                  refine ⟨made.reverse :: parts, ?_, (Except.ok.inj hgather).symm⟩
                  simp [Worker.outputs?, hparts]

/-- When no worker can move any more and none has failed, no run is at work. -/
theorem Accounted.finished {outputs : List Text} (h : Accounted expected workers w)
    (hend : ∀ worker ∈ workers, worker.pending? = none)
    (hgather : Preprocess.gather workers = .ok outputs) :
    w.Idle ∧ outputs = expected.flatten := by
  rcases h with ⟨cause, hstopped⟩ | ⟨hexpected, howned⟩
  · obtain ⟨part, hpart⟩ := Preprocess.result_of_gather hgather _ hstopped
    cases hpart
  · constructor
    · intro run command hwork
      obtain ⟨worker, hmem, _, _, _, _, rfl⟩ := howned run command hwork
      cases hend _ hmem
    · obtain ⟨parts, hparts, rfl⟩ := outputs_of_gather hend hgather
      rw [(List.map_inj_right fun _ _ => Option.some.inj).mp (hparts.symm.trans hexpected)]

theorem not_enters_workers (count : Text) :
    ¬ (⟨.debug, .pipeline, "preprocessing on " ++ count ++ " workers"⟩ : Record).Enters := by
  have hstart : ("preprocessing on " : Text) <+: "preprocessing on " ++ count ++ " workers" :=
    ⟨count ++ " workers", by simp⟩
  refine Record.not_enters_of_start hstart ?_
  intro previous stage
  cases previous <;> cases stage <;> decide

theorem succeeds_one {source : Path} (hl : l.Lets ['-', 'E']) (hidle : w.Idle) :
    Succeeds setting.answers l.Allows (Preprocess.one c source)
      (fun output w' => w'.Idle ∧ output = preprocessedName source) w := by
  have hreport : ∀ text, ¬ (⟨.info, .pipeline, text⟩ : Record).Enters := fun _ =>
    Record.not_enters_of_level (by simp)
  refine Succeeds.bind
    (succeeds_lift.mpr (ensures_report (lasting_heard hidle) (.refl w) (hreport _))) ?_
  intro _ w₁ hheard
  refine Succeeds.bind
    (succeeds_lift.mpr (ensures_preprocessCommand (lasting_heard hidle) hheard)) ?_
  intro command w₂ ⟨hheard₂, hflag⟩
  refine Succeeds.bind
    (succeeds_lift.mpr (ensures_run (hheard₂.idle hidle) (hl command w₂ hflag))) ?_
  intro reply w₃ ⟨hran, _⟩
  cases reply with
  | error e => exact succeeds_throw
  | ok text =>
      obtain ⟨run, hran⟩ := hran text rfl
      exact succeeds_pure.mpr ⟨hran.idle, rfl⟩

theorem succeeds_oneByOne {sources : List Path} (hl : l.Lets ['-', 'E']) (hidle : w.Idle) :
    Succeeds setting.answers l.Allows (sources.mapM (Preprocess.one c))
      (fun outputs w' => w'.Idle ∧ outputs = sources.map preprocessedName) w := by
  induction sources generalizing w with
  | nil =>
      rw [List.mapM_nil]
      exact succeeds_pure.mpr ⟨hidle, rfl⟩
  | cons source rest ih =>
      rw [List.mapM_cons]
      refine Succeeds.bind (succeeds_one hl hidle) ?_
      intro output w₁ ⟨hidle₁, houtput⟩
      refine Succeeds.bind (ih hidle₁) ?_
      intro outputs w₂ ⟨hidle₂, houtputs⟩
      exact succeeds_pure.mpr ⟨hidle₂, by rw [houtput, houtputs, List.map_cons]⟩

theorem accounted_recruits {chunks : List (List Path)} (hidle : w.Idle) :
    Accounted (chunks.map (List.map preprocessedName))
      (chunks.map fun chunk => Worker.ready chunk []) w := by
  refine Or.inr ⟨?_, fun run command hwork => absurd hwork (hidle run command)⟩
  simp [Worker.outputs?, Function.comp_def]

/-- All preprocessing is over when it has succeeded, and the outputs come in the order of the
sources. -/
theorem succeeds_preprocessAll {sources : List Path} (hl : l.Lets ['-', 'E']) (hidle : w.Idle) :
    Succeeds setting.answers l.Allows (Preprocess.all c sources)
      (fun outputs w' => w'.Idle ∧ outputs = sources.map preprocessedName) w := by
  unfold Preprocess.all
  dsimp only
  split
  · exact succeeds_oneByOne hl hidle
  · generalize (sources.length + _ - 1) / _ = size
    refine Succeeds.bind (succeeds_lift.mpr
      (ensures_report (lasting_heard hidle) (.refl w) (not_enters_workers _))) ?_
    intro _ w₁ hheard
    have haccounted : Accounted ((Preprocess.chunks size sources).map (List.map preprocessedName))
        ((Preprocess.chunks size sources).map fun chunk => Worker.ready chunk []) w₁ :=
      accounted_recruits (hheard.idle hidle)
    have hrun := Preprocess.ensures_runWorkers (T := setting.answers) (G := l.Allows) (c := c)
      (fun _ waits _ h => ensures_ask (r := .turn waits) lasting_accounted h trivial trivial)
      (fun _ _ _ _ h => ensures_move hl h) haccounted (Nat.le_refl _)
    refine Succeeds.bind (succeeds_lift.mpr hrun) ?_
    intro finished w₂ ⟨haccounted, hend⟩
    refine Plan.ensures_pure.mpr fun outputs hgather => ?_
    obtain ⟨hidle₂, houtputs⟩ := haccounted.finished hend hgather
    refine ⟨hidle₂, ?_⟩
    rw [houtputs, ← Preprocess.chunks_map, Preprocess.flatten_chunks]

end Setting
end Bytelink
