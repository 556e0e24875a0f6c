import Bytelink.Proofs.Building
import Bytelink.Proofs.Staging

/-!
# Efforts of a build

The efforts among the deeds of a build are the starts of tools and the writes of files. They are
made in the order of the schedule, and each is made only after all earlier ones have succeeded: a
tool that was started has been waited for at once and has exited with success, and a write has been
confirmed. `build_fails_fast` says so of every build with one job, together with the step at which
it fails.
-/
namespace Bytelink

def Exchange.effort? : Exchange → Option Request
  | ⟨.launch command, _⟩ => some (.launch command)
  | ⟨.writeFile path content, _⟩ => some (.writeFile path content)
  | _ => none

def Exchange.attempted? : Exchange → Option Command
  | ⟨.launch command, _⟩ => some command
  | _ => none

/-- Every effort in the log has succeeded. -/
structure Prospers (log : List Exchange) : Prop where
  runs : ∀ before command reply after, log = before ++ ⟨.launch command, reply⟩ :: after →
    ∃ run ending output rest, reply = .ok run ∧ after = ⟨.await run, ending⟩ :: rest ∧
      command.outcome ending = .ok output
  writes : ∀ path content reply, ⟨.writeFile path content, reply⟩ ∈ log → reply = .ok ()

/-- An effort is made only when all earlier ones have succeeded. -/
def Orderly (log : List Exchange) : Prop :=
  ∀ before x after, log = before ++ x :: after → x.effort?.isSome → Prospers before

def Quiet (log : List Exchange) : Prop := ∀ x ∈ log, x.effort? = none

section

variable {log more : List Exchange}

theorem Prospers.append (h : Prospers log) (hmore : Prospers more) : Prospers (log ++ more) := by
  constructor
  · intro before command reply after heq
    rcases append_eq_append_cons heq with ⟨rest, hlog, rfl⟩ | ⟨middle, rfl, hrest⟩
    · obtain ⟨run, ending, output, rest, rfl, rfl, houtput⟩ := h.runs _ _ _ _ hlog
      exact ⟨run, ending, output, rest ++ more, rfl, rfl, houtput⟩
    · exact hmore.runs _ _ _ _ hrest
  · intro path content reply hmem
    rcases List.mem_append.mp hmem with hmem | hmem
    · exact h.writes path content reply hmem
    · exact hmore.writes path content reply hmem

theorem Quiet.prospers (h : Quiet log) : Prospers log := by
  constructor
  · rintro before command reply after rfl
    cases h ⟨.launch command, reply⟩ (by simp)
  · intro path content reply hmem
    cases h _ hmem

theorem Quiet.orderly (h : Quiet log) : Orderly log := by
  rintro before x after rfl hx
  rw [h x (by simp)] at hx
  cases hx

theorem Quiet.filterMap (h : Quiet log) : log.filterMap Exchange.effort? = [] :=
  List.filterMap_eq_nil_iff.mpr h

theorem Quiet.attempted (h : Quiet log) : log.filterMap Exchange.attempted? = [] := by
  rw [List.filterMap_eq_nil_iff]
  intro x hx
  have hquiet := h x hx
  unfold Exchange.attempted?
  split
  · cases hquiet
  · rfl

theorem Prospers.orderly_append (h : Prospers log) (hlog : Orderly log) (hmore : Orderly more) :
    Orderly (log ++ more) := by
  intro before x after heq hx
  rcases append_eq_append_cons heq with ⟨rest, hsplit, -⟩ | ⟨middle, rfl, hsplit⟩
  · exact hlog _ _ _ hsplit hx
  · exact h.append (hmore _ _ _ hsplit hx)

end

namespace Step

def isRun : Step → Bool
  | tool _ _ => true
  | _ => false

def isEffort : Step → Bool
  | tool _ _ => true
  | write _ _ => true
  | _ => false

def Asks (c : Config) : Step → Request → Prop
  | tool program arguments, .launch command => ∃ looked, Resolved c program arguments looked command
  | write path content, request => request = .writeFile path content
  | _, _ => False

end Step

section

variable {c : Config} {step : Step} {log more looked : List Exchange} {outcome : Except Cause Unit}

theorem Located.quiet {path : Path} {found : Except SystemError Path}
    (h : Located path log found) : Quiet log := by
  unfold Located at h
  split at h
  · rw [h.1]
    exact fun x hx => (nomatch hx)
  · obtain ⟨directory, rfl, -⟩ := h
    simp [Quiet, Exchange.effort?]

theorem Resolved.quiet {program : Path} {arguments : List Text} {command : Command}
    (h : Resolved c program arguments log command) : Quiet log := by
  obtain ⟨resolved, -, h⟩ := h
  split at h
  · obtain ⟨found, hfound, -⟩ := h
    exact hfound.quiet
  · rw [h.1]
    exact fun x hx => (nomatch hx)

theorem Step.Goes.quiet (h : step.Goes c log outcome) (hstep : step.isEffort = false) :
    Quiet log := by
  cases step with
  | tool | write => cases hstep
  | checkDirectory | makeDirectories | clear | inspect | read =>
      obtain ⟨reply, rfl, -⟩ := h
      simp [Quiet, Exchange.effort?]
  | loadTemplate path? template =>
      cases path? with
      | none =>
          rw [h.1]
          exact fun x hx => (nomatch hx)
      | some path =>
          obtain ⟨reply, rfl, -⟩ := h
          simp [Quiet, Exchange.effort?]
  | locate =>
      obtain ⟨reply, hlocated, -⟩ := h
      exact hlocated.quiet
  | discover =>
      rcases h with ⟨e, rfl, -⟩ | ⟨names, looks, -, rfl, -⟩
      · simp [Quiet, Exchange.effort?]
      · intro x hx
        rcases List.mem_cons.mp hx with rfl | hx
        · rfl
        · obtain ⟨look, -, rfl⟩ := List.mem_map.mp hx
          rfl
  | demand | collect =>
      rw [h.1]
      exact fun x hx => (nomatch hx)
  | enter =>
      change Entered c.cancel? log outcome at h
      cases htoken : c.cancel? with
      | none =>
          rw [htoken] at h
          rw [h.1]
          exact fun x hx => (nomatch hx)
      | some token =>
          rw [htoken] at h
          obtain ⟨answer, rfl, -⟩ := h
          simp [Quiet, Exchange.effort?]
  | take =>
      obtain ⟨taken, ⟨reply, e, -, rfl, -⟩ | ⟨reply, text, removal, -, rfl, -⟩, -⟩ := h
      · simp [Quiet, Exchange.effort?]
      · simp [Quiet, Exchange.effort?]

theorem Ran.prospers {command : Command} (h : Ran command log (.ok ())) : Prospers log := by
  rcases h with ⟨e, -, hok⟩ | ⟨run, ending, rfl, hok⟩
  · cases hok
  · obtain ⟨output, houtput⟩ : ∃ output, command.outcome ending = .ok output := by
      cases houtcome : command.outcome ending with
      | ok output => exact ⟨output, rfl⟩
      | error e =>
          rw [houtcome] at hok
          cases hok
    constructor
    · intro before other reply after heq
      rcases before with _ | ⟨first, _ | ⟨second, before⟩⟩
      · obtain ⟨hfirst, rfl⟩ := List.cons.inj heq
        cases hfirst
        exact ⟨run, ending, output, [], rfl, rfl, houtput⟩
      · cases (List.cons.inj (List.cons.inj heq).2).1
      · simp at heq
    · intro path content reply hmem
      rcases List.mem_cons.mp hmem with heq | hmem
      · cases heq
      · cases List.mem_singleton.mp hmem

theorem Ran.orderly {command : Command} (h : Ran command log outcome) : Orderly log := by
  have hnil : Prospers [] := Quiet.prospers fun x hx => (nomatch hx)
  rcases h with ⟨e, rfl, -⟩ | ⟨run, ending, rfl, -⟩
  · intro before x after heq hx
    rcases before with _ | ⟨first, before⟩
    · exact hnil
    · simp at heq
  · intro before x after heq hx
    rcases before with _ | ⟨first, _ | ⟨second, before⟩⟩
    · exact hnil
    · -- The wait for a tool is no effort.
      obtain ⟨rfl, -⟩ := List.cons.inj (List.cons.inj heq).2
      cases hx
    · simp at heq

theorem Step.Goes.prospers (h : step.Goes c log (.ok ())) : Prospers log := by
  cases step with
  | tool program arguments =>
      obtain ⟨looked, command, ran, rfl, hresolved, hran⟩ := h
      exact hresolved.quiet.prospers.append hran.prospers
  | write path content =>
      obtain ⟨reply, rfl, hok⟩ := h
      constructor
      · intro before command reply after heq
        rcases before with _ | ⟨first, before⟩
        · cases (List.cons.inj heq).1
        · simp at heq
      · intro other data answer hmem
        cases List.mem_singleton.mp hmem
        cases reply with
        | ok => rfl
        | error e => cases hok
  | _ => exact (Step.Goes.quiet h rfl).prospers

theorem Step.Goes.orderly (h : step.Goes c log outcome) : Orderly log := by
  cases step with
  | tool program arguments =>
      obtain ⟨looked, command, ran, rfl, hresolved, hran⟩ := h
      exact hresolved.quiet.prospers.orderly_append hresolved.quiet.orderly hran.orderly
  | write path content =>
      obtain ⟨reply, rfl, -⟩ := h
      intro before x after heq hx
      rcases before with _ | ⟨first, before⟩
      · exact Quiet.prospers fun x hx => (nomatch hx)
      · simp at heq
  | _ => exact (Step.Goes.quiet h rfl).orderly

theorem Step.Goes.efforts (h : step.Goes c log outcome) :
    List.Forall₂ (Step.Asks c) ([step].filter Step.isEffort) (log.filterMap Exchange.effort?) := by
  cases step with
  | tool program arguments =>
      obtain ⟨looked, command, ran, rfl, hresolved, hran⟩ := h
      have hran : ran.filterMap Exchange.effort? = [.launch command] := by
        rcases hran with ⟨e, rfl, -⟩ | ⟨run, ending, rfl, -⟩ <;> rfl
      rw [List.filterMap_append, hresolved.quiet.filterMap, hran]
      exact .cons ⟨looked, hresolved⟩ .nil
  | write path content =>
      obtain ⟨reply, rfl, -⟩ := h
      exact .cons rfl .nil
  | _ =>
      rw [(Step.Goes.quiet h rfl).filterMap]
      exact .nil

theorem Step.Goes.attempts (h : step.Goes c log outcome) :
    List.Forall₂ (fun step command => step.Asks c (.launch command)) ([step].filter Step.isRun)
      (log.filterMap Exchange.attempted?) := by
  cases step with
  | tool program arguments =>
      obtain ⟨looked, command, ran, rfl, hresolved, hran⟩ := h
      have hran : ran.filterMap Exchange.attempted? = [command] := by
        rcases hran with ⟨e, rfl, -⟩ | ⟨run, ending, rfl, -⟩ <;> rfl
      rw [List.filterMap_append, hresolved.quiet.attempted, hran]
      exact .cons ⟨looked, hresolved⟩ .nil
  | write path content =>
      obtain ⟨reply, rfl, -⟩ := h
      exact .nil
  | _ =>
      rw [(Step.Goes.quiet h rfl).attempted]
      exact .nil

end

/-- The tasks are tried one after another. All but the last succeed. -/
inductive Tried (c : Config) : List StageTask → List Exchange → Prop
  | nil : Tried c [] []
  | last {stage : Stage} {step : Step} {log : List Exchange} {outcome : Except Cause Unit} :
      step.Goes c log outcome → Tried c [(stage, step)] log
  | cons {stage : Stage} {step : Step} {log more : List Exchange} {tasks : List StageTask} :
      step.Goes c log (.ok ()) → Tried c tasks more →
      Tried c ((stage, step) :: tasks) (log ++ more)

section

variable {c : Config} {tasks others : List StageTask} {log more : List Exchange} {e : BuildError}

theorem Succeeded.append_tried (h : Succeeded c tasks log) (hmore : Tried c others more) :
    Tried c (tasks ++ others) (log ++ more) := by
  induction h with
  | nil => exact hmore
  | cons hgoes _ ih =>
      rw [List.append_assoc]
      exact .cons hgoes ih

theorem Succeeded.tried (h : Succeeded c tasks log) : Tried c tasks log := by
  have htried := h.append_tried .nil
  rwa [List.append_nil, List.append_nil] at htried

theorem FailsAt.exists_tried (h : FailsAt c tasks log e) :
    ∃ tried, tried <+: tasks ∧ Tried c tried log := by
  obtain ⟨earlier, step, later, before, last, rfl, hbefore, hlast, rfl⟩ := h
  refine ⟨earlier ++ [(e.stage, step)], ?_, hbefore.append_tried (.last hlast)⟩
  exact ⟨later, by simp⟩

theorem Tried.orderly (h : Tried c tasks log) : Orderly log := by
  induction h with
  | nil => exact Quiet.orderly fun x hx => (nomatch hx)
  | last hgoes => exact hgoes.orderly
  | cons hgoes _ ih => exact hgoes.prospers.orderly_append hgoes.orderly ih

/-- What each step does once, the tasks that are tried do in their order. -/
theorem Tried.forall₂ {γ : Type} {R : Step → γ → Prop} {keep : Step → Bool}
    {look : Exchange → Option γ}
    (hstep : ∀ step log outcome, step.Goes c log outcome →
      List.Forall₂ R ([step].filter keep) (log.filterMap look))
    (h : Tried c tasks log) :
    List.Forall₂ R ((tasks.map (·.2)).filter keep) (log.filterMap look) := by
  induction h with
  | nil => exact .nil
  | last hgoes => exact hstep _ _ _ hgoes
  | @cons stage step log more tasks hgoes _ ih =>
      have hsplit : ((((stage, step) :: tasks).map (·.2)).filter keep) =
          [step].filter keep ++ (tasks.map (·.2)).filter keep := by
        rw [← List.filter_append]
        rfl
      rw [hsplit, List.filterMap_append]
      exact List.rel_append (hstep _ _ _ hgoes) ih

/-- Where more is tried, what comes before has succeeded. -/
theorem Tried.mem (h : Tried c (tasks ++ others) log) (hothers : others ≠ []) {task : StageTask}
    (hmem : task ∈ tasks) : ∃ log, task.2.Goes c log (.ok ()) := by
  induction tasks generalizing log with
  | nil => cases hmem
  | cons first tasks ih =>
      rw [List.cons_append] at h
      generalize hrest : tasks ++ others = rest at h
      cases h with
      | last hgoes => exact absurd (List.append_eq_nil_iff.mp hrest).2 hothers
      | cons hgoes hmore =>
          subst hrest
          rcases List.mem_cons.mp hmem with rfl | hmem
          · exact ⟨_, hgoes⟩
          · exact ih hmore hmem

end

namespace Course

variable (c : Config) (course : Course)

def unitRuns : List Step :=
  course.sources.map (preprocessing c) ++ course.sources.map (compilation c)

/-- The tool runs of a build. -/
def runs : List Step := course.unitRuns c ++ [course.assembly c]

/-- The tool runs of a build and the files it writes. -/
def efforts : List Step :=
  course.unitRuns c ++ [.write (segmentFile c) course.segment.toBytes,
    .write course.linked (course.program c), course.assembly c]

/-- After these deeds the course writes this file. All listings have been read. The efforts so far
are the runs on all sources, and also the write of the segment if it is the linked program that is
written. -/
def Writes (before : List Exchange) (path : Path) (content : Bytes) : Prop :=
  Segment.ofFragments .standard course.fragments = .ok course.segment ∧
  ((path = segmentFile c ∧ content = course.segment.toBytes ∧
      List.Forall₂ (Step.Asks c) (course.unitRuns c) (before.filterMap Exchange.effort?)) ∨
    (path = course.linked ∧ content = course.program c ∧
      List.Forall₂ (Step.Asks c)
        (course.unitRuns c ++ [.write (segmentFile c) course.segment.toBytes])
        (before.filterMap Exchange.effort?)))

theorem filter_isEffort_of_runs {sources : List Path} {f : Path → Step}
    (hf : ∀ source, (f source).isEffort = true) :
    (sources.map f).filter Step.isEffort = sources.map f := by
  rw [List.filter_eq_self]
  intro step hstep
  obtain ⟨source, -, rfl⟩ := List.mem_map.mp hstep
  exact hf source

theorem filter_translations : (course.units.flatMap (translation c)).filter Step.isEffort =
    course.sources.map (compilation c) := by
  have hone : ∀ t, (translation c t).filter Step.isEffort = [compilation c t.source] := fun t => rfl
  rw [List.filter_flatMap, funext hone, sources, List.map_map]
  exact List.flatMap_pure_eq_map _ _

theorem filter_isEffort : ((course.schedule c).map (·.2)).filter Step.isEffort =
    course.efforts c := by
  have hsteps : (course.schedule c).map (·.2) =
      preparations c course.template course.outDir course.sources ++
      (.enter :: course.sources.map (preprocessing c)) ++
      (.enter :: course.units.flatMap (translation c)) ++
      [.enter, .collect course.fragments course.segment,
        .write (segmentFile c) course.segment.toBytes] ++
      [.enter, .locate (c.sourceDir.join Build.linkedFile) course.linked,
        .write course.linked (course.program c)] ++
      [.enter, course.assembly c, .inspect (course.classFile c)] := by
    have hsnd : ∀ (stage : Stage) (steps : List Step),
        (steps.map fun step => (stage, step)).map (·.2) = steps := by
      intro stage steps
      rw [List.map_map]
      exact List.map_id _
    simp only [schedule, List.map_append, hsnd]
  have hentered : ∀ steps : List Step,
      (Step.enter :: steps).filter Step.isEffort = steps.filter Step.isEffort := fun steps => rfl
  rw [hsteps]
  simp only [List.filter_append, hentered]
  rw [filter_isEffort_of_runs (fun _ => rfl), filter_translations]
  simp only [efforts, unitRuns, List.append_assoc]
  rfl

theorem filter_isRun : ((course.schedule c).map (·.2)).filter Step.isRun = course.runs c := by
  have hruns : ∀ step : Step, (step.isRun && step.isEffort) = step.isRun := by
    intro step
    cases step <;> rfl
  have hall : (course.unitRuns c).filter Step.isRun = course.unitRuns c := by
    rw [List.filter_eq_self]
    intro step hstep
    rcases List.mem_append.mp hstep with hstep | hstep
    · obtain ⟨source, -, rfl⟩ := List.mem_map.mp hstep
      rfl
    · obtain ⟨source, -, rfl⟩ := List.mem_map.mp hstep
      rfl
  have htwice : ((course.schedule c).map (·.2)).filter Step.isRun =
      (((course.schedule c).map (·.2)).filter Step.isEffort).filter Step.isRun := by
    rw [List.filter_filter, funext hruns]
  rw [htwice, filter_isEffort, efforts, List.filter_append, hall]
  rfl

end Course

section

variable {c : Config} {course : Course} {tried : List StageTask} {deeds : List Exchange}

/-- A write comes after all runs on the sources. It is that of the segment, or after it that of the
linked program. -/
theorem Course.efforts_split {first rest : List Step} {path : Path} {content : Bytes}
    (h : course.efforts c = first ++ .write path content :: rest) :
    (first = course.unitRuns c ∧ path = segmentFile c ∧ content = course.segment.toBytes) ∨
    (first = course.unitRuns c ++ [.write (segmentFile c) course.segment.toBytes] ∧
      path = course.linked ∧ content = course.program c) := by
  rcases append_eq_append_cons h with ⟨more, hruns, -⟩ | ⟨middle, rfl, hsplit⟩
  · have hmem : Step.write path content ∈ course.unitRuns c := by simp [hruns]
    simp [unitRuns, preprocessing, compilation] at hmem
  · rcases middle with _ | ⟨a, _ | ⟨b, _ | ⟨d, middle⟩⟩⟩
    · simp only [List.nil_append, List.cons.injEq, Step.write.injEq] at hsplit
      exact Or.inl ⟨List.append_nil _, hsplit.1.1.symm, hsplit.1.2.symm⟩
    · simp only [List.cons_append, List.nil_append, List.cons.injEq, Step.write.injEq] at hsplit
      obtain ⟨rfl, ⟨rfl, rfl⟩, -⟩ := hsplit
      exact Or.inr ⟨rfl, rfl, rfl⟩
    · simp [assembly] at hsplit
    · simp at hsplit

/-- Before a file is written, all listings have been read. -/
theorem Tried.collected (h : Tried c tried deeds) (hinitial : tried <+: course.schedule c)
    {path : Path} {content : Bytes}
    (hwrite : Step.write path content ∈ tried.map (·.2)) :
    Segment.ofFragments .standard course.fragments = .ok course.segment := by
  obtain ⟨front, back, hschedule, hquiet⟩ : ∃ front back, course.schedule c =
      (front ++ [(.aggregating, .collect course.fragments course.segment)]) ++ back ∧
      ∀ path content, Step.write path content ∉ front.map (·.2) := by
    refine ⟨(Course.preparations c course.template course.outDir course.sources).map (.idle, ·) ++
      (.enter :: course.sources.map (Course.preprocessing c)).map (.preprocessing, ·) ++
      (.enter :: course.units.flatMap (Course.translation c)).map (.compiling, ·) ++
      [(.aggregating, .enter)],
      (.aggregating, .write (Course.segmentFile c) course.segment.toBytes) ::
      ([.enter, .locate (c.sourceDir.join Build.linkedFile) course.linked,
        .write course.linked (course.program c)].map (.linking, ·) ++
      [.enter, course.assembly c, .inspect (course.classFile c)].map (.assembling, ·)), ?_, ?_⟩
    · simp only [Course.schedule, List.append_assoc, List.map_cons, List.map_nil,
        List.cons_append, List.nil_append]
    · simp [Course.preparations, Course.preprocessing, Course.translation, Course.compilation]
  have hfront : (front ++ [(.aggregating, .collect course.fragments course.segment)]) <+:
      course.schedule c := ⟨back, hschedule.symm⟩
  rcases List.prefix_or_prefix_of_prefix hinitial hfront with hshort | ⟨others, rfl⟩
  · -- So far no file is written.
    have hmem := (hshort.map (·.2)).subset hwrite
    rw [List.map_append, List.mem_append] at hmem
    rcases hmem with hmem | hmem
    · exact absurd hmem (hquiet path content)
    · simp at hmem
  · have hothers : others ≠ [] := by
      rintro rfl
      rw [List.append_nil, List.map_append, List.mem_append] at hwrite
      rcases hwrite with hmem | hmem
      · exact absurd hmem (hquiet path content)
      · simp at hmem
    obtain ⟨log, -, hfound⟩ := h.mem hothers (List.mem_append_right _ (List.mem_singleton_self _))
    cases hsegment : Segment.ofFragments .standard course.fragments with
    | ok segment =>
        rw [hsegment] at hfound
        rw [hfound.1]
    | error e =>
        rw [hsegment] at hfound
        cases hfound

/-- What stands before a write are the efforts that the course has before it. -/
theorem Tried.writes (h : Tried c tried deeds) (hinitial : tried <+: course.schedule c)
    {before after : List Exchange} {path : Path} {content : Bytes}
    {reply : (Request.writeFile path content).Reply}
    (hdeeds : deeds = before ++ ⟨.writeFile path content, reply⟩ :: after) :
    course.Writes c before path content := by
  have hmade : List.Forall₂ (Step.Asks c) ((tried.map (·.2)).filter Step.isEffort)
      (deeds.filterMap Exchange.effort?) := h.forall₂ fun _ _ _ hgoes => hgoes.efforts
  have hefforts : (tried.map (·.2)).filter Step.isEffort <+: course.efforts c := by
    rw [← course.filter_isEffort c]
    exact (hinitial.map _).filter _
  have hsplit : deeds.filterMap Exchange.effort? = before.filterMap Exchange.effort? ++
      .writeFile path content :: after.filterMap Exchange.effort? := by
    rw [hdeeds, List.filterMap_append]
    rfl
  rw [hsplit] at hmade
  have hbefore := List.forall₂_take_append _ _ _ hmade
  have hrest := List.forall₂_drop_append _ _ _ hmade
  generalize hfirst : ((tried.map (·.2)).filter Step.isEffort).take
    (before.filterMap Exchange.effort?).length = first at hbefore
  generalize hlater : ((tried.map (·.2)).filter Step.isEffort).drop
    (before.filterMap Exchange.effort?).length = later at hrest
  have hall : (tried.map (·.2)).filter Step.isEffort = first ++ later := by
    rw [← hfirst, ← hlater, List.take_append_drop]
  cases hrest with
  | @cons step _ later _ hasks _ =>
      obtain rfl : step = .write path content := by
        cases step with
        | write other data =>
            obtain ⟨rfl, rfl⟩ := Request.writeFile.inj hasks
            rfl
        | tool => exact hasks.elim
        | _ => exact hasks.elim
      obtain ⟨rest, hrest⟩ := hefforts
      rw [hall, List.append_assoc, List.cons_append] at hrest
      constructor
      · have hmem : Step.write path content ∈ (tried.map (·.2)).filter Step.isEffort := by
          simp [hall]
        exact h.collected hinitial (List.mem_filter.mp hmem).1
      · rcases Course.efforts_split hrest.symm with ⟨rfl, rfl, rfl⟩ | ⟨rfl, rfl, rfl⟩
        · exact Or.inl ⟨rfl, rfl, hbefore⟩
        · exact Or.inr ⟨rfl, rfl, hbefore⟩

end

/-- A build has gone through the schedule of a course until a step failed, if one did. -/
structure FailFast (c : Config) (course : Course) (deeds : List Exchange)
    (result : Except BuildError Artifact) : Prop where
  /-- It succeeds exactly when every step does, the last of which finds the class file. -/
  succeeds : (∃ artifact, result = .ok artifact) ↔ Succeeded c (course.schedule c) deeds
  artifact : ∀ artifact, result = .ok artifact → artifact = course.artifact c
  /-- The error has the cause and the stage of the first step that fails, which is the last. -/
  fails : ∀ e, result = .error e → FailsAt c (course.schedule c) deeds e
  /-- Tools are started in the order of the course. -/
  runs : ∃ attempted, attempted <+: course.runs c ∧
    List.Forall₂ (fun step command => step.Asks c (.launch command)) attempted
      (deeds.filterMap Exchange.attempted?)
  /-- A tool is started and a file is written only when all earlier runs and writes succeeded. -/
  orderly : Orderly deeds
  /-- Files are written where the course writes them. -/
  writes : ∀ before path content reply after,
    deeds = before ++ ⟨.writeFile path content, reply⟩ :: after →
      course.Writes c before path content

/-- With one job, whatever tools, file system and cancel token do: a build goes through its schedule
step by step and ends with the first failure. -/
theorem build_fails_fast {σ : Type} (host : Host σ) (c : Config) (hjobs : c.jobs = 1) (s : σ) :
    ∃ course : Course, FailFast c course ((build c).deeds host s) ((build c).run host s).1 := by
  have hworks := worksThrough_stages hjobs _ _ (Plan.deeds_run host (build c) s)
  generalize (build c).deeds host s = deeds at hworks ⊢
  generalize ((build c).run host s).1 = result at hworks ⊢
  have hefforts : ∀ course : Course, ∀ tried, tried <+: course.schedule c → Tried c tried deeds →
      (∃ attempted, attempted <+: course.runs c ∧
        List.Forall₂ (fun step command => step.Asks c (.launch command)) attempted
          (deeds.filterMap Exchange.attempted?)) := by
    intro course tried hinitial htried
    refine ⟨(tried.map (·.2)).filter Step.isRun, ?_, htried.forall₂ fun _ _ _ h => h.attempts⟩
    rw [← course.filter_isRun c]
    exact (hinitial.map _).filter _
  cases result with
  | ok artifact =>
      obtain ⟨_, ⟨course, rfl, rfl⟩, hsucceeded⟩ := hworks.1 _ rfl
      have htried := hsucceeded.tried
      exact ⟨course,
        { succeeds := ⟨fun _ => hsucceeded, fun _ => ⟨_, rfl⟩⟩
          artifact := fun artifact h => (Except.ok.inj h).symm
          fails := fun e h => (nomatch h)
          runs := hefforts course _ List.prefix_rfl htried
          orderly := htried.orderly
          writes := fun _ _ _ _ _ hdeeds => htried.writes List.prefix_rfl hdeeds }⟩
  | error e =>
      obtain ⟨_, _, ⟨course, rfl, -⟩, hfails⟩ := hworks.2 e rfl
      obtain ⟨tried, hinitial, htried⟩ := hfails.exists_tried
      refine ⟨course,
        { succeeds := ⟨fun ⟨_, h⟩ => (nomatch h), fun h => absurd hfails h.not_fails⟩
          artifact := fun artifact h => (nomatch h)
          fails := fun e' h => ?_
          runs := hefforts course tried hinitial htried
          orderly := htried.orderly
          writes := fun _ _ _ _ _ hdeeds => htried.writes hinitial hdeeds }⟩
      exact Except.error.inj h ▸ hfails

/-- Two units are built one after the other. -/
theorem two_units_in_one_job :
    let c : Config := { twoUnitsConfig with jobs := 1, jobs_pos := Nat.one_pos }
    ((build c).run twoUnitsHost twoUnits).1 =
        .ok ⟨⟨"/src/A.class"⟩, ⟨"/src/A.global"⟩, ⟨"/src/prog.j"⟩, 2, 1, 1⟩ ∧
      ∃ course : Course, FailFast c course ((build c).deeds twoUnitsHost twoUnits)
        ((build c).run twoUnitsHost twoUnits).1 := by
  intro c
  refine ⟨?_, build_fails_fast twoUnitsHost c rfl twoUnits⟩
  simp only [build, Build.stages, Build.prepare, Build.survey, Sources.discover,
    Text.mergeSort_eq_insertionSort]
  decide +kernel

end Bytelink
