import Bytelink.Proofs.Parts

/-!
# Stages that fail fast

With one job a build is a schedule of steps, each in a stage. The schedule of a run mentions what
the steps find (`Course`): the sources, what the compiler makes of each, the segment and the paths.
The build goes through its schedule until a step fails, and the failure has the cause of this step
and its stage (`build_fails_fast`).
-/
namespace Bytelink

abbrev StageTask := Stage × Step

/-- The tasks succeed one after another, and these are their deeds. -/
inductive Succeeded (c : Config) : List StageTask → List Exchange → Prop
  | nil : Succeeded c [] []
  | cons {stage : Stage} {step : Step} {log more : List Exchange} {tasks : List StageTask} :
      step.Goes c log (.ok ()) → Succeeded c tasks more →
      Succeeded c ((stage, step) :: tasks) (log ++ more)

/-- The tasks succeed up to one of the error's stage, which fails with the error's cause. Nothing is
done afterwards. -/
def FailsAt (c : Config) (tasks : List StageTask) (log : List Exchange) (e : BuildError) : Prop :=
  ∃ earlier step later before last, tasks = earlier ++ (e.stage, step) :: later ∧
    Succeeded c earlier before ∧ step.Goes c last (.error e.cause) ∧ log = before ++ last

section

variable {c : Config} {tasks others earlier later : List StageTask} {stage : Stage} {step : Step}
variable {log more before last : List Exchange} {e : BuildError}

theorem Succeeded.append (h : Succeeded c tasks log) (hothers : Succeeded c others more) :
    Succeeded c (tasks ++ others) (log ++ more) := by
  induction h with
  | nil => exact hothers
  | cons hgoes _ ih =>
      rw [List.append_assoc]
      exact .cons hgoes ih

theorem Succeeded.single (h : step.Goes c log (.ok ())) : Succeeded c [(stage, step)] log := by
  rw [← List.append_nil log]
  exact .cons h .nil

theorem FailsAt.append_right (h : FailsAt c tasks log e) (others : List StageTask) :
    FailsAt c (tasks ++ others) log e := by
  obtain ⟨earlier, step, later, before, last, rfl, hbefore, hlast, rfl⟩ := h
  exact ⟨earlier, step, later ++ others, before, last, by simp, hbefore, hlast, rfl⟩

theorem Succeeded.fails (h : Succeeded c tasks log) (hothers : FailsAt c others more e) :
    FailsAt c (tasks ++ others) (log ++ more) e := by
  obtain ⟨earlier, step, later, before, last, rfl, hbefore, hlast, rfl⟩ := hothers
  exact ⟨tasks ++ earlier, step, later, log ++ before, last, by simp, h.append hbefore, hlast,
    by simp⟩

theorem Succeeded.not_fails (h : Succeeded c tasks log) : ¬ FailsAt c tasks log e := by
  rintro ⟨earlier, step, later, before, last, rfl, hbefore, hlast, rfl⟩
  generalize hwhole : earlier ++ (e.stage, step) :: later = whole at h
  generalize hlog : before ++ last = log at h
  induction hbefore generalizing whole log with
  | nil =>
      subst hwhole
      cases h with
      | cons hgoes _ => cases (hlast.unique hgoes ((List.append_nil _).trans hlog)).2
  | @cons _ _ done rest _ hdone _ ih =>
      subst hwhole
      cases h with
      | cons hgoes hmore =>
          rw [List.append_assoc] at hlog
          obtain ⟨rfl, -⟩ := hdone.unique hgoes hlog
          exact ih _ rfl _ (List.append_cancel_left hlog) hmore

end

section

variable {c : Config} {ε α β : Type} {blame : ε → BuildError}

/-- Whatever it is answered, the plan goes through the tasks of a schedule for the value at which it
arrives, up to the first that fails. -/
def WorksThrough (c : Config) (blame : ε → BuildError) (p : ExceptT ε Plan α)
    (S : List StageTask → α → Prop) : Prop :=
  ∀ log result, p.run.Deeds log result →
    (∀ a, result = .ok a → ∃ tasks, S tasks a ∧ Succeeded c tasks log) ∧
    ∀ e, result = .error e → ∃ tasks a, S tasks a ∧ FailsAt c tasks log (blame e)

theorem WorksThrough.exists_schedule {p : ExceptT ε Plan α} {S : List StageTask → α → Prop}
    (h : WorksThrough c blame p S) : ∃ tasks a, S tasks a := by
  obtain ⟨log, result, hdeeds⟩ := p.run.exists_deeds
  cases result with
  | ok a =>
      obtain ⟨tasks, hS, -⟩ := (h log _ hdeeds).1 a rfl
      exact ⟨tasks, a, hS⟩
  | error e =>
      obtain ⟨tasks, a, hS, -⟩ := (h log _ hdeeds).2 e rfl
      exact ⟨tasks, a, hS⟩

theorem WorksThrough.mono {p : ExceptT ε Plan α} {S S' : List StageTask → α → Prop}
    (h : WorksThrough c blame p S) (hS : ∀ tasks a, S tasks a → S' tasks a) :
    WorksThrough c blame p S' := by
  intro log result hdeeds
  obtain ⟨hok, herror⟩ := h log result hdeeds
  constructor
  · intro a ha
    obtain ⟨tasks, hschedule, hsucceeded⟩ := hok a ha
    exact ⟨tasks, hS tasks a hschedule, hsucceeded⟩
  · intro e he
    obtain ⟨tasks, a, hschedule, hfails⟩ := herror e he
    exact ⟨tasks, a, hS tasks a hschedule, hfails⟩

theorem worksThrough_pure {a : α} {S : List StageTask → α → Prop} (h : S [] a) :
    WorksThrough c blame (pure a : ExceptT ε Plan α) S := by
  intro log result hdeeds
  obtain ⟨rfl, rfl⟩ := deeds_run_pure.mp hdeeds
  constructor
  · intro b hb
    exact ⟨[], Except.ok.inj hb ▸ h, .nil⟩
  · intro e he
    cases he

theorem WorksThrough.bind {p : ExceptT ε Plan α} {f : α → ExceptT ε Plan β}
    {S : List StageTask → α → Prop} {S' : List StageTask → β → Prop} (hp : WorksThrough c blame p S)
    (hf : ∀ tasks a, S tasks a →
      WorksThrough c blame (f a) fun more b => S' (tasks ++ more) b) :
    WorksThrough c blame (p >>= f) S' := by
  intro log result hdeeds
  rcases deeds_run_bind.mp hdeeds with ⟨e, hfirst, rfl⟩ | ⟨a, before, after, rfl, hfirst, hrest⟩
  · -- What would have come next is a schedule of any run of it.
    obtain ⟨tasks, a, hS, hfails⟩ := (hp _ _ hfirst).2 e rfl
    obtain ⟨more, b, hS'⟩ := (hf tasks a hS).exists_schedule
    refine ⟨fun _ h => (nomatch h), fun e' he' => ?_⟩
    obtain rfl := Except.error.inj he'
    exact ⟨tasks ++ more, b, hS', hfails.append_right more⟩
  · obtain ⟨tasks, hS, hsucceeded⟩ := (hp _ _ hfirst).1 a rfl
    obtain ⟨hok, herror⟩ := hf tasks a hS _ _ hrest
    constructor
    · intro b hb
      obtain ⟨more, hS', hmore⟩ := hok b hb
      exact ⟨tasks ++ more, hS', hsucceeded.append hmore⟩
    · intro e he
      obtain ⟨more, b, hS', hfails⟩ := herror e he
      exact ⟨tasks ++ more, b, hS', hsucceeded.fails hfails⟩

theorem Performs.worksThrough [Nonempty α] {part : Part α} {step : α → Step}
    (h : Performs c part step) (stage : Stage) :
    WorksThrough c (BuildError.mk stage) part fun tasks a => tasks = [(stage, step a)] := by
  intro log result hdeeds
  constructor
  · rintro a rfl
    exact ⟨_, rfl, .single (h log _ hdeeds a _ ⟨rfl, rfl⟩)⟩
  · rintro cause rfl
    obtain ⟨a⟩ := ‹Nonempty α›
    exact ⟨_, a, rfl, [], step a, [], [], log, rfl, .nil, h log _ hdeeds a _ rfl, rfl⟩

theorem WorksThrough.within {part : Part α} {stage : Stage} {S : List StageTask → α → Prop}
    (h : WorksThrough c (BuildError.mk stage) part S) :
    WorksThrough c id (Build.within stage part) S := by
  intro log result hdeeds
  obtain ⟨outcome, before, after, rfl, hpart, hafter⟩ := Plan.deeds_bind.mp hdeeds
  obtain ⟨hok, herror⟩ := h before outcome hpart
  cases outcome with
  | ok a =>
      obtain ⟨rfl, rfl⟩ := Plan.deeds_pure.mp hafter
      rw [List.append_nil]
      exact ⟨fun b hb => hok b (congrArg Except.ok (Except.ok.inj hb)), fun e he => (nomatch he)⟩
  | error cause =>
      obtain ⟨_, reported, rest, rfl, hreport, rfl, rfl⟩ := Plan.deeds_bind.mp hafter
      obtain rfl := Plan.deeds_report.mp hreport
      rw [List.append_nil, List.append_nil]
      refine ⟨fun b hb => (nomatch hb), fun e he => ?_⟩
      obtain rfl := Except.error.inj he
      exact herror cause rfl

/-- A report is no step. -/
theorem WorksThrough.report {level : Level} {reporter : Reporter} {text : Text}
    {f : Unit → ExceptT ε Plan α} {S : List StageTask → α → Prop}
    (h : WorksThrough c blame (f ()) S) :
    WorksThrough c blame
      ((liftM (Plan.report level reporter text) : ExceptT ε Plan Unit) >>= f) S :=
  fun log result hdeeds => h log result (deeds_run_report_bind.mp hdeeds)

end

/-- What the compiler makes of a source. -/
structure Translation where
  source : Path
  body : Text
  listing? : Option Text

def Translation.fragment (t : Translation) : Fragment :=
  ⟨intermediateName t.source ['c'], t.body, t.listing?⟩

/-- What the steps of a build find. -/
structure Course where
  template : Template
  outDir : Path
  units : List Translation
  segment : Segment
  linked : Path

namespace Course

variable (c : Config) (course : Course)

def sources : List Path := course.units.map (·.source)

def fragments : List Fragment := course.units.map (·.fragment)

def classFile : Path := c.target.classFile course.outDir

def segmentFile : Path := c.sourceDir.join (Build.segmentFile c.target)

def program : Bytes :=
  Utf8.encode (link course.template c.target.name course.fragments course.segment).text

/-- What a build says of itself that has gone through the whole course. -/
def artifact : Artifact :=
  ⟨course.classFile c, segmentFile c, course.linked, course.sources.length, course.segment.size,
    course.segment.totalSize⟩

def preprocessing (source : Path) : Step :=
  .tool c.preprocessor ["-E", "-DVERSION=\"java\"", intermediateName source ['c'], "-o",
    intermediateName source ['i']]

def compilation (source : Path) : Step :=
  .tool c.compiler ["-O8", "-fno-function-cse", intermediateName source ['i'], "-o",
    intermediateName source ['j']]

def assembly : Step := .tool c.assembler ["-d", course.outDir.text, course.linked.text]

def preparations (template : Template) (outDir : Path) (sources : List Path) : List Step :=
  [.checkDirectory c.sourceDir, .loadTemplate c.template? template, .locate c.outDir outDir,
    .makeDirectories outDir, .clear (c.target.classFile outDir), .discover c.sourceDir sources,
    .demand c.sourceDir sources]

def translation (t : Translation) : List Step :=
  [.clear (c.sourceDir.join Build.listingFile), compilation c t.source,
    .read (c.sourceDir.join ⟨intermediateName t.source ['j']⟩) t.body,
    .take (c.sourceDir.join Build.listingFile) t.listing?]

def schedule : List StageTask :=
  (preparations c course.template course.outDir course.sources).map (.idle, ·) ++
  (.enter :: course.sources.map (preprocessing c)).map (.preprocessing, ·) ++
  (.enter :: course.units.flatMap (translation c)).map (.compiling, ·) ++
  [.enter, .collect course.fragments course.segment,
    .write (segmentFile c) course.segment.toBytes].map (.aggregating, ·) ++
  [.enter, .locate (c.sourceDir.join Build.linkedFile) course.linked,
    .write course.linked (course.program c)].map (.linking, ·) ++
  [.enter, course.assembly c, .inspect (course.classFile c)].map (.assembling, ·)

end Course

section

variable {c : Config}

instance : Nonempty Path := ⟨⟨[]⟩⟩

instance : Nonempty Template := ⟨.standard⟩

instance : Nonempty Segment := ⟨.empty⟩

theorem worksThrough_prepare (c : Config) :
    WorksThrough c (BuildError.mk .idle) (Build.prepare c) fun tasks ground =>
      ∃ template outDir sources,
        tasks = (Course.preparations c template outDir sources).map (.idle, ·) ∧
        ground = ⟨outDir, c.target.classFile outDir, template, sources⟩ := by
  rw [Build.prepare_eq]
  refine ((performs_requireDirectory c c.sourceDir).worksThrough .idle).bind ?_
  rintro _ - rfl
  refine ((performs_chooseTemplate c).worksThrough .idle).bind ?_
  rintro _ template rfl
  unfold Build.survey
  refine ((performs_locate c c.outDir).worksThrough .idle).bind ?_
  rintro _ outDir rfl
  refine ((performs_makeDirectories c outDir).worksThrough .idle).bind ?_
  rintro _ - rfl
  refine ((performs_removeStale c _).worksThrough .idle).bind ?_
  rintro _ - rfl
  refine ((performs_discover c c.sourceDir).worksThrough .idle).bind ?_
  rintro _ sources rfl
  have hdemand : (if sources.isEmpty then throw (.noSources c.sourceDir)
      else pure ⟨outDir, c.target.classFile outDir, template, sources⟩ : Part Build.Ground) =
      ((if sources.isEmpty then throw (.noSources c.sourceDir) else pure ()) >>= fun _ =>
        pure ⟨outDir, c.target.classFile outDir, template, sources⟩) := by
    split <;> rfl
  rw [hdemand]
  refine ((performs_demand c c.sourceDir sources).worksThrough .idle).bind ?_
  rintro _ - rfl
  exact worksThrough_pure ⟨template, outDir, sources, rfl, rfl⟩

theorem worksThrough_one (c : Config) (source : Path) :
    WorksThrough c (BuildError.mk .preprocessing) (Preprocess.one c source) fun tasks input =>
      tasks = [(.preprocessing, Course.preprocessing c source)] ∧
        input = intermediateName source ['i'] := by
  rw [Preprocess.one_eq]
  refine WorksThrough.report ?_
  refine ((performs_tool c c.preprocessor _).worksThrough .preprocessing).bind ?_
  rintro _ - rfl
  exact worksThrough_pure ⟨rfl, rfl⟩

theorem worksThrough_ones (c : Config) (sources : List Path) :
    WorksThrough c (BuildError.mk .preprocessing) (sources.mapM (Preprocess.one c))
      fun tasks inputs => tasks = (sources.map (Course.preprocessing c)).map (.preprocessing, ·) ∧
        inputs = sources.map (intermediateName · ['i']) := by
  induction sources with
  | nil => exact worksThrough_pure ⟨rfl, rfl⟩
  | cons source rest ih =>
      rw [List.mapM_cons]
      refine (worksThrough_one c source).bind ?_
      rintro _ _ ⟨rfl, rfl⟩
      refine ih.bind ?_
      rintro _ _ ⟨rfl, rfl⟩
      refine worksThrough_pure ⟨?_, rfl⟩
      rw [List.append_nil]
      rfl

theorem worksThrough_all (hjobs : c.jobs = 1) (sources : List Path) :
    WorksThrough c (BuildError.mk .preprocessing) (Preprocess.all c sources)
      fun tasks inputs => tasks = (sources.map (Course.preprocessing c)).map (.preprocessing, ·) ∧
        inputs = sources.map (intermediateName · ['i']) := by
  have hone : min c.jobs sources.length ≤ 1 := by
    rw [hjobs]
    exact Nat.min_le_left _ _
  unfold Preprocess.all
  dsimp only
  rw [if_pos hone]
  exact worksThrough_ones c sources

/-- A stage is entered before its first step. -/
theorem WorksThrough.entered {α : Type} {previous stage : Stage} {part : Part α}
    {S : List StageTask → α → Prop} (h : WorksThrough c (BuildError.mk stage) part S) :
    WorksThrough c id (Build.within stage (Build.enter c previous stage >>= fun _ => part))
      fun tasks a => ∃ more, tasks = (stage, .enter) :: more ∧ S more a := by
  refine WorksThrough.within (((performs_enter c previous stage).worksThrough stage).bind ?_)
  rintro _ - rfl
  exact h.mono fun more a hS => ⟨more, rfl, hS⟩

theorem worksThrough_takeListing (c : Config) (stage : Stage) (path : Path) (origin body : Text) :
    WorksThrough c (BuildError.mk stage) (Build.takeListing path (.ofBody origin body))
      fun tasks f => ∃ listing?, tasks = [(stage, .take path listing?)] ∧
        f = ⟨origin, body, listing?⟩ := by
  intro log result hdeeds
  obtain ⟨taken, htaken, rfl⟩ := deeds_takeListing hdeeds
  cases taken with
  | ok listing? =>
      refine ⟨fun f hf => ?_, fun e he => (nomatch he)⟩
      obtain rfl := Except.ok.inj hf
      exact ⟨_, ⟨listing?, rfl, rfl⟩, .single ⟨_, htaken, rfl, rfl⟩⟩
  | error cause =>
      refine ⟨fun f hf => (nomatch hf), fun e he => ?_⟩
      obtain rfl := Except.error.inj he
      exact ⟨_, ⟨origin, body, none⟩, ⟨none, rfl, rfl⟩, [], _, [], [], log, rfl, .nil,
        ⟨_, htaken, rfl⟩, rfl⟩

theorem worksThrough_compile (c : Config) (source : Path) :
    WorksThrough c (BuildError.mk .compiling)
      (Build.compile c source (intermediateName source ['i'])) fun tasks f =>
      ∃ t : Translation, t.source = source ∧
        tasks = (Course.translation c t).map (.compiling, ·) ∧ f = t.fragment := by
  unfold Build.compile
  refine ((performs_removeStale c _).worksThrough .compiling).bind ?_
  rintro _ - rfl
  refine WorksThrough.report ?_
  dsimp only
  rw [← bind_assoc]
  refine ((performs_tool c c.compiler _).worksThrough .compiling).bind ?_
  rintro _ - rfl
  refine ((performs_read c _).worksThrough .compiling).bind ?_
  rintro _ body rfl
  refine (worksThrough_takeListing c .compiling _ _ body).mono ?_
  rintro _ _ ⟨listing?, rfl, rfl⟩
  exact ⟨⟨source, body, listing?⟩, rfl, rfl, rfl⟩

theorem worksThrough_compileAll (c : Config) (sources : List Path) :
    WorksThrough c (BuildError.mk .compiling)
      (Build.compileAll c (sources.zip (sources.map (intermediateName · ['i'])))) fun tasks fs =>
      ∃ units : List Translation, units.map (·.source) = sources ∧
        tasks = (units.flatMap (Course.translation c)).map (.compiling, ·) ∧
        fs = units.map (·.fragment) := by
  induction sources with
  | nil => exact worksThrough_pure ⟨[], rfl, rfl, rfl⟩
  | cons source rest ih =>
      refine (worksThrough_compile c source).bind ?_
      rintro _ _ ⟨t, rfl, rfl, rfl⟩
      refine ih.bind ?_
      rintro _ _ ⟨units, rfl, rfl, rfl⟩
      refine worksThrough_pure ⟨t :: units, rfl, ?_, rfl⟩
      rw [List.append_nil, List.flatMap_cons, List.map_append]

theorem worksThrough_reportAll {α : Type} {stage : Stage} {reporter : Reporter} {texts : List Text}
    {f : Unit → Part α} {S : List StageTask → α → Prop}
    (h : WorksThrough c (BuildError.mk stage) (f ()) S) :
    WorksThrough c (BuildError.mk stage) (liftM (Build.reportAll reporter texts) >>= f) S := by
  intro log result hdeeds
  obtain ⟨_, before, after, rfl, hreports, hafter⟩ := deeds_run_lift_bind.mp hdeeds
  suffices hnone : before = [] by
    subst hnone
    exact h _ result hafter
  clear hafter hdeeds
  induction texts generalizing before with
  | nil => exact hreports.1
  | cons text rest ih =>
      obtain ⟨_, first, more, rfl, hfirst, hmore⟩ := Plan.deeds_bind.mp hreports
      rw [Plan.deeds_report.mp hfirst, ih more hmore, List.append_nil]

theorem worksThrough_aggregate (c : Config) (fragments : List Fragment) :
    WorksThrough c (BuildError.mk .aggregating) (Build.aggregate c fragments) fun tasks made =>
      ∃ segment, made = (segment, Course.segmentFile c) ∧
        tasks = [.collect fragments segment,
          .write (Course.segmentFile c) segment.toBytes].map (.aggregating, ·) := by
  rw [Build.aggregate_eq]
  refine worksThrough_reportAll ?_
  refine ((performs_collect c fragments).worksThrough .aggregating).bind ?_
  rintro _ segment rfl
  refine ((performs_write c _ segment.toBytes).worksThrough .aggregating).bind ?_
  rintro _ - rfl
  exact WorksThrough.report (worksThrough_pure ⟨segment, rfl, rfl⟩)

theorem worksThrough_linkAll (c : Config) (ground : Build.Ground) (fragments : List Fragment)
    (segment : Segment) :
    WorksThrough c (BuildError.mk .linking) (Build.linkAll c ground fragments segment)
      fun tasks linked => tasks = [.locate (c.sourceDir.join Build.linkedFile) linked,
        .write linked (Utf8.encode (link ground.template c.target.name fragments segment).text)].map
          (.linking, ·) := by
  unfold Build.linkAll
  refine WorksThrough.report ?_
  dsimp only
  refine ((performs_locate c _).worksThrough .linking).bind ?_
  rintro _ linked rfl
  refine ((performs_write c linked _).worksThrough .linking).bind ?_
  rintro _ - rfl
  exact worksThrough_pure rfl

theorem worksThrough_assemble (c : Config) (ground : Build.Ground) (linked : Path) :
    WorksThrough c (BuildError.mk .assembling) (Build.assemble c ground linked) fun tasks _ =>
      tasks = [.tool c.assembler ["-d", ground.outDir.text, linked.text],
        .inspect ground.classFile].map (.assembling, ·) := by
  unfold Build.assemble
  rw [← bind_assoc]
  refine ((performs_tool c c.assembler _).worksThrough .assembling).bind ?_
  rintro _ - rfl
  refine ((performs_inspect c ground.classFile _ _).worksThrough .assembling).mono ?_
  rintro _ - rfl
  rfl

/-- With one job a build goes through the schedule of the course it takes. -/
theorem worksThrough_stages (hjobs : c.jobs = 1) :
    WorksThrough c id (Build.stages c) fun tasks artifact =>
      ∃ course : Course, tasks = course.schedule c ∧ artifact = course.artifact c := by
  unfold Build.stages
  refine (worksThrough_prepare c).within.bind ?_
  rintro _ _ ⟨template, outDir, sources, rfl, rfl⟩
  refine (worksThrough_all hjobs sources).entered.bind ?_
  rintro _ _ ⟨_, rfl, rfl, rfl⟩
  refine (worksThrough_compileAll c sources).entered.bind ?_
  rintro _ _ ⟨_, rfl, units, rfl, rfl, rfl⟩
  refine (worksThrough_aggregate c _).entered.bind ?_
  rintro _ _ ⟨_, rfl, segment, rfl, rfl⟩
  refine (worksThrough_linkAll c _ _ segment).entered.bind ?_
  rintro _ linked ⟨_, rfl, rfl⟩
  refine (worksThrough_assemble c _ linked).entered.bind ?_
  rintro _ - ⟨_, rfl, rfl⟩
  refine worksThrough_pure ⟨⟨template, outDir, units, segment, linked⟩, ?_, rfl⟩
  simp [Course.schedule, Course.sources, Course.fragments, Course.classFile, Course.assembly,
    Course.program]

end
end Bytelink
