import Bytelink.Proofs.SceneStages

/-!
# A whole build in a scene

The stages put together, with tools of any kind (`concludes_stages`). Three things are followed
through a build: what stands where a request is asked (`Setting.Conducts`), what becomes of the
class path once the old class file has been removed, and how far the build has come when it fails.
The second is left open: a condition is kept if it outlasts all requests of a stage
(`Setting.Outlasts`). These make no directories, and write to entries of the source directory other
than the class file (`Setting.Minds`).
-/
namespace Bytelink
namespace Build

def compiled (c : Config) : ExceptT BuildError Plan (Ground × List Fragment) := do
  let ground ← within .idle (prepare c)
  let inputs ← within .preprocessing do
    enter c .idle .preprocessing
    Preprocess.all c ground.sources
  let fragments ← within .compiling do
    enter c .preprocessing .compiling
    compileAll c (ground.sources.zip inputs)
  pure (ground, fragments)

/-- The stages that make a program of the fragments. -/
def completed (c : Config) (ground : Ground) (fragments : List Fragment) :
    ExceptT BuildError Plan Artifact := do
  let (segment, segmentPath) ← within .aggregating do
    enter c .compiling .aggregating
    aggregate c fragments
  let linked ← within .linking do
    enter c .aggregating .linking
    linkAll c ground fragments segment
  within .assembling do
    enter c .linking .assembling
    assemble c ground linked
  pure ⟨ground.classFile, segmentPath, linked, ground.sources.length, segment.size,
    segment.totalSize⟩

theorem stages_eq (c : Config) :
    stages c = compiled c >>= fun made => completed c made.1 made.2 := by
  simp only [stages, compiled, completed, bind_assoc, pure_bind]

end Build

namespace Setting

variable {setting : Setting} {l : Licence} {G : Request → Scene → Prop} {w w' : Scene}
variable {c : Config} {product : Path} {flag : Text} {α : Type} {Q : α → Scene → Prop}
variable {E P : Scene → Prop} {part : Part α} {previous stage : Stage}

def Persists (setting : Setting) (c : Config) (content : Bytes) (w : Scene) : Prop :=
  ∃ before units segment, before.Lacks ['-', 'O', '8'] ∧ setting.CompiledAll c before units w ∧
    Segment.ofFragments .standard (units.map (·.fragment)) = .ok segment ∧
    content = segment.toBytes

/-- What holds where a request is asked. -/
def Conducts (setting : Setting) (c : Config) : Request → Scene → Prop
  | .launch command, w => command.HasFlag ['-', 'O', '8'] → w.places c.listingPath = none
  | .writeFile path content, w =>
      path = c.sourceDir.join (Build.segmentFile c.target) → setting.Persists c content w
  | .report record, w =>
      (record = Build.entering .idle .preprocessing →
        ∀ outDir, c.outDir.absolute setting.currentDirectory = .ok outDir →
          w.places (c.target.classFile outDir) = none) ∧
      (record = Build.entering .compiling .aggregating →
        ∃ before units, units ≠ [] ∧ setting.CompiledAll c before units w)
  | _, _ => True

/-- What may be asked in a stage whose commands have this flag. -/
def Minds (setting : Setting) (product : Path) (flag : Text) : Request → Prop
  | .launch command => command.HasFlag flag
  | .writeFile path _ => setting.IsEntry path ∧ path.fileName? ≠ product.fileName?
  | .makeDirectories _ => False
  | _ => True

/-- No request of a stage whose commands have this flag ends the condition. -/
def Outlasts (setting : Setting) (product : Path) (flag : Text) (P : Scene → Prop) : Prop :=
  ∀ r reply w w', setting.Minds product flag r → P w → setting.answers r reply w w' → P w'

def stageLicence (setting : Setting) (c : Config) (product : Path) (flag : Text) : Licence where
  starts command w := command.HasFlag flag ∧
    (command.HasFlag ['-', 'O', '8'] → w.places c.listingPath = none)
  writes path content w := (setting.IsEntry path ∧ path.fileName? ≠ product.fileName?) ∧
    (path = c.sourceDir.join (Build.segmentFile c.target) → setting.Persists c content w)
  makes _ := False

theorem conducts_of_not_enters {record : Record} (h : ¬ record.Enters) :
    setting.Conducts c (.report record) w :=
  ⟨fun he => absurd ⟨_, _, by decide, he⟩ h, fun he => absurd ⟨_, _, by decide, he⟩ h⟩

theorem conducts_of_allows {r : Request}
    (h : (setting.stageLicence c product flag).Allows r w) :
    setting.Conducts c r w ∧ setting.Minds product flag r := by
  cases r with
  | launch command => exact ⟨h.2, h.1⟩
  | writeFile path content => exact ⟨h.2, h.1⟩
  | makeDirectories path => exact h.elim
  | report record => exact ⟨conducts_of_not_enters h, trivial⟩
  | _ => exact ⟨trivial, trivial⟩

theorem lets_stageLicence (h : flag ≠ ['-', 'O', '8']) :
    (setting.stageLicence c product flag).Lets flag := fun _ _ hflag =>
  ⟨hflag, fun hcompiles => absurd (Option.some.inj (hflag.symm.trans hcompiles)) h⟩

theorem not_enters_failed (stage : Stage) (message : Text) :
    ¬ (⟨.debug, .pipeline, stage.text ++ " -> " ++ Stage.failed.text ++ ": " ++ message⟩ :
      Record).Enters := by
  intro ⟨previous, entered, _, he⟩
  have hcolon : ':' ∈ (Build.entering previous entered).text := by
    rw [← he]
    simp
  revert hcolon
  cases previous <;> cases entered <;> decide

/-- A stage that fails reports it, and what is left of it lasts. -/
theorem concludes_within (hE : setting.Lasting E)
    (hG : ∀ record w', ¬ record.Enters → G (.report record) w')
    (h : Concludes setting.answers G part Q (fun _ => E) w) :
    Concludes setting.answers G (Build.within stage part) Q
      (fun e w' => e.stage = stage ∧ E w') w := by
  refine Plan.Ensures.bind h ?_
  intro result w₁ ⟨hvalue, hcause⟩
  cases result with
  | ok value =>
      refine Plan.ensures_pure.mpr ⟨fun other h => ?_, fun e h => (nomatch h)⟩
      exact Except.ok.inj h ▸ hvalue value rfl
  | error cause =>
      refine Plan.Ensures.bind
        (ensures_report hE (hcause cause rfl) (hG _ w₁ (not_enters_failed stage cause.message))) ?_
      intro _ w₂ hE₂
      refine Plan.ensures_pure.mpr ⟨fun value h => (nomatch h), fun e he => ⟨?_, hE₂⟩⟩
      rw [← Except.error.inj he]

theorem concludes_enter (hidle : w.Idle) (hreport : G (.report (Build.entering previous stage)) w)
    (hask : ∀ token w', G (.isCancelled token) w') :
    Concludes setting.answers G (Build.enter c previous stage) (fun _ w' => w.Heard w')
      (fun _ w' => w.Heard w') w := by
  refine Concludes.bind (concludes_report (lasting_heard hidle) (.refl w) hreport) ?_
  intro _ w₁ hheard
  cases c.cancel? with
  | none => exact .of_pure hheard
  | some token =>
      refine Concludes.bind (.of_lift (ensures_ask (r := .isCancelled token) (lasting_heard hidle)
        hheard trivial (hask token w₁))) ?_
      intro cancelled w₂ hheard₂
      cases cancelled with
      | true => exact .of_throw hheard₂
      | false => exact .of_pure hheard₂

/-- A stage is entered and goes on from there. What its requests keep holds however it ends. -/
theorem concludes_stage (hidle : w.Idle)
    (hreport : setting.Conducts c (.report (Build.entering previous stage)) w)
    (hpart : ∀ w', w.Heard w' → Concludes setting.answers
      (setting.stageLicence c product flag).Allows part Q (fun _ => E) w')
    (hE : setting.Lasting E) (hheard : ∀ w', w.Heard w' → E w')
    (hP : setting.Outlasts product flag P) (hw : P w) :
    Concludes setting.answers (setting.Conducts c)
      (Build.within stage do Build.enter c previous stage; part)
      (fun a w' => Q a w' ∧ P w') (fun e w' => (e.stage = stage ∧ E w') ∧ P w') w := by
  have hentered : Concludes setting.answers
      (fun r w => setting.Conducts c r w ∧ setting.Minds product flag r)
      (do Build.enter c previous stage; part) Q (fun _ => E) w := by
    refine Concludes.bind ((concludes_enter hidle ⟨hreport, trivial⟩
      fun _ _ => ⟨trivial, trivial⟩).mono (fun _ _ h => h) fun _ w' h => hheard w' h) ?_
    intro _ w₁ hheard₁
    exact (hpart w₁ hheard₁).weaken fun _ _ h => conducts_of_allows h
  have hwithin : Concludes setting.answers
      (fun r w => setting.Conducts c r w ∧ setting.Minds product flag r)
      (Build.within stage do Build.enter c previous stage; part) Q
      (fun e w' => e.stage = stage ∧ E w') w :=
    concludes_within hE (fun _ _ h => ⟨conducts_of_not_enters h, trivial⟩) hentered
  exact (hwithin.keep hw fun r reply w w' hG hw ha => hP r reply w w' hG.2 hw ha).weaken
    fun _ _ h => h.1.1

/-- A stage that may fail in any way. -/
theorem concludes_plainStage (hidle : w.Idle)
    (hreport : setting.Conducts c (.report (Build.entering previous stage)) w)
    (hpart : ∀ w', w.Heard w' → Succeeds setting.answers
      (setting.stageLicence c product flag).Allows part Q w')
    (hP : setting.Outlasts product flag P) (hw : P w) :
    Concludes setting.answers (setting.Conducts c)
      (Build.within stage do Build.enter c previous stage; part)
      (fun a w' => Q a w' ∧ P w') (fun _ w' => P w') w := by
  have hE : setting.Lasting fun _ => True := ⟨fun _ _ _ _ => trivial, fun _ _ _ _ => trivial⟩
  refine (concludes_stage hidle hreport (fun w' h => .of_succeeds (hpart w' h)) hE
    (fun _ _ => trivial) hP hw).mono (fun _ _ h => h) ?_
  exact fun _ _ h => h.2

theorem log_of_steps (h : Relation.ReflTransGen setting.Works w w') : w'.log = w.log := by
  induction h with
  | refl => rfl
  | tail _ hstep ih =>
      obtain ⟨_, _, _, _, hlog⟩ := hstep
      exact hlog.trans ih

theorem runs_of_answers {r : Request} {reply : r.Reply} (h : setting.answers r reply w w') :
    w'.runs = w.runs ∨ ∃ run command, r = .launch command ∧
      w'.runs = w.runs ++ [(run, command)] := by
  obtain ⟨between, after, hsteps, -, rfl⟩ := h
  have hruns : between.runs = w.runs := by rw [Scene.runs, log_of_steps hsteps, Scene.runs]
  rw [← hruns]
  cases r with
  | launch command =>
      rcases reply with e | run
      · exact Or.inl (Scene.runs_refused after command e)
      · exact Or.inr ⟨run, command, rfl, Scene.runs_launch after command run⟩
  | _ => exact Or.inl (Scene.runs_reply after (by simp) reply)

theorem outlasts_lacks {other : Text} (hother : flag ≠ other) :
    setting.Outlasts product flag (·.Lacks other) := by
  intro r reply w w' hr h ha run command hmem hflag
  rcases runs_of_answers ha with hruns | ⟨run', command', rfl, hruns⟩
  · exact h run command (hruns ▸ hmem) hflag
  · rw [hruns, List.mem_append, List.mem_singleton, Prod.mk.injEq] at hmem
    rcases hmem with hmem | ⟨rfl, rfl⟩
    · exact h run command hmem hflag
    · exact hother (Option.some.inj (hr.symm.trans hflag))

theorem Outlasts.and {P' : Scene → Prop} (h : setting.Outlasts product flag P)
    (h' : setting.Outlasts product flag P') :
    setting.Outlasts product flag fun w => P w ∧ P' w :=
  fun r reply w w' hr hw ha => ⟨h r reply w w' hr hw.1 ha, h' r reply w w' hr hw.2 ha⟩

theorem isEntry_join {name : Text} (h : IsPlain name) :
    setting.IsEntry (setting.directory.join ⟨name⟩) :=
  ⟨name, h, Or.inl rfl⟩

/-- How a build has failed: before the first tool is started, without an assembler run, or in the
last stage. Since the class file was removed `K` has been kept. -/
def Fails (setting : Setting) (c : Config) (K : Path → Scene → Prop) (w : Scene) (e : BuildError)
    (w' : Scene) : Prop :=
  e.stage = .idle ∧ setting.Unprepared c w w' ∨
    ∃ outDir, c.outDir.absolute setting.currentDirectory = .ok outDir ∧
      (w'.Lacks ['-', 'd'] ∨ e.stage = .assembling ∧ Unassembled (c.target.classFile outDir) w') ∧
      K (c.target.classFile outDir) w'

theorem lasting_unprepared (hidle : w.Idle) : setting.Lasting (setting.Unprepared c w) := by
  refine ⟨fun w₁ w₂ h ⟨run, command, hwork, _⟩ => ?_, fun w₁ w₂ h hheard => ?_⟩
  · rcases h with hintact | ⟨_, _, hreadied⟩
    · exact absurd hwork (hintact.idle hidle run command)
    · exact absurd hwork (hreadied.idle hidle run command)
  · rcases h with hintact | ⟨outDir, houtDir, hreadied⟩
    · exact Or.inl (hintact.trans (.of_heard hheard))
    · exact Or.inr ⟨outDir, houtDir, hreadied.heard hheard⟩

theorem concludes_ground (hidle : w.Idle) :
    Concludes setting.answers (setting.Conducts c) (Build.within .idle (Build.prepare c))
      (fun ground w' => setting.Prepared c w ground w')
      (fun e w' => e.stage = .idle ∧ setting.Unprepared c w w') w := by
  refine concludes_within (lasting_unprepared hidle) (fun _ _ => conducts_of_not_enters) ?_
  refine (concludes_prepare (l := ⟨fun _ _ => False, fun _ _ _ => False, fun _ => True⟩) hidle
    fun _ => trivial).weaken fun r w h => ?_
  cases r with
  | launch | writeFile => exact h.elim
  | report record => exact conducts_of_not_enters h
  | _ => trivial

variable {K : Path → Scene → Prop} {ground : Build.Ground} {inputs : List Text}

theorem concludes_preprocessing (hidle : w.Idle)
    (hreport : setting.Conducts c (.report (Build.entering .idle .preprocessing)) w)
    (hP : setting.Outlasts product ['-', 'E'] P) (hw : P w) :
    Concludes setting.answers (setting.Conducts c)
      (Build.within .preprocessing do
        Build.enter c .idle .preprocessing
        Preprocess.all c ground.sources)
      (fun inputs w' => (w'.Idle ∧ inputs = ground.sources.map preprocessedName) ∧ P w')
      (fun _ w' => P w') w := by
  refine concludes_plainStage hidle hreport (fun w' hheard => ?_) hP hw
  exact succeeds_preprocessAll (lets_stageLicence (by decide)) (hheard.idle hidle)

def HasCompiled (setting : Setting) (c : Config) (fragments : List Fragment) (w : Scene) : Prop :=
  ∃ before units, before.Lacks ['-', 'O', '8'] ∧ setting.CompiledAll c before units w ∧
    units ≠ [] ∧ units.map (·.fragment) = fragments

theorem concludes_compiling (hidle : w.Idle) (hlacks : w.Lacks ['-', 'O', '8'])
    (hsources : ground.sources ≠ [])
    (hP : setting.Outlasts product ['-', 'O', '8'] P) (hw : P w) :
    Concludes setting.answers (setting.Conducts c)
      (Build.within .compiling do
        Build.enter c .preprocessing .compiling
        Build.compileAll c (ground.sources.zip (ground.sources.map preprocessedName)))
      (fun fragments w' => (w'.Idle ∧ setting.HasCompiled c fragments w') ∧ P w')
      (fun _ w' => P w') w := by
  have hreport : setting.Conducts c (.report (Build.entering .preprocessing .compiling)) w :=
    ⟨fun he => absurd he (by decide), fun he => absurd he (by decide)⟩
  have hl : ∀ command w, command.HasFlag ['-', 'O', '8'] → w.places c.listingPath = none →
      (setting.stageLicence c product ['-', 'O', '8']).starts command w :=
    fun _ _ hflag hnone => ⟨hflag, fun _ => hnone⟩
  refine concludes_plainStage hidle hreport (fun w₁ hheard => ?_) hP hw
  refine (succeeds_compileAll hl (hheard.idle hidle)).mono ?_
  intro fragments w₂ ⟨hidle₂, units, hall, hunits, hfragments, _⟩
  refine ⟨hidle₂, w₁, units, ?_, hall, ?_, hfragments⟩
  · exact fun run command hmem => hlacks run command (hheard.runs ▸ hmem)
  · rintro rfl
    exact hsources hunits.symm

theorem concludes_aggregating {fragments : List Fragment} {outDir : Path}
    (hdir : c.sourceDir = setting.directory) (hidle : w.Idle)
    (hcompiled : setting.HasCompiled c fragments w)
    (hP : setting.Outlasts (c.target.classFile outDir) ['-', 'O', '8'] P) (hw : P w) :
    Concludes setting.answers (setting.Conducts c)
      (Build.within .aggregating do
        Build.enter c .compiling .aggregating
        Build.aggregate c fragments)
      (fun _ w' => w'.Idle ∧ P w') (fun _ w' => P w') w := by
  obtain ⟨before, units, hlacks, hall, hunits, rfl⟩ := hcompiled
  have hreport : setting.Conducts c (.report (Build.entering .compiling .aggregating)) w :=
    ⟨fun he => absurd he (by decide), fun _ => ⟨before, units, hunits, hall⟩⟩
  refine concludes_plainStage hidle hreport (fun w₁ hheard => ?_) hP hw
  refine succeeds_aggregate (hheard.idle hidle) fun w₂ segment hheard₂ hsegment => ?_
  refine ⟨⟨?_, ?_⟩, fun _ => ?_⟩
  · rw [hdir, Target.segmentFile_eq]
    exact isEntry_join c.target.isPlain_segmentName
  · rw [Target.segmentFile_eq, Path.fileName?_join _ c.target.isPlain_segmentName,
      Target.fileName?_classFile]
    exact fun he => c.target.segmentName_ne_className (Option.some.inj he)
  · exact ⟨before, units, segment, hlacks, hall.heard (hheard.trans hheard₂), hsegment, rfl⟩

theorem concludes_linking {fragments : List Fragment} {segment : Segment} {outDir : Path}
    (hdir : c.sourceDir = setting.directory) (hidle : w.Idle)
    (hP : setting.Outlasts (c.target.classFile outDir) ['-', 'O', '8'] P) (hw : P w) :
    Concludes setting.answers (setting.Conducts c)
      (Build.within .linking do
        Build.enter c .aggregating .linking
        Build.linkAll c ground fragments segment)
      (fun _ w' => w'.Idle ∧ P w') (fun _ w' => P w') w := by
  have hreport : setting.Conducts c (.report (Build.entering .aggregating .linking)) w :=
    ⟨fun he => absurd he (by decide), fun he => absurd he (by decide)⟩
  refine concludes_plainStage hidle hreport (fun w₁ hheard => ?_) hP hw
  refine succeeds_linkAll (hheard.idle hidle) fun w₂ path content hpath => ?_
  have hname : path.fileName? = some programName :=
    Path.fileName?_absolute_join c.sourceDir isPlain_programName hpath
  refine ⟨⟨⟨programName, isPlain_programName, Or.inr (hdir ▸ hpath)⟩, ?_⟩, fun he => ?_⟩
  · rw [hname, Target.fileName?_classFile]
    exact fun he => c.target.programName_ne_className (Option.some.inj he)
  · rw [he, Target.segmentFile_eq, Path.fileName?_join _ c.target.isPlain_segmentName] at hname
    exact absurd (Option.some.inj hname) c.target.segmentName_ne_programName

theorem concludes_assembling {linked : Path} (hidle : w.Idle) (hlacks : w.Lacks ['-', 'd'])
    (hP : setting.Outlasts product ['-', 'd'] P) (hw : P w) :
    Concludes setting.answers (setting.Conducts c)
      (Build.within .assembling do
        Build.enter c .linking .assembling
        Build.assemble c ground linked)
      (fun _ w' => (∃ content, w'.Holds ground.classFile content) ∧ P w')
      (fun e w' => (e.stage = .assembling ∧ Unassembled ground.classFile w') ∧ P w') w := by
  have hreport : setting.Conducts c (.report (Build.entering .linking .assembling)) w :=
    ⟨fun he => absurd he (by decide), fun he => absurd he (by decide)⟩
  have hlacks₁ : ∀ w₁, w.Heard w₁ → w₁.Lacks ['-', 'd'] := fun w₁ hheard run command hmem =>
    hlacks run command (hheard.runs ▸ hmem)
  refine concludes_stage hidle hreport (fun w₁ hheard => ?_) lasting_unassembled
    (fun w₁ hheard => Or.inl (hlacks₁ w₁ hheard)) hP hw
  exact (concludes_assemble (lets_stageLicence (by decide)) (hheard.idle hidle)
    (hlacks₁ w₁ hheard)).mono (fun _ _ h => h.2) fun _ _ h => h

theorem concludes_compiled (hlog : w.log = [])
    (hready : ∀ ground w', setting.Prepared c w ground w' → K ground.classFile w')
    (hkeep : ∀ outDir, c.outDir.absolute setting.currentDirectory = .ok outDir →
      ∀ flag, setting.Outlasts (c.target.classFile outDir) flag (K (c.target.classFile outDir))) :
    Concludes setting.answers (setting.Conducts c) (Build.compiled c)
      (fun made w' => (∃ outDir, c.outDir.absolute setting.currentDirectory = .ok outDir ∧
          made.1.classFile = c.target.classFile outDir) ∧
        (w'.Idle ∧ setting.HasCompiled c made.2 w') ∧ w'.Lacks ['-', 'd'] ∧
        K made.1.classFile w')
      (fun e w' => setting.Fails c K w e w') w := by
  have hruns : w.runs = [] := by rw [Scene.runs, hlog, List.filterMap_nil]
  have hidle : w.Idle := by simp [Scene.Idle, Scene.AtWork, hruns]
  refine Concludes.bind ((concludes_ground hidle).mono (fun _ _ h => h) fun _ _ h => Or.inl h) ?_
  intro ground w₁ hprepared
  have hkept₁ := hready ground w₁ hprepared
  have hnone := hprepared.readied.absent
  obtain ⟨outDir, classFile, template, sources⟩ := ground
  obtain rfl : classFile = c.target.classFile outDir := hprepared.classFile
  have houtDir : c.outDir.absolute setting.currentDirectory = .ok outDir := hprepared.outDir
  have hlacks : ∀ flag, w₁.Lacks flag := by
    intro flag run command hmem
    rw [hprepared.readied.runs, hruns] at hmem
    cases hmem
  have hreport : setting.Conducts c (.report (Build.entering .idle .preprocessing)) w₁ := by
    refine ⟨fun _ outDir' houtDir' => ?_, fun he => absurd he (by decide)⟩
    obtain rfl := Except.ok.inj (houtDir'.symm.trans houtDir)
    exact hnone
  have hfails : ∀ e w', w'.Lacks ['-', 'd'] ∧ K (c.target.classFile outDir) w' →
      setting.Fails c K w e w' :=
    fun e w' h => Or.inr ⟨outDir, houtDir, Or.inl h.1, h.2⟩
  have hwaits : ∀ flag, flag ≠ ['-', 'd'] → setting.Outlasts (c.target.classFile outDir) flag
      fun w => w.Lacks ['-', 'd'] ∧ K (c.target.classFile outDir) w :=
    fun flag hflag => (outlasts_lacks hflag).and (hkeep outDir houtDir flag)
  refine Concludes.bind ((concludes_preprocessing (hprepared.readied.idle hidle) hreport
    ((outlasts_lacks (show ['-', 'E'] ≠ ['-', 'O', '8'] by decide)).and (hwaits _ (by decide)))
    ⟨hlacks _, hlacks _, hkept₁⟩).mono (fun _ _ h => h) fun e w' h => hfails e w' h.2) ?_
  intro inputs w₂ hpreprocessed
  obtain ⟨⟨hidle₂, rfl⟩, hcompiler₂, hkept₂⟩ := hpreprocessed
  refine Concludes.bind ((concludes_compiling hidle₂ hcompiler₂ hprepared.sources
    (hwaits _ (by decide)) hkept₂).mono (fun _ _ h => h) hfails) ?_
  intro fragments w₃ hstage₃
  exact .of_pure ⟨⟨outDir, houtDir, rfl⟩, hstage₃⟩

/-- A build whose class file is removed keeps `K` from then on, and has left a class file when it
succeeds. -/
theorem concludes_stages (hdir : c.sourceDir = setting.directory) (hlog : w.log = [])
    (hready : ∀ ground w', setting.Prepared c w ground w' → K ground.classFile w')
    (hkeep : ∀ outDir, c.outDir.absolute setting.currentDirectory = .ok outDir →
      ∀ flag, setting.Outlasts (c.target.classFile outDir) flag (K (c.target.classFile outDir))) :
    Concludes setting.answers (setting.Conducts c) (Build.stages c)
      (fun artifact w' => ∃ outDir, c.outDir.absolute setting.currentDirectory = .ok outDir ∧
        artifact.classFile = c.target.classFile outDir ∧
        (∃ content, w'.Holds artifact.classFile content) ∧ K artifact.classFile w')
      (fun e w' => setting.Fails c K w e w') w := by
  rw [Build.stages_eq]
  refine Concludes.bind (concludes_compiled hlog hready hkeep) ?_
  intro ⟨ground, fragments⟩ w₃ ⟨⟨outDir, houtDir, hclassFile⟩, ⟨hidle₃, hcompiled⟩, hkept₃⟩
  obtain ⟨outDir', classFile, template, sources⟩ := ground
  obtain rfl : classFile = c.target.classFile outDir := hclassFile
  have hfails : ∀ e w', w'.Lacks ['-', 'd'] ∧ K (c.target.classFile outDir) w' →
      setting.Fails c K w e w' :=
    fun e w' h => Or.inr ⟨outDir, houtDir, Or.inl h.1, h.2⟩
  -- Up to the last stage no assembler is started.
  have hwaits : ∀ flag, flag ≠ ['-', 'd'] → setting.Outlasts (c.target.classFile outDir) flag
      fun w => w.Lacks ['-', 'd'] ∧ K (c.target.classFile outDir) w :=
    fun flag hflag => (outlasts_lacks hflag).and (hkeep outDir houtDir flag)
  refine Concludes.bind ((concludes_aggregating hdir hidle₃ hcompiled (hwaits _ (by decide))
    hkept₃).mono (fun _ _ h => h) hfails) ?_
  intro aggregated w₄ hstage₄
  obtain ⟨segment, segmentPath⟩ := aggregated
  refine Concludes.bind ((concludes_linking hdir hstage₄.1 (hwaits _ (by decide)) hstage₄.2).mono
    (fun _ _ h => h) hfails) ?_
  intro linked w₅ hstage₅
  obtain ⟨hidle₅, hassembler₅, hkept₅⟩ := hstage₅
  refine Concludes.bind ((concludes_assembling hidle₅ hassembler₅ (hkeep outDir houtDir _)
    hkept₅).mono (fun _ _ h => h) fun e w' h => Or.inr ⟨outDir, houtDir, Or.inr h.1, h.2⟩) ?_
  intro _ w₆ hstage₆
  exact .of_pure ⟨outDir, houtDir, rfl, hstage₆.1, hstage₆.2⟩

end Setting
end Bytelink
