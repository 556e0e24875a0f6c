import Bytelink.Proofs.SceneWorkers

/-!
# Compiling, linking and assembling in a scene

The stages that follow preprocessing, with tools of any kind. What a compiler run makes of a unit is
told by the scenes before and after it (`Compiled`): the run starts where there is no data listing,
nothing else is at work, and its listing is taken before the next unit is compiled. So each fragment
has what its own run has left (`succeeds_compileAll`).
-/
namespace Bytelink

/-- Where the compiler leaves the static data of a unit. -/
def Config.listingPath (c : Config) : Path := c.sourceDir.join Build.listingFile

/-- What the compiler is told of a unit. -/
def compilerArguments (source : Path) : List Text :=
  ["-O8", "-fno-function-cse", preprocessedName source, "-o", intermediateName source ['j']]

/-- A unit with the compiler run of it and what has come of it. -/
structure Compilation where
  source : Path
  run : Run
  command : Command
  fragment : Fragment

namespace Setting

/-- The fragment is what the run has made of its unit, and its listing has been taken. -/
structure Compiled (setting : Setting) (c : Config) (u : Compilation) (w : Scene) : Prop where
  arguments : u.command.arguments = compilerArguments u.source
  origin : u.fragment.origin = intermediateName u.source ['c']
  work : ∃ before after, before.places c.listingPath = none ∧
    setting.Ran before u.run u.command after ∧ Taken c.listingPath after w u.fragment.listing

/-- Between the two scenes these units have been compiled, one after another. -/
structure CompiledAll (setting : Setting) (c : Config) (w : Scene) (units : List Compilation)
    (w' : Scene) : Prop where
  runs : w'.runs = w.runs ++ units.map fun u => (u.run, u.command)
  each : ∀ u ∈ units, ∃ w₁, setting.Compiled c u w₁
  last : ∀ u, units.getLast? = some u → setting.Compiled c u w'

variable {setting : Setting} {l : Licence} {w w' w'' : Scene} {c : Config}

theorem Taken.heard {path : Path} {text? : Option Text} (h : Taken path w w' text?)
    (h' : w'.Heard w'') : Taken path w w'' text? := by
  cases text? with
  | none => exact ⟨h.1.trans h', h.2⟩
  | some text => exact ⟨h.1.heard h', h.2⟩

theorem Taken.idle {path : Path} {text? : Option Text} (h : Taken path w w' text?)
    (hidle : w.Idle) : w'.Idle := by
  cases text? with
  | none => exact h.1.idle hidle
  | some text => exact h.1.idle hidle

theorem Taken.runs {path : Path} {text? : Option Text} (h : Taken path w w' text?) :
    w'.runs = w.runs := by
  cases text? with
  | none => exact h.1.runs
  | some text => exact h.1.runs

theorem Compiled.heard {u : Compilation} (h : setting.Compiled c u w) (h' : w.Heard w') :
    setting.Compiled c u w' := by
  obtain ⟨before, after, hnone, hran, htaken⟩ := h.work
  exact ⟨h.arguments, h.origin, before, after, hnone, hran, htaken.heard h'⟩

theorem CompiledAll.heard {units : List Compilation} (h : setting.CompiledAll c w units w')
    (h' : w'.Heard w'') : setting.CompiledAll c w units w'' :=
  ⟨h'.runs.trans h.runs, h.each, fun u hu => (h.last u hu).heard h'⟩

theorem succeeds_command {program : Path} {arguments : List Text} (hidle : w.Idle) :
    Succeeds setting.answers l.Allows
      (liftM (c.command program arguments) : ExceptT Cause Plan Command)
      (fun command w' => w.Heard w' ∧ command.arguments = arguments) w :=
  succeeds_lift.mpr (ensures_command (lasting_heard hidle) (.refl w))

theorem concludes_runTool {command : Command} (hidle : w.Idle) (hstarts : l.starts command w) :
    Concludes setting.answers l.Allows (Build.runTool command)
      (fun _ w' => ∃ run, setting.Ran w run command w')
      (fun _ w' => w.Heard w' ∨ ∃ run, setting.Alone w run command w') w := by
  refine Concludes.bind (.of_lift (ensures_run hidle hstarts)) ?_
  intro reply w₁ ⟨hran, hfailed⟩
  cases reply with
  | error e => exact .of_throw (hfailed e rfl)
  | ok text => exact .of_pure (hran text rfl)

/-- A unit is compiled while there is no data listing. -/
theorem succeeds_compile {source : Path}
    (hl : ∀ command w, command.HasFlag ['-', 'O', '8'] → w.places c.listingPath = none →
      l.starts command w) (hidle : w.Idle) :
    Succeeds setting.answers l.Allows (Build.compile c source (preprocessedName source))
      (fun f w' => w'.Idle ∧ ∃ run command, w'.runs = w.runs ++ [(run, command)] ∧
        setting.Compiled c ⟨source, run, command, f⟩ w') w := by
  dsimp only [Build.compile]
  refine Succeeds.bind (concludes_removeStale hidle).succeeds ?_
  intro _ w₁ hcleared
  have hidle₁ := hcleared.idle hidle
  have hreport : ∀ text, ¬ (⟨.info, .pipeline, text⟩ : Record).Enters := fun _ =>
    Record.not_enters_of_level (by simp)
  refine Succeeds.bind
    (succeeds_lift.mpr (ensures_report (lasting_heard hidle₁) (.refl w₁) (hreport _))) ?_
  intro _ w₂ hheard₂
  refine Succeeds.bind (succeeds_command (hheard₂.idle hidle₁)) ?_
  intro command w₃ hmade
  obtain ⟨hheard₃, harguments⟩ := hmade
  have hcleared₃ := (hcleared.heard hheard₂).heard hheard₃
  have hflag : command.HasFlag ['-', 'O', '8'] := Command.hasFlag_of_arguments harguments rfl
  refine Succeeds.bind
    (concludes_runTool (hcleared₃.idle hidle) (hl command w₃ hflag hcleared₃.absent)).succeeds ?_
  intro _ w₄ hsuccess
  obtain ⟨run, hran⟩ := hsuccess
  have hread : Succeeds setting.answers l.Allows
      (Build.onFile (c.sourceDir.join ⟨intermediateName source ['j']⟩)
        (Plan.readText (c.sourceDir.join ⟨intermediateName source ['j']⟩)))
      (fun _ w₅ => w₄.Heard w₅) w₄ := by
    refine (concludes_onFile (E := fun _ => True) ((ensures_readText hran.idle).mono ?_)).succeeds
    exact fun _ _ h => ⟨fun _ _ => h.1, fun _ _ => trivial⟩
  refine Succeeds.bind hread ?_
  intro body w₅ hheard₅
  have hran₅ : setting.Ran w₃ run command w₅ := hran.heard hheard₅
  refine (succeeds_takeListing hran₅.idle rfl).mono ?_
  intro f w₆ hmade
  obtain ⟨horigin, htaken⟩ := hmade
  refine ⟨htaken.idle hran₅.idle, run, command, ?_, harguments, horigin, w₃, w₅,
    hcleared₃.absent, hran₅, htaken⟩
  rw [htaken.runs, hran₅.runs, hcleared₃.runs]

theorem CompiledAll.nil : setting.CompiledAll c w [] w :=
  ⟨by simp, fun _ h => (nomatch h), fun _ h => (nomatch h)⟩

theorem CompiledAll.cons {u : Compilation} {units : List Compilation}
    (hruns : w'.runs = w.runs ++ [(u.run, u.command)]) (hu : setting.Compiled c u w')
    (h : setting.CompiledAll c w' units w'') (hunits : units = [] → w'' = w') :
    setting.CompiledAll c w (u :: units) w'' := by
  refine ⟨?_, fun v hv => ?_, fun v hv => ?_⟩
  · rw [h.runs, hruns, List.map_cons, List.append_assoc, List.singleton_append]
  · rcases List.mem_cons.mp hv with rfl | hv
    · exact ⟨w', hu⟩
    · exact h.each v hv
  · cases units with
    | nil =>
        obtain rfl : u = v := by simpa using hv
        exact hunits rfl ▸ hu
    | cons next rest => exact h.last v (by simpa using hv)

/-- Units are compiled one after another, each by a run of its own. -/
theorem succeeds_compileAll {sources : List Path}
    (hl : ∀ command w, command.HasFlag ['-', 'O', '8'] → w.places c.listingPath = none →
      l.starts command w) (hidle : w.Idle) :
    Succeeds setting.answers l.Allows
      (Build.compileAll c (sources.zip (sources.map preprocessedName)))
      (fun fragments w' => w'.Idle ∧ ∃ units, setting.CompiledAll c w units w' ∧
        units.map (·.source) = sources ∧ units.map (·.fragment) = fragments ∧
        (sources = [] → w' = w)) w := by
  induction sources generalizing w with
  | nil => exact succeeds_pure.mpr ⟨hidle, [], .nil, rfl, rfl, fun _ => rfl⟩
  | cons source rest ih =>
      rw [List.map_cons, List.zip_cons_cons, Build.compileAll]
      refine Succeeds.bind (succeeds_compile hl hidle) ?_
      intro f w₁ ⟨hidle₁, run, command, hruns, hcompiled⟩
      refine Succeeds.bind (ih hidle₁) ?_
      intro fragments w₂ ⟨hidle₂, units, hall, hsources, hfragments, hnone⟩
      refine succeeds_pure.mpr
        ⟨hidle₂, ⟨source, run, command, f⟩ :: units, ?_, ?_, ?_, fun h => (nomatch h)⟩
      · refine .cons hruns hcompiled hall fun hunits => hnone ?_
        rw [← hsources, hunits, List.map_nil]
      · rw [List.map_cons, hsources]
      · rw [List.map_cons, hfragments]

theorem ensures_reportAll {reporter : Reporter} {texts : List Text} (hidle : w.Idle)
    (hreporter : reporter ≠ .pipeline) :
    (Build.reportAll reporter texts).Ensures setting.answers l.Allows
      (fun _ w' => w.Heard w') w := by
  induction texts generalizing w with
  | nil => exact Plan.ensures_pure.mpr (.refl w)
  | cons text rest ih =>
      refine Plan.Ensures.bind (ensures_report (lasting_heard hidle) (.refl w)
        (Record.not_enters_of_reporter hreporter)) ?_
      intro _ w₁ hheard
      exact (ih (hheard.idle hidle)).mono fun _ _ h => hheard.trans h

theorem succeeds_writeFile {path : Path} {content : Bytes} (hidle : w.Idle)
    (hwrites : l.writes path content w) :
    Succeeds setting.answers l.Allows (Build.onFile path (Plan.writeFile path content))
      (fun _ w' => w'.Idle) w := by
  have hwritten : (Plan.writeFile path content).Ensures setting.answers l.Allows
      (fun _ w' => w'.Idle) w := by
    refine ensures_of_lasting (r := .writeFile path content) (lasting_heard hidle) (.refl w)
      hwrites ?_
    intro reply w₁ after hheard _
    exact (hheard.idle hidle).of_log (Scene.runs_reply after (by simp) reply)
      (Scene.ended_reply after (by simp) reply)
  refine (concludes_onFile (E := fun _ => True) (hwritten.mono ?_)).succeeds
  exact fun _ _ h => ⟨fun _ _ => h, fun _ _ => trivial⟩

theorem not_enters_wrote {text : Text} (h : ("wrote " : Text) <+: text) :
    ¬ (⟨.debug, .pipeline, text⟩ : Record).Enters := by
  refine Record.not_enters_of_start h ?_
  intro previous stage
  cases previous <;> cases stage <;> decide

theorem succeeds_aggregate {fragments : List Fragment} (hidle : w.Idle)
    (hl : ∀ w' segment, w.Heard w' → Segment.ofFragments .standard fragments = .ok segment →
      l.writes (c.sourceDir.join (Build.segmentFile c.target)) segment.toBytes w') :
    Succeeds setting.answers l.Allows (Build.aggregate c fragments) (fun _ w' => w'.Idle) w := by
  unfold Build.aggregate
  refine Succeeds.bind (succeeds_lift.mpr (ensures_reportAll hidle (by simp))) ?_
  intro _ w₁ hheard
  cases hsegment : Segment.ofFragments .standard fragments with
  | error e => exact succeeds_throw
  | ok segment =>
      refine Succeeds.bind
        (succeeds_writeFile (hheard.idle hidle) (hl w₁ segment hheard hsegment)) ?_
      intro _ w₂ hidle₂
      refine Succeeds.bind (succeeds_lift.mpr
        (ensures_report (lasting_heard hidle₂) (.refl w₂) (not_enters_wrote ?_))) ?_
      · simp only [List.append_assoc]
        exact List.prefix_append _ _
      · intro _ w₃ hheard₃
        exact succeeds_pure.mpr (hheard₃.idle hidle₂)

theorem succeeds_linkAll {ground : Build.Ground} {fragments : List Fragment} {segment : Segment}
    (hidle : w.Idle)
    (hl : ∀ w' path content,
      (c.sourceDir.join Build.linkedFile).absolute setting.currentDirectory = .ok path →
      l.writes path content w') :
    Succeeds setting.answers l.Allows (Build.linkAll c ground fragments segment)
      (fun _ w' => w'.Idle) w := by
  unfold Build.linkAll
  dsimp only
  refine Succeeds.bind (succeeds_lift.mpr (ensures_report (lasting_heard hidle) (.refl w)
    (Record.not_enters_of_reporter (by simp)))) ?_
  intro _ w₁ hheard₁
  have habsolute : Succeeds setting.answers l.Allows
      (Build.onFile (c.sourceDir.join Build.linkedFile)
        (Plan.absolute (c.sourceDir.join Build.linkedFile)))
      (fun path w' => w₁.Heard w' ∧
        (c.sourceDir.join Build.linkedFile).absolute setting.currentDirectory = .ok path) w₁ := by
    refine (concludes_onFile (E := fun _ => True)
      ((ensures_absolute (lasting_heard (hheard₁.idle hidle)) (.refl w₁)).mono ?_)).succeeds
    exact fun _ _ h => ⟨fun path hpath => ⟨h.1, h.2 path hpath⟩, fun _ _ => trivial⟩
  refine Succeeds.bind habsolute ?_
  intro path w₂ ⟨hheard₂, hpath⟩
  refine Succeeds.bind (succeeds_writeFile ((hheard₁.trans hheard₂).idle hidle)
    (hl w₂ path _ hpath)) ?_
  intro _ w₃ hidle₃
  exact succeeds_pure.mpr hidle₃

/-- Why there may be no class file after the build: no assembler has been started, one has not
succeeded, or it has not left a class file. -/
def Unassembled (classFile : Path) (w : Scene) : Prop :=
  w.Lacks ['-', 'd'] ∨ (∃ run command, command.HasFlag ['-', 'd'] ∧ w.AtWork run command) ∨
    w.Idle ∧ ∀ content, ¬ w.Holds classFile content

theorem lasting_unassembled {path : Path} : setting.Lasting (Unassembled path) := by
  refine lasting_of_log fun w w' h hruns hended hplaces => ?_
  rcases h with hlacks | ⟨run, command, hflag, hwork⟩ | ⟨hidle, hnone⟩
  · exact Or.inl fun run command hmem => hlacks run command (hruns ▸ hmem)
  · refine Or.inr (Or.inl ⟨run, command, hflag, ?_⟩)
    rwa [Scene.AtWork, hruns, hended]
  · refine Or.inr (Or.inr ⟨hidle.of_log hruns hended, ?_⟩)
    simp only [Scene.Holds, hplaces hidle]
    exact hnone

theorem ensures_isFile {path : Path} (hidle : w.Idle) :
    (Plan.isFile path).Ensures setting.answers l.Allows (fun reply w' => w.Heard w' ∧
      (reply = true ↔ ∃ content, w.Holds path content)) w := by
  refine ensures_of_lasting (r := .isFile path) (lasting_heard hidle) (.refl w) trivial ?_
  intro reply w₁ after hheard ⟨hafter, hfile⟩
  subst hafter
  simp only [hheard.holds_iff] at hfile
  exact ⟨hheard.trans (.of_question (r := .isFile path) trivial reply), hfile⟩

theorem not_enters_done : ¬ (⟨.debug, .pipeline,
    Stage.assembling.text ++ " -> " ++ Stage.done.text⟩ : Record).Enters := by
  intro ⟨previous, stage, hstage, he⟩
  have htext := congrArg Record.text he
  revert htext
  cases previous <;> cases stage <;> first | exact absurd rfl hstage | decide

theorem concludes_assemble {ground : Build.Ground} {linked : Path} (hl : l.Lets ['-', 'd'])
    (hidle : w.Idle) (hlacks : w.Lacks ['-', 'd']) :
    Concludes setting.answers l.Allows (Build.assemble c ground linked)
      (fun _ w' => w'.Idle ∧ ∃ content, w'.Holds ground.classFile content)
      (fun _ w' => Unassembled ground.classFile w') w := by
  have hcommand : Concludes setting.answers l.Allows
      (liftM (c.command c.assembler ["-d", ground.outDir.text, linked.text]) :
        ExceptT Cause Plan Command)
      (fun command w' => w.Heard w' ∧ command.HasFlag ['-', 'd'])
      (fun _ w' => Unassembled ground.classFile w') w := by
    refine .of_lift ((ensures_command (lasting_heard hidle) (.refl w)).mono ?_)
    intro command w₁ hmade
    exact ⟨hmade.1, Command.hasFlag_of_arguments hmade.2 rfl⟩
  refine Concludes.bind hcommand ?_
  intro command w₁ hmade
  obtain ⟨hheard₁, hflag⟩ := hmade
  have hrun : Concludes setting.answers l.Allows (Build.runTool command) (fun _ w' => w'.Idle)
      (fun _ w' => Unassembled ground.classFile w') w₁ := by
    refine (concludes_runTool (hheard₁.idle hidle) (hl command w₁ hflag)).mono ?_ ?_
    · intro _ w₂ h
      obtain ⟨run, hran⟩ := h
      exact hran.idle
    · intro _ w₂ h
      rcases h with hheard₂ | ⟨run, halone⟩
      · refine Or.inl fun run command hmem => hlacks run command ?_
        rwa [hheard₂.runs, hheard₁.runs] at hmem
      · exact Or.inr (Or.inl ⟨run, command, hflag, by simp [halone.runs], halone.fresh⟩)
  refine Concludes.bind hrun ?_
  intro _ w₂ hidle₂
  refine Concludes.bind (.of_lift (ensures_isFile hidle₂)) ?_
  intro isFile w₃ hanswer
  obtain ⟨hheard₃, hfile⟩ := hanswer
  have hidle₃ := hheard₃.idle hidle₂
  cases isFile with
  | false =>
      refine .of_throw (Or.inr (Or.inr ⟨hidle₃, fun content hholds => ?_⟩))
      exact absurd (hfile.mpr ⟨content, hheard₃.holds_iff.mp hholds⟩) (by simp)
  | true =>
      obtain ⟨content, hholds⟩ := hfile.mp rfl
      refine Concludes.bind (concludes_report (lasting_heard hidle₃) (.refl w₃) not_enters_done) ?_
      intro _ w₄ hheard₄
      refine (concludes_report (lasting_heard hidle₃) hheard₄
        (Record.not_enters_of_level (by simp))).mono ?_ fun _ _ h => h
      intro _ w₅ hheard₅
      exact ⟨hheard₅.idle hidle₃, content, (hheard₃.trans hheard₅).holds_iff.mpr hholds⟩

end Setting
end Bytelink
