import Bytelink.Proofs.Bench
import Bytelink.Proofs.Compiling
import Bytelink.Proofs.Preprocessing

/-!
# What a build computes

A build works through files that its stages share, and its preprocessor runs may overlap in any way.
Still it computes a function of the sources as they were when it began: when the assembler is
started, the program and the persisted segment are those that both tools and the linker make of the
sources in the order of their names, and the counts of the artifact are those of this segment
(`build_links_sources`).
-/
namespace Bytelink
namespace Site

variable {site : Site} {J : Workshop → Prop} {before w w' : Workshop} {c : Config}
variable {names : List Text} {fragments : List Fragment}

theorem stable_true : site.Stable fun _ => True := fun _ _ _ _ => trivial

theorem makes_within {α : Type} {stage : Stage} {part : Part α} {Q : α → Workshop → Prop}
    (h : site.Makes J part Q w) : site.Makes J (Build.within stage part) Q w := by
  refine Plan.Ensures.bind h ?_
  rintro (cause | value) w' hvalue
  · refine Plan.Ensures.bind (ensures_report stable_true trivial) ?_
    intro _ w' _
    exact Plan.ensures_pure.mpr fun value h => (nomatch h)
  · refine Plan.ensures_pure.mpr fun other h => ?_
    exact Except.ok.inj h ▸ hvalue value rfl

theorem makes_enter {previous stage : Stage} (hidle : w.Idle) :
    site.Makes J (Build.enter c previous stage) (fun _ w' => w' = w) w := by
  refine makes_reported hidle ?_
  cases c.cancel? with
  | none => exact succeeds_pure.mpr rfl
  | some token =>
      have hask : site.Ensures J (Plan.isCancelled token) (fun _ w' => w' = w) w :=
        ensures_of_idle hidle trivial fun _ _ h => h
      refine Succeeds.bind (succeeds_lift.mpr hask) ?_
      rintro (_ | _) w₂ rfl
      · exact succeeds_pure.mpr rfl
      · exact succeeds_throw

/-- A stage is entered and goes on from the state in which it was entered. -/
theorem makes_stage {α : Type} {previous stage : Stage} {part : Part α} {Q : α → Workshop → Prop}
    (hidle : w.Idle) (h : site.Makes J part Q w) :
    site.Makes J (Build.within stage do Build.enter c previous stage; part) Q w := by
  refine makes_within (Succeeds.bind (makes_enter hidle) ?_)
  rintro - w' rfl
  exact h

theorem ensures_reportAll {reporter : Reporter} {texts : List Text} (hidle : w.Idle) :
    site.Ensures J (Build.reportAll reporter texts) (fun _ w' => w' = w) w := by
  induction texts with
  | nil => exact Plan.ensures_pure.mpr rfl
  | cons text rest ih =>
      refine Plan.Ensures.bind (ensures_report (stable_of_idle hidle) rfl) ?_
      rintro - w' rfl
      exact ih

theorem makes_writeFile {path : Path} {name : Text} {content : Bytes} (hidle : w.Idle)
    (hplain : IsPlain name) (hpath : site.LeadsTo path name) :
    site.Makes J (Build.onFile path (Plan.writeFile path content)) (fun _ w' => w'.Idle ∧
      site.entry w' name = some (.file content) ∧
      ∀ other, IsPlain other → other ≠ name → site.entry w' other = site.entry w other) w := by
  refine makes_onFile (ensures_of_idle hidle trivial ?_)
  rintro reply w' ⟨hjobs, hok⟩ ⟨⟩ hreply
  exact ⟨idle_of_jobs_eq hidle hjobs, hok hreply name hplain hpath⟩

theorem makes_aggregate (hdir : c.sourceDir = site.directory) (hidle : w.Idle) :
    site.Makes J (Build.aggregate c fragments) (fun made w' => w'.Idle ∧
      Segment.ofFragments .standard fragments = .ok made.1 ∧
      site.entry w' c.target.segmentName = some (.file made.1.toBytes)) w := by
  unfold Build.aggregate
  refine Succeeds.bind (succeeds_lift.mpr (ensures_reportAll hidle)) ?_
  rintro - w₁ rfl
  cases hsegment : Segment.ofFragments .standard fragments with
  | error e => exact succeeds_throw
  | ok segment =>
      dsimp only
      rw [hdir, Target.segmentFile_eq]
      refine Succeeds.bind
        (makes_writeFile hidle c.target.isPlain_segmentName (Or.inl rfl)) ?_
      rintro - w₂ ⟨hidle₂, hentry, -⟩
      exact makes_reported hidle₂ (succeeds_pure.mpr ⟨hidle₂, rfl, hentry⟩)

theorem makes_linkAll {ground : Build.Ground} {segment : Segment}
    (hdir : c.sourceDir = site.directory) (hidle : w.Idle) :
    site.Makes J (Build.linkAll c ground fragments segment) (fun _ w' => w'.Idle ∧
      site.entry w' programName = some (.file (Utf8.encode
        (link ground.template c.target.name fragments segment).text)) ∧
      site.entry w' c.target.segmentName = site.entry w c.target.segmentName) w := by
  unfold Build.linkAll
  dsimp only
  refine makes_reported hidle ?_
  rw [hdir, linkedFile_eq]
  have habsolute : site.Makes J (Build.onFile (site.directory.join ⟨programName⟩)
      (Plan.absolute (site.directory.join ⟨programName⟩)))
      (fun path w' => w' = w ∧ site.LeadsTo path programName) w :=
    makes_onFile ((ensures_absolute (stable_of_idle hidle) rfl).mono
      fun _ _ h path hpath => ⟨h.1, Or.inr (h.2 path hpath)⟩)
  refine Succeeds.bind habsolute ?_
  rintro path w₂ ⟨rfl, hpath⟩
  refine Succeeds.bind (makes_writeFile hidle isPlain_programName hpath) ?_
  rintro - w₃ ⟨hidle₃, hentry, hkept⟩
  exact succeeds_pure.mpr ⟨hidle₃, hentry, hkept _ c.target.isPlain_segmentName
    c.target.segmentName_ne_programName⟩

theorem ensures_run_of_idle {command : Command} (hidle : w.Idle) (hJ : J w) :
    site.Ensures J command.run (fun _ _ => True) w := by
  have hlaunch : site.Ensures J (Plan.launch command) (fun _ _ => True) w :=
    ensures_of_idle hidle (fun _ => hJ) fun _ _ _ => trivial
  have hstart : site.Ensures J command.start (fun _ _ => True) w := by
    refine Plan.Ensures.bind hlaunch ?_
    rintro ((_ | reason) | run) w' -
    · exact Plan.ensures_pure.mpr trivial
    · refine Plan.Ensures.bind (ensures_report stable_true trivial) ?_
      exact fun _ _ _ => Plan.ensures_pure.mpr trivial
    · refine Plan.Ensures.bind (ensures_report stable_true trivial) ?_
      exact fun _ _ _ => Plan.ensures_pure.mpr trivial
  refine Plan.Ensures.bind hstart ?_
  rintro (e | run) w' -
  · exact Plan.ensures_pure.mpr trivial
  · exact Plan.Ensures.map (ensures_of_stable stable_true trivial trivial
      fun _ _ _ _ _ => trivial)

theorem makes_assemble {ground : Build.Ground} {linked : Path} (hidle : w.Idle) (hJ : J w) :
    site.Makes J (Build.assemble c ground linked) (fun _ _ => True) w := by
  have hcommand : site.Ensures J (c.command c.assembler ["-d", ground.outDir.text, linked.text])
      (fun _ w' => w' = w) w :=
    (ensures_command (stable_of_idle hidle) rfl).mono fun _ _ h => h.1
  refine Succeeds.bind (succeeds_lift.mpr hcommand) ?_
  rintro command w₁ rfl
  have hrun : site.Makes J (Build.runTool command) (fun _ _ => True) w₁ := by
    refine Succeeds.bind (succeeds_lift.mpr (ensures_run_of_idle hidle hJ)) ?_
    rintro (e | text) w' -
    · exact succeeds_throw
    · exact succeeds_pure.mpr trivial
  refine Succeeds.bind hrun ?_
  rintro - w₂ -
  have hask : site.Ensures J (Plan.isFile ground.classFile) (fun _ _ => True) w₂ :=
    ensures_of_stable stable_true trivial trivial fun _ _ _ _ _ => trivial
  refine Succeeds.bind (succeeds_lift.mpr hask) ?_
  intro isFile w₃ _
  split
  · refine Succeeds.bind (succeeds_lift.mpr (ensures_report stable_true trivial)) ?_
    exact fun _ _ _ => succeeds_lift.mpr (ensures_report stable_true trivial)
  · exact succeeds_throw

/-- The segment and the program that the sources with these names make, as they were in the state
`before`: those of the fragments that both tools make of the sources, in order. -/
def Links (site : Site) (c : Config) (before : Workshop) (names : List Text) (segment : Segment)
    (program : Program) : Prop :=
  ∃ template fragments, UsesTemplate c before template ∧
    List.Forall₂ (site.CompiledTo before) names fragments ∧
    linkFragments template c.target.name fragments = .ok (segment, program)

/-- The segment and the program of all sources stand in their files, and no run is under way. -/
def Linked (site : Site) (c : Config) (before w : Workshop) : Prop :=
  w.Idle ∧ ∃ names segment program,
    site.Lists before names ∧ site.Links c before names segment program ∧
    site.entry w programName = some (.file (Utf8.encode program.text)) ∧
    site.entry w c.target.segmentName = some (.file segment.toBytes)

def Counts (site : Site) (c : Config) (before : Workshop) (artifact : Artifact) : Prop :=
  ∃ names segment program, site.Lists before names ∧ site.Links c before names segment program ∧
    artifact.sources = names.length ∧ artifact.symbols = segment.size ∧
    artifact.segmentSize = segment.totalSize

theorem Lists.isSource (h : site.Lists before names)
    (hstems : site.content? before (sourceName []) = none) : ∀ name ∈ names, IsSource name := by
  intro name hname
  obtain ⟨hplain, ⟨stem, rfl⟩, content, hcontent⟩ := (h.complete name).mp hname
  refine ⟨hplain, stem, ?_, rfl⟩
  rintro rfl
  rw [content?_eq_some_iff.mpr hcontent] at hstems
  cases hstems

theorem Lists.nodup (h : site.Lists before names) : names.Nodup := by
  refine h.sorted.imp ?_
  rintro name _ hlt rfl
  exact List.lt_irrefl _ hlt

theorem makes_stages (hdir : c.sourceDir = site.directory) (hidle : before.Idle)
    (hstems : site.content? before (sourceName []) = none) :
    site.Makes (site.Linked c before) (Build.stages c)
      (fun artifact _ => site.Counts c before artifact) before := by
  -- No run is under way between two stages, so each meets the workshop as the last has left it.
  refine Succeeds.bind (makes_within (makes_prepare hdir hidle)) ?_
  rintro ground w₁ ⟨names, hground⟩
  have hpreprocess := makes_preprocessAll (J := site.Linked c before) hdir hground.idle
    (hground.lists.isSource hstems) hground.lists.nodup hground.contents
  rw [← hground.sources] at hpreprocess
  refine Succeeds.bind (makes_stage hground.idle hpreprocess) ?_
  rintro inputs w₂ ⟨hidle₂, rfl, hready⟩
  have hcompile := makes_compileAll (J := site.Linked c before) hdir hidle₂ hready
  rw [← hground.sources] at hcompile
  refine Succeeds.bind (makes_stage hidle₂ hcompile) ?_
  rintro fragments w₃ ⟨hidle₃, hfragments⟩
  refine Succeeds.bind (makes_stage hidle₃ (makes_aggregate hdir hidle₃)) ?_
  rintro ⟨segment, segmentPath⟩ w₄ ⟨hidle₄, hsegment, hpersisted⟩
  refine Succeeds.bind (makes_stage hidle₄ (makes_linkAll hdir hidle₄)) ?_
  rintro linked w₅ ⟨hidle₅, hprogram, hkept⟩
  have hlinks : site.Links c before names segment
      (link ground.template c.target.name fragments segment) :=
    ⟨ground.template, fragments, hground.template, hfragments, by simp [linkFragments, hsegment]⟩
  have hlinked : site.Linked c before w₅ :=
    ⟨hidle₅, names, segment, _, hground.lists, hlinks, hprogram, hkept.trans hpersisted⟩
  refine Succeeds.bind (makes_stage hidle₅ (makes_assemble hidle₅ hlinked)) ?_
  rintro - w₆ -
  refine succeeds_pure.mpr ⟨names, segment, _, hground.lists, hlinks, ?_, rfl, rfl⟩
  rw [hground.sources, List.length_map]

end Site

/-- Whatever the order in which the source directory lists its entries and in which preprocessor
runs overlap: when the assembler is started, the linked program and the persisted segment of all
sources stand in their files, and the counts of an artifact are those of the sources and of this
segment. All of it is what the tools make of the sources as they were before the build.

Files are told apart by their names in the source directory: a request or a tool that writes one of
them leaves all others as they are (`Site.Serves`, `Site.Works`), which excludes hard links among
them. Any request may be refused, for want of permissions or for another reason. -/
theorem build_links_sources {σ : Type} {host : Host σ} {view : σ → Workshop} {c : Config} {s : σ}
    {site : Site} (hdir : c.sourceDir = site.directory) (hhost : host.Follows view site.answers)
    (hidle : (view s).Idle) (hstems : site.content? (view s) (sourceName []) = none) :
    (∀ command s', (.launch command, s') ∈ (build c).asked host s →
      command.arguments.head? = some ['-', 'd'] → site.Linked c (view s) (view s')) ∧
    ∀ artifact, ((build c).run host s).1 = .ok artifact →
      site.Counts c (view s) artifact := by
  obtain ⟨hartifact, hasked⟩ :=
    Plan.Ensures.of_follows hhost (Site.makes_stages hdir hidle hstems)
  exact ⟨fun command s' hmem => hasked _ hmem, hartifact⟩

/-- A preprocessor that ends the last line, and a compiler that takes its input for a body and
declares a symbol where the letter `x` occurs. -/
def twoUnitsSite : Site where
  directory := ⟨['/', 's', 'r', 'c']⟩
  currentDirectory := ⟨['/']⟩
  tools :=
    { preprocess := fun content => some (content ++ [10])
      compile := fun content => (Utf8.decode? content).map fun text =>
        (text, if 'x' ∈ text then some "x:\n\t.ascii \"\\101\"\n" else none) }

/-- Two sources, the later one first. -/
def twoUnits : Bench where
  files := [(⟨"/src/b.c"⟩, Utf8.encode "symref x end"), (⟨"/src/a.c"⟩, Utf8.encode "nop")]
  jobs := []

def twoUnitsTarget : Target where
  name := ['A']
  valid :=
    { ne_nil := by decide
      allowed := fun c hc => by rw [List.mem_singleton.mp hc]; decide
      segments_ne_nil := by decide }

def twoUnitsConfig : Config :=
  { Config.new ⟨['/', 's', 'r', 'c']⟩ twoUnitsTarget with
    jobs := 2
    jobs_pos := by decide }

/-- The assembler leaves the class file. -/
abbrev twoUnitsHost : Host Bench := Bench.host twoUnitsSite ⟨"/src/A.class"⟩

def twoUnitsAssembly : Command where
  program := ⟨['j', 'a', 's', 'm', 'i', 'n']⟩
  arguments := [['-', 'd'], ['/', 's', 'r', 'c'], "/src/prog.j"]
  directory? := some ⟨['/', 's', 'r', 'c']⟩
  timeout? := none
  cancel? := none

theorem build_links_two_units :
    (∃ s', (.launch twoUnitsAssembly, s') ∈ (build twoUnitsConfig).asked twoUnitsHost twoUnits ∧
      twoUnitsSite.Linked twoUnitsConfig twoUnits.view s'.view) ∧
    ∃ artifact, ((build twoUnitsConfig).run twoUnitsHost twoUnits).1 = .ok artifact ∧
      artifact.symbols = 1 ∧ twoUnitsSite.Counts twoUnitsConfig twoUnits.view artifact := by
  have hhost : twoUnitsHost.Follows Bench.view twoUnitsSite.answers :=
    Bench.follows (Site.isTidy_of_root (show IsPlain ['s', 'r', 'c'] by decide) rfl)
  obtain ⟨hlinked, hcounts⟩ := build_links_sources (c := twoUnitsConfig) (s := twoUnits) rfl hhost
    (fun _ => rfl) (by decide)
  have hlaunch : .launch twoUnitsAssembly ∈
      ((build twoUnitsConfig).asked twoUnitsHost twoUnits).map (·.1) := by
    -- The kernel cannot compute `mergeSort`, whose recursion is well-founded.
    simp only [build, Build.stages, Build.prepare, Build.survey, Sources.discover,
      Text.mergeSort_eq_insertionSort]
    decide +kernel
  have hrun : ((build twoUnitsConfig).run twoUnitsHost twoUnits).1 =
      .ok ⟨⟨"/src/A.class"⟩, ⟨"/src/A.global"⟩, ⟨"/src/prog.j"⟩, 2, 1, 1⟩ := by
    simp only [build, Build.stages, Build.prepare, Build.survey, Sources.discover,
      Text.mergeSort_eq_insertionSort]
    decide +kernel
  obtain ⟨⟨_, s'⟩, hmem, rfl⟩ := List.mem_map.mp hlaunch
  exact ⟨⟨s', hmem, hlinked _ s' hmem rfl⟩, _, hrun, rfl, hcounts _ hrun⟩

end Bytelink
