import Bytelink.Proofs.Building
import Bytelink.Proofs.Rehearsal
import Bytelink.Proofs.SceneBuild

/-!
# The class file

Once a build has removed the old class file, whatever stands under the class path has been put there
by a tool run of this build (`Setting.Secured`): the steps of runs leave their names, and the build
itself writes to other entries of the source directory, which have other last names and are symbolic
links only where a run has made them so.

From this follow both main results. A class file that a successful build has left is new
(`class_file_of_build`). A build that fails leaves no class file, unless it fails before it has
removed the old one or in a run of the assembler (`class_file_of_failed_build`).
-/
namespace Bytelink

def Scene.Owes (w : Scene) (suspect : Command → Prop) (standing : Standing) : Prop :=
  ∃ run command, standing.maker? = some run ∧ (run, command) ∈ w.runs ∧ suspect command

namespace Setting

variable {setting : Setting} {suspect : Command → Prop} {product path : Path} {w w' : Scene}
variable {standing standing' : Standing}

/-- What matters for the class file: what stands under its path, and the symbolic links in the
source directory. -/
def Watches (setting : Setting) (product path : Path) (standing : Standing) : Prop :=
  path = product ∨ setting.IsEntry path ∧ standing.isLink

/-- All other runs may remove a class file or such a link, but make none. -/
def Spares (setting : Setting) (product : Path) (suspect : Command → Prop) : Prop :=
  ∀ run command before after, ¬ suspect command → setting.step run command before after →
    ∀ path standing, setting.Watches product path standing → after path = some standing →
      before path = some standing

/-- The path has been cleared. What stands there now, and every link in the source directory, is
owed to a suspect run. -/
structure Secured (setting : Setting) (suspect : Command → Prop) (product : Path) (w : Scene) :
    Prop where
  cleared : product ∈ w.cleared
  owed : ∀ path standing, setting.Watches product path standing →
    w.places path = some standing → w.Owes suspect standing

theorem secured_of_readied {before : Scene} (h : setting.Readied before product w)
    (hlinks : setting.NoLinks before.places) : setting.Secured suspect product w := by
  refine ⟨by simp [h.cleared], fun path standing hwatched hstanding => ?_⟩
  rcases hwatched with rfl | ⟨hentry, hlink⟩
  · rw [h.absent] at hstanding
    cases hstanding
  · rw [h.links.noLinks hlinks path standing hentry hstanding] at hlink
    cases hlink

theorem Watches.congr (h : setting.Watches product path standing)
    (hlike : standing.Like standing') : setting.Watches product path standing' :=
  h.imp_right fun ⟨hentry, hlink⟩ => ⟨hentry, hlike.1 ▸ hlink⟩

theorem owes_congr (h : w.Owes suspect standing) (hmaker : standing'.maker? = standing.maker?)
    (hruns : ∀ x ∈ w.runs, x ∈ w'.runs) : w'.Owes suspect standing' := by
  obtain ⟨run, command, hrun, hmem, hsuspect⟩ := h
  exact ⟨run, command, hmaker.trans hrun, hruns _ hmem, hsuspect⟩

theorem Secured.works (hspares : setting.Spares product suspect)
    (h : setting.Secured suspect product w) (hstep : setting.Works w w') :
    setting.Secured suspect product w' := by
  obtain ⟨run, command, hwork, ⟨hstep, hmade⟩, hlog⟩ := hstep
  have hruns : w'.runs = w.runs := by rw [Scene.runs, hlog, Scene.runs]
  have hkept : ∀ path standing, setting.Watches product path standing →
      w.places path = some standing → w'.Owes suspect standing := fun path standing hwatched hold =>
    owes_congr (h.owed path standing hwatched hold) rfl fun x hx => hruns ▸ hx
  constructor
  · rw [Scene.cleared, hlog]
    exact h.cleared
  · intro path standing hwatched hstanding
    by_cases hsuspect : suspect command
    · rcases hmade path standing hstanding with hold | hmaker
      · exact hkept path standing hwatched hold
      · exact ⟨run, command, hmaker, hruns ▸ hwork.1, hsuspect⟩
    · exact hkept path standing hwatched
        (hspares run command _ _ hsuspect hstep path standing hwatched hstanding)

theorem Secured.of_fades (h : setting.Secured suspect product w)
    (hruns : ∀ x ∈ w.runs, x ∈ w'.runs) (hcleared : product ∈ w'.cleared)
    (hfades : Fades w.places w'.places) : setting.Secured suspect product w' := by
  refine ⟨hcleared, fun path standing hwatched hstanding => ?_⟩
  obtain ⟨standing', hbefore, hlike⟩ := hfades path standing hstanding
  exact owes_congr (h.owed path standing' (hwatched.congr hlike) hbefore) hlike.2 hruns

/-- A write to another entry makes something under the class path only through a link, which is owed
to a suspect run itself. -/
theorem Secured.written (h : setting.Secured suspect product w)
    (hentry : setting.IsEntry path) (hname : path.fileName? ≠ product.fileName?)
    (hruns : ∀ x ∈ w.runs, x ∈ w'.runs) (hcleared : product ∈ w'.cleared)
    (hwritten : Written path w.places w'.places) : setting.Secured suspect product w' := by
  obtain ⟨hold, hnew⟩ := hwritten
  refine ⟨hcleared, fun other standing hwatched hstanding => ?_⟩
  cases hbefore : w.places other with
  | some before =>
      obtain ⟨standing', hafter, hlike⟩ := hold other before hbefore
      obtain rfl := Option.some.inj (hstanding.symm.trans hafter)
      exact owes_congr (h.owed other before (hwatched.congr hlike) hbefore) hlike.2 hruns
  | none =>
      obtain ⟨hnoLink, horigin⟩ := hnew other standing hbefore hstanding
      rcases hwatched with rfl | ⟨-, hisLink⟩
      · rcases horigin with hsame | ⟨link, hlink, hisLink, hmaker⟩
        · exact absurd hsame.symm hname
        · exact owes_congr (h.owed path link (Or.inr ⟨hentry, hisLink⟩) hlink) hmaker hruns
      · rw [hnoLink] at hisLink
        cases hisLink

theorem Secured.served {r : Request} {reply : r.Reply} {after : Places} {flag : Text}
    (h : setting.Secured suspect product w) (hr : setting.Minds product flag r)
    (hserves : setting.Serves w after r reply) :
    setting.Secured suspect product (w.reply after r reply) := by
  have hmem : ∀ {α : Type} (f : Exchange → Option α) x, x ∈ w.log.filterMap f →
      x ∈ (w.reply after r reply).log.filterMap f := by
    intro α f x hx
    rw [Scene.filterMap_reply]
    exact List.mem_append_left _ hx
  have hruns : ∀ x ∈ w.runs, x ∈ (w.reply after r reply).runs := hmem Exchange.started?
  have hcleared := hmem Exchange.cleared? product h.cleared
  have hsame : after = w.places → setting.Secured suspect product (w.reply after r reply) := by
    rintro rfl
    exact h.of_fades hruns hcleared (fades_refl _)
  cases r with
  | makeDirectories path => exact hr.elim
  | writeFile path content => exact h.written hr.1 hr.2 hruns hcleared hserves
  | removeFile path =>
      obtain ⟨hremoved, hkept, -⟩ := hserves
      by_cases hok : reply = .ok ()
      · exact h.of_fades hruns hcleared (hremoved hok).2
      · exact hsame (hkept hok)
  | launch command => exact hsame hserves.1
  | await run => exact hsame hserves.1
  | _ => exact hsame (hserves.places_eq trivial)

theorem Secured.answers {r : Request} {reply : r.Reply} {flag : Text}
    (hspares : setting.Spares product suspect) (hr : setting.Minds product flag r)
    (h : setting.Secured suspect product w) (ha : setting.answers r reply w w') :
    setting.Secured suspect product w' := by
  obtain ⟨between, after, hsteps, hserves, rfl⟩ := ha
  have hbetween : setting.Secured suspect product between := by
    clear hserves
    induction hsteps with
    | refl => exact h
    | tail _ hstep ih => exact ih.works hspares hstep
  exact hbetween.served hr hserves

variable {c : Config}

/-- The requests of a build, and what has become of the class file when it ends. -/
theorem concludes_secured (hdir : c.sourceDir = setting.directory) (hlog : w.log = [])
    (hlinks : setting.NoLinks w.places)
    (hspares : ∀ outDir, c.outDir.absolute setting.currentDirectory = .ok outDir →
      setting.Spares (c.target.classFile outDir) suspect) :
    Concludes setting.answers (setting.Conducts c) (Build.stages c)
      (fun artifact w' => ∃ outDir, c.outDir.absolute setting.currentDirectory = .ok outDir ∧
        artifact.classFile = c.target.classFile outDir ∧
        (∃ content, w'.Holds artifact.classFile content) ∧
        setting.Secured suspect artifact.classFile w')
      (fun e w' => setting.Fails c (setting.Secured suspect) w e w') w := by
  refine concludes_stages hdir hlog ?_ ?_
  · exact fun ground w' h => secured_of_readied h.readied hlinks
  · exact fun outDir houtDir flag r reply w w' hr h ha => h.answers (hspares outDir houtDir) hr ha

/-- What a build that has failed in a stage leaves under its class path: the old class file, no
file, or what an assembler run has left that has not succeeded. -/
def LeftBehind (product : Path) (stage : Stage) (before after : Scene) : Prop :=
  (stage = .idle ∧ product ∉ after.cleared ∧
    ∀ content, before.Holds product content → after.places product = before.places product) ∨
  (product ∈ after.cleared ∧ ∀ content, ¬ after.Holds product content) ∨
  product ∈ after.cleared ∧ stage = .assembling ∧
    ∃ run command, command.HasFlag ['-', 'd'] ∧ after.AtWork run command

theorem Fails.leftBehind {outDir : Path} {e : BuildError} (hlog : w.log = [])
    (houtDir : c.outDir.absolute setting.currentDirectory = .ok outDir)
    (h : setting.Fails c (setting.Secured fun command => command.HasFlag ['-', 'd']) w e w') :
    LeftBehind (c.target.classFile outDir) e.stage w w' := by
  have hcleared : w.cleared = [] := by rw [Scene.cleared, hlog]; rfl
  rcases h with ⟨hstage, hintact | ⟨outDir', houtDir', hreadied⟩⟩ |
    ⟨outDir', houtDir', hcause, hsecured⟩
  · refine Or.inl ⟨hstage, ?_, hintact.files _⟩
    rw [hintact.cleared, hcleared]
    exact List.not_mem_nil
  · obtain rfl := Except.ok.inj (houtDir'.symm.trans houtDir)
    refine Or.inr (Or.inl ⟨by simp [hreadied.cleared], fun content hholds => ?_⟩)
    obtain ⟨standing, hstanding, -⟩ := hholds
    rw [hreadied.absent] at hstanding
    cases hstanding
  · obtain rfl := Except.ok.inj (houtDir'.symm.trans houtDir)
    have hlacking : w'.Lacks ['-', 'd'] →
        ∀ content, ¬ w'.Holds (c.target.classFile outDir') content := by
      intro hlacks content hholds
      obtain ⟨standing, hstanding, -⟩ := hholds
      obtain ⟨run, command, _, hmem, hflag⟩ := hsecured.owed _ standing (Or.inl rfl) hstanding
      exact hlacks run command hmem hflag
    rcases hcause with hlacks | ⟨hstage, hlacks | hwork | ⟨-, hnone⟩⟩
    · exact Or.inr (Or.inl ⟨hsecured.cleared, hlacking hlacks⟩)
    · exact Or.inr (Or.inl ⟨hsecured.cleared, hlacking hlacks⟩)
    · exact Or.inr (Or.inr ⟨hsecured.cleared, hstage, hwork⟩)
    · exact Or.inr (Or.inl ⟨hsecured.cleared, hnone⟩)

end Setting

/-- Two sources, and the class file of an earlier build. -/
def staleClass : Scene :=
  .ofFiles [(⟨"/src/a.c"⟩, []), (⟨"/src/b.c"⟩, []), (⟨"/src/A.class"⟩, [1])]

/-- A failed build leaves no class file, with two exceptions. In the first stage it may fail before
it removes the old class file, which then stands as it was. In the last one an assembler run that
has been started and has not succeeded may leave anything. The other tools are supposed to make no
class file, nor links in the source directory through which the build could make one. -/
theorem class_file_of_failed_build {σ : Type} {host : Host σ} {view : σ → Scene} {c : Config}
    {s s' : σ} {setting : Setting} {outDir : Path} {e : BuildError}
    (hdir : c.sourceDir = setting.directory) (hhost : host.Follows view setting.answers)
    (hlog : (view s).log = []) (hlinks : setting.NoLinks (view s).places)
    (houtDir : c.outDir.absolute setting.currentDirectory = .ok outDir)
    (hspares : setting.Spares (c.target.classFile outDir) fun command =>
      command.HasFlag ['-', 'd'])
    (hrun : (build c).run host s = (.error e, s')) :
    Setting.LeftBehind (c.target.classFile outDir) e.stage (view s) (view s') := by
  have hspares' : ∀ outDir', c.outDir.absolute setting.currentDirectory = .ok outDir' →
      setting.Spares (c.target.classFile outDir') fun command => command.HasFlag ['-', 'd'] := by
    intro outDir' houtDir'
    obtain rfl := Except.ok.inj (houtDir'.symm.trans houtDir)
    exact hspares
  have hbuild := Setting.concludes_secured hdir hlog hlinks hspares'
  obtain ⟨⟨-, herror⟩, -⟩ := Plan.Ensures.of_follows hhost hbuild
  have hrun' : ((Build.stages c).run.run host s) = (.error e, s') := hrun
  rw [hrun'] at herror
  exact (herror e rfl).leftBehind hlog houtDir

theorem Rehearsal.spares {rehearsal : Rehearsal} {product : Path} {suspect : Command → Prop}
    (h : ∀ run, product ∉ (rehearsal.files run).map (·.1)) :
    rehearsal.setting.Spares product suspect := by
  intro run command before after _ hstep path standing hwatched hstanding
  rw [show after = rehearsal.play run before from hstep] at hstanding
  rcases Places.of_putAll hstanding with hold | ⟨-, hnoLink, hmem⟩
  · exact hold
  · rcases hwatched with rfl | ⟨-, hlink⟩
    · exact absurd hmem (h run)
    · rw [hnoLink] at hlink
      cases hlink

/-- The first compiler run succeeds, and the second fails and leaves nothing. -/
def breaking : Rehearsal :=
  { rebuilding with
    files := fun run => if run.number ≤ 3 then rebuilding.files run else []
    code := fun run => if run.number = 4 then 1 else 0 }

theorem not_mem_breaking (run : Run) :
    (⟨"/src/A.class"⟩ : Path) ∉ (breaking.files run).map (·.1) := by
  obtain ⟨n⟩ := run
  by_cases h : n ≤ 3
  · have hearly : ∀ n ≤ 3, (⟨"/src/A.class"⟩ : Path) ∉ (breaking.files ⟨n⟩).map (·.1) := by decide
    exact hearly n h
  · rw [show breaking.files ⟨n⟩ = [] from if_neg h]
    exact List.not_mem_nil

theorem class_file_of_broken_build :
    ∃ e s', (build twoUnitsConfig).run breaking.host staleClass = (.error e, s') ∧
      e.stage = .compiling ∧ Setting.LeftBehind ⟨"/src/A.class"⟩ e.stage staleClass s' := by
  have hresult : ((build twoUnitsConfig).run breaking.host staleClass).1 =
      .error ⟨.compiling, .tool (.unsuccessful "cc1 -O8 -fno-function-cse b.i -o b.j"
        (.exited 1) [])⟩ := by
    simp only [build, Build.stages, Build.prepare, Build.survey, Sources.discover,
      Text.mergeSort_eq_insertionSort]
    decide +kernel
  obtain ⟨s', hrun⟩ : ∃ s', (build twoUnitsConfig).run breaking.host staleClass =
      (.error ⟨.compiling, .tool (.unsuccessful "cc1 -O8 -fno-function-cse b.i -o b.j"
        (.exited 1) [])⟩, s') := ⟨_, Prod.ext hresult rfl⟩
  refine ⟨_, s', hrun, rfl, ?_⟩
  exact class_file_of_failed_build (c := twoUnitsConfig) (s := staleClass) rfl
    (Rehearsal.follows breaking) rfl (Scene.noLinks_ofFiles _ _) rfl
    (Rehearsal.spares not_mem_breaking) hrun

end Bytelink
