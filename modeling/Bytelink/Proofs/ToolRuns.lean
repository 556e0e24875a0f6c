import Bytelink.Proofs.Workshop

/-!
# Requests and tool runs in a workshop

What the requests of a build ensure, one rule for each, and what one run of a tool ensures. While no
run is under way a request meets the workshop as the one before it left it. While runs are under way
only what their steps keep can be relied on (`Site.Stable`).

`Site.ensures_run` is the rule for a command that has the workshop to itself: if it succeeds, its
duty has been done (`Duty.Done`): the files that it makes of its input are there, and no
other entry has changed.
-/
namespace Bytelink

def beforeAssembly (J : Workshop → Prop) : Request → Workshop → Prop
  | .launch command, w => command.arguments.head? = some ['-', 'd'] → J w
  | _, _ => True

namespace Site

variable {site : Site} {J P : Workshop → Prop} {α : Type} {w w' : Workshop}

abbrev Ensures (site : Site) (J : Workshop → Prop) (p : Plan α) (Q : α → Workshop → Prop)
    (w : Workshop) : Prop :=
  p.Ensures site.answers (beforeAssembly J) Q w

/-- The same for a part of a build, if it succeeds. -/
abbrev Makes (site : Site) (J : Workshop → Prop) {ε : Type} (p : ExceptT ε Plan α)
    (Q : α → Workshop → Prop) (w : Workshop) : Prop :=
  Succeeds site.answers (beforeAssembly J) p Q w

/-- No step of a run ends the condition. -/
def Stable (site : Site) (P : Workshop → Prop) : Prop :=
  ∀ w w', P w → site.Works w w' → P w'

theorem Stable.steps (hP : site.Stable P) (hw : P w) (h : Relation.ReflTransGen site.Works w w') :
    P w' := by
  induction h with
  | refl => exact hw
  | tail _ hstep ih => exact hP _ _ ih hstep

theorem not_works_of_idle (h : w.Idle) : ¬ site.Works w w' := by
  intro hstep
  cases hstep with
  | load hjob | write hjob | finish hjob | fail hjob | spoil hjob | exit hjob =>
      simp [h _] at hjob

theorem stable_of_idle (h : w.Idle) : site.Stable (· = w) := by
  rintro _ w' rfl hstep
  exact absurd hstep (not_works_of_idle h)

theorem ensures_of_stable {r : Request} {Q : r.Reply → Workshop → Prop} (hP : site.Stable P)
    (hw : P w) (hJ : beforeAssembly J r w)
    (hQ : ∀ reply w₁ w', P w₁ → site.Serves r reply w₁ w' → Q reply w') :
    site.Ensures J (Plan.request r) Q w := by
  refine Plan.ensures_request.mpr ⟨hJ, ?_⟩
  rintro reply w' ⟨w₁, hsteps, hserves⟩
  exact hQ reply w₁ w' (hP.steps hw hsteps) hserves

theorem ensures_of_idle {r : Request} {Q : r.Reply → Workshop → Prop} (h : w.Idle)
    (hJ : beforeAssembly J r w) (hQ : ∀ reply w', site.Serves r reply w w' → Q reply w') :
    site.Ensures J (Plan.request r) Q w := by
  refine ensures_of_stable (stable_of_idle h) rfl hJ ?_
  rintro reply w₁ w' rfl hserves
  exact hQ reply w' hserves

theorem ensures_report {level : Level} {reporter : Reporter} {text : Text} (hP : site.Stable P)
    (hw : P w) : site.Ensures J (Plan.report level reporter text) (fun _ w => P w) w := by
  refine ensures_of_stable hP hw trivial ?_
  rintro _ w₁ w' hw₁ rfl
  exact hw₁

theorem ensures_turn {workers : List (Option Run)} (hP : site.Stable P) (hw : P w) :
    site.Ensures J (Plan.turn workers) (fun _ w => P w) w := by
  refine ensures_of_stable hP hw trivial ?_
  rintro _ w₁ w' hw₁ rfl
  exact hw₁

end Site

theorem Path.absolute_of_isAbsolute {p : Path} (h : p.isAbsolute = true) (a b : Path) :
    p.absolute a = p.absolute b := by
  simp only [Path.absolute, Path.start, h, if_true]

namespace Site

variable {site : Site} {J P : Workshop → Prop} {w : Workshop}

theorem ensures_absolute {path : Path} (hP : site.Stable P) (hw : P w) :
    site.Ensures J (Plan.absolute path) (fun reply w => P w ∧
      ∀ full, reply = .ok full → path.absolute site.currentDirectory = .ok full) w := by
  unfold Plan.absolute
  split
  · rename_i hself
    refine Plan.ensures_pure.mpr ⟨hw, ?_⟩
    intro full hfull
    rw [← hfull]
    rw [Bool.or_eq_true] at hself
    rcases hself with hempty | habs
    · simp [Path.absolute, hempty]
    · exact Path.absolute_of_isAbsolute habs _ _
  · have hcurrent : site.Ensures J Plan.currentDirectory (fun reply w => P w ∧
        ∀ directory, reply = .ok directory → directory = site.currentDirectory) w := by
      refine ensures_of_stable hP hw trivial ?_
      rintro reply w₁ w' hw₁ ⟨rfl, hreply⟩
      exact ⟨hw₁, hreply⟩
    refine Plan.Ensures.bind hcurrent ?_
    rintro (e | directory) w ⟨hw, hdirectory⟩
    · exact Plan.ensures_pure.mpr ⟨hw, fun full hfull => by cases hfull⟩
    · refine Plan.ensures_pure.mpr ⟨hw, fun full hfull => ?_⟩
      rw [← hdirectory directory rfl]
      exact hfull

theorem ensures_resolveTool {program : Path} (hP : site.Stable P) (hw : P w) :
    site.Ensures J (Config.resolveTool program) (fun _ w => P w) w := by
  unfold Config.resolveTool
  split
  · refine Plan.Ensures.bind (ensures_absolute hP hw) ?_
    rintro (e | path) w ⟨hw, -⟩
    · exact Plan.ensures_pure.mpr hw
    · exact Plan.ensures_pure.mpr hw
  · exact Plan.ensures_pure.mpr hw

theorem ensures_command {c : Config} {program : Path} {arguments : List Text} (hP : site.Stable P)
    (hw : P w) : site.Ensures J (c.command program arguments) (fun command w => P w ∧
      command.arguments = arguments ∧ command.directory? = some c.sourceDir) w := by
  refine Plan.Ensures.bind (ensures_resolveTool hP hw) ?_
  intro program w hw
  exact Plan.ensures_pure.mpr ⟨hw, rfl, rfl⟩

/-- A command that is started becomes a run of its own; one that is refused changes nothing. -/
theorem ensures_start {command : Command} {P' : Run → Workshop → Prop} (hP : site.Stable P)
    (hP' : ∀ run, site.Stable (P' run)) (hw : P w)
    (hflag : command.arguments.head? ≠ some ['-', 'd'])
    (hlaunch : ∀ w run, P w → w.jobs run = none →
      P' run (w.setJob run (some ⟨site.duty? command, .started⟩))) :
    site.Ensures J command.start (fun reply w =>
      (∀ run, reply = .ok run → P' run w) ∧ ∀ e, reply = .error e → P w) w := by
  have hreply : site.Ensures J (Plan.launch command) (fun reply w =>
      (∀ run, reply = .ok run → P' run w) ∧ ∀ e, reply = .error e → P w) w := by
    refine ensures_of_stable hP hw (fun h => absurd h hflag) ?_
    rintro reply w₁ w' hw₁ ⟨hrefused, hstarted⟩
    refine ⟨?_, ?_⟩
    · intro run hrun
      obtain ⟨hfree, rfl⟩ := hstarted run hrun
      exact hlaunch w₁ run hw₁ hfree
    · intro e he
      exact hrefused e he ▸ hw₁
  refine Plan.Ensures.bind hreply ?_
  rintro ((_ | reason) | run) w ⟨hrun, herror⟩
  · exact Plan.ensures_pure.mpr ⟨fun run h => (nomatch h), fun e _ => herror _ rfl⟩
  · refine Plan.Ensures.bind (ensures_report hP (herror _ rfl)) ?_
    intro _ w hw
    exact Plan.ensures_pure.mpr ⟨fun run h => (nomatch h), fun e _ => hw⟩
  · refine Plan.Ensures.bind (ensures_report (hP' run) (hrun run rfl)) ?_
    intro _ w hw
    refine Plan.ensures_pure.mpr ⟨fun other h => ?_, fun e h => (nomatch h)⟩
    exact Except.ok.inj h ▸ hw

theorem outcome_eq_ok_iff (command : Command) {ending : Ending} :
    (∃ text, command.outcome ending = .ok text) ↔
      ∃ status output, ending = .exited status output ∧ status.isSuccess := by
  cases ending with
  | exited status output =>
      by_cases h : status.isSuccess
      · simp [Command.outcome, h]
      · simp [Command.outcome, h]
  | timedOut | cancelled | lost => simp [Command.outcome]

/-- Whoever waits for a run learns whether it has succeeded. -/
theorem ensures_finish {command : Command} {run : Run} {Q : Except ToolError Text → Workshop → Prop}
    (hP : site.Stable P) (hw : P w)
    (hok : ∀ w job text, P w → w.jobs run = some job → job.phase = .succeeded →
      Q (.ok text) (w.setJob run none))
    (herror : ∀ w job e, P w → w.jobs run = some job → job.phase = .failed → Q (.error e) w)
    (hnone : ∀ w reply, P w → w.jobs run = none → Q reply w) :
    site.Ensures J (command.finish run) Q w := by
  refine Plan.Ensures.map (ensures_of_stable hP hw trivial ?_)
  rintro (ending : Ending) w₁ w' hw₁ ⟨hgone, hjob⟩
  cases hrun : w₁.jobs run with
  | none =>
      obtain rfl := hgone hrun
      exact hnone w' _ hw₁ hrun
  | some job =>
      obtain ⟨hsuccess, hfailure⟩ := hjob job hrun
      cases houtcome : command.outcome ending with
      | ok text =>
          obtain ⟨hphase, rfl⟩ := hsuccess ((outcome_eq_ok_iff command).mp ⟨text, houtcome⟩)
          exact hok w₁ job text hw₁ hrun hphase
      | error e =>
          have hnot : ¬ ∃ status output, ending = .exited status output ∧ status.isSuccess := by
            rw [← outcome_eq_ok_iff command, houtcome]
            simp
          obtain ⟨hphase, rfl⟩ := hfailure hnot
          exact herror w' job e hw₁ hrun hphase

end Site

namespace Duty

/-- What has come of a duty between two states: its files are there, made of the input as it was in
the first, and nothing else has changed. -/
def Done (duty : Duty) (site : Site) (w w' : Workshop) : Prop :=
  ∃ content files, IsPlain duty.input ∧ site.entry w duty.input = some (.file content) ∧
    duty.effect content = some files ∧
    (∀ file ∈ files, site.entry w' file.1 = some (.file file.2)) ∧
    ∀ name, IsPlain name → name ≠ duty.output → name ∉ files.map (·.1) →
      site.entry w' name = site.entry w name

/-- How far a duty has come since the state `before`. -/
inductive Progress (duty : Duty) (site : Site) (before w : Workshop) : Phase → Prop
  | started : (∀ name, IsPlain name → name ≠ duty.output →
      site.entry w name = site.entry before name) → Progress duty site before w .started
  | loaded {content : Bytes} : IsPlain duty.input →
      site.entry before duty.input = some (.file content) →
      (∀ name, IsPlain name → name ≠ duty.output →
        (∀ files, duty.effect content = some files → name ∉ files.map (·.1)) →
        site.entry w name = site.entry before name) →
      Progress duty site before w (.loaded content)
  | succeeded : duty.Done site before w → Progress duty site before w .succeeded
  | failed : Progress duty site before w .failed

end Duty

namespace Site

variable {site : Site} {J : Workshop → Prop} {before w : Workshop} {run : Run} {duty : Duty}

/-- The only run is one that has this duty since the state `before`. -/
structure Alone (site : Site) (before : Workshop) (run : Run) (duty : Duty) (w : Workshop) :
    Prop where
  only : ∀ r, r ≠ run → w.jobs r = none
  progress : ∃ phase, w.jobs run = some ⟨some duty, phase⟩ ∧ duty.Progress site before w phase

theorem progress_congr {w' : Workshop} {phase : Phase}
    (h : duty.Progress site before w phase) (he : ∀ name, site.entry w' name = site.entry w name) :
    duty.Progress site before w' phase := by
  cases h with
  | started hkept =>
      exact .started fun name hplain hname => (he name).trans (hkept name hplain hname)
  | loaded hplain hinput hkept =>
      exact .loaded hplain hinput fun name hname hout hfiles =>
        (he name).trans (hkept name hname hout hfiles)
  | succeeded hdone =>
      obtain ⟨content, files, hplain, hinput, heffect, hfiles, hkept⟩ := hdone
      refine .succeeded ⟨content, files, hplain, hinput, heffect, ?_, ?_⟩
      · exact fun file hfile => (he file.1).trans (hfiles file hfile)
      · exact fun name hname hout hnot => (he name).trans (hkept name hname hout hnot)
  | failed => exact .failed

theorem Alone.setPhase {phase : Phase} (h : site.Alone before run duty w)
    (hphase : duty.Progress site before w phase) :
    site.Alone before run duty (w.setJob run (some ⟨some duty, phase⟩)) := by
  refine ⟨?_, phase, Workshop.setJob_jobs_self w run _, progress_congr hphase fun _ => rfl⟩
  intro r hr
  rw [Workshop.setJob_jobs_of_ne w _ hr]
  exact h.only r hr

theorem Alone.run_eq {r : Run} {job : Job} (h : site.Alone before run duty w)
    (hjob : w.jobs r = some job) : r = run := by
  refine Decidable.byContradiction fun hne => ?_
  rw [h.only r hne] at hjob
  cases hjob

theorem progress_load {content : Bytes} (hio : IsPlain duty.input → duty.input ≠ duty.output)
    (h : duty.Progress site before w .started) (hplain : IsPlain duty.input)
    (hinput : site.entry w duty.input = some (.file content)) :
    duty.Progress site before w (.loaded content) := by
  cases h with
  | started hkept =>
      have hbefore := (hkept _ hplain (hio hplain)).symm.trans hinput
      exact .loaded hplain hbefore fun name hname hout _ => hkept name hname hout

theorem progress_write {w' : Workshop} {phase : Phase} {name : Text}
    (h : duty.Progress site before w phase) (hmay : duty.MayWrite phase name)
    (hkept : ∀ other, IsPlain other → other ≠ name → site.entry w' other = site.entry w other) :
    duty.Progress site before w' phase := by
  cases h with
  | started hbefore =>
      refine .started fun other hother hout => ?_
      rw [hkept other hother fun he => hout (he.trans hmay), hbefore other hother hout]
  | loaded hplain hinput hbefore =>
      refine .loaded hplain hinput fun other hother hout hfiles => ?_
      rw [hkept other hother, hbefore other hother hout hfiles]
      rintro rfl
      rcases hmay with hname | ⟨files, heffect, hmem⟩
      · exact hout hname
      · exact hfiles files heffect hmem
  | succeeded | failed => exact hmay.elim

theorem progress_finish {content : Bytes} {files : List (Text × Bytes)}
    (h : duty.Progress site before w (.loaded content)) (heffect : duty.effect content = some files)
    (hfiles : ∀ file ∈ files, site.entry w file.1 = some (.file file.2)) :
    duty.Progress site before w .succeeded := by
  cases h with
  | loaded hplain hinput hbefore =>
      refine .succeeded ⟨content, files, hplain, hinput, heffect, hfiles, ?_⟩
      intro name hn hout hnot
      refine hbefore name hn hout fun files' heffect' => ?_
      obtain rfl := Option.some.inj (heffect.symm.trans heffect')
      exact hnot

theorem Alone.stable (hio : IsPlain duty.input → duty.input ≠ duty.output) :
    site.Stable (site.Alone before run duty) := by
  intro w w' h hstep
  obtain ⟨phase, hrun, hprogress⟩ := h.progress
  cases hstep with
  | @load r other content hjob hplain hinput =>
      obtain rfl := h.run_eq hjob
      obtain ⟨rfl, rfl⟩ : other = duty ∧ phase = .started := by simpa [hrun, eq_comm] using hjob
      exact h.setPhase (progress_load hio hprogress hplain hinput)
  | @write _ r other phase' name hjob hmay hjobs hkept =>
      obtain rfl := h.run_eq hjob
      obtain ⟨rfl, rfl⟩ : other = duty ∧ phase = phase' := by simpa [hrun, eq_comm] using hjob
      refine ⟨fun r hr => by rw [hjobs, h.only r hr], phase, by rw [hjobs, hrun], ?_⟩
      exact progress_write hprogress hmay hkept
  | @finish r other content files hjob heffect hfiles =>
      obtain rfl := h.run_eq hjob
      obtain ⟨rfl, rfl⟩ : other = duty ∧ phase = .loaded content := by
        simpa [hrun, eq_comm] using hjob
      exact h.setPhase (progress_finish hprogress heffect hfiles)
  | @fail r job hjob _ =>
      obtain rfl := h.run_eq hjob
      obtain rfl := Option.some.inj (hrun.symm.trans hjob)
      exact h.setPhase .failed
  | @spoil _ r job hjob hloose hjobs =>
      obtain rfl := h.run_eq hjob
      obtain rfl := Option.some.inj (hrun.symm.trans hjob)
      obtain rfl : phase = .failed := by simpa using hloose
      exact ⟨fun r hr => by rw [hjobs, h.only r hr], .failed, by rw [hjobs, hrun], .failed⟩
  | exit hjob =>
      obtain rfl := h.run_eq hjob
      simp [hrun] at hjob

/-- A command of a tool, run by itself, does its duty if it succeeds. -/
theorem ensures_run {command : Command} (hidle : w.Idle)
    (hduty : site.duty? command = some duty) (hio : IsPlain duty.input → duty.input ≠ duty.output)
    (hflag : command.arguments.head? ≠ some ['-', 'd']) :
    site.Ensures J command.run (fun reply w' =>
      ∀ text, reply = .ok text → w'.Idle ∧ duty.Done site w w') w := by
  have hstable : site.Stable (· = w) := stable_of_idle hidle
  have halone : ∀ run, site.Stable (site.Alone w run duty) := fun run => Alone.stable hio
  have hstart := ensures_start (J := J) hstable halone rfl hflag (by
      rintro _ run rfl hfree
      rw [hduty]
      refine ⟨fun r hr => ?_, .started, Workshop.setJob_jobs_self _ run _, .started ?_⟩
      · rw [Workshop.setJob_jobs_of_ne _ _ hr]
        exact hidle r
      · exact fun _ _ _ => rfl)
  refine Plan.Ensures.bind hstart ?_
  rintro (e | run) w₁ ⟨hrun, -⟩
  · exact Plan.ensures_pure.mpr fun text h => (nomatch h)
  · refine ensures_finish (halone run) (hrun run rfl) ?_ ?_ ?_
    · rintro w₂ job text halone hjob hphase _ -
      obtain ⟨phase, hrun, hprogress⟩ := halone.progress
      obtain rfl := Option.some.inj (hrun.symm.trans hjob)
      obtain rfl : phase = .succeeded := hphase
      refine ⟨?_, ?_⟩
      · intro r
        by_cases hr : r = run
        · rw [hr, Workshop.setJob_jobs_self]
        · rw [Workshop.setJob_jobs_of_ne _ _ hr]
          exact halone.only r hr
      · cases hprogress with
        | succeeded hdone => exact hdone
    · exact fun w₂ job e _ _ _ text h => (nomatch h)
    · intro w₂ reply halone hnone
      obtain ⟨phase, hrun, -⟩ := halone.progress
      simp [hrun] at hnone

end Site
end Bytelink
