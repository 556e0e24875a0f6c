import Bytelink.Proofs.Preparing
import Bytelink.Proofs.Turns
import Mathlib.Data.List.Nodup

/-!
# Preprocessing by several workers

Each worker has a chunk of the sources and takes them one by one; which worker moves next is up to
the surroundings, and between the moves the runs that have been started go on in any way.

The argument has two invariants. As long as no run has failed the crew is `Good`: every worker has
got as far in its chunk as its state says, what is done is done, and every run belongs to a worker
that waits for it. A run writes to nothing but the output of its own source, and no two runs have
the same one, so the runs cannot harm each other. Once a run has failed nothing of this need be true
any more, but then the crew is `Doomed`: some worker has stopped or waits for the failed run, and
this cannot be undone. Here both invariants are shown to outlast the steps of the runs
(`stable_underway`).
-/
namespace Bytelink

/-- A worker together with the names of its chunk. -/
abbrev Crew := List (List Text × Worker)

structure IsCrew (crew : Crew) : Prop where
  sources : ∀ p ∈ crew, ∀ name ∈ p.1, IsSource name
  nodup : (crew.map (·.1)).flatten.Nodup

variable {crew front back : Crew} {names : List Text} {worker : Worker} {name : Text}

theorem mem_middle {p q : List Text × Worker} :
    p ∈ front ++ q :: back ↔ p = q ∨ p ∈ front ++ back :=
  List.perm_middle.mem_iff.trans List.mem_cons

theorem IsCrew.not_mem_other (h : IsCrew (front ++ (names, worker) :: back)) (hname : name ∈ names)
    {q : List Text × Worker} (hq : q ∈ front ++ back) : name ∉ q.1 := by
  intro hqn
  have hmiddle : (front ++ (names, worker) :: back).Perm ((names, worker) :: (front ++ back)) :=
    List.perm_middle
  have hnodup := ((hmiddle.map (·.1)).flatten).nodup_iff.mp h.nodup
  rw [List.map_cons, List.flatten_cons, List.nodup_append] at hnodup
  refine hnodup.2.2 name hname name ?_ rfl
  exact List.mem_flatten.mpr ⟨q.1, List.mem_map_of_mem hq, hqn⟩

theorem IsCrew.eq_of_mem (h : IsCrew crew) {p q : List Text × Worker}
    (hp : p ∈ crew) (hq : q ∈ crew) (hpn : name ∈ p.1) (hqn : name ∈ q.1) : p = q := by
  obtain ⟨front, back, rfl⟩ := List.append_of_mem hp
  rcases mem_middle.mp hq with hqp | hq
  · exact hqp.symm
  · exact absurd hqn (h.not_mem_other hpn hq)

theorem IsCrew.nodup_chunk {p : List Text × Worker} (h : IsCrew crew) (hp : p ∈ crew) :
    p.1.Nodup :=
  (List.nodup_flatten.mp h.nodup).1 p.1 (List.mem_map_of_mem hp)

theorem IsCrew.congr {crew' : Crew} (h : IsCrew crew) (he : crew'.map (·.1) = crew.map (·.1)) :
    IsCrew crew' := by
  refine ⟨fun p hp name hname => ?_, he ▸ h.nodup⟩
  have hchunk : p.1 ∈ crew.map (·.1) := he ▸ List.mem_map_of_mem hp
  obtain ⟨q, hq, hqp⟩ := List.mem_map.mp hchunk
  exact h.sources q hq name (hqp ▸ hname)

namespace Site

variable {site : Site} {J : Workshop → Prop} {before w w' : Workshop} {other : Text}
variable {run : Run} {job : Job} {phase : Phase}

/-- What has to be done to preprocess a source. -/
def preprocessing (site : Site) (name : Text) : Duty :=
  .preprocess site.tools (intermediateName (site.directory.join ⟨name⟩) ['c'])
    (intermediateName (site.directory.join ⟨name⟩) ['i'])

theorem preprocessing_injective (h : IsSource name) (h' : IsSource other)
    (he : site.preprocessing name = site.preprocessing other) : name = other :=
  h.eq_of_intermediateName_eq h' (congrArg Duty.input he)

/-- The preprocessor has left what it makes of this source as it was in the state `before`. -/
def Preprocessed (site : Site) (before w : Workshop) (name : Text) : Prop :=
  ∃ stem content made, IsUnit name stem ∧ site.content? before name = some content ∧
    site.tools.preprocess content = some made ∧ site.content? w (madeName stem 'i') = some made

/-- Only a change of its own output undoes a source. -/
theorem Preprocessed.of_entry (h : site.Preprocessed before w name)
    (hkept : ∀ stem, IsUnit name stem →
      site.entry w' (madeName stem 'i') = site.entry w (madeName stem 'i')) :
    site.Preprocessed before w' name := by
  obtain ⟨stem, content, made, hunit, hcontent, hmade, houtput⟩ := h
  refine ⟨stem, content, made, hunit, hcontent, hmade, ?_⟩
  rw [content?, hkept stem hunit, ← content?, houtput]

theorem preprocessing_input {stem : Text} (h : IsUnit name stem) :
    (site.preprocessing name).input = name := by
  exact (h.intermediateName_eq site.directory 'c').trans h.name_eq.symm

theorem preprocessing_output {stem : Text} (h : IsUnit name stem) :
    (site.preprocessing name).output = madeName stem 'i' :=
  h.intermediateName_eq site.directory 'i'

theorem output_ne_source (h : IsSource name) (h' : IsSource other) :
    other ≠ (site.preprocessing name).output := by
  intro he
  rcases h.unit_or_parent site.directory with ⟨stem, hunit⟩ | ⟨-, hparent⟩
  · obtain ⟨stem', -, hstem'⟩ := h'.stem
    rw [preprocessing_output hunit, hstem'] at he
    exact madeName_ne (getLast?_sourceName stem') (by decide) he.symm
  · have hout : (site.preprocessing name).output = ['.', '.'] := hparent 'i'
    exact h'.plain.ne_parent (he.trans hout)

theorem output_ne_output {stem : Text} (h : IsSource name) (h' : IsUnit other stem)
    (hne : other ≠ name) : madeName stem 'i' ≠ (site.preprocessing name).output := by
  intro he
  rcases h.unit_or_parent site.directory with ⟨stem', hunit⟩ | ⟨-, hparent⟩
  · rw [preprocessing_output hunit] at he
    obtain rfl : stem = stem' := List.append_cancel_right he
    exact hne (h'.name_eq.trans hunit.name_eq.symm)
  · have hout : (site.preprocessing name).output = ['.', '.'] := hparent 'i'
    have hplain : IsPlain (madeName stem 'i') := h'.plain_madeName (by decide) (by decide)
    exact hplain.ne_parent (he.trans hout)

theorem Preprocessed.of_other (h : site.Preprocessed before w other) (hname : IsSource name)
    (hne : other ≠ name) (hkept : ∀ n, IsPlain n → n ≠ (site.preprocessing name).output →
      site.entry w' n = site.entry w n) : site.Preprocessed before w' other :=
  h.of_entry fun _ hunit => hkept _ (hunit.plain_madeName (by decide) (by decide))
    (output_ne_output hname hunit hne)

theorem effect_preprocessing {content : Bytes} {files : List (Text × Bytes)}
    (h : (site.preprocessing name).effect content = some files) :
    ∃ made, site.tools.preprocess content = some made ∧
      files = [((site.preprocessing name).output, made)] := by
  obtain ⟨made, hmade, rfl⟩ := Option.map_eq_some_iff.mp h
  exact ⟨made, hmade, rfl⟩

/-- A run may write at the output of its source until it has come to its end. What it has read makes
no difference. -/
theorem mayWrite_preprocessing {written : Text}
    (h : (site.preprocessing name).MayWrite phase written) :
    written = (site.preprocessing name).output ∧ phase ≠ .succeeded := by
  cases phase with
  | started => exact ⟨h, by simp⟩
  | loaded content =>
      refine ⟨?_, by simp⟩
      rcases h with hout | ⟨files, heffect, hmem⟩
      · exact hout
      · obtain ⟨made, -, rfl⟩ := effect_preprocessing heffect
        simpa using hmem
  | succeeded | failed => exact h.elim

/-- A source is done, and no run has anything to do with it any more. -/
def Settled (site : Site) (before w : Workshop) (name : Text) : Prop :=
  site.Preprocessed before w name ∧
    ∀ run job, w.jobs run = some job → job.duty? ≠ some (site.preprocessing name)

/-- What is known of the run that preprocesses a source, if it has not failed. -/
def Sound (site : Site) (before w : Workshop) (name : Text) : Phase → Prop
  | .started => True
  | .loaded content => (∃ stem, IsUnit name stem) ∧ site.content? before name = some content
  | .succeeded => site.Preprocessed before w name
  | .failed => False

/-- A worker has settled the first sources of its chunk and waits for the run of the next one, if it
is not about to start it. -/
inductive Follows (site : Site) (before w : Workshop) : List Text × Worker → Prop
  | ready {settled todo : List Text} : (∀ name ∈ settled, site.Settled before w name) →
      Follows site before w (settled ++ todo,
        .ready (todo.map fun name => site.directory.join ⟨name⟩)
          (settled.map fun name => (site.preprocessing name).output).reverse)
  | waiting {settled todo : List Text} {name : Text} {command : Command} {run : Run}
      {phase : Phase} : (∀ name ∈ settled, site.Settled before w name) →
      w.jobs run = some ⟨some (site.preprocessing name), phase⟩ →
      Follows site before w (settled ++ name :: todo,
        .waiting (site.directory.join ⟨name⟩) command run
          (todo.map fun name => site.directory.join ⟨name⟩)
          (settled.map fun name => (site.preprocessing name).output).reverse)

/-- No run has failed, and all goes as it should. -/
structure Good (site : Site) (before : Workshop) (crew : Crew) (w : Workshop) : Prop where
  contents : ∀ p ∈ crew, ∀ name ∈ p.1, site.content? w name = site.content? before name
  follows : ∀ p ∈ crew, site.Follows before w p
  owned : ∀ run job, w.jobs run = some job → ∃ p ∈ crew, ∃ name ∈ p.1,
    job.duty? = some (site.preprocessing name) ∧ site.Sound before w name job.phase ∧
      p.2.WaitsFor run

def Lost (w : Workshop) : Worker → Prop
  | .stopped _ => True
  | .waiting _ _ run _ _ => ∃ duty, w.jobs run = some ⟨some duty, .failed⟩
  | .ready _ _ => False

/-- A run has failed, and one of the workers will say so. -/
def Doomed (workers : List Worker) (w : Workshop) : Prop := ∃ worker ∈ workers, Lost w worker

theorem Good.run_unique (hcrew : IsCrew crew) (h : site.Good before crew w) {run' : Run}
    {job' : Job} (hjob : w.jobs run = some job) (hjob' : w.jobs run' = some job')
    (he : job.duty? = job'.duty?) : run = run' := by
  obtain ⟨p, hp, name, hname, hduty, -, hwaits⟩ := h.owned run job hjob
  obtain ⟨q, hq, other, hother, hduty', -, hwaits'⟩ := h.owned run' job' hjob'
  have hsame : name = other := preprocessing_injective (hcrew.sources p hp name hname)
    (hcrew.sources q hq other hother) (by simpa [hduty, hduty'] using he)
  obtain rfl := hcrew.eq_of_mem hp hq hname (hsame ▸ hother)
  obtain ⟨source, command, todo, outputs, hworker⟩ := hwaits
  obtain ⟨source', command', todo', outputs', hworker'⟩ := hwaits'
  rw [hworker] at hworker'
  cases hworker'
  rfl

theorem sound_setJob {job? : Option Job} :
    site.Sound before (w.setJob run job?) name phase ↔ site.Sound before w name phase := by
  cases phase <;> exact Iff.rfl

theorem Settled.setPhase {duty : Duty} (h : site.Settled before w name)
    (hjob : w.jobs run = some ⟨some duty, phase⟩) (phase' : Phase) :
    site.Settled before (w.setJob run (some ⟨some duty, phase'⟩)) name := by
  refine ⟨h.1.of_entry fun _ _ => rfl, fun r job hr => ?_⟩
  by_cases hrun : r = run
  · subst hrun
    rw [Workshop.setJob_jobs_self, Option.some.injEq] at hr
    subst hr
    exact fun hduty => h.2 r _ hjob hduty
  · rw [Workshop.setJob_jobs_of_ne w _ hrun] at hr
    exact h.2 r job hr

/-- A run that comes further, but does not fail, keeps the crew good. -/
theorem Good.setPhase (hcrew : IsCrew crew) (h : site.Good before crew w) {phase' : Phase}
    (hname : IsSource name) (hjob : w.jobs run = some ⟨some (site.preprocessing name), phase⟩)
    (hsound : site.Sound before w name phase') :
    site.Good before crew (w.setJob run (some ⟨some (site.preprocessing name), phase'⟩)) := by
  refine ⟨h.contents, fun p hp => ?_, fun r job hr => ?_⟩
  · cases h.follows p hp with
    | ready hsettled => exact .ready fun n hn => (hsettled n hn).setPhase hjob phase'
    | @waiting settled todo current command run' phase'' hsettled hwaits =>
        by_cases hrun : run' = run
        · subst hrun
          have hduty : site.preprocessing name = site.preprocessing current := by
            have hboth := hjob.symm.trans hwaits
            simp only [Option.some.injEq, Job.mk.injEq] at hboth
            exact hboth.1
          rw [hduty] at hjob ⊢
          exact .waiting (fun n hn => (hsettled n hn).setPhase hjob phase')
            (Workshop.setJob_jobs_self w run' _)
        · rw [← Workshop.setJob_jobs_of_ne w (some ⟨some (site.preprocessing name), phase'⟩) hrun]
            at hwaits
          exact .waiting (fun n hn => (hsettled n hn).setPhase hjob phase') hwaits
  · by_cases hrun : r = run
    · subst hrun
      rw [Workshop.setJob_jobs_self, Option.some.injEq] at hr
      subst hr
      obtain ⟨p, hp, other, hother, hduty, -, hwaits⟩ := h.owned r _ hjob
      obtain rfl : name = other := preprocessing_injective hname
        (hcrew.sources p hp other hother) (Option.some.inj hduty)
      exact ⟨p, hp, name, hother, rfl, sound_setJob.mpr hsound, hwaits⟩
    · rw [Workshop.setJob_jobs_of_ne w _ hrun] at hr
      obtain ⟨p, hp, other, hother, hduty, hphase, hwaits⟩ := h.owned r job hr
      exact ⟨p, hp, other, hother, hduty, sound_setJob.mpr hphase, hwaits⟩

/-- Writing at the output of a source whose run has not come to its end harms nobody. -/
theorem Good.write (hcrew : IsCrew crew) (h : site.Good before crew w) (hname : IsSource name)
    (hjob : w.jobs run = some ⟨some (site.preprocessing name), phase⟩) (hphase : phase ≠ .succeeded)
    (hjobs : w'.jobs = w.jobs)
    (hkept : ∀ other, IsPlain other → other ≠ (site.preprocessing name).output →
      site.entry w' other = site.entry w other) : site.Good before crew w' := by
  have hsettled : ∀ n, site.Settled before w n → site.Settled before w' n := by
    rintro n ⟨hdone, hfree⟩
    -- The run that writes still has to do with its source, so this source is not settled.
    have hne : n ≠ name := fun he => hfree run _ hjob (he ▸ rfl)
    exact ⟨hdone.of_other hname hne hkept, fun r job hr => hfree r job (hjobs ▸ hr)⟩
  refine ⟨fun p hp n hn => ?_, fun p hp => ?_, fun r job hr => ?_⟩
  · have hsource := hcrew.sources p hp n hn
    rw [content?, hkept n hsource.plain (output_ne_source hname hsource), ← content?]
    exact h.contents p hp n hn
  · cases h.follows p hp with
    | ready hdone => exact .ready fun n hn => hsettled n (hdone n hn)
    | waiting hdone hwaits =>
        exact .waiting (fun n hn => hsettled n (hdone n hn)) (hjobs ▸ hwaits)
  · rw [hjobs] at hr
    obtain ⟨p, hp, other, hother, hduty, hsound, hwaits⟩ := h.owned r job hr
    refine ⟨p, hp, other, hother, hduty, ?_, hwaits⟩
    cases hjobphase : job.phase with
    | started => trivial
    | loaded content | failed =>
        rw [hjobphase] at hsound
        exact hsound
    | succeeded =>
        rw [hjobphase] at hsound
        refine hsound.of_other hname ?_ hkept
        -- Two runs with the same source would be one run, and this one has not succeeded.
        rintro rfl
        obtain rfl := h.run_unique hcrew hr hjob hduty
        obtain rfl := Option.some.inj (hr.symm.trans hjob)
        exact hphase hjobphase

theorem Good.works (hcrew : IsCrew crew) (h : site.Good before crew w) (hstep : site.Works w w') :
    site.Good before crew w' ∨ Doomed (crew.map (·.2)) w' := by
  cases hstep with
  | @load run duty content hjob hplain hinput =>
      obtain ⟨p, hp, name, hname, hduty, -, -⟩ := h.owned run _ hjob
      obtain rfl := Option.some.inj hduty
      have hsource := hcrew.sources p hp name hname
      obtain ⟨stem, hunit⟩ := hsource.unit_of_plain hplain
      refine Or.inl (h.setPhase hcrew hsource hjob ⟨⟨stem, hunit⟩, ?_⟩)
      rw [← h.contents p hp name hname, content?_eq_some_iff]
      rwa [preprocessing_input hunit] at hinput
  | @write _ run duty phase written hjob hmay hjobs hkept =>
      obtain ⟨p, hp, name, hname, hduty, -, -⟩ := h.owned run _ hjob
      obtain rfl := Option.some.inj hduty
      obtain ⟨rfl, hphase⟩ := mayWrite_preprocessing hmay
      exact Or.inl (h.write hcrew (hcrew.sources p hp name hname) hjob hphase hjobs hkept)
  | @finish run duty content files hjob heffect hfiles =>
      obtain ⟨p, hp, name, hname, hduty, hsound, -⟩ := h.owned run _ hjob
      obtain rfl := Option.some.inj hduty
      obtain ⟨⟨stem, hunit⟩, hcontent⟩ := hsound
      obtain ⟨made, hmade, rfl⟩ := effect_preprocessing heffect
      have hout := hfiles _ List.mem_cons_self
      rw [preprocessing_output hunit, ← content?_eq_some_iff] at hout
      exact Or.inl (h.setPhase hcrew (hcrew.sources p hp name hname) hjob
        ⟨stem, content, made, hunit, hcontent, hmade, hout⟩)
  | @fail run job hjob _ =>
      obtain ⟨p, hp, name, -, hduty, -, source, command, todo, outputs, hwaits⟩ :=
        h.owned run job hjob
      refine Or.inr ⟨p.2, List.mem_map_of_mem hp, ?_⟩
      rw [hwaits, hduty]
      exact ⟨site.preprocessing name, Workshop.setJob_jobs_self w run _⟩
  | @spoil _ run job hjob hloose _ =>
      obtain ⟨p, -, name, -, hduty, hsound, -⟩ := h.owned run job hjob
      rcases hloose with hfailed | hnone
      · rw [hfailed] at hsound
        exact hsound.elim
      · rw [hnone] at hduty
        cases hduty
  | @exit run phase hjob =>
      obtain ⟨p, -, name, -, hduty, -, -⟩ := h.owned run _ hjob
      cases hduty

theorem Lost.works {worker : Worker} (h : Lost w worker) (hstep : site.Works w w') :
    Lost w' worker := by
  cases worker with
  | stopped cause => trivial
  | ready todo outputs => exact h.elim
  | waiting source command run todo outputs =>
      obtain ⟨duty, hfailed⟩ := h
      have hother : ∀ r job job', w.jobs r = some job → job ≠ ⟨some duty, .failed⟩ →
          Lost (w.setJob r job') (.waiting source command run todo outputs) := by
        intro r job job' hjob hne
        refine ⟨duty, ?_⟩
        rw [Workshop.setJob_jobs_of_ne w job', hfailed]
        rintro rfl
        exact hne (Option.some.inj (hjob.symm.trans hfailed))
      cases hstep with
      | load hjob | finish hjob | exit hjob => exact hother _ _ _ hjob (by simp)
      | write _ _ hjobs | spoil _ _ hjobs => exact ⟨duty, hjobs ▸ hfailed⟩
      | @fail r job hjob _ =>
          by_cases hrun : r = run
          · subst hrun
            obtain rfl := Option.some.inj (hjob.symm.trans hfailed)
            exact ⟨duty, Workshop.setJob_jobs_self w r _⟩
          · refine ⟨duty, ?_⟩
            rw [Workshop.setJob_jobs_of_ne w _ (Ne.symm hrun), hfailed]

/-- The state of a crew between two moves. -/
def Underway (site : Site) (before : Workshop) (crew : Crew) (w : Workshop) : Prop :=
  site.Good before crew w ∨ Doomed (crew.map (·.2)) w

theorem stable_underway (hcrew : IsCrew crew) : site.Stable (site.Underway before crew) := by
  intro w w' h hstep
  rcases h with hgood | ⟨worker, hworker, hlost⟩
  · exact hgood.works hcrew hstep
  · exact Or.inr ⟨worker, hworker, hlost.works hstep⟩

end Site
end Bytelink
