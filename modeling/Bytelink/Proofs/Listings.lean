import Bytelink.Proofs.Cancellation
import Bytelink.Proofs.Rehearsal
import Bytelink.Proofs.SceneBuild

/-!
# The static data of units

All units leave their static data in the same file. If a compiler run either writes the file or
leaves it alone, the segment of a build is made of what the runs of this build have written, each
for its own unit (`listings_of_build`), and so is a fault that is found in it
(`listings_of_failed_build`). What stood in the file before the build, or what another
unit has left there, does not come in.
-/
namespace Bytelink
namespace Setting

variable {setting : Setting} {c : Config} {wrote : Run → Option Bytes} {w : Scene}
variable {u : Compilation} {units : List Compilation} {run : Run} {command : Command}

/-- What the compiler runs do to the shared file: a run that does not write it leaves it alone, and
one that does has its data there when it exits with success. -/
structure WritesListings (setting : Setting) (c : Config) (wrote : Run → Option Bytes) : Prop where
  leaves : ∀ run command before after, command.HasFlag ['-', 'O', '8'] → wrote run = none →
    setting.step run command before after → after c.listingPath = before c.listingPath
  writes : ∀ run command places content, command.HasFlag ['-', 'O', '8'] →
    wrote run = some content → setting.exit run command places →
    ∃ standing, places c.listingPath = some standing ∧ standing.entry = .file content

theorem WritesListings.runsTo (h : setting.WritesListings c wrote) {before after : Places}
    (hflag : command.HasFlag ['-', 'O', '8']) (hnone : wrote run = none)
    (hruns : setting.RunsTo run command before after) :
    after c.listingPath = before c.listingPath := by
  induction hruns with
  | refl => rfl
  | tail _ hstep ih => exact (h.leaves run command _ _ hflag hnone hstep.1).trans ih

/-- The unit has the data that its own run has written, read as text. -/
structure OwnListing (wrote : Run → Option Bytes) (u : Compilation) : Prop where
  arguments : u.command.arguments = compilerArguments u.source
  origin : u.fragment.origin = intermediateName u.source ['c']
  listing : u.fragment.listing = (wrote u.run).bind Utf8.decode?
  none_iff : u.fragment.listing = none ↔ wrote u.run = none

theorem Compiled.hasFlag (h : setting.Compiled c u w) : u.command.HasFlag ['-', 'O', '8'] :=
  Command.hasFlag_of_arguments h.arguments rfl

theorem Compiled.ownListing (hwrites : setting.WritesListings c wrote)
    (h : setting.Compiled c u w) : OwnListing wrote u ∧ w.places c.listingPath = none := by
  obtain ⟨before, after, hnone, hran, htaken⟩ := h.work
  cases hwrote : wrote u.run with
  | none =>
      have hafter : after.places c.listingPath = none :=
        (hwrites.runsTo h.hasFlag hwrote hran.places).trans hnone
      cases hlisting : u.fragment.listing with
      | none =>
          rw [hlisting] at htaken
          refine ⟨⟨h.arguments, h.origin, ?_, ?_⟩, ?_⟩
          · rw [hlisting, hwrote, Option.bind_none]
          · simp [hlisting, hwrote]
          · rw [htaken.1.places, hafter]
      | some text =>
          rw [hlisting] at htaken
          exact absurd hafter htaken.2.1
  | some content =>
      have hholds : after.Holds c.listingPath content :=
        hwrites.writes u.run u.command after.places content h.hasFlag hwrote hran.exit
      cases hlisting : u.fragment.listing with
      | none =>
          rw [hlisting] at htaken
          exact absurd hholds (htaken.2 content)
      | some text =>
          rw [hlisting] at htaken
          refine ⟨⟨h.arguments, h.origin, ?_, ?_⟩, htaken.1.absent⟩
          · rw [hlisting, hwrote, Option.bind_some, htaken.2.2 content hholds]
          · simp [hlisting, hwrote]

/-- No compiler run is without its unit. -/
theorem CompiledAll.filter_runs {before : Scene} (h : setting.CompiledAll c before units w)
    (hlacks : before.Lacks ['-', 'O', '8']) :
    (w.runs.filter fun x => x.2.HasFlag ['-', 'O', '8']) =
      units.map fun u => (u.run, u.command) := by
  have hearlier : (before.runs.filter fun x => x.2.HasFlag ['-', 'O', '8']) = [] := by
    refine List.filter_eq_nil_iff.mpr fun x hx => ?_
    simpa using hlacks x.1 x.2 hx
  have hunits : ∀ x ∈ units.map (fun u => (u.run, u.command)), x.2.HasFlag ['-', 'O', '8'] := by
    intro x hx
    obtain ⟨u, hu, rfl⟩ := List.mem_map.mp hx
    obtain ⟨w', hcompiled⟩ := h.each u hu
    exact hcompiled.hasFlag
  rw [h.runs, List.filter_append, hearlier, List.nil_append, List.filter_eq_self]
  exact fun x hx => by simpa using hunits x hx

theorem concludes_conducted (hdir : c.sourceDir = setting.directory) (hlog : w.log = []) :
    Concludes setting.answers (setting.Conducts c) (Build.stages c) (fun _ _ => True)
      (fun _ _ => True) w :=
  (concludes_stages (K := fun _ _ => True) hdir hlog (fun _ _ _ => trivial)
    fun _ _ _ _ _ _ _ _ _ _ => trivial).mono (fun _ _ _ => trivial) fun _ _ _ => trivial

theorem HasCompiled.ownListings {fragments : List Fragment}
    (hwrites : setting.WritesListings c wrote) (h : setting.HasCompiled c fragments w) :
    ∃ units : List Compilation,
      ((w.runs.filter fun x => x.2.HasFlag ['-', 'O', '8']) =
        units.map fun u => (u.run, u.command)) ∧
      (∀ u ∈ units, OwnListing wrote u) ∧ units.map (·.fragment) = fragments ∧
      w.places c.listingPath = none := by
  obtain ⟨before, units, hlacks, hall, hunits, hfragments⟩ := h
  have hown : ∀ u ∈ units, OwnListing wrote u := by
    intro u hu
    obtain ⟨w', hcompiled⟩ := hall.each u hu
    exact (hcompiled.ownListing hwrites).1
  have hlast := hall.last _ (List.getLast?_eq_some_getLast hunits)
  exact ⟨units, hall.filter_runs hlacks, hown, hfragments, (hlast.ownListing hwrites).2⟩

end Setting

section

variable {σ : Type} {host : Host σ} {view : σ → Scene} {c : Config} {s : σ} {setting : Setting}
variable {wrote : Run → Option Bytes}

/-- The fragments that the compiler stage hands on are those of its runs, each with the listing that
its own run has written. -/
theorem listings_of_compiled {ground : Build.Ground} {fragments : List Fragment}
    (hhost : host.Follows view setting.answers) (hlog : (view s).log = [])
    (hwrites : setting.WritesListings c wrote)
    (h : ((Build.compiled c).run.run host s).1 = .ok (ground, fragments)) :
    ∃ units : List Compilation,
      ((view ((Build.compiled c).run.run host s).2).runs.filter
          fun x => x.2.HasFlag ['-', 'O', '8']) = units.map (fun u => (u.run, u.command)) ∧
      (∀ u ∈ units, Setting.OwnListing wrote u) ∧ units.map (·.fragment) = fragments ∧
      (view ((Build.compiled c).run.run host s).2).places c.listingPath = none := by
  have hconcludes :
      Concludes setting.answers (setting.Conducts c) (Build.compiled c) _ _ (view s) :=
    Setting.concludes_compiled (K := fun _ _ => True) hlog (fun _ _ _ => trivial)
      fun _ _ _ _ _ _ _ _ _ _ => trivial
  have hmade := (Plan.Ensures.of_follows hhost hconcludes).1.1 _ h
  exact hmade.2.1.2.ownListings hwrites

theorem enter_eq_error {previous stage : Stage} {cause : Cause}
    (h : ((Build.enter c previous stage).run.run host s).1 = .error cause) :
    cause = .cancelled := by
  unfold Build.enter at h
  obtain h | ⟨_, _, h⟩ := run_bind_eq_error.mp h
  · cases h
  · cases hcancel : c.cancel? with
    | none =>
        rw [hcancel] at h
        cases h
    | some token =>
        rw [hcancel] at h
        obtain h | ⟨answer, _, h⟩ := run_bind_eq_error.mp h
        · cases h
        · cases answer
          · cases h
          · exact (Except.error.inj h).symm

theorem onFile_ne_data {α : Type} {path : Path} {operation : Plan (Except SystemError α)}
    {e : DataError} : ((Build.onFile path operation).run.run host s).1 ≠ .error (.data e) := by
  intro h
  replace h := (congrArg Prod.fst (Plan.run_bind host operation _ s)).symm.trans h
  cases hresult : (operation.run host s).1 with
  | ok a =>
      rw [hresult] at h
      cases h
  | error e =>
      rw [hresult] at h
      cases h

/-- Collecting the static data finds fault only with the data itself. -/
theorem aggregate_eq_error {fragments : List Fragment} {e : DataError}
    (h : ((Build.aggregate c fragments).run.run host s).1 = .error (.data e)) :
    Segment.ofFragments .standard fragments = .error e := by
  unfold Build.aggregate at h
  obtain h | ⟨_, _, h⟩ := run_bind_eq_error.mp h
  · cases (run_lift _ s).symm.trans h
  · cases hsegment : Segment.ofFragments .standard fragments with
    | error e' =>
        rw [hsegment] at h
        cases h
        rfl
    | ok segment =>
        rw [hsegment] at h
        obtain h | ⟨_, _, h⟩ := run_bind_eq_error.mp h
        · exact absurd h onFile_ne_data
        · obtain h | ⟨_, _, h⟩ := run_bind_eq_error.mp h <;> cases h

theorem compiled_eq_error {e : BuildError}
    (h : ((Build.compiled c).run.run host s).1 = .error e) : e.stage ≠ .aggregating := by
  unfold Build.compiled at h
  obtain h | ⟨ground, _, h⟩ := run_bind_eq_error.mp h
  · simp [(run_within_eq_error.mp h).2]
  · obtain h | ⟨inputs, _, h⟩ := run_bind_eq_error.mp h
    · simp [(run_within_eq_error.mp h).2]
    · obtain h | ⟨fragments, _, h⟩ := run_bind_eq_error.mp h
      · simp [(run_within_eq_error.mp h).2]
      · cases h

theorem completed_eq_error {ground : Build.Ground} {fragments : List Fragment} {e : DataError}
    (h : ((Build.completed c ground fragments).run.run host s).1 =
      .error ⟨.aggregating, .data e⟩) :
    Segment.ofFragments .standard fragments = .error e := by
  unfold Build.completed at h
  obtain h | ⟨⟨segment, segmentPath⟩, _, h⟩ := run_bind_eq_error.mp h
  · obtain h | ⟨_, _, h⟩ := run_bind_eq_error.mp (run_within_eq_error.mp h).1
    · cases enter_eq_error h
    · exact aggregate_eq_error h
  · obtain h | ⟨linked, _, h⟩ := run_bind_eq_error.mp h
    · cases (run_within_eq_error.mp h).2
    · obtain h | ⟨_, _, h⟩ := run_bind_eq_error.mp h
      · cases (run_within_eq_error.mp h).2
      · cases h

theorem asked_completed (ground : Build.Ground) (fragments : List Fragment) :
    (.report (Build.entering .compiling .aggregating), s) ∈
      (Build.completed c ground fragments).run.asked host s := by
  obtain ⟨next, hnext⟩ : ∃ next, (Build.completed c ground fragments).run =
      .ask (.report (Build.entering .compiling .aggregating)) next := ⟨_, rfl⟩
  rw [hnext]
  exact List.mem_cons_self

/-- A fault that a build finds in the static data is one of the fragments of its own compiler runs,
each with the listing that this run has written. -/
theorem listings_of_failed_build {e : DataError} (hhost : host.Follows view setting.answers)
    (hlog : (view s).log = []) (hwrites : setting.WritesListings c wrote)
    (h : ((build c).run host s).1 = .error ⟨.aggregating, .data e⟩) :
    ∃ s', (.report (Build.entering .compiling .aggregating), s') ∈ (build c).asked host s ∧
      (view s').places c.listingPath = none ∧
      ∃ units : List Compilation,
        ((view s').runs.filter fun x => x.2.HasFlag ['-', 'O', '8']) =
          units.map (fun u => (u.run, u.command)) ∧
        (∀ u ∈ units, Setting.OwnListing wrote u) ∧
        Segment.ofFragments .standard (units.map (·.fragment)) = .error e := by
  rw [build, Build.stages_eq] at h ⊢
  obtain hfailed | ⟨⟨ground, fragments⟩, hmade, hfailed⟩ := run_bind_eq_error.mp h
  · exact absurd rfl (compiled_eq_error hfailed)
  · obtain ⟨units, hruns, hown, hfragments, hnone⟩ := listings_of_compiled hhost hlog hwrites hmade
    have hfault := completed_eq_error hfailed
    refine ⟨_, ?_, hnone, units, hruns, hown, hfragments ▸ hfault⟩
    rw [(run_bind_ok hmade).2]
    exact List.mem_append_right _ (asked_completed ground fragments)

end

/-- Every compiler run is started while there is no data listing, and there is none when all units
have been compiled. The segment that is written is that of the fragments of all units, one for each
compiler run in order, and each has the listing that its own run has written, if it has written
one. -/
theorem listings_of_build {σ : Type} {host : Host σ} {view : σ → Scene} {c : Config} {s : σ}
    {setting : Setting} {wrote : Run → Option Bytes} (hdir : c.sourceDir = setting.directory)
    (hhost : host.Follows view setting.answers) (hlog : (view s).log = [])
    (hwrites : setting.WritesListings c wrote) :
    (∀ command s', (.launch command, s') ∈ (build c).asked host s →
      command.HasFlag ['-', 'O', '8'] → (view s').places c.listingPath = none) ∧
    (∀ s', (.report (Build.entering .compiling .aggregating), s') ∈ (build c).asked host s →
      (view s').places c.listingPath = none) ∧
    ∀ content s', (.writeFile (c.sourceDir.join (Build.segmentFile c.target)) content, s') ∈
        (build c).asked host s →
      ∃ (units : List Compilation) (segment : Segment),
        ((view s').runs.filter fun x => x.2.HasFlag ['-', 'O', '8']) =
          units.map (fun u => (u.run, u.command)) ∧
        (∀ u ∈ units, Setting.OwnListing wrote u) ∧
        Segment.ofFragments .standard (units.map (·.fragment)) = .ok segment ∧
        content = segment.toBytes := by
  obtain ⟨-, hasked⟩ := Plan.Ensures.of_follows hhost (Setting.concludes_conducted hdir hlog)
  refine ⟨fun command s' hmem => hasked _ hmem, fun s' hmem => ?_, fun content s' hmem => ?_⟩
  · obtain ⟨before, units, hunits, hall⟩ := (hasked _ hmem).2 rfl
    obtain ⟨u, hu⟩ : ∃ u, units.getLast? = some u :=
      ⟨_, List.getLast?_eq_some_getLast hunits⟩
    exact ((hall.last u hu).ownListing hwrites).2
  · obtain ⟨before, units, segment, hlacks, hall, hsegment, rfl⟩ := hasked _ hmem rfl
    refine ⟨units, segment, hall.filter_runs hlacks, fun u hu => ?_, hsegment, rfl⟩
    obtain ⟨w, hcompiled⟩ := hall.each u hu
    exact (hcompiled.ownListing hwrites).1

/-- Two sources, and the static data that an earlier build has left. -/
def staleListing : Scene :=
  .ofFiles [(⟨"/src/a.c"⟩, []), (⟨"/src/b.c"⟩, []), (⟨"/src/global.s"⟩, Utf8.encode "y:\n")]

/-- What the first compiler run writes; the second one writes no static data. -/
def firstListing (run : Run) : Option Bytes :=
  if run.number = 3 then some (Utf8.encode "x:\n\t.ascii \"\\101\"\n") else none

def listingRehearsal : Rehearsal :=
  { rebuilding with
    files := fun run => rebuilding.files run ++
      (firstListing run).toList.map fun content => (⟨"/src/global.s"⟩, content) }

theorem writesListings_listingRehearsal :
    listingRehearsal.setting.WritesListings twoUnitsConfig firstListing := by
  constructor
  · intro run command before after _ hnone hstep
    rw [show after = listingRehearsal.play run before from hstep]
    have hrun : twoUnitsConfig.listingPath ∉ (rebuilding.files run).map (·.1) := by
      unfold rebuilding
      dsimp only
      split <;> decide
    refine Places.putAll_eq ?_
    simpa [listingRehearsal, hnone] using hrun
  · intro ⟨number⟩ command places content _ hsome ⟨_, before, hplaces⟩
    obtain rfl : number = 3 := by
      by_contra h
      exact absurd (hsome.symm.trans (if_neg h)) (by simp)
    subst hplaces
    exact ⟨⟨.file content, false, some ⟨3⟩⟩, by rw [← Option.some.inj hsome]; rfl, rfl⟩

def secondCompilation : Command where
  program := ⟨['c', 'c', '1']⟩
  arguments := compilerArguments ⟨"/src/b.c"⟩
  directory? := some ⟨['/', 's', 'r', 'c']⟩
  timeout? := none
  cancel? := none

theorem listings_of_two_units :
    (∃ s', (.launch secondCompilation, s') ∈
        (build twoUnitsConfig).asked listingRehearsal.host staleListing ∧
      s'.places ⟨"/src/global.s"⟩ = none) ∧
    (∃ s', (.report (Build.entering .compiling .aggregating), s') ∈
        (build twoUnitsConfig).asked listingRehearsal.host staleListing ∧
      s'.places ⟨"/src/global.s"⟩ = none) ∧
    ∃ s', (.writeFile ⟨"/src/A.global"⟩ [0, 0, 0, 1, 65], s') ∈
        (build twoUnitsConfig).asked listingRehearsal.host staleListing ∧
      ∃ (units : List Compilation) (segment : Segment),
        (s'.runs.filter fun x => x.2.HasFlag ['-', 'O', '8']) =
          units.map (fun u => (u.run, u.command)) ∧
        (∀ u ∈ units, Setting.OwnListing firstListing u) ∧
        Segment.ofFragments .standard (units.map (·.fragment)) = .ok segment ∧
        [0, 0, 0, 1, 65] = segment.toBytes := by
  obtain ⟨hlaunch, hentered, hwritten⟩ := listings_of_build (c := twoUnitsConfig)
    (s := staleListing) rfl (Rehearsal.follows listingRehearsal) rfl writesListings_listingRehearsal
  have hasked :
      .launch secondCompilation ∈
        ((build twoUnitsConfig).asked listingRehearsal.host staleListing).map (·.1) ∧
      .report (Build.entering .compiling .aggregating) ∈
        ((build twoUnitsConfig).asked listingRehearsal.host staleListing).map (·.1) ∧
      .writeFile ⟨"/src/A.global"⟩ [0, 0, 0, 1, 65] ∈
        ((build twoUnitsConfig).asked listingRehearsal.host staleListing).map (·.1) := by
    simp only [build, Build.stages, Build.prepare, Build.survey, Sources.discover,
      Text.mergeSort_eq_insertionSort]
    decide +kernel
  obtain ⟨hcompiles, henters, hwrites⟩ := hasked
  obtain ⟨⟨_, s₁⟩, h₁, rfl⟩ := List.mem_map.mp hcompiles
  obtain ⟨⟨_, s₂⟩, h₂, rfl⟩ := List.mem_map.mp henters
  obtain ⟨⟨_, s₃⟩, h₃, rfl⟩ := List.mem_map.mp hwrites
  exact ⟨⟨s₁, h₁, hlaunch _ s₁ h₁ rfl⟩, ⟨s₂, h₂, hentered s₂ h₂⟩, s₃, h₃, hwritten _ s₃ h₃⟩

end Bytelink
