import Bytelink.Proofs.Moves

/-!
# Preprocessing everything

Whether the sources are taken one after another or are cut into chunks for several workers makes no
difference: in the end every source has been preprocessed from the content that it had before, and
the outputs are named in the order of the sources (`makes_preprocessAll`).
-/
namespace Bytelink

namespace Site

variable {site : Site} {J : Workshop → Prop} {before w w' : Workshop} {c : Config}
variable {name : Text} {names : List Text}

/-- A preprocessor run that has the workshop to itself preprocesses its source. -/
theorem preprocessed_of_done (hsource : IsSource name)
    (hdone : (site.preprocessing name).Done site w w')
    (hcontent : site.content? w name = site.content? before name) :
    site.Preprocessed before w' name ∧
      ∀ other, IsPlain other → other ≠ (site.preprocessing name).output →
        site.entry w' other = site.entry w other := by
  obtain ⟨content, files, hplain, hinput, heffect, hfiles, hkept⟩ := hdone
  obtain ⟨stem, hunit⟩ := hsource.unit_of_plain hplain
  obtain ⟨made, hmade, rfl⟩ := effect_preprocessing heffect
  have hout := hfiles _ List.mem_cons_self
  rw [preprocessing_output hunit, ← content?_eq_some_iff] at hout
  rw [preprocessing_input hunit, ← content?_eq_some_iff, hcontent] at hinput
  refine ⟨⟨stem, content, made, hunit, hinput, hmade, hout⟩, fun other hother hne => ?_⟩
  exact hkept other hother hne (by simpa using hne)

theorem makes_one (hdir : c.sourceDir = site.directory) (hidle : w.Idle) (hsource : IsSource name)
    (hcontent : site.content? w name = site.content? before name) :
    site.Makes J (Preprocess.one c (site.directory.join ⟨name⟩)) (fun output w' =>
      w'.Idle ∧ output = (site.preprocessing name).output ∧ site.Preprocessed before w' name ∧
        ∀ other, IsPlain other → other ≠ (site.preprocessing name).output →
          site.entry w' other = site.entry w other) w := by
  refine makes_reported hidle ?_
  have hcommand : site.Ensures J (c.preprocessCommand (site.directory.join ⟨name⟩)) _ w :=
    ensures_command (stable_of_idle hidle) rfl
  refine Succeeds.bind (succeeds_lift.mpr hcommand) ?_
  rintro command w₂ ⟨rfl, harguments, hdirectory⟩
  have hio : IsPlain (site.preprocessing name).input →
      (site.preprocessing name).input ≠ (site.preprocessing name).output := by
    intro hplain
    obtain ⟨stem, hunit⟩ := hsource.unit_of_plain hplain
    rw [preprocessing_input hunit]
    exact output_ne_source hsource hsource
  have hflag : command.arguments.head? ≠ some ['-', 'd'] := by
    rw [harguments]
    exact show some (['-', 'E'] : Text) ≠ some ['-', 'd'] by decide
  have hduty := duty?_preprocess (hdir ▸ hdirectory) harguments
  have hrun := ensures_run (J := J) hidle hduty hio hflag
  refine Succeeds.bind (succeeds_lift.mpr hrun) ?_
  rintro (e | text) w₃ hdone
  · exact succeeds_throw
  · obtain ⟨hidle₃, hdone⟩ := hdone text rfl
    exact succeeds_pure.mpr ⟨hidle₃, rfl, preprocessed_of_done hsource hdone hcontent⟩

/-- Sources are preprocessed one after another: none touches another source or its output. -/
theorem makes_oneByOne (hdir : c.sourceDir = site.directory) (hidle : w.Idle)
    (hsources : ∀ name ∈ names, IsSource name) (hnodup : names.Nodup)
    (hcontents : ∀ name ∈ names, site.content? w name = site.content? before name) :
    site.Makes J ((names.map fun name => site.directory.join ⟨name⟩).mapM (Preprocess.one c))
      (fun outputs w' => w'.Idle ∧
        outputs = names.map (fun name => (site.preprocessing name).output) ∧
        (∀ name ∈ names, site.Preprocessed before w' name) ∧
        ∀ other, IsPlain other → (∀ name ∈ names, other ≠ (site.preprocessing name).output) →
          site.entry w' other = site.entry w other) w := by
  induction names generalizing w with
  | nil =>
      rw [List.map_nil, List.mapM_nil]
      exact succeeds_pure.mpr ⟨hidle, rfl, by simp, fun _ _ _ => rfl⟩
  | cons name rest ih =>
      have hsource := hsources name List.mem_cons_self
      obtain ⟨hnot, hnodup⟩ := List.nodup_cons.mp hnodup
      have hrest : ∀ other ∈ rest, IsSource other := fun other h =>
        hsources other (List.mem_cons_of_mem name h)
      rw [List.map_cons, List.mapM_cons]
      refine Succeeds.bind
        (makes_one hdir hidle hsource (hcontents name List.mem_cons_self)) ?_
      rintro output w₁ ⟨hidle₁, rfl, hmade, hkept₁⟩
      have hcontents₁ : ∀ other ∈ rest, site.content? w₁ other = site.content? before other := by
        intro other hother
        have hplain := (hrest other hother).plain
        rw [content?, hkept₁ other hplain (output_ne_source hsource (hrest other hother)),
          ← content?]
        exact hcontents other (List.mem_cons_of_mem name hother)
      refine Succeeds.bind (ih hidle₁ hrest hnodup hcontents₁) ?_
      rintro outputs w₂ ⟨hidle₂, rfl, hall, hkept₂⟩
      refine succeeds_pure.mpr ⟨hidle₂, rfl, ?_, ?_⟩
      · intro other hother
        rcases List.mem_cons.mp hother with rfl | hother
        · -- The later runs write nothing but outputs of other sources.
          refine hmade.of_entry fun stem hunit => ?_
          refine hkept₂ _ (hunit.plain_madeName (by decide) (by decide)) fun next hnext => ?_
          refine output_ne_output (hrest next hnext) hunit ?_
          rintro rfl
          exact hnot hnext
        · exact hall other hother
      · intro other hplain hne
        rw [hkept₂ other hplain fun next hnext => hne next (List.mem_cons_of_mem name hnext),
          hkept₁ other hplain (hne name List.mem_cons_self)]

def recruits (site : Site) (size : Nat) (names : List Text) : Crew :=
  (Preprocess.chunks size names).map fun chunk =>
    (chunk, .ready (chunk.map fun name => site.directory.join ⟨name⟩) [])

theorem chunks_recruits (site : Site) (size : Nat) (names : List Text) :
    (site.recruits size names).map (·.1) = Preprocess.chunks size names := by
  simp [recruits, Function.comp_def]

theorem workers_recruits (size : Nat) : (site.recruits size names).map (·.2) =
    (Preprocess.chunks size (names.map fun name => site.directory.join ⟨name⟩)).map
      fun chunk => .ready chunk [] := by
  rw [Preprocess.chunks_map, List.map_map, recruits, List.map_map]
  rfl

theorem isCrew_recruits (size : Nat) (hsources : ∀ name ∈ names, IsSource name)
    (hnodup : names.Nodup) : IsCrew (site.recruits size names) := by
  refine ⟨fun p hp name hname => hsources name ?_, ?_⟩
  · rw [← Preprocess.flatten_chunks size names, ← site.chunks_recruits]
    exact List.mem_flatten.mpr ⟨p.1, List.mem_map_of_mem hp, hname⟩
  · rw [chunks_recruits, Preprocess.flatten_chunks]
    exact hnodup

theorem good_recruits (size : Nat) (hidle : w.Idle)
    (hcontents : ∀ name ∈ names, site.content? w name = site.content? before name) :
    site.Good before (site.recruits size names) w := by
  refine ⟨fun p hp name hname => ?_, fun p hp => ?_, fun run job hjob => ?_⟩
  · obtain ⟨chunk, hchunk, rfl⟩ := List.mem_map.mp hp
    refine hcontents name ?_
    rw [← Preprocess.flatten_chunks size names]
    exact List.mem_flatten.mpr ⟨chunk, hchunk, hname⟩
  · obtain ⟨chunk, -, rfl⟩ := List.mem_map.mp hp
    have hready : site.Follows before w ([] ++ chunk, _) := .ready (by simp)
    exact hready
  · simp [hidle run] at hjob

/-- All sources are preprocessed, and the outputs are named in their order. -/
theorem makes_preprocessAll (hdir : c.sourceDir = site.directory) (hidle : w.Idle)
    (hsources : ∀ name ∈ names, IsSource name) (hnodup : names.Nodup)
    (hcontents : ∀ name ∈ names, site.content? w name = site.content? before name) :
    site.Makes J (Preprocess.all c (names.map fun name => site.directory.join ⟨name⟩))
      (fun outputs w' => w'.Idle ∧
        outputs = names.map (fun name => (site.preprocessing name).output) ∧
        ∀ name ∈ names, site.Preprocessed before w' name) w := by
  unfold Preprocess.all
  dsimp only
  split
  · refine (makes_oneByOne hdir hidle hsources hnodup hcontents).mono ?_
    rintro outputs w' ⟨hidle', houtputs, hall, -⟩
    exact ⟨hidle', houtputs, hall⟩
  · refine makes_reported hidle ?_
    generalize ((names.map _).length + _ - 1) / _ = size
    rw [← workers_recruits]
    have hrun := ensures_runWorkers (J := J) hdir (isCrew_recruits size hsources hnodup)
      (Or.inl (good_recruits size hidle hcontents)) (Nat.le_refl _)
    refine Succeeds.bind (succeeds_lift.mpr hrun) ?_
    rintro finished w₂ ⟨crew, hchunks, rfl, hend, h⟩
    rw [chunks_recruits] at hchunks
    refine Plan.ensures_pure.mpr fun outputs hgather => ?_
    obtain ⟨hidle₂, hall, houtputs⟩ := h.finished hend hgather
    rw [hchunks, Preprocess.flatten_chunks] at houtputs
    refine ⟨hidle₂, houtputs, fun name hname => ?_⟩
    rw [← Preprocess.flatten_chunks size names, ← hchunks] at hname
    obtain ⟨chunk, hchunk, hname⟩ := List.mem_flatten.mp hname
    obtain ⟨p, hp, rfl⟩ := List.mem_map.mp hchunk
    exact hall p hp name hname

end Site
end Bytelink
