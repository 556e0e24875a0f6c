import Bytelink.Proofs.Agreement
import Bytelink.Proofs.Intermediates
import Bytelink.Proofs.Shelf

/-!
# Leftovers of earlier builds

A build reads what it is given, its sources and its template, and otherwise only files that it has
written itself: the intermediates of a source are written before they are read, and so is the linked
program, and a data listing that is there before the compiler runs is removed. So it makes no
difference to a build on one worker which of these files an earlier build has left, and with what in
them. The result is the same, and so are the files of the artifact (`build_ignores_leftovers`).
-/
namespace Bytelink

/-- The places of what a build is given: the sources, the directory above them, which stands for one
of them, and the template. -/
inductive Premises.Given (premises : Premises) (c : Config) : Path → Prop
  | source {name : Text} : IsPlain name → Sources.isSourceName name = true →
      Given premises c (premises.place (c.sourceDir.join ⟨name⟩))
  | parent : Given premises c (premises.place (c.sourceDir.join ⟨['.', '.']⟩))
  | template {path : Path} : c.template? = some path → Given premises c (premises.place path)

namespace Premises

variable {premises : Premises} {places : Set Path} {w w' : Stock} {c : Config}

def hasFile (premises : Premises) (w : Stock) (directory : Path) (name : Text) : Bool :=
  (w.item (premises.place (directory.join ⟨name⟩))).any Item.isFile

theorem leads_keepFiles {directory : Path} {names kept : List Text} {v : Stock}
    (h : (Sources.keepFiles directory names).Leads premises.answers w kept v) :
    v = w ∧ kept = names.filter (premises.hasFile w directory) := by
  induction names generalizing w kept v with
  | nil =>
      obtain ⟨rfl, rfl⟩ := h
      exact ⟨rfl, rfl⟩
  | cons name rest ih =>
      obtain ⟨isFile, between, hisFile, hrest⟩ := Plan.leads_bind.mp h
      obtain ⟨rfl, rfl⟩ := Plan.leads_request.mp hisFile
      obtain ⟨others, between, hothers, hkept⟩ := Plan.leads_bind.mp hrest
      obtain ⟨rfl, rfl⟩ := ih hothers
      obtain ⟨rfl, rfl⟩ := hkept
      refine ⟨rfl, ?_⟩
      rw [List.filter_cons]
      rfl

theorem mergeSort_eq_of_mem_iff {names names' : List Text} (hnodup : names.Nodup)
    (hnodup' : names'.Nodup) (hmem : ∀ name, name ∈ names' ↔ name ∈ names) :
    names'.mergeSort Text.le = names.mergeSort Text.le :=
  Text.mergeSort_eq_of_perm ((List.perm_ext_iff_of_nodup hnodup' hnodup).mpr hmem)

/-- Which sources are found does not depend on other names in the directory. -/
theorem Lists.mem_files_iff {directory : Path} {names : List Text} {name : Text}
    (h : premises.Lists w directory names) :
    name ∈ (names.filter Sources.isSourceName).filter (premises.hasFile w directory) ↔
      IsPlain name ∧ Sources.isSourceName name = true ∧ premises.hasFile w directory name := by
  rw [List.mem_filter, List.mem_filter, h.mem_iff]
  constructor
  · rintro ⟨⟨⟨hplain, -⟩, hsource⟩, hfile⟩
    exact ⟨hplain, hsource, hfile⟩
  · rintro ⟨hplain, hsource, hfile⟩
    refine ⟨⟨⟨hplain, fun hnone => ?_⟩, hsource⟩, hfile⟩
    simp [hasFile, hnone] at hfile

/-- Two builds find the same sources, and their names are those of sources. -/
theorem repeats_discover (h : Alike places w w')
    (hgiven : ∀ place, premises.Given c place → place ∈ places) :
    (Sources.discover c.sourceDir).Repeats premises.answers (fun reply v v' => v = w ∧ v' = w' ∧
      ∀ paths, reply = .ok paths → ∀ path ∈ paths, ∃ name, IsPlain name ∧
        Sources.isSourceName name = true ∧ path = c.sourceDir.join ⟨name⟩) w w' := by
  have hnames : Plan.Twin premises.answers (Plan.entryNames c.sourceDir)
      (Plan.entryNames c.sourceDir) (fun reply reply' v v' => v = w ∧ v' = w' ∧
        ((∃ e, reply = .error e ∧ reply' = .error e) ∨
          ∃ names names', reply = .ok names ∧ reply' = .ok names' ∧
            premises.Lists w c.sourceDir names ∧ premises.Lists w' c.sourceDir names')) w w' := by
    refine Plan.twin_request ?_
    rintro reply v reply' v' ⟨rfl, hreply⟩ ⟨rfl, hreply'⟩
    rw [h.barrier] at hreply'
    refine ⟨rfl, rfl, ?_⟩
    cases hbarrier : v.barrier (.entryNames c.sourceDir) with
    | some e =>
        simp only [hbarrier] at hreply hreply'
        exact Or.inl ⟨e, hreply, hreply'⟩
    | none =>
        simp only [hbarrier] at hreply hreply'
        obtain ⟨names, hnames, hlists⟩ := hreply
        obtain ⟨names', hnames', hlists'⟩ := hreply'
        exact Or.inr ⟨names, names', hnames, hnames', hlists, hlists'⟩
  refine Plan.Twin.bind hnames ?_
  rintro _ _ v v' ⟨rfl, rfl, ⟨e, rfl, rfl⟩ | ⟨names, names', rfl, rfl, hlists, hlists'⟩⟩
  · exact Plan.repeats_pure ⟨rfl, rfl, fun _ hpaths => (nomatch hpaths)⟩
  · intro result u result' u' hu hu'
    obtain ⟨files, between, hfiles, hresult⟩ := Plan.leads_bind.mp hu
    obtain ⟨files', between', hfiles', hresult'⟩ := Plan.leads_bind.mp hu'
    obtain ⟨rfl, rfl⟩ := leads_keepFiles hfiles
    obtain ⟨rfl, rfl⟩ := leads_keepFiles hfiles'
    obtain ⟨rfl, rfl⟩ := hresult
    obtain ⟨rfl, rfl⟩ := hresult'
    refine ⟨?_, rfl, rfl, ?_⟩
    · rw [mergeSort_eq_of_mem_iff ((hlists.nodup.filter _).filter _)
        ((hlists'.nodup.filter _).filter _)]
      intro name
      rw [hlists.mem_files_iff, hlists'.mem_files_iff]
      refine and_congr_right fun hplain => and_congr_right fun hsource => ?_
      rw [hasFile, hasFile, h.same _ (hgiven _ (.source hplain hsource))]
    · intro paths hpaths path hpath
      obtain rfl := Except.ok.inj hpaths
      obtain ⟨name, hname, rfl⟩ := List.mem_map.mp hpath
      obtain ⟨hplain, hsource, -⟩ :=
        hlists.mem_files_iff.mp ((List.mergeSort_perm _ _).mem_iff.mp hname)
      exact ⟨name, hplain, hsource, rfl⟩

/-- Under the name that the preprocessor is given stands a source, or the directory above. -/
theorem given_input {name : Text} (hplain : IsPlain name)
    (hsource : Sources.isSourceName name = true) : premises.Given c (premises.place
      (c.sourceDir.join ⟨intermediateName (c.sourceDir.join ⟨name⟩) ['c']⟩)) := by
  obtain ⟨stem, rfl⟩ := isSourceName_iff.mp hsource
  rw [intermediateName_source hplain, renewedName]
  split
  · exact .parent
  · have hkept : madeName (keptStem stem) 'c' = sourceName (keptStem stem) := rfl
    rw [hkept]
    refine .source ?_ (isSourceName_iff.mpr ⟨_, rfl⟩)
    unfold keptStem
    split
    · decide
    · exact hplain

theorem repeats_chooseTemplate (h : Alike places w w')
    (hgiven : ∀ place, premises.Given c place → place ∈ places) :
    Repeats premises.answers (Build.chooseTemplate c) (fun _ v v' => v = w ∧ v' = w') w w' := by
  unfold Build.chooseTemplate
  cases htemplate : c.template? with
  | none => exact repeats_pure ⟨rfl, rfl⟩
  | some path =>
      have hload : (Build.loadTemplate path).Repeats premises.answers
          (fun _ v v' => v = w ∧ v' = w') w w' := by
        refine (repeats_readText h (hgiven _ (.template htemplate))).bind ?_
        rintro (e | text) v v' ⟨rfl, rfl⟩
        · exact Plan.repeats_pure ⟨rfl, rfl⟩
        · cases hof : Template.ofText? text with
          | none =>
              simp only [hof]
              exact Plan.repeats_pure ⟨rfl, rfl⟩
          | some template =>
              simp only [hof]
              exact Plan.repeats_pure ⟨rfl, rfl⟩
      refine (repeats_lift hload).bind ?_
      rintro (e | template) v v' ⟨rfl, rfl⟩
      · exact repeats_throw
      · exact repeats_pure ⟨rfl, rfl⟩

/-- The class file and the inputs of the preprocessor are the same after the ground is cleared. -/
theorem repeats_prepare (h : Alike places w w')
    (hgiven : ∀ place, premises.Given c place → place ∈ places)
    (hout : ∀ path, premises.absolute c.outDir = .ok path →
      w.item (premises.place path) = some .directory) :
    Repeats premises.answers (Build.prepare c) (fun ground v v' =>
      Alike (insert (premises.place ground.classFile) places) v v' ∧
        ∀ source ∈ ground.sources, premises.place
          (c.sourceDir.join ⟨intermediateName source ['c']⟩) ∈ places) w w' := by
  have hvalid : (Build.validate c.sourceDir).Repeats premises.answers
      (fun _ v v' => v = w ∧ v' = w') w w' := by
    refine (repeats_isDirectory h c.sourceDir).bind ?_
    rintro (_ | _) v v' ⟨rfl, rfl⟩
    · exact Plan.repeats_pure ⟨rfl, rfl⟩
    · exact Plan.repeats_pure ⟨rfl, rfl⟩
  refine (repeats_lift hvalid).bind ?_
  rintro (e | ⟨⟩) v v' ⟨rfl, rfl⟩
  · exact repeats_throw
  refine (repeats_chooseTemplate h hgiven).bind ?_
  rintro template v v' ⟨rfl, rfl⟩
  have houtDir : Repeats premises.answers (Build.onFile c.outDir (Plan.absolute c.outDir))
      (fun outDir u u' => u = v ∧ u' = v' ∧ premises.absolute c.outDir = .ok outDir) v v' := by
    refine repeats_onFile ((repeats_absolute c.outDir).mono ?_)
    rintro reply u u' ⟨hu, hu', hreply⟩ outDir houtDir
    exact ⟨hu, hu', hreply.symm.trans houtDir⟩
  refine houtDir.bind ?_
  rintro outDir v v' ⟨rfl, rfl, hfull⟩
  refine (repeats_makeDirectories h (hout outDir hfull)).bind ?_
  rintro - v v' ⟨rfl, rfl⟩
  refine (repeats_removeStale h (c.target.classFile outDir)).bind ?_
  intro _ v v' hcleared
  have hdiscover : Repeats premises.answers
      (Build.onFile c.sourceDir (Sources.discover c.sourceDir)) (fun sources u u' =>
        u = v ∧ u' = v' ∧ ∀ source ∈ sources, ∃ name, IsPlain name ∧
          Sources.isSourceName name = true ∧ source = c.sourceDir.join ⟨name⟩) v v' := by
    refine repeats_onFile (Plan.Repeats.mono
      (repeats_discover hcleared fun place hplace => Or.inr (hgiven place hplace)) ?_)
    rintro reply u u' ⟨hu, hu', hfound⟩ sources hreply
    exact ⟨hu, hu', hfound sources hreply⟩
  refine hdiscover.bind ?_
  rintro sources v v' ⟨rfl, rfl, hsources⟩
  split
  · exact repeats_throw
  · refine repeats_pure ⟨hcleared, fun source hsource => ?_⟩
    obtain ⟨name, hplain, hname, rfl⟩ := hsources source hsource
    exact hgiven _ (given_input hplain hname)

variable {command : Command} {directory : Path} {input output flag : Text}

theorem chore?_preprocessing (hdirectory : command.directory? = some directory)
    (harguments : command.arguments = [['-', 'E'], flag, input, ['-', 'o'], output]) :
    premises.chore? command = some (premises.preprocessing command directory input output) := by
  simp [chore?, hdirectory, harguments]

theorem chore?_compiling (hdirectory : command.directory? = some directory)
    (harguments : command.arguments = [['-', 'O', '8'], flag, input, ['-', 'o'], output]) :
    premises.chore? command = some (premises.compiling command directory input output) := by
  simp [chore?, hdirectory, harguments]

theorem chore?_assembling (hdirectory : command.directory? = some directory)
    (harguments : command.arguments = [['-', 'd'], flag, input]) :
    premises.chore? command = some (premises.assembling command directory input) := by
  simp [chore?, hdirectory, harguments]

theorem exists_of_map_eq_ok {ε α β : Type} {f : α → β} {result : Except ε α} {b : β}
    (h : result.map f = .ok b) : ∃ a, result = .ok a ∧ f a = b := by
  cases result with
  | error e => cases h
  | ok a => exact ⟨a, rfl, Except.ok.inj h⟩

variable {made : List (Path × Item)}

theorem output_of_preprocessing
    (h : premises.outcome (premises.preprocessing command directory input output) w = .ok made) :
    ∃ file ∈ made, directory.join ⟨output⟩ = file.1 := by
  obtain ⟨content, -, rfl⟩ := exists_of_map_eq_ok h
  exact ⟨_, List.mem_cons_self, rfl⟩

theorem output_of_compiling
    (h : premises.outcome (premises.compiling command directory input output) w = .ok made) :
    ∃ file ∈ made, directory.join ⟨output⟩ = file.1 := by
  obtain ⟨files, -, rfl⟩ := exists_of_map_eq_ok h
  exact ⟨_, List.mem_cons_self, rfl⟩

theorem repeats_preprocess {source : Path} (h : Alike places w w') (htimeout : c.timeout? = none)
    (hcancel : c.cancel? = none) (hinput : premises.place
      (c.sourceDir.join ⟨intermediateName source ['c']⟩) ∈ places) :
    Repeats premises.answers (Preprocess.one c source) (fun output v v' =>
      Alike (insert (premises.place (c.sourceDir.join ⟨output⟩)) places) v v') w w' := by
  rw [Preprocess.one_eq]
  refine repeats_reported ?_
  rw [bind_assoc]
  refine repeats_tool h htimeout hcancel (fun command => chore?_preprocessing) ?_ ?_
  · intro command
    simp only [outcome, preprocessing, h.same _ hinput]
  · intro command made v v' hmade _ halike
    refine repeats_pure (halike.mono ?_)
    rintro place (rfl | hplace)
    · obtain ⟨file, hfile, he⟩ := output_of_preprocessing hmade
      exact Or.inr ⟨file, hfile, by rw [he]⟩
    · exact Or.inl hplace

/-- All preprocessed files are the same, whatever has been there before. -/
theorem repeats_preprocessAll {sources : List Path} (h : Alike places w w') (hjobs : c.jobs = 1)
    (htimeout : c.timeout? = none) (hcancel : c.cancel? = none)
    (hinputs : ∀ source ∈ sources, premises.place
      (c.sourceDir.join ⟨intermediateName source ['c']⟩) ∈ places) :
    Repeats premises.answers (Preprocess.all c sources) (fun outputs v v' =>
      Alike (places ∪ {place | ∃ output ∈ outputs,
        place = premises.place (c.sourceDir.join ⟨output⟩)}) v v') w w' := by
  have hone : min c.jobs sources.length ≤ 1 := by
    rw [hjobs]
    exact Nat.min_le_left ..
  unfold Preprocess.all
  simp only [hone, if_true]
  clear hone
  induction sources generalizing places w w' with
  | nil =>
      rw [List.mapM_nil]
      exact repeats_pure (h.mono fun place hplace => by simpa using hplace)
  | cons source rest ih =>
      rw [List.mapM_cons]
      refine (repeats_preprocess h htimeout hcancel (hinputs source List.mem_cons_self)).bind ?_
      intro output v v' halike
      refine (ih halike fun other hother =>
        Or.inr (hinputs other (List.mem_cons_of_mem source hother))).bind ?_
      intro outputs u u' halike
      refine repeats_pure (halike.mono ?_)
      rintro place (hplace | ⟨other, hother, rfl⟩)
      · exact Or.inl (Or.inr hplace)
      · rcases List.mem_cons.mp hother with rfl | hother
        · exact Or.inl (Or.inl rfl)
        · exact Or.inr ⟨other, hother, rfl⟩

theorem repeats_takeListing {path : Path} (h : Alike places w w')
    (hpath : premises.place path ∈ places) (fragment : Fragment) :
    Repeats premises.answers (Build.takeListing path fragment)
      (fun _ v v' => Alike places v v') w w' := by
  refine (repeats_lift (repeats_readText h hpath)).bind ?_
  rintro (e | text) v v' ⟨rfl, rfl⟩
  · by_cases he : e = .notFound
    · simp only [he, if_true]
      exact repeats_pure h
    · simp only [he, if_false]
      exact repeats_throw
  · refine Repeats.mono (repeats_removal (a := fragment.withListing text) h ?_ ?_)
      fun _ _ _ hgone => hgone.of_insert
    · rintro _ (rfl | rfl) u result v hv
      · obtain ⟨rfl, rfl⟩ := hv
        exact ⟨rfl, rfl⟩
      · obtain ⟨rfl, rfl⟩ := hv
        exact ⟨rfl, rfl⟩
    · intro e he
      simp only [he, if_false]

/-- The compiler never meets a data listing that it has not written for this unit. -/
theorem repeats_compile {source : Path} {input : Text} (h : Alike places w w')
    (htimeout : c.timeout? = none) (hcancel : c.cancel? = none)
    (hinput : premises.place (c.sourceDir.join ⟨input⟩) ∈ places) :
    Repeats premises.answers (Build.compile c source input)
      (fun _ v v' => Alike places v v') w w' := by
  dsimp only [Build.compile]
  refine (repeats_removeStale h _).bind ?_
  intro _ v v' halike
  refine repeats_reported ?_
  refine repeats_tool halike htimeout hcancel (fun command => chore?_compiling) ?_ ?_
  · intro command
    simp only [outcome, compiling, halike.same _ (Or.inr hinput), halike.same _ (Or.inl rfl)]
  · intro command made u u' hmade _ hmades
    obtain ⟨file, hfile, he⟩ := output_of_compiling hmade
    refine (repeats_onFile ((repeats_readText hmades
      (Or.inr ⟨file, hfile, by rw [he]⟩)).mono fun _ _ _ hsame _ _ => hsame)).bind ?_
    rintro body u u' ⟨rfl, rfl⟩
    refine (repeats_takeListing hmades (Or.inl (Or.inl rfl)) _).mono ?_
    exact fun _ _ _ htaken => htaken.mono fun place hplace => Or.inl (Or.inr hplace)

theorem repeats_compileAll {units : List (Path × Text)} (h : Alike places w w')
    (htimeout : c.timeout? = none) (hcancel : c.cancel? = none)
    (hinputs : ∀ unit ∈ units, premises.place (c.sourceDir.join ⟨unit.2⟩) ∈ places) :
    Repeats premises.answers (Build.compileAll c units)
      (fun _ v v' => Alike places v v') w w' := by
  induction units generalizing w w' with
  | nil => exact repeats_pure h
  | cons unit rest ih =>
      refine (repeats_compile h htimeout hcancel (hinputs unit List.mem_cons_self)).bind ?_
      intro fragment v v' halike
      refine (ih halike fun other hother =>
        hinputs other (List.mem_cons_of_mem unit hother)).bind ?_
      intro fragments u u' halike
      exact repeats_pure halike

theorem repeats_reportAll {reporter : Reporter} {texts : List Text} :
    (Build.reportAll reporter texts).Repeats premises.answers
      (fun _ v v' => v = w ∧ v' = w') w w' := by
  induction texts with
  | nil => exact Plan.repeats_pure ⟨rfl, rfl⟩
  | cons text rest ih =>
      refine Plan.Repeats.bind repeats_report ?_
      rintro - v v' ⟨rfl, rfl⟩
      exact ih

theorem repeats_aggregate (h : Alike places w w') (fragments : List Fragment) :
    Repeats premises.answers (Build.aggregate c fragments) (fun made v v' =>
      Alike (insert (premises.place made.2) places) v v' ∧
        v.item (premises.place made.2) ≠ none) w w' := by
  rw [Build.aggregate_eq]
  refine (repeats_lift repeats_reportAll).bind ?_
  rintro - v v' ⟨rfl, rfl⟩
  have hcollect : Repeats premises.answers (Build.collect fragments)
      (fun _ u u' => u = v ∧ u' = v') v v' := by
    unfold Build.collect
    split
    · exact repeats_throw
    · exact repeats_pure ⟨rfl, rfl⟩
  refine hcollect.bind ?_
  rintro segment v v' ⟨rfl, rfl⟩
  refine (repeats_writeFile h _ _).bind ?_
  rintro - u u' ⟨halike, -, hitem⟩
  exact repeats_reported (repeats_pure ⟨halike, hitem⟩)

theorem isAbsolute_join {p q : Path} (h : p.isAbsolute = true) : (p.join q).isAbsolute = true := by
  obtain ⟨rest, hp⟩ : ∃ rest, p.text = '/' :: rest := by
    simpa [Path.isAbsolute, List.head?_eq_some_iff] using h
  unfold Path.join
  split
  · assumption
  · split <;> simp [Path.isAbsolute, hp]

theorem isAbsolute_absolute {path full : Path} (h : premises.absolute path = .ok full) :
    full.isAbsolute = true := by
  have hfrom : ∀ directory : Path, path.isAbsolute = true ∨ directory.isAbsolute = true →
      path.absolute directory = .ok full → full.isAbsolute = true := by
    intro directory hroot hfull
    have hstart : (Path.start directory path).isAbsolute = true := by
      unfold Path.start
      split
      · split <;> rfl
      · rename_i hrelative
        exact hroot.resolve_left hrelative
    have hsteps : ∀ (steps : List Text) (p : Path), p.isAbsolute = true →
        (steps.foldl (fun q t => q.join ⟨t⟩) p).isAbsolute = true := by
      intro steps
      induction steps with
      | nil => exact fun _ hp => hp
      | cons step rest ih => exact fun p hp => ih _ (isAbsolute_join hp)
    unfold Path.absolute at hfull
    split at hfull
    · cases hfull
    · obtain rfl := Except.ok.inj hfull
      split
      · exact isAbsolute_join (hsteps _ _ hstart)
      · exact hsteps _ _ hstart
  unfold absolute at h
  split at h
  · rename_i hself
    rw [Bool.or_eq_true] at hself
    rcases hself with hempty | habsolute
    · simp [Path.absolute, hempty] at h
    · exact hfrom _ (Or.inl habsolute) h
  · split at h
    · rename_i directory hdirectory
      exact hfrom _ (Or.inr (premises.isAbsolute_currentDirectory _ hdirectory)) h
    · cases h

theorem repeats_linkAll {ground : Build.Ground} (h : Alike places w w')
    (fragments : List Fragment) (segment : Segment) :
    Repeats premises.answers (Build.linkAll c ground fragments segment) (fun path v v' =>
      path.isAbsolute = true ∧ Alike (insert (premises.place path) places) v v' ∧ w.Keeps v ∧
        v.item (premises.place path) ≠ none) w w' := by
  unfold Build.linkAll
  dsimp only
  refine repeats_reported ?_
  have habsolute : Repeats premises.answers (Build.onFile (c.sourceDir.join Build.linkedFile)
      (Plan.absolute (c.sourceDir.join Build.linkedFile)))
      (fun path v v' => v = w ∧ v' = w' ∧ path.isAbsolute = true) w w' := by
    refine repeats_onFile ((repeats_absolute _).mono ?_)
    rintro reply v v' ⟨hv, hv', hreply⟩ path hpath
    exact ⟨hv, hv', isAbsolute_absolute (hreply.symm.trans hpath)⟩
  refine habsolute.bind ?_
  rintro path v v' ⟨rfl, rfl, hroot⟩
  refine (repeats_writeFile h _ _).bind ?_
  rintro - u u' ⟨halike, hkeeps, hitem⟩
  exact repeats_pure ⟨hroot, halike, hkeeps, hitem⟩

theorem repeats_assemble {ground : Build.Ground} {linked : Path} (h : Alike places w w')
    (htimeout : c.timeout? = none) (hcancel : c.cancel? = none)
    (hroot : linked.isAbsolute = true) (hlinked : premises.place linked ∈ places)
    (hclass : premises.place ground.classFile ∈ places) :
    Repeats premises.answers (Build.assemble c ground linked) (fun _ v v' =>
      Alike places v v' ∧ w.Keeps v ∧
        (v.item (premises.place ground.classFile)).any Item.isFile = true) w w' := by
  have hinput : c.sourceDir.join ⟨linked.text⟩ = linked := if_pos hroot
  unfold Build.assemble
  refine repeats_tool h htimeout hcancel (fun command => chore?_assembling) ?_ ?_
  · intro command
    simp only [outcome, assembling, hinput, h.same _ hlinked]
  · intro command made v v' _ hkeeps hmade
    have halike := hmade.mono (Set.subset_union_left (s := places))
    refine (repeats_lift (repeats_isFile halike hclass)).bind ?_
    rintro isFile u u' ⟨rfl, rfl, rfl⟩
    split
    · rename_i hfile
      refine repeats_reported (repeats_lift (repeats_report.mono ?_))
      rintro - t t' ⟨rfl, rfl⟩
      exact ⟨halike, hkeeps, hfile⟩
    · exact repeats_throw

theorem repeats_within {α : Type} {stage : Stage} {part : Part α} {Q : α → Stock → Stock → Prop}
    (h : Repeats premises.answers part Q w w') :
    Repeats premises.answers (Build.within stage part) Q w w' := by
  refine Plan.Repeats.bind h ?_
  rintro (cause | value) v v' hvalue
  · refine Plan.Repeats.bind repeats_report ?_
    exact fun _ _ _ _ => Plan.repeats_pure fun _ hother => (nomatch hother)
  · refine Plan.repeats_pure fun other hother => ?_
    exact Except.ok.inj hother ▸ hvalue value rfl

theorem repeats_stage {α : Type} {previous stage : Stage} {part : Part α}
    {Q : α → Stock → Stock → Prop} (hcancel : c.cancel? = none)
    (h : Repeats premises.answers part Q w w') :
    Repeats premises.answers (Build.within stage do Build.enter c previous stage; part)
      Q w w' := by
  have henter : Repeats premises.answers (Build.enter c previous stage)
      (fun _ v v' => v = w ∧ v' = w') w w' := by
    unfold Build.enter
    rw [hcancel]
    exact repeats_reported (repeats_pure ⟨rfl, rfl⟩)
  refine repeats_within (henter.bind ?_)
  rintro - v v' ⟨rfl, rfl⟩
  exact h

/-- The files of an artifact are there in both stocks, and are the same. -/
structure SameFiles (premises : Premises) (artifact : Artifact) (v v' : Stock) : Prop where
  classFile : ∃ content, v.item (premises.place artifact.classFile) = some (.file content) ∧
    v'.item (premises.place artifact.classFile) = some (.file content)
  written : ∀ path ∈ [artifact.linkedSource, artifact.segmentFile], ∃ item,
    v.item (premises.place path) = some item ∧ v'.item (premises.place path) = some item

theorem repeats_stages (h : Alike {place | premises.Given c place} w w') (hjobs : c.jobs = 1)
    (htimeout : c.timeout? = none) (hcancel : c.cancel? = none)
    (hout : ∀ path, premises.absolute c.outDir = .ok path →
      w.item (premises.place path) = some .directory) :
    Repeats premises.answers (Build.stages c) (premises.SameFiles) w w' := by
  refine (repeats_within (repeats_prepare h (fun _ hplace => hplace) hout)).bind ?_
  rintro ground w₁ w₁' ⟨halike₁, hsources⟩
  refine (repeats_stage hcancel (repeats_preprocessAll halike₁ hjobs htimeout hcancel
    fun source hsource => Or.inr (hsources source hsource))).bind ?_
  intro inputs w₂ w₂' halike₂
  refine (repeats_stage hcancel (repeats_compileAll halike₂ htimeout hcancel
    fun unit hunit => Or.inr ⟨unit.2, (List.of_mem_zip hunit).2, rfl⟩)).bind ?_
  intro fragments w₃ w₃' halike₃
  refine (repeats_stage hcancel (repeats_aggregate halike₃ fragments)).bind ?_
  rintro ⟨segment, segmentPath⟩ w₄ w₄' ⟨halike₄, hsegment⟩
  refine (repeats_stage hcancel (repeats_linkAll halike₄ fragments segment)).bind ?_
  rintro linked w₅ w₅' ⟨hroot, halike₅, hkeeps₅, hlinked⟩
  refine (repeats_stage hcancel (repeats_assemble halike₅ htimeout hcancel hroot (Or.inl rfl)
    (Or.inr (Or.inr (Or.inl (Or.inl rfl)))))).bind ?_
  rintro - w₆ w₆' ⟨halike₆, hkeeps₆, hclass⟩
  have hboth : ∀ place, (w₆'.item place = w₆.item place) → w₆.item place ≠ none →
      ∃ item, w₆.item place = some item ∧ w₆'.item place = some item := by
    intro place hsame hitem
    obtain ⟨item, hitem⟩ := Option.ne_none_iff_exists'.mp hitem
    exact ⟨item, hitem, hsame.trans hitem⟩
  refine repeats_pure ⟨?_, ?_⟩
  · have hsame := halike₆.same _ (Or.inr (Or.inr (Or.inl (Or.inl rfl))))
    cases hitem : w₆.item (premises.place ground.classFile) with
    | none => simp [hitem] at hclass
    | some item =>
        cases item with
        | file content => exact ⟨content, rfl, hsame.trans hitem⟩
        | directory | other => simp [hitem, Item.isFile] at hclass
  · intro path hpath
    rcases List.mem_cons.mp hpath with rfl | hpath
    · exact hboth _ (halike₆.same _ (Or.inl rfl)) (hkeeps₆ _ hlinked)
    · rw [List.mem_singleton.mp hpath]
      exact hboth _ (halike₆.same _ (Or.inr (Or.inl rfl))) (hkeeps₆ _ (hkeeps₅ _ hsegment))

end Premises

/-- What earlier builds have left makes no difference to a build on one worker without watch. Let
two stocks differ in regular files only, but neither in the sources nor in the template, and let
the output directory be there. Then the build comes to the same artifact in both, or fails in the
same stage for the same cause; and the class file, the linked program and the persisted segment of
an artifact are the same in both.

Only the files are compared. What the user may not do, for want of permissions say, is taken to be
refused in both stocks alike and for the same reason (`Stock.barrier`), whatever stands there; and
different places are taken to be different files, so that nothing is written through a second name
of a file (`Premises.written`). -/
theorem build_ignores_leftovers {σ τ : Type} {host : Host σ} {host' : Host τ} {view : σ → Stock}
    {view' : τ → Stock} {premises : Premises} {c : Config} {s : σ} {s' : τ} (hjobs : c.jobs = 1)
    (htimeout : c.timeout? = none) (hcancel : c.cancel? = none)
    (hhost : host.Follows view premises.answers) (hhost' : host'.Follows view' premises.answers)
    (hsame : Alike {place | premises.Given c place} (view s) (view' s'))
    (hout : ∀ path, premises.absolute c.outDir = .ok path →
      (view s).item (premises.place path) = some .directory) :
    ((build c).run host' s').1 = ((build c).run host s).1 ∧
      ∀ artifact, ((build c).run host s).1 = .ok artifact → premises.SameFiles artifact
        (view ((build c).run host s).2) (view' ((build c).run host' s').2) :=
  Plan.Repeats.of_follows hhost hhost'
    (Premises.repeats_stages hsame hjobs htimeout hcancel hout)

/-- The tool finds no input, or a data listing that is there too early. -/
def complaint : Failure where
  ending := .exited (.exited 1) []
  unsuccessful := by
    rintro ⟨status, output, he, hsuccess⟩
    cases he
    cases hsuccess

/-- A preprocessor that ends the last line, a compiler that declares a symbol where the letter `x`
occurs, and an assembler that copies the program. -/
def tidyPremises : Premises where
  currentDirectory := .ok ⟨['/']⟩
  isAbsolute_currentDirectory path h := by
    cases h
    rfl
  place path := path
  otherContent _ := .error .isADirectory
  otherWriting _ _ := .error .isADirectory
  directoryRemoval _ := .error .isADirectory
  preprocess _ item := match item with
    | some (.file content) => .ok (content ++ [10])
    | _ => .error complaint
  compile _ item isListed := match item, isListed with
    | some (.file content), false =>
        .ok (content, if 120 ∈ content then some (Utf8.encode "x:\n\t.ascii \"\\101\"\n") else none)
    | _, _ => .error complaint
  assemble _ item := match item with
    | some (.file content) => .ok [(⟨"/src/A.class"⟩, .file content)]
    | _ => .error complaint

def tidyConfig : Config := Config.new ⟨['/', 's', 'r', 'c']⟩ twoUnitsTarget

/-- Two sources in a directory, the later one first. -/
def cleanShelf : Shelf where
  items :=
    [(⟨['/', 's', 'r', 'c']⟩, some .directory),
      (⟨"/src/b.c"⟩, some (.file (Utf8.encode "symref x end"))),
      (⟨"/src/a.c"⟩, some (.file (Utf8.encode "nop")))]
  started := []

/-- What an earlier build has left. -/
def leftovers : List (Path × Option Item) :=
  [(⟨"/src/a.i"⟩, some (.file [1])), (⟨"/src/global.s"⟩, some (.file [2])),
    (⟨"/src/prog.j"⟩, some (.file [3])), (⟨"/src/A.global"⟩, some (.file [])),
    (⟨"/src/A.class"⟩, some (.file [4]))]

def usedShelf : Shelf := { cleanShelf with items := leftovers ++ cleanShelf.items }

theorem item?_usedShelf {place : Path} (h : place ∉ leftovers.map (·.1)) :
    usedShelf.item? place = cleanShelf.item? place := by
  have hnone : leftovers.find? (·.1 == place) = none := by
    rw [List.find?_eq_none]
    intro entry hentry he
    exact h (List.mem_map.mpr ⟨entry, hentry, by simpa using he⟩)
  unfold Shelf.item? usedShelf
  rw [List.find?_append, hnone, Option.none_or]

theorem alike_usedShelf : Alike {place | tidyPremises.Given tidyConfig place} cleanShelf.view
    usedShelf.view := by
  refine ⟨fun place => ?_, fun place hplace => ?_, rfl⟩
  · by_cases h : place ∈ leftovers.map (·.1)
    · have hloose : ∀ place ∈ leftovers.map (·.1),
          IsLoose (cleanShelf.item? place) ∧ IsLoose (usedShelf.item? place) := by decide +kernel
      exact Or.inr (hloose place h)
    · exact Or.inl (item?_usedShelf h)
  · refine item?_usedShelf ?_
    cases hplace with
    | parent => decide +kernel
    | template h => cases h
    | @source name hplain hsource =>
        -- No leftover has the name of a source.
        have hlast : ∀ place ∈ leftovers.map (·.1), place.text.getLast? ≠ some 'c' := by
          decide +kernel
        intro hmem
        refine hlast _ hmem ?_
        obtain ⟨stem, rfl⟩ := isSourceName_iff.mp hsource
        change (tidyConfig.sourceDir.join ⟨sourceName stem⟩).text.getLast? = some 'c'
        rw [Path.join_eq _ hplain, List.getLast?_append, getLast?_sourceName, Option.some_or]

theorem artifact_despite_leftovers : ∃ artifact,
    ((build tidyConfig).run (Shelf.host tidyPremises) cleanShelf).1 = .ok artifact ∧
      ((build tidyConfig).run (Shelf.host tidyPremises) usedShelf).1 = .ok artifact ∧
      artifact.symbols = 1 ∧ tidyPremises.SameFiles artifact
        ((build tidyConfig).run (Shelf.host tidyPremises) cleanShelf).2.view
        ((build tidyConfig).run (Shelf.host tidyPremises) usedShelf).2.view := by
  have hhost : (Shelf.host tidyPremises).Follows Shelf.view tidyPremises.answers :=
    Shelf.follows fun _ => rfl
  have hout : ∀ path, tidyPremises.absolute tidyConfig.outDir = .ok path →
      cleanShelf.view.item (tidyPremises.place path) = some .directory := by
    have hdirectory : tidyPremises.absolute tidyConfig.outDir = .ok ⟨['/', 's', 'r', 'c']⟩ := by
      decide +kernel
    intro path hpath
    obtain rfl := Except.ok.inj (hpath.symm.trans hdirectory)
    decide +kernel
  obtain ⟨hsame, hfiles⟩ :=
    build_ignores_leftovers rfl rfl rfl hhost hhost alike_usedShelf hout
  have hrun : ((build tidyConfig).run (Shelf.host tidyPremises) cleanShelf).1 =
      .ok ⟨⟨"/src/A.class"⟩, ⟨"/src/A.global"⟩, ⟨"/src/prog.j"⟩, 2, 1, 1⟩ := by
    -- The kernel cannot compute `mergeSort`, whose recursion is well-founded.
    simp only [build, Build.stages, Build.prepare, Build.survey, Sources.discover,
      Text.mergeSort_eq_insertionSort]
    decide +kernel
  exact ⟨_, hrun, hsame.trans hrun, rfl, hfiles _ hrun⟩

end Bytelink
