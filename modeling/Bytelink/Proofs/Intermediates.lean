import Bytelink.Proofs.Building
import Bytelink.Proofs.Rehearsal

/-!
# The files of a source

A source is given to the preprocessor by its own name with the extension put anew, and so are the
files named that the tools make of it. For almost every source this gives back its own name, and
files that no other source has (`intermediates_of_discover`). Two names do not come through it. The
name `.c` is taken for a stem without an extension, so this source goes by the name `.c.c` and
shares its files with the source of that name. And `..c` without its extension stands for the parent
directory.
-/
namespace Bytelink

variable {stem other : Text} {letter : Char} {directory : Path}

/-- What is left of a source with this stem when its extension is taken away. The name `.c` has no
extension. -/
def keptStem (stem : Text) : Text := if stem = [] then sourceName [] else stem

/-- The name of a source with this stem after its extension has been put anew. -/
def renewedName (stem : Text) (letter : Char) : Text :=
  if stem = ['.'] then ['.', '.'] else madeName (keptStem stem) letter

theorem intermediateName_source (h : IsPlain (sourceName stem)) :
    intermediateName (directory.join ⟨sourceName stem⟩) [letter] = renewedName stem letter := by
  rw [intermediateName_join directory h]
  by_cases hdot : stem = ['.']
  · subst hdot
    rfl
  · by_cases hnil : stem = []
    · subst hnil
      rfl
    · rw [withExtension_sourceName hnil hdot (by simp), renewedName, if_neg hdot, keptStem,
        if_neg hnil, madeName]

theorem keptStem_eq_iff : keptStem stem = keptStem other ↔
    stem = other ∨ stem = [] ∧ other = ['.', 'c'] ∨ stem = ['.', 'c'] ∧ other = [] := by
  have hsource : sourceName [] = ['.', 'c'] := rfl
  unfold keptStem
  by_cases hnil : stem = []
  · by_cases hnil' : other = []
    · simp [hnil, hnil']
    · have hne : [] ≠ other := Ne.symm hnil'
      simp only [hnil, hnil', if_true, if_false, hsource, hne, true_and, and_false, or_false,
        false_or]
      exact eq_comm
  · simp only [hnil, if_false, false_and, false_or]
    split
    · rename_i hnil'
      simp [hnil', hnil, hsource]
    · rename_i hnil'
      simp [hnil']

theorem sourceName_inj : sourceName stem = sourceName other ↔ stem = other := by
  rw [sourceName, sourceName, List.append_left_inj]

theorem join_sourceName_inj (h : IsPlain (sourceName stem)) (h' : IsPlain (sourceName other)) :
    directory.join ⟨sourceName stem⟩ = directory.join ⟨sourceName other⟩ ↔ stem = other :=
  ⟨fun he => sourceName_inj.mp (directory.join_injective h h' he), fun he => he ▸ rfl⟩

theorem renewedName_eq_self_iff :
    renewedName stem 'c' = sourceName stem ↔ stem ≠ [] ∧ stem ≠ ['.'] := by
  unfold renewedName
  by_cases hdot : stem = ['.']
  · subst hdot
    decide
  · by_cases hnil : stem = []
    · subst hnil
      decide
    · rw [if_neg hdot, keptStem, if_neg hnil]
      exact iff_of_true rfl ⟨hnil, hdot⟩

theorem renewedName_eq_iff (hperiod : letter ≠ '.') :
    renewedName stem letter = renewedName other letter ↔
      stem = other ∨ stem = [] ∧ other = ['.', 'c'] ∨ stem = ['.', 'c'] ∧ other = [] := by
  have hparent : ∀ stem, madeName stem letter ≠ ['.', '.'] := fun stem =>
    madeName_ne (show ['.', '.'].getLast? = some '.' from rfl) hperiod
  unfold renewedName
  by_cases hdot : stem = ['.']
  · by_cases hdot' : other = ['.']
    · simp [hdot, hdot']
    · simp [hdot, hdot', (hparent _).symm, eq_comm]
  · by_cases hdot' : other = ['.']
    · simp [hdot, hdot', hparent]
    · rw [if_neg hdot, if_neg hdot', madeName, madeName, List.append_left_inj, keptStem_eq_iff]

section

variable {σ : Type} {host : Host σ} {s s' : σ} {c : Config} {source : Path} {name : Text}
variable {T : Answers Unit}

theorem succeeds_takeListing {path : Path} {f : Fragment} :
    Succeeds T (fun _ _ => True) (Build.takeListing path f)
      (fun made _ => made.origin = f.origin) () := by
  refine Succeeds.bind (succeeds_trivial _ _) fun reply _ _ => ?_
  cases reply with
  | error e =>
      dsimp only
      split
      · exact succeeds_pure.mpr rfl
      · exact succeeds_throw
  | ok text =>
      refine Succeeds.bind (succeeds_trivial _ _) fun reply _ _ => ?_
      cases reply with
      | ok _ => exact succeeds_pure.mpr rfl
      | error e =>
          dsimp only
          split
          · exact succeeds_pure.mpr rfl
          · exact succeeds_throw

theorem succeeds_compile {input : Text} :
    Succeeds T (fun _ _ => True) (Build.compile c source input)
      (fun f _ => f.origin = intermediateName source ['c']) () := by
  dsimp only [Build.compile]
  refine Succeeds.bind (succeeds_trivial _ _) fun _ _ _ => ?_
  refine Succeeds.bind (succeeds_trivial _ _) fun _ _ _ => ?_
  refine Succeeds.bind (succeeds_trivial _ _) fun _ _ _ => ?_
  refine Succeeds.bind (succeeds_trivial _ _) fun _ _ _ => ?_
  exact Succeeds.bind (succeeds_trivial _ _) fun _ _ _ => succeeds_takeListing

theorem origin_of_compile {input : Text} {f : Fragment}
    (h : (Build.compile c source input).run.run host s = (.ok f, s')) :
    f.origin = intermediateName source ['c'] := by
  have hfollows : host.Follows (fun _ => ()) fun _ _ _ _ => True := fun _ _ => trivial
  exact (Plan.Ensures.of_follows hfollows succeeds_compile).1 f (by rw [h])

theorem preprocessCommand_arguments (c : Config) (source : Path) (s : σ) :
    ((c.preprocessCommand source).run host s).1.arguments =
      (["-E", "-DVERSION=\"java\"", intermediateName source ['c'], "-o",
        intermediateName source ['i']] : List Text) := by
  unfold Config.preprocessCommand Config.command
  exact congrArg (fun made : Command × σ => made.1.arguments) (Plan.run_bind host _ _ s)

/-- The preprocessor is given the source under this name, and its fragment has the name for its
origin. -/
def GoesBy (host : Host σ) (c : Config) (source : Path) (name : Text) : Prop :=
  (∀ s, ((c.preprocessCommand source).run host s).1.arguments[2]? = some name) ∧
  ∀ input s f s', (Build.compile c source input).run.run host s = (.ok f, s') → f.origin = name

theorem goesBy_iff [Nonempty σ] :
    GoesBy host c source name ↔ intermediateName source ['c'] = name := by
  constructor
  · intro ⟨hinput, _⟩
    have hargument := hinput (Classical.arbitrary σ)
    rw [preprocessCommand_arguments] at hargument
    exact Option.some.inj hargument
  · rintro rfl
    refine ⟨fun s => ?_, fun input s f s' h => origin_of_compile h⟩
    rw [preprocessCommand_arguments]
    rfl

def Host.ListsPlain (host : Host σ) : Prop :=
  ∀ directory s names, (host.answer (.entryNames directory) s).1 = .ok names →
    ∀ name ∈ names, IsPlain name

def plainAnswers : Answers Unit := fun r reply _ _ =>
  match r, reply with
  | .entryNames _, .ok names => ∀ name ∈ names, IsPlain name
  | _, _ => True

theorem Host.ListsPlain.follows (h : host.ListsPlain) :
    host.Follows (fun _ => ()) plainAnswers := by
  intro r s
  unfold plainAnswers
  split
  · rename_i directory names hnames
    exact h directory s names hnames
  · trivial

theorem ensures_keepFiles (names : List Text) :
    (Sources.keepFiles directory names).Ensures T (fun _ _ => True)
      (fun kept _ => kept ⊆ names) () := by
  induction names with
  | nil => exact Plan.ensures_pure.mpr (List.Subset.refl _)
  | cons name rest ih =>
      refine Plan.Ensures.bind (Plan.ensures_trivial _ _) fun isFile _ _ => ?_
      refine Plan.Ensures.bind ih fun kept _ hkept => Plan.ensures_pure.mpr ?_
      cases isFile with
      | true => exact List.cons_subset_cons name hkept
      | false => exact List.subset_cons_of_subset name hkept

theorem ensures_discover :
    (Sources.discover directory).Ensures plainAnswers (fun _ _ => True)
      (fun reply _ => ∀ sources, reply = .ok sources → ∀ source ∈ sources,
        ∃ stem, IsPlain (sourceName stem) ∧ source = directory.join ⟨sourceName stem⟩) () := by
  have hnames : (Plan.entryNames directory).Ensures plainAnswers (fun _ _ => True)
      (fun reply _ => ∀ names, reply = .ok names → ∀ name ∈ names, IsPlain name) () := by
    refine Plan.ensures_request.mpr ⟨trivial, fun reply _ hreply names he => ?_⟩
    subst he
    exact hreply
  refine Plan.Ensures.bind hnames fun reply _ hplain => ?_
  cases reply with
  | error e => exact Plan.ensures_pure.mpr fun sources h => (nomatch h)
  | ok names =>
      refine Plan.Ensures.bind (ensures_keepFiles _) fun files _ hfiles => ?_
      refine Plan.ensures_pure.mpr fun sources h source hsource => ?_
      obtain rfl := Except.ok.inj h
      obtain ⟨name, hname, rfl⟩ := List.mem_map.mp hsource
      have hlisted := hfiles ((List.mergeSort_perm files Text.le).mem_iff.mp hname)
      obtain ⟨hmem, hsuffix⟩ := List.mem_filter.mp hlisted
      obtain ⟨stem, rfl⟩ := isSourceName_iff.mp hsuffix
      exact ⟨stem, hplain names rfl _ hmem, rfl⟩

end

/-- A source that has been found goes by its own name, unless this is `.c` or `..c`: then it goes by
the name of another source, or of the parent directory. Two sources have different preprocessed
files and different compiled files, unless they are `.c` and `.c.c`. -/
theorem intermediates_of_discover {σ : Type} {host : Host σ} {s s' : σ} {directory : Path}
    {sources : List Path} (hhost : host.ListsPlain)
    (hrun : (Sources.discover directory).run host s = (.ok sources, s')) (c : Config) :
    (∀ source ∈ sources, ∃ name, IsPlain name ∧ source = directory.join ⟨name⟩ ∧
      (GoesBy host c source name ↔ name ≠ ['.', 'c'] ∧ name ≠ ['.', '.', 'c']) ∧
      (name = ['.', 'c'] → GoesBy host c source ['.', 'c', '.', 'c']) ∧
      (name = ['.', '.', 'c'] → GoesBy host c source ['.', '.'])) ∧
    ∀ a ∈ sources, ∀ b ∈ sources, a ≠ b → ∀ letter ∈ ['i', 'j'],
      (intermediateName a [letter] = intermediateName b [letter] ↔
        a = directory.join ⟨['.', 'c']⟩ ∧ b = directory.join ⟨['.', 'c', '.', 'c']⟩ ∨
        a = directory.join ⟨['.', 'c', '.', 'c']⟩ ∧ b = directory.join ⟨['.', 'c']⟩) := by
  have hfound := (Plan.Ensures.of_follows hhost.follows ensures_discover).1 sources (by rw [hrun])
  have : Nonempty σ := ⟨s⟩
  constructor
  · intro source hsource
    obtain ⟨stem, hplain, rfl⟩ := hfound source hsource
    have hhidden : sourceName stem = ['.', 'c'] ↔ stem = [] := @sourceName_inj stem []
    have hparent : sourceName stem = ['.', '.', 'c'] ↔ stem = ['.'] := @sourceName_inj stem ['.']
    refine ⟨sourceName stem, hplain, rfl, ?_⟩
    simp only [goesBy_iff, intermediateName_source hplain, hhidden, hparent, ne_eq]
    refine ⟨renewedName_eq_self_iff, ?_, ?_⟩
    · rintro rfl
      rfl
    · rintro rfl
      rfl
  · intro a ha b hb hne letter hletter
    obtain ⟨stem, hplain, rfl⟩ := hfound a ha
    obtain ⟨other, hplain', rfl⟩ := hfound b hb
    have hperiod : letter ≠ '.' := fun he => by simp [he] at hletter
    have hstems : stem ≠ other := fun he => hne (he ▸ rfl)
    have hhidden : IsPlain (sourceName []) := by decide
    have hdouble : IsPlain (sourceName ['.', 'c']) := by decide
    rw [intermediateName_source hplain, intermediateName_source hplain',
      renewedName_eq_iff hperiod, or_iff_right hstems]
    exact or_congr
      (and_congr (join_sourceName_inj hplain hhidden) (join_sourceName_inj hplain' hdouble)).symm
      (and_congr (join_sourceName_inj hplain hdouble) (join_sourceName_inj hplain' hhidden)).symm

theorem Rehearsal.listsPlain {rehearsal : Rehearsal} (h : ∀ name ∈ rehearsal.names, IsPlain name) :
    rehearsal.host.ListsPlain := by
  intro directory w names hnames
  obtain rfl : rehearsal.names = names := Except.ok.inj hnames
  exact h

/-- A directory with the source `.c` and another one whose files it shares. -/
def hiddenRehearsal : Rehearsal :=
  { rebuilding with names := [['a', '.', 'c'], ['.', 'c', '.', 'c'], ['.', 'c']] }

def hiddenSources : Scene :=
  .ofFiles [(⟨"/src/a.c"⟩, []), (⟨"/src/.c.c"⟩, []), (⟨"/src/.c"⟩, [])]

theorem intermediates_of_hidden_source :
    ∃ s', (Sources.discover ⟨"/src"⟩).run hiddenRehearsal.host hiddenSources =
        (.ok [⟨"/src/.c"⟩, ⟨"/src/.c.c"⟩, ⟨"/src/a.c"⟩], s') ∧
      ¬ GoesBy hiddenRehearsal.host twoUnitsConfig ⟨"/src/.c"⟩ ['.', 'c'] ∧
      GoesBy hiddenRehearsal.host twoUnitsConfig ⟨"/src/a.c"⟩ ['a', '.', 'c'] ∧
      intermediateName ⟨"/src/.c"⟩ ['i'] = intermediateName ⟨"/src/.c.c"⟩ ['i'] ∧
      intermediateName ⟨"/src/a.c"⟩ ['i'] ≠ intermediateName ⟨"/src/.c.c"⟩ ['i'] := by
  have hhost : hiddenRehearsal.host.ListsPlain := Rehearsal.listsPlain (by decide)
  have hresult : ((Sources.discover ⟨"/src"⟩).run hiddenRehearsal.host hiddenSources).1 =
      .ok [⟨"/src/.c"⟩, ⟨"/src/.c.c"⟩, ⟨"/src/a.c"⟩] := by
    simp only [Sources.discover, Text.mergeSort_eq_insertionSort]
    decide +kernel
  obtain ⟨s', hrun⟩ : ∃ s', (Sources.discover ⟨"/src"⟩).run hiddenRehearsal.host hiddenSources =
      (.ok [⟨"/src/.c"⟩, ⟨"/src/.c.c"⟩, ⟨"/src/a.c"⟩], s') := ⟨_, Prod.ext hresult rfl⟩
  obtain ⟨hnames, hpairs⟩ := intermediates_of_discover hhost hrun twoUnitsConfig
  obtain ⟨name, hplain, hpath, hgoes, -⟩ := hnames ⟨"/src/.c"⟩ (by decide)
  obtain rfl := Path.join_injective ⟨"/src"⟩ (show IsPlain ['.', 'c'] by decide) hplain hpath
  obtain ⟨name, hplain', hpath', hgoes', -⟩ := hnames ⟨"/src/a.c"⟩ (by decide)
  obtain rfl := Path.join_injective ⟨"/src"⟩ (show IsPlain ['a', '.', 'c'] by decide) hplain' hpath'
  refine ⟨s', hrun, fun h => (hgoes.mp h).1 rfl, hgoes'.mpr (by decide), ?_, ?_⟩
  · exact (hpairs _ (by decide) _ (by decide) (by decide) 'i' (by decide)).mpr (by decide)
  · exact (hpairs _ (by decide) _ (by decide) (by decide) 'i' (by decide)).not.mpr (by decide)

end Bytelink
