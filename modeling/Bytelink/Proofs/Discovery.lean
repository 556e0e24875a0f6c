import Bytelink.Proofs.Preparing
import Bytelink.Proofs.Rehearsal

/-!
# Discovery of sources

A `Folder` is what a directory holds: names that differ, and which of them are regular files, links
followed. A host shows a folder if it lists the names in some order and tells of each name what it
is; nothing else is asked of it when sources are discovered. Discovery sorts names. To sort the
paths component by component comes to the same, because the paths of the entries of one directory
differ in their last component only (`Path.le_join`).
-/
namespace Bytelink

/-- The names in a directory, and which of them are those of regular files, links followed. -/
structure Folder where
  names : List Text
  isRegular : Text → Bool
  nodup : names.Nodup
  plain : ∀ name ∈ names, IsPlain name

/-- As long as `J` holds, the host lists the names in the folder in some order and tells which of
them are regular files, and `J` holds on. -/
structure Host.Shows {σ : Type} (host : Host σ) (J : σ → Prop) (directory : Path)
    (folder : Folder) : Prop where
  lists : ∀ s, J s → ∃ names s', host.answer (.entryNames directory) s = (Except.ok names, s') ∧
    names.Perm folder.names ∧ J s'
  tells : ∀ s, J s → ∀ name ∈ folder.names, ∃ s',
    host.answer (.isFile (directory.join ⟨name⟩)) s = (folder.isRegular name, s') ∧ J s'

/-- Steps that are no names come before those that are, in an order of their own. -/
def Component.rank : Component → Nat
  | .root => 0
  | .current => 1
  | .parent => 2
  | .name _ => 3

def Component.le : Component → Component → Bool
  | .name s, .name t => Text.le s t
  | a, b => a.rank ≤ b.rank

/-- Lists of steps in the order of their first difference. -/
def Component.listLe : List Component → List Component → Bool
  | [], _ => true
  | _ :: _, [] => false
  | a :: p, b :: q => if a = b then listLe p q else a.le b

def Path.le (p q : Path) : Bool := Component.listLe p.components q.components

theorem Component.listLe_append (front p q : List Component) :
    listLe (front ++ p) (front ++ q) = listLe p q := by
  induction front with
  | nil => rfl
  | cons a front ih =>
      rw [List.cons_append, List.cons_append, listLe, if_pos rfl, ih]

/-- The paths of two entries of a directory are in the order of their names. -/
theorem Path.le_join (directory : Path) {name other : Text} (h : IsPlain name)
    (h' : IsPlain other) :
    (directory.join ⟨name⟩).le (directory.join ⟨other⟩) = Text.le name other := by
  rw [Path.le, components_join directory h, components_join directory h',
    Component.listLe_append]
  by_cases he : name = other
  · subst he
    have hself : Text.le name name = true := by simpa using Text.le_total name name
    rw [Component.listLe, if_pos rfl, hself]
    rfl
  · have hne : Component.name name ≠ Component.name other := fun h => he (Component.name.inj h)
    rw [Component.listLe, if_neg hne]
    rfl

namespace Sources

def hasExtension (path : Path) : Bool :=
  (path.fileName?.bind (Text.stripEnd ['c'])).any (·.getLast? == some '.')

def arrange (paths : List Path) : List Path := (paths.filter hasExtension).mergeSort Path.le

theorem isSourceName_iff_suffix {name : Text} :
    isSourceName name = true ↔ ['.', 'c'] <:+ name :=
  isSourceName_iff.trans (exists_congr fun _ => eq_comm)

/-- To look for the letter and then for the period in front of it is to look for both. -/
theorem hasExtension_join (directory : Path) {name : Text} (h : IsPlain name) :
    hasExtension (directory.join ⟨name⟩) = isSourceName name := by
  rw [Bool.eq_iff_iff, isSourceName_iff, hasExtension, Path.fileName?_join directory h,
    Option.bind_some, Option.any_eq_true]
  simp only [beq_iff_eq, Text.stripEnd_eq_some_iff, List.getLast?_eq_some_iff]
  constructor
  · rintro ⟨front, rfl, stem, rfl⟩
    exact ⟨stem, List.append_assoc stem ['.'] ['c']⟩
  · rintro ⟨stem, rfl⟩
    exact ⟨stem ++ ['.'], (List.append_assoc stem ['.'] ['c']).symm, stem, rfl⟩

end Sources

namespace Folder

variable {σ : Type} {host : Host σ} {J : σ → Prop} {directory : Path} {folder : Folder} {s : σ}
  {names : List Text}

def sources (folder : Folder) : List Text :=
  (folder.names.filter fun name => folder.isRegular name && Sources.isSourceName name).mergeSort
    Text.le

theorem mem_sources {name : Text} : name ∈ folder.sources ↔
    name ∈ folder.names ∧ folder.isRegular name = true ∧ ['.', 'c'] <:+ name := by
  rw [sources, List.mem_mergeSort, List.mem_filter, Bool.and_eq_true,
    Sources.isSourceName_iff_suffix]

theorem plain_of_mem_sources {name : Text} (h : name ∈ folder.sources) : IsPlain name :=
  folder.plain name (mem_sources.mp h).1

theorem mergeSort_filter_eq (h : names.Perm folder.names) :
    ((names.filter Sources.isSourceName).filter folder.isRegular).mergeSort Text.le =
      folder.sources := by
  rw [List.filter_filter]
  exact Text.mergeSort_eq_of_perm (h.filter _)

/-- The entries that are asked about are told apart one by one. -/
theorem run_keepFiles (h : host.Shows J directory folder) (hs : J s)
    (hnames : ∀ name ∈ names, name ∈ folder.names) : ∃ s',
      (Sources.keepFiles directory names).run host s = (names.filter folder.isRegular, s') := by
  induction names generalizing s with
  | nil => exact ⟨s, rfl⟩
  | cons name rest ih =>
      rw [List.forall_mem_cons] at hnames
      obtain ⟨between, hasked, hbetween⟩ := h.tells s hs name hnames.1
      obtain ⟨s', hrest⟩ := ih hbetween hnames.2
      have hfirst : (Plan.isFile (directory.join ⟨name⟩)).run host s =
          (folder.isRegular name, between) := hasked
      refine ⟨s', ?_⟩
      change ((Plan.isFile (directory.join ⟨name⟩)).bind fun isFile =>
        (Sources.keepFiles directory rest).bind fun kept =>
          .done (if isFile then name :: kept else kept)).run host s = _
      rw [Plan.run_bind, hfirst, Plan.run_bind, hrest, List.filter_cons]
      rfl

/-- Discovery finds the sources of a folder, whatever the order in which it is listed. -/
theorem run_discover (h : host.Shows J directory folder) (hs : J s) : ∃ s',
    (Sources.discover directory).run host s =
      (.ok (folder.sources.map fun name => directory.join ⟨name⟩), s') := by
  obtain ⟨names, between, hasked, hperm, hbetween⟩ := h.lists s hs
  have hnames : ∀ name ∈ names.filter Sources.isSourceName, name ∈ folder.names := by
    intro name hname
    exact hperm.mem_iff.mp (List.mem_of_mem_filter hname)
  obtain ⟨s', hkept⟩ := run_keepFiles h hbetween hnames
  have hlisted : (Plan.entryNames directory).run host s = (.ok names, between) := hasked
  refine ⟨s', ?_⟩
  rw [← mergeSort_filter_eq hperm, Sources.discover]
  change ((Plan.entryNames directory).bind _).run host s = _
  rw [Plan.run_bind, hlisted]
  change ((Sources.keepFiles directory _).bind _).run host between = _
  rw [Plan.run_bind, hkept]
  rfl

/-- Sorting the paths of the entries puts them in the order of their names. -/
theorem arrange_eq (directory : Path) (h : names.Perm folder.names) :
    Sources.arrange ((names.filter folder.isRegular).map fun name => directory.join ⟨name⟩) =
      folder.sources.map fun name => directory.join ⟨name⟩ := by
  have hplain : ∀ name ∈ (names.filter Sources.isSourceName).filter folder.isRegular,
      IsPlain name := by
    intro name hname
    exact folder.plain name (h.mem_iff.mp (List.mem_of_mem_filter (List.mem_of_mem_filter hname)))
  have hsuffix : (names.filter folder.isRegular).filter
      (Sources.hasExtension ∘ fun name => directory.join ⟨name⟩) =
        (names.filter folder.isRegular).filter Sources.isSourceName := by
    apply List.filter_congr
    intro name hname
    exact Sources.hasExtension_join directory
      (folder.plain name (h.mem_iff.mp (List.mem_of_mem_filter hname)))
  rw [Sources.arrange, List.filter_map, hsuffix, ← mergeSort_filter_eq h, List.filter_comm,
    List.map_mergeSort]
  intro name hname other hother
  exact (Path.le_join directory (hplain name hname) (hplain other hother)).symm

/-- Discovery is exact. It returns the paths of the regular files in the directory whose names end
in `.c`, each once and in the strict order of the bytes of the names. The list is the same in
whatever order the directory is listed and whatever else the host does, and sorting the paths of the
entries component by component gives it as well. -/
theorem discover_exact (h : host.Shows J directory folder) (hs : J s) : ∃ found s',
    (Sources.discover directory).run host s = (.ok found, s') ∧
      (∀ path, path ∈ found ↔ ∃ name ∈ folder.names, folder.isRegular name = true ∧
        ['.', 'c'] <:+ name ∧ path = directory.join ⟨name⟩) ∧
      found.Nodup ∧
      (found.Pairwise fun a b => ∃ first second, a.fileName? = some first ∧
        b.fileName? = some second ∧ Utf8.encode first < Utf8.encode second) ∧
      (∀ (τ : Type) (other : Host τ) (K : τ → Prop) (t : τ), other.Shows K directory folder →
        K t → ((Sources.discover directory).run other t).1 = .ok found) ∧
      ∀ names : List Text, names.Perm folder.names →
        Sources.arrange ((names.filter folder.isRegular).map fun name => directory.join ⟨name⟩) =
          found := by
  obtain ⟨s', hrun⟩ := run_discover h hs
  have hnodup : folder.sources.Nodup :=
    (List.mergeSort_perm _ _).nodup_iff.mpr (folder.nodup.filter _)
  refine ⟨_, s', hrun, ?_, ?_, ?_, ?_, fun names => arrange_eq directory⟩
  · intro path
    rw [List.mem_map]
    constructor
    · rintro ⟨name, hname, rfl⟩
      obtain ⟨hmem, hregular, hsuffix⟩ := mem_sources.mp hname
      exact ⟨name, hmem, hregular, hsuffix, rfl⟩
    · rintro ⟨name, hmem, hregular, hsuffix, rfl⟩
      exact ⟨name, mem_sources.mpr ⟨hmem, hregular, hsuffix⟩, rfl⟩
  · apply List.Nodup.map_on ?_ hnodup
    intro name hname other hother he
    have hplain := plain_of_mem_sources hname
    exact Path.join_injective directory hplain (plain_of_mem_sources hother) he
  · rw [List.pairwise_map]
    have hsorted : folder.sources.Pairwise fun a b => Utf8.encode a < Utf8.encode b :=
      pairwise_encode_lt (folder.nodup.filter _)
    refine hsorted.imp_of_mem ?_
    intro name other hname hother hlt
    exact ⟨name, other, Path.fileName?_join directory (plain_of_mem_sources hname),
      Path.fileName?_join directory (plain_of_mem_sources hother), hlt⟩
  · intro τ other K t hother ht
    obtain ⟨t', hsame⟩ := run_discover hother ht
    rw [hsame]

/-- A rehearsal shows the folder whose names it lists and whose files are in the scene. -/
theorem shows_rehearsal {rehearsal : Rehearsal} {scene : Scene}
    (hnames : rehearsal.names.Perm folder.names)
    (hregular : ∀ name ∈ folder.names,
      (Rehearsal.holds scene.places (directory.join ⟨name⟩)).isSome = folder.isRegular name) :
    rehearsal.host.Shows (fun w => w.places = scene.places) directory folder := by
  constructor
  · intro w hw
    exact ⟨rehearsal.names, _, rfl, hnames, hw⟩
  · intro w hw name hname
    refine ⟨_, Prod.ext ?_ rfl, hw⟩
    rw [← hregular name hname, ← hw]
    rfl

/-- Three sources, a directory with the name of one, and a file with another extension. -/
def mixed : Folder where
  names := ["zeta.c", ".c", "nested.c", "alpha.c", "alpha.cc"].map String.toList
  isRegular name := decide (name ≠ "nested.c".toList)
  nodup := by decide
  plain := by decide

/-- A rehearsal in which the names in the folder come in this order. -/
def listing (names : List Text) : Rehearsal := { rebuilding with names := names }

def mixedScene : Scene := .ofFiles
  [(⟨"/src/zeta.c"⟩, []), (⟨"/src/.c"⟩, []), (⟨"/src/alpha.c"⟩, []), (⟨"/src/alpha.cc"⟩, [])]

theorem discover_mixed :
    ((Sources.discover ⟨"/src"⟩).run (listing mixed.names).host mixedScene).1 =
        .ok [⟨"/src/.c"⟩, ⟨"/src/alpha.c"⟩, ⟨"/src/zeta.c"⟩] ∧
      ((Sources.discover ⟨"/src"⟩).run (listing mixed.names.reverse).host mixedScene).1 =
        .ok [⟨"/src/.c"⟩, ⟨"/src/alpha.c"⟩, ⟨"/src/zeta.c"⟩] := by
  have hregular : ∀ name ∈ mixed.names,
      (Rehearsal.holds mixedScene.places ((⟨"/src"⟩ : Path).join ⟨name⟩)).isSome =
        mixed.isRegular name := by decide
  have hfound : ((Sources.discover ⟨"/src"⟩).run (listing mixed.names).host mixedScene).1 =
      .ok [⟨"/src/.c"⟩, ⟨"/src/alpha.c"⟩, ⟨"/src/zeta.c"⟩] := by
    simp only [Sources.discover, Text.mergeSort_eq_insertionSort]
    decide +kernel
  have hshows : (listing mixed.names).host.Shows (fun w => w.places = mixedScene.places) ⟨"/src"⟩
      mixed := shows_rehearsal (.refl _) hregular
  have hreversed : (listing mixed.names.reverse).host.Shows
      (fun w => w.places = mixedScene.places) ⟨"/src"⟩ mixed :=
    shows_rehearsal (List.reverse_perm _) hregular
  obtain ⟨found, s', hrun, -, -, -, hsame, -⟩ := discover_exact hshows (s := mixedScene) rfl
  rw [hrun] at hfound
  obtain rfl := Except.ok.inj hfound
  exact ⟨congrArg Prod.fst hrun, hsame Scene _ _ mixedScene hreversed rfl⟩

end Folder

end Bytelink
