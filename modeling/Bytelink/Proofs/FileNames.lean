import Bytelink.Build.Pipeline
import Bytelink.Proofs.Scan

/-!
# Names of files

A plain name is what a directory can have as a name of an entry. The path of an entry is the
directory joined with its name, and the name is read back as the last component (`fileName?_join`).
The names of the files that a build derives from a source or from its target are computed here: a
source is its stem with `.c` behind it, and a derived file has the same stem and another extension
(`IsUnit.intermediateName_eq`).
-/
namespace Bytelink

/-- What can be the name of an entry of a directory. -/
structure IsPlain (name : Text) : Prop where
  ne_nil : name ≠ []
  no_slash : '/' ∉ name
  ne_current : name ≠ ['.']
  ne_parent : name ≠ ['.', '.']

instance : DecidablePred IsPlain := fun name =>
  decidable_of_iff (name ≠ [] ∧ '/' ∉ name ∧ name ≠ ['.'] ∧ name ≠ ['.', '.'])
    ⟨fun ⟨h₁, h₂, h₃, h₄⟩ => ⟨h₁, h₂, h₃, h₄⟩,
      fun h => ⟨h.ne_nil, h.no_slash, h.ne_current, h.ne_parent⟩⟩

variable {name other : Text}

theorem IsPlain.component (h : IsPlain name) : Component.ofPiece? name = some (.name name) := by
  unfold Component.ofPiece?
  split
  · exact absurd rfl h.ne_nil
  · exact absurd rfl h.ne_current
  · exact absurd rfl h.ne_parent
  · rfl

theorem IsPlain.isAbsolute_eq_false (h : IsPlain name) : (⟨name⟩ : Path).isAbsolute = false := by
  obtain ⟨c, rest, rfl⟩ := List.exists_cons_of_ne_nil h.ne_nil
  have hc : c ≠ '/' := fun he => h.no_slash (by simp [he])
  simp [Path.isAbsolute, hc]

namespace Path

/-- The text in front of a name that is joined to a path. -/
def lead (p : Path) : Text :=
  if p.text.isEmpty || p.endsInSlash then p.text else p.text ++ ['/']

theorem join_eq (p : Path) (h : IsPlain name) : p.join ⟨name⟩ = ⟨p.lead ++ name⟩ := by
  simp only [join, h.isAbsolute_eq_false, Bool.false_eq_true, if_false, lead]
  split
  · rfl
  · simp

theorem join_injective (p : Path) (h : IsPlain name) (h' : IsPlain other)
    (he : p.join ⟨name⟩ = p.join ⟨other⟩) : name = other := by
  rw [join_eq p h, join_eq p h', Path.mk.injEq] at he
  exact List.append_cancel_left he

theorem components_join (p : Path) (h : IsPlain name) :
    (p.join ⟨name⟩).components = p.components ++ [.name name] := by
  have hname := Text.splitOn_of_not_mem h.no_slash
  have hplain := h.component
  rw [join_eq p h]
  by_cases hempty : p.text = []
  · -- The name alone is the path of the entry.
    have hlead : p.lead = [] := by simp [lead, hempty]
    simp [components, hlead, hempty, hname, Text.splitOn, h.ne_nil, h.ne_current, hplain]
  · by_cases hslash : p.endsInSlash = true
    · -- The slash at the end stands before an empty piece, in whose place the name comes.
      obtain ⟨front, hfront⟩ := List.getLast?_eq_some_iff.mp (by simpa [endsInSlash] using hslash)
      obtain ⟨first, rest, hsplit⟩ := List.exists_cons_of_ne_nil (Text.splitOn_ne_nil '/' front)
      have hpieces (tail : Text) : Text.splitOn '/' (front ++ ['/'] ++ tail) =
          first :: (rest ++ Text.splitOn '/' tail) := by
        rw [List.append_assoc, List.singleton_append, Text.splitOn_append_cons, hsplit,
          List.cons_append]
      have hlead : p.lead = front ++ ['/'] := by simp [lead, hslash, hfront]
      have hbefore : Text.splitOn '/' p.text = first :: (rest ++ [[]]) := by
        simpa [hfront, Text.splitOn] using hpieces []
      have hnone : Component.ofPiece? [] = none := rfl
      simp only [components, hlead, hpieces, hbefore, hname]
      by_cases hfirst : first = []
      · simp [hfirst, hplain, hnone]
      · by_cases hdot : first = ['.'] <;> simp [hfirst, hdot, hplain, hnone]
    · -- Otherwise the name is one more piece.
      obtain ⟨first, rest, hsplit⟩ := List.exists_cons_of_ne_nil (Text.splitOn_ne_nil '/' p.text)
      have hlead : p.lead = p.text ++ ['/'] := by simp [lead, hempty, hslash]
      have hpieces : Text.splitOn '/' (p.lead ++ name) = first :: (rest ++ [name]) := by
        rw [hlead, List.append_assoc, List.singleton_append, Text.splitOn_append_cons, hsplit, hname,
          List.cons_append]
      simp only [components, hpieces, hsplit]
      by_cases hfirst : first = []
      · have hrest : rest ≠ [] := by
          intro hnil
          have hjoin := Text.join_splitOn '/' p.text
          rw [hsplit, hfirst, hnil] at hjoin
          exact hempty hjoin.symm
        simp [hfirst, hrest, hplain]
      · by_cases hdot : first = ['.'] <;> simp [hfirst, hdot, hplain]

theorem fileName?_join (p : Path) (h : IsPlain name) : (p.join ⟨name⟩).fileName? = some name := by
  simp [fileName?, components_join p h]

theorem endsInSlash_append (front : Text) (h : IsPlain name) :
    (⟨front ++ name⟩ : Path).endsInSlash = false := by
  have hlast := List.getLast?_eq_some_getLast h.ne_nil
  have hne : name.getLast h.ne_nil ≠ '/' := fun he => h.no_slash (he ▸ List.getLast_mem h.ne_nil)
  simp [endsInSlash, hlast, hne]

/-- The path from the root of an entry ends in its name as well. -/
theorem absolute_join_eq (p : Path) (h : IsPlain name) {directory full : Path}
    (hfull : (p.join ⟨name⟩).absolute directory = .ok full) :
    full = ((p.components.filterMap Component.text?).foldl (fun q t => q.join ⟨t⟩)
      (start directory (p.join ⟨name⟩))).join ⟨name⟩ := by
  have hends : (p.join ⟨name⟩).endsInSlash = false := by
    rw [join_eq p h]
    exact endsInSlash_append p.lead h
  have htext : (Component.name name).text? = some name := rfl
  unfold absolute at hfull
  split at hfull
  · cases hfull
  · simp only [components_join p h, hends, List.filterMap_append, List.filterMap_cons, htext,
      List.filterMap_nil, List.foldl_append, List.foldl_cons, List.foldl_nil, Bool.false_eq_true,
      if_false, Except.ok.injEq] at hfull
    exact hfull.symm

theorem start_join (p directory : Path) (h : IsPlain name) (hp : p.text ≠ []) :
    start directory (p.join ⟨name⟩) = start directory p := by
  obtain ⟨first, tail, htail⟩ := List.exists_cons_of_ne_nil h.ne_nil
  have hfirst : ¬ '/' = first := by
    intro he
    exact h.no_slash (by simp [htail, ← he])
  obtain ⟨text⟩ := p
  rw [join_eq _ h, htail]
  -- At most three characters matter, and the name does not begin with a slash.
  rcases text with _ | ⟨a, _ | ⟨b, _ | ⟨c, rest⟩⟩⟩
  · exact absurd rfl hp
  · by_cases ha : a = '/' <;>
      simp [start, isAbsolute, lead, endsInSlash, List.isPrefixOf, ha, hfirst]
  · by_cases hb : b = '/' <;>
      simp [start, isAbsolute, lead, endsInSlash, List.isPrefixOf, hb, Ne.symm, hfirst]
  · simp only [start, isAbsolute, lead]
    split <;> simp [List.isPrefixOf]

theorem lead_join_nil (p : Path) : (p.join ⟨[]⟩).lead = p.lead := by
  obtain ⟨text⟩ := p
  have hnil : (⟨[]⟩ : Path).isAbsolute = false := rfl
  simp only [join, hnil, Bool.false_eq_true, if_false, lead]
  split
  · next h =>
      rw [List.append_nil, if_pos h]
  · simp [endsInSlash]

/-- The path from the root of an entry is that of the directory and its name. -/
theorem absolute_join (p : Path) (h : IsPlain name) (hp : p.text ≠ []) {directory full : Path}
    (hfull : (p.join ⟨name⟩).absolute directory = .ok full) :
    ∃ q, p.absolute directory = .ok q ∧ full = q.join ⟨name⟩ := by
  have hfull' := absolute_join_eq p h hfull
  rw [start_join p directory h hp] at hfull'
  unfold absolute
  rw [if_neg (by simpa using hp)]
  refine ⟨_, rfl, hfull'.trans ?_⟩
  split
  · rw [join_eq _ h, join_eq _ h, lead_join_nil]
  · rfl

theorem fileName?_absolute_join (p : Path) (h : IsPlain name) {directory full : Path}
    (hfull : (p.join ⟨name⟩).absolute directory = .ok full) : full.fileName? = some name := by
  rw [absolute_join_eq p h hfull]
  exact fileName?_join _ h

end Path

def sourceName (stem : Text) : Text := stem ++ ['.', 'c']

variable {stem extension : Text}

theorem isSourceName_iff : Sources.isSourceName name = true ↔ ∃ stem, name = sourceName stem := by
  rw [Sources.isSourceName, Option.isSome_iff_exists]
  exact exists_congr fun stem => Text.stripEnd_eq_some_iff

theorem getLast?_sourceName (stem : Text) : (sourceName stem).getLast? = some 'c' := by
  simp [sourceName]

theorem splitExtension_sourceName (h : stem ≠ []) :
    splitExtension (sourceName stem) = (stem, some ['c']) := by
  have hparent : sourceName stem ≠ ['.', '.'] := fun he => by
    simpa [he] using getLast?_sourceName stem
  have hmem : '.' ∈ sourceName stem := by simp [sourceName]
  have hreverse : (sourceName stem).reverse = 'c' :: '.' :: stem.reverse := by simp [sourceName]
  have hdrop : (('c' :: '.' :: stem.reverse).dropWhile (· != '.')) = '.' :: stem.reverse := by
    simp [List.dropWhile]
  have htake : (('c' :: '.' :: stem.reverse).takeWhile (· != '.')) = ['c'] := by
    simp [List.takeWhile]
  simp [splitExtension, hparent, hmem, hreverse, hdrop, htake, h]

theorem withExtension_sourceName (h : stem ≠ []) (hdot : stem ≠ ['.']) (he : extension ≠ []) :
    withExtension (sourceName stem) extension = stem ++ '.' :: extension := by
  have hempty : extension.isEmpty = false := by simpa using he
  simp only [withExtension, splitExtension_sourceName h, hdot, if_false, hempty,
    Bool.false_eq_true]

theorem withExtension_of_no_period (h : name ≠ []) (hperiod : '.' ∉ name) (he : extension ≠ []) :
    withExtension name extension = name ++ '.' :: extension := by
  have hempty : extension.isEmpty = false := by simpa using he
  have hcurrent : name ≠ ['.'] := fun h => hperiod (by simp [h])
  have hparent : name ≠ ['.', '.'] := fun h => hperiod (by simp [h])
  have hsplit : splitExtension name = (name, none) := by simp [splitExtension, hparent, hperiod]
  simp only [withExtension, hsplit, h, hcurrent, hparent, or_self, if_false, hempty,
    Bool.false_eq_true]

theorem intermediateName_join (p : Path) (h : IsPlain name) :
    intermediateName (p.join ⟨name⟩) extension = withExtension name extension := by
  simp only [intermediateName, Path.fileName?_join p h]

theorem IsPlain.withStem {c : Char} (h : IsPlain (sourceName stem)) (hc : c ≠ '/')
    (hperiod : c ≠ '.') : IsPlain (stem ++ ['.', c]) := by
  have hslash := h.no_slash
  have hlast : (stem ++ ['.', c]).getLast? = some c := by simp
  refine ⟨by simp, ?_, ?_, ?_⟩
  · simp only [sourceName, List.mem_append, List.mem_cons, List.not_mem_nil, or_false,
      not_or] at hslash ⊢
    exact ⟨hslash.1, hslash.2.1, Ne.symm hc⟩
  · intro he
    simp [he, Ne.symm hperiod] at hlast
  · intro he
    simp [he, Ne.symm hperiod] at hlast

def madeName (stem : Text) (letter : Char) : Text := stem ++ ['.', letter]

theorem getLast?_madeName (stem : Text) (letter : Char) :
    (madeName stem letter).getLast? = some letter := by
  simp [madeName]

theorem madeName_ne {stem name : Text} {letter last : Char} (hlast : name.getLast? = some last)
    (hne : letter ≠ last) : madeName stem letter ≠ name := by
  intro he
  rw [← he, getLast?_madeName] at hlast
  exact hne (Option.some.inj hlast)

/-- A source whose derived files have names of their own. -/
structure IsUnit (name stem : Text) : Prop where
  name_eq : name = sourceName stem
  plain : IsPlain name
  stem_ne_nil : stem ≠ []
  stem_ne_current : stem ≠ ['.']

namespace IsUnit

variable {name stem : Text} (h : IsUnit name stem)
include h

theorem intermediateName_eq (directory : Path) (letter : Char) :
    intermediateName (directory.join ⟨name⟩) [letter] = madeName stem letter := by
  rw [intermediateName_join directory h.plain, h.name_eq,
    withExtension_sourceName h.stem_ne_nil h.stem_ne_current (by simp)]
  rfl

theorem plain_madeName {letter : Char} (hslash : letter ≠ '/') (hperiod : letter ≠ '.') :
    IsPlain (madeName stem letter) :=
  (h.name_eq ▸ h.plain).withStem hslash hperiod

end IsUnit

/-- A name that is taken for a source, and is not the extension alone. -/
structure IsSource (name : Text) : Prop where
  plain : IsPlain name
  stem : ∃ stem, stem ≠ [] ∧ name = sourceName stem

namespace IsSource

variable {name other : Text}

/-- The files of a source have names of their own, except for the source `..c`, for which the parent
directory is named instead. -/
theorem unit_or_parent (h : IsSource name) (directory : Path) : (∃ stem, IsUnit name stem) ∨
    name = sourceName ['.'] ∧
      ∀ letter, intermediateName (directory.join ⟨name⟩) [letter] = ['.', '.'] := by
  obtain ⟨stem, hne, hname⟩ := h.stem
  by_cases hdot : stem = ['.']
  · refine Or.inr ⟨hdot ▸ hname, fun letter => ?_⟩
    rw [intermediateName_join directory h.plain, hname, hdot, withExtension,
      splitExtension_sourceName (by simp)]
    rfl
  · exact Or.inl ⟨stem, hname, h.plain, hne, hdot⟩

theorem unit_of_plain (h : IsSource name) {directory : Path} {letter : Char}
    (hplain : IsPlain (intermediateName (directory.join ⟨name⟩) [letter])) :
    ∃ stem, IsUnit name stem := by
  rcases h.unit_or_parent directory with hunit | ⟨-, hparent⟩
  · exact hunit
  · rw [hparent] at hplain
    exact absurd rfl hplain.ne_parent

/-- A source is known by the name under which it is given to the preprocessor. -/
theorem eq_of_intermediateName_eq (h : IsSource name) (h' : IsSource other) {directory : Path}
    (he : intermediateName (directory.join ⟨name⟩) ['c'] =
      intermediateName (directory.join ⟨other⟩) ['c']) : name = other := by
  rcases h.unit_or_parent directory with ⟨stem, hunit⟩ | ⟨hname, hparent⟩
  · have hself := hunit.intermediateName_eq directory 'c'
    rcases h'.unit_or_parent directory with ⟨stem', hunit'⟩ | ⟨-, hparent'⟩
    · rw [hself, hunit'.intermediateName_eq] at he
      exact hunit.name_eq.trans (he.trans hunit'.name_eq.symm)
    · rw [hself, hparent'] at he
      exact absurd (hunit.name_eq.trans he) h.plain.ne_parent
  · rcases h'.unit_or_parent directory with ⟨stem', hunit'⟩ | ⟨hname', -⟩
    · rw [hparent, hunit'.intermediateName_eq] at he
      exact absurd (hunit'.name_eq.trans he.symm) h'.plain.ne_parent
    · exact hname.trans hname'.symm

end IsSource

namespace Target

theorem simpleName_mem (t : Target) : t.simpleName ∈ t.segments := by
  have hne : t.segments ≠ [] := Text.splitOn_ne_nil '/' t.name
  rw [simpleName, List.getLast?_eq_some_getLast hne]
  exact List.getLast_mem hne

theorem simpleName_ne_nil (t : Target) : t.simpleName ≠ [] :=
  t.valid.segments_ne_nil _ t.simpleName_mem

theorem no_slash_simpleName (t : Target) : '/' ∉ t.simpleName :=
  Text.not_mem_of_mem_splitOn t.simpleName_mem

theorem no_period_simpleName (t : Target) : '.' ∉ t.simpleName := fun h => by
  have hforbidden := t.valid.allowed '.' (Text.mem_of_mem_splitOn t.simpleName_mem h)
  exact absurd hforbidden (by decide)

theorem isPlain_simpleName_append (t : Target) {tail : Text} {c : Char} (hslash : '/' ∉ tail)
    (hlast : tail.getLast? = some c) (hc : c ≠ '.') : IsPlain (t.simpleName ++ tail) := by
  have hwhole : (t.simpleName ++ tail).getLast? = some c := by
    rw [List.getLast?_append, hlast, Option.some_or]
  refine ⟨?_, ?_, ?_, ?_⟩
  · intro he
    simp [he] at hwhole
  · rw [List.mem_append, not_or]
    exact ⟨t.no_slash_simpleName, hslash⟩
  · intro he
    simp [he, Ne.symm hc] at hwhole
  · intro he
    simp [he, Ne.symm hc] at hwhole

def segmentName (t : Target) : Text := t.simpleName ++ '.' :: ['g', 'l', 'o', 'b', 'a', 'l']

def className (t : Target) : Text := t.simpleName ++ ['.', 'c', 'l', 'a', 's', 's']

theorem segmentFile_eq (t : Target) : Build.segmentFile t = ⟨t.segmentName⟩ := by
  have hname : withExtension t.simpleName ['g', 'l', 'o', 'b', 'a', 'l'] = t.segmentName :=
    withExtension_of_no_period t.simpleName_ne_nil t.no_period_simpleName (by simp)
  exact congrArg Path.mk hname

theorem isPlain_segmentName (t : Target) : IsPlain t.segmentName :=
  t.isPlain_simpleName_append (c := 'l') (by decide) (by decide) (by decide)

theorem isPlain_className (t : Target) : IsPlain t.className :=
  t.isPlain_simpleName_append (c := 's') (by decide) (by decide) (by decide)

theorem getLast?_segmentName (t : Target) : t.segmentName.getLast? = some 'l' := by
  simp [segmentName]

theorem getLast?_className (t : Target) : t.className.getLast? = some 's' := by
  simp [className]

theorem className_ne_sourceName (t : Target) (stem : Text) : t.className ≠ sourceName stem := by
  intro he
  have hlast := t.getLast?_className
  rw [he, getLast?_sourceName] at hlast
  exact absurd hlast (by decide)

theorem fileName?_classFile (t : Target) (directory : Path) :
    (t.classFile directory).fileName? = some t.className := by
  rw [classFile, List.foldl_append]
  exact Path.fileName?_join _ t.isPlain_className

end Target

end Bytelink
