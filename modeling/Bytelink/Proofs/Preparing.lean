import Bytelink.Proofs.Encoding
import Bytelink.Proofs.ToolRuns
import Mathlib.Data.List.Sort

/-!
# What is known before the first tool runs

Whatever the order in which the directory lists its entries, discovery finds the sources in the
order of the bytes of their names, each once (`Site.Lists`): the order of texts is total, so sorting
depends on the set of names alone. Clearing the ground changes no source, so the list and the
contents are those from before the build.
-/
namespace Bytelink

namespace Text

theorem le_total (s t : Text) : (le s t || le t s) = true := by
  induction s generalizing t with
  | nil => simp [le]
  | cons a s ih =>
      cases t with
      | nil => simp [le]
      | cons b t =>
          by_cases hab : a = b
          · simpa [le, hab] using ih t
          · have hba : b ≠ a := Ne.symm hab
            by_cases hlt : a < b
            · simp [le, hab, hlt]
            · have hle : b ≤ a := Char.not_lt.mp hlt
              have hgt : b < a := Char.not_le.mp fun h => hab (Char.le_antisymm h hle)
              simp [le, hab, hba, hgt]

theorem le_trans (s t u : Text) (hst : le s t = true) (htu : le t u = true) : le s u = true := by
  induction s generalizing t u with
  | nil => rfl
  | cons a s ih =>
      cases t with
      | nil => simp [le] at hst
      | cons b t =>
          cases u with
          | nil => simp [le] at htu
          | cons c u =>
              by_cases hab : a = b
              · subst hab
                by_cases hac : a = c
                · subst hac
                  simp only [le, if_true] at hst htu ⊢
                  exact ih t u hst htu
                · simpa [le, hac] using htu
              · have hlt : a < b := by simpa [le, hab] using hst
                by_cases hbc : b = c
                · subst hbc
                  simp [le, hab, hlt]
                · have hlt' : b < c := by simpa [le, hbc] using htu
                  have hac : a < c := Char.lt_trans hlt hlt'
                  have hne : a ≠ c := fun he => Char.lt_irrefl c (he ▸ hac)
                  simp [le, hne, hac]

theorem le_antisymm (s t : Text) (hst : le s t = true) (hts : le t s = true) : s = t := by
  by_contra hne
  exact List.lt_asymm (Utf8.encode_lt_of_le hst hne) (Utf8.encode_lt_of_le hts (Ne.symm hne))

theorem mergeSort_eq_insertionSort (names : List Text) :
    names.mergeSort le = names.insertionSort (le · ·) := by
  have : Std.Total (α := Text) (le · ·) := ⟨fun s t => by simpa using le_total s t⟩
  have : IsTrans Text (le · ·) := ⟨le_trans⟩
  have : Std.Antisymm (α := Text) (le · ·) := ⟨le_antisymm⟩
  simpa using List.mergeSort_eq_insertionSort (r := (le · ·)) names

theorem mergeSort_eq_of_perm {names names' : List Text} (h : names'.Perm names) :
    names'.mergeSort le = names.mergeSort le := by
  have hperm : (names'.mergeSort le).Perm (names.mergeSort le) :=
    (List.mergeSort_perm names' le).trans (h.trans (List.mergeSort_perm names le).symm)
  exact hperm.eq_of_pairwise (fun a b _ _ => le_antisymm a b)
    (List.pairwise_mergeSort le_trans le_total names')
    (List.pairwise_mergeSort le_trans le_total names)

end Text

theorem pairwise_encode_lt {names : List Text} (h : names.Nodup) :
    (names.mergeSort Text.le).Pairwise fun a b => Utf8.encode a < Utf8.encode b := by
  have hsorted := List.pairwise_mergeSort Text.le_trans Text.le_total names
  have hnodup : (names.mergeSort Text.le).Nodup :=
    (List.mergeSort_perm names Text.le).nodup_iff.mpr h
  refine (List.pairwise_and_iff.mpr ⟨hsorted, hnodup⟩).imp ?_
  rintro a b ⟨hle, hne⟩
  exact Utf8.encode_lt_of_le hle hne

namespace Site

variable {site : Site} {J : Workshop → Prop} {w : Workshop} {name : Text}

/-- The content of a regular file in the source directory. -/
def content? (site : Site) (w : Workshop) (name : Text) : Option Bytes :=
  match site.entry w name with
  | some (.file content) => some content
  | _ => none

theorem content?_eq_some_iff {content : Bytes} :
    site.content? w name = some content ↔ site.entry w name = some (.file content) := by
  unfold content?
  split
  · rename_i found h
    simp [h]
  · rename_i h
    constructor
    · intro hc
      cases hc
    · intro he
      exact absurd he (h content)

/-- The names of the sources, each once, in the order of their bytes. -/
structure Lists (site : Site) (w : Workshop) (names : List Text) : Prop where
  sorted : names.Pairwise fun a b => Utf8.encode a < Utf8.encode b
  complete : ∀ name, name ∈ names ↔
    IsPlain name ∧ (∃ stem, name = sourceName stem) ∧
      ∃ content, site.entry w name = some (.file content)

theorem Lists.congr {w' : Workshop} {names : List Text} (h : site.Lists w' names)
    (hkept : ∀ name, IsPlain name → (∃ stem, name = sourceName stem) →
      site.content? w' name = site.content? w name) : site.Lists w names := by
  refine ⟨h.sorted, fun name => (h.complete name).trans ?_⟩
  refine and_congr_right fun hplain => and_congr_right fun hstem => exists_congr fun content => ?_
  rw [← content?_eq_some_iff, ← content?_eq_some_iff, hkept name hplain hstem]

theorem ensures_isFile {path : Path} (hidle : w.Idle) :
    site.Ensures J (Plan.isFile path) (fun reply w' => w' = w ∧
      (reply = true ↔ ∃ content, w.node path = some (.file content))) w := by
  refine ensures_of_idle hidle trivial ?_
  rintro reply w' ⟨rfl, hreply⟩
  exact ⟨rfl, hreply⟩

theorem ensures_keepFiles (hidle : w.Idle) (names : List Text) :
    site.Ensures J (Sources.keepFiles site.directory names) (fun kept w' => w' = w ∧
      kept = names.filter fun name => (site.content? w name).isSome) w := by
  induction names with
  | nil => exact Plan.ensures_pure.mpr ⟨rfl, rfl⟩
  | cons name rest ih =>
      refine Plan.Ensures.bind (ensures_isFile hidle) ?_
      rintro isFile w₁ ⟨rfl, hisFile⟩
      refine Plan.Ensures.bind ih ?_
      rintro kept w₂ ⟨rfl, rfl⟩
      refine Plan.ensures_pure.mpr ⟨rfl, ?_⟩
      have hsome : isFile = (site.content? w₂ name).isSome := by
        rw [Bool.eq_iff_iff, hisFile, Option.isSome_iff_exists]
        exact exists_congr fun content => content?_eq_some_iff.symm
      rw [List.filter_cons, hsome]

theorem ensures_discover (hidle : w.Idle) :
    site.Ensures J (Sources.discover site.directory) (fun reply w' => w' = w ∧
      ∀ paths, reply = .ok paths → ∃ names, site.Lists w names ∧
        paths = names.map fun name => site.directory.join ⟨name⟩) w := by
  have hnames : site.Ensures J (Plan.entryNames site.directory) (fun reply w' => w' = w ∧
      ∀ names, reply = .ok names →
        names.Nodup ∧ ∀ name, name ∈ names ↔ IsPlain name ∧ site.entry w name ≠ none) w := by
    refine ensures_of_idle hidle trivial ?_
    rintro reply w' ⟨rfl, hreply⟩
    exact ⟨rfl, hreply rfl⟩
  refine Plan.Ensures.bind hnames ?_
  rintro (e | names) _ ⟨rfl, hlisted⟩
  · exact Plan.ensures_pure.mpr ⟨rfl, fun paths h => (nomatch h)⟩
  · obtain ⟨hnodup, hmem⟩ := hlisted names rfl
    refine Plan.Ensures.bind (ensures_keepFiles hidle _) ?_
    rintro files _ ⟨rfl, rfl⟩
    refine Plan.ensures_pure.mpr ⟨rfl, fun paths h => ?_⟩
    obtain rfl := Except.ok.inj h
    refine ⟨_, ⟨pairwise_encode_lt ?_, ?_⟩, rfl⟩
    · exact (hnodup.filter _).filter _
    · intro name
      rw [(List.mergeSort_perm _ _).mem_iff, List.mem_filter, List.mem_filter, hmem,
        isSourceName_iff, Option.isSome_iff_exists]
      simp only [content?_eq_some_iff]
      constructor
      · rintro ⟨⟨⟨hplain, -⟩, hstem⟩, hfile⟩
        exact ⟨hplain, hstem, hfile⟩
      · rintro ⟨hplain, hstem, content, hfile⟩
        exact ⟨⟨⟨hplain, by simp [hfile]⟩, hstem⟩, content, hfile⟩

theorem idle_of_jobs_eq {w' : Workshop} (hidle : w.Idle) (h : w'.jobs = w.jobs) : w'.Idle :=
  fun run => by rw [h, hidle run]

theorem makes_onFile {α : Type} {path : Path} {operation : Plan (Except SystemError α)}
    {Q : α → Workshop → Prop}
    (h : site.Ensures J operation (fun reply w' => ∀ value, reply = .ok value → Q value w') w) :
    site.Makes J (Build.onFile path operation) Q w := by
  refine Plan.Ensures.bind h ?_
  rintro (e | value) w' hvalue
  · exact Plan.ensures_pure.mpr fun value h => (nomatch h)
  · refine Plan.ensures_pure.mpr fun other h => ?_
    exact Except.ok.inj h ▸ hvalue value rfl

theorem makes_report {ε : Type} {level : Level} {reporter : Reporter} {text : Text}
    {Q : Unit → Workshop → Prop} (hidle : w.Idle) (hQ : Q () w) :
    site.Makes J (liftM (Plan.report level reporter text) : ExceptT ε Plan Unit) Q w := by
  refine succeeds_lift.mpr ((ensures_report (stable_of_idle hidle) rfl).mono ?_)
  intro _ w' hw
  exact hw ▸ hQ

/-- What is logged in between changes nothing. -/
theorem makes_reported {ε α : Type} {level : Level} {reporter : Reporter} {text : Text}
    {next : ExceptT ε Plan α} {Q : α → Workshop → Prop} (hidle : w.Idle)
    (h : site.Makes J next Q w) :
    site.Makes J (liftM (Plan.report level reporter text) >>= fun _ => next) Q w := by
  refine Succeeds.bind (makes_report (Q := fun _ w' => w' = w) hidle rfl) ?_
  intro _ w' hw
  exact hw ▸ h

/-- After a file has been removed, or was not there, its path leads nowhere, and only an entry of
its name can have changed. -/
theorem ensures_removeFile {path : Path} (hidle : w.Idle) :
    site.Ensures J (Plan.removeFile path) (fun reply w' => w'.Idle ∧
      (reply = .ok () ∨ reply = .error .notFound → w'.node path = none ∧
        ∀ name, IsPlain name → path.fileName? ≠ some name →
          site.entry w' name = site.entry w name)) w := by
  refine ensures_of_idle hidle trivial ?_
  rintro reply w' ⟨hjobs, hok, hnone⟩
  refine ⟨idle_of_jobs_eq hidle hjobs, ?_⟩
  rintro (h | h)
  · exact hok h
  · obtain ⟨hnode, hpath⟩ := hnone h
    exact ⟨hnode ▸ hpath, fun name _ _ => by rw [entry, entry, hnode]⟩

theorem makes_removeStale {path : Path} (hidle : w.Idle) :
    site.Makes J (Build.removeStale path) (fun _ w' => w'.Idle ∧ w'.node path = none ∧
      ∀ name, IsPlain name → path.fileName? ≠ some name →
        site.entry w' name = site.entry w name) w := by
  refine Succeeds.bind (succeeds_lift.mpr (ensures_removeFile hidle)) ?_
  rintro (e | ⟨⟩) w' ⟨hidle', hgone⟩
  · by_cases he : e = .notFound
    · subst he
      simp only [if_true]
      exact succeeds_pure.mpr ⟨hidle', hgone (Or.inr rfl)⟩
    · simp only [he, if_false]
      exact succeeds_throw
  · exact makes_report hidle' ⟨hidle', hgone (Or.inl rfl)⟩

def Tells (w : Workshop) (path : Path) : Except SystemError Text → Prop
  | .ok text => w.node path ≠ none ∧
      ∀ content, w.node path = some (.file content) → Utf8.decode? content = some text
  | .error e => e = .notFound → w.node path = none

theorem ensures_readText {path : Path} (hidle : w.Idle) :
    site.Ensures J (Plan.readText path) (fun reply w' => w' = w ∧ Tells w path reply) w := by
  have hread : site.Ensures J (Plan.fileContent path) (fun reply w' => w' = w ∧
      (∀ content, reply = .ok content → w.node path = some (.file content) ∨
        w.node path = some .other) ∧
      (reply = .error .notFound → w.node path = none)) w := by
    refine ensures_of_idle hidle trivial ?_
    rintro reply w' ⟨rfl, hreply⟩
    exact ⟨rfl, hreply⟩
  refine Plan.Ensures.bind hread ?_
  rintro (e | content) w' ⟨rfl, hok, hnone⟩
  · exact Plan.ensures_pure.mpr ⟨rfl, fun he => hnone (he ▸ rfl)⟩
  · cases hdecode : Utf8.decode? content with
    | none =>
        simp only [hdecode]
        exact Plan.ensures_pure.mpr ⟨rfl, fun he => absurd he (by decide)⟩
    | some text =>
        simp only [hdecode]
        refine Plan.ensures_pure.mpr ⟨rfl, ?_, ?_⟩
        · rcases hok content rfl with h | h <;> simp [h]
        · intro other hother
          rcases hok content rfl with h | h
          · obtain rfl : content = other := by simpa [h] using hother
            exact hdecode
          · simp [h] at hother

/-- The template that a build starts from: the standard one, or the text of the file that the
configuration names. -/
def UsesTemplate (c : Config) (w : Workshop) (template : Template) : Prop :=
  match c.template? with
  | none => template = .standard
  | some path => ∃ text, Template.ofText? text = some template ∧
      ∀ content, w.node path = some (.file content) → Utf8.decode? content = some text

variable {c : Config}

theorem ensures_loadTemplate {path : Path} (hidle : w.Idle) :
    site.Ensures J (Build.loadTemplate path) (fun reply w' => w' = w ∧
      ∀ template, reply = .ok template → ∃ text, Template.ofText? text = some template ∧
        ∀ content, w.node path = some (.file content) → Utf8.decode? content = some text) w := by
  refine Plan.Ensures.bind (ensures_readText hidle) ?_
  rintro (e | text) w' ⟨rfl, htells⟩
  · exact Plan.ensures_pure.mpr ⟨rfl, fun template h => (nomatch h)⟩
  · cases htemplate : Template.ofText? text with
    | none =>
        simp only [htemplate]
        exact Plan.ensures_pure.mpr ⟨rfl, fun template h => (nomatch h)⟩
    | some template =>
        simp only [htemplate]
        refine Plan.ensures_pure.mpr ⟨rfl, fun other h => ?_⟩
        obtain rfl := Except.ok.inj h
        exact ⟨text, htemplate, htells.2⟩

theorem makes_chooseTemplate (hidle : w.Idle) :
    site.Makes J (Build.chooseTemplate c)
      (fun template w' => w' = w ∧ UsesTemplate c w template) w := by
  unfold Build.chooseTemplate UsesTemplate
  cases c.template? with
  | none => exact succeeds_pure.mpr ⟨rfl, rfl⟩
  | some path =>
      refine Succeeds.bind (succeeds_lift.mpr (ensures_loadTemplate hidle)) ?_
      rintro (e | template) w' ⟨rfl, htemplate⟩
      · exact succeeds_throw
      · exact succeeds_pure.mpr ⟨rfl, htemplate template rfl⟩

/-- What a build knows of the state before it when it has cleared the ground. -/
structure Surveyed (site : Site) (c : Config) (w : Workshop) (ground : Build.Ground)
    (names : List Text) (w' : Workshop) : Prop where
  idle : w'.Idle
  template : UsesTemplate c w ground.template
  lists : site.Lists w names
  sources : ground.sources = names.map fun name => site.directory.join ⟨name⟩
  contents : ∀ name ∈ names, site.content? w' name = site.content? w name

theorem makes_makeDirectories {path : Path} (hidle : w.Idle) :
    site.Makes J (Build.onFile path (Plan.makeDirectories path)) (fun _ w' => w'.Idle ∧
      ∀ name, IsPlain name → site.content? w' name = site.content? w name) w := by
  refine makes_onFile (ensures_of_idle hidle trivial ?_)
  rintro reply w' ⟨hjobs, hok⟩ ⟨⟩ hreply
  refine ⟨idle_of_jobs_eq hidle hjobs, fun name hplain => ?_⟩
  rcases hok hreply name hplain with h | ⟨hbefore, hafter⟩
  · rw [content?, content?, h]
  · rw [content?, content?, hbefore, hafter]

/-- Removing an old class file changes no source. -/
theorem content?_of_removed {w' : Workshop} {outDir : Path} {stem : Text}
    (hplain : IsPlain (sourceName stem))
    (hkept : ∀ name, IsPlain name → (c.target.classFile outDir).fileName? ≠ some name →
      site.entry w' name = site.entry w name) :
    site.content? w' (sourceName stem) = site.content? w (sourceName stem) := by
  have hother : (c.target.classFile outDir).fileName? ≠ some (sourceName stem) := by
    rw [Target.fileName?_classFile]
    exact fun he => Target.className_ne_sourceName c.target stem (Option.some.inj he)
  rw [content?, hkept _ hplain hother, ← content?]

theorem makes_survey {template : Template} (hdir : c.sourceDir = site.directory) (hidle : w.Idle)
    (htemplate : UsesTemplate c w template) :
    site.Makes J (Build.survey c template)
      (fun ground w' => ∃ names, site.Surveyed c w ground names w') w := by
  have habsolute : site.Makes J (Build.onFile c.outDir (Plan.absolute c.outDir))
      (fun _ w' => w' = w) w :=
    makes_onFile ((ensures_absolute (stable_of_idle hidle) rfl).mono fun _ _ h _ _ => h.1)
  refine Succeeds.bind habsolute ?_
  rintro outDir w₁ rfl
  refine Succeeds.bind (makes_makeDirectories hidle) ?_
  rintro - w₂ ⟨hidle₂, hkept₂⟩
  refine Succeeds.bind (makes_removeStale hidle₂) ?_
  rintro - w₃ ⟨hidle₃, -, hkept₃⟩
  have hdiscover : site.Makes J (Build.onFile c.sourceDir (Sources.discover c.sourceDir))
      (fun paths w' => w' = w₃ ∧ ∃ names, site.Lists w₃ names ∧
        paths = names.map fun name => site.directory.join ⟨name⟩) w₃ := by
    rw [hdir]
    exact makes_onFile ((ensures_discover hidle₃).mono fun _ _ h paths he => ⟨h.1, h.2 paths he⟩)
  refine Succeeds.bind hdiscover ?_
  rintro sources w₄ ⟨rfl, names, hlists, hsources⟩
  split
  · exact succeeds_throw
  · have hkept : ∀ name, IsPlain name → (∃ stem, name = sourceName stem) →
        site.content? w₄ name = site.content? w₁ name := by
      rintro name hplain ⟨stem, rfl⟩
      exact (content?_of_removed hplain hkept₃).trans (hkept₂ _ hplain)
    refine succeeds_pure.mpr ⟨names, hidle₃, htemplate, hlists.congr hkept, hsources, ?_⟩
    intro name hname
    obtain ⟨hplain, hstem, -⟩ := (hlists.complete name).mp hname
    exact hkept name hplain hstem

theorem ensures_validate {directory : Path} (hidle : w.Idle) :
    site.Ensures J (Build.validate directory) (fun _ w' => w' = w) w := by
  have hask : site.Ensures J (Plan.isDirectory directory) (fun _ w' => w' = w) w :=
    ensures_of_idle hidle trivial fun _ _ h => h
  refine Plan.Ensures.bind hask ?_
  rintro isDirectory w' rfl
  split <;> exact Plan.ensures_pure.mpr rfl

/-- Clearing the ground finds the sources, and leaves them as they were. -/
theorem makes_prepare (hdir : c.sourceDir = site.directory) (hidle : w.Idle) :
    site.Makes J (Build.prepare c)
      (fun ground w' => ∃ names, site.Surveyed c w ground names w') w := by
  refine Succeeds.bind (succeeds_lift.mpr (ensures_validate hidle)) ?_
  rintro (e | ⟨⟩) w' rfl
  · exact succeeds_throw
  · refine Succeeds.bind (makes_chooseTemplate hidle) ?_
    rintro template w₁ ⟨rfl, htemplate⟩
    exact makes_survey hdir hidle htemplate

end Site
end Bytelink
