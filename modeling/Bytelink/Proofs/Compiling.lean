import Bytelink.Proofs.Workers
import Mathlib.Data.List.Forall2

/-!
# Compiling units in one directory

All units are compiled in the same directory and leave their static data in the same file. Still a
fragment is what the compiler makes of its own unit (`makes_compileAll`): the shared file is removed
before a unit is compiled and read right after it, and the only other file that a unit writes has
its own stem and an extension that no preprocessed unit has.
-/
namespace Bytelink

theorem listingFile_eq : Build.listingFile = ⟨listingName⟩ := rfl

theorem getLast?_listingName : listingName.getLast? = some 's' := rfl

theorem isPlain_listingName : IsPlain listingName := by decide

theorem fileName?_listing_ne (directory : Path) {other : Text} (h : other ≠ listingName) :
    (directory.join ⟨listingName⟩).fileName? ≠ some other := by
  intro he
  rw [Path.fileName?_join _ isPlain_listingName] at he
  exact h (Option.some.inj he).symm

namespace Site

variable {site : Site} {J : Workshop → Prop} {w before : Workshop} {c : Config}
variable {name stem : Text}

/-- The fragment is what both tools make of this source as it was in the state `before`. -/
def CompiledTo (site : Site) (before : Workshop) (name : Text) (f : Fragment) : Prop :=
  ∃ content made, site.content? before name = some content ∧
    site.tools.preprocess content = some made ∧
    site.tools.compile made = some (f.body, f.listing) ∧ f.origin = name

/-- A tool of this build, run by itself, has done its duty when the build goes on. -/
theorem makes_runTool {β : Type} {program : Path} {arguments : List Text} {duty : Duty}
    {next : Part β} {Q : β → Workshop → Prop} (hdir : c.sourceDir = site.directory)
    (hidle : w.Idle)
    (hduty : ∀ command : Command, command.directory? = some site.directory →
      command.arguments = arguments → site.duty? command = some duty)
    (hio : IsPlain duty.input → duty.input ≠ duty.output)
    (hflag : arguments.head? ≠ some ['-', 'd'])
    (hnext : ∀ w', w'.Idle → duty.Done site w w' → site.Makes J next Q w') :
    site.Makes J (do Build.runTool (← c.command program arguments); next) Q w := by
  have hcommand : site.Ensures J (c.command program arguments) _ w :=
    ensures_command (stable_of_idle hidle) rfl
  refine Succeeds.bind (succeeds_lift.mpr hcommand) ?_
  rintro command w₁ ⟨rfl, harguments, hdirectory⟩
  have hrun : site.Makes J (Build.runTool command) (fun _ w' => w'.Idle ∧ duty.Done site w₁ w')
      w₁ := by
    have hcommand := hduty command (hdir ▸ hdirectory) harguments
    have hflag' : command.arguments.head? ≠ some ['-', 'd'] := harguments ▸ hflag
    refine Succeeds.bind (succeeds_lift.mpr (ensures_run hidle hcommand hio hflag')) ?_
    rintro (e | text) w₂ hdone
    · exact succeeds_throw
    · exact succeeds_pure.mpr (hdone text rfl)
  refine Succeeds.bind hrun ?_
  rintro - w₂ ⟨hidle₂, hdone⟩
  exact hnext w₂ hidle₂ hdone

theorem makes_readText {text : Text} (hidle : w.Idle)
    (hentry : site.entry w name = some (.file (Utf8.encode text))) :
    site.Makes J (Build.onFile (site.directory.join ⟨name⟩)
      (Plan.readText (site.directory.join ⟨name⟩))) (fun read w' => w' = w ∧ read = text) w := by
  refine makes_onFile ((ensures_readText hidle).mono ?_)
  rintro (e | read) w' ⟨rfl, htells⟩ value hvalue
  · cases hvalue
  · obtain rfl := Except.ok.inj hvalue
    have hread := htells.2 _ hentry
    rw [Utf8.decode?_encode] at hread
    exact ⟨rfl, (Option.some.inj hread).symm⟩

/-- The data listing of a unit is taken as the compiler has left it, if it has left one. -/
theorem makes_takeListing {f : Fragment} {listing? : Option Text} (hidle : w.Idle)
    (hf : f.listing = none)
    (hentry : site.entry w listingName =
      listing?.map fun listing => .file (Utf8.encode listing)) :
    site.Makes J (Build.takeListing (site.directory.join ⟨listingName⟩) f)
      (fun made w' => w'.Idle ∧ made = { f with listing := listing? } ∧
        ∀ other, IsPlain other → other ≠ listingName →
          site.entry w' other = site.entry w other) w := by
  refine Succeeds.bind (succeeds_lift.mpr (ensures_readText hidle)) ?_
  rintro (e | text) w₁ ⟨rfl, htells⟩
  · by_cases he : e = .notFound
    · have hnone : listing? = none := by
        have hgone := htells he
        rw [← entry, hentry] at hgone
        simpa using hgone
      simp only [he, if_true]
      refine succeeds_pure.mpr ⟨hidle, ?_, fun _ _ _ => rfl⟩
      rw [hnone, ← hf]
    · simp only [he, if_false]
      exact succeeds_throw
  · obtain ⟨hsome, htext⟩ := htells
    obtain rfl : listing? = some text := by
      cases listing? with
      | none => exact absurd hentry hsome
      | some listing =>
          have hread := htext _ hentry
          rwa [Utf8.decode?_encode] at hread
    refine Succeeds.bind (succeeds_lift.mpr (ensures_removeFile hidle)) ?_
    rintro (e | ⟨⟩) w₂ ⟨hidle', hgone⟩
    · by_cases he : e = .notFound
      · simp only [he, if_true]
        refine succeeds_pure.mpr ⟨hidle', rfl, fun other hplain hne => ?_⟩
        exact (hgone (Or.inr (he ▸ rfl))).2 other hplain (fileName?_listing_ne _ hne)
      · simp only [he, if_false]
        exact succeeds_throw
    · refine succeeds_pure.mpr ⟨hidle', rfl, fun other hplain hne => ?_⟩
      exact (hgone (Or.inl rfl)).2 other hplain (fileName?_listing_ne _ hne)

theorem duty?_compile {command : Command} {input output flag : Text}
    (hdirectory : command.directory? = some site.directory)
    (harguments : command.arguments = [['-', 'O', '8'], flag, input, ['-', 'o'], output]) :
    site.duty? command = some (.compile site.tools input output) := by
  simp [duty?, hdirectory, harguments]

/-- What a compiler run leaves where no data listing has been before. -/
theorem done_compile {w' : Workshop} {input output : Text} {made : Bytes}
    (hdone : (Duty.compile site.tools input output).Done site w w')
    (hinput : site.entry w input = some (.file made)) (houtput : listingName ≠ output)
    (hnone : site.entry w listingName = none) :
    ∃ body listing?, site.tools.compile made = some (body, listing?) ∧
      site.entry w' output = some (.file (Utf8.encode body)) ∧
      (site.entry w' listingName = listing?.map fun listing => .file (Utf8.encode listing)) ∧
      ∀ other, IsPlain other → other ≠ output → other ≠ listingName →
        site.entry w' other = site.entry w other := by
  obtain ⟨content, files, -, hcontent, heffect, hfiles, hkept⟩ := hdone
  obtain rfl : made = content := by
    rw [show (Duty.compile site.tools input output).input = input from rfl, hinput] at hcontent
    simpa using hcontent
  obtain ⟨⟨body, listing?⟩, hcompile, rfl⟩ := Option.map_eq_some_iff.mp heffect
  refine ⟨body, listing?, hcompile, hfiles _ List.mem_cons_self, ?_, ?_⟩
  · cases listing? with
    | none =>
        rw [hkept listingName isPlain_listingName houtput (by simpa using houtput), hnone]
        rfl
    | some listing => exact hfiles (listingName, Utf8.encode listing) (by simp)
  · intro other hplain hother hlisting
    refine hkept other hplain hother ?_
    cases listing? with
    | none => simpa using hother
    | some listing => simpa using ⟨hother, hlisting⟩

/-- A unit that has been preprocessed is compiled into its fragment. Besides the file with its body
and the file that all units share, no entry changes. -/
theorem makes_compile {content made : Bytes} (hdir : c.sourceDir = site.directory)
    (hidle : w.Idle) (hunit : IsUnit name stem)
    (hcontent : site.content? before name = some content)
    (hmade : site.tools.preprocess content = some made)
    (hinput : site.content? w (madeName stem 'i') = some made) :
    site.Makes J (Build.compile c (site.directory.join ⟨name⟩) (madeName stem 'i'))
      (fun f w' => w'.Idle ∧ site.CompiledTo before name f ∧
        ∀ other, IsPlain other → other ≠ madeName stem 'j' → other ≠ listingName →
          site.entry w' other = site.entry w other) w := by
  have hi : IsPlain (madeName stem 'i') := hunit.plain_madeName (by decide) (by decide)
  have hij : madeName stem 'i' ≠ madeName stem 'j' :=
    madeName_ne (getLast?_madeName stem 'j') (by decide)
  have hil : madeName stem 'i' ≠ listingName := madeName_ne getLast?_listingName (by decide)
  have hjl : madeName stem 'j' ≠ listingName := madeName_ne getLast?_listingName (by decide)
  dsimp only [Build.compile]
  rw [hdir, listingFile_eq, hunit.intermediateName_eq, hunit.intermediateName_eq]
  -- From here on there is no listing until the compiler of this unit leaves one.
  refine Succeeds.bind (makes_removeStale hidle) ?_
  rintro - w₁ ⟨hidle₁, hgone, hkept₁⟩
  refine makes_reported hidle₁ ?_
  refine makes_runTool hdir hidle₁ (fun _ => duty?_compile) (fun _ => hij)
    (show some (['-', 'O', '8'] : Text) ≠ some ['-', 'd'] by decide) ?_
  rintro w₃ hidle₃ hdone
  have hinput₁ : site.entry w₁ (madeName stem 'i') = some (.file made) := by
    rw [hkept₁ _ hi (fileName?_listing_ne _ hil)]
    exact content?_eq_some_iff.mp hinput
  obtain ⟨body, listing?, hcompile, hbody, hdata, hkept₃⟩ :=
    done_compile hdone hinput₁ hjl.symm hgone
  refine Succeeds.bind (makes_readText hidle₃ hbody) ?_
  rintro read w₄ ⟨rfl, rfl⟩
  refine (makes_takeListing hidle₃ rfl hdata).mono ?_
  rintro f w₅ ⟨hidle₅, rfl, hkept₅⟩
  refine ⟨hidle₅, ⟨content, made, hcontent, hmade, hcompile, hunit.name_eq.symm⟩, ?_⟩
  intro other hplain hother hne
  rw [hkept₅ other hplain hne, hkept₃ other hplain hother hne,
    hkept₁ other hplain (fileName?_listing_ne _ hne)]

/-- Compiling units one after another makes their fragments in this order: no unit touches what has
been preprocessed for a later one. -/
theorem makes_compileAll {names : List Text} (hdir : c.sourceDir = site.directory)
    (hidle : w.Idle) (hready : ∀ name ∈ names, site.Preprocessed before w name) :
    site.Makes J (Build.compileAll c
      ((names.map fun name => site.directory.join ⟨name⟩).zip
        (names.map fun name => intermediateName (site.directory.join ⟨name⟩) ['i'])))
      (fun fragments w' => w'.Idle ∧ List.Forall₂ (site.CompiledTo before) names fragments) w := by
  induction names generalizing w with
  | nil => exact succeeds_pure.mpr ⟨hidle, .nil⟩
  | cons name rest ih =>
      obtain ⟨stem, content, made, hunit, hcontent, hmade, hinput⟩ :=
        hready name List.mem_cons_self
      rw [List.map_cons, List.map_cons, List.zip_cons_cons, hunit.intermediateName_eq,
        Build.compileAll]
      refine Succeeds.bind (makes_compile hdir hidle hunit hcontent hmade hinput) ?_
      rintro f w₁ ⟨hidle₁, hf, hkept⟩
      have hrest : ∀ other ∈ rest, site.Preprocessed before w₁ other := by
        intro other hother
        obtain ⟨stem', content', made', hunit', hcontent', hmade', hinput'⟩ :=
          hready other (List.mem_cons_of_mem name hother)
        refine ⟨stem', content', made', hunit', hcontent', hmade', ?_⟩
        have hplain : IsPlain (madeName stem' 'i') :=
          hunit'.plain_madeName (by decide) (by decide)
        rw [content?, hkept _ hplain (madeName_ne (getLast?_madeName stem 'j') (by decide))
          (madeName_ne getLast?_listingName (by decide)), ← content?, hinput']
      refine Succeeds.bind (ih hidle₁ hrest) ?_
      rintro fragments w₂ ⟨hidle₂, hfragments⟩
      exact succeeds_pure.mpr ⟨hidle₂, .cons hf hfragments⟩

end Site
end Bytelink
