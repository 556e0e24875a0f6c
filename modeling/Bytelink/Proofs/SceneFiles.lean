import Bytelink.Proofs.SceneRequests

/-!
# Files in a scene

What a part of a build does to the files when no run is at work: a file is removed
(`concludes_removeStale`), read (`ensures_readText`), or taken away with its text
(`concludes_takeListing`). `concludes_prepare` puts the first steps of a build together. They end
with the class file removed, unless they fail before; then every regular file stands as it was.
-/
namespace Bytelink

section

variable {W ε α : Type} {T : Answers W} {G : Request → W → Prop} {p : ExceptT ε Plan α}
variable {Q : α → W → Prop} {E : ε → W → Prop} {w : W}

theorem Concludes.of_succeeds (h : Succeeds T G p Q w) : Concludes T G p Q (fun _ _ => True) w :=
  Plan.Ensures.mono h fun _ _ hQ => ⟨hQ, fun _ _ => trivial⟩

theorem Concludes.succeeds (h : Concludes T G p Q E w) : Succeeds T G p Q w :=
  Plan.Ensures.mono h fun _ _ hresult => hresult.1

end

namespace Scene

variable {w w' w'' : Scene} {path : Path}

/-- Whatever is removed from an idle scene, and nothing else happens. -/
structure Cleared (w : Scene) (path : Path) (w' : Scene) : Prop where
  runs : w'.runs = w.runs
  ended : w'.ended = w.ended
  cleared : w'.cleared = w.cleared ++ [path]
  absent : w'.places path = none
  fades : Setting.Fades w.places w'.places

theorem Cleared.heard (h : w.Cleared path w') (h' : w'.Heard w'') : w.Cleared path w'' :=
  ⟨h'.runs.trans h.runs, h'.ended.trans h.ended, h'.cleared.trans h.cleared, h'.places ▸ h.absent,
    h'.places ▸ h.fades⟩

theorem Cleared.of_heard (h : w'.Cleared path w'') (h' : w.Heard w') : w.Cleared path w'' :=
  ⟨h.runs.trans h'.runs, h.ended.trans h'.ended, h'.cleared ▸ h.cleared, h.absent,
    h'.places ▸ h.fades⟩

theorem Cleared.idle (h : w.Cleared path w') (hidle : w.Idle) : w'.Idle :=
  hidle.of_log h.runs h.ended

def Tells (w : Scene) (path : Path) : Except SystemError Text → Prop
  | .ok text => w.places path ≠ none ∧
      ∀ content, w.Holds path content → Utf8.decode? content = some text
  | .error e => e = .notFound → ∀ content, ¬ w.Holds path content

end Scene

namespace Setting

variable {setting : Setting} {l : Licence} {G : Request → Scene → Prop} {w w' : Scene}
variable {P : Scene → Prop} {path : Path}

theorem fades_refl (places : Places) : Fades places places := fun _ standing h =>
  ⟨standing, h, rfl, rfl⟩

theorem concludes_onFile {α : Type} {operation : Plan (Except SystemError α)}
    {Q : α → Scene → Prop} {E : Scene → Prop}
    (h : operation.Ensures setting.answers G (fun reply w' =>
      (∀ value, reply = .ok value → Q value w') ∧ ∀ e, reply = .error e → E w') w) :
    Concludes setting.answers G (Build.onFile path operation) Q (fun _ w' => E w') w := by
  refine Plan.Ensures.bind h ?_
  intro reply w' ⟨hvalue, he⟩
  cases reply with
  | ok value =>
      refine Plan.ensures_pure.mpr ⟨fun other h => ?_, fun e h => (nomatch h)⟩
      exact Except.ok.inj h ▸ hvalue value rfl
  | error e => exact Plan.ensures_pure.mpr ⟨fun value h => (nomatch h), fun _ _ => he e rfl⟩

theorem concludes_report {ε : Type} {E : ε → Scene → Prop} {level : Level} {reporter : Reporter}
    {text : Text} (hP : setting.Lasting P) (hw : P w)
    (hG : G (.report ⟨level, reporter, text⟩) w) :
    Concludes setting.answers G
      (liftM (Plan.report level reporter text) : ExceptT ε Plan Unit) (fun _ w' => P w') E w :=
  .of_lift (ensures_report hP hw hG)

/-- A removal takes the file away, finds that there is none, or changes nothing. -/
theorem ensures_removeFile (hidle : w.Idle) :
    (Plan.removeFile path).Ensures setting.answers l.Allows (fun reply w' =>
      (reply = .ok () ∨ reply = .error .notFound → w.Cleared path w') ∧
      (reply ≠ .ok () ∧ reply ≠ .error .notFound → w.Heard w')) w := by
  refine ensures_of_lasting (r := .removeFile path) (lasting_heard hidle) (.refl w) trivial ?_
  intro reply w₁ after hheard ⟨hremoved, hkept, hmissing⟩
  have hruns : (w₁.reply after (.removeFile path) reply).runs = w.runs :=
    (Scene.runs_reply after (by simp) reply).trans hheard.runs
  have hended : (w₁.reply after (.removeFile path) reply).ended = w.ended :=
    (Scene.ended_reply after (by simp) reply).trans hheard.ended
  constructor
  · intro h
    rcases h with rfl | rfl
    · obtain ⟨habsent, hfades⟩ := hremoved rfl
      refine ⟨hruns, hended, ?_, habsent, hheard.places ▸ hfades⟩
      rw [Scene.cleared_removed, hheard.cleared]
    · obtain rfl := hkept (nomatch ·)
      refine ⟨hruns, hended, ?_, hmissing rfl, ?_⟩
      · rw [Scene.cleared_missing, hheard.cleared]
      · show Fades w.places w₁.places
        rw [hheard.places]
        exact fades_refl w.places
  · intro ⟨hok, hother⟩
    obtain rfl := hkept hok
    refine ⟨hheard.places, hruns, hended, ?_⟩
    cases reply with
    | ok value => exact absurd rfl hok
    | error e => exact (Scene.cleared_failed _ fun he => hother (he ▸ rfl)).trans hheard.cleared

theorem not_enters_removed (path : Path) :
    ¬ (⟨.debug, .pipeline, "removed stale " ++ path.text⟩ : Record).Enters := by
  refine Record.not_enters_of_start (List.prefix_append _ _) ?_
  intro previous stage
  cases previous <;> cases stage <;> decide

theorem concludes_removeStale (hidle : w.Idle) :
    Concludes setting.answers l.Allows (Build.removeStale path)
      (fun _ w' => w.Cleared path w') (fun _ w' => w.Heard w') w := by
  refine Concludes.bind (.of_lift (ensures_removeFile hidle)) ?_
  intro reply w₁ ⟨hcleared, hheard⟩
  match reply with
  | .ok () =>
      have hdone := hcleared (Or.inl rfl)
      refine (concludes_report (lasting_heard (hdone.idle hidle)) (.refl w₁)
        (not_enters_removed path)).mono ?_ fun _ _ h => h
      exact fun _ _ h => hdone.heard h
  | .error e =>
      dsimp only
      split
      · rename_i he
        exact .of_pure (hcleared (Or.inr (he ▸ rfl)))
      · rename_i he
        refine .of_throw (hheard ⟨(nomatch ·), fun h => he ?_⟩)
        exact Except.error.inj h

theorem ensures_readText (hidle : w.Idle) :
    (Plan.readText path).Ensures setting.answers l.Allows
      (fun reply w' => w.Heard w' ∧ w.Tells path reply) w := by
  have hread : (Plan.fileContent path).Ensures setting.answers l.Allows (fun reply w' =>
      w.Heard w' ∧ (∀ content, reply = .ok content → w.places path ≠ none ∧
        ∀ found, w.Holds path found → found = content) ∧
      (reply = .error .notFound → ∀ content, ¬ w.Holds path content)) w := by
    refine ensures_of_lasting (r := .fileContent path) (lasting_heard hidle) (.refl w) trivial ?_
    intro reply w₁ after hheard ⟨hafter, hcontent, hmissing⟩
    subst hafter
    rw [hheard.places] at hcontent
    simp only [hheard.holds_iff] at hcontent hmissing
    exact ⟨hheard.trans (.of_question (r := .fileContent path) trivial reply), hcontent, hmissing⟩
  refine Plan.Ensures.bind hread ?_
  intro reply w₁ ⟨hheard, hcontent, hmissing⟩
  cases reply with
  | error e => exact Plan.ensures_pure.mpr ⟨hheard, fun he => hmissing (he ▸ rfl)⟩
  | ok content =>
      obtain ⟨hsome, hfound⟩ := hcontent content rfl
      cases hdecode : Utf8.decode? content with
      | none =>
          simp only [hdecode]
          exact Plan.ensures_pure.mpr ⟨hheard, fun he => (nomatch he)⟩
      | some text =>
          simp only [hdecode]
          refine Plan.ensures_pure.mpr ⟨hheard, hsome, fun other hother => ?_⟩
          rw [hfound other hother, hdecode]

/-- What has become of a file whose text is taken: it is gone, or there has been none. -/
def Taken (path : Path) (w w' : Scene) : Option Text → Prop
  | none => w.Heard w' ∧ ∀ content, ¬ w.Holds path content
  | some text => w.Cleared path w' ∧ w.places path ≠ none ∧
      ∀ content, w.Holds path content → Utf8.decode? content = some text

theorem succeeds_takeListing {f : Fragment} (hidle : w.Idle) (hf : f.listing = none) :
    Succeeds setting.answers l.Allows (Build.takeListing path f)
      (fun made w' => made.origin = f.origin ∧ Taken path w w' made.listing) w := by
  refine Succeeds.bind (succeeds_lift.mpr (ensures_readText hidle)) ?_
  intro reply w₁ ⟨hheard, htells⟩
  cases reply with
  | error e =>
      dsimp only
      split
      · rename_i he
        refine succeeds_pure.mpr ⟨rfl, ?_⟩
        rw [hf]
        exact ⟨hheard, htells he⟩
      · exact succeeds_throw
  | ok text =>
      refine Succeeds.bind (succeeds_lift.mpr (ensures_removeFile (hheard.idle hidle))) ?_
      intro reply w₂ ⟨hcleared, _⟩
      have htaken : w₁.Cleared path w₂ → Taken path w w₂ (some text) := fun h =>
        ⟨h.of_heard hheard, htells⟩
      match reply with
      | .ok () => exact succeeds_pure.mpr ⟨rfl, htaken (hcleared (Or.inl rfl))⟩
      | .error e =>
          dsimp only
          split
          · rename_i he
            exact succeeds_pure.mpr ⟨rfl, htaken (hcleared (Or.inr (he ▸ rfl)))⟩
          · exact succeeds_throw

/-- No run has been started, and every regular file stands as it was. -/
structure Intact (setting : Setting) (w w' : Scene) : Prop where
  runs : w'.runs = w.runs
  ended : w'.ended = w.ended
  cleared : w'.cleared = w.cleared
  files : ∀ path content, w.Holds path content → w'.places path = w.places path
  links : setting.KeepsLinks w.places w'.places

/-- No run has been started, and the file at the path has been removed. -/
structure Readied (setting : Setting) (w : Scene) (path : Path) (w' : Scene) : Prop where
  runs : w'.runs = w.runs
  ended : w'.ended = w.ended
  cleared : w'.cleared = w.cleared ++ [path]
  absent : w'.places path = none
  links : setting.KeepsLinks w.places w'.places

variable {w'' : Scene}

theorem Intact.of_heard (h : w.Heard w') : setting.Intact w w' := by
  refine ⟨h.runs, h.ended, h.cleared, fun _ _ _ => by rw [h.places], ?_⟩
  intro path standing _ hstanding _
  exact ⟨standing, h.places ▸ hstanding, rfl, rfl⟩

theorem KeepsLinks.trans {before between after : Places} (h : setting.KeepsLinks before between)
    (h' : setting.KeepsLinks between after) : setting.KeepsLinks before after := by
  intro path standing hentry hstanding hlink
  obtain ⟨middle, hmiddle, hlike⟩ := h' path standing hentry hstanding hlink
  obtain ⟨first, hfirst, hlike'⟩ := h path middle hentry hmiddle (hlike.1 ▸ hlink)
  exact ⟨first, hfirst, hlike.1.trans hlike'.1, hlike.2.trans hlike'.2⟩

theorem Intact.trans (h : setting.Intact w w') (h' : setting.Intact w' w'') :
    setting.Intact w w'' := by
  refine ⟨h'.runs.trans h.runs, h'.ended.trans h.ended, h'.cleared.trans h.cleared, ?_,
    h.links.trans h'.links⟩
  intro path content hholds
  have hkept := h.files path content hholds
  rw [Scene.Holds, ← hkept] at hholds
  exact (h'.files path content hholds).trans hkept

theorem Intact.idle (h : setting.Intact w w') (hidle : w.Idle) : w'.Idle :=
  hidle.of_log h.runs h.ended

theorem Readied.heard (h : setting.Readied w path w') (h' : w'.Heard w'') :
    setting.Readied w path w'' :=
  ⟨h'.runs.trans h.runs, h'.ended.trans h.ended, h'.cleared.trans h.cleared, h'.places ▸ h.absent,
    h'.places ▸ h.links⟩

theorem Readied.idle (h : setting.Readied w path w') (hidle : w.Idle) : w'.Idle :=
  hidle.of_log h.runs h.ended

theorem Intact.readied (h : setting.Intact w w') (h' : w'.Cleared path w'') :
    setting.Readied w path w'' := by
  refine ⟨h'.runs.trans h.runs, h'.ended.trans h.ended, h.cleared ▸ h'.cleared, h'.absent, ?_⟩
  refine h.links.trans ?_
  exact fun other standing _ hstanding _ => h'.fades other standing hstanding

theorem KeepsLinks.noLinks {before after : Places} (h : setting.KeepsLinks before after)
    (hnone : setting.NoLinks before) : setting.NoLinks after := by
  intro path standing hentry hstanding
  refine Bool.eq_false_iff.mpr fun hlink => ?_
  obtain ⟨standing', hbefore, hlike⟩ := h path standing hentry hstanding hlink
  exact absurd (hlike.1.symm.trans hlink) (by simp [hnone path standing' hentry hbefore])

variable {c : Config}

theorem ensures_validate (hidle : w.Idle) :
    (Build.validate path).Ensures setting.answers l.Allows (fun _ w' => w.Heard w') w := by
  refine Plan.Ensures.bind
    (ensures_ask (r := .isDirectory path) (lasting_heard hidle) (.refl w) trivial trivial) ?_
  intro reply w₁ hheard
  cases reply with
  | true => exact Plan.ensures_pure.mpr hheard
  | false => exact Plan.ensures_pure.mpr hheard

theorem ensures_loadTemplate (hidle : w.Idle) :
    (Build.loadTemplate path).Ensures setting.answers l.Allows (fun _ w' => w.Heard w') w := by
  refine Plan.Ensures.bind (ensures_readText hidle) ?_
  intro reply w₁ ⟨hheard, _⟩
  cases reply with
  | error e => exact Plan.ensures_pure.mpr hheard
  | ok text =>
      dsimp only
      split
      · exact Plan.ensures_pure.mpr hheard
      · exact Plan.ensures_pure.mpr hheard

theorem concludes_chooseTemplate (hidle : w.Idle) :
    Concludes setting.answers l.Allows (Build.chooseTemplate c) (fun _ w' => w.Heard w')
      (fun _ w' => w.Heard w') w := by
  unfold Build.chooseTemplate
  cases c.template? with
  | none => exact .of_pure (.refl w)
  | some path =>
      refine Concludes.bind (.of_lift (ensures_loadTemplate hidle)) ?_
      intro reply w₁ hheard
      cases reply with
      | error e => exact .of_throw hheard
      | ok template => exact .of_pure hheard

theorem ensures_keepFiles (hidle : w.Idle) (directory : Path) (names : List Text) :
    (Sources.keepFiles directory names).Ensures setting.answers l.Allows
      (fun _ w' => w.Heard w') w := by
  induction names generalizing w with
  | nil => exact Plan.ensures_pure.mpr (.refl w)
  | cons name rest ih =>
      refine Plan.Ensures.bind (ensures_ask (r := .isFile (directory.join ⟨name⟩))
        (lasting_heard hidle) (.refl w) trivial trivial) ?_
      intro isFile w₁ hheard
      refine Plan.Ensures.bind (ih (hheard.idle hidle)) ?_
      intro kept w₂ hheard'
      exact Plan.ensures_pure.mpr (hheard.trans hheard')

theorem ensures_discover (hidle : w.Idle) (directory : Path) :
    (Sources.discover directory).Ensures setting.answers l.Allows (fun _ w' => w.Heard w') w := by
  refine Plan.Ensures.bind (ensures_ask (r := .entryNames directory) (lasting_heard hidle)
    (.refl w) trivial trivial) ?_
  intro reply w₁ hheard
  cases reply with
  | error e => exact Plan.ensures_pure.mpr hheard
  | ok names =>
      refine Plan.Ensures.bind (ensures_keepFiles (hheard.idle hidle) directory _) ?_
      intro files w₂ hheard'
      exact Plan.ensures_pure.mpr (hheard.trans hheard')

theorem concludes_makeDirectories (hidle : w.Idle) (hmakes : l.makes path) :
    Concludes setting.answers l.Allows (Build.onFile path (Plan.makeDirectories path))
      (fun _ w' => setting.Intact w w') (fun _ w' => setting.Intact w w') w := by
  refine concludes_onFile (ensures_of_lasting (r := .makeDirectories path) (lasting_heard hidle)
    (.refl w) hmakes ?_)
  intro reply w₁ after hheard ⟨hfiles, hlinks⟩
  have hintact : setting.Intact w (w₁.reply after (.makeDirectories path) reply) := by
    refine ⟨(Scene.runs_reply after (by simp) reply).trans hheard.runs,
      (Scene.ended_reply after (by simp) reply).trans hheard.ended,
      (Scene.cleared_reply after (by simp) reply).trans hheard.cleared, ?_, hheard.places ▸ hlinks⟩
    intro path content hholds
    exact (hfiles path content (hheard.holds_iff.mpr hholds)).trans (by rw [hheard.places])
  exact ⟨fun _ _ => hintact, fun _ _ => hintact⟩

/-- What a build knows when it has cleared the ground. -/
structure Prepared (setting : Setting) (c : Config) (w : Scene) (ground : Build.Ground)
    (w' : Scene) : Prop where
  outDir : c.outDir.absolute setting.currentDirectory = .ok ground.outDir
  classFile : ground.classFile = c.target.classFile ground.outDir
  sources : ground.sources ≠ []
  readied : setting.Readied w ground.classFile w'

/-- A build that cannot begin has changed nothing yet, or has just removed the class file. -/
def Unprepared (setting : Setting) (c : Config) (w w' : Scene) : Prop :=
  setting.Intact w w' ∨ ∃ outDir, c.outDir.absolute setting.currentDirectory = .ok outDir ∧
    setting.Readied w (c.target.classFile outDir) w'

theorem concludes_survey {template : Template} (hidle : w.Idle) (hmakes : ∀ path, l.makes path)
    (hintact : setting.Intact w w') :
    Concludes setting.answers l.Allows (Build.survey c template)
      (fun ground w'' => setting.Prepared c w ground w'')
      (fun _ w'' => setting.Unprepared c w w'') w' := by
  have hidle' := hintact.idle hidle
  have habsolute : Concludes setting.answers l.Allows
      (Build.onFile c.outDir (Plan.absolute c.outDir)) (fun outDir w₁ => setting.Intact w w₁ ∧
        c.outDir.absolute setting.currentDirectory = .ok outDir)
      (fun _ w₁ => setting.Unprepared c w w₁) w' := by
    refine concludes_onFile ((ensures_absolute (lasting_heard hidle') (.refl w')).mono ?_)
    intro reply w₁ ⟨hheard, hfull⟩
    have hintact₁ := hintact.trans (.of_heard hheard)
    exact ⟨fun full h => ⟨hintact₁, hfull full h⟩, fun _ _ => Or.inl hintact₁⟩
  refine Concludes.bind habsolute ?_
  intro outDir w₁ ⟨hintact₁, houtDir⟩
  have hmade : Concludes setting.answers l.Allows
      (Build.onFile outDir (Plan.makeDirectories outDir)) (fun _ w₂ => setting.Intact w w₂)
      (fun _ w₂ => setting.Unprepared c w w₂) w₁ :=
    (concludes_makeDirectories (hintact₁.idle hidle) (hmakes outDir)).mono
      (fun _ _ h => hintact₁.trans h) fun _ _ h => Or.inl (hintact₁.trans h)
  refine Concludes.bind hmade ?_
  intro _ w₂ hintact₂
  have hremoved : Concludes setting.answers l.Allows
      (Build.removeStale (c.target.classFile outDir))
      (fun _ w₃ => setting.Readied w (c.target.classFile outDir) w₃)
      (fun _ w₃ => setting.Unprepared c w w₃) w₂ :=
    (concludes_removeStale (hintact₂.idle hidle)).mono (fun _ _ h => hintact₂.readied h)
      fun _ _ h => Or.inl (hintact₂.trans (.of_heard h))
  refine Concludes.bind hremoved ?_
  intro _ w₃ hreadied
  -- From here on a failure finds the class file removed.
  have hfound : Concludes setting.answers l.Allows
      (Build.onFile c.sourceDir (Sources.discover c.sourceDir)) (fun _ w₄ => w₃.Heard w₄)
      (fun _ w₄ => setting.Unprepared c w w₄) w₃ := by
    refine concludes_onFile ((ensures_discover (hreadied.idle hidle) _).mono ?_)
    exact fun reply w₄ h => ⟨fun _ _ => h, fun _ _ => Or.inr ⟨outDir, houtDir, hreadied.heard h⟩⟩
  refine Concludes.bind hfound ?_
  intro sources w₄ hheard
  have hreadied₄ := hreadied.heard hheard
  by_cases hnone : sources.isEmpty
  · rw [if_pos hnone]
    exact .of_throw (Or.inr ⟨outDir, houtDir, hreadied₄⟩)
  · rw [if_neg hnone]
    exact .of_pure ⟨houtDir, rfl, fun h => hnone (List.isEmpty_iff.mpr h), hreadied₄⟩

/-- The first steps of a build leave nothing under the class path, or leave every file alone. -/
theorem concludes_prepare (hidle : w.Idle) (hmakes : ∀ path, l.makes path) :
    Concludes setting.answers l.Allows (Build.prepare c)
      (fun ground w' => setting.Prepared c w ground w')
      (fun _ w' => setting.Unprepared c w w') w := by
  refine Concludes.bind (.of_lift (ensures_validate hidle)) ?_
  intro reply w₁ hheard
  cases reply with
  | error e => exact .of_throw (Or.inl (.of_heard hheard))
  | ok _ =>
      have hchosen : Concludes setting.answers l.Allows (Build.chooseTemplate c)
          (fun _ w₂ => setting.Intact w w₂) (fun _ w₂ => setting.Unprepared c w w₂) w₁ :=
        (concludes_chooseTemplate (hheard.idle hidle)).mono
          (fun _ _ h => .of_heard (hheard.trans h))
          fun _ _ h => Or.inl (.of_heard (hheard.trans h))
      refine Concludes.bind hchosen ?_
      intro template w₂ hintact
      exact concludes_survey hidle hmakes hintact

end Setting
end Bytelink
