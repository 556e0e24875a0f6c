import Bytelink.Proofs.Steps

/-!
# The parts of a build and their steps

Each part of the build does one step: whatever it is answered, its deeds are those of the step, and
it succeeds or fails as the step does (`Performs`). A part that does several steps is their
sequence.
-/
namespace Bytelink

section

variable {c : Config} {α : Type} {log : List Exchange}

def Performs (c : Config) (part : Part α) (step : α → Step) : Prop :=
  ∀ log result, part.run.Deeds log result →
    ∀ a outcome, Found result a outcome → (step a).Goes c log outcome

variable {path : Path} {result : Except SystemError α}

theorem deeds_run_onFile {operation : Plan (Except SystemError α)} {result : Except Cause α} :
    (Build.onFile path operation).run.Deeds log result ↔
      ∃ reply, operation.Deeds log reply ∧ reply.mapError (.file path) = result := by
  have hrun : (Build.onFile path operation).run =
      (fun reply => reply.mapError (.file path)) <$> operation := by
    rw [map_eq_pure_bind]
    refine congrArg (operation >>= ·) (funext fun reply => ?_)
    cases reply <;> rfl
  rw [hrun, Plan.deeds_map]

theorem deeds_absolute {found : Except SystemError Path}
    (h : (Plan.absolute path).Deeds log found) : Located path log found := by
  unfold Plan.absolute at h
  unfold Located
  split
  · rename_i hknown
    rw [if_pos hknown] at h
    exact ⟨h.1, h.2.symm⟩
  · rename_i hunknown
    rw [if_neg hunknown] at h
    obtain ⟨directory, before, after, rfl, hdirectory, hafter⟩ := Plan.deeds_bind.mp h
    obtain rfl := Plan.deeds_request.mp hdirectory
    cases directory with
    | ok directory =>
        obtain ⟨rfl, rfl⟩ := hafter
        exact ⟨.ok directory, rfl, rfl⟩
    | error e =>
        obtain ⟨rfl, rfl⟩ := hafter
        exact ⟨.error e, rfl, rfl⟩

theorem deeds_readText {text : Except SystemError Text} (h : (Plan.readText path).Deeds log text) :
    ∃ reply, log = [⟨.fileContent path, reply⟩] ∧ text = textOf reply := by
  obtain ⟨reply, before, after, rfl, hreply, hafter⟩ := Plan.deeds_bind.mp h
  obtain rfl := Plan.deeds_request.mp hreply
  refine ⟨reply, ?_⟩
  cases reply with
  | error e =>
      obtain ⟨rfl, rfl⟩ := hafter
      exact ⟨rfl, rfl⟩
  | ok bytes =>
      unfold textOf
      dsimp only at hafter ⊢
      cases hdecode : Utf8.decode? bytes with
      | some decoded =>
          simp only [hdecode] at hafter
          obtain ⟨rfl, rfl⟩ := hafter
          exact ⟨rfl, rfl⟩
      | none =>
          simp only [hdecode] at hafter
          obtain ⟨rfl, rfl⟩ := hafter
          exact ⟨rfl, rfl⟩

theorem performs_locate (c : Config) (path : Path) :
    Performs c (Build.onFile path (Plan.absolute path)) (.locate path) := by
  intro log result h a outcome hfound
  obtain ⟨reply, hreply, rfl⟩ := deeds_run_onFile.mp h
  exact ⟨reply, deeds_absolute hreply, hfound⟩

theorem Found.outcome_eq {result : Except Cause Unit} {a : Unit} {outcome : Except Cause Unit}
    (h : Found result a outcome) : outcome = result := by
  cases result with
  | ok => exact h.2
  | error cause => exact h

theorem performs_makeDirectories (c : Config) (path : Path) :
    Performs c (Build.onFile path (Plan.makeDirectories path)) fun _ => .makeDirectories path := by
  intro log result h a outcome hfound
  obtain ⟨reply, hreply, rfl⟩ := deeds_run_onFile.mp h
  exact ⟨reply, Plan.deeds_request.mp hreply, hfound.outcome_eq⟩

theorem performs_write (c : Config) (path : Path) (content : Bytes) :
    Performs c (Build.onFile path (Plan.writeFile path content))
      fun _ => .write path content := by
  intro log result h a outcome hfound
  obtain ⟨reply, hreply, rfl⟩ := deeds_run_onFile.mp h
  exact ⟨reply, Plan.deeds_request.mp hreply, hfound.outcome_eq⟩

theorem performs_read (c : Config) (path : Path) :
    Performs c (Build.onFile path (Plan.readText path)) (.read path) := by
  intro log result h a outcome hfound
  obtain ⟨text, htext, rfl⟩ := deeds_run_onFile.mp h
  obtain ⟨reply, rfl, rfl⟩ := deeds_readText htext
  exact ⟨reply, rfl, hfound⟩

theorem performs_removeStale (c : Config) (path : Path) :
    Performs c (Build.removeStale path) fun _ => .clear path := by
  intro log result h a outcome hfound
  obtain ⟨reply, before, after, rfl, hreply, hafter⟩ := deeds_run_lift_bind.mp h
  obtain rfl := Plan.deeds_request.mp hreply
  suffices hrest : after = [] ∧ result = removalOf path reply by
    obtain ⟨rfl, rfl⟩ := hrest
    exact ⟨reply, List.append_nil _, hfound.outcome_eq⟩
  cases reply with
  | ok =>
      obtain ⟨_, hreport, rfl⟩ := deeds_run_lift.mp hafter
      exact ⟨Plan.deeds_report.mp hreport, rfl⟩
  | error e =>
      dsimp only at hafter
      split at hafter
      · rename_i hmissing
        obtain ⟨rfl, rfl⟩ := deeds_run_pure.mp hafter
        rw [hmissing, removalOf_missing]
        exact ⟨rfl, rfl⟩
      · rename_i hfailed
        obtain ⟨rfl, rfl⟩ := deeds_run_throw.mp hafter
        rw [removalOf_failed hfailed]
        exact ⟨rfl, rfl⟩

theorem deeds_command {program : Path} {arguments : List Text} {command : Command}
    (h : (c.command program arguments).Deeds log command) :
    Resolved c program arguments log command := by
  obtain ⟨resolved, before, after, rfl, hresolve, rfl, rfl⟩ := Plan.deeds_bind.mp h
  rw [List.append_nil]
  refine ⟨resolved, rfl, ?_⟩
  unfold Config.resolveTool at hresolve
  split
  · rename_i hrelative
    rw [if_pos hrelative] at hresolve
    obtain ⟨found, looked, rest, rfl, hfound, hrest⟩ := Plan.deeds_bind.mp hresolve
    refine ⟨found, ?_⟩
    cases found with
    | ok path =>
        obtain ⟨rfl, rfl⟩ := Plan.deeds_pure.mp hrest
        rw [List.append_nil]
        exact ⟨deeds_absolute hfound, rfl⟩
    | error e =>
        obtain ⟨rfl, rfl⟩ := Plan.deeds_pure.mp hrest
        rw [List.append_nil]
        exact ⟨deeds_absolute hfound, rfl⟩
  · rename_i hplain
    rw [if_neg hplain] at hresolve
    obtain ⟨rfl, rfl⟩ := hresolve
    exact ⟨rfl, rfl⟩

section

variable {command : Command}

theorem deeds_start {started : Except ToolError Run} : command.start.Deeds log started ↔
    ∃ reply, log = [⟨.launch command, reply⟩] ∧ started = reply.mapError command.refusal := by
  unfold Command.start
  rw [Plan.deeds_bind]
  constructor
  · rintro ⟨reply, launched, rest, rfl, hlaunch, hrest⟩
    obtain rfl := Plan.deeds_request.mp hlaunch
    refine ⟨reply, ?_⟩
    rcases reply with (_ | reason) | run
    · obtain ⟨rfl, rfl⟩ := Plan.deeds_pure.mp hrest
      exact ⟨rfl, rfl⟩
    · obtain ⟨_, reported, _, rfl, hreport, rfl, rfl⟩ := Plan.deeds_bind.mp hrest
      obtain rfl := Plan.deeds_report.mp hreport
      exact ⟨rfl, rfl⟩
    · obtain ⟨_, reported, _, rfl, hreport, rfl, rfl⟩ := Plan.deeds_bind.mp hrest
      obtain rfl := Plan.deeds_report.mp hreport
      exact ⟨rfl, rfl⟩
  · rintro ⟨reply, rfl, rfl⟩
    refine ⟨reply, _, [], rfl, Plan.deeds_request.mpr rfl, ?_⟩
    rcases reply with (_ | reason) | run
    · exact Plan.deeds_pure.mpr ⟨rfl, rfl⟩
    · exact Plan.deeds_bind.mpr ⟨(), [], [], rfl, Plan.deeds_report.mpr rfl, rfl, rfl⟩
    · exact Plan.deeds_bind.mpr ⟨(), [], [], rfl, Plan.deeds_report.mpr rfl, rfl, rfl⟩

theorem deeds_finish {run : Run} {output : Except ToolError Text} :
    (command.finish run).Deeds log output ↔
      ∃ ending, log = [⟨.await run, ending⟩] ∧ output = command.outcome ending := by
  unfold Command.finish
  rw [Plan.deeds_map]
  constructor
  · rintro ⟨ending, hawait, rfl⟩
    exact ⟨ending, Plan.deeds_request.mp hawait, rfl⟩
  · rintro ⟨ending, rfl, rfl⟩
    exact ⟨ending, Plan.deeds_request.mpr rfl, rfl⟩

/-- A command that is run is not started, or is started and waited for. -/
theorem deeds_run_iff {output : Except ToolError Text} : command.run.Deeds log output ↔
    (∃ e, log = [⟨.launch command, .error e⟩] ∧ output = .error (command.refusal e)) ∨
      ∃ run ending, log = [⟨.launch command, .ok run⟩, ⟨.await run, ending⟩] ∧
        output = command.outcome ending := by
  unfold Command.run
  rw [Plan.deeds_bind]
  constructor
  · rintro ⟨started, before, after, rfl, hstart, hafter⟩
    obtain ⟨reply, rfl, rfl⟩ := deeds_start.mp hstart
    cases reply with
    | error e =>
        obtain ⟨rfl, rfl⟩ := Plan.deeds_pure.mp hafter
        exact .inl ⟨e, rfl, rfl⟩
    | ok run =>
        obtain ⟨ending, rfl, rfl⟩ := deeds_finish.mp hafter
        exact .inr ⟨run, ending, rfl, rfl⟩
  · rintro (⟨e, rfl, rfl⟩ | ⟨run, ending, rfl, rfl⟩)
    · exact ⟨_, _, [], rfl, deeds_start.mpr ⟨.error e, rfl, rfl⟩, rfl, rfl⟩
    · exact ⟨_, _, _, rfl, deeds_start.mpr ⟨.ok run, rfl, rfl⟩,
        deeds_finish.mpr ⟨ending, rfl, rfl⟩⟩

theorem deeds_run_command {outcome : Except ToolError Text} (h : command.run.Deeds log outcome) :
    Ran command log ((outcome.mapError .tool).map fun _ => ()) := by
  rcases deeds_run_iff.mp h with ⟨e, rfl, rfl⟩ | ⟨run, ending, rfl, rfl⟩
  · exact .inl ⟨e, rfl, rfl⟩
  · exact .inr ⟨run, ending, rfl, rfl⟩

end

theorem performs_tool (c : Config) (program : Path) (arguments : List Text) :
    Performs c (liftM (c.command program arguments) >>= Build.runTool)
      fun _ => .tool program arguments := by
  intro log result h a outcome hfound
  obtain ⟨command, looked, ran, rfl, hcommand, hrun⟩ := deeds_run_lift_bind.mp h
  obtain ⟨output, before, after, rfl, houtput, hafter⟩ := deeds_run_lift_bind.mp hrun
  have hended : after = [] ∧ result = (output.mapError .tool).map fun _ => () := by
    cases output with
    | ok text =>
        obtain ⟨rfl, rfl⟩ := deeds_run_pure.mp hafter
        exact ⟨rfl, rfl⟩
    | error e =>
        obtain ⟨rfl, rfl⟩ := deeds_run_throw.mp hafter
        exact ⟨rfl, rfl⟩
  obtain ⟨rfl, rfl⟩ := hended
  refine ⟨looked, command, before ++ [], rfl, deeds_command hcommand, ?_⟩
  rw [List.append_nil, hfound.outcome_eq]
  exact deeds_run_command houtput

theorem performs_enter (c : Config) (previous stage : Stage) :
    Performs c (Build.enter c previous stage) fun _ => .enter := by
  intro log result h a outcome hfound
  have hrest := deeds_run_report_bind.mp h
  show Entered c.cancel? log outcome
  rw [hfound.outcome_eq]
  cases htoken : c.cancel? with
  | none =>
      rw [htoken] at hrest
      obtain ⟨rfl, rfl⟩ := deeds_run_pure.mp hrest
      exact ⟨rfl, rfl⟩
  | some token =>
      rw [htoken] at hrest
      obtain ⟨answer, before, after, rfl, hanswer, hafter⟩ := deeds_run_lift_bind.mp hrest
      obtain rfl := Plan.deeds_request.mp hanswer
      refine ⟨answer, ?_⟩
      cases answer with
      | false =>
          obtain ⟨rfl, rfl⟩ := deeds_run_pure.mp hafter
          exact ⟨rfl, rfl⟩
      | true =>
          obtain ⟨rfl, rfl⟩ := deeds_run_throw.mp hafter
          exact ⟨rfl, rfl⟩

theorem performs_chooseTemplate (c : Config) :
    Performs c (Build.chooseTemplate c) (.loadTemplate c.template?) := by
  intro log result h a outcome hfound
  unfold Build.chooseTemplate at h
  cases hpath : c.template? with
  | none =>
      rw [hpath] at h
      obtain ⟨rfl, rfl⟩ := deeds_run_pure.mp h
      exact ⟨rfl, hfound⟩
  | some path =>
      rw [hpath] at h
      obtain ⟨loaded, before, after, rfl, hload, hafter⟩ := deeds_run_lift_bind.mp h
      obtain ⟨text, looked, rest, rfl, htext, hrest⟩ := Plan.deeds_bind.mp hload
      obtain ⟨reply, rfl, rfl⟩ := deeds_readText htext
      suffices hended : rest = [] ∧ after = [] ∧ result = templateOf path reply by
        obtain ⟨rfl, rfl, rfl⟩ := hended
        exact ⟨reply, rfl, hfound⟩
      unfold templateOf
      cases htext : textOf reply with
      | error e =>
          rw [htext] at hrest
          obtain ⟨rfl, rfl⟩ := Plan.deeds_pure.mp hrest
          obtain ⟨rfl, rfl⟩ := deeds_run_throw.mp hafter
          exact ⟨rfl, rfl, rfl⟩
      | ok text =>
          rw [htext] at hrest
          dsimp only at hrest ⊢
          cases htemplate : Template.ofText? text with
          | none =>
              rw [htemplate] at hrest
              obtain ⟨rfl, rfl⟩ := Plan.deeds_pure.mp hrest
              obtain ⟨rfl, rfl⟩ := deeds_run_throw.mp hafter
              exact ⟨rfl, rfl, rfl⟩
          | some template =>
              rw [htemplate] at hrest
              obtain ⟨rfl, rfl⟩ := Plan.deeds_pure.mp hrest
              obtain ⟨rfl, rfl⟩ := deeds_run_pure.mp hafter
              exact ⟨rfl, rfl, rfl⟩

theorem deeds_keepFiles {directory : Path} {names files : List Text}
    (h : (Sources.keepFiles directory names).Deeds log files) :
    ∃ looks : List (Text × Bool), looks.map (·.1) = names ∧
      log = looks.map (fun look => ⟨.isFile (directory.join ⟨look.1⟩), look.2⟩) ∧
      files = (looks.filter (·.2)).map (·.1) := by
  induction names generalizing log files with
  | nil =>
      obtain ⟨rfl, rfl⟩ := Plan.deeds_pure.mp h
      exact ⟨[], rfl, rfl, rfl⟩
  | cons name rest ih =>
      obtain ⟨isFile, looked, more, rfl, hlook, hmore⟩ := Plan.deeds_bind.mp h
      obtain rfl := Plan.deeds_request.mp hlook
      obtain ⟨kept, before, after, rfl, hkept, rfl, rfl⟩ := Plan.deeds_bind.mp hmore
      obtain ⟨looks, rfl, rfl, rfl⟩ := ih hkept
      refine ⟨(name, isFile) :: looks, rfl, ?_, ?_⟩
      · rw [List.append_nil]
        rfl
      · cases isFile <;> rfl

theorem performs_discover (c : Config) (directory : Path) :
    Performs c (Build.onFile directory (Sources.discover directory)) (.discover directory) := by
  intro log result h a outcome hfound
  obtain ⟨reply, hreply, rfl⟩ := deeds_run_onFile.mp h
  obtain ⟨listed, before, after, rfl, hlisted, hafter⟩ := Plan.deeds_bind.mp hreply
  obtain rfl := Plan.deeds_request.mp hlisted
  cases listed with
  | error e =>
      obtain ⟨rfl, rfl⟩ := Plan.deeds_pure.mp hafter
      exact Or.inl ⟨e, rfl, hfound⟩
  | ok names =>
      obtain ⟨files, looked, rest, rfl, hkeep, rfl, rfl⟩ := Plan.deeds_bind.mp hafter
      obtain ⟨looks, hlooks, rfl, rfl⟩ := deeds_keepFiles hkeep
      obtain ⟨rfl, rfl⟩ := hfound
      rw [List.append_nil]
      exact Or.inr ⟨names, looks, hlooks, rfl, rfl, rfl⟩

theorem deeds_takeListing {path : Path} {origin body : Text} {result : Except Cause Fragment}
    (h : (Build.takeListing path (.ofBody origin body)).run.Deeds log result) :
    ∃ taken, Taken path log taken ∧
      result = taken.map fun listing? => ⟨origin, body, listing?⟩ := by
  obtain ⟨text, looked, after, rfl, hlook, hafter⟩ := deeds_run_lift_bind.mp h
  obtain ⟨reply, rfl, rfl⟩ := deeds_readText hlook
  cases htext : textOf reply with
  | error e =>
      rw [htext] at hafter
      refine ⟨if e = .notFound then .ok none else .error (.file path e), ?_⟩
      dsimp only at hafter
      split at hafter
      · rename_i hmissing
        obtain ⟨rfl, rfl⟩ := deeds_run_pure.mp hafter
        rw [if_pos hmissing]
        exact ⟨Or.inl ⟨reply, e, htext, rfl, (if_pos hmissing).symm⟩, rfl⟩
      · rename_i hfailed
        obtain ⟨rfl, rfl⟩ := deeds_run_throw.mp hafter
        rw [if_neg hfailed]
        exact ⟨Or.inl ⟨reply, e, htext, rfl, (if_neg hfailed).symm⟩, rfl⟩
  | ok text =>
      rw [htext] at hafter
      obtain ⟨removal, removed, rest, rfl, hremoval, hrest⟩ := deeds_run_lift_bind.mp hafter
      obtain rfl := Plan.deeds_request.mp hremoval
      refine ⟨(removalOf path removal).map fun _ => some text, ?_⟩
      suffices hended : rest = [] ∧ result =
          ((removalOf path removal).map fun _ => some text).map
            fun listing? => ⟨origin, body, listing?⟩ by
        obtain ⟨rfl, rfl⟩ := hended
        exact ⟨Or.inr ⟨reply, text, removal, htext, rfl, rfl⟩, rfl⟩
      cases removal with
      | ok =>
          obtain ⟨rfl, rfl⟩ := deeds_run_pure.mp hrest
          exact ⟨rfl, rfl⟩
      | error e =>
          dsimp only at hrest
          split at hrest
          · rename_i hmissing
            obtain ⟨rfl, rfl⟩ := deeds_run_pure.mp hrest
            rw [hmissing, removalOf_missing]
            exact ⟨rfl, rfl⟩
          · rename_i hfailed
            obtain ⟨rfl, rfl⟩ := deeds_run_throw.mp hrest
            rw [removalOf_failed hfailed]
            exact ⟨rfl, rfl⟩

def Build.requireDirectory (directory : Path) : Part Unit := do
  match ← validate directory with
  | .error e => throw (.config e)
  | .ok () => pure ()

theorem Build.prepare_eq (c : Config) : Build.prepare c =
    (Build.requireDirectory c.sourceDir >>= fun _ =>
      Build.chooseTemplate c >>= Build.survey c) := by
  unfold Build.prepare Build.requireDirectory
  rw [bind_assoc]
  refine congrArg (liftM (Build.validate c.sourceDir) >>= ·) (funext fun valid => ?_)
  cases valid <;> rfl

theorem Preprocess.one_eq (c : Config) (source : Path) : Preprocess.one c source =
    (liftM (Plan.report .info .pipeline ("preprocessing " ++ intermediateName source ['c']))
      >>= fun _ => (liftM (c.preprocessCommand source) >>= Build.runTool)
      >>= fun _ => pure (intermediateName source ['i'])) := by
  unfold Preprocess.one Build.runTool
  simp only [bind_assoc]
  refine congrArg (_ >>= ·) (funext fun _ => congrArg (_ >>= ·) (funext fun command => ?_))
  refine congrArg (_ >>= ·) (funext fun output => ?_)
  cases output <;> rfl

theorem performs_requireDirectory (c : Config) (directory : Path) :
    Performs c (Build.requireDirectory directory) fun _ => .checkDirectory directory := by
  intro log result h a outcome hfound
  obtain ⟨valid, before, after, rfl, hvalid, hafter⟩ := deeds_run_lift_bind.mp h
  obtain ⟨answer, looked, rest, rfl, hanswer, hrest⟩ := Plan.deeds_bind.mp hvalid
  obtain rfl := Plan.deeds_request.mp hanswer
  refine ⟨answer, ?_⟩
  rw [hfound.outcome_eq]
  cases answer with
  | true =>
      obtain ⟨rfl, rfl⟩ := Plan.deeds_pure.mp hrest
      obtain ⟨rfl, rfl⟩ := deeds_run_pure.mp hafter
      exact ⟨rfl, rfl⟩
  | false =>
      obtain ⟨rfl, rfl⟩ := Plan.deeds_pure.mp hrest
      obtain ⟨rfl, rfl⟩ := deeds_run_throw.mp hafter
      exact ⟨rfl, rfl⟩

theorem performs_demand (c : Config) (directory : Path) (sources : List Path) :
    Performs c (if sources.isEmpty then throw (.noSources directory) else pure ())
      fun _ => .demand directory sources := by
  intro log result h a outcome hfound
  rw [hfound.outcome_eq]
  split at h
  · rename_i hempty
    obtain ⟨rfl, rfl⟩ := deeds_run_throw.mp h
    exact ⟨rfl, (if_pos hempty).symm⟩
  · rename_i hsome
    obtain ⟨rfl, rfl⟩ := deeds_run_pure.mp h
    exact ⟨rfl, (if_neg hsome).symm⟩

def Build.collect (fragments : List Fragment) : Part Segment :=
  match Segment.ofFragments .standard fragments with
  | .error e => throw (.data e)
  | .ok segment => pure segment

theorem Build.aggregate_eq (c : Config) (fragments : List Fragment) :
    Build.aggregate c fragments =
      (liftM (Build.reportAll .segment (Build.listingReports .empty fragments)) >>= fun _ =>
        Build.collect fragments >>= fun segment =>
          let path := c.sourceDir.join (Build.segmentFile c.target)
          Build.onFile path (Plan.writeFile path segment.toBytes) >>= fun _ =>
          Build.debug ("wrote " ++ Text.decimal segment.size ++ " symbol(s), "
            ++ Text.decimal segment.totalSize.toNat ++ " byte(s) to " ++ path.text) >>= fun _ =>
          pure (segment, path)) := by
  unfold Build.aggregate Build.collect
  refine congrArg (_ >>= ·) (funext fun _ => ?_)
  cases Segment.ofFragments .standard fragments <;> rfl

theorem performs_collect (c : Config) (fragments : List Fragment) :
    Performs c (Build.collect fragments) (.collect fragments) := by
  intro log result h a outcome hfound
  unfold Build.collect at h
  cases hsegment : Segment.ofFragments .standard fragments with
  | error e =>
      rw [hsegment] at h
      obtain ⟨rfl, rfl⟩ := deeds_run_throw.mp h
      refine ⟨rfl, ?_⟩
      rw [hsegment]
      exact hfound
  | ok segment =>
      rw [hsegment] at h
      obtain ⟨rfl, rfl⟩ := deeds_run_pure.mp h
      refine ⟨rfl, ?_⟩
      rw [hsegment]
      exact hfound

theorem performs_inspect (c : Config) (path : Path) (passed built : Text) :
    Performs c (do
        if ← Plan.isFile path then
          Build.debug passed
          Build.info built
        else throw (.missingArtifact path)) fun _ => .inspect path := by
  intro log result h a outcome hfound
  obtain ⟨answer, looked, rest, rfl, hanswer, hrest⟩ := deeds_run_lift_bind.mp h
  obtain rfl := Plan.deeds_request.mp hanswer
  refine ⟨answer, ?_⟩
  rw [hfound.outcome_eq]
  cases answer with
  | true =>
      obtain ⟨_, hreport, rfl⟩ := deeds_run_lift.mp (deeds_run_report_bind.mp hrest)
      obtain rfl := Plan.deeds_report.mp hreport
      exact ⟨rfl, rfl⟩
  | false =>
      obtain ⟨rfl, rfl⟩ := deeds_run_throw.mp hrest
      exact ⟨rfl, rfl⟩

end
end Bytelink
