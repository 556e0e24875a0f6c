import Bytelink.Proofs.Parts
import Bytelink.Proofs.SceneBuild

/-!
# What the parts of a build ask

Whatever the replies, a part of a build neither looks at the cancel token nor announces that a stage
is entered: both are left to `Build.enter`. It starts only commands that carry the token of the
configuration. So the surroundings learn of the token from every start of a tool.
-/
namespace Bytelink

namespace Plan

variable {α β ε : Type} {G G' : Request → Prop}

/-- Whatever the replies, every request satisfies `G`. -/
abbrev OnlyAsks (G : Request → Prop) (p : Plan α) : Prop :=
  p.Ensures (W := Unit) (fun _ _ _ _ => True) (fun r _ => G r) (fun _ _ => True) ()

theorem onlyAsks_pure (a : α) : (pure a : Plan α).OnlyAsks G := trivial

theorem onlyAsks_request {r : Request} (h : G r) : (request r).OnlyAsks G :=
  ensures_request.mpr ⟨h, fun _ _ _ => trivial⟩

theorem OnlyAsks.bind {p : Plan α} {f : α → Plan β} (hp : p.OnlyAsks G)
    (hf : ∀ a, (f a).OnlyAsks G) : (p >>= f).OnlyAsks G :=
  Ensures.bind hp fun a _ _ => hf a

theorem OnlyAsks.map {p : Plan α} {f : α → β} (hp : p.OnlyAsks G) : (f <$> p).OnlyAsks G :=
  Ensures.map hp

theorem OnlyAsks.weaken {p : Plan α} (hp : p.OnlyAsks G) (h : ∀ r, G r → G' r) : p.OnlyAsks G' :=
  Ensures.weaken hp fun r _ => h r

theorem OnlyAsks.asked {p : Plan α} (hp : p.OnlyAsks G) {σ : Type} (host : Host σ) (s : σ) :
    ∀ a ∈ p.asked host s, G a.1 := by
  have hhost : host.Follows (fun _ => ()) fun _ _ _ _ => True := fun _ _ => trivial
  exact (Ensures.of_follows hhost hp).2

end Plan

section

variable {α β ε : Type} {G : Request → Prop}

/-- The same for a plan that may fail. -/
def OnlyAsks (G : Request → Prop) (p : ExceptT ε Plan α) : Prop := p.run.OnlyAsks G

theorem onlyAsks_pure (a : α) : OnlyAsks G (pure a : ExceptT ε Plan α) := trivial

theorem onlyAsks_throw (e : ε) : OnlyAsks G (throw e : ExceptT ε Plan α) := trivial

theorem onlyAsks_lift {p : Plan α} (hp : p.OnlyAsks G) :
    OnlyAsks G (liftM p : ExceptT ε Plan α) :=
  Plan.OnlyAsks.map hp

theorem OnlyAsks.weaken {G' : Request → Prop} {p : ExceptT ε Plan α} (hp : OnlyAsks G p)
    (h : ∀ r, G r → G' r) : OnlyAsks G' p :=
  Plan.OnlyAsks.weaken hp h

theorem OnlyAsks.bind {p : ExceptT ε Plan α} {f : α → ExceptT ε Plan β} (hp : OnlyAsks G p)
    (hf : ∀ a, OnlyAsks G (f a)) : OnlyAsks G (p >>= f) := by
  rw [OnlyAsks, ExceptT.run_bind]
  refine Plan.OnlyAsks.bind hp fun result => ?_
  cases result with
  | ok a => exact hf a
  | error e => exact Plan.onlyAsks_pure _

end

/-- What a part of a build may ask that starts only certain commands. -/
def Request.InRemit (starts : Command → Prop) : Request → Prop
  | .launch command => starts command
  | .isCancelled _ => False
  | .report record => ¬ record.Enters
  | _ => True

section

variable {α ε : Type} {starts : Command → Prop} {c : Config} {path : Path}

/-- A stage asks what its part does, and reports its failure. -/
theorem OnlyAsks.within {G : Request → Prop} {stage : Stage} {part : Part α}
    (h : OnlyAsks G part) (hG : ∀ record : Record, ¬ record.Enters → G (.report record)) :
    OnlyAsks G (Build.within stage part) := by
  refine Plan.OnlyAsks.bind h fun result => ?_
  cases result with
  | ok a => exact Plan.onlyAsks_pure _
  | error cause =>
      refine Plan.OnlyAsks.bind (Plan.onlyAsks_request (hG _ ?_)) fun _ => Plan.onlyAsks_pure _
      exact Setting.not_enters_failed stage cause.message

theorem inRemit_info (text : Text) : Request.InRemit starts (.report ⟨.info, .pipeline, text⟩) :=
  Record.not_enters_of_level (by simp)

theorem inRemit_reporter {level : Level} {reporter : Reporter} (h : reporter ≠ .pipeline)
    (text : Text) : Request.InRemit starts (.report ⟨level, reporter, text⟩) :=
  Record.not_enters_of_reporter h

theorem inRemit_removed (text : Text) :
    Request.InRemit starts (.report ⟨.debug, .pipeline, "removed stale " ++ text⟩) := by
  refine Record.not_enters_of_start (List.prefix_append _ text) ?_
  intro previous stage
  cases previous <;> cases stage <;> decide

theorem onlyAsks_absolute (path : Path) :
    (Plan.absolute path).OnlyAsks (Request.InRemit starts) := by
  unfold Plan.absolute
  split
  · exact Plan.onlyAsks_pure _
  · refine Plan.OnlyAsks.bind (Plan.onlyAsks_request trivial) fun directory => ?_
    cases directory <;> exact Plan.onlyAsks_pure _

theorem onlyAsks_readText (path : Path) :
    (Plan.readText path).OnlyAsks (Request.InRemit starts) := by
  refine Plan.OnlyAsks.bind (Plan.onlyAsks_request trivial) fun content => ?_
  cases content with
  | error e => exact Plan.onlyAsks_pure _
  | ok bytes =>
      dsimp only
      split <;> exact Plan.onlyAsks_pure _

theorem onlyAsks_onFile {operation : Plan (Except SystemError α)}
    (h : operation.OnlyAsks (Request.InRemit starts)) :
    OnlyAsks (Request.InRemit starts) (Build.onFile path operation) := by
  refine Plan.OnlyAsks.bind h fun result => ?_
  cases result <;> exact Plan.onlyAsks_pure _

theorem onlyAsks_removeStale (path : Path) :
    OnlyAsks (Request.InRemit starts) (Build.removeStale path) := by
  refine OnlyAsks.bind (onlyAsks_lift (Plan.onlyAsks_request trivial)) fun result => ?_
  cases result with
  | ok => exact onlyAsks_lift (Plan.onlyAsks_request (inRemit_removed path.text))
  | error e =>
      dsimp only
      split
      · exact onlyAsks_pure _
      · exact onlyAsks_throw _

/-- A command of a build has the arguments that it was made with and the token of the
configuration. -/
theorem ensures_command_token (program : Path) (arguments : List Text) :
    (c.command program arguments).Ensures (W := Unit) (fun _ _ _ _ => True)
      (fun r _ => Request.InRemit starts r)
      (fun command _ => command.arguments = arguments ∧ command.cancel? = c.cancel?) () := by
  have hresolve : (Config.resolveTool program).OnlyAsks (Request.InRemit starts) := by
    unfold Config.resolveTool
    split
    · refine Plan.OnlyAsks.bind (onlyAsks_absolute program) fun found => ?_
      cases found <;> exact Plan.onlyAsks_pure _
    · exact Plan.onlyAsks_pure _
  exact Plan.Ensures.bind hresolve fun _ _ _ => Plan.ensures_pure.mpr ⟨rfl, rfl⟩

theorem onlyAsks_start {command : Command} (h : starts command) :
    command.start.OnlyAsks (Request.InRemit starts) := by
  refine Plan.OnlyAsks.bind (Plan.onlyAsks_request h) fun reply => ?_
  have hreport : (Plan.report .debug .tool ("running " ++ command.line)).OnlyAsks
      (Request.InRemit starts) :=
    Plan.onlyAsks_request (inRemit_reporter (by decide) _)
  rcases reply with (_ | reason) | run
  · exact Plan.onlyAsks_pure _
  · exact Plan.OnlyAsks.bind hreport fun _ => Plan.onlyAsks_pure _
  · exact Plan.OnlyAsks.bind hreport fun _ => Plan.onlyAsks_pure _

theorem onlyAsks_finish (command : Command) (run : Run) :
    (command.finish run).OnlyAsks (Request.InRemit starts) :=
  Plan.OnlyAsks.map (Plan.onlyAsks_request trivial)

theorem onlyAsks_run {command : Command} (h : starts command) :
    command.run.OnlyAsks (Request.InRemit starts) := by
  refine Plan.OnlyAsks.bind (onlyAsks_start h) fun started => ?_
  cases started with
  | error e => exact Plan.onlyAsks_pure _
  | ok run => exact onlyAsks_finish command run

theorem onlyAsks_tool {program : Path} {arguments : List Text}
    (h : ∀ command, command.cancel? = c.cancel? → starts command) :
    OnlyAsks (Request.InRemit starts)
      (liftM (c.command program arguments) >>= Build.runTool) := by
  have hcommand : (liftM (c.command program arguments) : Part Command).run.Ensures (W := Unit)
      (fun _ _ _ _ => True) (fun r _ => Request.InRemit starts r)
      (fun result _ => ∀ command, result = .ok command → command.cancel? = c.cancel?) () :=
    succeeds_lift.mpr ((ensures_command_token program arguments).mono fun _ _ h => h.2)
  rw [OnlyAsks, ExceptT.run_bind]
  refine Plan.Ensures.bind hcommand ?_
  intro result _ hresult
  cases result with
  | error e => exact Plan.onlyAsks_pure _
  | ok command =>
      refine OnlyAsks.bind (onlyAsks_lift (onlyAsks_run (h command (hresult command rfl)))) ?_
      intro output
      cases output with
      | ok => exact onlyAsks_pure _
      | error => exact onlyAsks_throw _

theorem onlyAsks_prepare (starts : Command → Prop) (c : Config) :
    OnlyAsks (Request.InRemit starts) (Build.prepare c) := by
  have hkeep : ∀ directory names,
      (Sources.keepFiles directory names).OnlyAsks (Request.InRemit starts) := by
    intro directory names
    induction names with
    | nil => exact Plan.onlyAsks_pure _
    | cons name rest ih =>
        refine Plan.OnlyAsks.bind (Plan.onlyAsks_request trivial) fun _ => ?_
        exact Plan.OnlyAsks.bind ih fun _ => Plan.onlyAsks_pure _
  have hdiscover : (Sources.discover c.sourceDir).OnlyAsks (Request.InRemit starts) := by
    refine Plan.OnlyAsks.bind (Plan.onlyAsks_request trivial) fun listed => ?_
    cases listed with
    | error e => exact Plan.onlyAsks_pure _
    | ok names => exact Plan.OnlyAsks.bind (hkeep _ _) fun _ => Plan.onlyAsks_pure _
  have htemplate : OnlyAsks (Request.InRemit starts) (Build.chooseTemplate c) := by
    unfold Build.chooseTemplate
    split
    · exact onlyAsks_pure _
    · rename_i path _
      have hload : (Build.loadTemplate path).OnlyAsks (Request.InRemit starts) := by
        refine Plan.OnlyAsks.bind (onlyAsks_readText path) fun text => ?_
        cases text with
        | error e => exact Plan.onlyAsks_pure _
        | ok text =>
            dsimp only
            split <;> exact Plan.onlyAsks_pure _
      refine OnlyAsks.bind (onlyAsks_lift hload) fun loaded => ?_
      cases loaded with
      | ok => exact onlyAsks_pure _
      | error => exact onlyAsks_throw _
  have hvalidate : (Build.validate c.sourceDir).OnlyAsks (Request.InRemit starts) := by
    refine Plan.OnlyAsks.bind (Plan.onlyAsks_request trivial) fun answer => ?_
    cases answer <;> exact Plan.onlyAsks_pure _
  refine OnlyAsks.bind (onlyAsks_lift hvalidate) fun valid => ?_
  cases valid with
  | error e => exact onlyAsks_throw _
  | ok =>
      refine OnlyAsks.bind htemplate fun template => ?_
      refine OnlyAsks.bind (onlyAsks_onFile (onlyAsks_absolute _)) fun outDir => ?_
      refine OnlyAsks.bind (onlyAsks_onFile (Plan.onlyAsks_request trivial)) fun _ => ?_
      refine OnlyAsks.bind (onlyAsks_removeStale _) fun _ => ?_
      refine OnlyAsks.bind (onlyAsks_onFile hdiscover) fun sources => ?_
      split
      · exact onlyAsks_throw _
      · exact onlyAsks_pure _

section

variable (h : ∀ command, command.cancel? = c.cancel? → starts command)
include h

theorem onlyAsks_one (source : Path) :
    OnlyAsks (Request.InRemit starts) (Preprocess.one c source) := by
  rw [Preprocess.one_eq]
  refine OnlyAsks.bind (onlyAsks_lift (Plan.onlyAsks_request (inRemit_info _))) fun _ => ?_
  exact OnlyAsks.bind (onlyAsks_tool h) fun _ => onlyAsks_pure _

theorem ensures_move_inRemit {worker : Worker} (hpending : worker.pending? ≠ none) :
    (worker.move c).Ensures (W := Unit) (fun _ _ _ _ => True)
      (fun r _ => Request.InRemit starts r)
      (fun moved _ => moved.movesLeft < worker.movesLeft) () := by
  cases worker with
  | stopped cause => exact absurd rfl hpending
  | waiting source command run todo outputs =>
      refine Plan.Ensures.bind (onlyAsks_finish command run) ?_
      intro output _ _
      cases output with
      | ok => exact Plan.ensures_pure.mpr (Nat.lt_succ_self _)
      | error => exact Plan.ensures_pure.mpr (Nat.succ_pos _)
  | ready todo outputs =>
      cases todo with
      | nil => exact absurd rfl hpending
      | cons source todo =>
          refine Plan.Ensures.bind (Plan.onlyAsks_request (inRemit_info _)) ?_
          intro _ _ _
          refine Plan.Ensures.bind (ensures_command_token _ _) ?_
          intro command _ hcommand
          refine Plan.Ensures.bind (onlyAsks_start (h command hcommand.2)) ?_
          intro started _ _
          cases started with
          | ok run =>
              refine Plan.ensures_pure.mpr ?_
              simp only [Worker.movesLeft, List.length_cons]
              omega
          | error e => exact Plan.ensures_pure.mpr (by simp [Worker.movesLeft])

theorem onlyAsks_all (sources : List Path) :
    OnlyAsks (Request.InRemit starts) (Preprocess.all c sources) := by
  have hones : OnlyAsks (Request.InRemit starts) (sources.mapM (Preprocess.one c)) := by
    induction sources with
    | nil => exact onlyAsks_pure _
    | cons source rest ih =>
        rw [List.mapM_cons]
        refine OnlyAsks.bind (onlyAsks_one h source) fun _ => ?_
        exact OnlyAsks.bind ih fun _ => onlyAsks_pure _
  have hworkers : ∀ workers, (Preprocess.runWorkers c (Preprocess.movesLeft workers)
      workers).OnlyAsks (Request.InRemit starts) := by
    intro workers
    let inv : List Worker → Unit → Prop := fun _ _ => True
    have hmove : ∀ (workers : List Worker) (place : Nat) (worker : Worker) (w : Unit),
        inv workers w → workers[place]? = some worker → worker.pending? ≠ none →
        (worker.move c).Ensures (fun _ _ _ _ => True) (fun r _ => Request.InRemit starts r)
          (fun moved w' => inv (workers.set place moved) w' ∧
            moved.movesLeft < worker.movesLeft) w :=
      fun _ _ _ _ _ _ hpending =>
        (ensures_move_inRemit h hpending).mono fun _ _ hless => ⟨trivial, hless⟩
    refine (Preprocess.ensures_runWorkers ?_ hmove trivial (Nat.le_refl _)).mono
      fun _ _ _ => trivial
    exact fun _ _ _ _ => Plan.onlyAsks_request trivial
  unfold Preprocess.all
  dsimp only
  split
  · exact hones
  · refine OnlyAsks.bind
      (onlyAsks_lift (Plan.onlyAsks_request (Setting.not_enters_workers _))) fun _ => ?_
    refine OnlyAsks.bind (onlyAsks_lift (hworkers _)) fun finished => ?_
    trivial

theorem onlyAsks_compileAll (pairs : List (Path × Text)) :
    OnlyAsks (Request.InRemit starts) (Build.compileAll c pairs) := by
  have htake : ∀ path fragment,
      OnlyAsks (Request.InRemit starts) (Build.takeListing path fragment) := by
    intro path fragment
    refine OnlyAsks.bind (onlyAsks_lift (onlyAsks_readText path)) fun text => ?_
    cases text with
    | ok text =>
        refine OnlyAsks.bind (onlyAsks_lift (Plan.onlyAsks_request trivial)) fun removal => ?_
        cases removal with
        | ok => exact onlyAsks_pure _
        | error e =>
            dsimp only
            split
            · exact onlyAsks_pure _
            · exact onlyAsks_throw _
    | error e =>
        dsimp only
        split
        · exact onlyAsks_pure _
        · exact onlyAsks_throw _
  induction pairs with
  | nil => exact onlyAsks_pure _
  | cons pair rest ih =>
      refine OnlyAsks.bind ?_ fun fragment => OnlyAsks.bind ih fun _ => onlyAsks_pure _
      unfold Build.compile
      refine OnlyAsks.bind (onlyAsks_removeStale _) fun _ => ?_
      refine OnlyAsks.bind (onlyAsks_lift (Plan.onlyAsks_request (inRemit_info _))) fun _ => ?_
      dsimp only
      rw [← bind_assoc]
      refine OnlyAsks.bind (onlyAsks_tool h) fun _ => ?_
      refine OnlyAsks.bind (onlyAsks_onFile (onlyAsks_readText _)) fun body => ?_
      exact htake _ _

omit h in
theorem onlyAsks_aggregate (c : Config) (fragments : List Fragment) :
    OnlyAsks (Request.InRemit starts) (Build.aggregate c fragments) := by
  have hreports : ∀ texts, (Build.reportAll .segment texts).OnlyAsks (Request.InRemit starts) := by
    intro texts
    induction texts with
    | nil => exact Plan.onlyAsks_pure _
    | cons text rest ih =>
        refine Plan.OnlyAsks.bind (Plan.onlyAsks_request (inRemit_reporter (by decide) _)) ?_
        exact fun _ => ih
  rw [Build.aggregate_eq]
  refine OnlyAsks.bind (onlyAsks_lift (hreports _)) fun _ => ?_
  refine OnlyAsks.bind ?_ fun segment => ?_
  · unfold Build.collect
    split
    · exact onlyAsks_throw _
    · exact onlyAsks_pure _
  · refine OnlyAsks.bind (onlyAsks_onFile (Plan.onlyAsks_request trivial)) fun _ => ?_
    refine OnlyAsks.bind (onlyAsks_lift (Plan.onlyAsks_request (Setting.not_enters_wrote ?_))) ?_
    · simp
    · exact fun _ => onlyAsks_pure _

omit h in
theorem onlyAsks_linkAll (c : Config) (ground : Build.Ground) (fragments : List Fragment)
    (segment : Segment) :
    OnlyAsks (Request.InRemit starts) (Build.linkAll c ground fragments segment) := by
  unfold Build.linkAll
  refine OnlyAsks.bind
    (onlyAsks_lift (Plan.onlyAsks_request (inRemit_reporter (by decide) _))) fun _ => ?_
  refine OnlyAsks.bind (onlyAsks_onFile (onlyAsks_absolute _)) fun path => ?_
  exact OnlyAsks.bind (onlyAsks_onFile (Plan.onlyAsks_request trivial)) fun _ => onlyAsks_pure _

omit h in
/-- What is left to do after the assembler. -/
theorem onlyAsks_inspect (path : Path) (built : Text) :
    OnlyAsks (Request.InRemit starts) (do
      if ← Plan.isFile path then
        Build.debug (Stage.assembling.text ++ " -> " ++ Stage.done.text)
        Build.info built
      else throw (.missingArtifact path) : Part Unit) := by
  refine OnlyAsks.bind (onlyAsks_lift (Plan.onlyAsks_request trivial)) fun answer => ?_
  cases answer with
  | false => exact onlyAsks_throw _
  | true =>
      refine OnlyAsks.bind
        (onlyAsks_lift (Plan.onlyAsks_request Setting.not_enters_done)) fun _ => ?_
      exact onlyAsks_lift (Plan.onlyAsks_request (inRemit_info _))

theorem onlyAsks_assemble (ground : Build.Ground) (linked : Path) :
    OnlyAsks (Request.InRemit starts) (Build.assemble c ground linked) := by
  unfold Build.assemble
  rw [← bind_assoc]
  exact OnlyAsks.bind (onlyAsks_tool h) fun _ => onlyAsks_inspect _ _

end

end
end Bytelink
