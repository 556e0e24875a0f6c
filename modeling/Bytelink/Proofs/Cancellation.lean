import Bytelink.Proofs.Building
import Bytelink.Proofs.Remits

/-!
# Cancelled builds

A cancel token is a flag that stays set. What it is worth to a build rests on two checks in
different places: a command with a triggered token is not started, and every stage begins with a
look at the token. The flag may be set between any two requests, and the workers of a build race for
theirs, so the laws are about the states in which requests are asked: from the first state on in
which the flag is set no tool starts and no stage is passed (`cancelled_build_stops`).
-/
namespace Bytelink

variable {σ α β ε : Type} {host : Host σ} {token : Token} {isSet : σ → Prop}

/-- The token is a flag that stays set once it is set. Its check sees it, and a command that carries
it is refused in the same step in which it would be started. -/
structure Host.Heeds (host : Host σ) (token : Token) (isSet : σ → Prop) : Prop where
  stays : ∀ r s, isSet s → isSet (host.answer r s).2
  seen : ∀ s, isSet s → (host.answer (.isCancelled token) s).1 = true
  refuses : ∀ command s, command.cancel? = some token → isSet s →
    (host.answer (.launch command) s).1 = .error .cancelled

namespace Plan

theorem asked_bind (p : Plan α) (f : α → Plan β) (s : σ) :
    (p >>= f).asked host s =
      p.asked host s ++ (f (p.run host s).1).asked host (p.run host s).2 := by
  induction p generalizing s with
  | done a => rfl
  | ask r next ih => exact congrArg ((r, s) :: ·) (ih _ _)

end Plan

variable {s : σ}

theorem run_bind_ok {p : ExceptT ε Plan α} {f : α → ExceptT ε Plan β} {a : α}
    (h : (p.run.run host s).1 = .ok a) :
    ((p >>= f).run.run host s).1 = ((f a).run.run host (p.run.run host s).2).1 ∧
      (p >>= f).run.asked host s =
        p.run.asked host s ++ (f a).run.asked host (p.run.run host s).2 := by
  rw [ExceptT.run_bind]
  constructor
  · refine (congrArg Prod.fst (Plan.run_bind host p.run _ s)).trans ?_
    rw [h]
  · rw [Plan.asked_bind, h]

theorem run_bind_error {p : ExceptT ε Plan α} {f : α → ExceptT ε Plan β} {e : ε}
    (h : (p.run.run host s).1 = .error e) :
    ((p >>= f).run.run host s).1 = .error e ∧
      (p >>= f).run.asked host s = p.run.asked host s := by
  rw [ExceptT.run_bind]
  constructor
  · refine (congrArg Prod.fst (Plan.run_bind host p.run _ s)).trans ?_
    rw [h]
    rfl
  · rw [Plan.asked_bind, h]
    exact List.append_nil _

theorem run_lift (p : Plan α) (s : σ) :
    ((liftM p : ExceptT ε Plan α).run.run host s).1 = .ok (p.run host s).1 := by
  have hrun : (liftM p : ExceptT ε Plan α).run = p >>= fun a => pure (.ok a) := by
    rw [bind_pure_comp]
    rfl
  rw [hrun]
  exact congrArg Prod.fst (Plan.run_bind host p _ s)

theorem run_bind_eq_error {p : ExceptT ε Plan α} {f : α → ExceptT ε Plan β} {e : ε} :
    ((p >>= f).run.run host s).1 = .error e ↔
      (p.run.run host s).1 = .error e ∨ ∃ a, (p.run.run host s).1 = .ok a ∧
        ((f a).run.run host (p.run.run host s).2).1 = .error e := by
  cases hresult : (p.run.run host s).1 with
  | error e' =>
      rw [(run_bind_error hresult).1]
      simp
  | ok a =>
      rw [(run_bind_ok hresult).1]
      simp

namespace Host.Heeds

/-- The flag is still set when anything is asked later. -/
theorem asked (h : host.Heeds token isSet) {p : Plan α} (hs : isSet s) :
    (∀ a ∈ p.asked host s, isSet a.2) ∧ isSet (p.run host s).2 := by
  induction p generalizing s with
  | done a => exact ⟨fun a ha => (nomatch ha), hs⟩
  | ask r next ih =>
      obtain ⟨hasked, hend⟩ := ih (host.answer r s).1 (h.stays r s hs)
      refine ⟨fun a ha => ?_, hend⟩
      rcases List.mem_cons.mp ha with rfl | ha
      · exact hs
      · exact hasked a ha

theorem of_before (h : host.Heeds token isSet) {p : Plan α} {before after : List (Request × σ)}
    {a : Request × σ} (hasked : p.asked host s = before ++ a :: after) {b : Request × σ}
    (hb : b ∈ before) (hset : isSet b.2) : isSet a.2 := by
  induction p generalizing s before with
  | done value => simp [Plan.asked] at hasked
  | ask r next ih =>
      cases before with
      | nil => cases hb
      | cons first before =>
          obtain ⟨rfl, hrest⟩ := List.cons.inj hasked
          rcases List.mem_cons.mp hb with rfl | hb
          · refine (h.asked (p := next (host.answer r s).1) (h.stays r s hset)).1 a ?_
            rw [hrest]
            exact List.mem_append_right _ List.mem_cons_self
          · exact ih _ hrest hb

end Host.Heeds

/-- The text of a report tells which stage is entered. -/
theorem entering_inj {previous stage previous' stage' : Stage}
    (h : Build.entering previous stage = Build.entering previous' stage') : stage = stage' := by
  have hlast : ∀ previous stage : Stage,
      (Build.entering previous stage).text.reverse.takeWhile (· != ' ') = stage.text.reverse := by
    intro previous stage
    cases previous <;> cases stage <;> decide
  have htext : stage.text.reverse = stage'.text.reverse := by
    rw [← hlast previous stage, h, hlast]
  revert htext
  cases stage <;> cases stage' <;> decide

section

variable {c : Config} {previous stage : Stage} {part : Part α} {starts : Command → Prop}

variable (stage) in
theorem run_within_ok {a : α} (h : (part.run.run host s).1 = .ok a) :
    ((Build.within stage part).run.run host s) = (.ok a, (part.run.run host s).2) ∧
      (Build.within stage part).run.asked host s = part.run.asked host s := by
  constructor
  · refine (Plan.run_bind host part.run _ s).trans ?_
    rw [h]
    rfl
  · refine (Plan.asked_bind part.run _ s).trans ?_
    rw [h]
    exact List.append_nil _

variable (stage) in
theorem run_within_error {cause : Cause} (h : (part.run.run host s).1 = .error cause) :
    ((Build.within stage part).run.run host s).1 = .error ⟨stage, cause⟩ ∧
      ∃ record, ¬ record.Enters ∧ (Build.within stage part).run.asked host s =
        part.run.asked host s ++ [(.report record, (part.run.run host s).2)] := by
  constructor
  · refine (congrArg Prod.fst (Plan.run_bind host part.run _ s)).trans ?_
    rw [h]
    rfl
  · refine ⟨_, Setting.not_enters_failed stage cause.message, ?_⟩
    refine (Plan.asked_bind part.run _ s).trans ?_
    rw [h]
    rfl

theorem run_within_eq_error {e : BuildError} :
    ((Build.within stage part).run.run host s).1 = .error e ↔
      (part.run.run host s).1 = .error e.cause ∧ e.stage = stage := by
  obtain ⟨stage', cause'⟩ := e
  cases hresult : (part.run.run host s).1 with
  | error cause =>
      rw [(run_within_error stage hresult).1]
      simp [and_comm, eq_comm]
  | ok a =>
      rw [(run_within_ok stage hresult).1]
      simp

variable (previous stage part) in
/-- A stage begins with its report and a look at the token, and goes on only if it is not set. -/
theorem run_enter (htoken : c.cancel? = some token) :
    (Build.enter c previous stage >>= fun _ => part).run =
      .ask (.report (Build.entering previous stage)) fun _ => .ask (.isCancelled token)
        fun cancelled : Bool => if cancelled then pure (.error .cancelled) else part.run := by
  unfold Build.enter
  rw [htoken]
  refine congrArg (Plan.ask _) (funext fun _ => congrArg (Plan.ask _) (funext fun answer => ?_))
  cases answer <;> rfl

variable (previous stage part) in
/-- A stage whose look at the token finds it set comes to nothing. -/
theorem run_enter_cancelled (htoken : c.cancel? = some token) {s t : σ}
    (ht : t = (host.answer (.report (Build.entering previous stage)) s).2)
    (hanswer : (host.answer (.isCancelled token) t).1 = true) :
    ((Build.enter c previous stage >>= fun _ => part).run.run host s).1 = .error .cancelled ∧
      (Build.enter c previous stage >>= fun _ => part).run.asked host s =
        [(.report (Build.entering previous stage), s), (.isCancelled token, t)] := by
  subst ht
  rw [run_enter previous stage part htoken]
  simp only [Plan.run, Plan.asked]
  rw [hanswer]
  exact ⟨rfl, rfl⟩

variable (previous stage part) in
/-- A stage whose look at the token does not find it set is what follows. -/
theorem run_enter_passed (htoken : c.cancel? = some token) {s t : σ}
    (ht : t = (host.answer (.report (Build.entering previous stage)) s).2)
    (hanswer : (host.answer (.isCancelled token) t).1 = false) :
    (Build.enter c previous stage >>= fun _ => part).run.run host s =
        part.run.run host (host.answer (.isCancelled token) t).2 ∧
      (Build.enter c previous stage >>= fun _ => part).run.asked host s =
        (.report (Build.entering previous stage), s) :: (.isCancelled token, t) ::
          part.run.asked host (host.answer (.isCancelled token) t).2 := by
  subst ht
  rw [run_enter previous stage part htoken]
  simp only [Plan.run, Plan.asked]
  rw [hanswer]
  exact ⟨rfl, rfl⟩

/-- A plan that fails as soon as it enters a stage while the flag is set, and then does nothing but
report it. -/
def ChecksStages (host : Host σ) (token : Token) (isSet : σ → Prop)
    (p : ExceptT BuildError Plan α) : Prop :=
  ∀ s before previous stage u after, stage ≠ .done →
    p.run.asked host s = before ++ (.report (Build.entering previous stage), u) :: after →
    ∃ t rest, after = (.isCancelled token, t) :: rest ∧
      (isSet t → (p.run.run host s).1 = .error ⟨stage, .cancelled⟩ ∧
        ∀ a ∈ rest, a.1.isReport)

theorem ChecksStages.bind {p : ExceptT BuildError Plan α} {f : α → ExceptT BuildError Plan β}
    (hp : ChecksStages host token isSet p) (hf : ∀ a, ChecksStages host token isSet (f a)) :
    ChecksStages host token isSet (p >>= f) := by
  intro s before previous stage u after hstage hasked
  cases hresult : (p.run.run host s).1 with
  | error e =>
      obtain ⟨hrun, hsame⟩ := run_bind_error (f := f) hresult
      rw [hsame] at hasked
      obtain ⟨t, rest, hafter, hset⟩ := hp s before previous stage u after hstage hasked
      refine ⟨t, rest, hafter, fun ht => ⟨?_, (hset ht).2⟩⟩
      rw [hrun, Except.error.inj (hresult.symm.trans (hset ht).1)]
  | ok a =>
      obtain ⟨hrun, hsame⟩ := run_bind_ok (f := f) hresult
      rw [hsame] at hasked
      rw [hrun]
      rcases append_eq_append_cons hasked with ⟨rest, hfirst, rfl⟩ | ⟨middle, rfl, hlater⟩
      · obtain ⟨t, rest, rfl, hset⟩ := hp s before previous stage u rest hstage hfirst
        refine ⟨t, _, rfl, fun ht => ?_⟩
        rw [hresult] at hset
        cases (hset ht).1
      · exact hf a _ middle previous stage u after hstage hlater

theorem checksStages_of_onlyAsks {p : ExceptT BuildError Plan α}
    (h : OnlyAsks (Request.InRemit starts) p) : ChecksStages host token isSet p := by
  intro s before previous stage u after hstage hasked
  have hremit := Plan.OnlyAsks.asked h host s (.report (Build.entering previous stage), u)
    (by simp [hasked])
  exact absurd ⟨previous, stage, hstage, rfl⟩ hremit

variable (previous stage) in
/-- What is asked in a stage, and what comes of it where the flag is set. -/
theorem Host.Heeds.run_stage (hhost : host.Heeds token isSet) (htoken : c.cancel? = some token)
    (h : OnlyAsks (Request.InRemit starts) part) (s : σ) :
    ∃ rest, (Build.within stage (Build.enter c previous stage >>= fun _ => part)).run.asked host s =
        (.report (Build.entering previous stage), s) ::
          (.isCancelled token, (host.answer (.report (Build.entering previous stage)) s).2) ::
            rest ∧
      (∀ a ∈ rest, Request.InRemit starts a.1) ∧
      (isSet (host.answer (.report (Build.entering previous stage)) s).2 →
        ((Build.within stage (Build.enter c previous stage >>= fun _ => part)).run.run host s).1 =
          .error ⟨stage, .cancelled⟩ ∧ ∀ a ∈ rest, a.1.isReport) := by
  generalize hlooks : (host.answer (.report (Build.entering previous stage)) s).2 = t
  cases hanswer : (host.answer (.isCancelled token) t).1 with
  | true =>
      obtain ⟨hrun, hasked⟩ := run_enter_cancelled previous stage part htoken hlooks.symm hanswer
      obtain ⟨hresult, record, hrecord, hwithin⟩ := run_within_error stage hrun
      rw [hasked] at hwithin
      refine ⟨_, hwithin, ?_, fun _ => ⟨hresult, ?_⟩⟩
      · intro a ha
        rw [List.mem_singleton.mp ha]
        exact hrecord
      · intro a ha
        rw [List.mem_singleton.mp ha]
        rfl
  | false =>
      have hunset : ¬ isSet t := by
        intro hset
        rw [hhost.seen t hset] at hanswer
        cases hanswer
      obtain ⟨hrun, hasked⟩ := run_enter_passed previous stage part htoken hlooks.symm hanswer
      have hpart := Plan.OnlyAsks.asked h host (host.answer (.isCancelled token) t).2
      cases hresult : (part.run.run host (host.answer (.isCancelled token) t).2).1 with
      | ok a =>
          obtain ⟨-, hwithin⟩ := run_within_ok stage
            ((congrArg Prod.fst hrun).trans hresult)
          rw [hasked] at hwithin
          exact ⟨_, hwithin, hpart, fun hset => absurd hset hunset⟩
      | error cause =>
          obtain ⟨-, record, hrecord, hwithin⟩ := run_within_error stage
            ((congrArg Prod.fst hrun).trans hresult)
          rw [hasked] at hwithin
          refine ⟨_, hwithin, ?_, fun hset => absurd hset hunset⟩
          intro a ha
          rcases List.mem_append.mp ha with ha | ha
          · exact hpart a ha
          · rw [List.mem_singleton.mp ha]
            exact hrecord

/-- A stage fails as soon as it is entered while the flag is set. -/
theorem Host.Heeds.checksStages (hhost : host.Heeds token isSet) (htoken : c.cancel? = some token)
    (h : OnlyAsks (Request.InRemit starts) part) :
    ChecksStages host token isSet
      (Build.within stage (Build.enter c previous stage >>= fun _ => part)) := by
  intro s before previous' stage' u after hstage hasked
  obtain ⟨rest, hwithin, hremit, hset⟩ :=
    hhost.run_stage previous stage htoken h s
  rw [hwithin] at hasked
  rcases before with _ | ⟨first, _ | ⟨second, before⟩⟩
  · obtain ⟨hentering, rfl⟩ := List.cons.inj hasked
    have hrecord := Request.report.inj (congrArg Prod.fst hentering)
    rw [← entering_inj hrecord]
    exact ⟨_, rest, rfl, hset⟩
  · -- A look at the token is no report.
    cases (List.cons.inj (List.cons.inj hasked).2).1
  · have hmem : (Request.report (Build.entering previous' stage'), u) ∈ rest := by
      rw [(List.cons.inj (List.cons.inj hasked).2).2]
      exact List.mem_append_right _ List.mem_cons_self
    exact absurd ⟨previous', stage', hstage, rfl⟩ (hremit _ hmem)

end

section

variable {starts : Command → Prop} {c : Config}

/-- Where the plan succeeds, the last tool that it has tried to start is the assembler, and the
assembler has started. -/
def StartsAssembler (host : Host σ) (p : ExceptT ε Plan α) : Prop :=
  ∀ s a, (p.run.run host s).1 = .ok a → ∃ front command t run back,
    p.run.asked host s = front ++ (.launch command, t) :: back ∧
    command.HasFlag ['-', 'd'] ∧ (host.answer (.launch command) t).1 = .ok run ∧
    ∀ other u, (.launch other, u) ∉ back

theorem StartsAssembler.after {p : ExceptT ε Plan α} {f : α → ExceptT ε Plan β} {Q : α → Prop}
    (hp : ∀ s a, (p.run.run host s).1 = .ok a → Q a)
    (hf : ∀ a, Q a → StartsAssembler host (f a)) : StartsAssembler host (p >>= f) := by
  intro s b hb
  cases hresult : (p.run.run host s).1 with
  | error e =>
      obtain ⟨hrun, -⟩ := run_bind_error (f := f) hresult
      rw [hrun] at hb
      cases hb
  | ok a =>
      obtain ⟨hrun, hasked⟩ := run_bind_ok (f := f) hresult
      rw [hrun] at hb
      obtain ⟨front, command, t, run, back, hlater, hflag, hstarted, hlast⟩ :=
        hf a (hp s a hresult) _ b hb
      refine ⟨p.run.asked host s ++ front, command, t, run, back, ?_, hflag, hstarted, hlast⟩
      rw [hasked, hlater, List.append_assoc]

theorem StartsAssembler.before {p : ExceptT ε Plan α} {f : α → ExceptT ε Plan β}
    (hp : StartsAssembler host p) (hf : ∀ a, OnlyAsks (Request.InRemit fun _ => False) (f a)) :
    StartsAssembler host (p >>= f) := by
  intro s b hb
  cases hresult : (p.run.run host s).1 with
  | error e =>
      obtain ⟨hrun, -⟩ := run_bind_error (f := f) hresult
      rw [hrun] at hb
      cases hb
  | ok a =>
      obtain ⟨-, hasked⟩ := run_bind_ok (f := f) hresult
      obtain ⟨front, command, t, run, back, hfirst, hflag, hstarted, hlast⟩ := hp s a hresult
      refine ⟨front, command, t, run, back ++ (f a).run.asked host (p.run.run host s).2, ?_, hflag,
        hstarted, ?_⟩
      · rw [hasked, hfirst, List.append_assoc, List.cons_append]
      · intro other u hmem
        rcases List.mem_append.mp hmem with hmem | hmem
        · exact hlast other u hmem
        · exact Plan.OnlyAsks.asked (hf a) host _ _ hmem

theorem StartsAssembler.within {stage : Stage} {part : Part α} (h : StartsAssembler host part) :
    StartsAssembler host (Build.within stage part) := by
  intro s a ha
  cases hresult : (part.run.run host s).1 with
  | error cause =>
      obtain ⟨hrun, -⟩ := run_within_error stage hresult
      rw [hrun] at ha
      cases ha
  | ok b =>
      obtain ⟨-, hasked⟩ := run_within_ok stage hresult
      rw [hasked]
      exact h s b hresult

/-- What is left of a tool run once it is known whether the program has started. -/
def Command.rest (command : Command) : Except Refusal Run → Plan (Except ToolError Text)
  | .error .cancelled => pure (.error (.cancelled command.line []))
  | .error (.impossible reason) => do
      Plan.report .debug .tool ("running " ++ command.line)
      pure (.error (.notStarted command.line reason))
  | .ok run => do
      Plan.report .debug .tool ("running " ++ command.line)
      command.finish run

theorem Command.run_eq (command : Command) :
    command.run = .ask (.launch command) command.rest := by
  refine congrArg (Plan.ask _) (funext fun reply => ?_)
  rcases reply with (_ | reason) | run <;> rfl

theorem Command.onlyAsks_rest (command : Command) (reply : Except Refusal Run) :
    (command.rest reply).OnlyAsks (Request.InRemit fun _ => False) := by
  have hreport : (Plan.report .debug .tool ("running " ++ command.line)).OnlyAsks
      (Request.InRemit fun _ => False) :=
    Plan.onlyAsks_request (inRemit_reporter (by decide) _)
  rcases reply with (_ | reason) | run
  · exact Plan.onlyAsks_pure _
  · exact Plan.OnlyAsks.bind hreport fun _ => Plan.onlyAsks_pure _
  · exact Plan.OnlyAsks.bind hreport fun _ => onlyAsks_finish command run

theorem Command.rest_ok {command : Command} {reply : Except Refusal Run} {output : Text} {s : σ}
    (h : ((command.rest reply).run host s).1 = .ok output) : ∃ run, reply = .ok run := by
  rcases reply with (_ | reason) | run
  · cases h
  · cases h
  · exact ⟨run, rfl⟩

theorem startsAssembler_runTool {command : Command} (hflag : command.HasFlag ['-', 'd']) :
    StartsAssembler host (Build.runTool command) := by
  intro s a ha
  have hform : (Build.runTool command).run =
      (fun output : Except ToolError Text => (output.mapError Cause.tool).map fun _ => ()) <$>
        Plan.ask (.launch command) command.rest := by
    rw [← command.run_eq, map_eq_pure_bind]
    refine (ExceptT.run_bind_lift command.run _).trans ?_
    refine congrArg (command.run >>= ·) (funext fun output => ?_)
    cases output <;> rfl
  rw [hform, map_eq_pure_bind] at ha ⊢
  have hrun := congrArg Prod.fst (Plan.run_bind host (.ask (.launch command) command.rest)
    (fun output => pure ((output.mapError Cause.tool).map fun _ => ())) s)
  cases houtput : ((Plan.ask (.launch command) command.rest).run host s).1 with
  | error e =>
      rw [houtput] at hrun
      cases hrun.symm.trans ha
  | ok output =>
      obtain ⟨run, hstarted⟩ := Command.rest_ok houtput
      rw [Plan.asked_bind]
      refine ⟨[], command, s, run, _, rfl, hflag, hstarted, fun other u hmem => ?_⟩
      have hmem : (Request.launch other, u) ∈ (command.rest
          (host.answer (.launch command) s).1).asked host (host.answer (.launch command) s).2 := by
        simpa [Plan.asked, pure] using hmem
      exact (command.onlyAsks_rest _).asked host _ _ hmem

theorem startsAssembler_assemble (host : Host σ) (c : Config) (ground : Build.Ground)
    (linked : Path) : StartsAssembler host (Build.assemble c ground linked) := by
  unfold Build.assemble
  have hcommand : ∀ s command, ((liftM (c.command c.assembler
      ["-d", ground.outDir.text, linked.text]) : Part Command).run.run host s).1 = .ok command →
      command.HasFlag ['-', 'd'] := by
    intro s command hok
    have hhost : host.Follows (fun _ => ()) fun _ _ _ _ => True := fun _ _ => trivial
    have hensures : (liftM (c.command c.assembler ["-d", ground.outDir.text, linked.text]) :
        Part Command).run.Ensures (fun _ _ _ _ => True)
        (fun r _ => Request.InRemit (fun _ => True) r) (fun result _ => ∀ command,
          result = .ok command →
            command.arguments = (["-d", ground.outDir.text, linked.text] : List Text)) () :=
      succeeds_lift.mpr ((ensures_command_token c.assembler _).mono fun _ _ h => h.1)
    have harguments := (Plan.Ensures.of_follows hhost hensures).1 command hok
    exact Command.hasFlag_of_arguments harguments rfl
  refine StartsAssembler.after hcommand fun command hflag => ?_
  exact (startsAssembler_runTool hflag).before fun _ => onlyAsks_inspect _ _

end

section

variable {c : Config}

/-- What holds of every stage holds of the build, if it passes on to what is done in a row. -/
theorem stages_of_stage {P : ∀ {α : Type}, ExceptT BuildError Plan α → Prop} (c : Config)
    (hpure : ∀ {α : Type} (a : α), P (pure a : ExceptT BuildError Plan α))
    (hbind : ∀ {α β : Type} {p : ExceptT BuildError Plan α} {f : α → ExceptT BuildError Plan β},
      P p → (∀ a, P (f a)) → P (p >>= f))
    (hidle : P (Build.within .idle (Build.prepare c)))
    (hstage : ∀ {α : Type} (previous stage : Stage) (part : Part α),
      OnlyAsks (Request.InRemit fun command => command.cancel? = c.cancel?) part →
      P (Build.within stage (Build.enter c previous stage >>= fun _ => part))) :
    P (Build.stages c) := by
  have hcarries : ∀ command : Command, command.cancel? = c.cancel? → command.cancel? = c.cancel? :=
    fun _ h => h
  unfold Build.stages
  refine hbind hidle fun ground => ?_
  refine hbind (hstage _ _ _ (onlyAsks_all hcarries ground.sources)) fun inputs => ?_
  refine hbind (hstage _ _ _ (onlyAsks_compileAll hcarries _)) fun fragments => ?_
  refine hbind (hstage _ _ _ (onlyAsks_aggregate c fragments)) fun made => ?_
  refine hbind (hstage _ _ _ (onlyAsks_linkAll c ground fragments made.1)) fun linked => ?_
  refine hbind (hstage _ _ _ (onlyAsks_assemble hcarries ground linked)) fun _ => ?_
  exact hpure _

/-- A build tries to start only commands that carry its token. -/
theorem build_onlyAsks (c : Config) : (build c).OnlyAsks fun r =>
    ∀ command, r = .launch command → command.cancel? = c.cancel? := by
  have hremit : ∀ r, Request.InRemit (fun command => command.cancel? = c.cancel?) r →
      ∀ command, r = .launch command → command.cancel? = c.cancel? := by
    rintro _ h command rfl
    exact h
  refine stages_of_stage (P := OnlyAsks fun r =>
    ∀ command, r = .launch command → command.cancel? = c.cancel?) c (fun _ => onlyAsks_pure _)
    OnlyAsks.bind ?_ ?_
  · exact ((onlyAsks_prepare _ c).weaken hremit).within fun _ _ _ h => (nomatch h)
  · intro α previous stage part hpart
    refine OnlyAsks.within (OnlyAsks.bind ?_ fun _ => hpart.weaken hremit)
      fun _ _ _ h => (nomatch h)
    unfold Build.enter
    refine OnlyAsks.bind (onlyAsks_lift (Plan.onlyAsks_request fun _ h => (nomatch h))) fun _ => ?_
    cases c.cancel? with
    | none => exact onlyAsks_pure _
    | some token =>
        refine OnlyAsks.bind (onlyAsks_lift (Plan.onlyAsks_request fun _ h => (nomatch h))) ?_
        intro answer
        cases answer with
        | false => exact onlyAsks_pure _
        | true => exact onlyAsks_throw _

theorem Host.Heeds.checksStages_stages {isSet : σ → Prop} (hhost : host.Heeds token isSet)
    (htoken : c.cancel? = some token) : ChecksStages host token isSet (Build.stages c) := by
  refine stages_of_stage (P := ChecksStages host token isSet) c ?_ ChecksStages.bind ?_ ?_
  · exact fun a => checksStages_of_onlyAsks (onlyAsks_pure (G := Request.InRemit fun _ => True) a)
  · exact checksStages_of_onlyAsks ((onlyAsks_prepare (fun _ => True) c).within fun _ h => h)
  · exact fun previous stage part hpart => hhost.checksStages htoken hpart

theorem startsAssembler_stages (host : Host σ) (c : Config) :
    StartsAssembler host (Build.stages c) := by
  have hlater : ∀ {ε α β : Type} {p : ExceptT ε Plan α} {f : α → ExceptT ε Plan β},
      (∀ a, StartsAssembler host (f a)) → StartsAssembler host (p >>= f) :=
    fun hf => StartsAssembler.after (Q := fun _ => True) (fun _ _ _ => trivial) fun a _ => hf a
  unfold Build.stages
  refine hlater fun ground => hlater fun inputs => hlater fun fragments => hlater fun made => ?_
  refine hlater fun linked => StartsAssembler.before (StartsAssembler.within ?_) ?_
  · exact hlater fun _ => startsAssembler_assemble host c ground linked
  · exact fun _ => onlyAsks_pure _

/-- Where the flag is set from the beginning, no tool runs and the build does not get beyond the
entry of its first stage. -/
theorem Host.Heeds.run_of_set {isSet : σ → Prop} (hhost : host.Heeds token isSet)
    (htoken : c.cancel? = some token) (hset : isSet s) :
    (∀ command t, (.launch command, t) ∉ (build c).asked host s) ∧
    ∃ e, ((build c).run host s).1 = .error e ∧
      (e.stage = .idle ∨ e = ⟨.preprocessing, .cancelled⟩) := by
  have hremit : OnlyAsks (Request.InRemit fun _ => False)
      (Build.within .idle (Build.prepare c)) := (onlyAsks_prepare _ c).within fun _ h => h
  have hidle : ∀ command t, (Request.launch command, t) ∉
      (Build.within .idle (Build.prepare c)).run.asked host s :=
    fun command t hmem => Plan.OnlyAsks.asked hremit host s _ hmem
  obtain ⟨rest, hstages⟩ : ∃ rest : Build.Ground → List Text → ExceptT BuildError Plan Artifact,
      Build.stages c = (Build.within .idle (Build.prepare c) >>= fun ground =>
        Build.within .preprocessing (Build.enter c .idle .preprocessing >>= fun _ =>
          Preprocess.all c ground.sources) >>= rest ground) := ⟨_, rfl⟩
  rw [build, hstages]
  cases hresult : (Build.prepare c).run.run host s with
  | mk result s₁ =>
      cases result with
      | error cause =>
          obtain ⟨hfails, -⟩ := run_within_error .idle (congrArg Prod.fst hresult)
          obtain ⟨hrun, hasked⟩ := run_bind_error (f := fun ground =>
            Build.within .preprocessing (Build.enter c .idle .preprocessing >>= fun _ =>
              Preprocess.all c ground.sources) >>= rest ground) hfails
          rw [hasked]
          exact ⟨hidle, ⟨.idle, cause⟩, hrun, Or.inl rfl⟩
      | ok ground =>
          obtain ⟨hpasses, -⟩ := run_within_ok .idle (congrArg Prod.fst hresult)
          obtain ⟨hrun, hasked⟩ := run_bind_ok (f := fun ground =>
            Build.within .preprocessing (Build.enter c .idle .preprocessing >>= fun _ =>
              Preprocess.all c ground.sources) >>= rest ground) (congrArg Prod.fst hpasses)
          -- The flag is set when the first stage is entered, so the look at the token sees it.
          have hset₁ := (hhost.asked (p := (Build.within .idle (Build.prepare c)).run) hset).2
          obtain ⟨more, hstage, -, hcancelled⟩ := hhost.run_stage .idle .preprocessing
            htoken (onlyAsks_all (fun _ h => h) ground.sources)
            ((Build.within .idle (Build.prepare c)).run.run host s).2
          obtain ⟨hfails, hreports⟩ := hcancelled (hhost.stays _ _ hset₁)
          obtain ⟨hfailed, hnothing⟩ := run_bind_error (f := rest ground) hfails
          rw [hrun, hasked, hfailed, hnothing, hstage]
          refine ⟨fun command t hmem => ?_, _, rfl, Or.inr rfl⟩
          rcases List.mem_append.mp hmem with hmem | hmem
          · exact hidle command t hmem
          · rcases List.mem_cons.mp hmem with he | hmem
            · cases he
            · rcases List.mem_cons.mp hmem with he | hmem
              · cases he
              · cases hreports _ hmem

/-- Whatever workers there are and in whatever order they move: from the first state on in which the
flag is set, no tool that the build tries to start is started, and the stage that is entered next
fails and is the last thing that happens. A build that succeeds has started the assembler, as its
last tool, before the flag was set. Where the flag is set from the beginning, nothing is even tried,
and the build fails before it enters a stage or with its first. -/
theorem cancelled_build_stops {isSet : σ → Prop} (hhost : host.Heeds token isSet)
    (htoken : c.cancel? = some token) (s : σ) :
    (∀ command t, (.launch command, t) ∈ (build c).asked host s → isSet t →
      (host.answer (.launch command) t).1 = .error .cancelled) ∧
    (∀ before previous stage u after, stage ≠ .done →
      (build c).asked host s = before ++ (.report (Build.entering previous stage), u) :: after →
      ∃ t rest, after = (.isCancelled token, t) :: rest ∧
        (isSet t → ((build c).run host s).1 = .error ⟨stage, .cancelled⟩ ∧
          ∀ a ∈ rest, a.1.isReport)) ∧
    (∀ artifact, ((build c).run host s).1 = .ok artifact → ∃ front command t run back,
      (build c).asked host s = front ++ (.launch command, t) :: back ∧
      command.HasFlag ['-', 'd'] ∧ (host.answer (.launch command) t).1 = .ok run ∧
      ¬ isSet t ∧ (∀ a ∈ front, ¬ isSet a.2) ∧ ∀ other u, (.launch other, u) ∉ back) ∧
    (isSet s → (∀ command t, (.launch command, t) ∉ (build c).asked host s) ∧
      ∃ e, ((build c).run host s).1 = .error e ∧
        (e.stage = .idle ∨ e = ⟨.preprocessing, .cancelled⟩)) := by
  have hrefused : ∀ command t, (.launch command, t) ∈ (build c).asked host s → isSet t →
      (host.answer (.launch command) t).1 = .error .cancelled := by
    intro command t hmem ht
    have hcarries := (build_onlyAsks c).asked host s _ hmem command rfl
    exact hhost.refuses command t (hcarries.trans htoken) ht
  refine ⟨hrefused, ?_, ?_, hhost.run_of_set htoken⟩
  · exact hhost.checksStages_stages htoken s
  · intro artifact hok
    obtain ⟨front, command, t, run, back, hasked, hflag, hstarted, hlast⟩ :=
      startsAssembler_stages host c s artifact hok
    have hunset : ¬ isSet t := by
      intro ht
      have hmem : (Request.launch command, t) ∈ (build c).asked host s := by
        rw [build, hasked]
        exact List.mem_append_right _ List.mem_cons_self
      cases hstarted.symm.trans (hrefused command t hmem ht)
    refine ⟨front, command, t, run, back, hasked, hflag, hstarted, hunset, ?_, hlast⟩
    exact fun a ha hset => hunset (hhost.of_before hasked ha hset)

end

/-- The same surroundings with a token. Its flag is set by certain requests. -/
def Host.withToken (host : Host σ) (token : Token) (sets : Request → Bool) : Host (σ × Bool) where
  answer
    | .isCancelled other, (s, flag) =>
        (flag && other == token, (s, flag || sets (.isCancelled other)))
    | .launch command, (s, flag) =>
        if flag && command.cancel? == some token then (.error .cancelled, (s, flag))
        else ((host.answer (.launch command) s).1,
          ((host.answer (.launch command) s).2, flag || sets (.launch command)))
    | r, (s, flag) => ((host.answer r s).1, ((host.answer r s).2, flag || sets r))

theorem Host.withToken_heeds (host : Host σ) (token : Token) (sets : Request → Bool) :
    (host.withToken token sets).Heeds token fun s => s.2 = true := by
  constructor
  · rintro r ⟨s, flag⟩ rfl
    cases r with
    | launch command =>
        unfold withToken
        dsimp only
        split <;> rfl
    | _ => rfl
  · rintro ⟨s, flag⟩ rfl
    exact beq_self_eq_true token
  · rintro command ⟨s, flag⟩ hcommand rfl
    have hrefused : (true && command.cancel? == some token) = true := by simp [hcommand]
    exact congrArg Prod.fst (if_pos hrefused)

/-- The token is triggered when the compiler is started on the first of two units: the build does
not start it on the second. -/
theorem two_units_cancelled :
    let token : Token := ⟨0⟩
    let c : Config := { twoUnitsConfig with cancel? := some token }
    let host := twoUnitsHost.withToken token fun
      | .launch command => command.arguments.head? == some "-O8"
      | _ => false
    ((build c).run host (twoUnits, false)).1 =
        .error ⟨.compiling, .tool (.cancelled "cc1 -O8 -fno-function-cse b.i -o b.j" [])⟩ ∧
      ∀ command t, (.launch command, t) ∈ (build c).asked host (twoUnits, false) → t.2 = true →
        (host.answer (.launch command) t).1 = .error .cancelled := by
  intro token c host
  refine ⟨?_, (cancelled_build_stops (twoUnitsHost.withToken_heeds token _) rfl
    (twoUnits, false)).1⟩
  simp only [build, Build.stages, Build.prepare, Build.survey, Sources.discover,
    Text.mergeSort_eq_insertionSort]
  decide +kernel

end Bytelink
