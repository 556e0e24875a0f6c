import Bytelink.Proofs.FailFast
import Bytelink.Proofs.Merges
import Bytelink.Proofs.Turns

/-!
# Workers do what one would do

Preprocessing with several workers is preprocessing with one, done in another order. A worker goes
through its chunk of the sources as one alone would: its moves, one after another, are the deeds of
one errand after another, up to the first that fails (`Moves.exists_handles`). The turns put the
deeds of the workers together in some order (`exists_shifts`), and nothing else is done.

What is gathered in the end is what the errands of all chunks come to in the order of the sources
(`InOrder`). A source that nobody came to stands behind one of its own chunk that failed, so it does
not count what would have become of it. Hence the result is read off any outcomes of all sources
that agree with what was done, and the same replies lead one worker alone to the same result
(`all_in_source_order`).
-/
namespace Bytelink

/-- The choice of the worker that moves next. -/
def Exchange.isTurn (x : Exchange) : Bool :=
  match x.request with
  | .turn _ => true
  | _ => false

/-- What is done about one source. -/
structure Errand where
  source : Path
  deeds : List Exchange

namespace Errand

def Ends (c : Config) (errand : Errand) (outcome : Except Cause Text) : Prop :=
  (Preprocess.one c errand.source).run.Deeds errand.deeds outcome

/-- The errand was left undone, or is one preprocessing of its source. -/
def Once (c : Config) (errand : Errand) : Prop :=
  errand.deeds = [] ∨ ∃ outcome, errand.Ends c outcome

end Errand

namespace Preprocess

variable {c : Config} {source : Path} {command : Command} {run : Run} {todo : List Path}
variable {outputs : List Text} {log more : List Exchange} {worker moved finished : Worker}

theorem deeds_one {outcome : Except Cause Text} : (one c source).run.Deeds log outcome ↔
    ∃ command looked ran output, (c.preprocessCommand source).Deeds looked command ∧
      command.run.Deeds ran output ∧ log = looked ++ ran ∧
      outcome = (output.mapError .tool).map fun _ => intermediateName source ['i'] := by
  unfold one
  rw [deeds_run_report_bind, deeds_run_lift_bind]
  constructor
  · rintro ⟨command, looked, after, rfl, hcommand, hafter⟩
    obtain ⟨output, ran, rest, rfl, hran, hrest⟩ := deeds_run_lift_bind.mp hafter
    refine ⟨command, looked, ran, output, hcommand, hran, ?_⟩
    cases output with
    | ok text =>
        obtain ⟨rfl, rfl⟩ := deeds_run_pure.mp hrest
        exact ⟨by rw [List.append_nil], rfl⟩
    | error e =>
        obtain ⟨rfl, rfl⟩ := deeds_run_throw.mp hrest
        exact ⟨by rw [List.append_nil], rfl⟩
  · rintro ⟨command, looked, ran, output, hcommand, hran, rfl, rfl⟩
    refine ⟨command, looked, ran, rfl, hcommand, ?_⟩
    refine deeds_run_lift_bind.mpr ⟨output, ran, [], (List.append_nil ran).symm, hran, ?_⟩
    cases output with
    | ok text => exact deeds_run_pure.mpr ⟨rfl, rfl⟩
    | error e => exact deeds_run_throw.mpr ⟨rfl, rfl⟩

theorem isTurn_of_preprocessCommand (h : (c.preprocessCommand source).Deeds log command) :
    ∀ x ∈ log, x.isTurn = false := by
  obtain ⟨resolved, -, hlooked⟩ := deeds_command h
  split at hlooked
  · obtain ⟨found, hlocated, -⟩ := hlooked
    unfold Located at hlocated
    split at hlocated
    · simp [hlocated.1]
    · obtain ⟨directory, rfl, -⟩ := hlocated
      simp [Exchange.isTurn]
  · simp [hlooked.1]

variable {errand : Errand} {outcome : Except Cause Text}

theorem deeds_ne_nil_of_ends (h : errand.Ends c outcome) : errand.deeds ≠ [] := by
  obtain ⟨command, looked, ran, output, -, hran, hlog, -⟩ := deeds_one.mp h
  rw [hlog]
  rcases deeds_run_iff.mp hran with ⟨e, rfl, -⟩ | ⟨run, ending, rfl, -⟩ <;> simp

theorem isTurn_of_ends (h : errand.Ends c outcome) : ∀ x ∈ errand.deeds, x.isTurn = false := by
  obtain ⟨command, looked, ran, output, hcommand, hran, hlog, -⟩ := deeds_one.mp h
  have hlaunched : ∀ x ∈ ran, x.isTurn = false := by
    rcases deeds_run_iff.mp hran with ⟨e, rfl, -⟩ | ⟨run, ending, rfl, -⟩ <;>
      simp [Exchange.isTurn]
  intro x hx
  rw [hlog, List.mem_append] at hx
  exact hx.elim (isTurn_of_preprocessCommand hcommand x) (hlaunched x)

theorem deeds_move_ready (h : ((Worker.ready (source :: todo) outputs).move c).Deeds log moved) :
    ∃ command looked reply, (c.preprocessCommand source).Deeds looked command ∧
      log = looked ++ [⟨.launch command, reply⟩] ∧
      moved = match reply with
        | .ok run => .waiting source command run todo outputs
        | .error e => .stopped (.tool (command.refusal e)) := by
  obtain ⟨_, reported, rest, rfl, hreport, hrest⟩ := Plan.deeds_bind.mp h
  obtain rfl := Plan.deeds_report.mp hreport
  obtain ⟨command, looked, rest, rfl, hcommand, hrest⟩ := Plan.deeds_bind.mp hrest
  obtain ⟨started, launched, rest, rfl, hstart, hrest⟩ := Plan.deeds_bind.mp hrest
  obtain ⟨reply, rfl, rfl⟩ := deeds_start.mp hstart
  refine ⟨command, looked, reply, hcommand, ?_⟩
  cases reply with
  | error e =>
      obtain ⟨rfl, rfl⟩ := Plan.deeds_pure.mp hrest
      exact ⟨rfl, rfl⟩
  | ok run =>
      obtain ⟨rfl, rfl⟩ := Plan.deeds_pure.mp hrest
      exact ⟨rfl, rfl⟩

theorem deeds_move_waiting
    (h : ((Worker.waiting source command run todo outputs).move c).Deeds log moved) :
    ∃ ending, log = [⟨.await run, ending⟩] ∧
      moved = match command.outcome ending with
        | .ok _ => .ready todo (intermediateName source ['i'] :: outputs)
        | .error e => .stopped (.tool e) := by
  obtain ⟨output, awaited, rest, rfl, hfinish, hrest⟩ := Plan.deeds_bind.mp h
  obtain ⟨ending, rfl, rfl⟩ := deeds_finish.mp hfinish
  refine ⟨ending, ?_⟩
  cases houtcome : command.outcome ending with
  | ok text =>
      rw [houtcome] at hrest
      obtain ⟨rfl, rfl⟩ := Plan.deeds_pure.mp hrest
      exact ⟨rfl, rfl⟩
  | error e =>
      rw [houtcome] at hrest
      obtain ⟨rfl, rfl⟩ := Plan.deeds_pure.mp hrest
      exact ⟨rfl, rfl⟩

theorem deeds_move (hpending : worker.pending? ≠ none) (h : (worker.move c).Deeds log moved) :
    moved.movesLeft < worker.movesLeft ∧ ∀ x ∈ log, x.isTurn = false := by
  match worker with
  | .stopped _ | .ready [] _ => exact absurd rfl hpending
  | .ready (source :: todo) outputs =>
      obtain ⟨command, looked, reply, hcommand, rfl, rfl⟩ := deeds_move_ready h
      constructor
      · cases reply with
        | ok run =>
            simp only [Worker.movesLeft, List.length_cons]
            omega
        | error e => simp [Worker.movesLeft]
      · intro x hx
        rcases List.mem_append.mp hx with hx | hx
        · exact isTurn_of_preprocessCommand hcommand x hx
        · rw [List.mem_singleton.mp hx]
          rfl
  | .waiting source command run todo outputs =>
      obtain ⟨ending, rfl, rfl⟩ := deeds_move_waiting h
      constructor
      · cases command.outcome ending <;> simp [Worker.movesLeft]
      · simp [Exchange.isTurn]

/-- What some errands come to, one after another, up to the first that fails. -/
inductive InOrder (c : Config) : List Errand → Except Cause (List Text) → Prop
  | done : InOrder c [] (.ok [])
  | next {errand : Errand} {rest : List Errand} {output : Text}
      {result : Except Cause (List Text)} : errand.Ends c (.ok output) → InOrder c rest result →
      InOrder c (errand :: rest) (result.map (output :: ·))
  | stop {errand : Errand} {rest : List Errand} {cause : Cause} :
      errand.Ends c (.error cause) → InOrder c (errand :: rest) (.error cause)

/-- The errands are about these sources, make up this log and come to this result. -/
structure Handles (c : Config) (sources : List Path) (log : List Exchange)
    (result : Except Cause (List Text)) (errands : List Errand) : Prop where
  about : errands.map Errand.source = sources
  log : errands.flatMap Errand.deeds = log
  once : ∀ errand ∈ errands, errand.Once c
  inOrder : InOrder c errands result

variable {sources rest : List Path} {errands : List Errand} {result : Except Cause (List Text)}

theorem handles_nil : Handles c [] [] (.ok []) [] := ⟨rfl, rfl, by simp, .done⟩

theorem Handles.cons {output : Text} (h : Handles c rest more result errands)
    (hone : (one c source).run.Deeds log (.ok output)) :
    Handles c (source :: rest) (log ++ more) (result.map (output :: ·))
      (⟨source, log⟩ :: errands) where
  about := by simp [h.about]
  log := by simp [h.log]
  once := List.forall_mem_cons.mpr ⟨.inr ⟨_, hone⟩, h.once⟩
  inOrder := .next hone h.inOrder

/-- Where an errand fails, those behind it are left undone. -/
theorem handles_of_failed {cause : Cause} (hone : (one c source).run.Deeds log (.error cause))
    (rest : List Path) : Handles c (source :: rest) log (.error cause)
      (⟨source, log⟩ :: rest.map fun other => ⟨other, []⟩) where
  about := by simp [Function.comp_def]
  log := by simp [List.flatMap_map]
  once := by
    refine List.forall_mem_cons.mpr ⟨.inr ⟨_, hone⟩, fun errand herrand => ?_⟩
    obtain ⟨other, -, rfl⟩ := List.mem_map.mp herrand
    exact .inl rfl
  inOrder := .stop hone

theorem exists_handles_of_mapM (h : (sources.mapM (one c)).run.Deeds log result) :
    ∃ errands, Handles c sources log result errands := by
  induction sources generalizing log result with
  | nil =>
      rw [List.mapM_nil] at h
      obtain ⟨rfl, rfl⟩ := deeds_run_pure.mp h
      exact ⟨[], handles_nil⟩
  | cons source rest ih =>
      rw [List.mapM_cons] at h
      rcases deeds_run_bind.mp h with ⟨cause, hfailed, rfl⟩ | ⟨output, first, more, rfl, hone, h⟩
      · exact ⟨_, handles_of_failed hfailed rest⟩
      · rcases deeds_run_bind.mp h with ⟨cause, hfailed, rfl⟩ | ⟨_, _, last, rfl, hrest, hlast⟩
        · obtain ⟨errands, herrands⟩ := ih hfailed
          exact ⟨_, herrands.cons hone⟩
        · obtain ⟨rfl, rfl⟩ := deeds_run_pure.mp hlast
          obtain ⟨errands, herrands⟩ := ih hrest
          rw [List.append_nil]
          exact ⟨_, herrands.cons hone⟩

/-- Some moves of a worker, with their deeds. -/
inductive Moves (c : Config) : Worker → List Exchange → Worker → Prop
  | rest (worker : Worker) : Moves c worker [] worker
  | move {worker moved finished : Worker} {log more : List Exchange} :
      worker.pending? ≠ none → (worker.move c).Deeds log moved → Moves c moved more finished →
      Moves c worker (log ++ more) finished

theorem Moves.eq_of_pending? (h : Moves c worker log finished) (hpending : worker.pending? = none) :
    log = [] ∧ finished = worker := by
  cases h with
  | rest => exact ⟨rfl, rfl⟩
  | move hcan => exact absurd hpending hcan

/-- A worker that comes to its end goes through its first errand to the end of that. -/
theorem Moves.first_errand (h : Moves c (.ready (source :: todo) outputs) log finished)
    (hend : finished.pending? = none) :
    (∃ cause, (one c source).run.Deeds log (.error cause) ∧ finished = .stopped cause) ∨
      ∃ output first more, (one c source).run.Deeds first (.ok output) ∧ log = first ++ more ∧
        Moves c (.ready todo (output :: outputs)) more finished := by
  cases h with
  | rest => cases hend
  | move _ hmove h =>
      obtain ⟨command, looked, reply, hcommand, rfl, rfl⟩ := deeds_move_ready hmove
      cases reply with
      | error e =>
          obtain ⟨rfl, rfl⟩ := h.eq_of_pending? rfl
          have hrefused : command.run.Deeds [⟨.launch command, .error e⟩] _ :=
            deeds_run_iff.mpr (.inl ⟨e, rfl, rfl⟩)
          rw [List.append_nil]
          exact .inl ⟨_, deeds_one.mpr ⟨command, looked, _, _, hcommand, hrefused, rfl, rfl⟩, rfl⟩
      | ok run =>
          -- The start of a run and the wait for it, two moves, are one errand.
          cases h with
          | rest => cases hend
          | @move _ _ _ _ more _ hmove h =>
              obtain ⟨ending, rfl, rfl⟩ := deeds_move_waiting hmove
              have hrun : command.run.Deeds [⟨.launch command, .ok run⟩, ⟨.await run, ending⟩] _ :=
                deeds_run_iff.mpr (.inr ⟨run, ending, rfl, rfl⟩)
              have hone := deeds_one.mpr ⟨command, looked, _, _, hcommand, hrun, rfl, rfl⟩
              cases houtcome : command.outcome ending with
              | error e =>
                  rw [houtcome] at h hone
                  obtain ⟨rfl, rfl⟩ := h.eq_of_pending? rfl
                  rw [List.append_nil, List.append_assoc]
                  exact .inl ⟨_, hone, rfl⟩
              | ok text =>
                  rw [houtcome] at h hone
                  exact .inr ⟨_, _, more, hone, by simp, h⟩

/-- A worker that has come to its end has gone through its sources as one alone would. -/
theorem Moves.exists_handles (h : Moves c (.ready todo outputs) log finished)
    (hend : finished.pending? = none) : ∃ errands result, Handles c todo log result errands ∧
      finished.result = result.map (outputs.reverse ++ ·) := by
  induction todo generalizing outputs log with
  | nil =>
      obtain ⟨rfl, rfl⟩ := h.eq_of_pending? rfl
      exact ⟨[], _, handles_nil, by simp [Worker.result, Except.map]⟩
  | cons source rest ih =>
      rcases h.first_errand hend with ⟨cause, hone, rfl⟩ | ⟨output, first, more, hone, rfl, hrest⟩
      · exact ⟨_, _, handles_of_failed hone rest, rfl⟩
      · obtain ⟨errands, result, herrands, hresult⟩ := ih hrest
        refine ⟨_, _, herrands.cons hone, ?_⟩
        rw [hresult]
        cases result <;> simp [Except.map]

def withoutTurns (log : List Exchange) : List Exchange := log.filter fun x => !x.isTurn

theorem withoutTurns_eq_self (h : ∀ x ∈ log, x.isTurn = false) : withoutTurns log = log := by
  refine List.filter_eq_self.mpr fun x hx => ?_
  simp [h x hx]

/-- A worker from its first move to its last, with what it does. -/
structure Shift where
  start : Worker
  deeds : List Exchange
  finish : Worker

/-- The worker has moved until it cannot move any more. -/
def Shift.Complete (c : Config) (shift : Shift) : Prop :=
  Moves c shift.start shift.deeds shift.finish ∧ shift.finish.pending? = none

/-- The log is put together from complete shifts of the workers. -/
structure Shifts (c : Config) (workers : List Worker) (log : List Exchange)
    (finished : List Worker) (shifts : List Shift) : Prop where
  start : shifts.map Shift.start = workers
  finish : shifts.map Shift.finish = finished
  merges : Merges (shifts.map Shift.deeds) log
  complete : ∀ shift ∈ shifts, shift.Complete c

variable {workers ended : List Worker} {shifts : List Shift}

theorem shifts_of_idle (h : ∀ worker ∈ workers, worker.pending? = none) :
    Shifts c workers [] workers (workers.map fun worker => ⟨worker, [], worker⟩) where
  start := by simp [Function.comp_def]
  finish := by simp [Function.comp_def]
  merges := .done (by simp)
  complete := by
    intro shift hshift
    obtain ⟨worker, hworker, rfl⟩ := List.mem_map.mp hshift
    exact ⟨.rest worker, h worker hworker⟩

/-- A move made before all others begins the shift of the worker that makes it. -/
theorem Shifts.move {front back : List Worker}
    (h : Shifts c (front ++ moved :: back) more ended shifts) (hpending : worker.pending? ≠ none)
    (hmove : (worker.move c).Deeds log moved) :
    ∃ shifts, Shifts c (front ++ worker :: back) (log ++ more) ended shifts := by
  obtain ⟨before, others, rfl, hbefore, hothers⟩ := List.map_eq_append_iff.mp h.start
  obtain ⟨shift, after, rfl, hshift, hafter⟩ := List.map_eq_cons_iff.mp hothers
  have hmerges := h.merges
  rw [List.map_append, List.map_cons] at hmerges
  obtain ⟨hmoves, hend⟩ := h.complete shift (by simp)
  rw [hshift] at hmoves
  refine ⟨before ++ ⟨worker, log ++ shift.deeds, shift.finish⟩ :: after, ?_⟩
  exact
    { start := by rw [List.map_append, List.map_cons, hbefore, hafter]
      finish := by simp [← h.finish]
      merges := by
        rw [List.map_append, List.map_cons]
        exact hmerges.prepend log
      complete := by
        intro other hother
        rw [List.mem_append, List.mem_cons] at hother
        rcases hother with hother | rfl | hother
        · exact h.complete other (by simp [hother])
        · exact ⟨.move hpending hmove hmoves, hend⟩
        · exact h.complete other (by simp [hother]) }

/-- Either no worker can move, or one that can is given the turn and moves before all others. -/
theorem deeds_runWorkers {moves : Nat} (h : (runWorkers c (moves + 1) workers).Deeds log ended) :
    (movable workers = [] ∧ log = [] ∧ ended = workers) ∨
      ∃ place worker moved first more, workers[place]? = some worker ∧ worker.pending? ≠ none ∧
        (worker.move c).Deeds first moved ∧ withoutTurns log = first ++ withoutTurns more ∧
        (runWorkers c moves (workers.set place moved)).Deeds more ended := by
  unfold runWorkers at h
  dsimp only at h
  split at h
  · rename_i hempty
    obtain ⟨rfl, rfl⟩ := Plan.deeds_pure.mp h
    exact .inl ⟨List.isEmpty_iff.mp hempty, rfl, rfl⟩
  · rename_i hsome
    obtain ⟨chosen, turned, after, rfl, hturn, hafter⟩ := Plan.deeds_bind.mp h
    obtain rfl := Plan.deeds_request.mp hturn
    obtain ⟨place, awaited, worker, hcandidate, hplace, hpending⟩ :=
      exists_chosen (fun he => hsome (List.isEmpty_iff.mpr he)) chosen
    simp only [hcandidate, hplace] at hafter
    obtain ⟨moved, first, more, rfl, hmove, hmore⟩ := Plan.deeds_bind.mp hafter
    have hlog : withoutTurns (first ++ more) = withoutTurns first ++ withoutTurns more :=
      List.filter_append _ _
    rw [withoutTurns_eq_self (deeds_move hpending hmove).2] at hlog
    exact .inr ⟨place, worker, moved, first, more, hplace, hpending, hmove, hlog, hmore⟩

/-- Whoever is chosen to move next, the workers work through complete shifts. -/
theorem exists_shifts {moves : Nat} (h : (runWorkers c moves workers).Deeds log ended)
    (hmoves : movesLeft workers ≤ moves) :
    ∃ shifts, Shifts c workers (withoutTurns log) ended shifts := by
  -- The bound on the moves is never what ends the run: each move leaves fewer to be made.
  induction moves generalizing workers log with
  | zero =>
      obtain ⟨rfl, rfl⟩ := Plan.deeds_pure.mp h
      refine ⟨_, shifts_of_idle fun worker hworker => pending?_of_movesLeft ?_⟩
      have hle := movesLeft_le_of_mem hworker
      omega
  | succ moves ih =>
      rcases deeds_runWorkers h with ⟨hidle, rfl, rfl⟩ |
        ⟨place, worker, moved, first, more, hplace, hpending, hmove, hlog, hmore⟩
      · exact ⟨_, shifts_of_idle (pending?_of_movable hidle)⟩
      · have hfewer := movesLeft_set_lt hplace (deeds_move hpending hmove).1
        obtain ⟨shifts, hshifts⟩ := ih hmore (by omega)
        have hlt := (List.getElem?_eq_some_iff.mp hplace).1
        rw [List.set_eq_take_append_cons_drop, if_pos hlt] at hshifts
        rw [hlog, eq_take_cons_drop hplace]
        exact hshifts.move hpending hmove

theorem InOrder.append {front back : List Errand} {first second : Except Cause (List Text)}
    (h : InOrder c front first) (h' : InOrder c back second) :
    InOrder c (front ++ back) (first.bind fun outputs => second.map (outputs ++ ·)) := by
  induction h with
  | done =>
      have hsame : second.map ([] ++ ·) = second := by
        cases second <;> rfl
      change InOrder c back (second.map ([] ++ ·))
      rw [hsame]
      exact h'
  | @next _ _ output result hone _ ih =>
      have hmap : ((result.map (output :: ·)).bind fun outputs => second.map (outputs ++ ·)) =
          (result.bind fun outputs => second.map (outputs ++ ·)).map (output :: ·) := by
        cases result <;> cases second <;> rfl
      rw [hmap]
      exact .next hone ih
  | stop hone => exact .stop hone

/-- Workers that start afresh handle their chunks, and what is gathered from them is what the
errands of all chunks come to in order. -/
theorem exists_shares {pieces : List (List Path)}
    (hstart : shifts.map Shift.start = pieces.map fun piece => .ready piece [])
    (hcomplete : ∀ shift ∈ shifts, shift.Complete c) :
    ∃ shares : List (List Errand), shares.map (List.map Errand.source) = pieces ∧
      shares.map (List.flatMap Errand.deeds) = shifts.map Shift.deeds ∧
      (∀ errand ∈ shares.flatten, errand.Once c) ∧
      InOrder c shares.flatten (gather (shifts.map Shift.finish)) := by
  induction shifts generalizing pieces with
  | nil =>
      obtain rfl : pieces = [] := by simpa using hstart.symm
      exact ⟨[], rfl, rfl, by simp, .done⟩
  | cons shift shifts ih =>
      obtain ⟨piece, others, rfl, hpiece, hothers⟩ := List.map_eq_cons_iff.mp hstart.symm
      obtain ⟨⟨hmoves, hend⟩, hrest⟩ := List.forall_mem_cons.mp hcomplete
      rw [← hpiece] at hmoves
      obtain ⟨share, result, hshare, hresult⟩ := hmoves.exists_handles hend
      have hsame : result.map (([] : List Text).reverse ++ ·) = result := by
        cases result <;> rfl
      obtain ⟨shares, hpieces, hlogs, honce, horder⟩ := ih hothers.symm hrest
      refine ⟨share :: shares, ?_, ?_, ?_, ?_⟩
      · rw [List.map_cons, hshare.about, hpieces]
      · rw [List.map_cons, List.map_cons, hshare.log, hlogs]
      · intro errand herrand
        rw [List.flatten_cons, List.mem_append] at herrand
        exact herrand.elim (hshare.once errand) (honce errand)
      · rw [List.map_cons, gather_cons, hresult, hsame, List.flatten_cons]
        exact hshare.inOrder.append horder

/-- How many sources are in a chunk: the sources over the workers, rounded up. -/
def shareSize (c : Config) (sources : List Path) : Nat :=
  (sources.length + min c.jobs sources.length - 1) / min c.jobs sources.length

theorem length_le_mul_shareSize (h : 0 < min c.jobs sources.length) :
    sources.length ≤ min c.jobs sources.length * shareSize c sources := by
  have hdiv := Nat.div_add_mod (sources.length + min c.jobs sources.length - 1)
    (min c.jobs sources.length)
  have hmod := Nat.mod_lt (sources.length + min c.jobs sources.length - 1) h
  rw [shareSize]
  omega

theorem shareSize_pos (h : 0 < min c.jobs sources.length) : 0 < shareSize c sources := by
  refine Nat.div_pos ?_ h
  omega

/-- What is done about the sources is cut into shares, each of them done by one worker. -/
structure Shared (c : Config) (sources : List Path) (log : List Exchange)
    (shares : List (List Errand)) : Prop where
  /-- The shares put together have one errand for each source, in order. -/
  whole : shares.flatten.map Errand.source = sources
  few : shares.length ≤ c.jobs
  filled : [] ∉ shares
  /-- With several workers the shares are the chunks. Their size is computed with a divisor that is
  not zero, and is not zero itself. -/
  cut : 1 < min c.jobs sources.length →
    min c.jobs sources.length ≠ 0 ∧ shareSize c sources ≠ 0 ∧
      shares.map (List.map Errand.source) = chunks (shareSize c sources) sources
  once : ∀ errand ∈ shares.flatten, errand.Once c
  /-- In a share one errand is done after another, and nothing is done that is in no share. -/
  merges : Merges (shares.map (List.flatMap Errand.deeds)) log

theorem exists_shared_of_mapM (hjobs : min c.jobs sources.length ≤ 1)
    (h : (sources.mapM (one c)).run.Deeds log result) :
    ∃ shares, Shared c sources (withoutTurns log) shares ∧ InOrder c shares.flatten result := by
  obtain ⟨errands, herrands⟩ := exists_handles_of_mapM h
  have hquiet : withoutTurns log = log := by
    refine withoutTurns_eq_self fun x hx => ?_
    rw [← herrands.log] at hx
    obtain ⟨errand, herrand, hx⟩ := List.mem_flatMap.mp hx
    rcases herrands.once errand herrand with hnone | ⟨outcome, hends⟩
    · simp [hnone] at hx
    · exact isTurn_of_ends hends x hx
  have hone : ¬ 1 < min c.jobs sources.length := Nat.not_lt.mpr hjobs
  rw [hquiet]
  cases errands with
  | nil =>
      have hnone : log = [] := herrands.log.symm
      refine ⟨[], ?_, herrands.inOrder⟩
      exact
        { whole := herrands.about
          few := Nat.zero_le _
          filled := by simp
          cut := fun h => absurd h hone
          once := herrands.once
          merges := hnone ▸ .done (by simp) }
  | cons errand rest =>
      have hflatten : [errand :: rest].flatten = errand :: rest := by simp
      refine ⟨[errand :: rest], ?_, hflatten.symm ▸ herrands.inOrder⟩
      exact
        { whole := hflatten.symm ▸ herrands.about
          few := c.jobs_pos
          filled := by simp
          cut := fun h => absurd h hone
          once := hflatten.symm ▸ herrands.once
          merges := by
            rw [List.map_singleton, herrands.log]
            exact .single log }

theorem exists_shared (h : (all c sources).run.Deeds log result) :
    ∃ shares, Shared c sources (withoutTurns log) shares ∧ InOrder c shares.flatten result := by
  unfold all at h
  dsimp only at h
  split at h
  · rename_i hjobs
    exact exists_shared_of_mapM hjobs h
  · rename_i hjobs
    have hseveral : 1 < min c.jobs sources.length := Nat.lt_of_not_le hjobs
    have hsome : 0 < min c.jobs sources.length := Nat.lt_of_succ_lt hseveral
    have hsize := shareSize_pos hsome
    rw [deeds_run_report_bind] at h
    obtain ⟨ended, worked, rest, rfl, hwork, hrest⟩ := deeds_run_lift_bind.mp h
    obtain ⟨rfl, rfl⟩ := Plan.deeds_pure.mp hrest
    obtain ⟨shifts, hshifts⟩ := exists_shifts hwork (Nat.le_refl _)
    obtain ⟨shares, hpieces, hlogs, honce, horder⟩ :=
      exists_shares hshifts.start hshifts.complete
    have hlength : shares.length = (chunks (shareSize c sources) sources).length := by
      have hlengths := congrArg List.length hpieces
      rwa [List.length_map] at hlengths
    have hfew : (chunks (shareSize c sources) sources).length ≤ min c.jobs sources.length :=
      length_chunks_le hsize (length_le_mul_shareSize hsome)
    rw [hshifts.finish] at horder
    refine ⟨shares, ?_, horder⟩
    exact
      { whole := by
          rw [List.map_flatten, hpieces]
          exact flatten_chunks _ _
        few := by
          have hjobs := Nat.min_le_left c.jobs sources.length
          omega
        filled := by
          intro hmem
          have hpiece := List.mem_map_of_mem (f := List.map Errand.source) hmem
          rw [hpieces] at hpiece
          exact nil_not_mem_chunks _ _ hpiece
        cut := fun _ => ⟨Nat.ne_of_gt hsome, Nat.ne_of_gt hsize, hpieces⟩
        once := honce
        merges := by
          rw [hlogs, List.append_nil]
          exact hshifts.merges }

def Agree (c : Config) (errands : List Errand) (outcomes : List (Except Cause Text)) : Prop :=
  List.Forall₂ (fun errand outcome => errand.deeds ≠ [] → errand.Ends c outcome) errands outcomes

theorem InOrder.eq_mapM {outcomes : List (Except Cause Text)} (h : InOrder c errands result)
    (hagree : Agree c errands outcomes) : result = outcomes.mapM id := by
  induction h generalizing outcomes with
  | done =>
      cases hagree
      rfl
  | next hone _ ih =>
      cases hagree with
      | @cons _ outcome _ others hfirst hrest =>
          obtain rfl := hone.unique (hfirst (deeds_ne_nil_of_ends hone))
          rw [ih hrest, List.mapM_cons]
          cases others.mapM id <;> rfl
  | stop hone =>
      cases hagree with
      | cons hfirst hrest =>
          obtain rfl := hone.unique (hfirst (deeds_ne_nil_of_ends hone))
          rw [List.mapM_cons]
          rfl

/-- One alone comes to the same with the errands up to the first that fails. -/
theorem InOrder.exists_deeds (h : InOrder c errands result) : ∃ done, done <+: errands ∧
    ((errands.map Errand.source).mapM (one c)).run.Deeds (done.flatMap Errand.deeds) result := by
  induction h with
  | done => exact ⟨[], List.prefix_rfl, rfl, rfl⟩
  | @next errand rest output result hone _ ih =>
      obtain ⟨done, hdone, hdeeds⟩ := ih
      refine ⟨errand :: done, (List.prefix_cons_inj errand).mpr hdone, ?_⟩
      rw [List.map_cons, List.mapM_cons, List.flatMap_cons]
      refine deeds_run_bind.mpr (.inr ⟨output, _, _, rfl, hone, ?_⟩)
      cases result with
      | error cause => exact deeds_run_bind.mpr (.inl ⟨cause, hdeeds, rfl⟩)
      | ok outputs =>
          refine deeds_run_bind.mpr (.inr ⟨outputs, _, [], ?_, hdeeds, rfl, rfl⟩)
          exact (List.append_nil _).symm
  | @stop errand rest cause hone =>
      refine ⟨[errand], ⟨rest, rfl⟩, ?_⟩
      rw [List.map_cons, List.mapM_cons, List.flatMap_singleton]
      exact deeds_run_bind.mpr (.inl ⟨cause, hone, rfl⟩)

theorem all_of_one_job (c : Config) (sources : List Path) :
    all { c with jobs := 1, jobs_pos := Nat.one_pos } sources = sources.mapM (one c) := by
  have hjobs : min 1 sources.length ≤ 1 := Nat.min_le_left _ _
  unfold all
  dsimp only
  rw [if_pos hjobs]
  rfl

/-- Whatever tools, file system and cancel token do, and whoever moves next: the sources are
preprocessed in shares, each source at most once. Whatever outcomes all sources have that agree with
what was done, the result is the list of all of them in the order of the sources, or the first
failure in this order. With one job, the same replies about one source after another lead to the
same result. -/
theorem all_in_source_order {σ : Type} (host : Host σ) (c : Config) (sources : List Path) (s : σ) :
    ∃ shares, Shared c sources (withoutTurns ((all c sources).run.deeds host s)) shares ∧
      (∀ outcomes, Agree c shares.flatten outcomes →
        ((all c sources).run.run host s).1 = outcomes.mapM id) ∧
      ∃ done, done <+: shares.flatten ∧
        (all { c with jobs := 1, jobs_pos := Nat.one_pos } sources).run.Deeds
          (done.flatMap Errand.deeds) ((all c sources).run.run host s).1 := by
  obtain ⟨shares, hshared, horder⟩ := exists_shared (Plan.deeds_run host (all c sources).run s)
  obtain ⟨done, hdone, hdeeds⟩ := horder.exists_deeds
  rw [hshared.whole] at hdeeds
  rw [all_of_one_job]
  exact ⟨shares, hshared, fun _ hagree => horder.eq_mapM hagree, done, hdone, hdeeds⟩

/-- Starts every program and always lets the last worker move. Only the run with the number one ends
well. -/
def lastFirst : Host Nat where
  answer
    | .launch _, started => (.ok ⟨started⟩, started + 1)
    | .await run, started => (.exited (.exited (if run.number = 1 then 0 else 1)) [], started)
    | .turn workers, started => (workers.length - 1, started)
    | .report _, started => ((), started)
    | .isDirectory _, started | .isFile _, started | .isCancelled _, started => (false, started)
    | .currentDirectory, started | .entryNames _, started | .fileContent _, started
    | .writeFile _ _, started | .removeFile _, started
    | .makeDirectories _, started => (.error .notFound, started)

/-- Of three sources and two workers the second worker goes first and fails. The first worker fails
later, at the second source, and it is this failure that counts. -/
theorem earlier_source_fails_later :
    let sources : List Path := [⟨"/src/a.c"⟩, ⟨"/src/b.c"⟩, ⟨"/src/c.c"⟩]
    let log := (all twoUnitsConfig sources).run.deeds lastFirst 0
    (log.filterMap Exchange.attempted?).map (·.arguments.getLast?) =
      [some "c.i".toList, some "a.i".toList, some "b.i".toList] ∧
    ((all twoUnitsConfig sources).run.run lastFirst 0).1 = .error (.tool
      (.unsuccessful "gcc -E -DVERSION=\"java\" b.c -o b.i" (.exited 1) [])) ∧
    ∃ shares, Shared twoUnitsConfig sources (withoutTurns log) shares ∧
      shares.map (List.map Errand.source) = [[⟨"/src/a.c"⟩, ⟨"/src/b.c"⟩], [⟨"/src/c.c"⟩]] := by
  intro sources log
  obtain ⟨shares, hshared, -, -⟩ := all_in_source_order lastFirst twoUnitsConfig sources 0
  refine ⟨by decide +kernel, by decide +kernel, shares, hshared, ?_⟩
  rw [(hshared.cut (by decide)).2.2]
  simp [sources, shareSize, twoUnitsConfig, chunks]

end Preprocess
end Bytelink
