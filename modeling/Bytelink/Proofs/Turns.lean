import Bytelink.Proofs.Dialogue

/-!
# Workers taking turns

What holds of the workers whoever is chosen to move next. A move leaves the worker fewer moves to
make, so the workers come to an end, and what every turn and every move keeps holds there
(`ensures_runWorkers`).
-/
namespace Bytelink

def Worker.WaitsFor (worker : Worker) (run : Run) : Prop :=
  ∃ source command todo outputs, worker = .waiting source command run todo outputs

namespace Preprocess

variable {α β : Type} {worker moved : Worker} {workers : List Worker} {place : Nat}

/-- Nothing is lost by cutting a list into chunks, and the order is kept. -/
theorem flatten_chunks (size : Nat) (l : List α) : (chunks size l).flatten = l := by
  induction l using chunks.induct size with
  | case1 => rw [chunks]; rfl
  | case2 a rest _ ih => rw [chunks, List.flatten_cons, ih, List.cons_append, List.take_append_drop]

theorem chunks_map (size : Nat) (f : α → β) (l : List α) :
    chunks size (l.map f) = (chunks size l).map (List.map f) := by
  induction l using chunks.induct size with
  | case1 => simp [chunks]
  | case2 a rest _ ih =>
      rw [List.map_cons, chunks, chunks, List.map_cons, ← List.map_take, ← List.map_drop, ih,
        List.map_cons]

theorem nil_not_mem_chunks (size : Nat) (l : List α) : [] ∉ chunks size l := by
  induction l using chunks.induct size with
  | case1 => simp [chunks]
  | case2 a rest _ ih =>
      rw [chunks, List.mem_cons, not_or]
      exact ⟨(List.cons_ne_nil _ _).symm, ih⟩

theorem length_chunks_le {size count : Nat} (hsize : 0 < size) {l : List α}
    (h : l.length ≤ count * size) : (chunks size l).length ≤ count := by
  induction l using chunks.induct size generalizing count with
  | case1 =>
      rw [chunks]
      exact Nat.zero_le count
  | case2 a rest _ ih =>
      cases count with
      | zero => simp at h
      | succ count =>
          have hrest : (rest.drop (size - 1)).length ≤ count * size := by
            rw [List.length_cons, Nat.succ_mul] at h
            rw [List.length_drop]
            omega
          rw [chunks, List.length_cons]
          exact Nat.succ_le_succ (ih hrest)

theorem eq_take_cons_drop {l : List α} {a : α} (h : l[place]? = some a) :
    l = l.take place ++ a :: l.drop (place + 1) := by
  obtain ⟨hlt, rfl⟩ := List.getElem?_eq_some_iff.mp h
  rw [List.getElem_cons_drop, List.take_append_drop]

theorem gather_cons (worker : Worker) (rest : List Worker) : gather (worker :: rest) =
    worker.result.bind fun outputs => (gather rest).map (outputs ++ ·) := by
  rw [gather]
  cases worker.result with
  | error cause => rfl
  | ok outputs => cases gather rest <;> rfl

theorem result_of_gather {outputs : List Text} (h : gather workers = .ok outputs) :
    ∀ worker ∈ workers, ∃ part, worker.result = .ok part := by
  induction workers generalizing outputs with
  | nil => simp
  | cons first rest ih =>
      simp only [gather, bind, Except.bind] at h
      cases hfirst : first.result with
      | error cause => simp [hfirst] at h
      | ok part =>
          cases hrest : gather rest with
          | error cause => simp [hfirst, hrest] at h
          | ok others =>
              intro worker hworker
              rcases List.mem_cons.mp hworker with rfl | hworker
              · exact ⟨part, hfirst⟩
              · exact ih hrest worker hworker

theorem mem_movable {awaited : Option Run} :
    (place, awaited) ∈ movable workers ↔
      ∃ worker, workers[place]? = some worker ∧ worker.pending? = some awaited := by
  simp only [movable, List.mem_filterMap, Option.map_eq_some_iff, Prod.mk.injEq,
    Prod.exists, List.mk_mem_zipIdx_iff_getElem?]
  constructor
  · rintro ⟨worker, _, hplace, _, hpending, rfl, rfl⟩
    exact ⟨worker, hplace, hpending⟩
  · rintro ⟨worker, hplace, hpending⟩
    exact ⟨worker, place, hplace, awaited, hpending, rfl, rfl⟩

theorem exists_chosen (h : movable workers ≠ []) (chosen : Nat) :
    ∃ place awaited worker,
      (movable workers)[chosen % (movable workers).length]? = some (place, awaited) ∧
      workers[place]? = some worker ∧ worker.pending? ≠ none := by
  have hlt := Nat.mod_lt chosen (List.length_pos_iff.mpr h)
  obtain ⟨⟨place, awaited⟩, hcandidate⟩ : ∃ candidate, _ = some candidate :=
    ⟨_, List.getElem?_eq_getElem hlt⟩
  obtain ⟨worker, hplace, hpending⟩ := mem_movable.mp (List.mem_of_getElem? hcandidate)
  exact ⟨place, awaited, worker, hcandidate, hplace, by simp [hpending]⟩

theorem pending?_of_movable (h : movable workers = []) :
    ∀ worker ∈ workers, worker.pending? = none := by
  intro worker hworker
  cases hpending : worker.pending? with
  | none => rfl
  | some awaited =>
      obtain ⟨place, hplace⟩ := List.mem_iff_getElem?.mp hworker
      have hmem := mem_movable.mpr ⟨worker, hplace, hpending⟩
      rw [h] at hmem
      cases hmem

theorem pending?_of_movesLeft (h : worker.movesLeft = 0) : worker.pending? = none := by
  match worker with
  | .stopped _ | .ready [] _ => rfl
  | .ready (_ :: _) _ | .waiting .. => simp [Worker.movesLeft] at h

theorem movesLeft_le_of_mem (h : worker ∈ workers) : worker.movesLeft ≤ movesLeft workers := by
  induction workers with
  | nil => cases h
  | cons first rest ih =>
      rcases List.mem_cons.mp h with rfl | h
      · exact Nat.le_add_right _ _
      · exact Nat.le_trans (ih h) (Nat.le_add_left _ _)

theorem movesLeft_set_lt (h : workers[place]? = some worker)
    (hless : moved.movesLeft < worker.movesLeft) :
    movesLeft (workers.set place moved) < movesLeft workers := by
  induction workers generalizing place with
  | nil => simp at h
  | cons first rest ih =>
      cases place with
      | zero =>
          obtain rfl : first = worker := by simpa using h
          exact Nat.add_lt_add_right hless _
      | succ place =>
          rw [List.set_cons_succ]
          exact Nat.add_lt_add_left (ih (by simpa using h)) _

variable {W : Type} {T : Answers W} {G : Request → W → Prop} {Inv : List Worker → W → Prop}
variable {c : Config} {w : W}

/-- What every turn and every move keeps holds when no worker can move any more. -/
theorem ensures_runWorkers {moves : Nat}
    (hturn : ∀ workers waits w, Inv workers w →
      (Plan.turn waits).Ensures T G (fun _ w' => Inv workers w') w)
    (hmove : ∀ workers place (worker : Worker) w, Inv workers w → workers[place]? = some worker →
      worker.pending? ≠ none → (worker.move c).Ensures T G (fun moved w' =>
        Inv (workers.set place moved) w' ∧ moved.movesLeft < worker.movesLeft) w)
    (h : Inv workers w) (hmoves : movesLeft workers ≤ moves) :
    (runWorkers c moves workers).Ensures T G (fun finished w' =>
      Inv finished w' ∧ ∀ worker ∈ finished, worker.pending? = none) w := by
  -- The bound on the moves is never what ends the run: each move leaves fewer to be made.
  induction moves generalizing workers w with
  | zero =>
      refine Plan.ensures_pure.mpr ⟨h, fun worker hworker => pending?_of_movesLeft ?_⟩
      have hle := movesLeft_le_of_mem hworker
      omega
  | succ moves ih =>
      unfold runWorkers
      dsimp only
      split
      · rename_i hempty
        exact Plan.ensures_pure.mpr ⟨h, pending?_of_movable (List.isEmpty_iff.mp hempty)⟩
      · rename_i hsome
        refine Plan.Ensures.bind (hturn workers _ w h) ?_
        intro chosen w h
        obtain ⟨place, awaited, worker, hcandidate, hplace, hpending⟩ :=
          exists_chosen (fun he => hsome (List.isEmpty_iff.mpr he)) chosen
        simp only [hcandidate, hplace]
        refine Plan.Ensures.bind (hmove workers place worker w h hplace hpending) ?_
        intro moved w ⟨h, hless⟩
        have hfewer := movesLeft_set_lt hplace hless
        exact ih h (by omega)

end Preprocess
end Bytelink
