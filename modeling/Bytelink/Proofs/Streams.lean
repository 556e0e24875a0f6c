import Bytelink.Host.Script.Counting
import Bytelink.Host.Script.Ends

/-!
# Lines of a stream

A text falls into lines, none of which has a line feed in it, and put together again they are the
text (`joinLines_wholeLines`). A program that takes in lines one by one prints the same however its
input is cut into chunks (`takeChunks_eq`). The first lines of a text are counted by line feeds, and
what is not among the last lines stands in front of them (`withoutLast_append_last`).
-/
namespace Bytelink.Script

variable {σ : Type} {f : Filter σ} {s : σ} {t u current : Text} {lines done printed : List Text}

theorem splitLines_eq (current : Text) (done : List Text) (t : Text) : splitLines current done t =
    (done.reverse ++ (splitLines current [] t).1, (splitLines current [] t).2) := by
  induction t generalizing current done with
  | nil => simp [splitLines]
  | cons c t ih =>
      by_cases hc : c = '\n'
      · subst hc
        simp only [splitLines]
        rw [ih [] (current.reverse :: done), ih [] [current.reverse]]
        simp
      · simp only [splitLines]
        exact ih (c :: current) done

theorem splitLines_append : splitLines current [] (t ++ u) =
    ((splitLines current [] t).1 ++ (splitLines (splitLines current [] t).2 [] u).1,
      (splitLines (splitLines current [] t).2 [] u).2) := by
  induction t generalizing current with
  | nil => simp [splitLines]
  | cons c t ih =>
      by_cases hc : c = '\n'
      · subst hc
        simp only [List.cons_append, splitLines]
        rw [splitLines_eq [] [current.reverse] (t ++ u), splitLines_eq [] [current.reverse] t, ih]
        simp
      · simp only [List.cons_append, splitLines]
        exact ih

/-- Nothing is lost by cutting a text into lines. -/
theorem joinLines_splitLines (current t : Text) :
    joinLines (splitLines current [] t).1 ++ (splitLines current [] t).2.reverse =
      current.reverse ++ t := by
  induction t generalizing current with
  | nil => simp [splitLines, joinLines]
  | cons c t ih =>
      by_cases hc : c = '\n'
      · subst hc
        have hrest := ih []
        simp only [splitLines]
        rw [splitLines_eq]
        simp only [joinLines, List.reverse_singleton, List.flatMap_append] at hrest ⊢
        simp [hrest]
      · simp only [splitLines]
        rw [ih]
        simp

theorem joinLines_wholeLines (t : Text) :
    joinLines (wholeLines t).1 = if (wholeLines t).2 then t ++ ['\n'] else t := by
  have hjoin := joinLines_splitLines [] t
  unfold wholeLines
  dsimp only
  split
  · next hempty =>
      rw [List.isEmpty_iff.mp hempty] at hjoin
      simpa using hjoin
  · rw [if_pos rfl, joinLines, List.flatMap_append, ← joinLines, List.flatMap_singleton,
      ← List.append_assoc, hjoin]
    rfl

theorem not_mem_of_mem_splitLines {line : Text} (hcurrent : '\n' ∉ current)
    (h : line ∈ (splitLines current [] t).1) : '\n' ∉ line := by
  induction t generalizing current with
  | nil => simp [splitLines] at h
  | cons c t ih =>
      by_cases hc : c = '\n'
      · subst hc
        simp only [splitLines] at h
        rw [splitLines_eq] at h
        rcases List.mem_append.mp h with h | h
        · simp only [List.reverse_singleton, List.mem_singleton] at h
          simpa [h] using hcurrent
        · exact ih (by simp) h
      · simp only [splitLines] at h
        exact ih (by simp [hcurrent, Ne.symm hc]) h

namespace Filter

theorem takeLines_eq (s : σ) (printed lines : List Text) : f.takeLines s printed lines =
    ((f.takeLines s [] lines).1, (f.takeLines s [] lines).2 ++ printed) := by
  induction lines generalizing s printed with
  | nil => simp [takeLines]
  | cons line lines ih =>
      unfold takeLines
      split
      · simp
      · dsimp only
        rw [ih _ (_ ++ printed), ih _ (_ ++ [])]
        simp

theorem takeLines_of_isDone (h : f.isDone s = true) :
    f.takeLines s printed lines = (s, printed) := by
  cases lines with
  | nil => rfl
  | cons line lines => simp [takeLines, h]

theorem takeLines_append (more : List Text) : f.takeLines s [] (lines ++ more) =
    ((f.takeLines (f.takeLines s [] lines).1 [] more).1,
      (f.takeLines (f.takeLines s [] lines).1 [] more).2 ++ (f.takeLines s [] lines).2) := by
  induction lines generalizing s with
  | nil => simp [takeLines]
  | cons line lines ih =>
      by_cases hdone : f.isDone s = true
      · simp [takeLines_of_isDone hdone]
      · simp only [List.cons_append, takeLines, hdone]
        rw [takeLines_eq _ _ (lines ++ more), takeLines_eq _ _ lines, ih]
        simp

variable {state : σ × Text}

/-- Two chunks are taken in like one, if nothing depends on how the input is cut. -/
theorem takeChunk_append (h : ∀ s t, f.prepare s t = (s, t)) : f.takeChunk state (t ++ u) =
    ((f.takeChunk (f.takeChunk state t).1 u).1,
      (f.takeChunk state t).2 ++ (f.takeChunk (f.takeChunk state t).1 u).2) := by
  obtain ⟨s, current⟩ := state
  simp only [takeChunk, h, splitLines_append, takeLines_append]
  simp

/-- What is printed while chunks come in, and the state after them. -/
def takeChunks (f : Filter σ) (state : σ × Text) : List Text → (σ × Text) × Text
  | [] => (state, [])
  | t :: chunks =>
      let (state, printed) := f.takeChunk state t
      let (state, more) := f.takeChunks state chunks
      (state, printed ++ more)

theorem takeChunk_nil (h : ∀ s t, f.prepare s t = (s, t)) :
    f.takeChunk state [] = (state, []) := by
  obtain ⟨s, current⟩ := state
  simp [takeChunk, h, splitLines, takeLines]

/-- However the input is cut, what is printed is the same, and so is the state in the end. -/
theorem takeChunks_eq (h : ∀ s t, f.prepare s t = (s, t)) (chunks : List Text) :
    f.takeChunks state chunks = f.takeChunk state chunks.flatten := by
  induction chunks generalizing state with
  | nil => exact (takeChunk_nil h).symm
  | cons t chunks ih =>
      rw [List.flatten_cons, takeChunk_append h]
      simp only [takeChunks, ih]

end Filter

namespace Ends

variable {p : Portion} {n : Nat}

theorem joinLines_append (front back : List Text) :
    joinLines (front ++ back) = joinLines front ++ joinLines back := List.flatMap_append

theorem joinLines_ne_nil (h : lines ≠ []) : joinLines lines ≠ [] := by
  cases lines with
  | nil => exact absurd rfl h
  | cons line lines => simp [joinLines]

/-- What is not among the last lines or bytes stands in front of them. -/
theorem withoutLast_append_last (h : p.isInverted = false) (t : Text) :
    p.withoutLast t ++ p.last t = t := by
  unfold Portion.withoutLast Portion.last
  rw [h]
  simp only [Bool.false_eq_true, if_false]
  by_cases hlines : p.ofLines = true
  · rw [if_pos hlines, if_pos hlines]
    have hjoin := joinLines_wholeLines t
    generalize wholeLines t = whole at hjoin ⊢
    obtain ⟨lines, isOpen⟩ := whole
    have hparts := joinLines_append (lines.take (lines.length - p.count))
      (lines.drop (lines.length - p.count))
    rw [List.take_append_drop, hjoin] at hparts
    dsimp only at hparts ⊢
    cases isOpen with
    | false =>
        simp only [Bool.and_false, Bool.false_eq_true, if_false] at hparts ⊢
        exact hparts.symm
    | true =>
        by_cases hall : lines.length - p.count = lines.length
        · simp [hall, joinLines]
        · have hrest : lines.drop (lines.length - p.count) ≠ [] := by
            rw [ne_eq, List.drop_eq_nil_iff]
            omega
          simp only [hall, decide_false, Bool.false_and, Bool.false_eq_true, if_false, if_true]
            at hparts ⊢
          rw [← List.dropLast_append_of_ne_nil (joinLines_ne_nil hrest), ← hparts]
          simp
  · rw [if_neg hlines, if_neg hlines, List.take_append_drop]

theorem lengthOfLines_eq (length : Nat) :
    lengthOfLines n length t = length + lengthOfLines n 0 t := by
  induction t generalizing n length with
  | nil => cases n <;> rfl
  | cons c t ih =>
      cases n with
      | zero => rfl
      | succ n =>
          simp only [lengthOfLines]
          split
          · rw [ih (length + 1), ih (0 + 1)]
            omega
          · rw [ih (length + 1), ih (0 + 1)]
            omega

/-- The first lines hold so many line feeds, unless there are not so many. -/
theorem count_take_lengthOfLines :
    (t.take (lengthOfLines n 0 t)).count '\n' = min n (t.count '\n') := by
  induction t generalizing n with
  | nil => simp
  | cons c t ih =>
      cases n with
      | zero => simp [lengthOfLines]
      | succ n =>
          simp only [lengthOfLines]
          split
          · next hc =>
              rw [lengthOfLines_eq, Nat.add_comm, List.take_succ_cons, hc, List.count_cons_self,
                List.count_cons_self, ih]
              omega
          · next hc =>
              rw [lengthOfLines_eq, Nat.add_comm, List.take_succ_cons, List.count_cons_of_ne hc,
                List.count_cons_of_ne hc, ih]

end Ends

namespace Counting

/-- However a text begins, its line feeds are counted as lines. -/
theorem lines_foldl_add (k : Progress) :
    (t.foldl Progress.add k).counts.lines = k.counts.lines + t.count '\n' := by
  induction t generalizing k with
  | nil => rfl
  | cons c t ih =>
      have hadd : (k.add c).counts.lines = k.counts.lines + if c = '\n' then 1 else 0 := by
        unfold Progress.add
        dsimp only
        split
        · rfl
        · rfl
        · rfl
        · rfl
        · rfl
        · rfl
        · next hc _ _ _ _ _ =>
            rw [if_neg hc]
            split
            · rfl
            · split
              · rfl
              · split <;> rfl
      rw [List.foldl_cons, ih, hadd, List.count_cons]
      simp only [beq_iff_eq]
      omega

end Counting

end Bytelink.Script
