import Mathlib.Data.List.Basic
import Mathlib.Data.List.Perm.Basic

/-!
# Putting several lists together

`Merges logs rest` says that `rest` is put together from the elements of several lists, each of them
kept in order: every element stands in it exactly once (`Merges.perm`), and each list is left when
the others are struck out (`Merges.sublist`). A merge can be made longer at both ends, by way of any
of the lists (`Merges.prepend`, `Merges.append`).
-/
namespace Bytelink

/-- The log is put together from some others, each of them kept in order. -/
inductive Merges {α : Type} : List (List α) → List α → Prop
  | done {logs : List (List α)} : (∀ log ∈ logs, log = []) → Merges logs []
  | next {front back : List (List α)} {log rest : List α} {x : α} :
      Merges (front ++ log :: back) rest → Merges (front ++ (x :: log) :: back) (x :: rest)

namespace Merges

variable {α : Type} {logs front back : List (List α)} {log rest : List α}

theorem prepend (h : Merges (front ++ log :: back) rest) (first : List α) :
    Merges (front ++ (first ++ log) :: back) (first ++ rest) := by
  induction first with
  | nil => exact h
  | cons x first ih => exact ih.next

theorem single (log : List α) : Merges [log] log := by
  have hnone : Merges ([] ++ [] :: []) ([] : List α) := .done (by simp)
  simpa using hnone.prepend log

theorem append (h : Merges (front ++ log :: back) rest) (last : List α) :
    Merges (front ++ (log ++ last) :: back) (rest ++ last) := by
  generalize hlogs : front ++ log :: back = logs at h
  induction h generalizing front log back with
  | done hnone =>
      subst hlogs
      obtain rfl : log = [] := hnone log (by simp)
      simpa using (Merges.done hnone).prepend last
  | @next front' back' log' rest x _ ih =>
      -- The element comes from a log before this one, from this one, or from one behind it.
      rcases List.append_eq_append_iff.mp hlogs with ⟨between, rfl, htail⟩ | ⟨between, rfl, htail⟩
      · rcases List.cons_eq_append_iff.mp htail with ⟨rfl, htail⟩ | ⟨between, rfl, rfl⟩
        · obtain ⟨rfl, rfl⟩ := List.cons.inj htail
          exact (ih (by simp)).next
        · have hrest : Merges (front ++ (log ++ last) :: (between ++ log' :: back')) (rest ++ last) :=
            ih (by simp)
          rw [← List.cons_append, ← List.append_assoc] at hrest ⊢
          exact hrest.next
      · rcases List.cons_eq_append_iff.mp htail with ⟨rfl, htail⟩ | ⟨between, rfl, rfl⟩
        · obtain ⟨rfl, rfl⟩ := List.cons.inj htail
          exact (ih (by simp)).next
        · have hrest : Merges ((front' ++ log' :: between) ++ (log ++ last) :: back) (rest ++ last) :=
            ih (by simp)
          rw [List.append_assoc, List.cons_append] at hrest ⊢
          exact hrest.next

theorem perm (h : Merges logs rest) : rest.Perm logs.flatten := by
  induction h with
  | done hnone => rw [List.flatten_eq_nil_iff.mpr hnone]
  | @next front back log rest x _ ih =>
      rw [List.flatten_append, List.flatten_cons] at ih ⊢
      exact (ih.cons x).trans List.perm_middle.symm

theorem sublist (h : Merges logs rest) (hlog : log ∈ logs) : log.Sublist rest := by
  induction h generalizing log with
  | done hnone => rw [hnone log hlog]
  | @next front back kept rest x _ ih =>
      rcases List.mem_append.mp hlog with hfront | hback
      · exact (ih (List.mem_append_left _ hfront)).cons x
      · rcases List.mem_cons.mp hback with rfl | hback
        · exact (ih (by simp)).cons_cons x
        · exact (ih (by simp [hback])).cons x

theorem eq_of_flatten_eq (h : Merges logs rest) (hlog : log ∈ logs) (halone : logs.flatten = log) :
    rest = log := by
  have hlength : log.length = rest.length := by rw [h.perm.length_eq, halone]
  exact ((h.sublist hlog).eq_of_length hlength).symm

end Merges
end Bytelink
