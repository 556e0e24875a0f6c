import Bytelink.Text.Basic

/-!
# Searching and replacing

`cut` finds the leftmost occurrence of a pattern and returns what stands on either side of it;
`replaceAll` replaces the leftmost occurrences that do not overlap, without looking at what it has
written. Both read from left to right and visit each character once.
-/
namespace Bytelink.Text

/-- What follows `pattern` in a text that begins with it. -/
def stripStart (pattern t : Text) : Option Text :=
  if pattern.isPrefixOf t then some (t.drop pattern.length) else none

/-- What precedes `pattern` in a text that ends with it. -/
def stripEnd (pattern t : Text) : Option Text :=
  (stripStart pattern.reverse t.reverse).map List.reverse

/-- The text before and after the leftmost occurrence of `pattern`. -/
def cut (pattern : Text) : Text → Option (Text × Text)
  | [] => if pattern.isEmpty then some ([], []) else none
  | c :: rest =>
      if pattern.isPrefixOf (c :: rest) then some ([], (c :: rest).drop pattern.length)
      else (cut pattern rest).map fun parts => (c :: parts.1, parts.2)

theorem cut_eq_some {pattern t before after : Text} (h : cut pattern t = some (before, after)) :
    t = before ++ pattern ++ after := by
  induction t generalizing before with
  | nil =>
    simp only [cut] at h
    split at h
    · rename_i he
      simp_all [List.isEmpty_iff]
    · simp at h
  | cons c rest ih =>
    simp only [cut] at h
    split at h
    · rename_i hp
      obtain ⟨tail, ht⟩ := List.isPrefixOf_iff_prefix.1 hp
      simp only [Option.some.injEq, Prod.mk.injEq] at h
      rw [← h.1, ← h.2, ← ht]
      simp
    · obtain ⟨⟨front, back⟩, hc, he⟩ := Option.map_eq_some_iff.1 h
      simp only [Prod.mk.injEq] at he
      rw [← he.1, ih (he.2 ▸ hc)]
      simp

theorem cut_length_lt {pattern t before after : Text} (hp : pattern ≠ [])
    (h : cut pattern t = some (before, after)) : after.length < t.length := by
  have := List.length_pos_iff.2 hp
  rw [cut_eq_some h]
  simp only [List.length_append]
  omega

/-- Whether `pattern` occurs anywhere in a text. -/
def includes (t pattern : Text) : Bool := (cut pattern t).isSome

/-- Replacement in progress: `skip` characters of an occurrence are still to be passed over. -/
def replaceFrom (pattern new : Text) : Nat → Text → Text
  | _, [] => []
  | skip + 1, _ :: rest => replaceFrom pattern new skip rest
  | 0, c :: rest =>
      if pattern.isPrefixOf (c :: rest) then
        new ++ replaceFrom pattern new (pattern.length - 1) rest
      else c :: replaceFrom pattern new 0 rest

/-- Every leftmost, non-overlapping occurrence of the non-empty `pattern` replaced by `new`. -/
def replaceAll (pattern new t : Text) : Text := replaceFrom pattern new 0 t

end Bytelink.Text
