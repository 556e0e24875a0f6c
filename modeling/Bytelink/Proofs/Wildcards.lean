import Bytelink.Host.Script.Pattern

/-!
# What wildcard patterns cover

A pattern covers the texts that are put together from a part for each of its items (`Covers`). What
was quoted in a script covers nothing but itself. To strip a text of what a pattern covers at its
front or back is to take away the shortest or the longest such part (`IsExtreme`), or nothing if
there is none.
-/
namespace Bytelink.Script.Pattern

variable {p : Pattern} {t u : Text} {longest : Bool}

inductive Covers : Pattern → Text → Prop
  | nil : Covers [] []
  | fixed {c : Char} {p : Pattern} {t : Text} : Covers p t → Covers (.fixed c :: p) (c :: t)
  | any {c : Char} {p : Pattern} {t : Text} : Covers p t → Covers (.any :: p) (c :: t)
  | run {s : Text} {p : Pattern} {t : Text} : Covers p t → Covers (.run :: p) (s ++ t)
  | oneOf {k : CharSet} {c : Char} {p : Pattern} {t : Text} : k.admits c = true → Covers p t →
      Covers (.oneOf k :: p) (c :: t)

theorem Covers.of_drop {n : Nat} (h : Covers p (t.drop n)) : Covers (.run :: p) t := by
  have hcovers : Covers (.run :: p) (t.take n ++ t.drop n) := .run h
  rwa [List.take_append_drop] at hcovers

theorem covers_iff : p.covers t = true ↔ p.Covers t := by
  constructor
  · intro h
    induction p generalizing t with
    | nil =>
        obtain rfl := List.isEmpty_iff.mp h
        exact .nil
    | cons item p ih =>
        cases item with
        | fixed c =>
            cases t with
            | nil => cases h
            | cons d t =>
                simp only [covers, Bool.and_eq_true, beq_iff_eq] at h
                rw [h.1]
                exact .fixed (ih h.2)
        | any =>
            cases t with
            | nil => cases h
            | cons d t => exact .any (ih h)
        | oneOf k =>
            cases t with
            | nil => cases h
            | cons d t =>
                simp only [covers, Bool.and_eq_true] at h
                exact .oneOf h.1 (ih h.2)
        | run =>
            cases p with
            | nil =>
                have hall : Covers [.run] (t ++ []) := .run .nil
                rwa [List.append_nil] at hall
            | cons next p =>
                simp only [covers, List.any_eq_true] at h
                obtain ⟨n, -, hn⟩ := h
                exact .of_drop (ih hn)
  · intro h
    induction h with
    | nil => rfl
    | fixed _ ih => simp [covers, ih]
    | any _ ih => exact ih
    | oneOf hadmits _ ih => simp [covers, hadmits, ih]
    | @run s p t hrest ih =>
        cases p with
        | nil => rfl
        | cons next p =>
            simp only [covers, List.any_eq_true, List.mem_range]
            refine ⟨s.length, ?_, by simpa using ih⟩
            rw [List.length_append]
            omega

theorem covers_map_fixed : Pattern.covers (t.map .fixed) u = true ↔ u = t := by
  rw [covers_iff]
  constructor
  · intro h
    induction t generalizing u with
    | nil =>
        cases h
        rfl
    | cons c t ih =>
        cases h with
        | fixed hrest => rw [ih hrest]
  · rintro rfl
    induction u with
    | nil => exact .nil
    | cons c u ih => exact .fixed ih

theorem readPattern_quoted (fuel : Nat) (h : t.length ≤ fuel) :
    readPattern fuel (t.map (·, false)) = t.map .fixed := by
  induction t generalizing fuel with
  | nil => cases fuel <;> rfl
  | cons c t ih =>
      cases fuel with
      | zero => cases h
      | succ fuel =>
          have hrest := ih fuel (Nat.le_of_succ_le_succ h)
          simp [readPattern, hrest]

/-- Characters that were quoted stand for themselves, whatever they are. -/
theorem ofMarked_quoted_covers :
    (Pattern.ofMarked (t.map (·, false))).covers u = true ↔ u = t := by
  rw [Pattern.ofMarked, List.length_map, readPattern_quoted t.length (Nat.le_refl _)]
  exact covers_map_fixed

/-- The longest of the texts that satisfy a condition, or the shortest. -/
def IsExtreme (longest : Bool) (holds : Text → Prop) (s : Text) : Prop :=
  holds s ∧ ∀ other, holds other →
    if longest then other.length ≤ s.length else s.length ≤ other.length

theorem find?_extreme {l : List Nat} {q : Nat → Bool} {R : Nat → Nat → Prop} {n k : Nat}
    (hl : l.Pairwise R) (h : l.find? q = some n) (hk : k ∈ l) (hq : q k = true) :
    k = n ∨ R n k := by
  obtain ⟨-, before, after, rfl, hbefore⟩ := List.find?_eq_some_iff_append.mp h
  rcases List.mem_append.mp hk with hk | hk
  · have hnot := hbefore k hk
    simp [hq] at hnot
  · rcases List.mem_cons.mp hk with rfl | hk
    · exact .inl rfl
    · have hpair := (List.pairwise_append.mp hl).2.1
      exact .inr ((List.pairwise_cons.mp hpair).1 k hk)

theorem mem_lengths (longest : Bool) {size n : Nat} :
    n ∈ (if longest then (List.range (size + 1)).reverse else List.range (size + 1)) ↔
      n ≤ size := by
  rw [← Nat.lt_succ_iff, ← List.mem_range]
  cases longest with
  | false => rfl
  | true => exact List.mem_reverse

/-- The candidates for the length of a part, the best one first. -/
theorem find?_lengths {q : Nat → Bool} {size n : Nat}
    (h : (if longest then (List.range (size + 1)).reverse else List.range (size + 1)).find? q =
      some n) :
    n ≤ size ∧ q n = true ∧
      ∀ k ≤ size, q k = true → if longest then k ≤ n else n ≤ k := by
  refine ⟨(mem_lengths longest).mp (List.mem_of_find?_eq_some h), List.find?_some h, ?_⟩
  intro k hk hq
  have hmem := (mem_lengths longest).mpr hk
  cases longest with
  | false =>
      have hbest := find?_extreme List.pairwise_lt_range h hmem hq
      simp only [Bool.false_eq_true, if_false]
      omega
  | true =>
      have hreverse : ((List.range (size + 1)).reverse).Pairwise (fun a b => b < a) :=
        List.pairwise_reverse.mpr List.pairwise_lt_range
      have hbest := find?_extreme hreverse h hmem hq
      simp only [if_true]
      omega

theorem reach_eq_self (h : '\x00' ∉ t) : reach t = t := by
  induction t with
  | nil => rfl
  | cons c t ih =>
      rw [List.mem_cons, not_or] at h
      have hne : c ≠ '\x00' := Ne.symm h.1
      have hrest : reach t = t := ih h.2
      unfold reach at hrest ⊢
      simp [hne, hrest]

theorem dropStart_spec (p : Pattern) (longest : Bool) (h : '\x00' ∉ t) :
    (∃ s, IsExtreme longest (fun s => p.Covers s ∧ s <+: t) s ∧ t = s ++ p.dropStart longest t) ∨
      (∀ s, s <+: t → ¬ p.Covers s) ∧ p.dropStart longest t = t := by
  unfold dropStart
  rw [reach_eq_self h]
  dsimp only
  split
  · next hall =>
      simp only [Bool.and_eq_true] at hall
      refine .inl ⟨t, ⟨⟨covers_iff.mp hall.2, List.prefix_refl t⟩, fun other hother => ?_⟩, by simp⟩
      simpa [hall.1] using hother.2.length_le
  · split
    · next n hn =>
        obtain ⟨hsize, hcovers, hbest⟩ := find?_lengths hn
        refine .inl ⟨t.take n, ⟨⟨covers_iff.mp hcovers, List.take_prefix n t⟩, ?_⟩,
          (List.take_append_drop n t).symm⟩
        rintro other ⟨hother, hprefix⟩
        have htake := List.prefix_iff_eq_take.mp hprefix
        have hlength := hbest other.length hprefix.length_le
          (htake ▸ covers_iff.mpr hother)
        rwa [List.length_take_of_le hsize]
    · next hnone =>
        refine .inr ⟨fun s hprefix hcovers => ?_, rfl⟩
        have hfalse := List.find?_eq_none.mp hnone _ ((mem_lengths longest).mpr hprefix.length_le)
        rw [← List.prefix_iff_eq_take.mp hprefix] at hfalse
        exact hfalse (covers_iff.mpr hcovers)

theorem dropEnd_spec (p : Pattern) (longest : Bool) (h : '\x00' ∉ t) :
    (∃ s, IsExtreme longest (fun s => p.Covers s ∧ s <:+ t) s ∧ t = p.dropEnd longest t ++ s) ∨
      (∀ s, s <:+ t → ¬ p.Covers s) ∧ p.dropEnd longest t = t := by
  have hreach : ∀ n, reach (t.drop n) = t.drop n :=
    fun n => reach_eq_self fun hmem => h (List.mem_of_mem_drop hmem)
  have hlengths : (if longest = true then List.range (t.length + 1)
      else (List.range (t.length + 1)).reverse) = if (!longest) = true then
        (List.range (t.length + 1)).reverse else List.range (t.length + 1) := by
    cases longest <;> rfl
  unfold dropEnd
  rw [reach_eq_self h]
  simp only [hreach, hlengths]
  split
  · next n hn =>
      obtain ⟨hsize, hcovers, hbest⟩ := find?_lengths hn
      refine .inl ⟨t.drop n, ⟨⟨covers_iff.mp hcovers, List.drop_suffix n t⟩, ?_⟩,
        (List.take_append_drop n t).symm⟩
      rintro other ⟨hother, hsuffix⟩
      have hdrop := List.suffix_iff_eq_drop.mp hsuffix
      have hlength := hbest (t.length - other.length) (by omega)
        (hdrop ▸ covers_iff.mpr hother)
      have hle := hsuffix.length_le
      rw [List.length_drop]
      cases longest
      · simp only [Bool.not_false, if_true] at hlength
        simp only [Bool.false_eq_true, if_false]
        omega
      · simp only [Bool.not_true, Bool.false_eq_true, if_false] at hlength
        simp only [if_true]
        omega
  · next hnone =>
      refine .inr ⟨fun s hsuffix hcovers => ?_, rfl⟩
      have hlength : t.length - s.length ≤ t.length := Nat.sub_le _ _
      have hfalse := List.find?_eq_none.mp hnone _ ((mem_lengths _).mpr hlength)
      rw [← List.suffix_iff_eq_drop.mp hsuffix] at hfalse
      exact hfalse (covers_iff.mpr hcovers)

end Bytelink.Script.Pattern
