import Bytelink.Host.Script.Regex

/-!
# What regular expressions match

The matcher goes through the ways in which an expression matches and keeps the longest match. It
hands what is to be done with a match to a continuation, gives up as soon as no longer match is
possible, and bounds its loops. What it looks for is said without any of this: `Matches` tells from
where to where an expression matches, by recursion on the expression. What the matcher finds at a
place is a match (`matchAt?_sound`), no match there is longer (`matchAt?_longest`), and a search
ends at the first place where there is one (`searchWhere_eq_some`, `searchWhere_eq_none`).
-/
namespace Bytelink.Script.Regex

variable {s : Subject} {r : Regex} {i j k n : Nat} {g g' : Groups} {go : Continue} {f : Found}

/-- Steps one after another. After the first `least` of them each has to come further, and there are
at most so many as `most?` says; `count` of them have been made. -/
inductive Rounds (step : Nat → Groups → Nat → Groups → Prop) (least : Nat) (most? : Option Nat) :
    Nat → Nat → Groups → Nat → Groups → Prop
  | stop {count i : Nat} {g : Groups} : least ≤ count → Rounds step least most? count i g i g
  | more {count i k j : Nat} {g between g' : Groups} : most?.any (· ≤ count) = false →
      step i g k between → (k = i → count < least) →
      Rounds step least most? (count + 1) k between j g' → Rounds step least most? count i g j g'

/-- What has been matched from `first` to `last` stands at a place once more. -/
def Subject.Recurs (s : Subject) (first last place : Nat) : Prop :=
  ∀ n < last - first, ∃ a b, s.charAt? (first + n) = some a ∧ s.charAt? (place + n) = some b ∧
    s.isSame a b = true

/-- The expression matches from place `i`, where the groups are `g`, to place `j`, where they are
`g'`. -/
def Matches (s : Subject) : Regex → Nat → Groups → Nat → Groups → Prop
  | .nothing, i, g, j, g' => j = i ∧ g' = g
  | .one k, i, g, j, g' => (s.charAt? i).any (s.admits k) = true ∧ j = i + 1 ∧ g' = g
  | .any, i, g, j, g' => (s.charAt? i).any (!Wide.isByte ·) = true ∧ j = i + 1 ∧ g' = g
  | .lineStart, i, g, j, g' => s.startsLine i = true ∧ j = i ∧ g' = g
  | .lineEnd, i, g, j, g' => s.endsLine i = true ∧ j = i ∧ g' = g
  | .wordStart, i, g, j, g' => (s.isWordBefore i = false ∧ s.isWordAt i = true) ∧ j = i ∧ g' = g
  | .wordEnd, i, g, j, g' => (s.isWordBefore i = true ∧ s.isWordAt i = false) ∧ j = i ∧ g' = g
  | .wordEdge, i, g, j, g' => s.isWordBefore i ≠ s.isWordAt i ∧ j = i ∧ g' = g
  | .wordInside, i, g, j, g' => s.isWordBefore i = s.isWordAt i ∧ j = i ∧ g' = g
  | .group number r, i, g, j, g' =>
      ∃ inside, Matches s r i g j inside ∧ g' = (number, i, j) :: inside
  | .again number, i, g, j, g' =>
      ∃ first last, g.lookup number = some (first, last) ∧ s.Recurs first last i ∧
        j = i + (last - first) ∧ g' = g
  | .both first second, i, g, j, g' =>
      ∃ k between, Matches s first i g k between ∧ Matches s second k between j g'
  | .either first second, i, g, j, g' => Matches s first i g j g' ∨ Matches s second i g j g'
  | .repeated least most? r, i, g, j, g' => Rounds (Matches s r) least most? 0 i g j g'

theorem lt_size_of_charAt? {q : Char → Bool} (h : (s.charAt? i).any q = true) :
    i < s.chars.size := by
  rcases Nat.lt_or_ge i s.chars.size with hlt | hge
  · exact hlt
  · rw [Subject.charAt?, Array.getElem?_eq_none hge] at h
    cases h

theorem Rounds.le {step : Nat → Groups → Nat → Groups → Prop} {least count : Nat}
    {most? : Option Nat}
    (hstep : ∀ i g j g', step i g j g' → i ≤ j ∧ (i ≤ s.chars.size → j ≤ s.chars.size))
    (h : Rounds step least most? count i g j g') :
    i ≤ j ∧ (i ≤ s.chars.size → j ≤ s.chars.size) := by
  induction h with
  | stop _ => exact ⟨Nat.le_refl _, id⟩
  | more _ hfirst _ _ ih =>
      have hle := hstep _ _ _ _ hfirst
      exact ⟨Nat.le_trans hle.1 ih.1, fun hi => ih.2 (hle.2 hi)⟩

theorem Matches.le (h : r.Matches s i g j g') :
    i ≤ j ∧ (i ≤ s.chars.size → j ≤ s.chars.size) := by
  induction r generalizing i j g g' with
  | one k =>
      have hlt := lt_size_of_charAt? h.1
      have hj : j = i + 1 := h.2.1
      omega
  | any =>
      have hlt := lt_size_of_charAt? h.1
      have hj : j = i + 1 := h.2.1
      omega
  | group number r ih =>
      obtain ⟨inside, hinside, -⟩ := h
      exact ih hinside
  | again number =>
      obtain ⟨first, last, -, hrecurs, hj, -⟩ := h
      refine ⟨by omega, fun hi => ?_⟩
      by_cases hempty : last - first = 0
      · omega
      · obtain ⟨a, b, -, hb, -⟩ := hrecurs (last - first - 1) (by omega)
        have hlt : i + (last - first - 1) < s.chars.size :=
          lt_size_of_charAt? (q := fun _ => true) (by simp [hb])
        omega
  | both first second ihFirst ihSecond =>
      obtain ⟨k, between, hfirst, hsecond⟩ := h
      have hle := ihFirst hfirst
      have hle' := ihSecond hsecond
      exact ⟨Nat.le_trans hle.1 hle'.1, fun hi => hle'.2 (hle.2 hi)⟩
  | either first second ihFirst ihSecond => exact h.elim ihFirst ihSecond
  | repeated least most? r ih => exact Rounds.le (fun _ _ _ _ => ih) h
  | nothing =>
      obtain rfl : j = i := h.1
      exact ⟨Nat.le_refl _, id⟩
  | _ =>
      obtain rfl : j = i := h.2.1
      exact ⟨Nat.le_refl _, id⟩

variable {P : Found → Prop} {isIn : Char → Bool}

variable (s isIn) in
theorem self_le_runEnd (limit i : Nat) : i ≤ s.runEnd isIn limit i := by
  induction limit generalizing i with
  | zero => exact Nat.le_refl i
  | succ limit ih =>
      unfold Subject.runEnd
      split
      · split
        · have hnext := ih (i + 1)
          omega
        · exact Nat.le_refl i
      · exact Nat.le_refl i

/-- What is said of the places from `i` to `j` is said of the first and of those behind it. -/
theorem forall_from_iff {Q : Nat → Prop} (hij : i < j) : (∀ n, i ≤ n → n < j → Q n) ↔
    Q i ∧ ∀ n, i + 1 ≤ n → n < j → Q n := by
  constructor
  · intro h
    exact ⟨h i (Nat.le_refl i) hij, fun n hle hlt => h n (by omega) hlt⟩
  · intro h n hle hlt
    by_cases hn : n = i
    · exact hn ▸ h.1
    · exact h.2 n (by omega) hlt

theorem le_runEnd_iff {limit : Nat} (hi : i ≤ j) : j ≤ s.runEnd isIn limit i ↔
    j ≤ i + limit ∧ ∀ n, i ≤ n → n < j → (s.charAt? n).any isIn = true := by
  by_cases hij : i = j
  · subst hij
    have hself := self_le_runEnd s isIn limit i
    simp only [hself, true_iff]
    exact ⟨by omega, fun n hle hlt => by omega⟩
  · induction limit generalizing i with
    | zero =>
        have hstop : s.runEnd isIn 0 i = i := rfl
        omega
    | succ limit ih =>
        by_cases hfirst : (s.charAt? i).any isIn = true
        · have hnext : s.runEnd isIn (limit + 1) i = s.runEnd isIn limit (i + 1) := by
            cases hc : s.charAt? i with
            | none => simp [hc] at hfirst
            | some c =>
                rw [hc, Option.any_some] at hfirst
                simp [Subject.runEnd, hc, hfirst]
          rw [hnext, forall_from_iff (by omega), and_iff_right hfirst]
          by_cases hlast : i + 1 = j
          · have hself := self_le_runEnd s isIn limit (i + 1)
            subst hlast
            simp only [hself, true_iff]
            exact ⟨by omega, fun n hle hlt => by omega⟩
          · rw [ih (by omega) hlast, Nat.add_assoc i 1 limit, Nat.add_comm 1 limit]
        · have hstop : s.runEnd isIn (limit + 1) i = i := by
            unfold Subject.runEnd
            split
            · next c hc =>
                rw [hc] at hfirst
                exact if_neg hfirst
            · rfl
          rw [hstop, forall_from_iff (by omega)]
          constructor
          · omega
          · intro h
            exact absurd h.2.1 hfirst

/-- Going on from the last place first reaches every place in between. -/
theorem fromLast_induct {step : Nat → Found → Found} {low count : Nat}
    (hstep : ∀ n f, low ≤ n → n ≤ low + count → P f → P (step n f)) (hf : P f) :
    P (s.fromLast step low count f) := by
  induction count generalizing f with
  | zero => exact hstep low f (Nat.le_refl low) (Nat.le_refl low) hf
  | succ count ih =>
      have hlast : P (step (low + count + 1) f) :=
        hstep (low + count + 1) f (by omega) (Nat.le_refl _) hf
      unfold Subject.fromLast
      dsimp only
      split
      · exact hlast
      · exact ih (fun n f hlow hhigh => hstep n f hlow (by omega)) hlast

theorem loop_induct {step : Nat → Groups → Continue → Found → Found}
    {M : Nat → Groups → Nat → Groups → Prop} {least : Nat} {most? : Option Nat} {fuel count : Nat}
    (hstep : ∀ i g go f, (∀ j g' f, M i g j g' → P f → P (go j g' f)) → P f → P (step i g go f))
    (hgo : ∀ j g' f, Rounds M least most? count i g j g' → P f → P (go j g' f)) (hf : P f) :
    P (s.loop step least most? go fuel count i g f) := by
  induction fuel generalizing count i g f with
  | zero => exact hf
  | succ fuel ih =>
      unfold Subject.loop
      dsimp only
      generalize hmore : (if most?.any (· ≤ count) = true then f else step i g _ f) = more
      have hafter : P more := by
        subst hmore
        split
        · exact hf
        · next hmost =>
            refine hstep i g _ f (fun k between f hfirst hf => ?_) hf
            split
            · exact hf
            · next hfurther =>
                refine ih (fun j g' f hrest hf => hgo j g' f ?_ hf) hf
                refine .more (by simpa using hmost) hfirst (fun hk => ?_) hrest
                simpa [hk] using hfurther
      split
      · exact hafter
      · split
        · next hleast => exact hgo i g more (.stop hleast) hafter
        · exact hafter

theorem matches_single (h : r.single? s = some isIn) :
    r.Matches s i g j g' ↔ (s.charAt? i).any isIn = true ∧ j = i + 1 ∧ g' = g := by
  cases r with
  | one k =>
      obtain rfl := Option.some.inj h
      exact Iff.rfl
  | any =>
      obtain rfl := Option.some.inj h
      exact Iff.rfl
  | _ => cases h

theorem rounds_single_iff {least count : Nat} {most? : Option Nat}
    (h : r.single? s = some isIn) : Rounds (r.Matches s) least most? count i g j g' ↔
      g' = g ∧ i ≤ j ∧ least ≤ count + (j - i) ∧
        (∀ most, most? = some most → i < j → count + (j - i) ≤ most) ∧
        ∀ n, i ≤ n → n < j → (s.charAt? n).any isIn = true := by
  constructor
  · intro hrounds
    induction hrounds with
    | stop hleast =>
        refine ⟨rfl, Nat.le_refl _, by omega, fun most _ hlt => by omega, fun n hle hlt => by omega⟩
    | @more count i k j g between g' hmost hfirst _ _ ih =>
        obtain ⟨hin, rfl, rfl⟩ := (matches_single h).mp hfirst
        obtain ⟨hgroups, hle, hleast, hbound, hall⟩ := ih
        refine ⟨hgroups, by omega, by omega, fun most hmost' _ => ?_, ?_⟩
        · have hcount : count < most := by simpa [hmost'] using hmost
          have hrest := hbound most hmost'
          omega
        · exact (forall_from_iff (by omega)).mpr ⟨hin, hall⟩
  · rintro ⟨rfl, hle, hleast, hbound, hall⟩
    obtain ⟨d, rfl⟩ := Nat.exists_eq_add_of_le hle
    induction d generalizing i count with
    | zero => exact .stop (by omega)
    | succ d ih =>
        obtain ⟨hin, hall⟩ := (forall_from_iff (by omega)).mp hall
        have hfirst : r.Matches s i g' (i + 1) g' := (matches_single h).mpr ⟨hin, rfl, rfl⟩
        have hmost : most?.any (· ≤ count) = false := by
          cases most? with
          | none => rfl
          | some most =>
              have hcount := hbound most rfl (by omega)
              simp only [Option.any_some, decide_eq_false_iff_not]
              omega
        have hrest : Rounds (r.Matches s) least most? (count + 1) (i + 1) g' (i + 1 + d) g' := by
          refine ih (by omega) (by omega) (fun most hmost' _ => ?_) fun n hn hnd => ?_
          · have hcount := hbound most hmost' (by omega)
            omega
          · exact hall n hn (by omega)
        rw [show i + (d + 1) = i + 1 + d by omega]
        exact .more hmost hfirst (fun hk => by omega) hrest

/-- Where an expression for one character is repeated, the places that can be reached are those from
`least` characters on up to the end of the run. -/
theorem rounds_single_iff_runEnd {least : Nat} {most? : Option Nat}
    (h : r.single? s = some isIn) : Rounds (r.Matches s) least most? 0 i g j g' ↔
      g' = g ∧ i + least ≤ j ∧ j ≤ s.runEnd isIn (most?.getD s.chars.size) i := by
  rw [rounds_single_iff h]
  constructor
  · rintro ⟨hgroups, hle, hleast, hbound, hall⟩
    refine ⟨hgroups, by omega, (le_runEnd_iff hle).mpr ⟨?_, hall⟩⟩
    by_cases hij : i = j
    · omega
    · have hlast := lt_size_of_charAt? (hall (j - 1) (by omega) (by omega))
      cases most? with
      | none =>
          dsimp only [Option.getD_none]
          omega
      | some most =>
          have hmost := hbound most rfl (by omega)
          dsimp only [Option.getD_some]
          omega
  · rintro ⟨hgroups, hleast, hstop⟩
    obtain ⟨hlimit, hall⟩ := (le_runEnd_iff (by omega)).mp hstop
    refine ⟨hgroups, by omega, by omega, fun most hmost _ => ?_, hall⟩
    rw [hmost, Option.getD_some] at hlimit
    omega

/-- What is kept by the continuation, wherever the expression matches, is kept by the matcher. -/
theorem run_induct (hgo : ∀ j g' f, r.Matches s i g j g' → P f → P (go j g' f)) (hf : P f) :
    P (r.run s i g go f) := by
  induction r generalizing i g go f with
  | nothing => exact hgo i g f ⟨rfl, rfl⟩ hf
  | one | any =>
      unfold run
      split
      · next hin => exact hgo (i + 1) g f ⟨hin, rfl, rfl⟩ hf
      · exact hf
  | group number r ih =>
      exact ih (fun j inside f hinside hf => hgo j _ f ⟨inside, hinside, rfl⟩ hf) hf
  | again number =>
      unfold run
      split
      · exact hf
      · next first last hgroup =>
          dsimp only
          split
          · next hthere =>
              refine hgo _ g f ⟨first, last, hgroup, fun n hn => ?_, rfl, rfl⟩ hf
              have hsame := List.all_eq_true.mp hthere n (List.mem_range.mpr hn)
              split at hsame
              · next a b ha hb => exact ⟨a, b, ha, hb, hsame⟩
              · cases hsame
          · exact hf
  | both first second ihFirst ihSecond =>
      refine ihFirst (fun k between f hfirst hf => ?_) hf
      exact ihSecond (fun j g' f hsecond hf => hgo j g' f ⟨k, between, hfirst, hsecond⟩ hf) hf
  | either first second ihFirst ihSecond =>
      have hafter : P (first.run s i g go f) :=
        ihFirst (fun j g' f hfirst hf => hgo j g' f (.inl hfirst) hf) hf
      unfold run
      dsimp only
      split
      · exact hafter
      · exact ihSecond (fun j g' f hsecond hf => hgo j g' f (.inr hsecond) hf) hafter
  | repeated least most? r ih =>
      unfold run
      split
      · next isIn hsingle =>
          dsimp only
          split
          · exact hf
          · next hstop =>
              refine fromLast_induct (fun n f hlow hhigh hf => hgo n g f ?_ hf) hf
              exact (rounds_single_iff_runEnd hsingle).mpr ⟨rfl, hlow, by omega⟩
      · exact loop_induct (fun i g go f hgo hf => ih hgo hf) hgo hf
  | _ =>
      unfold run
      split
      · next hholds => exact hgo i g f ⟨by simpa using hholds, rfl, rfl⟩ hf
      · exact hf

/-- A match has been found that ends at this place or behind it. -/
def Reached (n : Nat) (f : Found) : Prop := ∃ stop groups, f = some (stop, groups) ∧ n ≤ stop

theorem reached_of_isBest (hn : n ≤ s.chars.size) (h : s.isBest f = true) : Reached n f := by
  cases f with
  | none => cases h
  | some found =>
      obtain ⟨stop, groups⟩ := found
      have hstop : stop = s.chars.size := by simpa [Subject.isBest] using h
      exact ⟨stop, groups, rfl, hstop ▸ hn⟩

theorem fromLast_reaches {step : Nat → Found → Found} {low count : Nat} (hn : n ≤ s.chars.size)
    (hgrow : ∀ k f, Reached n f → Reached n (step k f)) (hlow : low ≤ j) (hhigh : j ≤ low + count)
    (hstep : ∀ f, Reached n (step j f)) : Reached n (s.fromLast step low count f) := by
  induction count generalizing f with
  | zero =>
      obtain rfl : j = low := by omega
      exact hstep f
  | succ count ih =>
      unfold Subject.fromLast
      dsimp only
      split
      · next hbest => exact reached_of_isBest hn hbest
      · by_cases hj : j = low + count + 1
        · exact fromLast_induct (fun k f _ _ hf => hgrow k f hf) (hj ▸ hstep f)
        · exact ih (by omega)

section

variable {step : Nat → Groups → Continue → Found → Found} {least fuel count : Nat}
variable {most? : Option Nat}

theorem loop_grows
    (hkeep : ∀ i g go f, (∀ k g f, Reached n f → Reached n (go k g f)) → Reached n f →
      Reached n (step i g go f))
    (hgrow : ∀ k g f, Reached n f → Reached n (go k g f)) (hf : Reached n f) :
    Reached n (s.loop step least most? go fuel count i g f) := by
  refine loop_induct (M := fun _ _ _ _ => True) (fun i g go f hgo hf => ?_)
    (fun j g' f _ hf => hgrow j g' f hf) hf
  exact hkeep i g go f (fun k g f hf => hgo k g f trivial hf) hf

/-- The fuel of a loop is enough: each round comes further or is one of the first `least`. -/
theorem loop_reaches {M : Nat → Groups → Nat → Groups → Prop} (hn : n ≤ s.chars.size)
    (hle : ∀ i g j g', M i g j g' → i ≤ j ∧ (i ≤ s.chars.size → j ≤ s.chars.size))
    (hkeep : ∀ i g go f, (∀ k g f, Reached n f → Reached n (go k g f)) → Reached n f →
      Reached n (step i g go f))
    (hstep : ∀ i g go f j g', i ≤ s.chars.size → (∀ k g f, Reached n f → Reached n (go k g f)) →
      M i g j g' → (∀ f, Reached n (go j g' f)) → Reached n (step i g go f))
    (hgrow : ∀ k g f, Reached n f → Reached n (go k g f)) (hi : i ≤ s.chars.size)
    (hrounds : Rounds M least most? count i g j g') (hgo : ∀ f, Reached n (go j g' f))
    (hfuel : s.chars.size - i + (least - count) < fuel) :
    Reached n (s.loop step least most? go fuel count i g f) := by
  induction hrounds generalizing fuel f with
  | @stop count i g hleast =>
      obtain ⟨fuel, rfl⟩ : ∃ m, fuel = m + 1 := Nat.exists_eq_add_one_of_ne_zero (by omega)
      unfold Subject.loop
      dsimp only
      generalize (if most?.any (· ≤ count) = true then f else step i g _ f) = more
      split
      · next hbest => exact reached_of_isBest hn hbest
      · exact hgo more
  | @more count i k j g between g' hmost hfirst hfurther _ ih =>
      obtain ⟨fuel, rfl⟩ : ∃ m, fuel = m + 1 := Nat.exists_eq_add_one_of_ne_zero (by omega)
      have hplace := hle i g k between hfirst
      have hk := hplace.2 hi
      unfold Subject.loop
      dsimp only
      generalize hmore : (if most?.any (· ≤ count) = true then f else step i g _ f) = more
      have hreached : Reached n more := by
        rw [hmost, if_neg Bool.false_ne_true] at hmore
        subst hmore
        refine hstep i g _ f k between hi (fun next groups f hf => ?_) hfirst fun f => ?_
        · split
          · exact hf
          · exact loop_grows hkeep hgrow hf
        · have hgoes : ¬ (k = i && least ≤ count) = true := by
            simp only [Bool.and_eq_true, decide_eq_true_eq]
            intro hstays
            have hcount := hfurther hstays.1
            omega
          rw [if_neg hgoes]
          refine ih hk hgo ?_
          by_cases hstays : k = i
          · have hcount := hfurther hstays
            omega
          · omega
      split
      · exact hreached
      · split
        · exact hgrow i g more hreached
        · exact hreached

end

/-- Wherever the expression matches, the matcher gets that far, if the continuation does and takes
nothing back. -/
theorem run_reaches (hn : n ≤ s.chars.size) (hi : i ≤ s.chars.size)
    (hgrow : ∀ k g f, Reached n f → Reached n (go k g f)) (h : r.Matches s i g j g')
    (hgo : ∀ f, Reached n (go j g' f)) : Reached n (r.run s i g go f) := by
  induction r generalizing i g j g' go f with
  | nothing =>
      obtain ⟨rfl, rfl⟩ := h
      exact hgo f
  | group number r ih =>
      obtain ⟨inside, hinside, rfl⟩ := h
      exact ih hi (fun k g f hf => hgrow k _ f hf) hinside hgo
  | again number =>
      obtain ⟨first, last, hgroup, hrecurs, rfl, rfl⟩ := h
      unfold run
      simp only [hgroup]
      split
      · exact hgo f
      · next hthere =>
          refine absurd (List.all_eq_true.mpr fun n hn => ?_) hthere
          obtain ⟨a, b, ha, hb, hsame⟩ := hrecurs n (List.mem_range.mp hn)
          rw [ha, hb]
          exact hsame
  | both first second ihFirst ihSecond =>
      obtain ⟨k, between, hfirst, hsecond⟩ := h
      have hk := hfirst.le.2 hi
      refine ihFirst hi (fun k g f hf => ?_) hfirst fun f => ihSecond hk hgrow hsecond hgo
      exact run_induct (fun j g' f _ hf => hgrow j g' f hf) hf
  | either first second ihFirst ihSecond =>
      have hkeep : ∀ f, Reached n f → Reached n (second.run s i g go f) :=
        fun f hf => run_induct (fun j g' f _ hf => hgrow j g' f hf) hf
      unfold run
      dsimp only
      split
      · next hbest => exact reached_of_isBest hn hbest
      · rcases h with hfirst | hsecond
        · exact hkeep _ (ihFirst hi hgrow hfirst hgo)
        · exact ihSecond hi hgrow hsecond hgo
  | repeated least most? r ih =>
      unfold run
      split
      · next isIn hsingle =>
          obtain ⟨rfl, hlow, hstop⟩ := (rounds_single_iff_runEnd hsingle).mp h
          dsimp only
          rw [if_neg (by omega)]
          exact fromLast_reaches hn (fun k f hf => hgrow k _ f hf) hlow (by omega) hgo
      · refine loop_reaches hn (fun i g j g' h => h.le) (fun i g go f hgo hf => ?_)
          (fun i g go f j g' hi hgrow h hgo => ih hi hgrow h hgo) hgrow hi h hgo (by omega)
        exact run_induct (fun j g' f _ hf => hgo j g' f hf) hf
  | _ =>
      obtain ⟨hholds, rfl, rfl⟩ := h
      unfold run
      rw [if_pos (by simpa using hholds)]
      exact hgo f

variable {isAllowed : Nat → Nat → Bool} {start stop count : Nat} {m : Match}

theorem keepLonger_cases (isAllowed : Nat → Nat → Bool) (start stop : Nat) (g : Groups)
    (f : Found) : keepLonger isAllowed start stop g f = f ∨
      (isAllowed start stop = true ∧ keepLonger isAllowed start stop g f = some (stop, g)) := by
  unfold keepLonger
  cases isAllowed start stop with
  | false => exact .inl rfl
  | true =>
      cases f with
      | none => exact .inr ⟨rfl, rfl⟩
      | some found =>
          by_cases hlonger : found.1 < stop
          · exact .inr ⟨rfl, if_pos hlonger⟩
          · exact .inl (if_neg hlonger)

theorem reached_keepLonger (h : Reached n f) : Reached n (keepLonger isAllowed start stop g f) := by
  obtain ⟨best, groups, rfl, hbest⟩ := h
  unfold keepLonger
  split
  · exact ⟨best, groups, rfl, hbest⟩
  · dsimp only
    split
    · exact ⟨stop, g, rfl, by omega⟩
    · exact ⟨best, groups, rfl, hbest⟩

theorem reached_keepLonger_self (hallowed : isAllowed start stop = true) :
    Reached stop (keepLonger isAllowed start stop g f) := by
  unfold keepLonger
  rw [hallowed]
  cases f with
  | none => exact ⟨stop, g, rfl, Nat.le_refl stop⟩
  | some found =>
      by_cases hlonger : found.1 < stop
      · exact ⟨stop, g, if_pos hlonger, Nat.le_refl stop⟩
      · exact ⟨found.1, found.2, if_neg hlonger, by omega⟩

theorem matchAt?_sound (h : matchAt? s r isAllowed start = some m) :
    m.start = start ∧ isAllowed start m.stop = true ∧ r.Matches s start [] m.stop m.groups := by
  have hfound : ∀ stop groups,
      r.run s start [] (keepLonger isAllowed start) none = some (stop, groups) →
        isAllowed start stop = true ∧ r.Matches s start [] stop groups := by
    refine run_induct (P := fun f => ∀ stop groups, f = some (stop, groups) →
      isAllowed start stop = true ∧ r.Matches s start [] stop groups) ?_ nofun
    intro j g' f hmatches hf stop groups hkept
    rcases keepLonger_cases isAllowed start j g' f with hsame | ⟨hallowed, hnew⟩
    · exact hf stop groups (hsame ▸ hkept)
    · cases hnew.symm.trans hkept
      exact ⟨hallowed, hmatches⟩
  obtain ⟨⟨stop, groups⟩, hrun, rfl⟩ := Option.map_eq_some_iff.mp h
  exact ⟨rfl, hfound stop groups hrun⟩

theorem matchAt?_longest (hstart : start ≤ s.chars.size) (h : r.Matches s start [] stop g)
    (hallowed : isAllowed start stop = true) :
    ∃ m, matchAt? s r isAllowed start = some m ∧ stop ≤ m.stop := by
  have hreached : Reached stop (r.run s start [] (keepLonger isAllowed start) none) :=
    run_reaches (h.le.2 hstart) hstart (fun _ _ _ hf => reached_keepLonger hf) h
      fun _ => reached_keepLonger_self hallowed
  obtain ⟨last, groups, hrun, hlast⟩ := hreached
  exact ⟨⟨start, last, groups⟩, congrArg (Option.map _) hrun, hlast⟩

variable (r isAllowed) in
theorem find?_cases (hstart : start ≤ s.chars.size) (hcount : s.chars.size - start < count) :
    (find? s r isAllowed count start = none ∧
      ∀ k, start ≤ k → k < s.chars.size + 1 → matchAt? s r isAllowed k = none) ∨
    ∃ m, find? s r isAllowed count start = some m ∧ start ≤ m.start ∧ m.start ≤ s.chars.size ∧
      matchAt? s r isAllowed m.start = some m ∧
      ∀ k, start ≤ k → k < m.start → matchAt? s r isAllowed k = none := by
  induction count generalizing start with
  | zero => omega
  | succ count ih =>
      unfold find?
      cases hfirst : matchAt? s r isAllowed start with
      | some m =>
          obtain ⟨hm, -⟩ := matchAt?_sound hfirst
          exact .inr ⟨m, rfl, by omega, by omega, hm ▸ hfirst, fun k hle hlt => by omega⟩
      | none =>
          dsimp only
          split
          · next hlt =>
              rcases ih hlt (by omega) with ⟨hnone, hrest⟩ | ⟨m, hm, hle, hsize, hmatch, hrest⟩
              · exact .inl ⟨hnone, (forall_from_iff (by omega)).mpr ⟨hfirst, hrest⟩⟩
              · refine .inr ⟨m, hm, by omega, hsize, hmatch, ?_⟩
                exact (forall_from_iff (by omega)).mpr ⟨hfirst, hrest⟩
          · refine .inl ⟨rfl, fun k hk hsize => ?_⟩
            obtain rfl : k = start := by omega
            exact hfirst

/-- A search finds a match that is allowed. None begins before it, and none that begins with it is
longer. -/
theorem searchWhere_eq_some (h : searchWhere s r isAllowed start = some m) :
    start ≤ m.start ∧ m.start ≤ s.chars.size ∧ isAllowed m.start m.stop = true ∧
      r.Matches s m.start [] m.stop m.groups ∧
      ∀ k stop g, start ≤ k → k ≤ s.chars.size → r.Matches s k [] stop g →
        isAllowed k stop = true → m.start ≤ k ∧ (k = m.start → stop ≤ m.stop) := by
  unfold searchWhere at h
  split at h
  · cases h
  · next hstart =>
    rcases find?_cases r isAllowed (Nat.not_lt.mp hstart) (Nat.lt_succ_self _) with
      ⟨hnone, -⟩ | ⟨m', hm, hle, hsize, hmatch, hbefore⟩
    · cases hnone.symm.trans h
    · obtain rfl := Option.some.inj (hm.symm.trans h)
      obtain ⟨-, hallowed, hmatches⟩ := matchAt?_sound hmatch
      refine ⟨hle, hsize, hallowed, hmatches, fun k stop g hk hksize hother hok => ⟨?_, ?_⟩⟩
      · rcases Nat.lt_or_ge k m'.start with hlt | hge
        · obtain ⟨m, hm, -⟩ := matchAt?_longest hksize hother hok
          cases hm.symm.trans (hbefore k hk hlt)
        · exact hge
      · rintro rfl
        obtain ⟨m, hm, hstop⟩ := matchAt?_longest hksize hother hok
        obtain rfl := Option.some.inj (hm.symm.trans hmatch)
        exact hstop

/-- Only where there is no match that is allowed, none is found. -/
theorem searchWhere_eq_none (hstart : start ≤ s.chars.size) :
    searchWhere s r isAllowed start = none ↔ ∀ k stop g, start ≤ k → k ≤ s.chars.size →
      r.Matches s k [] stop g → isAllowed k stop = false := by
  constructor
  · intro h k stop g hk hksize hmatches
    unfold searchWhere at h
    rw [if_neg (by omega)] at h
    rcases find?_cases r isAllowed hstart (Nat.lt_succ_self _) with ⟨-, hrest⟩ | ⟨m, hm, -⟩
    · cases hallowed : isAllowed k stop with
      | false => rfl
      | true =>
          obtain ⟨m, hm, -⟩ := matchAt?_longest hksize hmatches hallowed
          cases hm.symm.trans (hrest k hk (Nat.lt_succ_of_le hksize))
    · cases hm.symm.trans h
  · intro h
    cases hsearch : searchWhere s r isAllowed start with
    | none => rfl
    | some m =>
        obtain ⟨hle, hsize, hallowed, hmatches, -⟩ := searchWhere_eq_some hsearch
        rw [h m.start m.stop m.groups hle hsize hmatches] at hallowed
        cases hallowed

end Bytelink.Script.Regex
