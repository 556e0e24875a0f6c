import Bytelink.Host.Script.Sorting
import Bytelink.Proofs.Preparing

/-!
# Sorted lines

Ways to compare are put together from simple ones: a line is compared by what is seen of it, by one
thing and then by another, or the other way round. All of these keep an order an order (`Lawful`),
and so does what `sort` makes of its keys, versions and numbers in floating point excepted, which
are not looked at here. The lines that come out are those that went in, in this order
(`ordered_perm`, `ordered_pairwise`), and the program would find no fault with them
(`disorder?_ordered`).
-/
namespace Bytelink.Script.Sorting

variable {α β : Type} {f g : α → α → Int} {a b c : α}

/-- A way to compare that is an order: what comes before something is less than it or equal, and the
other way round. -/
structure Lawful (f : α → α → Int) : Prop where
  swap : ∀ a b, f b a = -f a b
  trans : ∀ a b c, f a b ≤ 0 → f b c ≤ 0 → f a c ≤ 0

namespace Lawful

theorem total (hf : Lawful f) (a b : α) : f a b ≤ 0 ∨ f b a ≤ 0 := by
  have hswap := hf.swap a b
  omega

theorem eq_zero (hf : Lawful f) (hab : f a b = 0) (hbc : f b c = 0) : f a c = 0 := by
  have hforth := hf.trans a b c (by omega) (by omega)
  have hback := hf.trans c b a (by rw [hf.swap b c]; omega) (by rw [hf.swap a b]; omega)
  rw [hf.swap a c] at hback
  omega

theorem lt_of_lt (hf : Lawful f) (hab : f a b < 0) (hbc : f b c ≤ 0) : f a c < 0 := by
  have hle := hf.trans a b c (by omega) hbc
  by_contra hlt
  have hback := hf.trans b c a hbc (by rw [hf.swap a c]; omega)
  rw [hf.swap a b] at hback
  omega

theorem lt_of_le (hf : Lawful f) (hab : f a b ≤ 0) (hbc : f b c < 0) : f a c < 0 := by
  have hle := hf.trans a b c hab (by omega)
  by_contra hlt
  have hback := hf.trans c a b (by rw [hf.swap a c]; omega) hab
  rw [hf.swap b c] at hback
  omega

theorem comap (hf : Lawful f) (seen : β → α) : Lawful fun a b => f (seen a) (seen b) where
  swap _ _ := hf.swap _ _
  trans _ _ _ := hf.trans _ _ _

theorem reverse (hf : Lawful f) : Lawful fun a b => -f a b where
  swap a b := by rw [hf.swap a b]
  trans a b c hab hbc := by
    have hca := hf.trans c b a (by rw [hf.swap b c]; omega) (by rw [hf.swap a b]; omega)
    rw [hf.swap a c] at hca
    omega

/-- What is equal in one way is compared in another. -/
theorem thenBy (hf : Lawful f) (hg : Lawful g) :
    Lawful fun a b => if f a b ≠ 0 then f a b else g a b where
  swap a b := by
    have hf' := hf.swap a b
    have hg' := hg.swap a b
    split <;> split <;> omega
  trans a b c hab hbc := by
    by_cases hfab : f a b = 0
    · by_cases hfbc : f b c = 0
      · have hfac := hf.eq_zero hfab hfbc
        simp only [hfab, hfbc, hfac, ne_eq, not_true_eq_false, if_false] at hab hbc ⊢
        exact hg.trans a b c hab hbc
      · rw [if_pos hfbc] at hbc
        have hfac := hf.lt_of_le (a := a) (b := b) (by omega) (by omega : f b c < 0)
        rw [if_pos (by omega)]
        omega
    · rw [if_pos hfab] at hab
      have hle : f b c ≤ 0 := by
        split at hbc <;> omega
      have hfac := hf.lt_of_lt (by omega : f a b < 0) hle
      rw [if_pos (by omega)]
      omega

theorem ofKey (key : α → Int) : Lawful fun a b => key a - key b where
  swap a b := by omega
  trans a b c := by omega

/-- Negative ones come first, and are compared the other way round. -/
theorem signed (hf : Lawful f) (isNegative : α → Bool) :
    Lawful fun a b => if isNegative a != isNegative b then if isNegative a then -1 else 1
      else if isNegative a then -f a b else f a b where
  swap a b := by
    have hswap := hf.swap a b
    cases isNegative a <;> cases isNegative b <;> simp [hswap]
  trans a b c := by
    have hforth := hf.trans a b c
    have hback := hf.reverse.trans a b c
    cases isNegative a <;> cases isNegative b <;> cases isNegative c <;> simp <;> omega

end Lawful

theorem lawful_compareTexts : Lawful compareTexts where
  swap a b := by
    unfold compareTexts
    by_cases hab : a = b
    · simp [hab]
    · have htotal := Text.le_total a b
      have hanti := Text.le_antisymm a b
      simp only [hab, Ne.symm hab, if_false]
      cases hle : Text.le a b <;> cases hge : Text.le b a <;> simp_all
  trans a b c := by
    have hle : ∀ s t, compareTexts s t ≤ 0 ↔ Text.le s t = true := by
      intro s t
      unfold compareTexts
      by_cases hst : s = t
      · have hself := Text.le_total t t
        simp_all
      · cases Text.le s t <;> simp [hst]
    rw [hle, hle, hle]
    exact Text.le_trans a b c

theorem lawful_compareNats : Lawful compareNats where
  swap a b := by
    unfold compareNats
    split <;> split <;> omega
  trans a b c := by
    unfold compareNats
    split <;> split <;> omega

theorem lawful_sizes : Lawful fun a b : Nat × Text =>
    if a.1 = b.1 then compareTexts a.2 b.2 else compareNats a.1 b.1 := by
  have hlex := (lawful_compareNats.comap Prod.fst).thenBy (lawful_compareTexts.comap Prod.snd)
  have hsame : (fun a b : Nat × Text =>
      if a.1 = b.1 then compareTexts a.2 b.2 else compareNats a.1 b.1) = fun a b =>
        if compareNats a.1 b.1 ≠ 0 then compareNats a.1 b.1 else compareTexts a.2 b.2 := by
    funext a b
    have hnats : compareNats a.1 b.1 = 0 ↔ a.1 = b.1 := by
      unfold compareNats
      split
      · omega
      · split <;> omega
    by_cases h : a.1 = b.1
    · rw [if_pos h, if_neg (not_not.mpr (hnats.mpr h))]
    · rw [if_neg h, if_pos (mt hnats.mp h)]
  rw [hsame]
  exact hlex

/-- What counts of a number: whether it is less than zero, its whole part and its fraction. -/
def numberSeen (t : Text) : Bool × Nat × Text :=
  let n := leadingDecimal t
  (n.1 && !(n.2.1 == 0 && n.2.2.1.isEmpty), n.2.1, n.2.2.1)

theorem lawful_compareNumbers : Lawful compareNumbers :=
  ((lawful_sizes.comap Prod.snd).signed Prod.fst).comap numberSeen

/-- The key is compared in a way that is an order: neither as a version nor in floating point. -/
def Ordering.IsPlain (o : Ordering) : Prop := o.isGeneral = false ∧ o.isVersion = false

theorem lawful_compareHuman : Lawful fun a b : Text =>
    let rank := unitRank a - unitRank b
    if rank = 0 then compareNumbers a b else rank := by
  have hlex := (Lawful.ofKey unitRank).thenBy lawful_compareNumbers
  simpa only [ne_eq, ite_not] using hlex

theorem Ordering.lawful_forward {o : Ordering} (h : o.IsPlain) (hforward : o.isReversed = false) :
    Lawful o.compare := by
  obtain ⟨isNumeric, isGeneral, isHuman, isVersion, isMonth, ignoresCase, isDictionary,
    onlyPrintable, isReversed⟩ := o
  obtain ⟨rfl, rfl⟩ := h
  obtain rfl := hforward
  cases isNumeric with
  | true => exact lawful_compareNumbers
  | false =>
      cases isHuman with
      | true => exact lawful_compareHuman
      | false =>
          cases isMonth with
          | true => exact lawful_compareNats.comap monthRank
          | false => exact lawful_compareTexts.comap (Ordering.seen _)

theorem Ordering.IsPlain.lawful {o : Ordering} (h : o.IsPlain) : Lawful o.compare := by
  have hforward := Ordering.lawful_forward (o := { o with isReversed := false }) h rfl
  cases hreversed : o.isReversed with
  | false => exact Ordering.lawful_forward h hreversed
  | true =>
      have hsame : o.compare =
          fun a b => -({ o with isReversed := false } : Ordering).compare a b := by
        funext a b
        unfold Ordering.compare
        rw [hreversed]
        rfl
      rw [hsame]
      exact hforward.reverse

/-- The first key in which two lines differ decides. -/
theorem lawful_foldl {compare : β → α → α → Int} {keys : List β} (hf : Lawful f)
    (h : ∀ k ∈ keys, Lawful (compare k)) :
    Lawful fun a b => keys.foldl (fun result k => if result ≠ 0 then result else compare k a b)
      (f a b) := by
  induction keys generalizing f with
  | nil => exact hf
  | cons k keys ih =>
      exact ih (hf.thenBy (h k List.mem_cons_self)) fun k' hk => h k' (List.mem_cons_of_mem k hk)

/-- All keys are compared in ways that are orders. -/
def Plan.IsPlain (p : Plan) : Prop := ∀ k ∈ p.keys, k.order.IsPlain

variable {p : Plan} {j : Job} {lists : List (List Text)} {lines : List Text}

theorem Plan.IsPlain.lawful_keys (h : p.IsPlain) : Lawful p.compareKeys := by
  have hzero : Lawful fun _ _ : Text => (0 : Int) := ⟨by simp, by simp⟩
  exact lawful_foldl hzero fun k hk => (h k hk).lawful.comap (k.part p.mark?)

theorem Plan.IsPlain.lawful (h : p.IsPlain) : Lawful p.compare := by
  have hkeys := h.lawful_keys
  have htexts : Lawful fun a b => if p.isReversed then -compareTexts a b else compareTexts a b := by
    cases p.isReversed with
    | false => exact lawful_compareTexts
    | true => exact lawful_compareTexts.reverse
  cases hstable : p.isStable && !p.keys.isEmpty with
  | true =>
      have hsame : p.compare = p.compareKeys := by
        funext a b
        simp only [Plan.compare, hstable, Bool.or_true, if_true]
      rw [hsame]
      exact hkeys
  | false =>
      have hsame : p.compare = fun a b => if p.compareKeys a b ≠ 0 then p.compareKeys a b
          else if p.isReversed then -compareTexts a b else compareTexts a b := by
        funext a b
        simp only [Plan.compare, hstable, Bool.or_false, decide_eq_true_eq]
      rw [hsame]
      exact hkeys.thenBy htexts

theorem isOrdered_trans (h : p.IsPlain) (a b c : Text) (hab : p.isOrdered a b = true)
    (hbc : p.isOrdered b c = true) : p.isOrdered a c = true := by
  simp only [Plan.isOrdered, decide_eq_true_eq] at hab hbc ⊢
  exact h.lawful.trans a b c hab hbc

theorem isOrdered_total (h : p.IsPlain) (a b : Text) :
    (p.isOrdered a b || p.isOrdered b a) = true := by
  simpa [Plan.isOrdered] using h.lawful.total a b

theorem merged_perm (lists : List (List Text)) (lines : List Text) :
    (lists.foldl (fun a b => List.merge a b p.isOrdered) lines).Perm (lines ++ lists.flatten) := by
  induction lists generalizing lines with
  | nil => simp
  | cons first lists ih =>
      rw [List.foldl_cons, List.flatten_cons, ← List.append_assoc]
      exact (ih _).trans ((List.merge_perm_append _).append_right _)

/-- Without the wish for lines that differ, no line is lost and none is added. -/
theorem ordered_perm (hunique : j.isUnique = false) : (j.ordered lists).Perm lists.flatten := by
  simp only [Job.ordered, hunique, Bool.false_eq_true, if_false]
  split
  · exact merged_perm lists []
  · exact List.mergeSort_perm _ _

theorem merged_pairwise (h : p.IsPlain)
    (hlists : ∀ l ∈ lists, l.Pairwise fun a b => p.isOrdered a b = true)
    (hlines : lines.Pairwise fun a b => p.isOrdered a b = true) :
    (lists.foldl (fun a b => List.merge a b p.isOrdered) lines).Pairwise
      fun a b => p.isOrdered a b = true := by
  induction lists generalizing lines with
  | nil => exact hlines
  | cons first lists ih =>
      apply ih
      · exact fun l hl => hlists l (List.mem_cons_of_mem first hl)
      · exact List.pairwise_merge (isOrdered_trans h) (isOrdered_total h) lines first hlines
          (hlists first List.mem_cons_self)

/-- Where lines have to differ, no line may be equal to the next. -/
def Plan.InOrder (p : Plan) (isStrict : Bool) (a b : Text) : Prop :=
  if isStrict then p.compare a b < 0 else p.compare a b ≤ 0

theorem Plan.InOrder.trans {isStrict : Bool} {a b c : Text} (h : p.IsPlain)
    (hab : p.InOrder isStrict a b) (hbc : p.InOrder isStrict b c) : p.InOrder isStrict a c := by
  cases isStrict with
  | false => exact h.lawful.trans a b c hab hbc
  | true => exact h.lawful.lt_of_lt hab (Int.le_of_lt hbc)

theorem withoutRepeats_cons (last : Text) (done lines : List Text) :
    withoutRepeats p (last :: done) lines = done.reverse ++ withoutRepeats p [last] lines := by
  induction lines generalizing last done with
  | nil => simp [withoutRepeats]
  | cons line lines ih =>
      simp only [withoutRepeats]
      split
      · exact ih last done
      · rw [ih line (last :: done), ih line [last]]
        simp

theorem mem_of_mem_withoutRepeats {last line : Text}
    (h : line ∈ withoutRepeats p [last] lines) : line = last ∨ line ∈ lines := by
  induction lines generalizing last with
  | nil => simpa [withoutRepeats] using h
  | cons next lines ih =>
      simp only [withoutRepeats] at h
      split at h
      · exact (ih h).imp_right (List.mem_cons_of_mem next)
      · rw [withoutRepeats_cons] at h
        rcases List.mem_append.mp h with h | h
        · exact .inl (by simpa using h)
        · rcases ih h with rfl | h
          · exact .inr List.mem_cons_self
          · exact .inr (List.mem_cons_of_mem next h)

theorem withoutRepeats_pairwise (h : p.IsPlain) {last : Text}
    (hlines : (last :: lines).Pairwise (p.InOrder false)) :
    (withoutRepeats p [last] lines).Pairwise (p.InOrder true) := by
  induction lines generalizing last with
  | nil => simp [withoutRepeats]
  | cons next lines ih =>
      obtain ⟨hlast, hrest⟩ := List.pairwise_cons.mp hlines
      simp only [withoutRepeats]
      split
      · exact ih (List.pairwise_cons.mpr ⟨fun line hline =>
          hlast line (List.mem_cons_of_mem next hline), (List.pairwise_cons.mp hrest).2⟩)
      · next hdiffers =>
          have hle : p.compare last next ≤ 0 := hlast next List.mem_cons_self
          have hlt : p.compare last next < 0 := by omega
          rw [withoutRepeats_cons]
          refine List.pairwise_cons.mpr ⟨fun line hline => ?_, ih hrest⟩
          rcases mem_of_mem_withoutRepeats hline with rfl | hline
          · exact hlt
          · exact h.lawful.lt_of_lt hlt ((List.pairwise_cons.mp hrest).1 line hline)

/-- The lines come out in order. Inputs that are only merged have to be in order. -/
theorem ordered_pairwise (h : j.plan.IsPlain)
    (hlists : j.merges = true → ∀ l ∈ lists, l.Pairwise (j.plan.InOrder false)) :
    (j.ordered lists).Pairwise (j.plan.InOrder j.isUnique) := by
  have hordered : ∀ a b, j.plan.isOrdered a b = true ↔ j.plan.InOrder false a b := by
    intro a b
    simp [Plan.isOrdered, Plan.InOrder]
  have hlines : (if j.merges then lists.foldl (fun a b => List.merge a b j.plan.isOrdered) []
      else lists.flatten.mergeSort j.plan.isOrdered).Pairwise (j.plan.InOrder false) := by
    split
    · next hmerges =>
        refine (merged_pairwise h (fun l hl => ?_) .nil).imp fun hab => (hordered _ _).mp hab
        exact (hlists hmerges l hl).imp fun hab => (hordered _ _).mpr hab
    · refine (List.pairwise_mergeSort (isOrdered_trans h) (isOrdered_total h) _).imp ?_
      exact fun hab => (hordered _ _).mp hab
  unfold Job.ordered
  dsimp only
  generalize (if j.merges then lists.foldl (fun a b => List.merge a b j.plan.isOrdered) []
    else lists.flatten.mergeSort j.plan.isOrdered) = lines at hlines ⊢
  cases hunique : j.isUnique with
  | false => exact hlines
  | true =>
      cases lines with
      | nil => exact .nil
      | cons first lines => exact withoutRepeats_pairwise h hlines

/-- To check an order is to look at neighbours only. -/
theorem disorder?_eq_none_iff (h : p.IsPlain) (isStrict : Bool) (n : Nat) :
    disorder? p isStrict n lines = none ↔ lines.Pairwise (p.InOrder isStrict) := by
  induction lines generalizing n with
  | nil => simp [disorder?]
  | cons a lines ih =>
      cases lines with
      | nil => simp [disorder?]
      | cons b lines =>
          have hfirst : (0 < p.compare a b || (isStrict && p.compare a b = 0)) = false ↔
              p.InOrder isStrict a b := by
            unfold Plan.InOrder
            cases isStrict with
            | false => simp
            | true =>
                simp only [Bool.true_and, if_true, Bool.or_eq_false_iff, decide_eq_false_iff_not]
                omega
          have hpairwise : (a :: b :: lines).Pairwise (p.InOrder isStrict) ↔
              p.InOrder isStrict a b ∧ (b :: lines).Pairwise (p.InOrder isStrict) := by
            constructor
            · intro hall
              obtain ⟨hfirst, hrest⟩ := List.pairwise_cons.mp hall
              exact ⟨hfirst b List.mem_cons_self, hrest⟩
            · intro hboth
              obtain ⟨hab, hrest⟩ := hboth
              refine List.pairwise_cons.mpr ⟨fun line hline => ?_, hrest⟩
              rcases List.mem_cons.mp hline with rfl | hline
              · exact hab
              · exact hab.trans h ((List.pairwise_cons.mp hrest).1 line hline)
          rw [hpairwise, ← hfirst, ← ih (n + 1)]
          simp only [disorder?]
          split
          · next hwrong => simp [hwrong]
          · next hright =>
              rw [Bool.not_eq_true] at hright
              simp [hright]

/-- A check finds no fault with the output. -/
theorem disorder?_ordered (h : j.plan.IsPlain) (n : Nat)
    (hlists : j.merges = true → ∀ l ∈ lists, l.Pairwise (j.plan.InOrder false)) :
    disorder? j.plan j.isUnique n (j.ordered lists) = none :=
  (disorder?_eq_none_iff h j.isUnique n).mpr (ordered_pairwise h hlists)

end Bytelink.Script.Sorting
