import Bytelink.Host.Token
import Mathlib.Data.List.Induction

/-!
# Families of tokens

A run makes tokens, copies them and sets flags, in any order. Here a token is known by its number
only, so which tokens belong together is read off the steps: `Runs` notes for every token whether
it is fresh or which token it is a copy of, and `Descends` follows the copies back to a fresh token.
The flags of a run are right in every state that it reaches (`Runs.sound`): a copy is the token it
was made of, two fresh tokens are different, and a flag is set if a token of it was cancelled.

`token_families` is the law. A token is triggered when a token of its family has been cancelled,
before or after the two were copied, and nothing else triggers it or takes this back.
-/
namespace Bytelink

namespace Tokens

def run (steps : List TokenStep) : Tokens := steps.foldl step none

/-- A run in which every step names a token that has been made, with the origin of each token in the
order of their making: none if it is fresh, and else the token that was copied. -/
inductive Runs : List TokenStep → List (Option Nat) → Prop
  | start : Runs [] []
  | fresh {steps : List TokenStep} {made : List (Option Nat)} :
      Runs steps made → Runs (steps ++ [.fresh]) (made ++ [Option.none])
  | copy {steps : List TokenStep} {made : List (Option Nat)} {of : Nat} :
      Runs steps made → of < made.length → Runs (steps ++ [.copy of]) (made ++ [some of])
  | cancel {steps : List TokenStep} {made : List (Option Nat)} {of : Nat} :
      Runs steps made → of < made.length → Runs (steps ++ [.cancel of]) made

/-- A token descends from a fresh one through copies of copies. -/
inductive Descends (made : List (Option Nat)) (root : Nat) : Nat → Prop
  | fresh : made[root]? = some Option.none → Descends made root root
  | copy {token of : Nat} : made[token]? = some (some of) → Descends made root of →
      Descends made root token

/-- Two tokens descend from the same fresh token. -/
def Kin (made : List (Option Nat)) (a b : Nat) : Prop :=
  ∃ root, Descends made root a ∧ Descends made root b

variable {s : Tokens} {steps more : List TokenStep} {made : List (Option Nat)} {of token root : Nat}

theorem Descends.root_fresh (h : Descends made root token) : made[root]? = some Option.none := by
  induction h with
  | fresh hroot => exact hroot
  | copy _ _ ih => exact ih

/-- The tokens of a state are what their origins make of them: a copy is the token it was made of,
and fresh tokens differ. -/
structure Traced (made : List (Option Nat)) (s : Tokens) : Prop where
  length : s.handles.length = made.length
  earlier : ∀ token of : Nat, made[token]? = some (some of) → of < token
  copied : ∀ token of : Nat, made[token]? = some (some of) → s.handles[token]? = s.handles[of]?
  apart : ∀ a b : Nat, made[a]? = some Option.none → made[b]? = some Option.none →
    s.handles[a]? = s.handles[b]? → a = b
  below : ∀ t ∈ s.handles, t.family < s.nextFamily

/-- Moreover the flags are set that the steps have set. -/
structure Sound (steps : List TokenStep) (made : List (Option Nat)) (s : Tokens) : Prop
    extends Traced made s where
  named : ∀ of, .cancel of ∈ steps → of < made.length
  flags : ∀ family, family ∈ s.triggered ↔
    ∃ of : Nat, .cancel of ∈ steps ∧ s.handles[of]? = some ⟨family⟩

theorem getElem?_concat_cases {α : Type} {l : List α} {a x : α} {i : Nat}
    (h : (l ++ [a])[i]? = some x) : i < l.length ∧ l[i]? = some x ∨ i = l.length ∧ x = a := by
  by_cases hlt : i < l.length
  · rw [List.getElem?_append_left hlt] at h
    exact Or.inl ⟨hlt, h⟩
  · have hle : i < (l ++ [a]).length := (List.getElem?_eq_some_iff.mp h).choose
    have hi : i = l.length := by
      rw [List.length_append, List.length_singleton] at hle
      omega
    subst hi
    rw [List.getElem?_concat_length] at h
    exact Or.inr ⟨rfl, (Option.some.inj h).symm⟩

/-- A token is made: a copy of one that there is, or one that has not been there. -/
theorem Traced.make (h : Traced made s) {t : Token} {origin : Option Nat} {next : Nat}
    (hcopy : ∀ of : Nat, origin = some of → s.handles[of]? = some t)
    (hfresh : origin = Option.none → t ∉ s.handles) (hnext : s.nextFamily ≤ next)
    (ht : t.family < next) :
    Traced (made ++ [origin]) { s with handles := s.handles ++ [t], nextFamily := next } := by
  have hlength := h.length
  have hold : ∀ i < made.length, (s.handles ++ [t])[i]? = s.handles[i]? := by
    intro i hi
    exact List.getElem?_append_left (hlength ▸ hi)
  have hnew : (s.handles ++ [t])[made.length]? = some t := by
    rw [← hlength, List.getElem?_concat_length]
  have hcopied : ∀ of : Nat, origin = some of → of < made.length := by
    intro of horigin
    have hof := (List.getElem?_eq_some_iff.mp (hcopy of horigin)).choose
    rwa [hlength] at hof
  constructor
  case length => simp [hlength]
  case earlier =>
    intro token of htoken
    rcases getElem?_concat_cases htoken with ⟨-, hbefore⟩ | ⟨rfl, horigin⟩
    · exact h.earlier token of hbefore
    · exact hcopied of horigin.symm
  case copied =>
    intro token of htoken
    show (s.handles ++ [t])[token]? = (s.handles ++ [t])[of]?
    rcases getElem?_concat_cases htoken with ⟨hlt, hbefore⟩ | ⟨rfl, horigin⟩
    · have hof := Nat.lt_trans (h.earlier token of hbefore) hlt
      rw [hold token hlt, hold of hof, h.copied token of hbefore]
    · rw [hnew, hold of (hcopied of horigin.symm), hcopy of horigin.symm]
  case apart =>
    -- A fresh token is none of those before it.
    have hdiffers : origin = Option.none → ∀ a < made.length,
        (s.handles ++ [t])[a]? ≠ (s.handles ++ [t])[made.length]? := by
      intro hnone a ha heq
      rw [hnew, hold a ha] at heq
      exact hfresh hnone (List.mem_of_getElem? heq)
    intro a b ha hb heq
    replace heq : (s.handles ++ [t])[a]? = (s.handles ++ [t])[b]? := heq
    rcases getElem?_concat_cases ha with ⟨hlt, hbefore⟩ | ⟨rfl, horigin⟩
    · rcases getElem?_concat_cases hb with ⟨hlt', hbefore'⟩ | ⟨rfl, horigin⟩
      · rw [hold a hlt, hold b hlt'] at heq
        exact h.apart a b hbefore hbefore' heq
      · exact absurd heq (hdiffers horigin.symm a hlt)
    · rcases getElem?_concat_cases hb with ⟨hlt', -⟩ | ⟨rfl, -⟩
      · exact absurd heq.symm (hdiffers horigin.symm b hlt')
      · rfl
  case below =>
    intro u hu
    rcases List.mem_append.mp hu with hu | hu
    · exact Nat.lt_of_lt_of_le (h.below u hu) hnext
    · rw [List.mem_singleton.mp hu]
      exact ht

namespace Sound

theorem start : Sound [] [] none := by
  constructor
  · constructor <;> simp [none]
  · simp
  · simp [none]

/-- A step that makes a token sets no flag. -/
theorem make (h : Sound steps made s) {t : Token} {origin : Option Nat} {next : Nat}
    {maker : TokenStep} (hmaker : ∀ of, maker ≠ .cancel of)
    (htraced : Traced (made ++ [origin])
      { s with handles := s.handles ++ [t], nextFamily := next }) :
    Sound (steps ++ [maker]) (made ++ [origin])
      { s with handles := s.handles ++ [t], nextFamily := next } := by
  have hmem : ∀ of, .cancel of ∈ steps ++ [maker] ↔ .cancel of ∈ steps := by
    intro of
    have hother : TokenStep.cancel of ≠ maker := (hmaker of).symm
    simp [hother]
  refine ⟨htraced, ?_, ?_⟩
  · intro of hof
    rw [List.length_append]
    exact Nat.lt_add_right 1 (h.named of ((hmem of).mp hof))
  · intro family
    rw [h.flags family]
    apply exists_congr
    intro of
    rw [hmem of]
    apply and_congr_right
    intro hcancel
    have hlt : of < s.handles.length := h.length ▸ h.named of hcancel
    rw [List.getElem?_append_left hlt]

theorem cancel (h : Sound steps made s) {t : Token} (hof : s.handles[of]? = some t) :
    Sound (steps ++ [.cancel of]) made (s.cancel t) := by
  refine ⟨⟨h.length, h.earlier, h.copied, h.apart, h.below⟩, ?_, ?_⟩
  · intro other hother
    rcases List.mem_append.mp hother with hbefore | hlast
    · exact h.named other hbefore
    · obtain rfl := TokenStep.cancel.inj (List.mem_singleton.mp hlast)
      rw [← h.length]
      exact (List.getElem?_eq_some_iff.mp hof).choose
  · intro family
    have hset : family ∈ (s.cancel t).triggered ↔ family = t.family ∨ family ∈ s.triggered :=
      List.mem_cons
    rw [hset, h.flags family]
    constructor
    · intro hfamily
      rcases hfamily with rfl | ⟨other, hother, hhandle⟩
      · exact ⟨of, by simp, hof⟩
      · exact ⟨other, by simp [hother], hhandle⟩
    · intro hcancelled
      obtain ⟨other, hother, hhandle⟩ := hcancelled
      rcases List.mem_append.mp hother with hbefore | hlast
      · exact Or.inr ⟨other, hbefore, hhandle⟩
      · obtain rfl := TokenStep.cancel.inj (List.mem_singleton.mp hlast)
        have hsame := hof.symm.trans hhandle
        exact Or.inl (congrArg Token.family (Option.some.inj hsame)).symm

end Sound

theorem run_concat (steps : List TokenStep) (last : TokenStep) :
    run (steps ++ [last]) = (run steps).step last := by
  rw [run, List.foldl_append]
  rfl

theorem Runs.sound (h : Runs steps made) : Sound steps made (run steps) := by
  induction h with
  | start => exact .start
  | fresh _ ih =>
      rw [run_concat]
      apply ih.make (by simp)
      apply ih.toTraced.make
      · simp
      · intro _ hmem
        exact absurd (ih.below _ hmem) (Nat.lt_irrefl _)
      · exact Nat.le_succ _
      · exact Nat.lt_succ_self _
  | @copy steps made of _ hof ih =>
      have hlt : of < (run steps).handles.length := ih.length ▸ hof
      have ht := List.getElem?_eq_getElem hlt
      rw [run_concat, step, ht]
      apply ih.make (by simp)
      apply ih.toTraced.make
      · intro other hother
        rw [← Option.some.inj hother]
        exact ht
      · simp
      · exact Nat.le_refl _
      · exact ih.below _ (List.getElem_mem hlt)
  | @cancel steps made of _ hof ih =>
      have hlt : of < (run steps).handles.length := ih.length ▸ hof
      have ht := List.getElem?_eq_getElem hlt
      rw [run_concat, step, ht]
      exact ih.cancel ht

theorem Runs.before_last {last : TokenStep} (h : Runs (steps ++ [last]) made) :
    ∃ earlier, Runs steps earlier ∧ earlier <+: made := by
  generalize hwhole : steps ++ [last] = whole at h
  cases h with
  | start => simp at hwhole
  | fresh hrun =>
      obtain ⟨rfl, -⟩ := List.append_inj' hwhole rfl
      exact ⟨_, hrun, List.prefix_append _ _⟩
  | copy hrun _ =>
      obtain ⟨rfl, -⟩ := List.append_inj' hwhole rfl
      exact ⟨_, hrun, List.prefix_append _ _⟩
  | cancel hrun _ =>
      obtain ⟨rfl, -⟩ := List.append_inj' hwhole rfl
      exact ⟨_, hrun, List.prefix_rfl⟩

theorem Runs.front (h : Runs (steps ++ more) made) :
    ∃ earlier, Runs steps earlier ∧ earlier <+: made := by
  induction more using List.reverseRecOn generalizing made with
  | nil =>
      rw [List.append_nil] at h
      exact ⟨made, h, List.prefix_rfl⟩
  | append_singleton more last ih =>
      rw [← List.append_assoc] at h
      obtain ⟨between, hbetween, hle⟩ := h.before_last
      obtain ⟨earlier, hearlier, hle'⟩ := ih hbetween
      exact ⟨earlier, hearlier, hle'.trans hle⟩

namespace Traced

theorem handle_root (h : Traced made s) (hd : Descends made root token) :
    s.handles[root]? = s.handles[token]? := by
  induction hd with
  | fresh _ => rfl
  | copy htoken _ ih => rw [h.copied _ _ htoken, ih]

theorem exists_root (h : Traced made s) (hlt : token < made.length) :
    ∃ root, Descends made root token := by
  -- By the number of the token, since a copy is made after what it is a copy of.
  induction token using Nat.strongRecOn with
  | ind token ih =>
      cases horigin : made[token] with
      | none =>
          have hfresh : made[token]? = some Option.none := by
            rw [List.getElem?_eq_getElem hlt, horigin]
          exact ⟨token, .fresh hfresh⟩
      | some of =>
          have hcopy : made[token]? = some (some of) := by
            rw [List.getElem?_eq_getElem hlt, horigin]
          have hof := h.earlier token of hcopy
          obtain ⟨root, hroot⟩ := ih of hof (Nat.lt_trans hof hlt)
          exact ⟨root, .copy hcopy hroot⟩

theorem root_unique (h : Traced made s) {other : Nat} (hroot : Descends made root token)
    (hother : Descends made other token) : root = other := by
  apply h.apart root other hroot.root_fresh hother.root_fresh
  rw [h.handle_root hroot, h.handle_root hother]

/-- Tokens of one family are the same, and others are not. -/
theorem kin_iff (h : Traced made s) {a b : Nat} (ha : a < made.length)
    (hb : b < made.length) : Kin made a b ↔ s.handles[a]? = s.handles[b]? := by
  constructor
  · intro hkin
    obtain ⟨root, hroota, hrootb⟩ := hkin
    rw [← h.handle_root hroota, h.handle_root hrootb]
  · intro heq
    obtain ⟨roota, hroota⟩ := h.exists_root ha
    obtain ⟨rootb, hrootb⟩ := h.exists_root hb
    have hsame : roota = rootb := by
      apply h.apart roota rootb hroota.root_fresh hrootb.root_fresh
      rw [h.handle_root hroota, heq, h.handle_root hrootb]
    exact ⟨roota, hroota, hsame ▸ hrootb⟩

end Traced

theorem getElem?_states (s : Tokens) (token : Nat) :
    s.states[token]? = (s.handles[token]?).map s.isCancelled :=
  List.getElem?_map

theorem states_eq_true_iff : s.states[token]? = some true ↔
    ∃ t, s.handles[token]? = some t ∧ t.family ∈ s.triggered := by
  simp [getElem?_states, isCancelled]

/-- A token is triggered when one of its family has been cancelled. -/
theorem Sound.triggered_iff (h : Sound steps made s) : s.states[token]? = some true ↔
    token < made.length ∧ ∃ of, .cancel of ∈ steps ∧ Kin made of token := by
  rw [states_eq_true_iff]
  constructor
  · intro htriggered
    obtain ⟨t, htoken, hset⟩ := htriggered
    have hlt := (List.getElem?_eq_some_iff.mp htoken).choose
    rw [h.length] at hlt
    obtain ⟨of, hcancel, hof⟩ := (h.flags t.family).mp hset
    exact ⟨hlt, of, hcancel, (h.kin_iff (h.named of hcancel) hlt).mpr (hof.trans htoken.symm)⟩
  · intro hcancelled
    obtain ⟨hlt, of, hcancel, hkin⟩ := hcancelled
    have hbound : token < s.handles.length := h.length ▸ hlt
    have htoken := List.getElem?_eq_getElem hbound
    have hof := ((h.kin_iff (h.named of hcancel) hlt).mp hkin).trans htoken
    exact ⟨_, htoken, (h.flags _).mpr ⟨of, hcancel, hof⟩⟩

theorem handles_prefix_step (s : Tokens) (next : TokenStep) :
    s.handles <+: (s.step next).handles := by
  cases next with
  | fresh => exact List.prefix_append _ _
  | copy of =>
      cases hof : s.handles[of]? with
      | none => simp [step, hof]
      | some t => simp [step, hof, Tokens.copy]
  | cancel of => cases hof : s.handles[of]? <;> simp [step, hof, Tokens.cancel]

/-- A step sets at most the flag of the token that it cancels. -/
theorem mem_triggered_step {next : TokenStep} {family : Nat} :
    family ∈ (s.step next).triggered ↔ family ∈ s.triggered ∨
      ∃ of : Nat, next = .cancel of ∧ s.handles[of]? = some ⟨family⟩ := by
  cases next with
  | fresh => simp [step, Tokens.fresh]
  | copy of => cases hof : s.handles[of]? <;> simp [step, hof, Tokens.copy]
  | cancel of =>
      cases hof : s.handles[of]? with
      | none => simp [step, hof]
      | some t =>
          have hfamily : t = ⟨family⟩ ↔ family = t.family :=
            ⟨fun h => (congrArg Token.family h).symm, fun h => h ▸ rfl⟩
          simp [step, hof, Tokens.cancel, hfamily, or_comm]

theorem handles_step (next : TokenStep) {t : Token} (h : s.handles[token]? = some t) :
    (s.step next).handles[token]? = some t := by
  obtain ⟨later, hlater⟩ := s.handles_prefix_step next
  have hlt := (List.getElem?_eq_some_iff.mp h).choose
  rw [← hlater, List.getElem?_append_left hlt]
  exact h

theorem states_step_of_true (next : TokenStep) (h : s.states[token]? = some true) :
    (s.step next).states[token]? = some true := by
  obtain ⟨t, htoken, hset⟩ := states_eq_true_iff.mp h
  exact states_eq_true_iff.mpr ⟨t, handles_step next htoken, mem_triggered_step.mpr (Or.inl hset)⟩

theorem states_run_append_of_true (more : List TokenStep)
    (h : (run steps).states[token]? = some true) :
    (run (steps ++ more)).states[token]? = some true := by
  induction more using List.reverseRecOn with
  | nil => rwa [List.append_nil]
  | append_singleton more last ih =>
      rw [← List.append_assoc, run_concat]
      exact states_step_of_true last ih

/-- A step leaves a token as it is unless it cancels one of its family. -/
theorem Sound.states_step (h : Sound steps made s) (hlt : token < made.length) {next : TokenStep}
    (hnext : ∀ of, next = .cancel of → ¬ Kin made of token) :
    (s.step next).states[token]? = s.states[token]? := by
  have hbound : token < s.handles.length := h.length ▸ hlt
  have htoken := List.getElem?_eq_getElem hbound
  have hsame : (s.step next).isCancelled s.handles[token] = s.isCancelled s.handles[token] := by
    rw [Bool.eq_iff_iff, isCancelled, isCancelled, List.contains_iff_mem, List.contains_iff_mem,
      mem_triggered_step]
    apply or_iff_left
    intro hcancel
    obtain ⟨of, hstep, hof⟩ := hcancel
    have hoflt := (List.getElem?_eq_some_iff.mp hof).choose
    rw [h.length] at hoflt
    exact hnext of hstep ((h.kin_iff hoflt hlt).mpr (hof.trans htoken.symm))
  rw [getElem?_states, getElem?_states, handles_step next htoken, htoken, Option.map_some,
    Option.map_some, hsame]

/-- The law of the families, for every run, and so after every step of it. Each token descends from
one fresh token. It is triggered if a token of the same family has been cancelled so far, and only
then; it stays triggered whatever comes; and a step that does not cancel a token of its family
leaves it as it is. -/
theorem token_families (h : Runs steps made) :
    (∀ front back, steps = front ++ back → ∃ earlier, Runs front earlier ∧ earlier <+: made) ∧
    (run steps).states.length = made.length ∧
    (∀ token < made.length, ∃ root, Descends made root token ∧
      ∀ other, Descends made other token → other = root) ∧
    (∀ token : Nat, (run steps).states[token]? = some true ↔
      token < made.length ∧ ∃ of, .cancel of ∈ steps ∧ Kin made of token) ∧
    (∀ (token : Nat) (more : List TokenStep), (run steps).states[token]? = some true →
      (run (steps ++ more)).states[token]? = some true) ∧
    ∀ token < made.length, ∀ next, (∀ of, next = .cancel of → ¬ Kin made of token) →
      (run (steps ++ [next])).states[token]? = (run steps).states[token]? := by
  have hsound := h.sound
  refine ⟨?_, ?_, ?_, ?_, ?_, ?_⟩
  · intro front back hsplit
    subst hsplit
    exact h.front
  · rw [states, List.length_map, hsound.length]
  · intro token hlt
    obtain ⟨root, hroot⟩ := hsound.exists_root hlt
    exact ⟨root, hroot, fun other hother => hsound.root_unique hother hroot⟩
  · intro token
    exact hsound.triggered_iff
  · intro token more htriggered
    exact states_run_append_of_true more htriggered
  · intro token hlt next hnext
    rw [run_concat]
    exact hsound.states_step hlt hnext

/-- Two families of which one is cancelled through a copy, and a copy that is made of its fresh
token afterwards. -/
theorem families_of_late_copy :
    let steps : List TokenStep := [.fresh, .copy 0, .fresh, .cancel 1, .copy 0, .copy 2]
    let made : List (Option Nat) := [Option.none, some 0, Option.none, some 0, some 2]
    Runs steps made ∧ (run steps).states = [true, true, false, true, false] ∧
      (Kin made 1 3 ∧ (run steps).states[3]? = some true) ∧
      (∀ of, .cancel of ∈ steps → ¬ Kin made of 4) := by
  intro steps made
  have hone : Runs [.fresh] [Option.none] := Runs.fresh .start
  have htwo : Runs [.fresh, .copy 0] [Option.none, some 0] := Runs.copy hone (by decide)
  have hthree : Runs [.fresh, .copy 0, .fresh] [Option.none, some 0, Option.none] :=
    Runs.fresh htwo
  have hfour : Runs [.fresh, .copy 0, .fresh, .cancel 1] [Option.none, some 0, Option.none] :=
    Runs.cancel hthree (by decide)
  have hfive : Runs [.fresh, .copy 0, .fresh, .cancel 1, .copy 0]
      [Option.none, some 0, Option.none, some 0] := Runs.copy hfour (by decide)
  have hrun : Runs steps made := Runs.copy hfive (by decide)
  have hfresh : Descends made 0 0 := .fresh rfl
  have hkin : Kin made 1 3 := ⟨0, .copy rfl hfresh, .copy rfl hfresh⟩
  obtain ⟨-, -, -, hiff, -, -⟩ := token_families hrun
  refine ⟨hrun, by decide, ⟨hkin, ?_⟩, ?_⟩
  · exact (hiff 3).mpr ⟨by decide, 1, by decide, hkin⟩
  · intro of hcancel hkinOf
    have htriggered := (hiff 4).mpr ⟨by decide, of, hcancel, hkinOf⟩
    exact absurd htriggered (by decide)

end Tokens
end Bytelink
