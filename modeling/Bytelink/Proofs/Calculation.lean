import Bytelink.Host.Script.Arithmetic
import Bytelink.Proofs.Seams

/-!
# Variables and arithmetic of scripts

A variable has the value that it was given last, whatever becomes of the others. What an expression
stores in a variable is the number that it finds there later (`lookup_store`). What does not decide
the value of an expression has no effect on the shell (`expression_dead`), and no expression changes
a variable that is read-only (`value_readOnly`).
-/
namespace Bytelink.Script

namespace Shell

variable {α : Type} {s : Shell} {name other value : Text}

theorem lookup_map_of_ne {v : α} {kept : List (Text × α)} (h : other ≠ name) :
    (kept.map fun k => if k.1 == name then (name, v) else k).lookup other =
      kept.lookup other := by
  have hname : (other == name) = false := by simpa using h
  induction kept with
  | nil => rfl
  | cons k kept ih =>
      obtain ⟨key, held⟩ := k
      rw [List.map_cons, List.lookup_cons]
      by_cases hkey : key = name
      · simp only [hkey, beq_self_eq_true, if_true, hname, List.lookup_cons, ih]
      · have hkept : (key == name) = false := by simpa using hkey
        simp only [hkept, Bool.false_eq_true, if_false, List.lookup_cons, ih]

theorem lookup_map_self {v : α} {kept : List (Text × α)} (h : kept.any (·.1 == name) = true) :
    (kept.map fun k => if k.1 == name then (name, v) else k).lookup name = some v := by
  induction kept with
  | nil => cases h
  | cons k kept ih =>
      obtain ⟨key, held⟩ := k
      rw [List.map_cons]
      by_cases hkey : key = name
      · simp [hkey]
      · have hkept : (key == name) = false := by simpa using hkey
        have hname : (name == key) = false := by simpa using Ne.symm hkey
        have hrest : kept.any (·.1 == name) = true := by simpa [hkept] using h
        simp only [hkept, Bool.false_eq_true, if_false, List.lookup_cons, hname, ih hrest]

theorem lookup_keep_self {v : α} {kept : List (Text × α)} :
    (keep name v kept).lookup name = some v := by
  unfold keep
  split
  · next hany => exact lookup_map_self hany
  · next hnone =>
      have hnot : kept.lookup name = none := by
        refine List.lookup_eq_none_iff.mpr fun k hk => ?_
        have hne : k.1 ≠ name := by
          intro hname
          exact hnone (List.any_eq_true.mpr ⟨k, hk, by simpa using hname⟩)
        simpa using Ne.symm hne
      rw [List.lookup_append, hnot]
      simp

theorem lookup_keep_of_ne {v : α} {kept : List (Text × α)} (h : other ≠ name) :
    (keep name v kept).lookup other = kept.lookup other := by
  unfold keep
  split
  · exact lookup_map_of_ne h
  · have hname : (other == name) = false := by simpa using h
    rw [List.lookup_append, List.lookup_cons, hname, List.lookup_nil, Option.or_none]

theorem bindings_setValue : (s.setValue name value).bindings = keep name
    { (s.binding? name).getD ⟨none, s.isSet 'a', false⟩ with
      value? := some value
      isExported := ((s.binding? name).getD ⟨none, s.isSet 'a', false⟩).isExported ||
        s.isSet 'a' } s.bindings := by
  unfold setValue
  dsimp only
  split <;> rfl

theorem value?_setValue : (s.setValue name value).value? name = some value := by
  rw [value?, binding?, bindings_setValue, lookup_keep_self]
  rfl

theorem binding?_setValue_of_ne (h : other ≠ name) :
    (s.setValue name value).binding? other = s.binding? other := by
  rw [binding?, bindings_setValue, lookup_keep_of_ne h]
  rfl

end Shell

namespace Arithmetic

theorem head_decimal {n : Nat} (h : 0 < n) : (Text.decimal n).head? ≠ some '0' := by
  unfold Text.decimal
  induction n using Nat.strong_induction_on with
  | _ n ih =>
      by_cases hn : n < 10
      · have hdigit : ∀ d < 10, 0 < d → [Nat.digitChar d].head? ≠ some '0' := by decide
        rw [Nat.toDigits_of_lt_base hn]
        exact hdigit n hn h
      · rw [Nat.toDigits_of_base_le (by decide) (Nat.not_lt.mp hn),
          List.head?_append_of_ne_nil _ Nat.toDigits_ne_nil]
        exact ih (n / 10) (by omega) (by omega)

theorem constant?_decimal (n : Nat) : constant? (Text.decimal n) = some (n, []) := by
  have hall : ∀ c ∈ Text.decimal n, Text.isDigit c = true := fun c hc =>
    isDigit_of_mem_decimal hc
  have htake : (Text.decimal n).takeWhile Text.isDigit = Text.decimal n := by
    have hwhole : ((Text.decimal n) ++ []).takeWhile Text.isDigit = Text.decimal n ++ [] :=
      List.takeWhile_append_of_pos hall
    rwa [List.append_nil] at hwhole
  by_cases hn : n = 0
  · subst hn
    decide
  · have hhead := head_decimal (Nat.pos_of_ne_zero hn)
    have hne : Text.decimal n ≠ [] := Nat.toDigits_ne_nil
    have hvalue : Text.valueIn 10 (Text.decimal n) = n :=
      Text.valueIn_toDigits (by decide) (by decide) n
    unfold constant?
    split
    · next x digits hdecimal => simp [hdecimal] at hhead
    · dsimp only
      rw [htake, hvalue, List.drop_length]
      simp [hne]

/-- Neither a blank nor a sign stands in front of the digits. -/
theorem decimal_unsigned (n : Nat) : (Text.decimal n).dropWhile isBlank = Text.decimal n ∧
    (Text.decimal n).head? ≠ some '-' ∧ (Text.decimal n).head? ≠ some '+' := by
  cases hdigits : Text.decimal n with
  | nil => exact absurd hdigits Nat.toDigits_ne_nil
  | cons c rest =>
      have hc : Text.isDigit c = true := isDigit_of_mem_decimal (hdigits ▸ List.mem_cons_self)
      have hlow : '0' ≤ c := by
        simp only [Text.isDigit, Bool.and_eq_true, decide_eq_true_eq] at hc
        exact hc.1
      have hspace : c ≠ ' ' := by
        rintro rfl
        cases hc
      have hreturn : ¬ c ≤ '\x0d' := fun hle => absurd (Char.le_trans hlow hle) (by decide)
      have hblank : isBlank c = false := by simp [isBlank, hspace, hreturn]
      refine ⟨List.dropWhile_cons_of_neg (by simp [hblank]), ?_, ?_⟩
      · rintro hminus
        obtain rfl := Option.some.inj hminus
        cases hc
      · rintro hplus
        obtain rfl := Option.some.inj hplus
        cases hc

theorem leadingNumber?_decimalInt (n : Int) :
    leadingNumber? false (Text.decimalInt n) = some (n, []) := by
  unfold leadingNumber?
  cases n with
  | ofNat m =>
      obtain ⟨hblank, hminus, hplus⟩ := decimal_unsigned m
      simp only [Text.decimalInt, hblank]
      split
      · next hdigits => simp [hdigits] at hminus
      · next hdigits => simp [hdigits] at hplus
      · simp [constant?_decimal]
  | negSucc m =>
      have hblank : ('-' :: Text.decimal (m + 1)).dropWhile isBlank =
          '-' :: Text.decimal (m + 1) := List.dropWhile_cons_of_neg (by decide)
      simp only [Text.decimalInt, hblank, constant?_decimal]
      rfl

theorem number?_decimalInt {n : Int} (hlow : -(greatest : Int) - 1 ≤ n) (hhigh : n ≤ greatest) :
    number? false (Text.decimalInt n) = some n := by
  unfold number?
  rw [leadingNumber?_decimalInt]
  simp [hlow, hhigh]

variable {α β : Type} {P : Shell → Prop}

/-- The condition outlasts every store to a variable that is not read-only. -/
def Stores (P : Shell → Prop) : Prop :=
  ∀ s name value, s.isReadOnly name = false → P s → P (s.setValue name value)

/-- Whatever the evaluation comes to, the condition on the shell outlasts it. -/
def Keeps (P : Shell → Prop) (e : Evaluation α) : Prop :=
  ∀ r a r', P r.shell → e r = .ok (a, r') → P r'.shell

theorem keeps_pure (a : α) : Keeps P (pure a : Evaluation α) := by
  intro r b r' hr h
  cases h
  exact hr

theorem keeps_throw (fault : Fault) : Keeps P (throw fault : Evaluation α) := by
  intro r a r' _ h
  cases h

theorem Keeps.bind {e : Evaluation α} {next : α → Evaluation β} (he : Keeps P e)
    (hnext : ∀ a, Keeps P (next a)) : Keeps P (e >>= next) := by
  intro r b r' hr h
  have hsteps : (e r >>= fun made => next made.1 made.2) = .ok (b, r') := h
  cases hfirst : e r with
  | error fault =>
      rw [hfirst] at hsteps
      cases hsteps
  | ok made =>
      rw [hfirst] at hsteps
      exact hnext made.1 made.2 b r' (he r made.1 made.2 hr hfirst) hsteps

theorem keeps_get_bind {next : Reader → Evaluation β}
    (hnext : ∀ r, P r.shell → Keeps P (next r)) : Keeps P (get >>= next) := by
  intro r b r' hr h
  exact hnext r hr r b r' hr h

theorem keeps_set {r : Reader} (h : P r.shell) : Keeps P (set r : Evaluation Unit) := by
  intro _ _ r' _ hset
  cases hset
  exact h

theorem keeps_liftM (value : Except Fault α) : Keeps P (liftM value : Evaluation α) := by
  intro r a r' hr h
  cases value with
  | error fault => cases h
  | ok a =>
      cases h
      exact hr

theorem keeps_peek : Keeps P peek := keeps_get_bind fun _ _ => keeps_pure _

theorem keeps_skip : Keeps P skip := by
  intro r a r' hr h
  cases h
  exact hr

theorem keeps_lookup (name : Text) : Keeps P (lookup name) := by
  refine keeps_get_bind fun r _ => ?_
  dsimp only
  split
  · exact keeps_pure _
  · exact keeps_throw _

theorem keeps_store (h : Stores P) (name : Text) (value : Int64) : Keeps P (store name value) := by
  refine keeps_get_bind fun r hr => ?_
  split
  · intro r b r' _ h
    cases h
  · next hwritable => exact keeps_set (h _ _ _ (by simpa using hwritable) hr)

/-- What outlasts the evaluations with this much fuel. -/
structure Kept (P : Shell → Prop) (fuel : Nat) (isLive : Bool) : Prop where
  expression : Keeps P (expression fuel isLive)
  choice : Keeps P (choice fuel isLive)
  disjunction : Keeps P (disjunction fuel isLive)
  conjunction : Keeps P (conjunction fuel isLive)
  operations : ∀ level left, Keeps P (operations fuel isLive level left)
  operand : Keeps P (operand fuel isLive)

section

variable {fuel : Nat} {isLive : Bool} (hstores : isLive = true → Stores P)
variable (ih : ∀ isLive, (isLive = true → Stores P) → Kept P fuel isLive)

include ih hstores

theorem keeps_expression_succ : Keeps P (expression (fuel + 1) isLive) := by
  have hchoice := (ih isLive hstores).choice
  unfold expression
  refine keeps_get_bind fun before hbefore => keeps_peek.bind fun first => ?_
  split
  · refine keeps_skip.bind fun _ => keeps_peek.bind fun second => ?_
    split
    · split
      · refine keeps_skip.bind fun _ => (ih isLive hstores).expression.bind fun value => ?_
        split
        · next hlive =>
            have hstore := fun name value => keeps_store (hstores hlive) name value
            split
            · refine (keeps_lookup _).bind fun old => (keeps_liftM _).bind fun value => ?_
              exact (hstore _ _).bind fun _ => keeps_pure _
            · exact (hstore _ _).bind fun _ => keeps_pure _
        · exact keeps_pure _
      · exact (keeps_set hbefore).bind fun _ => hchoice
    · exact (keeps_set hbefore).bind fun _ => hchoice
  · exact hchoice

theorem keeps_choice_succ : Keeps P (choice (fuel + 1) isLive) := by
  have hpart : ∀ decides : Bool, Kept P fuel (isLive && decides) :=
    fun decides => ih _ fun h => hstores (Bool.and_eq_true_iff.mp h).1
  unfold choice
  refine (ih isLive hstores).disjunction.bind fun condition => keeps_peek.bind fun next => ?_
  split
  · refine keeps_skip.bind fun _ => (hpart _).expression.bind fun yes => ?_
    refine keeps_peek.bind fun next => ?_
    split
    · exact keeps_skip.bind fun _ => (hpart _).choice.bind fun no => keeps_pure _
    · exact keeps_throw _
  · exact keeps_pure _

theorem keeps_disjunction_succ : Keeps P (disjunction (fuel + 1) isLive) := by
  have hpart : ∀ decides : Bool, Kept P fuel (isLive && decides) :=
    fun decides => ih _ fun h => hstores (Bool.and_eq_true_iff.mp h).1
  unfold disjunction
  refine (ih isLive hstores).conjunction.bind fun a => keeps_peek.bind fun next => ?_
  split
  · exact keeps_skip.bind fun _ => (hpart _).disjunction.bind fun b => keeps_pure _
  · exact keeps_pure _

theorem keeps_conjunction_succ : Keeps P (conjunction (fuel + 1) isLive) := by
  have hpart : ∀ decides : Bool, Kept P fuel (isLive && decides) :=
    fun decides => ih _ fun h => hstores (Bool.and_eq_true_iff.mp h).1
  unfold conjunction
  refine (ih isLive hstores).operand.bind fun first => ?_
  refine ((ih isLive hstores).operations 0 first).bind fun a => keeps_peek.bind fun next => ?_
  split
  · exact keeps_skip.bind fun _ => (hpart _).conjunction.bind fun b => keeps_pure _
  · exact keeps_pure _

theorem keeps_operations_succ (level : Nat) (left : Int64) :
    Keeps P (operations (fuel + 1) isLive level left) := by
  have hpart := ih isLive hstores
  unfold operations
  refine keeps_peek.bind fun next => ?_
  split
  · split
    · split
      · exact keeps_pure _
      · refine keeps_skip.bind fun _ => hpart.operand.bind fun first => ?_
        refine (hpart.operations _ first).bind fun right => ?_
        split
        · exact (keeps_liftM _).bind fun value => hpart.operations level value
        · exact hpart.operations level right
    · exact keeps_pure _
  · exact keeps_pure _

theorem keeps_operand_succ : Keeps P (operand (fuel + 1) isLive) := by
  have hpart := ih isLive hstores
  unfold operand
  refine keeps_peek.bind fun next => ?_
  split
  · exact keeps_skip.bind fun _ => keeps_pure _
  · refine keeps_skip.bind fun _ => ?_
    split
    · exact keeps_lookup _
    · exact keeps_pure _
  · split
    · exact keeps_skip.bind fun _ => hpart.operand.bind fun value => keeps_pure _
    · split
      · refine keeps_skip.bind fun _ => hpart.expression.bind fun value => ?_
        refine keeps_peek.bind fun next => ?_
        split
        · exact keeps_skip.bind fun _ => keeps_pure _
        · exact keeps_throw _
      · exact keeps_throw _
  · exact keeps_throw _

end

/-- What outlasts every store outlasts an evaluation, and anything outlasts one that is to have no
effect. -/
theorem kept (fuel : Nat) {isLive : Bool} (hstores : isLive = true → Stores P) :
    Kept P fuel isLive := by
  induction fuel generalizing isLive with
  | zero =>
      constructor
      · exact keeps_throw _
      · exact keeps_throw _
      · exact keeps_throw _
      · exact keeps_throw _
      · exact fun _ _ => keeps_pure _
      · exact keeps_throw _
  | succ fuel ih =>
      have ih := fun isLive hstores => @ih isLive hstores
      constructor
      · exact keeps_expression_succ hstores ih
      · exact keeps_choice_succ hstores ih
      · exact keeps_disjunction_succ hstores ih
      · exact keeps_conjunction_succ hstores ih
      · exact keeps_operations_succ hstores ih
      · exact keeps_operand_succ hstores ih

/-- An operand that does not decide the value of an expression has no effect. -/
theorem expression_dead {fuel : Nat} {r r' : Reader} {n : Int64}
    (h : expression fuel false r = .ok (n, r')) : r'.shell = r.shell := by
  have hkept : Kept (fun s => s = r.shell) fuel false := kept fuel nofun
  exact hkept.expression r n r' rfl h

theorem stores_readOnly (s₀ : Shell) : Stores fun s =>
    ∀ name, s₀.isReadOnly name = true → s.binding? name = s₀.binding? name := by
  intro s name value hwritable hs other hother
  have hne : other ≠ name := by
    rintro rfl
    rw [Shell.isReadOnly, hs other hother] at hwritable
    rw [Shell.isReadOnly, hwritable] at hother
    cases hother
  rw [Shell.binding?_setValue_of_ne hne]
  exact hs other hother

/-- No expression changes a variable that is read-only. -/
theorem value_readOnly {s s' : Shell} {t name : Text} {n : Int} (h : value s t = .ok (n, s'))
    (hname : s.isReadOnly name = true) : s'.binding? name = s.binding? name := by
  unfold value at h
  cases hresult : (expression (8 * t.length + 8) true).run ⟨t, s⟩ with
  | error fault =>
      rw [hresult] at h
      cases h
  | ok made =>
      rw [hresult] at h
      obtain ⟨m, r⟩ := made
      have hkept := (kept (8 * t.length + 8) fun _ => stores_readOnly s).expression ⟨t, s⟩ m r
        (fun _ _ => rfl) hresult
      replace h : (if (token r.rest).1 = .finish then Except.ok (m.toInt, r.shell)
        else .error Fault.noEnd) = .ok (n, s') := h
      split at h
      · cases h
        exact hkept name hname
      · cases h

theorem store_eq (name : Text) (n : Int64) (r : Reader) : store name n r =
    if r.shell.isReadOnly name = true then .error (.readOnly name)
    else .ok ((), { r with shell := r.shell.setValue name (Text.decimalInt n.toInt) }) := by
  simp only [store, bind, StateT.bind, get, getThe, MonadStateOf.get, StateT.get, pure,
    Except.pure, Except.bind]
  by_cases hreadOnly : r.shell.isReadOnly name = true
  · rw [if_pos hreadOnly, if_pos hreadOnly]
    rfl
  · rw [if_neg hreadOnly, if_neg hreadOnly]
    rfl

theorem lookup_eq (name : Text) (r : Reader) : lookup name r =
    match number? false ((r.shell.value? name).getD []) with
    | some n => .ok (Int64.ofInt n, r)
    | none => .error (.badNumber ((r.shell.value? name).getD [])) := by
  simp only [lookup, bind, StateT.bind, get, getThe, MonadStateOf.get, StateT.get, pure,
    Except.pure, Except.bind]
  cases number? false ((r.shell.value? name).getD []) <;> rfl

/-- A variable stands for the number that was stored in it last. -/
theorem lookup_store {name : Text} {n : Int64} {r r' : Reader}
    (h : store name n r = .ok ((), r')) : lookup name r' = .ok (n, r') := by
  have hnumber : number? false (Text.decimalInt n.toInt) = some n.toInt := by
    apply number?_decimalInt
    · exact Int64.le_toInt n
    · exact Int.le_of_lt_add_one (Int64.toInt_lt n)
  rw [store_eq] at h
  split at h
  · cases h
  · cases h
    rw [lookup_eq, Shell.value?_setValue, Option.getD_some, hnumber]
    simp

end Arithmetic

end Bytelink.Script
