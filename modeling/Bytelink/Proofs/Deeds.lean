import Bytelink.Build.Tool
import Bytelink.Proofs.Scene

/-!
# What a plan gets done

The deeds of a run are its requests with the replies to them, in order. A report has no reply that
the plan could look at and changes nothing, so it is no deed. `Plan.Deeds` tells which deeds lead a
plan to which value, whatever the surroundings are; `Plan.deeds` collects those of one run.
-/
namespace Bytelink

/-- An element of two lists one after the other is in the first or in the second. -/
theorem append_eq_append_cons {α : Type} {a b before after : List α} {x : α}
    (h : a ++ b = before ++ x :: after) :
    (∃ rest, a = before ++ x :: rest ∧ after = rest ++ b) ∨
      ∃ middle, before = a ++ middle ∧ b = middle ++ x :: after := by
  rcases List.append_eq_append_iff.mp h with ⟨middle, hbefore, hb⟩ | ⟨rest, ha, hrest⟩
  · exact Or.inr ⟨middle, hbefore, hb⟩
  · cases rest with
    | nil =>
        rw [List.append_nil] at ha
        exact Or.inr ⟨[], by rw [List.append_nil, ha], hrest.symm⟩
    | cons y rest =>
        obtain ⟨rfl, rfl⟩ := List.cons.inj hrest
        exact Or.inl ⟨rest, ha, rfl⟩

def Request.isReport : Request → Bool
  | report _ => true
  | _ => false

def Request.deed (r : Request) (reply : r.Reply) : List Exchange :=
  if r.isReport then [] else [⟨r, reply⟩]

theorem Request.deed_append_inj {r : Request} {reply reply' : r.Reply} {rest rest' : List Exchange}
    (h : r.deed reply ++ rest = r.deed reply' ++ rest') : reply = reply' ∧ rest = rest' := by
  by_cases hreport : r.isReport = true
  · simp only [Request.deed, hreport, if_true, List.nil_append] at h
    cases r with
    | report record => exact ⟨rfl, h⟩
    | _ => cases hreport
  · simp only [Request.deed, hreport] at h
    obtain ⟨hfirst, hrest⟩ := List.cons.inj h
    exact ⟨eq_of_heq (Exchange.mk.inj hfirst).2, hrest⟩

theorem Request.exists_reply (r : Request) : Nonempty r.Reply := by
  cases r with
  | isDirectory | isFile | isCancelled => exact ⟨false⟩
  | turn => exact ⟨(0 : Nat)⟩
  | report => exact ⟨()⟩
  | await => exact ⟨Ending.lost .notFound⟩
  | launch => exact ⟨Except.error Refusal.cancelled⟩
  | _ => exact ⟨Except.error SystemError.notFound⟩

namespace Plan

variable {α β : Type}

def Deeds : Plan α → List Exchange → α → Prop
  | done value, log, a => log = [] ∧ value = a
  | ask r next, log, a => ∃ reply rest, log = r.deed reply ++ rest ∧ (next reply).Deeds rest a

def deeds {σ : Type} (host : Host σ) : Plan α → σ → List Exchange
  | done _, _ => []
  | ask r next, s =>
      let (reply, s) := host.answer r s
      r.deed reply ++ (next reply).deeds host s

/-- The deeds of a run lead to its value. -/
theorem deeds_run {σ : Type} (host : Host σ) (p : Plan α) (s : σ) :
    p.Deeds (p.deeds host s) (p.run host s).1 := by
  induction p generalizing s with
  | done value => exact ⟨rfl, rfl⟩
  | ask r next ih => exact ⟨(host.answer r s).1, _, rfl, ih _ _⟩

theorem Deeds.unique {p : Plan α} {log : List Exchange} {a b : α} (h : p.Deeds log a)
    (h' : p.Deeds log b) : a = b := by
  induction p generalizing log with
  | done value => exact h.2.symm.trans h'.2
  | ask r next ih =>
      obtain ⟨reply, rest, hlog, hnext⟩ := h
      obtain ⟨reply', rest', hlog', hnext'⟩ := h'
      obtain ⟨rfl, rfl⟩ := Request.deed_append_inj (hlog.symm.trans hlog')
      exact ih reply hnext hnext'

/-- A plan always comes to an end. -/
theorem exists_deeds (p : Plan α) : ∃ log a, p.Deeds log a := by
  induction p with
  | done value => exact ⟨[], value, rfl, rfl⟩
  | ask r next ih =>
      obtain ⟨reply⟩ := r.exists_reply
      obtain ⟨rest, a, h⟩ := ih reply
      exact ⟨r.deed reply ++ rest, a, reply, rest, rfl, h⟩

variable {log : List Exchange} {a : α} {b : β}

theorem deeds_pure {value : α} : (pure value : Plan α).Deeds log a ↔ log = [] ∧ value = a := Iff.rfl

theorem deeds_request {r : Request} {reply : r.Reply} :
    (request r).Deeds log reply ↔ log = r.deed reply := by
  constructor
  · rintro ⟨_, _, rfl, rfl, rfl⟩
    exact List.append_nil _
  · rintro rfl
    exact ⟨reply, [], (List.append_nil _).symm, rfl, rfl⟩

theorem deeds_bind {p : Plan α} {f : α → Plan β} :
    (p >>= f).Deeds log b ↔
      ∃ a before after, log = before ++ after ∧ p.Deeds before a ∧ (f a).Deeds after b := by
  induction p generalizing log with
  | done value =>
      constructor
      · intro h
        exact ⟨value, [], log, rfl, ⟨rfl, rfl⟩, h⟩
      · rintro ⟨_, _, _, rfl, ⟨rfl, rfl⟩, h⟩
        exact h
  | ask r next ih =>
      constructor
      · rintro ⟨reply, rest, rfl, h⟩
        obtain ⟨a, before, after, rfl, hp, hf⟩ := (ih reply).mp h
        exact ⟨a, r.deed reply ++ before, after, (List.append_assoc _ _ _).symm,
          ⟨reply, before, rfl, hp⟩, hf⟩
      · rintro ⟨a, _, after, rfl, ⟨reply, before, rfl, hp⟩, hf⟩
        exact ⟨reply, before ++ after, List.append_assoc _ _ _,
          (ih reply).mpr ⟨a, before, after, rfl, hp, hf⟩⟩

theorem deeds_map {p : Plan α} {f : α → β} :
    (f <$> p).Deeds log b ↔ ∃ a, p.Deeds log a ∧ f a = b := by
  rw [map_eq_pure_bind, deeds_bind]
  constructor
  · rintro ⟨a, before, after, rfl, hp, rfl, rfl⟩
    exact ⟨a, by rwa [List.append_nil], rfl⟩
  · rintro ⟨a, hp, rfl⟩
    exact ⟨a, log, [], (List.append_nil _).symm, hp, rfl, rfl⟩

theorem deeds_report {level : Level} {reporter : Reporter} {text : Text} {u : Unit} :
    (report level reporter text).Deeds log u ↔ log = [] :=
  deeds_request

end Plan

section

variable {α β ε : Type} {log : List Exchange} {result : Except ε β}

theorem deeds_run_pure {b : β} :
    (pure b : ExceptT ε Plan β).run.Deeds log result ↔ log = [] ∧ .ok b = result := Iff.rfl

theorem deeds_run_throw {e : ε} :
    (throw e : ExceptT ε Plan β).run.Deeds log result ↔ log = [] ∧ .error e = result := Iff.rfl

theorem deeds_run_bind {p : ExceptT ε Plan α} {f : α → ExceptT ε Plan β} :
    (p >>= f).run.Deeds log result ↔
      (∃ e, p.run.Deeds log (.error e) ∧ result = .error e) ∨
      ∃ a before after, log = before ++ after ∧ p.run.Deeds before (.ok a) ∧
        (f a).run.Deeds after result := by
  rw [ExceptT.run_bind, Plan.deeds_bind]
  constructor
  · rintro ⟨e | a, before, after, rfl, hp, hf⟩
    · obtain ⟨rfl, rfl⟩ := hf
      exact Or.inl ⟨e, by rwa [List.append_nil], rfl⟩
    · exact Or.inr ⟨a, before, after, rfl, hp, hf⟩
  · rintro (⟨e, hp, rfl⟩ | ⟨a, before, after, rfl, hp, hf⟩)
    · exact ⟨.error e, log, [], (List.append_nil _).symm, hp, rfl, rfl⟩
    · exact ⟨.ok a, before, after, rfl, hp, hf⟩

theorem deeds_run_lift {p : Plan β} :
    (liftM p : ExceptT ε Plan β).run.Deeds log result ↔ ∃ b, p.Deeds log b ∧ .ok b = result :=
  Plan.deeds_map

theorem deeds_run_lift_bind {p : Plan α} {f : α → ExceptT ε Plan β} :
    ((liftM p : ExceptT ε Plan α) >>= f).run.Deeds log result ↔
      ∃ a before after, log = before ++ after ∧ p.Deeds before a ∧
        (f a).run.Deeds after result := by
  change (ExceptT.lift p >>= f).run.Deeds log result ↔ _
  rw [ExceptT.run_bind_lift, Plan.deeds_bind]

/-- A report before anything else adds no deed. -/
theorem deeds_run_report_bind {level : Level} {reporter : Reporter} {text : Text}
    {f : Unit → ExceptT ε Plan β} :
    ((liftM (Plan.report level reporter text) : ExceptT ε Plan Unit) >>= f).run.Deeds log result ↔
      (f ()).run.Deeds log result := by
  rw [deeds_run_lift_bind]
  constructor
  · rintro ⟨_, before, after, rfl, hreport, hf⟩
    obtain rfl := Plan.deeds_report.mp hreport
    exact hf
  · intro hf
    exact ⟨(), [], log, rfl, Plan.deeds_report.mpr rfl, hf⟩

end
end Bytelink
