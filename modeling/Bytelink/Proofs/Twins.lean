import Bytelink.Proofs.Dialogue

/-!
# Two runs of one plan

A plan is performed twice, in surroundings that answer by the same rules but begin in different
states. `Plan.Leads` says which value and which last state the plan can come to. `Plan.Repeats`
says that both runs come to the same value, however either is answered, and relates their last
states. The two runs need not ask the same: where they part for a while, `Plan.Twin` follows two
plans side by side. As with `Plan.Ensures`, everything is computed piece by piece along the plan,
and `Repeats` is the same for a plan that may fail: it fails in both runs, in the same way, or in
neither.
-/
namespace Bytelink

namespace Plan

variable {W α β γ δ : Type} {T : Answers W}

/-- From the first state on, the plan can come to this value and leave the second state. -/
def Leads (T : Answers W) : Plan α → W → α → W → Prop
  | done value, w, a, v => value = a ∧ w = v
  | ask r next, w, a, v =>
      ∃ reply between, T r reply w between ∧ (next reply).Leads T between a v

theorem leads_request {r : Request} {reply : r.Reply} {w v : W} :
    (request r).Leads T w reply v ↔ T r reply w v := by
  constructor
  · rintro ⟨_, _, hT, rfl, rfl⟩
    exact hT
  · intro hT
    exact ⟨reply, v, hT, rfl, rfl⟩

theorem leads_bind {p : Plan α} {f : α → Plan β} {w v : W} {b : β} :
    (p >>= f).Leads T w b v ↔ ∃ a between, p.Leads T w a between ∧ (f a).Leads T between b v := by
  induction p generalizing w with
  | done value =>
      constructor
      · intro h
        exact ⟨value, w, ⟨rfl, rfl⟩, h⟩
      · rintro ⟨_, _, ⟨rfl, rfl⟩, h⟩
        exact h
  | ask r next ih =>
      constructor
      · rintro ⟨reply, w₁, hT, h⟩
        obtain ⟨a, between, hp, hf⟩ := (ih reply).mp h
        exact ⟨a, between, ⟨reply, w₁, hT, hp⟩, hf⟩
      · rintro ⟨a, between, ⟨reply, w₁, hT, hp⟩, hf⟩
        exact ⟨reply, w₁, hT, (ih reply).mpr ⟨a, between, hp, hf⟩⟩

/-- A host that answers by the rules leads a plan to what its run comes to. -/
theorem leads_run {σ : Type} {host : Host σ} {view : σ → W} (hhost : host.Follows view T)
    (p : Plan α) (s : σ) : p.Leads T (view s) (p.run host s).1 (view (p.run host s).2) := by
  induction p generalizing s with
  | done value => exact ⟨rfl, rfl⟩
  | ask r next ih => exact ⟨_, _, hhost r s, ih _ _⟩

/-- However two plans are answered from these states on, their values and their last states are
related. -/
def Twin (T : Answers W) (p : Plan α) (p' : Plan β) (Q : α → β → W → W → Prop) (w w' : W) : Prop :=
  ∀ a v a' v', p.Leads T w a v → p'.Leads T w' a' v' → Q a a' v v'

variable {w w' : W}

theorem Twin.bind {p : Plan α} {p' : Plan β} {f : α → Plan γ} {f' : β → Plan δ}
    {P : α → β → W → W → Prop} {Q : γ → δ → W → W → Prop} (h : Twin T p p' P w w')
    (hf : ∀ a a' v v', P a a' v v' → Twin T (f a) (f' a') Q v v') :
    Twin T (p >>= f) (p' >>= f') Q w w' := by
  intro b v b' v' hb hb'
  obtain ⟨a, u, ha, hb⟩ := leads_bind.mp hb
  obtain ⟨a', u', ha', hb'⟩ := leads_bind.mp hb'
  exact hf a a' u u' (h a u a' u' ha ha') b v b' v' hb hb'

theorem twin_pure {a : α} {b : β} {Q : α → β → W → W → Prop} (h : Q a b w w') :
    Twin T (pure a) (pure b) Q w w' := by
  rintro _ _ _ _ ⟨rfl, rfl⟩ ⟨rfl, rfl⟩
  exact h

theorem twin_request {r r' : Request} {Q : r.Reply → r'.Reply → W → W → Prop}
    (h : ∀ reply v reply' v', T r reply w v → T r' reply' w' v' → Q reply reply' v v') :
    Twin T (request r) (request r') Q w w' := fun reply v reply' v' hT hT' =>
  h reply v reply' v' (leads_request.mp hT) (leads_request.mp hT')

/-- Two runs of a plan come to the same value, in states that are related. -/
def Repeats (T : Answers W) (p : Plan α) (Q : α → W → W → Prop) (w w' : W) : Prop :=
  Twin T p p (fun a a' v v' => a' = a ∧ Q a v v') w w'

variable {Q : α → W → W → Prop}

theorem repeats_pure {a : α} (h : Q a w w') : (pure a : Plan α).Repeats T Q w w' :=
  twin_pure ⟨rfl, h⟩

theorem Repeats.bind {p : Plan α} {f : α → Plan β} {Q' : β → W → W → Prop}
    (h : p.Repeats T Q w w') (hf : ∀ a v v', Q a v v' → (f a).Repeats T Q' v v') :
    (p >>= f).Repeats T Q' w w' := by
  refine Twin.bind h ?_
  rintro a _ v v' ⟨rfl, hQ⟩
  exact hf _ v v' hQ

theorem Repeats.mono {p : Plan α} {Q' : α → W → W → Prop} (h : p.Repeats T Q w w')
    (hQ : ∀ a v v', Q a v v' → Q' a v v') : p.Repeats T Q' w w' :=
  fun a v a' v' ha ha' => (h a v a' v' ha ha').imp_right (hQ a v v')

/-- What is shown of two runs holds on hosts that answer by the rules. -/
theorem Repeats.of_follows {σ τ : Type} {host : Host σ} {host' : Host τ} {view : σ → W}
    {view' : τ → W} (hhost : host.Follows view T) (hhost' : host'.Follows view' T) {p : Plan α}
    {s : σ} {s' : τ} (h : p.Repeats T Q (view s) (view' s')) :
    (p.run host' s').1 = (p.run host s).1 ∧
      Q (p.run host s).1 (view (p.run host s).2) (view' (p.run host' s').2) :=
  h _ _ _ _ (leads_run hhost p s) (leads_run hhost' p s')

end Plan

section

variable {W ε α β : Type} {T : Answers W} {w w' : W}

/-- Two runs fail in the same way, or come to the same value in states that are related. -/
def Repeats (T : Answers W) (p : ExceptT ε Plan α) (Q : α → W → W → Prop) (w w' : W) : Prop :=
  p.run.Repeats T (fun result v v' => ∀ a, result = .ok a → Q a v v') w w'

variable {Q : α → W → W → Prop}

theorem repeats_pure {a : α} (h : Q a w w') : Repeats T (pure a : ExceptT ε Plan α) Q w w' :=
  Plan.repeats_pure fun _ hb => Except.ok.inj hb ▸ h

theorem repeats_throw {e : ε} : Repeats T (throw e : ExceptT ε Plan α) Q w w' :=
  Plan.repeats_pure fun _ ha => (nomatch ha)

theorem repeats_lift {p : Plan α} (h : p.Repeats T Q w w') :
    Repeats T (liftM p : ExceptT ε Plan α) Q w w' := by
  have hrun : (liftM p : ExceptT ε Plan α).run = p >>= fun a => pure (.ok a) := by
    rw [bind_pure_comp]
    rfl
  rw [Repeats, hrun]
  refine h.bind fun a v v' hQ => Plan.repeats_pure fun b hb => ?_
  exact Except.ok.inj hb ▸ hQ

theorem Repeats.bind {p : ExceptT ε Plan α} {f : α → ExceptT ε Plan β} {Q' : β → W → W → Prop}
    (h : Repeats T p Q w w') (hf : ∀ a v v', Q a v v' → Repeats T (f a) Q' v v') :
    Repeats T (p >>= f) Q' w w' := by
  rw [Repeats, ExceptT.run_bind]
  refine Plan.Repeats.bind h ?_
  rintro (e | a) v v' hQ
  · exact Plan.repeats_pure fun b hb => (nomatch hb)
  · exact hf a v v' (hQ a rfl)

theorem Repeats.mono {p : ExceptT ε Plan α} {Q' : α → W → W → Prop} (h : Repeats T p Q w w')
    (hQ : ∀ a v v', Q a v v' → Q' a v v') : Repeats T p Q' w w' :=
  Plan.Repeats.mono h fun _ v v' hresult a ha => hQ a v v' (hresult a ha)

end
end Bytelink
