import Bytelink.Build.Preprocess

/-!
# Reasoning about plans

Surroundings are described by a relation: `T r reply w w'` says that the request `r`, asked in the
state `w`, may be answered with `reply` and leave the state `w'`. `Plan.Ensures T G p Q w` says of a
plan that, however its requests are answered from `w` on, each of them is asked in a state where `G`
holds of it, and the value at the end satisfies `Q` in the last state. It is computed along the
plan, so a plan is verified piece by piece. `Succeeds` is the same for a plan that may fail, and
asks for nothing where it does.

`Ensures.of_simulates` carries a verified plan over to a host: to the requests that it is asked,
with the states in which it is asked them, and to the value at the end.
-/
namespace Bytelink

/-- How surroundings with states in `W` may answer requests. -/
abbrev Answers (W : Type) := (r : Request) → r.Reply → W → W → Prop

/-- The host answers as `T` says, if its states are seen through `view`. -/
def Host.Follows {σ W : Type} (host : Host σ) (view : σ → W) (T : Answers W) : Prop :=
  ∀ r s, T r (host.answer r s).1 (view s) (view (host.answer r s).2)

/-- The host answers as `T` says where `K` holds. Its states and those of `T` are related by `R`,
which is found out step by step: the state after an answer may depend on all that was before. -/
def Host.Simulates {σ W : Type} (host : Host σ) (R : σ → W → Prop) (K : σ → Prop)
    (T : Answers W) : Prop :=
  ∀ r s w, R s w → K s → ∃ w', T r (host.answer r s).1 w w' ∧ R (host.answer r s).2 w'

theorem Host.Follows.simulates {σ W : Type} {host : Host σ} {view : σ → W} {T : Answers W}
    (h : host.Follows view T) : host.Simulates (fun s w => view s = w) (fun _ => True) T := by
  intro r s w hview _
  subst hview
  exact ⟨_, h r s, rfl⟩

namespace Plan

def asked {σ α : Type} (host : Host σ) : Plan α → σ → List (Request × σ)
  | done _, _ => []
  | ask r next, s => (r, s) :: (next (host.answer r s).1).asked host (host.answer r s).2

variable {W α β : Type} {T : Answers W} {G : Request → W → Prop}

/-- Every request is asked where `G` allows it, and the value at the end satisfies `Q`. -/
def Ensures (T : Answers W) (G : Request → W → Prop) : Plan α → (α → W → Prop) → W → Prop
  | done value, Q, w => Q value w
  | ask r next, Q, w => G r w ∧ ∀ reply w', T r reply w w' → (next reply).Ensures T G Q w'

@[simp] theorem ensures_pure {a : α} {Q : α → W → Prop} {w : W} :
    (pure a : Plan α).Ensures T G Q w ↔ Q a w := Iff.rfl

theorem ensures_request {r : Request} {Q : r.Reply → W → Prop} {w : W} :
    (request r).Ensures T G Q w ↔ G r w ∧ ∀ reply w', T r reply w w' → Q reply w' := Iff.rfl

theorem ensures_bind {p : Plan α} {f : α → Plan β} {Q : β → W → Prop} {w : W} :
    (p >>= f).Ensures T G Q w ↔ p.Ensures T G (fun a w => (f a).Ensures T G Q w) w := by
  induction p generalizing w with
  | done a => exact Iff.rfl
  | ask r next ih =>
      constructor
      · rintro ⟨hG, hnext⟩
        exact ⟨hG, fun reply w' hT => (ih reply).mp (hnext reply w' hT)⟩
      · rintro ⟨hG, hnext⟩
        exact ⟨hG, fun reply w' hT => (ih reply).mpr (hnext reply w' hT)⟩

theorem ensures_trivial (p : Plan α) (w : W) :
    p.Ensures T (fun _ _ => True) (fun _ _ => True) w := by
  induction p generalizing w with
  | done a => trivial
  | ask r next ih => exact ⟨trivial, fun reply w' _ => ih reply w'⟩

theorem Ensures.mono {p : Plan α} {Q Q' : α → W → Prop} {w : W} (h : p.Ensures T G Q w)
    (hQ : ∀ a w, Q a w → Q' a w) : p.Ensures T G Q' w := by
  induction p generalizing w with
  | done a => exact hQ a w h
  | ask r next ih => exact ⟨h.1, fun reply w' hT => ih reply (h.2 reply w' hT)⟩

theorem Ensures.bind {p : Plan α} {f : α → Plan β} {P : α → W → Prop} {Q : β → W → Prop} {w : W}
    (h : p.Ensures T G P w) (hf : ∀ a w, P a w → (f a).Ensures T G Q w) :
    (p >>= f).Ensures T G Q w :=
  ensures_bind.mpr (h.mono hf)

theorem Ensures.map {p : Plan α} {f : α → β} {Q : β → W → Prop} {w : W}
    (h : p.Ensures T G (fun a w => Q (f a) w) w) : (f <$> p).Ensures T G Q w := by
  rw [map_eq_pure_bind]
  exact ensures_bind.mpr h

theorem Ensures.weaken {G' : Request → W → Prop} {p : Plan α} {Q : α → W → Prop} {w : W}
    (h : p.Ensures T G Q w) (hG : ∀ r w, G r w → G' r w) : p.Ensures T G' Q w := by
  induction p generalizing w with
  | done a => exact h
  | ask r next ih => exact ⟨hG r w h.1, fun reply w' hT => ih reply (h.2 reply w' hT)⟩

/-- A condition that outlasts every request which the guard lets through holds all along. -/
theorem Ensures.keep {P : W → Prop} {p : Plan α} {Q : α → W → Prop} {w : W}
    (h : p.Ensures T G Q w) (hw : P w)
    (hP : ∀ r reply w w', G r w → P w → T r reply w w' → P w') :
    p.Ensures T (fun r w => G r w ∧ P w) (fun a w => Q a w ∧ P w) w := by
  induction p generalizing w with
  | done a => exact ⟨h, hw⟩
  | ask r next ih =>
      refine ⟨⟨h.1, hw⟩, fun reply w' hT => ?_⟩
      exact ih reply (h.2 reply w' hT) (hP r reply w w' h.1 hw hT)

/-- What is ensured of a plan holds of its run on every host that answers as described where it is
asked. -/
theorem Ensures.of_simulates {σ : Type} {host : Host σ} {R : σ → W → Prop} {K : σ → Prop}
    (hhost : host.Simulates R K T) {p : Plan α} {Q : α → W → Prop} {s : σ} {w : W}
    (h : p.Ensures T G Q w) (hR : R s w) (hK : ∀ a ∈ p.asked host s, K a.2) :
    (∃ w', R (p.run host s).2 w' ∧ Q (p.run host s).1 w') ∧
      ∀ a ∈ p.asked host s, ∃ w', R a.2 w' ∧ G a.1 w' := by
  induction p generalizing s w with
  | done a => exact ⟨⟨w, hR, h⟩, by simp [asked]⟩
  | ask r next ih =>
      have hfirst := hK _ List.mem_cons_self
      obtain ⟨w', hanswer, hR'⟩ := hhost r s w hR hfirst
      have hrest := ih _ (h.2 _ _ hanswer) hR' fun a ha => hK a (List.mem_cons_of_mem _ ha)
      refine ⟨hrest.1, fun a ha => ?_⟩
      rcases List.mem_cons.mp ha with rfl | ha
      · exact ⟨w, hR, h.1⟩
      · exact hrest.2 a ha

theorem Ensures.of_follows {σ : Type} {host : Host σ} {view : σ → W} (hhost : host.Follows view T)
    {p : Plan α} {Q : α → W → Prop} {s : σ} (h : p.Ensures T G Q (view s)) :
    Q (p.run host s).1 (view (p.run host s).2) ∧ ∀ a ∈ p.asked host s, G a.1 (view a.2) := by
  obtain ⟨⟨w', hview, hvalue⟩, hasked⟩ := h.of_simulates hhost.simulates rfl fun _ _ => trivial
  subst hview
  refine ⟨hvalue, fun a ha => ?_⟩
  obtain ⟨w', hview, hG⟩ := hasked a ha
  subst hview
  exact hG

end Plan

section

variable {W ε α β : Type} {T : Answers W} {G : Request → W → Prop}

/-- Every request is asked where `G` allows it, and a value at the end satisfies `Q`. -/
def Succeeds (T : Answers W) (G : Request → W → Prop) (p : ExceptT ε Plan α)
    (Q : α → W → Prop) (w : W) : Prop :=
  p.run.Ensures T G (fun result w => ∀ a, result = .ok a → Q a w) w

variable {Q : α → W → Prop} {w : W}

theorem succeeds_pure {a : α} : Succeeds T G (pure a : ExceptT ε Plan α) Q w ↔ Q a w := by
  constructor
  · intro h
    exact h a rfl
  · intro h b hb
    exact Except.ok.inj hb ▸ h

theorem succeeds_throw {e : ε} : Succeeds T G (throw e : ExceptT ε Plan α) Q w := by
  intro a ha
  cases ha

theorem succeeds_lift {p : Plan α} :
    Succeeds T G (liftM p : ExceptT ε Plan α) Q w ↔ p.Ensures T G Q w := by
  have hrun : (liftM p : ExceptT ε Plan α).run = p >>= fun a => pure (.ok a) := by
    rw [bind_pure_comp]
    rfl
  rw [Succeeds, hrun, Plan.ensures_bind]
  constructor
  · intro h
    exact h.mono fun a w hQ => hQ a rfl
  · intro h
    refine h.mono fun a w hQ b hb => ?_
    exact Except.ok.inj hb ▸ hQ

theorem succeeds_trivial (p : ExceptT ε Plan α) (w : W) :
    Succeeds T (fun _ _ => True) p (fun _ _ => True) w :=
  (Plan.ensures_trivial p.run w).mono fun _ _ _ _ _ => trivial

theorem Succeeds.bind {p : ExceptT ε Plan α} {f : α → ExceptT ε Plan β} {Q' : β → W → Prop}
    (h : Succeeds T G p Q w) (hf : ∀ a w, Q a w → Succeeds T G (f a) Q' w) :
    Succeeds T G (p >>= f) Q' w := by
  rw [Succeeds, ExceptT.run_bind]
  refine Plan.Ensures.bind h ?_
  intro result w hresult
  cases result with
  | ok a => exact hf a w (hresult a rfl)
  | error e =>
      intro b hb
      cases hb

theorem Succeeds.mono {p : ExceptT ε Plan α} {Q' : α → W → Prop} (h : Succeeds T G p Q w)
    (hQ : ∀ a w, Q a w → Q' a w) : Succeeds T G p Q' w :=
  Plan.Ensures.mono h fun _ w hresult a ha => hQ a w (hresult a ha)

/-- Every request is asked where `G` allows it, a value at the end satisfies `Q`, and a failure
satisfies `E`. -/
def Concludes (T : Answers W) (G : Request → W → Prop) (p : ExceptT ε Plan α)
    (Q : α → W → Prop) (E : ε → W → Prop) (w : W) : Prop :=
  p.run.Ensures T G (fun result w =>
    (∀ a, result = .ok a → Q a w) ∧ ∀ e, result = .error e → E e w) w

variable {E : ε → W → Prop}

theorem Concludes.of_pure {a : α} (h : Q a w) :
    Concludes T G (pure a : ExceptT ε Plan α) Q E w := by
  refine ⟨fun b hb => ?_, fun e he => (nomatch he)⟩
  exact Except.ok.inj hb ▸ h

theorem Concludes.of_throw {e : ε} (h : E e w) :
    Concludes T G (throw e : ExceptT ε Plan α) Q E w := by
  refine ⟨fun a ha => (nomatch ha), fun e' he => ?_⟩
  exact Except.error.inj he ▸ h

theorem Concludes.of_lift {p : Plan α} (h : p.Ensures T G Q w) :
    Concludes T G (liftM p : ExceptT ε Plan α) Q E w := by
  have hrun : (liftM p : ExceptT ε Plan α).run = p >>= fun a => pure (.ok a) := by
    rw [bind_pure_comp]
    rfl
  rw [Concludes, hrun, Plan.ensures_bind]
  refine h.mono fun a w hQ => Plan.ensures_pure.mpr ⟨fun b hb => ?_, fun e he => (nomatch he)⟩
  exact Except.ok.inj hb ▸ hQ

theorem Concludes.bind {p : ExceptT ε Plan α} {f : α → ExceptT ε Plan β} {Q' : β → W → Prop}
    (h : Concludes T G p Q E w) (hf : ∀ a w, Q a w → Concludes T G (f a) Q' E w) :
    Concludes T G (p >>= f) Q' E w := by
  rw [Concludes, ExceptT.run_bind]
  refine Plan.Ensures.bind h ?_
  intro result w ⟨hok, herror⟩
  cases result with
  | ok a => exact hf a w (hok a rfl)
  | error e =>
      refine ⟨fun b hb => (nomatch hb), fun e' he => ?_⟩
      exact Except.error.inj he ▸ herror e rfl

theorem Concludes.mono {p : ExceptT ε Plan α} {Q' : α → W → Prop} {E' : ε → W → Prop}
    (h : Concludes T G p Q E w) (hQ : ∀ a w, Q a w → Q' a w) (hE : ∀ e w, E e w → E' e w) :
    Concludes T G p Q' E' w := by
  refine Plan.Ensures.mono h fun result w ⟨hok, herror⟩ => ⟨fun a ha => ?_, fun e he => ?_⟩
  · exact hQ a w (hok a ha)
  · exact hE e w (herror e he)

theorem Concludes.weaken {G' : Request → W → Prop} {p : ExceptT ε Plan α}
    (h : Concludes T G p Q E w) (hG : ∀ r w, G r w → G' r w) : Concludes T G' p Q E w :=
  Plan.Ensures.weaken h hG

/-- A condition that outlasts every request which the guard lets through holds all along, and of
every failure. -/
theorem Concludes.keep {P : W → Prop} {p : ExceptT ε Plan α} (h : Concludes T G p Q E w)
    (hw : P w) (hP : ∀ r reply w w', G r w → P w → T r reply w w' → P w') :
    Concludes T (fun r w => G r w ∧ P w) p (fun a w => Q a w ∧ P w) (fun e w => E e w ∧ P w) w := by
  refine (Plan.Ensures.keep h hw hP).mono ?_
  intro result w ⟨⟨hok, herror⟩, hkept⟩
  exact ⟨fun a ha => ⟨hok a ha, hkept⟩, fun e he => ⟨herror e he, hkept⟩⟩

end
end Bytelink
