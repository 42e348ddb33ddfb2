import HermesConversation.Library.Runs

/-!
# Overlapping sweeps

Workers that each go through the same items, in one run and in any interleaving. A visit
leaves its item done, nothing undoes an item, and a worker that begins has every item before
it. Then the first sweep to end finds everything done, whatever the others were at.
-/

namespace HermesConversation.Library.Sweeps

variable {σ ε ι κ : Type*}

/-- `Begun s k` says that the worker `k` is there, `Left s k i` that it has still to see to the
item `i`; `C` is what is known of the events. -/
structure Sweep (step : σ → ε → σ) (C : ε → Prop) (Inv : σ → Prop) (Done : σ → ι → Prop)
    (Begun : σ → κ → Prop) (Left : σ → κ → ι → Prop) : Prop where
  inv : ∀ s e, C e → Inv s → Inv (step s e)
  keeps : ∀ s e i, C e → Inv s → Done s i → Done (step s e) i
  visits : ∀ s e k i, C e → Inv s → Begun (step s e) k → (Begun s k → Done s i ∨ Left s k i) →
    Done (step s e) i ∨ Left (step s e) k i

def Covered (Done : σ → ι → Prop) (Begun : σ → κ → Prop) (Left : σ → κ → ι → Prop) (s : σ) :
    Prop :=
  ∀ k, Begun s k → ∀ i, Done s i ∨ Left s k i

namespace Sweep

variable {step : σ → ε → σ} {C : ε → Prop} {Inv : σ → Prop} {Done : σ → ι → Prop}
  {Begun : σ → κ → Prop} {Left : σ → κ → ι → Prop} {s : σ} {es : List ε}

theorem inv_run (h : Sweep step C Inv Done Begun Left) (hes : ∀ e ∈ es, C e) (hs : Inv s) :
    Inv (Runs.run step s es) :=
  Runs.run_invariant_of h.inv hes hs

theorem covered_run (h : Sweep step C Inv Done Begun Left) (hes : ∀ e ∈ es, C e) (hs : Inv s)
    (hcovered : Covered Done Begun Left s) :
    Covered Done Begun Left (Runs.run step s es) := by
  have hboth : Inv (Runs.run step s es) ∧ Covered Done Begun Left (Runs.run step s es) := by
    refine Runs.run_invariant_of (P := fun t => Inv t ∧ Covered Done Begun Left t) ?_ hes
      ⟨hs, hcovered⟩
    intro t e he ht
    refine ⟨h.inv t e he ht.1, fun k hk i => ?_⟩
    exact h.visits t e k i he ht.1 hk fun hbegun => ht.2 k hbegun i
  exact hboth.2

/-- A worker that has nothing left finds everything done. -/
theorem done_run (h : Sweep step C Inv Done Begun Left) (hes : ∀ e ∈ es, C e) (hs : Inv s)
    (hcovered : Covered Done Begun Left s) {k : κ} (hk : Begun (Runs.run step s es) k)
    (hover : ∀ i, ¬Left (Runs.run step s es) k i) (i : ι) : Done (Runs.run step s es) i :=
  (h.covered_run hes hs hcovered k hk i).resolve_right (hover i)

end Sweep

end HermesConversation.Library.Sweeps
