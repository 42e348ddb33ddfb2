import Mathlib.Data.List.Induction
import Mathlib.Tactic.Common

/-!
# Runs of a step function

A system is a deterministic step function over states and events; an event carries
whatever the environment chose, so every interleaving is a list of events. The two
predicates on runs are `Throughout`, which holds of every state the run passes
through, and `Guarded`, which holds of every event in the state it arrives in.

`throughout_of_guarded` is the invariant rule. `throughout_iff_guarded` is its exact
form: where the guard says precisely which events keep a property, the runs that
keep it throughout are the guarded ones.
-/

namespace HermesConversation.Library.Runs

variable {σ ε : Type*} {step : σ → ε → σ} {P Aux : σ → Prop} {G : σ → ε → Prop}

def run (step : σ → ε → σ) (s : σ) (es : List ε) : σ := es.foldl step s

@[simp] theorem run_nil (s : σ) : run step s [] = s := rfl

@[simp] theorem run_cons (s : σ) (e : ε) (es : List ε) :
    run step s (e :: es) = run step (step s e) es := rfl

theorem run_append (s : σ) (es fs : List ε) :
    run step s (es ++ fs) = run step (run step s es) fs :=
  List.foldl_append

theorem run_concat (s : σ) (es : List ε) (e : ε) :
    run step s (es ++ [e]) = step (run step s es) e := by
  simp [run_append]

theorem run_invariant (hstep : ∀ s e, P s → P (step s e)) {s : σ} (hs : P s) (es : List ε) :
    P (run step s es) := by
  induction es generalizing s with
  | nil => exact hs
  | cons e es ih => exact ih (hstep s e hs)

theorem run_invariant_of {C : ε → Prop} (hstep : ∀ s e, C e → P s → P (step s e)) {s : σ}
    {es : List ε} (hes : ∀ e ∈ es, C e) (hs : P s) : P (run step s es) := by
  induction es generalizing s with
  | nil => exact hs
  | cons e es ih =>
    obtain ⟨he, hes⟩ := List.forall_mem_cons.mp hes
    exact ih hes (hstep s e he hs)

theorem run_frame {α : Type*} {f : σ → α} (hstep : ∀ s e, f (step s e) = f s) (s : σ)
    (es : List ε) : f (run step s es) = f s :=
  run_invariant (P := fun t => f t = f s) (fun t e ht => (hstep t e).trans ht) rfl es

theorem scanl_invariant (hstep : ∀ s e, P s → P (step s e)) {s : σ} (hs : P s) (es : List ε) :
    ∀ t ∈ es.scanl step s, P t := by
  induction es generalizing s with
  | nil =>
    intro t ht
    rw [List.scanl_nil, List.mem_singleton] at ht
    exact ht ▸ hs
  | cons e es ih =>
    rw [List.scanl_cons, List.forall_mem_cons]
    exact ⟨hs, ih (hstep s e hs)⟩

/-- Every state the run passes through, its first and last ones included. -/
def Throughout (step : σ → ε → σ) (P : σ → Prop) : σ → List ε → Prop
  | s, [] => P s
  | s, e :: es => P s ∧ Throughout step P (step s e) es

def Guarded (step : σ → ε → σ) (G : σ → ε → Prop) : σ → List ε → Prop
  | _, [] => True
  | s, e :: es => G s e ∧ Guarded step G (step s e) es

theorem Throughout.head {s : σ} {es : List ε} (h : Throughout step P s es) : P s := by
  cases es with
  | nil => exact h
  | cons e es => exact h.1

theorem Throughout.imp {Q : σ → Prop} (hpq : ∀ s, P s → Q s) {s : σ} {es : List ε}
    (h : Throughout step P s es) : Throughout step Q s es := by
  induction es generalizing s with
  | nil => exact hpq s h
  | cons e es ih => exact ⟨hpq s h.1, ih h.2⟩

theorem throughout_of_guarded (hstep : ∀ s e, P s → G s e → P (step s e))
    {s : σ} {es : List ε} (hs : P s) (hg : Guarded step G s es) :
    Throughout step P s es := by
  induction es generalizing s with
  | nil => exact hs
  | cons e es ih => exact ⟨hs, ih (hstep s e hs hg.1) hg.2⟩

/-- `Aux` collects the facts a run keeps as long as it keeps `P`; `C` is what the events of
the run are known to be. -/
theorem throughout_iff_guarded {C : ε → Prop}
    (haux : ∀ s e, C e → Aux s → P s → P (step s e) → Aux (step s e))
    (hiff : ∀ s e, C e → Aux s → P s → (P (step s e) ↔ G s e))
    {s : σ} {es : List ε} (hes : ∀ e ∈ es, C e) (ha : Aux s) (hs : P s) :
    Throughout step P s es ↔ Guarded step G s es := by
  induction es generalizing s with
  | nil => exact ⟨fun _ => trivial, fun _ => hs⟩
  | cons e es ih =>
    obtain ⟨he, hes⟩ := List.forall_mem_cons.mp hes
    constructor
    · intro h
      obtain ⟨_, hrest⟩ := h
      have hnext := hrest.head
      exact ⟨(hiff s e he ha hs).mp hnext,
        (ih hes (haux s e he ha hs hnext) hnext).mp hrest⟩
    · intro h
      obtain ⟨hg, hrest⟩ := h
      have hnext := (hiff s e he ha hs).mpr hg
      exact ⟨hs, (ih hes (haux s e he ha hs hnext) hnext).mpr hrest⟩

theorem guarded_congr {H : σ → ε → Prop} {C : ε → Prop}
    (haux : ∀ s e, C e → Aux s → Aux (step s e))
    (hiff : ∀ s e, C e → Aux s → (G s e ↔ H s e))
    {s : σ} {es : List ε} (hes : ∀ e ∈ es, C e) (ha : Aux s) :
    Guarded step G s es ↔ Guarded step H s es := by
  induction es generalizing s with
  | nil => exact Iff.rfl
  | cons e es ih =>
    obtain ⟨he, hes⟩ := List.forall_mem_cons.mp hes
    exact and_congr (hiff s e he ha) (ih hes (haux s e he ha))

theorem guarded_iff_prefix {s : σ} {es : List ε} :
    Guarded step G s es ↔ ∀ pre e, pre ++ [e] <+: es → G (run step s pre) e := by
  induction es generalizing s with
  | nil => simp [Guarded]
  | cons f es ih =>
    rw [Guarded, ih]
    constructor
    · intro h pre e hpre
      obtain ⟨hf, hrest⟩ := h
      cases pre with
      | nil =>
        obtain ⟨rfl, -⟩ := List.cons_prefix_cons.mp hpre
        exact hf
      | cons g pre =>
        obtain ⟨rfl, htail⟩ := List.cons_prefix_cons.mp hpre
        exact hrest pre e htail
    · intro h
      exact ⟨h [] f (List.cons_prefix_cons.mpr ⟨rfl, List.nil_prefix⟩),
        fun pre e hpre => h (f :: pre) e (List.cons_prefix_cons.mpr ⟨rfl, hpre⟩)⟩

section Trace

variable {ρ : Type*} {out : σ → ε → ρ}

def trace (step : σ → ε → σ) (out : σ → ε → ρ) : σ → List ε → List (ε × ρ)
  | _, [] => []
  | s, e :: es => (e, out s e) :: trace step out (step s e) es

theorem trace_append (s : σ) (es fs : List ε) :
    trace step out s (es ++ fs) =
      trace step out s es ++ trace step out (run step s es) fs := by
  induction es generalizing s with
  | nil => rfl
  | cons e es ih => simp [trace, ih]

theorem trace_concat (s : σ) (es : List ε) (e : ε) :
    trace step out s (es ++ [e]) = trace step out s es ++ [(e, out (run step s es) e)] := by
  simp [trace_append, trace]

theorem trace_events (s : σ) (es : List ε) : (trace step out s es).map Prod.fst = es := by
  induction es generalizing s with
  | nil => rfl
  | cons e es ih => simp [trace, ih]

theorem concat_eq_append_cons {α : Type*} {l l₁ l₂ : List α} {x y : α} :
    l ++ [x] = l₁ ++ y :: l₂ ↔
      (l₂ = [] ∧ l = l₁ ∧ x = y) ∨ ∃ l₃, l₂ = l₃ ++ [x] ∧ l = l₁ ++ y :: l₃ := by
  rcases List.eq_nil_or_concat l₂ with rfl | ⟨l₃, z, rfl⟩
  · simp
  · have hassoc : l₁ ++ y :: l₃.concat z = (l₁ ++ y :: l₃) ++ [z] := by simp
    rw [hassoc, List.append_singleton_inj]
    constructor
    · intro h
      obtain ⟨rfl, rfl⟩ := h
      exact .inr ⟨l₃, by simp, rfl⟩
    · intro h
      rcases h with ⟨hnil, -⟩ | ⟨l₄, hl, rfl⟩
      · simp at hnil
      · rw [List.concat_eq_append, List.append_singleton_inj] at hl
        obtain ⟨rfl, rfl⟩ := hl
        exact ⟨rfl, rfl⟩

theorem trace_invariant {I : List (ε × ρ) → σ → Prop} {C : List ε → ε → Prop} {s₀ : σ}
    (hinit : I [] s₀)
    (hstep : ∀ es e, C es e → I (trace step out s₀ es) (run step s₀ es) →
      I (trace step out s₀ es ++ [(e, out (run step s₀ es) e)]) (step (run step s₀ es) e))
    {es : List ε} (hes : ∀ pre e, pre ++ [e] <+: es → C pre e) :
    I (trace step out s₀ es) (run step s₀ es) := by
  induction es using List.reverseRecOn with
  | nil => exact hinit
  | append_singleton es e ih =>
    rw [trace_concat, run_concat]
    refine hstep es e (hes es e List.prefix_rfl) (ih fun pre f hpre => ?_)
    exact hes pre f (hpre.trans (List.prefix_append es [e]))

end Trace

end HermesConversation.Library.Runs
