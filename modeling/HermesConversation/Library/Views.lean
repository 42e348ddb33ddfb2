import HermesConversation.Library.Runs

/-!
# A part of a system, seen from the whole

A view shows a part of every state, and what an event of the whole is to that part. Where one
step of the whole is a run of the part, so is a run of the whole, and the part may be studied
alone. A flag is the smallest part: some events set it and some clear it. A log only grows.
-/

namespace HermesConversation.Library.Views

open Runs

variable {σ τ ε δ : Type*}

structure View (step : σ → ε → σ) (part : τ → δ → τ) where
  state : σ → τ
  events : σ → ε → List δ
  step_state : ∀ s e, state (step s e) = run part (state s) (events s e)

namespace View

variable {step : σ → ε → σ} {part : τ → δ → τ}

def trace (v : View step part) : σ → List ε → List δ
  | _, [] => []
  | s, e :: es => v.events s e ++ v.trace (step s e) es

theorem step_invariant (v : View step part) {P : τ → Prop} {s : σ} {e : ε}
    (hpart : ∀ t, ∀ d ∈ v.events s e, P t → P (part t d)) (h : P (v.state s)) :
    P (v.state (step s e)) := by
  rw [v.step_state]
  exact run_invariant_of (C := (· ∈ v.events s e)) hpart (fun _ hd => hd) h

theorem run_state (v : View step part) (s : σ) (es : List ε) :
    v.state (run step s es) = run part (v.state s) (v.trace s es) := by
  induction es generalizing s with
  | nil => rfl
  | cons e es ih => rw [run_cons, ih, v.step_state, trace, run_append]

end View

/-! ## Flags -/

section Flag

variable {step : σ → ε → σ} {sets clears : σ → ε → Prop} {s : σ} {e : ε} {es : List ε}

def NeverCleared (step : σ → ε → σ) (clears : σ → ε → Prop) (s : σ) (es : List ε) : Prop :=
  Guarded step (fun s e => ¬clears s e) s es

/-- Some event sets the flag, and none after it clears it. -/
def SetSince (step : σ → ε → σ) (sets clears : σ → ε → Prop) (s : σ) (es : List ε) : Prop :=
  ∃ pre e post, es = pre ++ e :: post ∧ sets (run step s pre) e ∧
    NeverCleared step clears (run step s (pre ++ [e])) post

theorem not_setSince_nil : ¬SetSince step sets clears s [] := by
  intro h
  obtain ⟨pre, e, post, hes, -⟩ := h
  simp at hes

theorem setSince_cons : SetSince step sets clears s (e :: es) ↔
    SetSince step sets clears (step s e) es ∨
      sets s e ∧ NeverCleared step clears (step s e) es := by
  constructor
  · intro h
    obtain ⟨pre, f, post, hes, hsets, hpost⟩ := h
    cases pre with
    | nil =>
      obtain ⟨rfl, rfl⟩ := List.cons.inj hes
      exact .inr ⟨hsets, hpost⟩
    | cons g pre =>
      obtain ⟨rfl, rfl⟩ := List.cons.inj hes
      exact .inl ⟨pre, f, post, rfl, hsets, hpost⟩
  · intro h
    rcases h with ⟨pre, f, post, rfl, hsets, hpost⟩ | ⟨hsets, hpost⟩
    · exact ⟨e :: pre, f, post, rfl, hsets, hpost⟩
    · exact ⟨[], e, es, rfl, hsets, hpost⟩

/-- Such a flag is up exactly since it was last set, or since the start. -/
theorem flag_run_iff {flag : σ → Prop}
    (hstep : ∀ s e, flag (step s e) ↔ sets s e ∨ flag s ∧ ¬clears s e) (s : σ) (es : List ε) :
    flag (run step s es) ↔
      SetSince step sets clears s es ∨ flag s ∧ NeverCleared step clears s es := by
  induction es generalizing s with
  | nil =>
    rw [or_iff_right not_setSince_nil]
    exact (and_iff_left trivial).symm
  | cons e es ih =>
    rw [run_cons, ih, hstep, setSince_cons, or_and_right, or_assoc, and_assoc]
    rfl

end Flag

/-! ## Logs -/

/-- What a run adds to a log is what its events add, each in the state it arrives in. -/
theorem log_run {α : Type*} {step : σ → ε → σ} {log : σ → List α} {adds : σ → ε → List α}
    {Inv : σ → Prop} (hinv : ∀ s e, Inv s → Inv (step s e))
    (hstep : ∀ s e, Inv s → log (step s e) = log s ++ adds s e) {s : σ} (hs : Inv s)
    (es : List ε) : log (run step s es) = log s ++ (trace step adds s es).flatMap Prod.snd := by
  induction es generalizing s with
  | nil => simp [trace]
  | cons e es ih =>
    rw [run_cons, ih (hinv s e hs), hstep s e hs, List.append_assoc, trace, List.flatMap_cons]

end HermesConversation.Library.Views
