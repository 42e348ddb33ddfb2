import HermesConversation.Library.Runs
import Mathlib.Logic.Function.Basic

/-!
# Values that are kept once they have been read

A value that depends on a state is computed when it is first read and kept from then on. A
change of the state forgets what is kept under some keys. As long as every change forgets all
the values it alters, what is read is what would be computed.
-/

namespace HermesConversation.Library.Memo

variable {σ ε κ α : Type*}

abbrev Kept (κ α : Type*) := κ → Option α

def read [DecidableEq κ] (f : κ → Option α) (m : Kept κ α) (k : κ) : Option α × Kept κ α :=
  match f k, m k with
  | none, _ => (none, m)
  | some _, some kept => (some kept, m)
  | some value, none => (some value, Function.update m k (some value))

def forget [DecidableEq κ] (ks : List κ) (m : Kept κ α) : Kept κ α := fun k =>
  if k ∈ ks then none else m k

def Coherent (f : κ → Option α) (m : Kept κ α) : Prop :=
  ∀ k kept value, m k = some kept → f k = some value → kept = value

/-- What is there under any other key was there before, and is the same. -/
def Unaltered (ks : List κ) (f g : κ → Option α) : Prop :=
  ∀ k, k ∉ ks → ∀ value, g k = some value → f k = some value

section Kept

variable {f g : κ → Option α} {m : Kept κ α} {k : κ} {ks : List κ}

theorem coherent_empty : Coherent f fun _ => none := fun _ _ _ hkept => by cases hkept

theorem unaltered_of_eq (h : g = f) : Unaltered ks f g := by
  intro k _ value hvalue
  rwa [h] at hvalue

variable [DecidableEq κ]

theorem read_fresh (h : Coherent f m) (k : κ) : (read f m k).1 = f k := by
  rw [read]
  cases hvalue : f k with
  | none => rfl
  | some value =>
    cases hkept : m k with
    | none => rfl
    | some kept => exact congrArg some (h k kept value hkept hvalue)

theorem Coherent.read (h : Coherent f m) (k : κ) : Coherent f (read f m k).2 := by
  rw [Memo.read]
  cases hvalue : f k with
  | none => exact h
  | some value =>
    cases hkept : m k with
    | some kept => exact h
    | none =>
      intro k' kept' value' hkept' hvalue'
      dsimp only at hkept'
      by_cases hk : k' = k
      · subst hk
        rw [Function.update_self] at hkept'
        rw [hvalue] at hvalue'
        exact (Option.some.inj hkept').symm.trans (Option.some.inj hvalue')
      · rw [show Function.update m k (some value) k' = m k' from Function.update_of_ne hk _ _]
          at hkept'
        exact h k' kept' value' hkept' hvalue'

theorem Coherent.forget (h : Coherent f m) (hg : Unaltered ks f g) : Coherent g (forget ks m) := by
  intro k kept value hkept hvalue
  rw [Memo.forget] at hkept
  split_ifs at hkept with hk
  exact h k kept value hkept (hg k hk value hvalue)

end Kept

/-! ## Runs of changes and reads -/

inductive Op (ε κ : Type*) where
  | change (e : ε)
  | read (k : κ)

/-- `f` is what is read of a state, `drops` are the keys that an event makes forget. -/
def step [DecidableEq κ] (next : σ → ε → σ) (f : σ → κ → Option α) (drops : σ → ε → List κ)
    (s : σ × Kept κ α) : Op ε κ → σ × Kept κ α
  | .change e => (next s.1 e, forget (drops s.1 e) s.2)
  | .read k => (s.1, (read (f s.1) s.2 k).2)

def Allowed (G : σ → ε → Prop) (s : σ × Kept κ α) : Op ε κ → Prop
  | .change e => G s.1 e
  | .read _ => True

variable [DecidableEq κ] {next : σ → ε → σ} {f : σ → κ → Option α} {drops : σ → ε → List κ}
  {I : σ → Prop} {G : σ → ε → Prop} {s : σ × Kept κ α} {ops : List (Op ε κ)}

theorem coherent_run (hinv : ∀ s e, I s → G s e → I (next s e))
    (hdrops : ∀ s e, I s → G s e → Unaltered (drops s e) (f s) (f (next s e)))
    (hs : I s.1) (hm : Coherent (f s.1) s.2)
    (hops : Runs.Guarded (step next f drops) (Allowed G) s ops) :
    I (Runs.run (step next f drops) s ops).1 ∧
      Coherent (f (Runs.run (step next f drops) s ops).1)
        (Runs.run (step next f drops) s ops).2 := by
  induction ops generalizing s with
  | nil => exact ⟨hs, hm⟩
  | cons op ops ih =>
    obtain ⟨hop, hops⟩ := hops
    cases op with
    | change e => exact ih (hinv s.1 e hs hop) (hm.forget (hdrops s.1 e hs hop)) hops
    | read k => exact ih hs (hm.read k) hops

/-- Every read in a run is of the state as it is. -/
theorem fresh_run (hinv : ∀ s e, I s → G s e → I (next s e))
    (hdrops : ∀ s e, I s → G s e → Unaltered (drops s e) (f s) (f (next s e)))
    (hs : I s.1) (hm : Coherent (f s.1) s.2)
    (hops : Runs.Guarded (step next f drops) (Allowed G) s ops) (k : κ) :
    (read (f (Runs.run (step next f drops) s ops).1) (Runs.run (step next f drops) s ops).2 k).1 =
      f (Runs.run (step next f drops) s ops).1 k :=
  read_fresh (coherent_run hinv hdrops hs hm hops).2 k

end HermesConversation.Library.Memo
