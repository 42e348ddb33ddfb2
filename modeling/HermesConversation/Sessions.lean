import HermesConversation.Library.Runs
import Mathlib.Algebra.Order.Group.Defs
import Mathlib.Algebra.Order.Sub.Basic
import Mathlib.Logic.Function.Basic

/-!
# The session tracker

One Hermes session for each origin, minted anew after idling. The clock is an argument of
every operation, so a run is a list of calls with the times at which they read it; times are
any ordered group. `uuid n` is what the `n`-th call of `uuid4` returns, and `minted` counts
these calls. The dictionary of sessions is the partial function it represents.
-/

namespace HermesConversation.Sessions

open Library

structure Session (τ : Type*) where
  sessionId : String
  lastUsed : τ
  snapshot : Option String
  snapshotTaken : τ
  deriving DecidableEq

structure SessionTracker (τ : Type*) where
  idleTimeout : τ
  sessions : String → Option (Session τ)
  minted : ℕ

def sessionIdPrefix : String := "ha-"

def newId (uuid : ℕ → String) (n : ℕ) : String := sessionIdPrefix ++ uuid n

theorem newId_injective {uuid : ℕ → String} (huuid : Function.Injective uuid) :
    Function.Injective (newId uuid) := by
  intro m n h
  have hlists := congrArg String.toList h
  simp only [newId, String.toList_append] at hlists
  exact huuid (String.toList_inj.mp (List.append_cancel_left hlists))

def tally (n : ℕ) : String := String.ofList (List.replicate n 'i')

theorem tally_injective : Function.Injective tally := by
  intro m n h
  simpa [tally] using congrArg (fun s => s.toList.length) h

section Dictionary

variable {τ : Type*}

def touch (t : SessionTracker τ) (now : τ) (origin : String) : SessionTracker τ :=
  match t.sessions origin with
  | none => t
  | some session =>
    let session := { session with lastUsed := now }
    { t with sessions := Function.update t.sessions origin (some session) }

def reset (t : SessionTracker τ) (origin : String) : SessionTracker τ :=
  { t with sessions := Function.update t.sessions origin none }

@[simp] theorem touch_sessions_of_ne (t : SessionTracker τ) (now : τ) {o x : String}
    (h : o ≠ x) : (touch t now x).sessions o = t.sessions o := by
  rw [touch]
  cases t.sessions x <;> simp [h]

@[simp] theorem touch_sessions_self (t : SessionTracker τ) (now : τ) (o : String) :
    (touch t now o).sessions o =
      (t.sessions o).map fun s => { s with lastUsed := now } := by
  rw [touch]
  cases h : t.sessions o <;> simp [h]

@[simp] theorem reset_sessions (t : SessionTracker τ) (x o : String) :
    (reset t x).sessions o = if o = x then none else t.sessions o := by
  simp [reset, Function.update_apply]

@[simp] theorem touch_idleTimeout (t : SessionTracker τ) (now : τ) (o : String) :
    (touch t now o).idleTimeout = t.idleTimeout := by
  rw [touch]
  cases t.sessions o <;> rfl

@[simp] theorem touch_minted (t : SessionTracker τ) (now : τ) (o : String) :
    (touch t now o).minted = t.minted := by
  rw [touch]
  cases t.sessions o <;> rfl

end Dictionary

section Clocked

variable {τ : Type*} [AddCommGroup τ] [LinearOrder τ]

def fresh (idleTimeout : τ) : SessionTracker τ := ⟨idleTimeout, fun _ => none, 0⟩

def enabled (t : SessionTracker τ) : Bool := decide (0 < t.idleTimeout)

def Expired (idleTimeout now : τ) (s : Session τ) : Prop := idleTimeout ≤ now - s.lastUsed

instance (idleTimeout now : τ) (s : Session τ) : Decidable (Expired idleTimeout now s) :=
  inferInstanceAs (Decidable (_ ≤ _))

/-- Every origin's session is examined, not only the caller's. -/
def prune (t : SessionTracker τ) (now : τ) : SessionTracker τ :=
  { t with sessions := fun origin =>
      (t.sessions origin).filter fun s => ¬ Expired t.idleTimeout now s }

def sessionFor (uuid : ℕ → String) (t : SessionTracker τ) (now : τ) (origin : String) :
    String × SessionTracker τ :=
  let t := prune t now
  match t.sessions origin with
  | some session => (session.sessionId, t)
  | none =>
    let session : Session τ := ⟨newId uuid t.minted, now, none, 0⟩
    (session.sessionId,
      { t with
        sessions := Function.update t.sessions origin (some session)
        minted := t.minted + 1 })

/-- `take` is what the snapshot function returns or raises, should it be called. -/
def snapshotFor (t : SessionTracker τ) (now : τ) (origin : String)
    (take : Except String String) (maxAge : τ) : Except String String × SessionTracker τ :=
  match t.sessions origin with
  | none => (take, t)
  | some session =>
    match session.snapshot with
    | some text =>
      if maxAge ≤ now - session.snapshotTaken then retake session else (.ok text, t)
    | none => retake session
where
  retake (session : Session τ) : Except String String × SessionTracker τ :=
    match take with
    | .error err => (.error err, t)
    | .ok text =>
      let session := { session with snapshot := some text, snapshotTaken := now }
      (.ok text, { t with sessions := Function.update t.sessions origin (some session) })

theorem prune_sessions (t : SessionTracker τ) (now : τ) (o : String) :
    (prune t now).sessions o =
      (t.sessions o).filter fun s => ¬ Expired t.idleTimeout now s := rfl

theorem prune_some_iff {t : SessionTracker τ} {now : τ} {o : String} {s : Session τ} :
    (prune t now).sessions o = some s ↔
      t.sessions o = some s ∧ now - s.lastUsed < t.idleTimeout := by
  simp [prune_sessions, Option.filter_eq_some_iff, Expired]

theorem sessionFor_of_live {uuid : ℕ → String} {t : SessionTracker τ} {now : τ} {o : String}
    {s : Session τ} (h : (prune t now).sessions o = some s) :
    sessionFor uuid t now o = (s.sessionId, prune t now) := by
  simp only [sessionFor, h]

theorem sessionFor_of_none {uuid : ℕ → String} {t : SessionTracker τ} {now : τ} {o : String}
    (h : (prune t now).sessions o = none) :
    sessionFor uuid t now o = (newId uuid t.minted,
      { prune t now with
        sessions := Function.update (prune t now).sessions o
          (some ⟨newId uuid t.minted, now, none, 0⟩)
        minted := t.minted + 1 }) := by
  simp only [sessionFor, h]
  rfl

theorem sessionFor_other (uuid : ℕ → String) (t : SessionTracker τ) (now : τ) {o x : String}
    (h : o ≠ x) :
    let t' := (sessionFor uuid t now x).2
    t'.idleTimeout = t.idleTimeout ∧ t.minted ≤ t'.minted ∧
      t'.sessions o = (prune t now).sessions o := by
  cases hfound : (prune t now).sessions x with
  | some s => rw [sessionFor_of_live hfound]; exact ⟨rfl, le_rfl, rfl⟩
  | none =>
    rw [sessionFor_of_none hfound]
    exact ⟨rfl, Nat.le_succ _, Function.update_of_ne h _ _⟩

theorem snapshotFor_keeps (t : SessionTracker τ) (now : τ) (x : String)
    (take : Except String String) (maxAge : τ) :
    let t' := (snapshotFor t now x take maxAge).2
    t'.idleTimeout = t.idleTimeout ∧ t'.minted = t.minted ∧
      ∀ o, (t'.sessions o).map (fun s => (s.sessionId, s.lastUsed)) =
        (t.sessions o).map fun s => (s.sessionId, s.lastUsed) := by
  have hretake : ∀ session, t.sessions x = some session →
      let t' := (snapshotFor.retake t now x take session).2
      t'.idleTimeout = t.idleTimeout ∧ t'.minted = t.minted ∧
        ∀ o, (t'.sessions o).map (fun s => (s.sessionId, s.lastUsed)) =
          (t.sessions o).map fun s => (s.sessionId, s.lastUsed) := by
    intro session hsession
    unfold snapshotFor.retake
    cases take with
    | error err => exact ⟨rfl, rfl, fun _ => rfl⟩
    | ok text =>
      refine ⟨rfl, rfl, fun o => ?_⟩
      by_cases ho : o = x
      · subst ho; simp [hsession]
      · simp [ho]
  rw [snapshotFor]
  cases hsession : t.sessions x with
  | none => exact ⟨rfl, rfl, fun _ => rfl⟩
  | some session =>
    dsimp only
    cases session.snapshot with
    | none => exact hretake session hsession
    | some text =>
      dsimp only
      split_ifs
      · exact hretake session hsession
      · exact ⟨rfl, rfl, fun _ => rfl⟩

/-- A session after a snapshot is one from before it, with the same id and last use. -/
theorem snapshotFor_some {t : SessionTracker τ} {now maxAge : τ} {x o : String}
    {take : Except String String} {s' : Session τ}
    (h : (snapshotFor t now x take maxAge).2.sessions o = some s') :
    ∃ s, t.sessions o = some s ∧ s.sessionId = s'.sessionId ∧ s.lastUsed = s'.lastUsed := by
  have hpair := ((snapshotFor_keeps t now x take maxAge).2.2 o).symm
  rw [h, Option.map_some, Option.map_eq_some_iff] at hpair
  obtain ⟨s, hs, hsame⟩ := hpair
  obtain ⟨hid, hlast⟩ := Prod.mk.inj hsame
  exact ⟨s, hs, hid, hlast⟩

theorem snapshotFor_of_some {t : SessionTracker τ} {now maxAge : τ} {x o : String}
    {take : Except String String} {s : Session τ} (h : t.sessions o = some s) :
    ∃ s', (snapshotFor t now x take maxAge).2.sessions o = some s' ∧
      s'.sessionId = s.sessionId ∧ s'.lastUsed = s.lastUsed := by
  have hpair := (snapshotFor_keeps t now x take maxAge).2.2 o
  rw [h, Option.map_some, Option.map_eq_some_iff] at hpair
  obtain ⟨s', hs', hsame⟩ := hpair
  obtain ⟨hid, hlast⟩ := Prod.mk.inj hsame
  exact ⟨s', hs', hid, hlast⟩

end Clocked

/-! ## Runs -/

inductive Op (τ : Type*) where
  | sessionFor (origin : String)
  | touch (origin : String)
  | reset (origin : String)
  | snapshotFor (origin : String) (take : Except String String) (maxAge : τ)

def Op.origin {τ : Type*} : Op τ → String
  | .sessionFor o | .touch o | .reset o | .snapshotFor o _ _ => o

structure Call (τ : Type*) where
  now : τ
  op : Op τ

inductive Reply where
  | id (sessionId : String)
  | done
  | snapshot (text : Except String String)

section Runs

variable {τ : Type*} [AddCommGroup τ] [LinearOrder τ]

def step (uuid : ℕ → String) (t : SessionTracker τ) (c : Call τ) : SessionTracker τ :=
  match c.op with
  | .sessionFor o => (sessionFor uuid t c.now o).2
  | .touch o => touch t c.now o
  | .reset o => reset t o
  | .snapshotFor o take maxAge => (snapshotFor t c.now o take maxAge).2

def reply (uuid : ℕ → String) (t : SessionTracker τ) (c : Call τ) : Reply :=
  match c.op with
  | .sessionFor o => .id (sessionFor uuid t c.now o).1
  | .touch _ | .reset _ => .done
  | .snapshotFor o take maxAge => .snapshot (snapshotFor t c.now o take maxAge).1

def after (uuid : ℕ → String) (idleTimeout : τ) (cs : List (Call τ)) : SessionTracker τ :=
  Runs.run (step uuid) (fresh idleTimeout) cs

def history (uuid : ℕ → String) (idleTimeout : τ) (cs : List (Call τ)) :
    List (Call τ × Reply) :=
  Runs.trace (step uuid) (reply uuid) (fresh idleTimeout) cs

def Nondecreasing (cs : List (Call τ)) : Prop := cs.Pairwise fun a b => a.now ≤ b.now

instance (cs : List (Call τ)) : Decidable (Nondecreasing cs) :=
  inferInstanceAs (Decidable (cs.Pairwise _))

end Runs

end HermesConversation.Sessions
