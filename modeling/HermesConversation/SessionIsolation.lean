import HermesConversation.SessionHistory

/-!
# What other origins do to a session

Two runs agree on `o` when the calls of `o` and their times are the same. Whether `o`'s
lookups continue then depends on the calls of the others for one reason only: a touch that
comes after the idle timeout revives a session which no lookup has pruned yet. `ownStep`
follows a session through the calls of `o` alone and notes such a revival.
-/

namespace HermesConversation.SessionIsolation

open Library Sessions SessionHistory

section Definitions

variable {τ : Type*}

def ownCalls (o : String) (cs : List (Call τ)) : List (Call τ) :=
  cs.filter fun c => c.op.origin = o

/-- For each lookup of `o`, whether it returned what the one before it did. -/
def continuations (o : String) : Option String → History τ → List Bool
  | _, [] => []
  | prev, x :: h =>
    match lookedUp o x with
    | some sid => decide (prev = some sid) :: continuations o (some sid) h
    | none => continuations o prev h

variable [AddCommGroup τ] [LinearOrder τ]

/-- The last activity of a session seen through `o`'s calls alone, and whether it came too
late to count. -/
def ownStep (T : τ) (st : Option (τ × Bool)) (c : Call τ) : Option (τ × Bool) :=
  match st, c.op with
  | none, .sessionFor _ => some (c.now, false)
  | none, _ => none
  | some (a, revived), .sessionFor _ =>
    if c.now - a < T then some (a, revived) else some (c.now, false)
  | some (a, revived), .touch _ => some (c.now, revived || decide (T ≤ c.now - a))
  | some _, .reset _ => none
  | some st, .snapshotFor _ _ _ => some st

def NoRevival (T : τ) (st : Option (τ × Bool)) (c : Call τ) : Prop :=
  ∀ o a, c.op = .sessionFor o → st = some (a, true) → T ≤ c.now - a

def inTimeOf (T : τ) (st : Option (τ × Bool)) (now : τ) : Bool :=
  st.any fun p => decide (now - p.1 < T)

def ownContinuations (T : τ) : Option (τ × Bool) → List (Call τ) → List Bool
  | _, [] => []
  | st, c :: cs =>
    match c.op with
    | .sessionFor _ => inTimeOf T st c.now :: ownContinuations T (ownStep T st c) cs
    | _ => ownContinuations T (ownStep T st c) cs

def crowded (other : String) (cs : List (Call τ)) : List (Call τ) :=
  cs.flatMap fun c => [⟨c.now, .sessionFor other⟩, c]

/-- How the tracker's session of `o` relates to `o`'s own view of it. A revived session is
there only if `keep`, and a session may be gone, once it has expired, only if `drop`. -/
structure Follows (keep drop : Prop) (uuid : ℕ → String) (T clock : τ) (o : String)
    (st : Option (τ × Bool)) (t : SessionTracker τ) (prev : Option String) : Prop where
  idle : t.idleTimeout = T
  minted : ∀ sid, prev = some sid → ∃ k < t.minted, sid = newId uuid k
  absent : st = none → t.sessions o = none
  present : ∀ a revived, st = some (a, revived) →
    (∃ s, t.sessions o = some s ∧ s.lastUsed = a ∧ prev = some s.sessionId ∧
      (revived = true → keep)) ∨
    (t.sessions o = none ∧ drop ∧ (revived = true ∨ T ≤ clock - a))

end Definitions

section Calls

variable {τ : Type*} {o other : String} {c : Call τ} {os : List (Call τ)}

theorem ownCalls_cons_own (hop : c.op.origin = o) (cs : List (Call τ)) :
    ownCalls o (c :: cs) = c :: ownCalls o cs := by
  simp [ownCalls, hop]

theorem ownCalls_cons_other (hop : c.op.origin ≠ o) (cs : List (Call τ)) :
    ownCalls o (c :: cs) = ownCalls o cs := by
  simp [ownCalls, hop]

theorem ownCalls_of_own (hown : ∀ c ∈ os, c.op.origin = o) : ownCalls o os = os :=
  List.filter_eq_self.mpr fun c hc => by simpa using hown c hc

theorem crowded_cons (c : Call τ) (cs : List (Call τ)) :
    crowded other (c :: cs) = ⟨c.now, .sessionFor other⟩ :: c :: crowded other cs := rfl

theorem ownCalls_crowded (hother : other ≠ o) (hown : ∀ c ∈ os, c.op.origin = o) :
    ownCalls o (crowded other os) = os := by
  induction os with
  | nil => rfl
  | cons c os ih =>
    have hlookup : (Call.mk c.now (.sessionFor other)).op.origin ≠ o := hother
    rw [crowded_cons, ownCalls_cons_other hlookup, ownCalls_cons_own (hown c List.mem_cons_self),
      ih fun d hd => hown d (List.mem_cons_of_mem c hd)]

end Calls

section Steps

variable {τ : Type*} [AddCommGroup τ] [LinearOrder τ] [IsOrderedAddMonoid τ]
  {keep drop : Prop} {uuid : ℕ → String} {T clock now : τ} {o : String}
  {st : Option (τ × Bool)} {t t' : SessionTracker τ} {prev : Option String}

omit [IsOrderedAddMonoid τ] in
theorem inTimeOf_iff :
    inTimeOf T st now = true ↔ ∃ a revived, st = some (a, revived) ∧ now - a < T := by
  cases st with
  | none => simp [inTimeOf]
  | some p => simp [inTimeOf, Prod.ext_iff]

omit [IsOrderedAddMonoid τ] in
theorem follows_fresh : Follows keep drop uuid T clock o none (fresh T) none where
  idle := rfl
  minted := by simp
  absent := fun _ => rfl
  present := by simp

theorem Follows.of_same (hf : Follows keep drop uuid T clock o st t prev) (hle : clock ≤ now)
    (hidle : t'.idleTimeout = t.idleTimeout) (hminted : t.minted ≤ t'.minted)
    (hsame : (t'.sessions o).map (fun s => (s.sessionId, s.lastUsed)) =
      (t.sessions o).map fun s => (s.sessionId, s.lastUsed)) :
    Follows keep drop uuid T now o st t' prev where
  idle := hidle.trans hf.idle
  minted := by
    intro sid hsid
    obtain ⟨k, hk, hid⟩ := hf.minted sid hsid
    exact ⟨k, hk.trans_le hminted, hid⟩
  absent := by
    intro hst
    rw [hf.absent hst] at hsame
    exact Option.map_eq_none_iff.mp hsame
  present := by
    intro a revived hst
    rcases hf.present a revived hst with ⟨s, hs, hlast, hprev, hkeep⟩ | ⟨hs, hdrop, hlate⟩
    · rw [hs, Option.map_some, Option.map_eq_some_iff] at hsame
      obtain ⟨s', hs', hpair⟩ := hsame
      obtain ⟨hid, hlast'⟩ := Prod.mk.inj hpair
      exact .inl ⟨s', hs', hlast'.trans hlast, by rw [hid, hprev], hkeep⟩
    · rw [hs] at hsame
      refine .inr ⟨Option.map_eq_none_iff.mp hsame, hdrop, hlate.imp_right fun h => ?_⟩
      exact h.trans (sub_le_sub_right hle a)

omit [IsOrderedAddMonoid τ] in
theorem Follows.of_held (hf : Follows keep drop uuid T clock o st t prev) {s : Session τ}
    (hs : t.sessions o = some s) :
    ∃ revived, st = some (s.lastUsed, revived) ∧ prev = some s.sessionId ∧
      (revived = true → keep) := by
  cases st with
  | none =>
    rw [hf.absent rfl] at hs
    cases hs
  | some p =>
    obtain ⟨a, revived⟩ := p
    rcases hf.present a revived rfl with ⟨s', hs', hlast, hprev, hkeep⟩ | ⟨hs', -⟩
    · obtain rfl : s = s' := Option.some.inj (hs.symm.trans hs')
      exact ⟨revived, by rw [hlast], hprev, hkeep⟩
    · rw [hs'] at hs
      cases hs

omit [IsOrderedAddMonoid τ] in
theorem Follows.ne_newId (hf : Follows keep drop uuid T clock o st t prev)
    (huuid : Function.Injective uuid) : prev ≠ some (newId uuid t.minted) := by
  intro hprev
  obtain ⟨k, hk, hid⟩ := hf.minted _ hprev
  exact absurd (newId_injective huuid hid) (Nat.ne_of_gt hk)

/-- A session that is gone, expired or pruned for another origin, is late by `o`'s own calls. -/
theorem Follows.late_of_pruned (hf : Follows keep drop uuid T clock o st t prev)
    (hle : clock ≤ now) (hrev : drop → NoRevival T st ⟨now, .sessionFor o⟩)
    (hfound : (prune t now).sessions o = none) {a : τ} {revived : Bool}
    (hst : st = some (a, revived)) : ¬ now - a < T := by
  intro htime
  rcases hf.present a revived hst with ⟨s, hs, hlast, -⟩ | ⟨-, hdrop, hcause⟩
  · have hkept : (prune t now).sessions o = some s :=
      prune_some_iff.mpr ⟨hs, by rw [hlast, hf.idle]; exact htime⟩
    rw [hfound] at hkept
    cases hkept
  · rcases hcause with rfl | hcause
    · exact absurd htime (not_lt.mpr (hrev hdrop o a rfl hst))
    · exact absurd htime (not_lt.mpr (hcause.trans (sub_le_sub_right hle a)))

omit [IsOrderedAddMonoid τ] in
theorem Follows.sessionFor_live (hf : Follows keep drop uuid T clock o st t prev) {s : Session τ}
    (hfound : (prune t now).sessions o = some s) :
    (prev = some s.sessionId ↔ inTimeOf T st now = true) ∧
    Follows keep drop uuid T now o (ownStep T st ⟨now, .sessionFor o⟩) (prune t now)
      (some s.sessionId) := by
  obtain ⟨hs, htime⟩ := prune_some_iff.mp hfound
  rw [hf.idle] at htime
  obtain ⟨revived, rfl, hprev, hkeep⟩ := hf.of_held hs
  have hown : ownStep T (some (s.lastUsed, revived)) ⟨now, .sessionFor o⟩ =
      some (s.lastUsed, revived) := by
    simp only [ownStep, if_pos htime]
  refine ⟨⟨fun _ => inTimeOf_iff.mpr ⟨_, revived, rfl, htime⟩, fun _ => hprev⟩, ?_⟩
  rw [hown]
  refine ⟨hf.idle, ?_, by simp, ?_⟩
  · intro sid hsid
    exact hf.minted sid (hprev.trans hsid)
  · intro a' revived' hst
    obtain ⟨rfl, rfl⟩ := Prod.mk.inj (Option.some.inj hst)
    exact .inl ⟨s, hfound, rfl, rfl, hkeep⟩

theorem Follows.sessionFor_new (hf : Follows keep drop uuid T clock o st t prev)
    (huuid : Function.Injective uuid) (hle : clock ≤ now)
    (hrev : drop → NoRevival T st ⟨now, .sessionFor o⟩)
    (hfound : (prune t now).sessions o = none) :
    (prev = some (sessionFor uuid t now o).1 ↔ inTimeOf T st now = true) ∧
    Follows keep drop uuid T now o (ownStep T st ⟨now, .sessionFor o⟩)
      (sessionFor uuid t now o).2 (some (sessionFor uuid t now o).1) := by
  have hown : ownStep T st ⟨now, .sessionFor o⟩ = some (now, false) := by
    cases st with
    | none => rfl
    | some p => simp only [ownStep, if_neg (hf.late_of_pruned hle hrev hfound rfl)]
  rw [sessionFor_of_none hfound, hown]
  refine ⟨⟨fun hprev => absurd hprev (hf.ne_newId huuid), ?_⟩, hf.idle, ?_, by simp, ?_⟩
  · intro hintime
    obtain ⟨a, revived, hst, htime⟩ := inTimeOf_iff.mp hintime
    exact absurd htime (hf.late_of_pruned hle hrev hfound hst)
  · intro sid hsid
    exact ⟨t.minted, Nat.lt_succ_self _, (Option.some.inj hsid).symm⟩
  · intro a revived hst
    obtain ⟨rfl, rfl⟩ := Prod.mk.inj (Option.some.inj hst)
    exact .inl ⟨_, Function.update_self _ _ _, rfl, rfl, by simp⟩

/-- A lookup of `o` continues exactly as `o`'s own calls say, unless it relies on a revival
that another origin may have undone. -/
theorem Follows.sessionFor (hf : Follows keep drop uuid T clock o st t prev)
    (huuid : Function.Injective uuid) (hle : clock ≤ now)
    (hrev : drop → NoRevival T st ⟨now, .sessionFor o⟩) :
    (prev = some (sessionFor uuid t now o).1 ↔ inTimeOf T st now = true) ∧
    Follows keep drop uuid T now o (ownStep T st ⟨now, .sessionFor o⟩)
      (sessionFor uuid t now o).2 (some (sessionFor uuid t now o).1) := by
  cases hfound : (prune t now).sessions o with
  | some s =>
    rw [sessionFor_of_live hfound]
    exact hf.sessionFor_live hfound
  | none => exact hf.sessionFor_new huuid hle hrev hfound

theorem Follows.touch (hf : Follows keep drop uuid T clock o st t prev) (hle : clock ≤ now)
    (hearly : ¬ keep → ∀ s, t.sessions o = some s → now - s.lastUsed < T) :
    Follows keep drop uuid T now o (ownStep T st ⟨now, .touch o⟩) (touch t now o) prev where
  idle := by simpa using hf.idle
  minted := by simpa using hf.minted
  absent := by
    intro hst
    cases st with
    | none => simp [hf.absent rfl]
    | some p => simp [ownStep] at hst
  present := by
    intro a' revived' hst
    obtain ⟨⟨a, revived⟩, rfl⟩ : ∃ p, st = some p := by
      cases st with
      | none => simp [ownStep] at hst
      | some p => exact ⟨p, rfl⟩
    obtain ⟨rfl, rfl⟩ := Prod.mk.inj (Option.some.inj hst)
    rcases hf.present a revived rfl with ⟨s, hs, hlast, hprev, hkeep⟩ | ⟨hs, hdrop, hlate⟩
    · refine .inl ⟨{ s with lastUsed := now }, by simp [hs], rfl, hprev, fun hrevived => ?_⟩
      by_contra hnot
      have htime : now - a < T := hlast ▸ hearly hnot s hs
      have hfalse : revived = false := by
        cases revived with
        | false => rfl
        | true => exact absurd (hkeep rfl) hnot
      simp only [hfalse, Bool.false_or, decide_eq_true_eq] at hrevived
      exact absurd htime (not_lt.mpr hrevived)
    · refine .inr ⟨by simp [hs], hdrop, .inl ?_⟩
      rcases hlate with rfl | hlate
      · rfl
      · simp [hlate.trans (sub_le_sub_right hle a)]

omit [IsOrderedAddMonoid τ] in
theorem Follows.reset (hf : Follows keep drop uuid T clock o st t prev) :
    Follows keep drop uuid T now o (ownStep T st ⟨now, .reset o⟩) (reset t o) prev where
  idle := hf.idle
  minted := hf.minted
  absent := fun _ => by simp
  present := by
    intro a revived hst
    cases st <;> simp [ownStep] at hst

theorem Follows.snapshotFor (hf : Follows keep drop uuid T clock o st t prev)
    (hle : clock ≤ now) (x : String) (take : Except String String) (maxAge : τ) :
    Follows keep drop uuid T now o st (snapshotFor t now x take maxAge).2 prev := by
  obtain ⟨hidle, hminted, hsessions⟩ := snapshotFor_keeps t now x take maxAge
  exact hf.of_same hle hidle hminted.ge (hsessions o)

theorem Follows.pruned (hf : Follows keep drop uuid T clock o st t prev) (hle : clock ≤ now)
    (hdrop : drop) (hidle : t'.idleTimeout = t.idleTimeout) (hminted : t.minted ≤ t'.minted)
    (hsessions : t'.sessions o = (prune t now).sessions o) :
    Follows keep drop uuid T now o st t' prev := by
  cases hfound : (prune t now).sessions o with
  | some s =>
    refine hf.of_same hle hidle hminted ?_
    rw [hsessions, hfound, (prune_some_iff.mp hfound).1]
  | none =>
    refine ⟨hidle.trans hf.idle, ?_, fun _ => hsessions.trans hfound, ?_⟩
    · intro sid hsid
      obtain ⟨k, hk, hid⟩ := hf.minted sid hsid
      exact ⟨k, hk.trans_le hminted, hid⟩
    · intro a revived hst
      refine .inr ⟨hsessions.trans hfound, hdrop, ?_⟩
      rcases hf.present a revived hst with ⟨s, hs, hlast, -⟩ | ⟨-, -, hcause⟩
      · right
        by_contra htime
        have hkept : (prune t now).sessions o = some s :=
          prune_some_iff.mpr ⟨hs, by rw [hlast, hf.idle]; exact not_le.mp htime⟩
        rw [hfound] at hkept
        cases hkept
      · exact hcause.imp_right fun h => h.trans (sub_le_sub_right hle a)

theorem Follows.other (hf : Follows keep drop uuid T clock o st t prev) {c : Call τ}
    (hle : clock ≤ c.now) (hdrop : drop) (hop : c.op.origin ≠ o) :
    Follows keep drop uuid T c.now o st (step uuid t c) prev := by
  obtain ⟨now, op⟩ := c
  have hne : o ≠ op.origin := fun h => hop h.symm
  cases op with
  | sessionFor x =>
    obtain ⟨hidle, hminted, hsessions⟩ := sessionFor_other uuid t now hne
    exact hf.pruned hle hdrop hidle hminted hsessions
  | touch x =>
    have hx : o ≠ x := hne
    exact hf.of_same hle (by simp [step]) (by simp [step]) (by simp [step, hx])
  | reset x =>
    have hx : o ≠ x := hne
    exact hf.of_same hle rfl le_rfl (by simp [step, hx])
  | snapshotFor x take maxAge => exact hf.snapshotFor hle x take maxAge

omit [IsOrderedAddMonoid τ] in
theorem continuations_lookup (h : History τ) :
    continuations o prev ((⟨now, .sessionFor o⟩, reply uuid t ⟨now, .sessionFor o⟩) :: h) =
      decide (prev = some (Sessions.sessionFor uuid t now o).1) ::
        continuations o (some (Sessions.sessionFor uuid t now o).1) h := by
  simp [continuations, lookedUp, reply]

omit [IsOrderedAddMonoid τ] in
theorem Follows.new_of_absent (hf : Follows keep drop uuid T clock o st t prev)
    (huuid : Function.Injective uuid) (hnone : t.sessions o = none) :
    prev ≠ some (Sessions.sessionFor uuid t now o).1 := by
  have hfound : (prune t now).sessions o = none := by simp [prune_sessions, hnone]
  rw [sessionFor_of_none hfound]
  exact hf.ne_newId huuid

/-- A call of `o` adds the same flags to what the run shows and to what `o` expects. -/
theorem Follows.own (hf : Follows keep drop uuid T clock o st t prev)
    (huuid : Function.Injective uuid) {c : Call τ} (hle : clock ≤ c.now)
    (hop : c.op.origin = o) (hrev : drop → NoRevival T st c)
    (hearly : ¬ keep → ∀ s, t.sessions o = some s → c.now - s.lastUsed < T) :
    ∃ prev' flags, Follows keep drop uuid T c.now o (ownStep T st c) (step uuid t c) prev' ∧
      (∀ h, continuations o prev ((c, reply uuid t c) :: h) =
        flags ++ continuations o prev' h) ∧
      ∀ os, ownContinuations T st (c :: os) =
        flags ++ ownContinuations T (ownStep T st c) os := by
  obtain ⟨now, op⟩ := c
  cases op with
  | sessionFor x =>
    obtain rfl : x = o := hop
    obtain ⟨hflag, hnext⟩ := hf.sessionFor huuid hle hrev
    refine ⟨_, [decide (prev = some (Sessions.sessionFor uuid t now x).1)], hnext, ?_, ?_⟩
    · exact continuations_lookup
    · intro os
      have hsame : inTimeOf T st now =
          decide (prev = some (Sessions.sessionFor uuid t now x).1) := by
        rw [Bool.eq_iff_iff, decide_eq_true_eq, hflag]
      simp only [ownContinuations, hsame, List.singleton_append]
  | touch x =>
    obtain rfl : x = o := hop
    exact ⟨prev, [], hf.touch hle hearly, fun _ => rfl, fun _ => rfl⟩
  | reset x =>
    obtain rfl : x = o := hop
    exact ⟨prev, [], hf.reset, fun _ => rfl, fun _ => rfl⟩
  | snapshotFor x take maxAge =>
    have hst : ownStep T st ⟨now, .snapshotFor x take maxAge⟩ = st := by
      cases st <;> rfl
    refine ⟨prev, [], ?_, fun _ => rfl, fun _ => by simp only [ownContinuations, hst]; rfl⟩
    rw [hst]
    exact hf.snapshotFor hle x take maxAge

end Steps

section Runs

variable {τ : Type*} [AddCommGroup τ] [LinearOrder τ] [IsOrderedAddMonoid τ]
  {uuid : ℕ → String} {T clock : τ} {o other : String} {st : Option (τ × Bool)}
  {t : SessionTracker τ} {prev : Option String}

omit [IsOrderedAddMonoid τ] in
theorem continuations_other {c : Call τ} (hop : c.op.origin ≠ o) (h : History τ) :
    continuations o prev ((c, reply uuid t c) :: h) = continuations o prev h := by
  obtain ⟨now, op⟩ := c
  cases op <;> simp_all [continuations, lookedUp, reply, Op.origin]

/-- Whatever the others do, a run without revivals shows what `o`'s own calls say. -/
theorem continuations_eq_own (huuid : Function.Injective uuid) {cs : List (Call τ)}
    (hf : Follows True True uuid T clock o st t prev) (hclock : Nondecreasing cs)
    (hle : ∀ c ∈ cs, clock ≤ c.now)
    (hg : Runs.Guarded (ownStep T) (NoRevival T) st (ownCalls o cs)) :
    continuations o prev (Runs.trace (step uuid) (reply uuid) t cs) =
      ownContinuations T st (ownCalls o cs) := by
  induction cs generalizing clock st t prev with
  | nil => rfl
  | cons c cs ih =>
    obtain ⟨hlater, hclock⟩ := List.pairwise_cons.mp hclock
    have hc := hle c List.mem_cons_self
    by_cases hop : c.op.origin = o
    · rw [ownCalls_cons_own hop] at hg ⊢
      obtain ⟨prev', flags, hnext, hrun, hown⟩ :=
        hf.own huuid hc hop (fun _ => hg.1) (fun h => absurd trivial h)
      rw [Runs.trace, hrun, hown, ih hnext hclock hlater hg.2]
    · rw [ownCalls_cons_other hop] at hg ⊢
      rw [Runs.trace, continuations_other hop]
      exact ih (hf.other hc trivial hop) hclock hlater hg

theorem continuations_alone (huuid : Function.Injective uuid) {os : List (Call τ)}
    (hf : Follows True False uuid T clock o st t prev) (hown : ∀ c ∈ os, c.op.origin = o)
    (hclock : Nondecreasing os) (hle : ∀ c ∈ os, clock ≤ c.now) :
    continuations o prev (Runs.trace (step uuid) (reply uuid) t os) =
      ownContinuations T st os := by
  induction os generalizing clock st t prev with
  | nil => rfl
  | cons c os ih =>
    obtain ⟨hlater, hclock⟩ := List.pairwise_cons.mp hclock
    obtain ⟨prev', flags, hnext, hrun, hexpect⟩ :=
      hf.own huuid (hle c List.mem_cons_self) (hown c List.mem_cons_self)
        (fun h => h.elim) (fun h => absurd trivial h)
    rw [Runs.trace, hrun, hexpect,
      ih hnext (fun d hd => hown d (List.mem_cons_of_mem c hd)) hclock hlater]

/-- In the crowded run every revival is undone, so a lookup that relies on one shows. -/
theorem guarded_of_crowded (huuid : Function.Injective uuid) (hother : other ≠ o)
    {os : List (Call τ)} (hf : Follows False True uuid T clock o st t prev)
    (hown : ∀ c ∈ os, c.op.origin = o) (hclock : Nondecreasing os)
    (hle : ∀ c ∈ os, clock ≤ c.now)
    (hshow : continuations o prev (Runs.trace (step uuid) (reply uuid) t (crowded other os)) =
      ownContinuations T st os) :
    Runs.Guarded (ownStep T) (NoRevival T) st os := by
  induction os generalizing clock st t prev with
  | nil => trivial
  | cons c os ih =>
    obtain ⟨hlater, hclock⟩ := List.pairwise_cons.mp hclock
    have hc := hle c List.mem_cons_self
    have hcop := hown c List.mem_cons_self
    have hlookup : (Call.mk c.now (.sessionFor other)).op.origin ≠ o := hother
    rw [crowded_cons, Runs.trace, continuations_other hlookup, Runs.trace] at hshow
    have hf₁ := hf.other (c := ⟨c.now, .sessionFor other⟩) hc trivial hlookup
    have hearly : ∀ s, (step uuid t ⟨c.now, .sessionFor other⟩).sessions o = some s →
        c.now - s.lastUsed < T := by
      intro s hs
      rw [step, (sessionFor_other uuid t c.now hother.symm).2.2] at hs
      exact hf.idle ▸ (prune_some_iff.mp hs).2
    -- The lookup just before `c` has pruned a session that was only revived, so `o` starts anew.
    have hrev : NoRevival T st c := by
      intro o' a hop hst
      by_contra htime
      obtain ⟨now, op⟩ := c
      obtain rfl : op = .sessionFor o' := hop
      obtain rfl : o' = o := hcop
      have hintime : inTimeOf T st now = true :=
        inTimeOf_iff.mpr ⟨a, true, hst, not_le.mp htime⟩
      rcases hf₁.present a true hst with ⟨s, -, -, -, hkeep⟩ | ⟨hnone, -⟩
      · exact hkeep rfl
      · rw [continuations_lookup, ownContinuations, hintime] at hshow
        have hprev := of_decide_eq_true (List.cons.inj hshow).1
        exact hf₁.new_of_absent huuid hnone hprev
    obtain ⟨prev', flags, hnext, hrun, hexpect⟩ :=
      hf₁.own (c := c) huuid le_rfl hcop (fun _ => hrev) (fun _ => hearly)
    rw [hrun, hexpect] at hshow
    exact ⟨hrev, ih hnext (fun d hd => hown d (List.mem_cons_of_mem c hd)) hclock hlater
      (List.append_cancel_left hshow)⟩

omit [IsOrderedAddMonoid τ] in
theorem exists_clock {cs : List (Call τ)} (hclock : Nondecreasing cs) :
    ∃ clock, ∀ c ∈ cs, clock ≤ c.now := by
  cases cs with
  | nil => exact ⟨0, by simp⟩
  | cons c cs =>
    refine ⟨c.now, fun d hd => ?_⟩
    rcases List.mem_cons.mp hd with rfl | hd
    · exact le_rfl
    · exact (List.pairwise_cons.mp hclock).1 d hd

omit [AddCommGroup τ] [IsOrderedAddMonoid τ] in
theorem nondecreasing_crowded {os : List (Call τ)} (hclock : Nondecreasing os) :
    Nondecreasing (crowded other os) := by
  induction os with
  | nil => exact List.Pairwise.nil
  | cons c os ih =>
    obtain ⟨hlater, hclock⟩ := List.pairwise_cons.mp hclock
    have hafter : ∀ d ∈ crowded other os, c.now ≤ d.now := by
      intro d hd
      obtain ⟨e, he, hde⟩ := List.mem_flatMap.mp hd
      simp only [List.mem_cons, List.not_mem_nil, or_false] at hde
      rcases hde with rfl | rfl
      · exact hlater e he
      · exact hlater d he
    rw [crowded_cons, Nondecreasing, List.pairwise_cons, List.pairwise_cons]
    refine ⟨?_, hafter, ih hclock⟩
    intro d hd
    rcases List.mem_cons.mp hd with rfl | hd
    · exact le_rfl
    · exact hafter d hd

def Isolated (uuid : ℕ → String) (T : τ) (o : String) (os : List (Call τ)) : Prop :=
  ∀ cs₁ cs₂, Nondecreasing cs₁ → Nondecreasing cs₂ → ownCalls o cs₁ = os → ownCalls o cs₂ = os →
    continuations o none (history uuid T cs₁) = continuations o none (history uuid T cs₂)

theorem isolated_iff_no_revival (huuid : Function.Injective uuid) (T : τ) (o : String)
    (os : List (Call τ)) (hown : ∀ c ∈ os, c.op.origin = o) (hclock : Nondecreasing os) :
    Isolated uuid T o os ↔ Runs.Guarded (ownStep T) (NoRevival T) none os := by
  constructor
  · intro hisolated
    obtain ⟨other, hother⟩ : ∃ other : String, other ≠ o := by
      by_cases ho : o = "other"
      · exact ⟨"another", by simp [ho]⟩
      · exact ⟨"other", fun h => ho h.symm⟩
    obtain ⟨clock, hle⟩ := exists_clock hclock
    refine guarded_of_crowded huuid hother follows_fresh hown hclock hle ?_
    rw [← continuations_alone huuid follows_fresh hown hclock hle]
    exact hisolated _ _ (nondecreasing_crowded hclock) hclock (ownCalls_crowded hother hown)
      (ownCalls_of_own hown)
  · intro hguarded cs₁ cs₂ hclock₁ hclock₂ hown₁ hown₂
    have hshow : ∀ cs, Nondecreasing cs → ownCalls o cs = os →
        continuations o none (history uuid T cs) = ownContinuations T none os := by
      intro cs hcs hos
      obtain ⟨clock, hle⟩ := exists_clock hcs
      rw [history, continuations_eq_own huuid follows_fresh hcs hle (by rw [hos]; exact hguarded),
        hos]
    rw [hshow cs₁ hclock₁ hown₁, hshow cs₂ hclock₂ hown₂]

theorem not_isolated_late_touch :
    ¬ ∀ (uuid : ℕ → String) (T : ℤ) (o : String) (cs₁ cs₂ : List (Call ℤ)),
      Function.Injective uuid → 0 < T → Nondecreasing cs₁ → Nondecreasing cs₂ →
      ownCalls o cs₁ = ownCalls o cs₂ →
      continuations o none (history uuid T cs₁) = continuations o none (history uuid T cs₂) := by
  intro h
  have hsame := h tally 60 "kitchen"
    [⟨0, .sessionFor "kitchen"⟩, ⟨100, .touch "kitchen"⟩, ⟨110, .sessionFor "kitchen"⟩]
    [⟨0, .sessionFor "kitchen"⟩, ⟨80, .sessionFor "office"⟩, ⟨100, .touch "kitchen"⟩,
      ⟨110, .sessionFor "kitchen"⟩]
    tally_injective (by decide) (by decide) (by decide) rfl
  revert hsame
  decide

theorem isolated_iff_no_revival_kitchen :
    Isolated tally (60 : ℤ) "kitchen"
      [⟨0, .sessionFor "kitchen"⟩, ⟨50, .touch "kitchen"⟩, ⟨100, .sessionFor "kitchen"⟩] ↔
    Runs.Guarded (ownStep (60 : ℤ)) (NoRevival 60) none
      [⟨0, .sessionFor "kitchen"⟩, ⟨50, .touch "kitchen"⟩, ⟨100, .sessionFor "kitchen"⟩] :=
  isolated_iff_no_revival tally_injective 60 "kitchen" _ (by simp [Op.origin]) (by decide)

end Runs

end HermesConversation.SessionIsolation
