import HermesConversation.Sessions
import Mathlib.Algebra.Order.Group.Int

/-!
# Which snapshot a session gets

A snapshot is kept with the session and goes with it. `lastTake` reads off the history when
the text in force was taken, and for which session.
-/

namespace HermesConversation.Snapshots

open Library Sessions

section Definitions

variable {τ : Type*} [AddCommGroup τ] [LinearOrder τ]

/-- Whether a call of `snapshot_for` asks for a new snapshot. -/
def takes (t : SessionTracker τ) (now : τ) (origin : String) (maxAge : τ) : Bool :=
  (t.sessions origin).all fun s => s.snapshot.isNone || maxAge ≤ now - s.snapshotTaken

def keep (t : SessionTracker τ) (now : τ) (origin text : String) : SessionTracker τ :=
  match t.sessions origin with
  | none => t
  | some s =>
    let s := { s with snapshot := some text, snapshotTaken := now }
    { t with sessions := Function.update t.sessions origin (some s) }

def current (t : SessionTracker τ) (origin : String) : Option String :=
  (t.sessions origin).map Session.sessionId

/-- A snapshot that was taken: when, and for which session if there was one. -/
structure Take (τ : Type*) where
  now : τ
  text : String
  session : Option String

/-- The snapshot that a call takes for an origin. -/
def produced (t : SessionTracker τ) (c : Call τ) (o : String) : Option (Take τ) :=
  match c.op with
  | .snapshotFor origin (.ok text) maxAge =>
    if origin = o ∧ takes t c.now origin maxAge then some ⟨c.now, text, current t o⟩ else none
  | _ => none

def takesMade (uuid : ℕ → String) (T : τ) (cs : List (Call τ)) :
    List (Call τ × (String → Option (Take τ))) :=
  Runs.trace (step uuid) produced (fresh T) cs

def lastOf (h : List (Call τ × (String → Option (Take τ)))) (o : String) : Option (Take τ) :=
  h.reverse.findSome? fun x => x.2 o

def lastTake (uuid : ℕ → String) (T : τ) (cs : List (Call τ)) (o : String) : Option (Take τ) :=
  lastOf (takesMade uuid T cs) o

def Op.maxAge : Op τ → Option τ
  | .snapshotFor _ _ maxAge => some maxAge
  | _ => none

def FixedAge (maxAge : τ) (cs : List (Call τ)) : Prop :=
  ∀ c ∈ cs, ∀ age ∈ Op.maxAge c.op, age = maxAge

instance (maxAge : τ) (cs : List (Call τ)) : Decidable (FixedAge maxAge cs) :=
  inferInstanceAs (Decidable (∀ c ∈ cs, ∀ age ∈ Op.maxAge c.op, age = maxAge))

end Definitions

section Calls

variable {τ : Type*} [AddCommGroup τ] [LinearOrder τ] {uuid : ℕ → String}
  {t : SessionTracker τ} {now maxAge : τ} {o x text : String} {c : Call τ} {s s' : Session τ}

omit [AddCommGroup τ] [LinearOrder τ] in
theorem keep_sessions : (keep t now x text).sessions o =
    if o = x then (t.sessions o).map fun s => { s with snapshot := some text, snapshotTaken := now }
    else t.sessions o := by
  rw [keep]
  by_cases ho : o = x
  · subst ho
    cases hs : t.sessions o <;> simp [hs]
  · cases t.sessions x <;> simp [ho]

theorem snapshotFor_takes (take : Except String String) (h : takes t now o maxAge = true) :
    snapshotFor t now o take maxAge =
      (take, match take with
        | .error _ => t
        | .ok text => keep t now o text) := by
  unfold snapshotFor keep
  cases hs : t.sessions o with
  | none => cases take <;> rfl
  | some s =>
    cases hsnapshot : s.snapshot with
    | none => cases take <;> simp [snapshotFor.retake, hsnapshot]
    | some text =>
      have hold : maxAge ≤ now - s.snapshotTaken := by simpa [takes, hs, hsnapshot] using h
      simp only [hsnapshot, if_pos hold]
      cases take <;> rfl

theorem snapshotFor_cached (take : Except String String) (h : takes t now o maxAge = false) :
    ∃ s text, t.sessions o = some s ∧ s.snapshot = some text ∧ now - s.snapshotTaken < maxAge ∧
      snapshotFor t now o take maxAge = (.ok text, t) := by
  cases hs : t.sessions o with
  | none => simp [takes, hs] at h
  | some s =>
    cases hsnapshot : s.snapshot with
    | none => simp [takes, hs, hsnapshot] at h
    | some text =>
      have hyoung : now - s.snapshotTaken < maxAge := by simpa [takes, hs, hsnapshot] using h
      refine ⟨s, text, rfl, hsnapshot, hyoung, ?_⟩
      simp only [snapshotFor, hs, hsnapshot, if_neg (not_le.mpr hyoung)]

theorem step_minted (uuid : ℕ → String) (t : SessionTracker τ) (c : Call τ) :
    t.minted ≤ (step uuid t c).minted := by
  obtain ⟨now, op⟩ := c
  cases op with
  | sessionFor x =>
    show t.minted ≤ (sessionFor uuid t now x).2.minted
    cases hfound : (prune t now).sessions x with
    | some s =>
      rw [sessionFor_of_live hfound]
      exact le_rfl
    | none =>
      rw [sessionFor_of_none hfound]
      exact Nat.le_succ _
  | touch x => exact (touch_minted t now x).ge
  | reset x => exact le_rfl
  | snapshotFor x take maxAge => exact (snapshotFor_keeps t now x take maxAge).2.1.ge

/-- What a call makes of the session of an origin, where there is one afterwards. -/
inductive Leaves (uuid : ℕ → String) (t : SessionTracker τ) (c : Call τ) (o : String)
    (s' : Session τ) : Prop where
  | same (s : Session τ) : t.sessions o = some s → s'.sessionId = s.sessionId →
      s'.snapshot = s.snapshot → s'.snapshotTaken = s.snapshotTaken → produced t c o = none →
      Leaves uuid t c o s'
  | took (s : Session τ) (text : String) : t.sessions o = some s →
      s'.sessionId = s.sessionId → s'.snapshot = some text → s'.snapshotTaken = c.now →
      produced t c o = some ⟨c.now, text, some s.sessionId⟩ → Leaves uuid t c o s'
  | born : s'.sessionId = newId uuid t.minted → (step uuid t c).minted = t.minted + 1 →
      s'.snapshot = none → Leaves uuid t c o s'

theorem step_session (h : (step uuid t c).sessions o = some s') : Leaves uuid t c o s' := by
  obtain ⟨now, op⟩ := c
  cases op with
  | sessionFor x =>
    have hstep : step uuid t ⟨now, .sessionFor x⟩ = (sessionFor uuid t now x).2 := rfl
    rw [hstep] at h
    cases hfound : (prune t now).sessions x with
    | some s =>
      rw [sessionFor_of_live hfound] at h
      exact .same s' (prune_some_iff.mp h).1 rfl rfl rfl rfl
    | none =>
      have hminted : (step uuid t ⟨now, .sessionFor x⟩).minted = t.minted + 1 := by
        rw [hstep, sessionFor_of_none hfound]
      rw [sessionFor_of_none hfound] at h
      by_cases ho : o = x
      · simp only [ho, Function.update_self, Option.some.injEq] at h
        subst h
        exact .born rfl hminted rfl
      · simp only [Function.update_of_ne ho] at h
        exact .same s' (prune_some_iff.mp h).1 rfl rfl rfl rfl
  | touch x =>
    by_cases ho : o = x
    · subst ho
      obtain ⟨s, hs, rfl⟩ := Option.map_eq_some_iff.mp ((touch_sessions_self t now o).symm.trans h)
      exact .same s hs rfl rfl rfl rfl
    · exact .same s' ((touch_sessions_of_ne t now ho).symm.trans h) rfl rfl rfl rfl
  | reset x =>
    have hreset : (reset t x).sessions o = some s' := h
    rw [reset_sessions] at hreset
    split_ifs at hreset
    exact .same s' hreset rfl rfl rfl rfl
  | snapshotFor x take maxAge =>
    have hstep : step uuid t ⟨now, .snapshotFor x take maxAge⟩ =
        (snapshotFor t now x take maxAge).2 := rfl
    rw [hstep] at h
    cases htakes : takes t now x maxAge with
    | false =>
      obtain ⟨_, _, -, -, -, hcached⟩ := snapshotFor_cached take htakes
      rw [hcached] at h
      refine .same s' h rfl rfl rfl ?_
      cases take <;> simp [produced, htakes]
    | true =>
      rw [snapshotFor_takes take htakes] at h
      cases take with
      | error err => exact .same s' h rfl rfl rfl rfl
      | ok text =>
        have hkeep : (keep t now x text).sessions o = some s' := h
        rw [keep_sessions] at hkeep
        split_ifs at hkeep with ho
        · subst ho
          obtain ⟨s, hs, rfl⟩ := Option.map_eq_some_iff.mp hkeep
          exact .took s text hs rfl rfl rfl (by simp [produced, htakes, current, hs])
        · exact .same s' hkeep rfl rfl rfl (by simp [produced, Ne.symm ho])

end Calls

section Runs

variable {τ : Type*} [AddCommGroup τ] [LinearOrder τ] {uuid : ℕ → String} {T maxAge taken : τ}
  {t : SessionTracker τ} {o sid text : String} {c : Call τ} {cs : List (Call τ)} {k : Take τ}
  {h : List (Call τ × (String → Option (Take τ)))}

omit [AddCommGroup τ] [LinearOrder τ] in
theorem lastOf_concat (x : Call τ × (String → Option (Take τ))) :
    lastOf (h ++ [x]) o = (x.2 o).or (lastOf h o) := by
  simp only [lastOf, List.reverse_append, List.reverse_singleton, List.singleton_append,
    List.findSome?_cons]
  cases x.2 o <;> rfl

theorem lastTake_concat : lastTake uuid T (cs ++ [c]) o =
    (produced (after uuid T cs) c o).or (lastTake uuid T cs o) := by
  rw [lastTake, takesMade, Runs.trace_concat, lastOf_concat]
  rfl

theorem after_concat : after uuid T (cs ++ [c]) = step uuid (after uuid T cs) c :=
  Runs.run_concat _ cs c

theorem produced_some (hk : produced t c o = some k) :
    ∃ age, c.op = .snapshotFor o (.ok k.text) age ∧ takes t c.now o age = true ∧
      c.now = k.now ∧ current t o = k.session := by
  obtain ⟨now, op⟩ := c
  cases op with
  | snapshotFor x take age =>
    cases take with
    | error err => cases hk
    | ok text =>
      simp only [produced, Option.ite_none_right_eq_some, Option.some.injEq] at hk
      obtain ⟨⟨rfl, htakes⟩, rfl⟩ := hk
      exact ⟨age, rfl, htakes, rfl, rfl⟩
  | _ => cases hk

theorem lastTake_some (hk : lastTake uuid T cs o = some k) :
    ∃ before d mid, cs = before ++ d :: mid ∧ produced (after uuid T before) d o = some k := by
  induction cs using List.reverseRecOn with
  | nil => cases hk
  | append_singleton cs c ih =>
    rw [lastTake_concat, Option.or_eq_some_iff] at hk
    rcases hk with hnow | ⟨-, hbefore⟩
    · exact ⟨cs, c, [], rfl, hnow⟩
    · obtain ⟨before, d, mid, rfl, hd⟩ := ih hbefore
      exact ⟨before, d, mid ++ [c], by simp, hd⟩

def Minted (uuid : ℕ → String) (sid : String) (t : SessionTracker τ) : Prop :=
  ∃ n < t.minted, sid = newId uuid n

structure Sourced (uuid : ℕ → String) (h : List (Call τ × (String → Option (Take τ))))
    (t : SessionTracker τ) : Prop where
  minted : ∀ o s, t.sessions o = some s → Minted uuid s.sessionId t
  source : ∀ o s text, t.sessions o = some s → s.snapshot = some text →
    lastOf h o = some ⟨s.snapshotTaken, text, some s.sessionId⟩

theorem minted_step (hm : Minted uuid sid t) (c : Call τ) : Minted uuid sid (step uuid t c) := by
  obtain ⟨n, hn, hsid⟩ := hm
  exact ⟨n, hn.trans_le (step_minted uuid t c), hsid⟩

theorem sourced_step (hs : Sourced uuid h t) (c : Call τ) :
    Sourced uuid (h ++ [(c, produced t c)]) (step uuid t c) := by
  constructor
  · intro o s' hs'
    cases step_session hs' with
    | same s hheld hid _ _ _ => exact hid ▸ minted_step (hs.minted o s hheld) c
    | took s text hheld hid _ _ _ => exact hid ▸ minted_step (hs.minted o s hheld) c
    | born hid hminted _ => exact ⟨t.minted, hminted ▸ Nat.lt_succ_self _, hid⟩
  · intro o s' text hs' htext
    rw [lastOf_concat]
    show (produced t c o).or (lastOf h o) = _
    cases step_session hs' with
    | same s hheld hid hsnapshot htaken hnone =>
      rw [hnone, Option.none_or, hid, htaken]
      exact hs.source o s text hheld (hsnapshot ▸ htext)
    | took s text' hheld hid hsnapshot htaken hmade =>
      rw [hsnapshot, Option.some.injEq] at htext
      rw [hmade, Option.some_or, hid, htaken, htext]
    | born _ _ hnone =>
      rw [hnone] at htext
      cases htext

theorem sourced_run (uuid : ℕ → String) (T : τ) (cs : List (Call τ)) :
    Sourced uuid (takesMade uuid T cs) (after uuid T cs) := by
  have hfresh : Sourced uuid [] (fresh T) := by
    constructor
    · intro o s hs
      cases hs
    · intro o s text hs
      cases hs
  exact Runs.trace_invariant (C := fun _ _ => True) hfresh (fun _ c _ hs => sourced_step hs c)
    fun _ _ _ => trivial

omit [AddCommGroup τ] [LinearOrder τ] in
theorem current_some (hsid : current t o = some sid) :
    ∃ s, t.sessions o = some s ∧ s.sessionId = sid :=
  Option.map_eq_some_iff.mp hsid

/-- An id that is not the current one any more never is again. -/
def Lost (uuid : ℕ → String) (sid o : String) (t : SessionTracker τ) : Prop :=
  Minted uuid sid t ∧ current t o ≠ some sid

omit [AddCommGroup τ] [LinearOrder τ] in
theorem ne_newId (huuid : Function.Injective uuid) (hm : Minted uuid sid t) :
    newId uuid t.minted ≠ sid := by
  obtain ⟨n, hn, rfl⟩ := hm
  intro heq
  exact hn.ne' (newId_injective huuid heq)

theorem lost_step (huuid : Function.Injective uuid) (hl : Lost uuid sid o t) (c : Call τ) :
    Lost uuid sid o (step uuid t c) := by
  refine ⟨minted_step hl.1 c, fun hsid => ?_⟩
  obtain ⟨s', hs', hid'⟩ := current_some hsid
  have hbefore : ∀ s, t.sessions o = some s → s.sessionId ≠ sid := by
    intro s hs heq
    exact hl.2 (by rw [current, hs, Option.map_some, heq])
  cases step_session hs' with
  | same s hheld hid _ _ _ => exact hbefore s hheld (hid ▸ hid')
  | took s text hheld hid _ _ _ => exact hbefore s hheld (hid ▸ hid')
  | born hid _ _ => exact ne_newId huuid hl.1 (hid ▸ hid')

/-- Between two moments at which it has the same session, an origin has that one. -/
theorem current_between (huuid : Function.Injective uuid) {before mid front : List (Call τ)}
    (hfirst : current (after uuid T before) o = some sid)
    (hlast : current (after uuid T (before ++ mid)) o = some sid) (hfront : front <+: mid) :
    current (after uuid T (before ++ front)) o = some sid := by
  obtain ⟨back, rfl⟩ := hfront
  by_contra hne
  obtain ⟨s, hs, rfl⟩ := current_some hfirst
  have hminted : Minted uuid s.sessionId (after uuid T (before ++ front)) := by
    rw [after, Runs.run_append]
    exact Runs.run_invariant (P := Minted uuid s.sessionId) (fun _ c hm => minted_step hm c)
      ((sourced_run uuid T before).minted o s hs) front
  have hlost : Lost uuid s.sessionId o (after uuid T ((before ++ front) ++ back)) := by
    rw [after, Runs.run_append]
    exact Runs.run_invariant (P := Lost uuid s.sessionId o) (fun _ c hl => lost_step huuid hl c)
      ⟨hminted, hne⟩ back
  rw [List.append_assoc] at hlost
  exact hlost.2 hlast

/-- As long as the session lasts and the text is not too old, the text stays. -/
def Stays (uuid : ℕ → String) (o sid text : String) (taken : τ) (t : SessionTracker τ) : Prop :=
  Minted uuid sid t ∧ ∀ s, t.sessions o = some s → s.sessionId = sid →
    s.snapshot = some text ∧ s.snapshotTaken = taken

theorem not_takes {s : Session τ} {now : τ} (hs : t.sessions o = some s)
    (hsnapshot : s.snapshot = some text) (hyoung : now - s.snapshotTaken < maxAge) :
    takes t now o maxAge = false := by
  simp [takes, hs, hsnapshot, hyoung]

theorem stays_step (huuid : Function.Injective uuid) (hage : ∀ age ∈ Op.maxAge c.op, age = maxAge)
    (hyoung : c.now - taken < maxAge) (h : Stays uuid o sid text taken t) :
    Stays uuid o sid text taken (step uuid t c) := by
  refine ⟨minted_step h.1 c, fun s' hs' hsid => ?_⟩
  cases step_session hs' with
  | same s hheld hid hsnapshot htaken _ =>
    rw [hsnapshot, htaken]
    exact h.2 s hheld (hid ▸ hsid)
  | took s text' hheld hid _ _ hmade =>
    obtain ⟨hsnapshot, htaken⟩ := h.2 s hheld (hid ▸ hsid)
    obtain ⟨age, hop, htakes, -⟩ := produced_some hmade
    have hmax : age = maxAge := hage age (by rw [hop]; rfl)
    rw [hmax, not_takes hheld hsnapshot (htaken.symm ▸ hyoung)] at htakes
    cases htakes
  | born hid _ _ => exact absurd (hid ▸ hsid) (ne_newId huuid h.1)

end Runs

/-! ## The law -/

section Law

variable {τ : Type*} [AddCommGroup τ] [LinearOrder τ] {uuid : ℕ → String} {T maxAge : τ}
  {t : SessionTracker τ} {o text : String} {c : Call τ} {cs : List (Call τ)}
  {take : Except String String}

structure SnapshotLaw (uuid : ℕ → String) (T maxAge : τ) (cs : List (Call τ)) : Prop where
  source : ∀ pre c post o take text, cs = pre ++ c :: post → c.op = .snapshotFor o take maxAge →
    reply uuid (after uuid T pre) c = .snapshot (.ok text) →
    takes (after uuid T pre) c.now o maxAge = true ∧ take = .ok text ∨
      ∃ before d mid sid, pre = before ++ d :: mid ∧ d.op = .snapshotFor o (.ok text) maxAge ∧
        takes (after uuid T before) d.now o maxAge = true ∧ c.now - d.now < maxAge ∧
        ∀ front, front <+: d :: mid → current (after uuid T (before ++ front)) o = some sid
  stable : ∀ pre c mid d post o takeC takeD textC textD sid,
    cs = pre ++ c :: (mid ++ d :: post) →
    c.op = .snapshotFor o takeC maxAge → d.op = .snapshotFor o takeD maxAge →
    reply uuid (after uuid T pre) c = .snapshot (.ok textC) →
    reply uuid (after uuid T (pre ++ c :: mid)) d = .snapshot (.ok textD) →
    current (after uuid T pre) o = some sid →
    current (after uuid T (pre ++ c :: mid)) o = some sid →
    textD = textC ∨ ∃ k, lastTake uuid T (pre ++ [c]) o = some k ∧ k.text = textC ∧
      maxAge ≤ d.now - k.now
  fresh : ∀ pre c post o take, cs = pre ++ c :: post → c.op = .snapshotFor o take maxAge →
    current (after uuid T pre) o = none →
    takes (after uuid T pre) c.now o maxAge = true ∧
      reply uuid (after uuid T pre) c = .snapshot take ∧
      after uuid T (pre ++ [c]) = after uuid T pre
  raised : ∀ pre c post o err, cs = pre ++ c :: post →
    c.op = .snapshotFor o (.error err) maxAge → takes (after uuid T pre) c.now o maxAge = true →
    reply uuid (after uuid T pre) c = .snapshot (.error err) ∧
      after uuid T (pre ++ [c]) = after uuid T pre

theorem reply_snapshot (hop : c.op = .snapshotFor o take maxAge) :
    reply uuid t c = .snapshot (snapshotFor t c.now o take maxAge).1 := by
  rw [reply, hop]

theorem step_snapshot (hop : c.op = .snapshotFor o take maxAge) :
    step uuid t c = (snapshotFor t c.now o take maxAge).2 := by
  rw [step, hop]

theorem raised_law (pre : List (Call τ)) {err : String}
    (hop : c.op = .snapshotFor o (.error err) maxAge)
    (htakes : takes (after uuid T pre) c.now o maxAge = true) :
    reply uuid (after uuid T pre) c = .snapshot (.error err) ∧
      after uuid T (pre ++ [c]) = after uuid T pre := by
  rw [after_concat, reply_snapshot hop, step_snapshot hop, snapshotFor_takes _ htakes]
  exact ⟨rfl, rfl⟩

theorem fresh_law (pre : List (Call τ)) (hop : c.op = .snapshotFor o take maxAge)
    (hnone : current (after uuid T pre) o = none) :
    takes (after uuid T pre) c.now o maxAge = true ∧
      reply uuid (after uuid T pre) c = .snapshot take ∧
      after uuid T (pre ++ [c]) = after uuid T pre := by
  have hsession : (after uuid T pre).sessions o = none := Option.map_eq_none_iff.mp hnone
  have htakes : takes (after uuid T pre) c.now o maxAge = true := by rw [takes, hsession]; rfl
  rw [after_concat, reply_snapshot hop, step_snapshot hop, snapshotFor_takes _ htakes]
  refine ⟨htakes, rfl, ?_⟩
  cases take with
  | error err => rfl
  | ok text => simp only [keep, hsession]

theorem source_law (huuid : Function.Injective uuid) (pre : List (Call τ))
    (hage : FixedAge maxAge pre) (hop : c.op = .snapshotFor o take maxAge)
    (hreply : reply uuid (after uuid T pre) c = .snapshot (.ok text)) :
    takes (after uuid T pre) c.now o maxAge = true ∧ take = .ok text ∨
      ∃ before d mid sid, pre = before ++ d :: mid ∧ d.op = .snapshotFor o (.ok text) maxAge ∧
        takes (after uuid T before) d.now o maxAge = true ∧ c.now - d.now < maxAge ∧
        ∀ front, front <+: d :: mid → current (after uuid T (before ++ front)) o = some sid := by
  rw [reply_snapshot hop] at hreply
  cases htakes : takes (after uuid T pre) c.now o maxAge with
  | true =>
    rw [snapshotFor_takes _ htakes] at hreply
    exact .inl ⟨rfl, Reply.snapshot.inj hreply⟩
  | false =>
    obtain ⟨s, cached, hs, hsnapshot, hyoung, hcached⟩ := snapshotFor_cached take htakes
    rw [hcached] at hreply
    obtain rfl := Except.ok.inj (Reply.snapshot.inj hreply)
    have hlast := (sourced_run uuid T pre).source o s cached hs hsnapshot
    obtain ⟨before, d, mid, rfl, hmade⟩ := lastTake_some hlast
    obtain ⟨age, hdop, hdtakes, hdnow, hdcurrent⟩ := produced_some hmade
    have hmax : age = maxAge := hage d (by simp) age (by rw [hdop]; rfl)
    rw [hmax] at hdop hdtakes
    have hlatest : current (after uuid T (before ++ d :: mid)) o = some s.sessionId := by
      rw [current, hs, Option.map_some]
    refine .inr ⟨before, d, mid, s.sessionId, rfl, hdop, hdtakes, hdnow ▸ hyoung, ?_⟩
    exact fun front hfront => current_between huuid hdcurrent hlatest hfront

/-- A call that returned a text to a session leaves that text with it. -/
theorem returned_stored {sid : String} (hop : c.op = .snapshotFor o take maxAge)
    (hreply : reply uuid t c = .snapshot (.ok text)) (hsid : current t o = some sid) :
    ∃ s, (step uuid t c).sessions o = some s ∧ s.sessionId = sid ∧ s.snapshot = some text := by
  obtain ⟨s, hs, hid⟩ := current_some hsid
  rw [reply_snapshot hop] at hreply
  rw [step_snapshot hop]
  cases htakes : takes t c.now o maxAge with
  | true =>
    rw [snapshotFor_takes _ htakes] at hreply ⊢
    obtain rfl : take = .ok text := Reply.snapshot.inj hreply
    refine ⟨{ s with snapshot := some text, snapshotTaken := c.now }, ?_, hid, rfl⟩
    show (keep t c.now o text).sessions o = _
    rw [keep_sessions, if_pos rfl, hs, Option.map_some]
  | false =>
    obtain ⟨s', cached, hs', hsnapshot, -, hcached⟩ := snapshotFor_cached take htakes
    rw [hcached] at hreply ⊢
    obtain rfl := Except.ok.inj (Reply.snapshot.inj hreply)
    rw [hs, Option.some.injEq] at hs'
    exact ⟨s, hs, hid, hs' ▸ hsnapshot⟩

theorem stable_law [IsOrderedAddMonoid τ] (huuid : Function.Injective uuid)
    (pre mid : List (Call τ)) {d : Call τ} {takeD : Except String String} {textD sid : String}
    (hclock : ∀ e ∈ mid, e.now ≤ d.now) (hage : FixedAge maxAge mid)
    (hop : c.op = .snapshotFor o take maxAge) (hdop : d.op = .snapshotFor o takeD maxAge)
    (hreply : reply uuid (after uuid T pre) c = .snapshot (.ok text))
    (hdreply : reply uuid (after uuid T (pre ++ c :: mid)) d = .snapshot (.ok textD))
    (hsid : current (after uuid T pre) o = some sid)
    (hdsid : current (after uuid T (pre ++ c :: mid)) o = some sid) :
    textD = text ∨ ∃ k, lastTake uuid T (pre ++ [c]) o = some k ∧ k.text = text ∧
      maxAge ≤ d.now - k.now := by
  obtain ⟨s, hs, hid, hsnapshot⟩ := returned_stored hop hreply hsid
  rw [← after_concat] at hs
  have hsourced := sourced_run uuid T (pre ++ [c])
  by_cases hyoung : d.now - s.snapshotTaken < maxAge
  · left
    have hstays : Stays uuid o sid text s.snapshotTaken (after uuid T (pre ++ [c])) := by
      refine ⟨hid ▸ hsourced.minted o s hs, fun s' hs' _ => ?_⟩
      rw [hs, Option.some.injEq] at hs'
      exact ⟨hs' ▸ hsnapshot, hs' ▸ rfl⟩
    have hmid : ∀ e ∈ mid, (∀ age ∈ Op.maxAge e.op, age = maxAge) ∧
        e.now - s.snapshotTaken < maxAge := fun e he =>
      ⟨hage e he, (sub_le_sub_right (hclock e he) _).trans_lt hyoung⟩
    have hsplit : pre ++ c :: mid = (pre ++ [c]) ++ mid := by simp
    rw [hsplit] at hdreply hdsid
    have hend : Stays uuid o sid text s.snapshotTaken (after uuid T ((pre ++ [c]) ++ mid)) := by
      rw [after, Runs.run_append]
      exact Runs.run_invariant_of (fun _ _ he ht => stays_step huuid he.1 he.2 ht) hmid hstays
    obtain ⟨s', hs', hid'⟩ := current_some hdsid
    obtain ⟨hsnapshot', htaken'⟩ := hend.2 s' hs' hid'
    have htakes := not_takes hs' hsnapshot' (htaken'.symm ▸ hyoung)
    obtain ⟨s'', cached, hs'', hcached, -, heq⟩ := snapshotFor_cached takeD htakes
    rw [reply_snapshot hdop, heq] at hdreply
    rw [hs', Option.some.injEq] at hs''
    rw [← hs'', hsnapshot', Option.some.injEq] at hcached
    rw [← Except.ok.inj (Reply.snapshot.inj hdreply), hcached]
  · right
    exact ⟨_, hsourced.source o s text hs hsnapshot, rfl, not_lt.mp hyoung⟩

theorem snapshot_law [IsOrderedAddMonoid τ] (huuid : Function.Injective uuid) (T maxAge : τ)
    (cs : List (Call τ)) (hclock : Nondecreasing cs) (hage : FixedAge maxAge cs) :
    SnapshotLaw uuid T maxAge cs where
  source := by
    intro pre c post o take text hcs hop hreply
    subst hcs
    exact source_law huuid pre (fun e he => hage e (List.mem_append_left _ he)) hop hreply
  stable := by
    intro pre c mid d post o takeC takeD textC textD sid hcs hop hdop hreply hdreply hsid hdsid
    subst hcs
    refine stable_law huuid pre mid (fun e he => ?_) (fun e he => ?_) hop hdop hreply hdreply hsid
      hdsid
    · have htail := (List.pairwise_append.mp hclock).2.1
      exact (List.pairwise_append.mp (List.pairwise_cons.mp htail).2).2.2 e he d
        List.mem_cons_self
    · exact hage e (by simp [he])
  fresh := fun pre _ _ _ _ _ hop hnone => fresh_law pre hop hnone
  raised := fun pre _ _ _ _ _ hop htakes => raised_law pre hop htakes

theorem snapshot_law_kitchen : SnapshotLaw tally 60 (300 : ℤ)
    [⟨0, .sessionFor "kitchen"⟩, ⟨1, .snapshotFor "kitchen" (.ok "on") 300⟩,
      ⟨2, .sessionFor "office"⟩, ⟨5, .snapshotFor "kitchen" (.ok "off") 300⟩] :=
  snapshot_law tally_injective 60 300 _ (by decide) (by decide)

end Law

end HermesConversation.Snapshots
