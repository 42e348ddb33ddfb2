import HermesConversation.Sessions
import Mathlib.Algebra.Order.Group.Int
import Mathlib.Data.List.TakeWhile

/-!
# What the history of calls says about a session

`Kept` reads off the history alone whether an origin's session is still there, and
`activity` when it was last active. `Tracks` ties both to the tracker, one call at a time,
and the session law is its consequence for the next lookup.
-/

namespace HermesConversation.SessionHistory

open Library Sessions

section Definitions

variable {τ : Type*}

abbrev History (τ : Type*) := List (Call τ × Reply)

/-- The id an entry returned, for a lookup made for `o`. -/
def lookedUp (o : String) (x : Call τ × Reply) : Option String :=
  match x.1.op, x.2 with
  | .sessionFor o', .id sid => if o' = o then some sid else none
  | _, _ => none

def Returned (sid : String) (h : History τ) : Prop := ∃ x ∈ h, ∃ o, lookedUp o x = some sid

def previousId (o : String) (h : History τ) : Option String :=
  h.reverse.findSome? (lookedUp o)

def returns (sid : String) (x : Call τ × Reply) : Bool :=
  match x.1.op, x.2 with
  | .sessionFor _, .id sid' => sid' = sid
  | _, _ => false

/-- The entries from the lookup that created the session on. -/
def lifetime (sid : String) (h : History τ) : History τ := h.dropWhile fun x => !returns sid x

def touchTime (o : String) (x : Call τ × Reply) : Option τ :=
  match x.1.op with
  | .touch o' => if o' = o then some x.1.now else none
  | _ => none

/-- The latest among the creation time of the session that `sessionFor o` last returned and
the touches of `o` since then. -/
def activity [LinearOrder τ] (o : String) (h : History τ) : Option τ :=
  match previousId o h with
  | none => none
  | some sid =>
    match lifetime sid h with
    | [] => none
    | creation :: rest => some ((rest.filterMap (touchTime o)).foldl max creation.1.now)

end Definitions

section Lists

variable {τ : Type*} {o sid : String} {h : History τ} {x : Call τ × Reply}

theorem returns_of_lookedUp (hx : lookedUp o x = some sid) : returns sid x := by
  obtain ⟨⟨now, op⟩, r⟩ := x
  cases op <;> cases r <;> simp_all [lookedUp, returns]

theorem lookedUp_of_returns (hx : returns sid x) : ∃ o, lookedUp o x = some sid := by
  obtain ⟨⟨now, op⟩, r⟩ := x
  cases op <;> cases r <;> simp_all [lookedUp, returns]

theorem returned_concat :
    Returned sid (h ++ [x]) ↔ Returned sid h ∨ ∃ o, lookedUp o x = some sid := by
  simp [Returned, or_and_right, exists_or]

theorem previousId_concat :
    previousId o (h ++ [x]) = (lookedUp o x).or (previousId o h) := by
  simp only [previousId, List.reverse_append, List.reverse_singleton, List.singleton_append,
    List.findSome?_cons]
  cases lookedUp o x <;> rfl

theorem returned_of_previousId (hp : previousId o h = some sid) : Returned sid h := by
  obtain ⟨x, hx, hsid⟩ := List.exists_of_findSome?_eq_some hp
  exact ⟨x, List.mem_reverse.mp hx, o, hsid⟩

theorem lifetime_ne_nil : lifetime sid h ≠ [] ↔ Returned sid h := by
  constructor
  · intro hne
    simp only [lifetime, ne_eq, List.dropWhile_eq_nil_iff, not_forall] at hne
    obtain ⟨x, hx, hret⟩ := hne
    have hret : returns sid x = true := by simpa using hret
    obtain ⟨o, ho⟩ := lookedUp_of_returns hret
    exact ⟨x, hx, o, ho⟩
  · intro hr hnil
    obtain ⟨x, hx, o, hsid⟩ := hr
    rw [lifetime, List.dropWhile_eq_nil_iff] at hnil
    simpa [returns_of_lookedUp hsid] using hnil x hx

theorem lifetime_concat_of_returned (hr : Returned sid h) :
    lifetime sid (h ++ [x]) = lifetime sid h ++ [x] := by
  have hne := lifetime_ne_nil.mpr hr
  simp only [lifetime] at hne ⊢
  rw [List.dropWhile_append, if_neg (by simpa using hne)]

theorem lifetime_concat_of_new (hr : ¬ Returned sid h) (hx : lookedUp o x = some sid) :
    lifetime sid (h ++ [x]) = [x] := by
  have hnil : lifetime sid h = [] := by
    by_contra hne
    exact hr (lifetime_ne_nil.mp hne)
  simp only [lifetime] at hnil ⊢
  rw [List.dropWhile_append, if_pos (by simp [hnil])]
  simp [returns_of_lookedUp hx]

end Lists

section Activity

variable {τ : Type*} [LinearOrder τ] {o sid : String} {h : History τ} {x : Call τ × Reply}

theorem activity_of_lifetime {creation : Call τ × Reply} {rest : History τ}
    (hp : previousId o h = some sid) (hl : lifetime sid h = creation :: rest) :
    activity o h = some ((rest.filterMap (touchTime o)).foldl max creation.1.now) := by
  simp only [activity, hp, hl]

theorem activity_concat_other (hx : lookedUp o x = none) (ht : touchTime o x = none) :
    activity o (h ++ [x]) = activity o h := by
  have hp : previousId o (h ++ [x]) = previousId o h := by rw [previousId_concat, hx]; rfl
  cases hsid : previousId o h with
  | none => simp only [activity, hp, hsid]
  | some sid =>
    have hr := returned_of_previousId hsid
    obtain ⟨creation, rest, hl⟩ := List.exists_cons_of_ne_nil (lifetime_ne_nil.mpr hr)
    rw [activity_of_lifetime hsid hl, activity_of_lifetime (hp.trans hsid)
      (by rw [lifetime_concat_of_returned hr, hl, List.cons_append])]
    simp [List.filterMap_append, ht]

theorem activity_concat_same (hp : previousId o h = some sid) (hx : lookedUp o x = some sid)
    (ht : touchTime o x = none) : activity o (h ++ [x]) = activity o h := by
  have hr := returned_of_previousId hp
  obtain ⟨creation, rest, hl⟩ := List.exists_cons_of_ne_nil (lifetime_ne_nil.mpr hr)
  have hp' : previousId o (h ++ [x]) = some sid := by rw [previousId_concat, hx]; rfl
  rw [activity_of_lifetime hp hl, activity_of_lifetime hp'
    (by rw [lifetime_concat_of_returned hr, hl, List.cons_append])]
  simp [List.filterMap_append, ht]

theorem activity_concat_new (hr : ¬ Returned sid h) (hx : lookedUp o x = some sid) :
    activity o (h ++ [x]) = some x.1.now := by
  have hp' : previousId o (h ++ [x]) = some sid := by rw [previousId_concat, hx]; rfl
  rw [activity_of_lifetime hp' (lifetime_concat_of_new hr hx)]
  rfl

theorem activity_concat_touch {a now : τ} (ha : activity o h = some a)
    (hx : lookedUp o x = none) (ht : touchTime o x = some now) :
    activity o (h ++ [x]) = some (max a now) := by
  obtain ⟨sid, hsid⟩ : ∃ sid, previousId o h = some sid := by
    cases hp : previousId o h with
    | none => simp [activity, hp] at ha
    | some sid => exact ⟨sid, rfl⟩
  have hr := returned_of_previousId hsid
  obtain ⟨creation, rest, hl⟩ := List.exists_cons_of_ne_nil (lifetime_ne_nil.mpr hr)
  have hp' : previousId o (h ++ [x]) = some sid := by rw [previousId_concat, hx, hsid]; rfl
  rw [activity_of_lifetime hsid hl] at ha
  rw [activity_of_lifetime hp' (by rw [lifetime_concat_of_returned hr, hl, List.cons_append])]
  simpa [List.filterMap_append, ht] using congrArg (max · now) (Option.some.inj ha)

end Activity

section Kept

variable {τ : Type*} [AddCommGroup τ] [LinearOrder τ]

def InTime (idleTimeout : τ) (o : String) (h : History τ) (now : τ) : Prop :=
  ∃ a, activity o h = some a ∧ now - a < idleTimeout

/-- Since the latest `sessionFor o` there was no reset of `o`, and every lookup of any
origin came in time for `o`'s session. -/
def Kept (idleTimeout : τ) (o : String) (h : History τ) : Prop :=
  ∃ h₁ start h₂, h = h₁ ++ start :: h₂ ∧ start.1.op = .sessionFor o ∧
    (∀ x ∈ h₂, x.1.op ≠ .sessionFor o ∧ x.1.op ≠ .reset o) ∧
    ∀ h₃ x h₄, h₂ = h₃ ++ x :: h₄ → (∃ o', x.1.op = .sessionFor o') →
      InTime idleTimeout o (h₁ ++ start :: h₃) x.1.now

variable {T : τ} {o : String} {h : History τ} {x : Call τ × Reply}

theorem not_kept_nil : ¬ Kept T o ([] : History τ) := by
  intro hk
  obtain ⟨h₁, start, h₂, hh, -⟩ := hk
  exact List.cons_ne_nil _ _ (List.append_eq_nil_iff.mp hh.symm).2

theorem kept_concat_lookup (hx : x.1.op = .sessionFor o) : Kept T o (h ++ [x]) :=
  ⟨h, x, [], rfl, hx, by simp, by simp⟩

theorem not_kept_concat_reset (hx : x.1.op = .reset o) : ¬ Kept T o (h ++ [x]) := by
  intro hk
  obtain ⟨h₁, start, h₂, hh, hstart, hquiet, -⟩ := hk
  rcases Runs.concat_eq_append_cons.mp hh with ⟨-, -, rfl⟩ | ⟨h₂, rfl, -⟩
  · simp [hx] at hstart
  · exact (hquiet x (by simp)).2 hx

theorem kept_concat_other (hl : x.1.op ≠ .sessionFor o) (hr : x.1.op ≠ .reset o) :
    Kept T o (h ++ [x]) ↔
      Kept T o h ∧ ((∃ o', x.1.op = .sessionFor o') → InTime T o h x.1.now) := by
  constructor
  · intro hk
    obtain ⟨h₁, start, h₂, hh, hstart, hquiet, htime⟩ := hk
    rcases Runs.concat_eq_append_cons.mp hh with ⟨-, -, rfl⟩ | ⟨h₂, rfl, rfl⟩
    · exact absurd hstart hl
    · refine ⟨⟨h₁, start, h₂, rfl, hstart, fun z hz => hquiet z (by simp [hz]), ?_⟩, ?_⟩
      · intro h₃ z h₄ hsplit
        exact htime h₃ z (h₄ ++ [x]) (by simp [hsplit])
      · exact htime h₂ x [] rfl
  · intro hk
    obtain ⟨⟨h₁, start, h₂, rfl, hstart, hquiet, htime⟩, hlast⟩ := hk
    refine ⟨h₁, start, h₂ ++ [x], by simp, hstart, ?_, ?_⟩
    · intro z hz
      rcases List.mem_append.mp hz with hz | hz
      · exact hquiet z hz
      · obtain rfl := List.mem_singleton.mp hz
        exact ⟨hl, hr⟩
    · intro h₃ z h₄ hsplit
      rcases Runs.concat_eq_append_cons.mp hsplit with ⟨-, rfl, rfl⟩ | ⟨h₄, -, hsplit⟩
      · exact hlast
      · exact htime h₃ z h₄ hsplit

end Kept

section Invariant

variable {τ : Type*} [AddCommGroup τ] [LinearOrder τ]

structure Live (T : τ) (o : String) (h : History τ) (sid : String) (lastUsed : τ) : Prop where
  kept : Kept T o h
  previous : previousId o h = some sid
  active : activity o h = some lastUsed
  seen : ∃ x ∈ h, x.1.now = lastUsed

structure Tracks (uuid : ℕ → String) (T : τ) (h : History τ) (t : SessionTracker τ) : Prop where
  idle : t.idleTimeout = T
  minted : ∀ sid, Returned sid h → ∃ k < t.minted, sid = newId uuid k
  owner : ∀ x ∈ h, ∀ y ∈ h, ∀ o o' sid,
    lookedUp o x = some sid → lookedUp o' y = some sid → o = o'
  live : ∀ o s, t.sessions o = some s → Live T o h s.sessionId s.lastUsed
  kept : ∀ o, Kept T o h → ∃ s, t.sessions o = some s

variable {uuid : ℕ → String} {T now : τ} {o o' sid : String} {h : History τ}
  {x : Call τ × Reply} {t : SessionTracker τ} {lastUsed : τ}

/-- A call that neither looks the origin up nor touches it. -/
theorem Live.concat_silent (hl : Live T o h sid lastUsed) (hlook : lookedUp o x = none)
    (htouch : touchTime o x = none) (hkept : Kept T o (h ++ [x])) :
    Live T o (h ++ [x]) sid lastUsed := by
  refine ⟨hkept, ?_, ?_, ?_⟩
  · rw [previousId_concat, hlook]
    exact hl.previous
  · rw [activity_concat_other hlook htouch]
    exact hl.active
  · obtain ⟨y, hy, hnow⟩ := hl.seen
    exact ⟨y, List.mem_append_left _ hy, hnow⟩

theorem Live.concat_other (hl : Live T o h sid lastUsed) (hop : x.1.op.origin ≠ o)
    (htime : (∃ o', x.1.op = .sessionFor o') → x.1.now - lastUsed < T) :
    Live T o (h ++ [x]) sid lastUsed := by
  have hlook : lookedUp o x = none := by
    obtain ⟨⟨now, op⟩, r⟩ := x
    cases op <;> cases r <;> simp_all [lookedUp, Op.origin]
  have htouch : touchTime o x = none := by
    obtain ⟨⟨now, op⟩, r⟩ := x
    cases op <;> simp_all [touchTime, Op.origin]
  apply hl.concat_silent hlook htouch
  rw [kept_concat_other (fun h => hop (by rw [h]; rfl)) (fun h => hop (by rw [h]; rfl))]
  exact ⟨hl.kept, fun hx => ⟨lastUsed, hl.active, htime hx⟩⟩

theorem Live.concat_snapshot (hl : Live T o h sid lastUsed) {take : Except String String}
    {maxAge : τ} (hx : x.1.op = .snapshotFor o' take maxAge) :
    Live T o (h ++ [x]) sid lastUsed := by
  obtain ⟨⟨now, op⟩, r⟩ := x
  obtain rfl : op = _ := hx
  apply hl.concat_silent rfl rfl
  rw [kept_concat_other (by simp) (by simp)]
  exact ⟨hl.kept, by simp⟩

theorem Live.concat_touch (hl : Live T o h sid lastUsed) (hnow : ∀ y ∈ h, y.1.now ≤ now) :
    Live T o (h ++ [(⟨now, .touch o⟩, .done)]) sid now := by
  obtain ⟨y, hy, hlast⟩ := hl.seen
  refine ⟨?_, ?_, ?_, ⟨_, List.mem_append_right _ List.mem_cons_self, rfl⟩⟩
  · rw [kept_concat_other (by simp) (by simp)]
    exact ⟨hl.kept, by simp⟩
  · rw [previousId_concat]
    exact hl.previous
  · have hle : lastUsed ≤ now := hlast ▸ hnow y hy
    have htouch : touchTime o ((⟨now, .touch o⟩, .done) : Call τ × Reply) = some now := by
      simp [touchTime]
    rw [activity_concat_touch hl.active rfl htouch, max_eq_right hle]

theorem Live.concat_same (hl : Live T o h sid lastUsed) :
    Live T o (h ++ [(⟨now, .sessionFor o⟩, .id sid)]) sid lastUsed := by
  refine ⟨kept_concat_lookup rfl, ?_, ?_, ?_⟩
  · simp [previousId_concat, lookedUp]
  · rw [activity_concat_same hl.previous (by simp [lookedUp]) rfl]
    exact hl.active
  · obtain ⟨y, hy, hnow⟩ := hl.seen
    exact ⟨y, List.mem_append_left _ hy, hnow⟩

theorem Live.concat_new (hr : ¬ Returned sid h) :
    Live T o (h ++ [(⟨now, .sessionFor o⟩, .id sid)]) sid now := by
  refine ⟨kept_concat_lookup rfl, ?_, ?_, ?_⟩
  · simp [previousId_concat, lookedUp]
  · exact activity_concat_new hr (by simp [lookedUp])
  · exact ⟨_, List.mem_append_right _ List.mem_cons_self, rfl⟩

theorem tracks_fresh : Tracks uuid T [] (fresh T) where
  idle := rfl
  minted := by simp [Returned]
  owner := by simp
  live := by simp [fresh]
  kept := fun _ hk => absurd hk not_kept_nil

theorem Tracks.concat_silent (ht : Tracks uuid T h t) (hx : ∀ o, lookedUp o x = none)
    {t' : SessionTracker τ} (hidle : t'.idleTimeout = t.idleTimeout)
    (hminted : t'.minted = t.minted)
    (hlive : ∀ o s, t'.sessions o = some s → Live T o (h ++ [x]) s.sessionId s.lastUsed)
    (hkept : ∀ o, Kept T o (h ++ [x]) → ∃ s, t'.sessions o = some s) :
    Tracks uuid T (h ++ [x]) t' where
  idle := hidle.trans ht.idle
  minted := by
    intro sid hr
    rw [hminted]
    rcases returned_concat.mp hr with hr | ⟨o, ho⟩
    · exact ht.minted sid hr
    · simp [hx] at ho
  owner := by
    intro y hy z hz o o' sid ho ho'
    rcases List.mem_append.mp hy with hy | hy
    · rcases List.mem_append.mp hz with hz | hz
      · exact ht.owner y hy z hz o o' sid ho ho'
      · simp [List.mem_singleton.mp hz, hx] at ho'
    · simp [List.mem_singleton.mp hy, hx] at ho
  live := hlive
  kept := hkept

theorem Tracks.reset (ht : Tracks uuid T h t) (now : τ) (o : String) :
    Tracks uuid T (h ++ [(⟨now, .reset o⟩, .done)]) (reset t o) := by
  refine ht.concat_silent (fun _ => rfl) rfl rfl ?_ ?_
  · intro o' s hs
    rw [reset_sessions] at hs
    split_ifs at hs with ho
    exact (ht.live o' s hs).concat_other (fun h => ho h.symm) (by simp)
  · intro o' hk
    by_cases ho : o' = o
    · exact absurd hk (not_kept_concat_reset (by rw [ho]))
    · rw [kept_concat_other (by simp) (by simpa using fun h => ho h.symm)] at hk
      simpa [ho] using ht.kept o' hk.1

theorem Tracks.touch (ht : Tracks uuid T h t) (hnow : ∀ y ∈ h, y.1.now ≤ now) (o : String) :
    Tracks uuid T (h ++ [(⟨now, .touch o⟩, .done)]) (touch t now o) := by
  refine ht.concat_silent (fun _ => rfl) (by simp) (by simp) ?_ ?_
  · intro o' s hs
    by_cases ho : o' = o
    · subst ho
      rw [touch_sessions_self, Option.map_eq_some_iff] at hs
      obtain ⟨s, hs, rfl⟩ := hs
      exact (ht.live o' s hs).concat_touch hnow
    · rw [touch_sessions_of_ne _ _ ho] at hs
      exact (ht.live o' s hs).concat_other (fun h => ho h.symm) (by simp)
  · intro o' hk
    rw [kept_concat_other (by simp) (by simp)] at hk
    obtain ⟨s, hs⟩ := ht.kept o' hk.1
    by_cases ho : o' = o
    · subst ho; simp [hs]
    · exact ⟨s, by rw [touch_sessions_of_ne _ _ ho, hs]⟩

theorem Tracks.snapshotFor (ht : Tracks uuid T h t) (now : τ) (o : String)
    (take : Except String String) (maxAge : τ) :
    Tracks uuid T (h ++ [(⟨now, .snapshotFor o take maxAge⟩,
      .snapshot (snapshotFor t now o take maxAge).1)]) (snapshotFor t now o take maxAge).2 := by
  obtain ⟨hidle, hminted, -⟩ := snapshotFor_keeps t now o take maxAge
  refine ht.concat_silent (fun _ => rfl) hidle hminted ?_ ?_
  · intro o' s' hs'
    obtain ⟨s, hs, hid, hlast⟩ := snapshotFor_some hs'
    rw [← hid, ← hlast]
    exact (ht.live o' s hs).concat_snapshot rfl
  · intro o' hk
    rw [kept_concat_other (by simp) (by simp)] at hk
    obtain ⟨s, hs⟩ := ht.kept o' hk.1
    obtain ⟨s', hs', -⟩ := snapshotFor_of_some hs
    exact ⟨s', hs'⟩

theorem owner_concat (ht : Tracks uuid T h t)
    (hown : ∀ y ∈ h, ∀ o', lookedUp o' y = some sid → o' = o) :
    ∀ y ∈ h ++ [(⟨now, .sessionFor o⟩, .id sid)],
      ∀ z ∈ h ++ [(⟨now, .sessionFor o⟩, .id sid)], ∀ o₁ o₂ sid',
        lookedUp o₁ y = some sid' → lookedUp o₂ z = some sid' → o₁ = o₂ := by
  have hnew : ∀ o₁ sid', lookedUp o₁ ((⟨now, .sessionFor o⟩, .id sid) : Call τ × Reply) =
      some sid' → o₁ = o ∧ sid' = sid := by
    intro o₁ sid' hl
    simp only [lookedUp, Option.ite_none_right_eq_some, Option.some.injEq] at hl
    exact ⟨hl.1.symm, hl.2.symm⟩
  intro y hy' z hz' o₁ o₂ sid' h₁ h₂
  rcases List.mem_append.mp hy' with hy | hy <;> rcases List.mem_append.mp hz' with hz | hz
  · exact ht.owner y hy z hz o₁ o₂ sid' h₁ h₂
  · rw [List.mem_singleton.mp hz] at h₂
    obtain ⟨rfl, rfl⟩ := hnew o₂ sid' h₂
    exact hown y hy o₁ h₁
  · rw [List.mem_singleton.mp hy] at h₁
    obtain ⟨rfl, rfl⟩ := hnew o₁ sid' h₁
    exact (hown z hz o₂ h₂).symm
  · rw [List.mem_singleton.mp hy] at h₁
    rw [List.mem_singleton.mp hz] at h₂
    rw [(hnew o₁ sid' h₁).1, (hnew o₂ sid' h₂).1]

/-- After pruning, the tracker holds exactly the kept sessions the lookup is in time for. -/
theorem Tracks.pruned_iff (ht : Tracks uuid T h t) (now : τ) (o : String) :
    (∃ s, (prune t now).sessions o = some s) ↔ Kept T o h ∧ InTime T o h now := by
  constructor
  · intro hlive
    obtain ⟨s, hs⟩ := hlive
    obtain ⟨hs, htime⟩ := prune_some_iff.mp hs
    have hl := ht.live o s hs
    exact ⟨hl.kept, s.lastUsed, hl.active, ht.idle ▸ htime⟩
  · intro hkept
    obtain ⟨hk, a, ha, htime⟩ := hkept
    obtain ⟨s, hs⟩ := ht.kept o hk
    have hlast : s.lastUsed = a := by
      have hactive := (ht.live o s hs).active
      rw [ha] at hactive
      exact (Option.some.inj hactive).symm
    exact ⟨s, prune_some_iff.mpr ⟨hs, by rw [hlast, ht.idle]; exact htime⟩⟩

theorem Tracks.new_not_returned (huuid : Function.Injective uuid) (ht : Tracks uuid T h t) :
    ¬ Returned (newId uuid t.minted) h := by
  intro hr
  obtain ⟨k, hk, heq⟩ := ht.minted _ hr
  exact absurd (newId_injective huuid heq) (Nat.ne_of_gt hk)

theorem Tracks.pruned_other (ht : Tracks uuid T h t) (hne : o' ≠ o) {r : Reply} :
    (∀ s, (prune t now).sessions o' = some s →
      Live T o' (h ++ [(⟨now, .sessionFor o⟩, r)]) s.sessionId s.lastUsed) ∧
    (Kept T o' (h ++ [(⟨now, .sessionFor o⟩, r)]) → ∃ s, (prune t now).sessions o' = some s) := by
  constructor
  · intro s hs
    obtain ⟨hs, htime⟩ := prune_some_iff.mp hs
    rw [ht.idle] at htime
    exact (ht.live o' s hs).concat_other (fun h => hne h.symm) fun _ => htime
  · intro hk
    rw [kept_concat_other (by simpa using fun h => hne h.symm) (by simp)] at hk
    exact (ht.pruned_iff now o').mpr ⟨hk.1, hk.2 ⟨o, rfl⟩⟩

theorem Tracks.sessionFor_live (ht : Tracks uuid T h t) {s : Session τ}
    (hfound : (prune t now).sessions o = some s) :
    Tracks uuid T (h ++ [(⟨now, .sessionFor o⟩, .id s.sessionId)]) (prune t now) := by
  have hl := ht.live o s (prune_some_iff.mp hfound).1
  obtain ⟨y₀, hy₀, ho₀⟩ : ∃ y ∈ h, lookedUp o y = some s.sessionId := by
    obtain ⟨y, hy, hsid⟩ := List.exists_of_findSome?_eq_some hl.previous
    exact ⟨y, List.mem_reverse.mp hy, hsid⟩
  refine ⟨ht.idle, ?_, owner_concat ht ?_, ?_, ?_⟩
  · intro sid hr
    rcases returned_concat.mp hr with hr | ⟨o', ho'⟩
    · exact ht.minted sid hr
    · simp only [lookedUp, Option.ite_none_right_eq_some, Option.some.injEq] at ho'
      exact ht.minted sid ⟨y₀, hy₀, o, by rw [ho₀, ho'.2]⟩
  · intro y hy o' ho'
    exact ht.owner y hy y₀ hy₀ o' o _ ho' ho₀
  · intro o' s' hs'
    by_cases ho : o' = o
    · subst ho
      rw [hfound, Option.some.injEq] at hs'
      subst hs'
      exact hl.concat_same
    · exact (ht.pruned_other ho).1 s' hs'
  · intro o' hk
    by_cases ho : o' = o
    · subst ho
      exact ⟨s, hfound⟩
    · exact (ht.pruned_other ho).2 hk

theorem Tracks.sessionFor_new (huuid : Function.Injective uuid) (ht : Tracks uuid T h t)
    (hfound : (prune t now).sessions o = none) :
    Tracks uuid T (h ++ [(⟨now, .sessionFor o⟩, .id (sessionFor uuid t now o).1)])
      (sessionFor uuid t now o).2 := by
  have hnew := ht.new_not_returned huuid
  rw [sessionFor_of_none hfound]
  refine ⟨ht.idle, ?_, owner_concat ht ?_, ?_, ?_⟩
  · intro sid hr
    rcases returned_concat.mp hr with hr | ⟨o', ho'⟩
    · obtain ⟨k, hk, hsid⟩ := ht.minted sid hr
      exact ⟨k, Nat.lt_succ_of_lt hk, hsid⟩
    · simp only [lookedUp, Option.ite_none_right_eq_some, Option.some.injEq] at ho'
      exact ⟨t.minted, Nat.lt_succ_self _, ho'.2.symm⟩
  · intro y hy o' ho'
    exact absurd ⟨y, hy, o', ho'⟩ hnew
  · intro o' s' hs'
    by_cases ho : o' = o
    · subst ho
      simp only [Function.update_self, Option.some.injEq] at hs'
      subst hs'
      exact .concat_new hnew
    · simp only [Function.update_of_ne ho] at hs'
      exact (ht.pruned_other ho).1 s' hs'
  · intro o' hk
    by_cases ho : o' = o
    · subst ho
      simp
    · simp only [Function.update_of_ne ho]
      exact (ht.pruned_other ho).2 hk

theorem Tracks.sessionFor (huuid : Function.Injective uuid) (ht : Tracks uuid T h t)
    (now : τ) (o : String) :
    Tracks uuid T (h ++ [(⟨now, .sessionFor o⟩, .id (sessionFor uuid t now o).1)])
      (sessionFor uuid t now o).2 := by
  cases hfound : (prune t now).sessions o with
  | some s =>
    rw [sessionFor_of_live hfound]
    exact ht.sessionFor_live hfound
  | none => exact ht.sessionFor_new huuid hfound

theorem tracks_step (huuid : Function.Injective uuid) (ht : Tracks uuid T h t) (c : Call τ)
    (hclock : ∀ y ∈ h, y.1.now ≤ c.now) :
    Tracks uuid T (h ++ [(c, reply uuid t c)]) (step uuid t c) := by
  obtain ⟨now, op⟩ := c
  cases op with
  | sessionFor o => exact ht.sessionFor huuid now o
  | touch o => exact ht.touch hclock o
  | reset o => exact ht.reset now o
  | snapshotFor o take maxAge => exact ht.snapshotFor now o take maxAge

theorem tracks_run (huuid : Function.Injective uuid) {cs : List (Call τ)}
    (hclock : Nondecreasing cs) : Tracks uuid T (history uuid T cs) (after uuid T cs) := by
  refine Runs.trace_invariant (C := fun pre c => ∀ b ∈ pre, b.now ≤ c.now) tracks_fresh ?_ ?_
  · intro pre c hpre ht
    refine tracks_step huuid ht c fun y hy => hpre y.1 ?_
    have hevents : (history uuid T pre).map Prod.fst = pre := Runs.trace_events _ _
    rw [← hevents]
    exact List.mem_map_of_mem hy
  · intro pre c hpre b hb
    exact (List.pairwise_append.mp (hclock.sublist hpre.sublist)).2.2 b hb c (by simp)

structure SessionLaw (uuid : ℕ → String) (T : τ) (cs : List (Call τ)) (now : τ) (o sid : String) :
    Prop where
  continues : previousId o (history uuid T cs) = some sid ↔
    Kept T o (history uuid T cs) ∧ InTime T o (history uuid T cs) now
  otherwise_new : ¬ (Kept T o (history uuid T cs) ∧ InTime T o (history uuid T cs) now) →
    ¬ Returned sid (history uuid T cs)
  one_origin : ∀ x ∈ history uuid T cs, ∀ o', lookedUp o' x = some sid → o' = o
  dropped_gone : ∀ sid', Returned sid' (history uuid T cs) →
    ¬ (previousId o (history uuid T cs) = some sid' ∧ Kept T o (history uuid T cs) ∧
      InTime T o (history uuid T cs) now) → sid ≠ sid'

theorem session_law (huuid : Function.Injective uuid) (T : τ) (cs : List (Call τ)) (now : τ)
    (o : String) (hclock : Nondecreasing (cs ++ [⟨now, .sessionFor o⟩])) :
    SessionLaw uuid T cs now o (sessionFor uuid (after uuid T cs) now o).1 := by
  have ht : Tracks uuid T (history uuid T cs) (after uuid T cs) :=
    tracks_run huuid (hclock.sublist (List.sublist_append_left _ _))
  have hnext := ht.sessionFor huuid now o
  have hnew := ht.new_not_returned huuid
  have hpruned := ht.pruned_iff now o
  have howner : ∀ x ∈ history uuid T cs, ∀ o',
      lookedUp o' x = some (sessionFor uuid (after uuid T cs) now o).1 → o' = o := by
    intro x hx o' ho'
    refine hnext.owner x (List.mem_append_left _ hx) _
      (List.mem_append_right _ List.mem_cons_self) o' o _ ho' ?_
    simp [lookedUp]
  cases hfound : (prune (after uuid T cs) now).sessions o with
  | some s =>
    have hkept := hpruned.mp ⟨s, hfound⟩
    have hprevious := (ht.live o s (prune_some_iff.mp hfound).1).previous
    rw [sessionFor_of_live hfound] at howner ⊢
    refine ⟨⟨fun _ => hkept, fun _ => hprevious⟩, fun h => absurd hkept h, howner, ?_⟩
    intro sid' _ hdropped heq
    exact hdropped ⟨heq ▸ hprevious, hkept⟩
  | none =>
    have hlost : ¬ (Kept T o (history uuid T cs) ∧ InTime T o (history uuid T cs) now) := by
      intro hk
      obtain ⟨s, hs⟩ := hpruned.mpr hk
      rw [hfound] at hs
      cases hs
    rw [sessionFor_of_none hfound] at howner ⊢
    refine ⟨⟨fun hp => absurd (returned_of_previousId hp) hnew, fun hk => absurd hk hlost⟩,
      fun _ => hnew, howner, ?_⟩
    intro sid' hr _ heq
    rw [← heq] at hr
    exact hnew hr

theorem session_law_kitchen :
    SessionLaw tally (60 : ℤ)
      [⟨0, .sessionFor "kitchen"⟩, ⟨30, .sessionFor "office"⟩, ⟨40, .touch "kitchen"⟩]
      80 "kitchen" "ha-" :=
  session_law tally_injective 60 _ 80 "kitchen" (by decide)

end Invariant

end HermesConversation.SessionHistory
