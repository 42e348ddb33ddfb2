import HermesConversation.Library.Text
import HermesConversation.Sessions
import Mathlib.Algebra.Order.Group.Int

/-!
# Turns in flight

A conversation entity answers a request in two steps, between which any others may happen:
the request goes out under the id of the origin's session, and once Hermes has answered, the
origin is touched. `turns` keeps every request ever sent, oldest first, with what became of
it; the code keeps the pending ones in its coroutines.
-/

namespace HermesConversation.Turns

open Library Sessions

def resetPhrases : List String := ["new session", "start over", "reset", "slash new", "/new"]
def resetTrim : List Char := [' ', '.', ',', '!', '?']

def isReset (text : String) : Bool :=
  let utterance := Text.casefold (Text.strip resetTrim (Text.join " " (Text.words text)))
  utterance ∈ resetPhrases

structure Input where
  satelliteId : Option String
  deviceId : Option String
  conversationId : String
  text : String

/-- The empty text is as good as none. -/
def originOf (input : Input) : String :=
  match input.satelliteId.filter (· ≠ ""), input.deviceId.filter (· ≠ "") with
  | some satellite, _ => satellite
  | none, some device => device
  | none, none => input.conversationId

inductive Phase (τ : Type*) where
  | inFlight
  | failed
  | answered (now : τ)
  deriving DecidableEq

structure Turn (τ : Type*) where
  origin : String
  sessionId : Option String
  begun : τ
  phase : Phase τ
  deriving DecidableEq

structure Agent (τ : Type*) where
  tracker : SessionTracker τ
  turns : List (Turn τ)

def pending {τ : Type*} (a : Agent τ) (i : ℕ) : Option (Turn τ) :=
  a.turns[i]?.filter fun turn => turn.phase matches .inFlight

def settle {τ : Type*} (turns : List (Turn τ)) (i : ℕ) (phase : Phase τ) : List (Turn τ) :=
  turns.modify i fun turn => { turn with phase }

inductive Event (τ : Type*) where
  | message (input : Input) (now : τ)
  | snapshot (turn : ℕ) (take : Except String String) (maxAge now : τ)
  | answer (turn : ℕ) (now : τ)
  | failure (turn : ℕ)

section Steps

variable {τ : Type*} [AddCommGroup τ] [LinearOrder τ]

def message (uuid : ℕ → String) (a : Agent τ) (input : Input) (now : τ) : Agent τ :=
  let origin := originOf input
  if enabled a.tracker && isReset input.text then
    { a with tracker := reset a.tracker origin }
  else if enabled a.tracker then
    let (sid, tracker) := sessionFor uuid a.tracker now origin
    ⟨tracker, a.turns ++ [⟨origin, some sid, now, .inFlight⟩]⟩
  else
    { a with turns := a.turns ++ [⟨origin, none, now, .inFlight⟩] }

/-- The house state is asked for while the request is put together; a snapshot that cannot
be taken ends the turn. -/
def snapshot (a : Agent τ) (i : ℕ) (take : Except String String) (maxAge now : τ) : Agent τ :=
  match pending a i with
  | none => a
  | some turn =>
    match snapshotFor a.tracker now turn.origin take maxAge with
    | (.ok _, tracker) => { a with tracker }
    | (.error _, tracker) => ⟨tracker, settle a.turns i .failed⟩

def answer (a : Agent τ) (i : ℕ) (now : τ) : Agent τ :=
  match pending a i with
  | none => a
  | some turn =>
    let tracker :=
      if turn.sessionId.any (· ≠ "") then touch a.tracker now turn.origin else a.tracker
    ⟨tracker, settle a.turns i (.answered now)⟩

def failure (a : Agent τ) (i : ℕ) : Agent τ :=
  match pending a i with
  | none => a
  | some _ => { a with turns := settle a.turns i .failed }

def step (uuid : ℕ → String) (a : Agent τ) : Event τ → Agent τ
  | .message input now => message uuid a input now
  | .snapshot i take maxAge now => snapshot a i take maxAge now
  | .answer i now => answer a i now
  | .failure i => failure a i

def after (uuid : ℕ → String) (idleTimeout : τ) (es : List (Event τ)) : Agent τ :=
  Runs.run (step uuid) ⟨fresh idleTimeout, []⟩ es

end Steps

/-! ## What keeps a session alive -/

section Lists

variable {τ : Type*} {a : Agent τ} {turns : List (Turn τ)} {t turn : Turn τ} {i j : ℕ}
  {phase : Phase τ} {sid : String}

/-- The position of the turn that created the session: the first that carries its id. -/
def created (sid : String) (turns : List (Turn τ)) : ℕ :=
  (turns.map Turn.sessionId).idxOf (some sid)

theorem pending_some_iff :
    pending a i = some t ↔ a.turns[i]? = some t ∧ t.phase = .inFlight := by
  simp only [pending, Option.filter_eq_some_iff]
  refine and_congr_right fun _ => ?_
  cases t.phase <;> simp

theorem settle_getElem? :
    (settle turns i phase)[j]? =
      turns[j]?.map fun t => if i = j then { t with phase } else t :=
  List.getElem?_modify _ _ _ _

theorem concat_some_iff {α : Type*} {l : List α} {x y : α} :
    (l ++ [x])[i]? = some y ↔ l[i]? = some y ∨ i = l.length ∧ x = y := by
  rcases lt_trichotomy i l.length with hlt | rfl | hgt
  · rw [List.getElem?_append_left hlt]
    simp [Nat.ne_of_lt hlt]
  · simp
  · rw [List.getElem?_eq_none (by simpa using Nat.succ_le_of_lt hgt), List.getElem?_eq_none hgt.le]
    simp [Nat.ne_of_gt hgt]

theorem settle_some (ht : (settle turns i phase)[j]? = some turn) :
    ∃ t, turns[j]? = some t ∧ t.origin = turn.origin ∧ t.sessionId = turn.sessionId := by
  rw [settle_getElem?, Option.map_eq_some_iff] at ht
  obtain ⟨t, hj, rfl⟩ := ht
  refine ⟨t, hj, ?_⟩
  by_cases hij : i = j <;> simp [hij]

theorem settle_begun :
    (settle turns i phase)[j]?.map Turn.begun = turns[j]?.map Turn.begun := by
  rw [settle_getElem?, Option.map_map]
  congr 1
  funext t
  by_cases hij : i = j <;> simp [hij]

theorem settle_sessionId :
    (settle turns i phase).map Turn.sessionId = turns.map Turn.sessionId := by
  refine List.ext_getElem? fun j => ?_
  rw [List.getElem?_map, List.getElem?_map, settle_getElem?, Option.map_map]
  congr 1
  funext t
  by_cases hij : i = j <;> simp [hij]

theorem created_settle : created sid (settle turns i phase) = created sid turns := by
  rw [created, settle_sessionId, created]

theorem created_append (hborn : some sid ∈ turns.map Turn.sessionId) :
    created sid (turns ++ [turn]) = created sid turns := by
  rw [created, List.map_append, List.idxOf_append_of_mem hborn, created]

theorem created_new (hnew : some sid ∉ turns.map Turn.sessionId)
    (hturn : turn.sessionId = some sid) : created sid (turns ++ [turn]) = turns.length := by
  rw [created, List.map_append, List.idxOf_append_of_notMem hnew]
  simp [hturn]

end Lists

section Law

variable {τ : Type*} {a : Agent τ} {turns : List (Turn τ)} {t turn : Turn τ} {i : ℕ}
  {phase : Phase τ} {o sid : String} {lastUsed now : τ}

/-- The session was last used when it was created, or when an answered turn of its origin
ended that carried its id or had been sent before it was created. -/
def KeptAlive (turns : List (Turn τ)) (o sid : String) (lastUsed : τ) : Prop :=
  turns[created sid turns]?.map Turn.begun = some lastUsed ∨
    ∃ i t, turns[i]? = some t ∧ t.origin = o ∧ t.phase = .answered lastUsed ∧
      (t.sessionId = some sid ∨ i < created sid turns)

structure Law (turns : List (Turn τ)) (o sid : String) (lastUsed : τ) : Prop where
  born : some sid ∈ turns.map Turn.sessionId
  own : ∀ i t, turns[i]? = some t → t.origin = o → created sid turns ≤ i →
    t.sessionId = some sid
  kept : KeptAlive turns o sid lastUsed

theorem law_new (hnew : some sid ∉ turns.map Turn.sessionId) (hturn : turn.sessionId = some sid) :
    Law (turns ++ [turn]) o sid turn.begun where
  born := by simp [hturn]
  own := by
    intro i t hi _ hle
    rw [created_new hnew hturn] at hle
    rcases concat_some_iff.mp hi with hi | ⟨-, rfl⟩
    · exact absurd (List.getElem?_eq_some_iff.mp hi).1 (not_lt.mpr hle)
    · exact hturn
  kept := by
    left
    rw [created_new hnew hturn, List.getElem?_concat_length, Option.map_some]

theorem Law.append (hlaw : Law turns o sid lastUsed)
    (hturn : turn.origin = o → turn.sessionId = some sid) :
    Law (turns ++ [turn]) o sid lastUsed where
  born := by simp [hlaw.born]
  own := by
    intro i t hi ho hle
    rw [created_append hlaw.born] at hle
    rcases concat_some_iff.mp hi with hi | ⟨-, rfl⟩
    · exact hlaw.own i t hi ho hle
    · exact hturn ho
  kept := by
    rw [KeptAlive]
    rw [created_append hlaw.born]
    rcases hlaw.kept with hbegun | ⟨i, t, hi, hrest⟩
    · obtain ⟨t, ht, hlast⟩ := Option.map_eq_some_iff.mp hbegun
      left
      rw [concat_some_iff.mpr (.inl ht), Option.map_some, hlast]
    · exact .inr ⟨i, t, concat_some_iff.mpr (.inl hi), hrest⟩

theorem Law.settle (hlaw : Law turns o sid lastUsed) (hi : turns[i]? = some turn)
    (hpending : turn.phase = .inFlight) : Law (settle turns i phase) o sid lastUsed where
  born := by rw [settle_sessionId]; exact hlaw.born
  own := by
    intro j t hj ho hle
    rw [created_settle] at hle
    obtain ⟨t₀, hj₀, horigin, hsid⟩ := settle_some hj
    rw [← hsid]
    exact hlaw.own j t₀ hj₀ (horigin.trans ho) hle
  kept := by
    rw [KeptAlive]
    rw [created_settle]
    rcases hlaw.kept with hbegun | ⟨j, t, hj, ho, hphase, hcarried⟩
    · left
      rw [settle_begun, hbegun]
    · have hne : i ≠ j := by
        intro hij
        rw [← hij, hi, Option.some.injEq] at hj
        rw [← hj, hpending] at hphase
        cases hphase
      exact .inr ⟨j, t, by rw [settle_getElem?, hj, Option.map_some, if_neg hne], ho, hphase,
        hcarried⟩

theorem Law.answered (hlaw : Law turns o sid lastUsed) (hi : turns[i]? = some turn)
    (hpending : turn.phase = .inFlight) (ho : turn.origin = o) :
    Law (Turns.settle turns i (.answered now)) o sid now where
  born := (hlaw.settle hi hpending).born
  own := (hlaw.settle hi hpending).own
  kept := by
    refine .inr ⟨i, { turn with phase := .answered now }, ?_, ho, rfl, ?_⟩
    · rw [settle_getElem?, hi, Option.map_some, if_pos rfl]
    · rw [created_settle]
      -- A turn sent since the session began carries its id; any other was sent before.
      rcases lt_or_ge i (created sid turns) with hlt | hle
      · exact .inr hlt
      · exact .inl (hlaw.own i turn hi ho hle)

end Law

section Reachable

variable {τ : Type*} [AddCommGroup τ] [LinearOrder τ] {uuid : ℕ → String} {a : Agent τ}
  {turns : List (Turn τ)} {tracker : SessionTracker τ} {turn : Turn τ} {T : τ}

structure Accounts (uuid : ℕ → String) (a : Agent τ) : Prop where
  carried : ∀ sid, some sid ∈ a.turns.map Turn.sessionId →
    ∃ k < a.tracker.minted, sid = newId uuid k
  law : ∀ o s, a.tracker.sessions o = some s → Law a.turns o s.sessionId s.lastUsed
  off : enabled a.tracker = false → ∀ o, a.tracker.sessions o = none

theorem Accounts.of_kept (ha : Accounts uuid a)
    (hidle : tracker.idleTimeout = a.tracker.idleTimeout)
    (hminted : tracker.minted = a.tracker.minted)
    (hsessions : ∀ o s, tracker.sessions o = some s → ∃ s₀, a.tracker.sessions o = some s₀ ∧
      s₀.sessionId = s.sessionId ∧ s₀.lastUsed = s.lastUsed) :
    Accounts uuid ⟨tracker, a.turns⟩ where
  carried := by
    rw [hminted]
    exact ha.carried
  law := by
    intro o s hs
    obtain ⟨s₀, hs₀, hid, hlast⟩ := hsessions o s hs
    rw [← hid, ← hlast]
    exact ha.law o s₀ hs₀
  off := by
    intro hoff o
    cases hs : tracker.sessions o with
    | none => rfl
    | some s =>
      obtain ⟨s₀, hs₀, -⟩ := hsessions o s hs
      rw [enabled, hidle] at hoff
      rw [ha.off hoff o] at hs₀
      cases hs₀

theorem Accounts.settle (ha : Accounts uuid a) {i : ℕ} (hi : pending a i = some turn)
    (phase : Phase τ) : Accounts uuid { a with turns := settle a.turns i phase } where
  carried := by
    rw [settle_sessionId]
    exact ha.carried
  law := by
    intro o s hs
    obtain ⟨hturn, hpending⟩ := pending_some_iff.mp hi
    exact (ha.law o s hs).settle hturn hpending
  off := ha.off

theorem Accounts.new_not_carried (huuid : Function.Injective uuid) (ha : Accounts uuid a) :
    some (newId uuid a.tracker.minted) ∉ a.turns.map Turn.sessionId := by
  intro hmem
  obtain ⟨k, hk, hid⟩ := ha.carried _ hmem
  exact absurd (newId_injective huuid hid) (Nat.ne_of_gt hk)

theorem Accounts.start (huuid : Function.Injective uuid) (ha : Accounts uuid a)
    (hon : enabled a.tracker = true) (now : τ) (o : String) :
    Accounts uuid ⟨(sessionFor uuid a.tracker now o).2,
      a.turns ++ [⟨o, some (sessionFor uuid a.tracker now o).1, now, .inFlight⟩]⟩ := by
  cases hfound : (prune a.tracker now).sessions o with
  | some s =>
    rw [sessionFor_of_live hfound]
    have hlaw := ha.law o s (prune_some_iff.mp hfound).1
    refine ⟨?_, ?_, fun hoff => absurd (hon.symm.trans hoff) (by simp)⟩
    · intro sid hsid
      rw [List.map_append, List.mem_append] at hsid
      rcases hsid with hsid | hsid
      · exact ha.carried sid hsid
      · obtain rfl : sid = s.sessionId := by simpa using hsid
        exact ha.carried _ hlaw.born
    · intro o' s' hs'
      refine (ha.law o' s' (prune_some_iff.mp hs').1).append fun ho => ?_
      obtain rfl : o = o' := ho
      rw [hfound, Option.some.injEq] at hs'
      rw [hs']
  | none =>
    rw [sessionFor_of_none hfound]
    refine ⟨?_, ?_, fun hoff => absurd (hon.symm.trans hoff) (by simp)⟩
    · intro sid hsid
      rw [List.map_append, List.mem_append] at hsid
      rcases hsid with hsid | hsid
      · obtain ⟨k, hk, hid⟩ := ha.carried sid hsid
        exact ⟨k, Nat.lt_succ_of_lt hk, hid⟩
      · exact ⟨a.tracker.minted, Nat.lt_succ_self _, by simpa using hsid⟩
    · intro o' s' hs'
      by_cases ho : o' = o
      · subst ho
        simp only [Function.update_self, Option.some.injEq] at hs'
        rw [← hs']
        exact law_new (ha.new_not_carried huuid) rfl
      · simp only [Function.update_of_ne ho] at hs'
        exact (ha.law o' s' (prune_some_iff.mp hs').1).append fun h => absurd h.symm ho

theorem Accounts.message (huuid : Function.Injective uuid) (ha : Accounts uuid a) (input : Input)
    (now : τ) : Accounts uuid (message uuid a input now) := by
  rw [Turns.message]
  cases hon : enabled a.tracker with
  | false =>
    have hnone := ha.off hon
    refine ⟨?_, fun o s hs => ?_, ha.off⟩
    · simpa using ha.carried
    · exact absurd hs (by simp [hnone])
  | true =>
    cases isReset input.text with
    | false => exact ha.start huuid hon now (originOf input)
    | true =>
      refine ha.of_kept rfl rfl fun o s hs => ?_
      rw [reset_sessions] at hs
      split_ifs at hs
      exact ⟨s, hs, rfl, rfl⟩

theorem Accounts.snapshot (ha : Accounts uuid a) (i : ℕ) (take : Except String String)
    (maxAge now : τ) : Accounts uuid (snapshot a i take maxAge now) := by
  rw [Turns.snapshot]
  cases hi : pending a i with
  | none => exact ha
  | some turn =>
    obtain ⟨hidle, hminted, -⟩ := snapshotFor_keeps a.tracker now turn.origin take maxAge
    have hkept :
        Accounts uuid ⟨(snapshotFor a.tracker now turn.origin take maxAge).2, a.turns⟩ := by
      exact ha.of_kept hidle hminted fun o s hs => snapshotFor_some hs
    dsimp only
    revert hkept
    cases snapshotFor a.tracker now turn.origin take maxAge with
    | mk result tracker =>
      intro hkept
      cases result with
      | ok text => exact hkept
      | error err => exact hkept.settle hi .failed

theorem Accounts.answer (ha : Accounts uuid a) (i : ℕ) (now : τ) :
    Accounts uuid (answer a i now) := by
  rw [Turns.answer]
  cases hi : pending a i with
  | none => exact ha
  | some turn =>
    have hsettled := ha.settle hi (.answered now)
    obtain ⟨hturn, hpending⟩ := pending_some_iff.mp hi
    dsimp only
    split_ifs
    · refine ⟨?_, fun o s hs => ?_, fun hoff o => ?_⟩
      · rw [touch_minted]
        exact hsettled.carried
      · by_cases ho : o = turn.origin
        · subst ho
          rw [touch_sessions_self, Option.map_eq_some_iff] at hs
          obtain ⟨s₀, hs₀, rfl⟩ := hs
          exact (ha.law _ s₀ hs₀).answered hturn hpending rfl
        · rw [touch_sessions_of_ne _ _ ho] at hs
          exact hsettled.law o s hs
      · rw [enabled, touch_idleTimeout] at hoff
        by_cases ho : o = turn.origin
        · subst ho
          rw [touch_sessions_self, ha.off hoff, Option.map_none]
        · rw [touch_sessions_of_ne _ _ ho, ha.off hoff]
    · exact hsettled

theorem Accounts.failure (ha : Accounts uuid a) (i : ℕ) : Accounts uuid (failure a i) := by
  rw [Turns.failure]
  cases hi : pending a i with
  | none => exact ha
  | some turn => exact ha.settle hi .failed

theorem accounts_step (huuid : Function.Injective uuid) (ha : Accounts uuid a) (e : Event τ) :
    Accounts uuid (step uuid a e) := by
  cases e with
  | message input now => exact ha.message huuid input now
  | snapshot i take maxAge now => exact ha.snapshot i take maxAge now
  | answer i now => exact ha.answer i now
  | failure i => exact ha.failure i

theorem accounts_after (huuid : Function.Injective uuid) (T : τ) (es : List (Event τ)) :
    Accounts uuid (after uuid T es) := by
  have hinit : Accounts uuid (⟨fresh T, []⟩ : Agent τ) :=
    ⟨by simp, by simp [fresh], fun _ _ => rfl⟩
  exact Runs.run_invariant (P := Accounts uuid) (fun a e ha => accounts_step huuid ha e) hinit es

theorem live_kept_alive (huuid : Function.Injective uuid) (T : τ) (es : List (Event τ)) :
    ∀ o s, (after uuid T es).tracker.sessions o = some s →
      KeptAlive (after uuid T es).turns o s.sessionId s.lastUsed :=
  fun o s hs => ((accounts_after huuid T es).law o s hs).kept

def kitchen (text : String) : Input := ⟨some "kitchen", none, "", text⟩

/-- A session is kept alive by the answer to a message from before the reset that it follows. -/
theorem live_kept_alive_kitchen :
    KeptAlive (after tally (300 : ℤ) [.message (kitchen "lights on") 0,
      .message (kitchen "reset") 10, .message (kitchen "heating off") 20, .answer 0 30]).turns
      "kitchen" "ha-i" 30 :=
  live_kept_alive tally_injective 300 [.message (kitchen "lights on") 0,
    .message (kitchen "reset") 10, .message (kitchen "heating off") 20, .answer 0 30] "kitchen"
    ⟨"ha-i", 30, none, 0⟩ (by decide)

theorem not_only_own_turns :
    ¬ ∀ (uuid : ℕ → String) (T : ℤ) (es : List (Event ℤ)) (o : String) (s : Session ℤ),
      Function.Injective uuid → 0 < T → (after uuid T es).tracker.sessions o = some s →
      (after uuid T es).turns[created s.sessionId (after uuid T es).turns]?.map Turn.begun =
        some s.lastUsed ∨
      ∃ t ∈ (after uuid T es).turns, t.phase = .answered s.lastUsed ∧
        t.sessionId = some s.sessionId := by
  intro h
  have hlive := h tally 300 [.message (kitchen "lights on") 0, .message (kitchen "reset") 10,
    .message (kitchen "heating off") 20, .answer 0 30] "kitchen" ⟨"ha-i", 30, none, 0⟩
    tally_injective (by decide) (by decide)
  revert hlive
  decide

end Reachable

end HermesConversation.Turns
