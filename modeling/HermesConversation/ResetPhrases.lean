import HermesConversation.Library.Phrases
import HermesConversation.Conversations

/-!
# Phrases that start a new session

Which messages are taken for the request for a new session, and that these and no others are
kept from Hermes.
-/

namespace HermesConversation.ResetPhrases

open Library Text Phrases AnsweredTurns Conversations
open Sessions hiding step after
open Turns (isReset resetPhrases resetTrim)

/-- The words are those of a phrase, whatever their case, what is between and around them. -/
def SaysReset (text : String) : Prop :=
  ∃ phrase ∈ resetPhrases, (words (unwrap resetTrim text)).map casefold = words phrase

theorem isReset_iff (text : String) : isReset text = true ↔ SaysReset text := by
  have hphrases : ∀ phrase ∈ resetPhrases,
      join " " (words phrase) = phrase ∧ words phrase ≠ [] := by decide
  have hspace : ' ' ∈ resetTrim := by decide
  rw [isReset, decide_eq_true_iff]
  constructor
  · intro hmem
    obtain ⟨hjoin, hne⟩ := hphrases _ hmem
    exact ⟨_, hmem, (casefold_strip_eq_iff hspace hjoin hne).mp rfl⟩
  · intro hsays
    obtain ⟨phrase, hmem, hwords⟩ := hsays
    obtain ⟨hjoin, hne⟩ := hphrases phrase hmem
    rw [(casefold_strip_eq_iff hspace hjoin hne).mpr hwords]
    exact hmem

section Runs

variable {τ : Type*} [AddCommGroup τ] [LinearOrder τ] {uuid : ℕ → String} {options : Options τ}
  {a : Agent τ} {T : τ}

structure Sorted (T : τ) (x : Exchange τ) : Prop where
  newSession : x.result = some (.ok .newSession) ↔
    enabled (fresh T) = true ∧ isReset x.turn.input.text = true
  kept : x.result = some (.ok .newSession) → x.messages = none ∧ x.sessionId = none

theorem finished_ne_newSession (log : List Content) : finished log ≠ .ok .newSession := by
  have hresult : asyncGetResultFromChatLog log ≠ .ok .newSession := by
    rw [asyncGetResultFromChatLog]
    split
    · simp
    · simp
  rw [finished]
  split
  · split_ifs
    · simp
    · exact hresult
  · exact hresult

omit [AddCommGroup τ] [LinearOrder τ] in
theorem answerWith_ne_newSession (turn : Turn τ) (tracker : SessionTracker τ)
    (sessionId : Option String) (stream : Stream.Iteration) :
    (answerWith turn tracker sessionId stream).1 ≠ .ok .newSession := by
  simp only [answerWith]
  cases asyncAddDeltaContentStream (turn.earlier ++ [⟨.user, some turn.input.text⟩]) stream with
  | error err => simp
  | ok log => exact finished_ne_newSession log

theorem enabled_step (uuid : ℕ → String) (options : Options τ) (a : Agent τ) (e : Event τ) :
    enabled (step uuid options a e).tracker = enabled a.tracker := by
  have hidle : (step uuid options a e).tracker.idleTimeout = a.tracker.idleTimeout := by
    rw [step_calls]
    exact Runs.run_frame (f := SessionTracker.idleTimeout) (step_idleTimeout uuid) _ _
  rw [enabled, enabled, hidle]

theorem Sorted.goesOn {x y : Exchange τ} (h : Sorted T x) (hx : x.result = none)
    (hturn : y.turn = x.turn) (hy : y.result ≠ some (.ok .newSession)) : Sorted T y where
  newSession := by
    have hnot : x.result ≠ some (.ok .newSession) := by simp [hx]
    rw [hturn, ← h.newSession]
    exact iff_of_false hy hnot
  kept hnew := absurd hnew hy

theorem sorted_step (henabled : enabled a.tracker = enabled (fresh T))
    (h : ∀ x ∈ a.exchanges, Sorted T x) (e : Event τ) :
    ∀ x ∈ (step uuid options a e).exchanges, Sorted T x := by
  intro x hx
  cases stands_step hx with
  | before hold => exact h x hold
  | onTheSpot turn hreset =>
    rw [henabled] at hreset
    exact ⟨iff_of_true rfl hreset, fun _ => ⟨rfl, rfl⟩⟩
  | begun turn sessionId hreset =>
    rw [henabled] at hreset
    exact ⟨iff_of_false (by simp) hreset, fun hnew => by cases hnew⟩
  | failed err hold _ hopen => exact (h _ hold).goesOn hopen rfl (by simp)
  | sent messages hold _ hopen => exact (h _ hold).goesOn hopen rfl (by simp [hopen])
  | answered hold _ hopen =>
    refine (h _ hold).goesOn hopen rfl fun hnew => ?_
    exact answerWith_ne_newSession _ _ _ _ (Option.some.inj hnew)

theorem sorted_after (uuid : ℕ → String) (options : Options τ) (T : τ) (es : List (Event τ)) :
    ∀ x ∈ (after uuid options T es).exchanges, Sorted T x := by
  induction es using List.reverseRecOn with
  | nil =>
    intro x hx
    exact absurd hx List.not_mem_nil
  | append_singleton es e ih =>
    have henabled : enabled (after uuid options T es).tracker = enabled (fresh T) :=
      Runs.run_frame (f := fun a : Agent τ => enabled a.tracker) (enabled_step uuid options) _ es
    rw [after, Runs.run_concat]
    exact sorted_step henabled ih e

/-- In every run the messages answered on the spot are those that say one of the phrases to an
entity that keeps sessions; Hermes never sees one of these, nor do they have a session. -/
theorem new_session_iff (uuid : ℕ → String) (options : Options τ) (T : τ) (es : List (Event τ))
    (i : ℕ) (x : Exchange τ) (hx : (after uuid options T es).exchanges[i]? = some x) :
    (x.result = some (.ok .newSession) ↔ 0 < T ∧ SaysReset x.turn.input.text) ∧
      (0 < T → SaysReset x.turn.input.text → x.messages = none ∧ x.sessionId = none) := by
  have hsorted := sorted_after uuid options T es x (List.mem_of_getElem? hx)
  have hlaw : x.result = some (.ok .newSession) ↔ 0 < T ∧ SaysReset x.turn.input.text := by
    rw [hsorted.newSession, isReset_iff, enabled, decide_eq_true_iff]
    rfl
  exact ⟨hlaw, fun hpositive hsays => hsorted.kept (hlaw.mpr ⟨hpositive, hsays⟩)⟩

end Runs

def startOver : Turn ℤ := kitchenTurn " ... Start\tOVER!? " "Lamp: off" 0

theorem new_session_iff_kitchen :
    ∃ x, (after tally houseOptions 60 [.received startOver]).exchanges[0]? = some x ∧
      (x.result = some (.ok .newSession) ↔ (0 : ℤ) < 60 ∧ SaysReset x.turn.input.text) ∧
      x.messages = none ∧ x.sessionId = none := by
  have hreset : isReset startOver.input.text = true := by decide
  have hx : (after tally houseOptions 60 [.received startOver]).exchanges[0]? =
      some ⟨startOver, none, none, some (.ok .newSession)⟩ := by
    simp [after, Runs.run_cons, Runs.run_nil, step, received, hreset, enabled, fresh]
  have hlaw := new_session_iff tally houseOptions 60 [.received startOver] 0 _ hx
  exact ⟨_, hx, hlaw.1, hlaw.2 (by decide) ((isReset_iff _).mp hreset)⟩

end HermesConversation.ResetPhrases
