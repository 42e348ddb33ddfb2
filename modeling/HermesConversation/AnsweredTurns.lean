import HermesConversation.Snapshots
import HermesConversation.Stream
import HermesConversation.Turns

/-!
# One turn from end to end

The handler of a message, by everything the environment may answer: the template, the
snapshot and the stream. The chat log keeps a reply with any content at all, and the origin
is touched before the reply is looked at.
-/

namespace HermesConversation.AnsweredTurns

open Library Sessions Turns

inductive Role where
  | system
  | user
  | assistant
  | toolResult
  deriving DecidableEq

structure Content where
  role : Role
  content : Option String

structure Message where
  role : String
  content : String
  deriving DecidableEq

inductive Error where
  | template (text : String)
  | snapshot (text : String)
  | invalidAuth
  | cannotConnect
  | emptyResponse
  | noAssistantContent
  | uncaught (err : Stream.Raised)
  deriving DecidableEq

inductive Result where
  | newSession
  | answer (text : String)
  deriving DecidableEq

structure Options (τ : Type*) where
  prompt : Option String
  houseState : Bool
  snapshotMaxAge : τ

/-- A turn with what the environment says in it; `respond` is the stream that the request
gets, and the three times are those of the tracker's clock. -/
structure Turn (τ : Type*) where
  input : Input
  earlier : List Content
  extraSystemPrompt : Option String
  clockLine : String
  started : τ
  snapshotAt : τ
  completed : τ
  render : String → Except String String
  take : Except String String
  respond : List Message → Option String → Stream.Iteration

def appendSystem (messages : List Message) (text separator : String) : List Message :=
  match messages with
  | [] => [⟨"system", text⟩]
  | message :: rest => { message with content := message.content ++ separator ++ text } :: rest

/-- What Hermes is told of an earlier entry when it keeps no session. -/
def replayed (entry : Content) : Option Message :=
  match entry.role, entry.content.filter (· ≠ "") with
  | .user, some content => some ⟨"user", content⟩
  | .assistant, some content => some ⟨"assistant", content⟩
  | _, _ => none

def asyncAddDeltaContentStream (log : List Content) (stream : Stream.Iteration) :
    Except Stream.Raised (List Content) :=
  match stream.raised with
  | some err => .error err
  | none =>
    let content := String.join stream.chunks
    .ok (if content = "" then log else log ++ [⟨.assistant, some content⟩])

def asyncGetResultFromChatLog (log : List Content) : Except Error Result :=
  match log.getLast? with
  | some ⟨.assistant, content⟩ => .ok (.answer (content.getD ""))
  | _ => .error .noAssistantContent

def translated : Stream.Raised → Error
  | .client (.hermesAuthError _) => .invalidAuth
  | .client (.hermesConnectionError _) => .cannotConnect
  | err => .uncaught err

/-- The check of the last entry, and the helper the handler ends with. -/
def finished (log : List Content) : Except Error Result :=
  match log.getLast? with
  | some ⟨.assistant, content⟩ =>
    if Text.trim (content.getD "") = "" then .error .emptyResponse
    else asyncGetResultFromChatLog log
  | _ => asyncGetResultFromChatLog log

section Handler

variable {τ : Type*} [AddCommGroup τ] [LinearOrder τ]

def asyncSystemMessages (options : Options τ) (turn : Turn τ) (tracker : SessionTracker τ)
    (origin : String) : Except Error (List Message) × SessionTracker τ :=
  let rendered : Except String (List Message) :=
    match options.prompt.filter (· ≠ "") with
    | none => .ok []
    | some prompt => (turn.render prompt).map fun content => [⟨"system", content⟩]
  match rendered with
  | .error err => (.error (.template err), tracker)
  | .ok messages =>
    let messages :=
      match turn.extraSystemPrompt.filter (· ≠ "") with
      | none => messages
      | some extra => appendSystem messages extra "\n"
    if options.houseState then
      match snapshotFor tracker turn.snapshotAt origin turn.take options.snapshotMaxAge with
      | (.error err, tracker) => (.error (.snapshot err), tracker)
      | (.ok house, tracker) => (.ok (appendSystem messages house "\n\n"), tracker)
    else (.ok messages, tracker)

def openSession (uuid : ℕ → String) (turn : Turn τ) (tracker : SessionTracker τ) :
    Option String × SessionTracker τ :=
  if enabled tracker then
    let (sessionId, tracker) := sessionFor uuid tracker turn.started (originOf turn.input)
    (some sessionId, tracker)
  else (none, tracker)

def request (uuid : ℕ → String) (options : Options τ) (turn : Turn τ)
    (tracker : SessionTracker τ) : Except Error (List Message × Option String) × SessionTracker τ :=
  let (sessionId, tracker) := openSession uuid turn tracker
  match asyncSystemMessages options turn tracker (originOf turn.input) with
  | (.error err, tracker) => (.error err, tracker)
  | (.ok messages, tracker) =>
    let messages :=
      if sessionId.isNone then messages ++ turn.earlier.filterMap replayed else messages
    (.ok (messages ++ [⟨"user", turn.clockLine ++ "\n" ++ turn.input.text⟩], sessionId), tracker)

def answerWith (turn : Turn τ) (tracker : SessionTracker τ) (sessionId : Option String)
    (stream : Stream.Iteration) : Except Error Result × SessionTracker τ :=
  let log := turn.earlier ++ [⟨.user, some turn.input.text⟩]
  match asyncAddDeltaContentStream log stream with
  | .error err => (.error (translated err), tracker)
  | .ok log =>
    let tracker :=
      if sessionId.any (· ≠ "") then touch tracker turn.completed (originOf turn.input)
      else tracker
    (finished log, tracker)

def asyncHandleMessage (uuid : ℕ → String) (options : Options τ) (turn : Turn τ)
    (tracker : SessionTracker τ) : Except Error Result × SessionTracker τ :=
  if enabled tracker && isReset turn.input.text then
    (.ok .newSession, reset tracker (originOf turn.input))
  else
    match request uuid options turn tracker with
    | (.error err, tracker) => (.error err, tracker)
    | (.ok (messages, sessionId), tracker) =>
      answerWith turn tracker sessionId (turn.respond messages sessionId)

end Handler

/-! ## What a turn does to the tracker -/

/-- The stream ends well and has said nothing, or nothing but white space. -/
def Silent (stream : Stream.Iteration) : Prop :=
  stream.raised = none ∧ Text.trim (String.join stream.chunks) = ""

section Stream

variable {log : List Content} {stream : Stream.Iteration} {text : String}

theorem finished_silent {entry : Content} (hentry : entry.role = .user)
    (hsilent : Text.trim (String.join stream.chunks) = "") :
    ∃ err, finished (if String.join stream.chunks = "" then log ++ [entry]
      else (log ++ [entry]) ++ [⟨.assistant, some (String.join stream.chunks)⟩]) = .error err := by
  obtain ⟨role, content⟩ := entry
  obtain rfl : role = .user := hentry
  split_ifs
  · exact ⟨.noAssistantContent, by simp [finished, asyncGetResultFromChatLog]⟩
  · exact ⟨.emptyResponse, by simp [finished, hsilent]⟩

theorem finished_spoken (hspoken : Text.trim text ≠ "") :
    finished (log ++ [⟨.assistant, some text⟩]) = .ok (.answer text) := by
  simp [finished, asyncGetResultFromChatLog, hspoken]

end Stream

section Law

variable {τ : Type*} [AddCommGroup τ] [LinearOrder τ] {uuid : ℕ → String} {T now : τ}
  {tracker : SessionTracker τ} {options : Options τ} {turn : Turn τ} {o sid : String}
  {sessionId : Option String} {stream : Stream.Iteration} {messages : List Message}

def lastUsed (tracker : SessionTracker τ) (o : String) : Option τ :=
  (tracker.sessions o).map Session.lastUsed

/-- When the session of a turn that starts now was last used: as the live one has it, or now
if there is none. -/
def usedBefore (tracker : SessionTracker τ) (now : τ) (o : String) : τ :=
  ((prune tracker now).sessions o).elim now Session.lastUsed

/-- Only an answer moves the time at which the origin's session was last used. -/
structure Counts (uuid : ℕ → String) (options : Options τ) (turn : Turn τ)
    (tracker : SessionTracker τ) : Prop where
  answered : ∀ text, (asyncHandleMessage uuid options turn tracker).1 = .ok (.answer text) →
    lastUsed (asyncHandleMessage uuid options turn tracker).2 (originOf turn.input) =
      some turn.completed
  failed : ∀ err, (asyncHandleMessage uuid options turn tracker).1 = .error err →
    (asyncHandleMessage uuid options turn tracker).2 = (request uuid options turn tracker).2
  dropped : (asyncHandleMessage uuid options turn tracker).1 = .ok .newSession →
    lastUsed (asyncHandleMessage uuid options turn tracker).2 (originOf turn.input) = none

omit [AddCommGroup τ] [LinearOrder τ] in
theorem lastUsed_touch {s : Session τ} (hs : tracker.sessions o = some s) :
    lastUsed (touch tracker now o) o = some now := by
  rw [lastUsed, touch_sessions_self, hs]
  rfl

omit [AddCommGroup τ] [LinearOrder τ] in
theorem touch_eq_self_iff {s : Session τ} (hs : tracker.sessions o = some s) :
    touch tracker now o = tracker ↔ s.lastUsed = now := by
  constructor
  · intro hsame
    have hlast : lastUsed (touch tracker now o) o = some now := lastUsed_touch hs
    rwa [hsame, lastUsed, hs, Option.map_some, Option.some.injEq] at hlast
  · intro hlast
    subst hlast
    simp only [touch, hs]
    rw [← hs, Function.update_eq_self]

theorem asyncSystemMessages_tracker : (asyncSystemMessages options turn tracker o).2 = tracker ∨
    (asyncSystemMessages options turn tracker o).2 =
      (snapshotFor tracker turn.snapshotAt o turn.take options.snapshotMaxAge).2 := by
  simp only [asyncSystemMessages]
  split
  · exact .inl rfl
  · split_ifs
    · right
      split <;> simp_all
    · exact .inl rfl

theorem asyncSystemMessages_session {s : Session τ} (hs : tracker.sessions o = some s) :
    ∃ s', (asyncSystemMessages options turn tracker o).2.sessions o = some s' ∧
      s'.lastUsed = s.lastUsed := by
  rcases @asyncSystemMessages_tracker τ _ _ tracker options turn o with hsame | hsnapshot
  · exact ⟨s, by rw [hsame, hs], rfl⟩
  · obtain ⟨s', hs', -, hlast⟩ := @snapshotFor_of_some τ _ _ tracker turn.snapshotAt
      options.snapshotMaxAge o o turn.take s hs
    rw [hsnapshot]
    exact ⟨s', hs', hlast⟩

theorem sessionFor_session (uuid : ℕ → String) (tracker : SessionTracker τ) (now : τ) (o : String) :
    ∃ s, (sessionFor uuid tracker now o).2.sessions o = some s ∧
      (sessionFor uuid tracker now o).1 = s.sessionId ∧ s.lastUsed = usedBefore tracker now o ∧
        (tracker.sessions o = some s ∨ s.sessionId = newId uuid tracker.minted) := by
  cases hfound : (prune tracker now).sessions o with
  | some s =>
    rw [sessionFor_of_live hfound]
    exact ⟨s, hfound, rfl, by rw [usedBefore, hfound, Option.elim_some],
      .inl (prune_some_iff.mp hfound).1⟩
  | none =>
    rw [sessionFor_of_none hfound]
    exact ⟨_, Function.update_self .., rfl, by rw [usedBefore, hfound, Option.elim_none],
      .inr rfl⟩

omit [AddCommGroup τ] [LinearOrder τ] in
theorem newId_ne_empty (uuid : ℕ → String) (n : ℕ) : newId uuid n ≠ "" := by
  intro hempty
  have hlist := congrArg String.toList hempty
  simp [newId, sessionIdPrefix] at hlist

/-- With continuity on, a request carries the id of a session that its origin has. -/
theorem request_ok (henabled : enabled tracker = true)
    (hids : ∀ o s, tracker.sessions o = some s → s.sessionId ≠ "")
    (hrequest : (request uuid options turn tracker).1 = .ok (messages, sessionId)) :
    sessionId.any (· ≠ "") = true ∧
      ∃ s, (request uuid options turn tracker).2.sessions (originOf turn.input) = some s ∧
        s.lastUsed = usedBefore tracker turn.started (originOf turn.input) := by
  obtain ⟨s, hs, hid, hlast, hborn⟩ :=
    sessionFor_session uuid tracker turn.started (originOf turn.input)
  have hne : s.sessionId ≠ "" := by
    rcases hborn with hheld | hnew
    · exact hids _ s hheld
    · exact hnew ▸ newId_ne_empty uuid _
  obtain ⟨s', hs', hlast'⟩ := @asyncSystemMessages_session τ _ _ _ options turn _ s hs
  simp only [request, openSession, if_pos henabled] at hrequest ⊢
  rcases hmessages : asyncSystemMessages options turn
    (sessionFor uuid tracker turn.started (originOf turn.input)).2 (originOf turn.input) with
    ⟨err | asked, tracker'⟩
  · simp only [hmessages] at hrequest
    cases hrequest
  · simp only [hmessages, Except.ok.injEq, Prod.mk.injEq] at hrequest hs' ⊢
    refine ⟨?_, s', hs', hlast'.trans hlast⟩
    rw [← hrequest.2, hid, Option.any_some, decide_eq_true hne]

omit [AddCommGroup τ] [LinearOrder τ] in
theorem answerWith_cases (hsid : sessionId.any (· ≠ "") = true) :
    (∃ err, stream.raised ≠ none ∧
      answerWith turn tracker sessionId stream = (.error err, tracker)) ∨
    (∃ err, Silent stream ∧ answerWith turn tracker sessionId stream =
      (.error err, touch tracker turn.completed (originOf turn.input))) ∨
    ∃ text, ¬Silent stream ∧ answerWith turn tracker sessionId stream =
      (.ok (.answer text), touch tracker turn.completed (originOf turn.input)) := by
  cases hraised : stream.raised with
  | some err =>
    left
    refine ⟨translated err, Option.some_ne_none err, ?_⟩
    simp only [answerWith, asyncAddDeltaContentStream, hraised]
  | none =>
    right
    simp only [answerWith, asyncAddDeltaContentStream, hraised, if_pos hsid]
    by_cases hsilent : Text.trim (String.join stream.chunks) = ""
    · left
      obtain ⟨err, hfinished⟩ := @finished_silent turn.earlier stream
        ⟨.user, some turn.input.text⟩ rfl hsilent
      exact ⟨err, ⟨hraised, hsilent⟩, by rw [hfinished]⟩
    · right
      have hne : String.join stream.chunks ≠ "" := by
        intro hempty
        exact hsilent (by rw [hempty]; decide)
      refine ⟨String.join stream.chunks, fun h => hsilent h.2, ?_⟩
      rw [if_neg hne, finished_spoken hsilent]

section Ends

variable {tracker' : SessionTracker τ}

theorem counts_error_iff {err : Error}
    (h : asyncHandleMessage uuid options turn tracker = (.error err, tracker')) :
    Counts uuid options turn tracker ↔ tracker' = (request uuid options turn tracker).2 := by
  constructor
  · intro hcounts
    have hfailed := hcounts.failed err (by rw [h])
    rwa [h] at hfailed
  · intro hsame
    refine ⟨fun text hanswer => ?_, fun _ _ => by rw [h, hsame], fun hnew => ?_⟩
    · rw [h] at hanswer
      cases hanswer
    · rw [h] at hnew
      cases hnew

theorem counts_answer_iff {text : String}
    (h : asyncHandleMessage uuid options turn tracker = (.ok (.answer text), tracker')) :
    Counts uuid options turn tracker ↔
      lastUsed tracker' (originOf turn.input) = some turn.completed := by
  constructor
  · intro hcounts
    have hanswered := hcounts.answered text (by rw [h])
    rwa [h] at hanswered
  · intro hlast
    refine ⟨fun _ _ => by rw [h, hlast], fun err hfailed => ?_, fun hnew => ?_⟩
    · rw [h] at hfailed
      cases hfailed
    · rw [h] at hnew
      cases hnew

theorem counts_new_iff
    (h : asyncHandleMessage uuid options turn tracker = (.ok .newSession, tracker')) :
    Counts uuid options turn tracker ↔ lastUsed tracker' (originOf turn.input) = none := by
  constructor
  · intro hcounts
    have hdropped := hcounts.dropped (by rw [h])
    rwa [h] at hdropped
  · intro hlast
    refine ⟨fun text hanswer => ?_, fun err hfailed => ?_, fun _ => by rw [h, hlast]⟩
    · rw [h] at hanswer
      cases hanswer
    · rw [h] at hfailed
      cases hfailed

end Ends

theorem counts_reset (hreset : (enabled tracker && isReset turn.input.text) = true) :
    Counts uuid options turn tracker := by
  have hhandle : asyncHandleMessage uuid options turn tracker =
      (.ok .newSession, reset tracker (originOf turn.input)) := by
    rw [asyncHandleMessage, if_pos hreset]
  rw [counts_new_iff hhandle, lastUsed, reset_sessions, if_pos rfl, Option.map_none]

theorem counts_unsent {err : Error} {tracker' : SessionTracker τ}
    (hreset : ¬(enabled tracker && isReset turn.input.text) = true)
    (hrequest : request uuid options turn tracker = (.error err, tracker')) :
    Counts uuid options turn tracker := by
  have hhandle : asyncHandleMessage uuid options turn tracker = (.error err, tracker') := by
    rw [asyncHandleMessage, if_neg hreset, hrequest]
  rw [counts_error_iff hhandle, hrequest]

theorem counts_sent_iff {tracker' : SessionTracker τ} {s : Session τ}
    (hreset : ¬(enabled tracker && isReset turn.input.text) = true)
    (hrequest : request uuid options turn tracker = (.ok (messages, sessionId), tracker'))
    (hsid : sessionId.any (· ≠ "") = true)
    (hs : tracker'.sessions (originOf turn.input) = some s) :
    Counts uuid options turn tracker ↔
      (Silent (turn.respond messages sessionId) → s.lastUsed = turn.completed) := by
  have hhandle : asyncHandleMessage uuid options turn tracker =
      answerWith turn tracker' sessionId (turn.respond messages sessionId) := by
    rw [asyncHandleMessage, if_neg hreset, hrequest]
  rcases @answerWith_cases τ tracker' turn sessionId (turn.respond messages sessionId) hsid with
    ⟨err, hraised, hend⟩ | ⟨err, hsilent, hend⟩ | ⟨text, hspoken, hend⟩
  · rw [hend] at hhandle
    rw [counts_error_iff hhandle, hrequest]
    exact iff_of_true rfl fun h => absurd h.1 hraised
  · rw [hend] at hhandle
    rw [counts_error_iff hhandle, hrequest, touch_eq_self_iff hs, forall_prop_of_true hsilent]
  · rw [hend] at hhandle
    rw [counts_answer_iff hhandle]
    exact iff_of_true (lastUsed_touch hs) fun h => absurd h hspoken

theorem counts_iff (uuid : ℕ → String) (T : τ) (cs : List (Call τ)) (options : Options τ)
    (turn : Turn τ) (henabled : enabled (after uuid T cs) = true) :
    Counts uuid options turn (after uuid T cs) ↔
      (isReset turn.input.text = false → ∀ messages sessionId,
        (request uuid options turn (after uuid T cs)).1 = .ok (messages, sessionId) →
          Silent (turn.respond messages sessionId) →
            usedBefore (after uuid T cs) turn.started (originOf turn.input) = turn.completed) := by
  have hids : ∀ o s, (after uuid T cs).sessions o = some s → s.sessionId ≠ "" := by
    intro o s hs
    obtain ⟨n, -, hid⟩ := (Snapshots.sourced_run uuid T cs).minted o s hs
    exact hid ▸ newId_ne_empty uuid n
  cases hreset : isReset turn.input.text with
  | true =>
    have hboth : (enabled (after uuid T cs) && isReset turn.input.text) = true := by
      rw [henabled, hreset, Bool.and_self]
    exact iff_of_true (counts_reset hboth) fun h => by cases h
  | false =>
    have hnot : ¬(enabled (after uuid T cs) && isReset turn.input.text) = true := by
      rw [hreset, Bool.and_false]
      exact Bool.false_ne_true
    rw [forall_prop_of_true rfl]
    rcases hrequest : request uuid options turn (after uuid T cs) with
      ⟨err | ⟨messages, sessionId⟩, tracker'⟩
    · exact iff_of_true (counts_unsent hnot hrequest) fun _ _ h => by cases h
    · obtain ⟨hsid, s, hs, hlast⟩ := request_ok henabled hids (by rw [hrequest])
      rw [hrequest] at hs
      rw [counts_sent_iff hnot hrequest hsid hs, hlast]
      constructor
      · intro h messages' sessionId' hok
        obtain ⟨rfl, rfl⟩ := Prod.mk.inj (Except.ok.inj hok)
        exact h
      · exact fun h => h messages sessionId rfl

end Law

section Kitchen

def plainOptions : Options ℤ := ⟨none, false, 600⟩

def blankTurn : Turn ℤ where
  input := ⟨some "kitchen", none, "c", "lights on"⟩
  earlier := []
  extraSystemPrompt := none
  clockLine := "12:00"
  started := 0
  snapshotAt := 0
  completed := 5
  render := .ok
  take := .ok ""
  respond := fun _ _ => ⟨[" "], none⟩

theorem counts_iff_blank :
    Counts tally plainOptions blankTurn (after tally 60 []) ↔
      (isReset blankTurn.input.text = false → ∀ messages sessionId,
        (request tally plainOptions blankTurn (after tally 60 [])).1 = .ok (messages, sessionId) →
          Silent (blankTurn.respond messages sessionId) →
            usedBefore (after tally 60 []) blankTurn.started (originOf blankTurn.input) =
              blankTurn.completed) :=
  counts_iff tally 60 [] plainOptions blankTurn (by decide)

theorem not_counts_blank :
    ¬ ∀ (uuid : ℕ → String) (T : ℤ) (cs : List (Call ℤ)) (options : Options ℤ) (turn : Turn ℤ),
      enabled (after uuid T cs) = true → Counts uuid options turn (after uuid T cs) := by
  intro h
  have hfailed := (h tally 60 [] plainOptions blankTurn (by decide)).failed .emptyResponse
    (by decide)
  have hlast := congrArg (fun tracker => lastUsed tracker "kitchen") hfailed
  revert hlast
  decide

end Kitchen

end HermesConversation.AnsweredTurns
