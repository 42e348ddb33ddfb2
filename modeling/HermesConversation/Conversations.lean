import HermesConversation.AnsweredTurns

/-!
# Conversations

The handler of an entity for any number of messages at once: it suspends where the name of the
speaker is looked up and while the stream is read, and another message may come or go on there.
What the tracker sees of such a run is a run of calls, so that its laws hold of the requests.
-/

namespace HermesConversation.Conversations

open Library Sessions Snapshots AnsweredTurns
open Turns (isReset originOf)

structure Exchange (τ : Type*) where
  turn : Turn τ
  sessionId : Option String
  messages : Option (List Message)
  result : Option (Except Error Result)

def Exchange.origin {τ : Type*} (x : Exchange τ) : String := originOf x.turn.input

structure Agent (τ : Type*) where
  tracker : SessionTracker τ
  exchanges : List (Exchange τ)

/-- A message is received, its request is put together and sent, its stream has been read. -/
inductive Event (τ : Type*) where
  | received (turn : Turn τ)
  | prepared (i : ℕ)
  | streamed (i : ℕ)

section Handler

variable {τ : Type*} [AddCommGroup τ] [LinearOrder τ]

def instructions (options : Options τ) (turn : Turn τ) : Except String (List Message) :=
  let rendered : Except String (List Message) :=
    match options.prompt.filter (· ≠ "") with
    | none => .ok []
    | some prompt => (turn.render prompt).map fun content => [⟨"system", content⟩]
  rendered.map fun messages =>
    match turn.extraSystemPrompt.filter (· ≠ "") with
    | none => messages
    | some extra => appendSystem messages extra "\n"

def outgoing (x : Exchange τ) (messages : List Message) : List Message :=
  (if x.sessionId.isNone then messages ++ x.turn.earlier.filterMap replayed else messages) ++
    [⟨"user", x.turn.clockLine ++ "\n" ++ x.turn.input.text⟩]

def opened (a : Agent τ) (i : ℕ) : Option (Exchange τ) :=
  a.exchanges[i]?.filter fun x => x.messages.isNone && x.result.isNone

def sent (a : Agent τ) (i : ℕ) : Option (Exchange τ × List Message) :=
  (a.exchanges[i]?.filter fun x => x.result.isNone).bind fun x =>
    x.messages.map fun messages => (x, messages)

def received (uuid : ℕ → String) (a : Agent τ) (turn : Turn τ) : Agent τ :=
  if enabled a.tracker && isReset turn.input.text then
    ⟨reset a.tracker (originOf turn.input),
      a.exchanges ++ [⟨turn, none, none, some (.ok .newSession)⟩]⟩
  else
    let (sessionId, tracker) := openSession uuid turn a.tracker
    ⟨tracker, a.exchanges ++ [⟨turn, sessionId, none, none⟩]⟩

def prepared (options : Options τ) (a : Agent τ) (i : ℕ) : Agent τ :=
  match opened a i with
  | none => a
  | some x =>
    match asyncSystemMessages options x.turn a.tracker x.origin with
    | (.error err, tracker) => ⟨tracker, a.exchanges.set i { x with result := some (.error err) }⟩
    | (.ok messages, tracker) =>
      ⟨tracker, a.exchanges.set i { x with messages := some (outgoing x messages) }⟩

def streamed (a : Agent τ) (i : ℕ) : Agent τ :=
  match sent a i with
  | none => a
  | some (x, messages) =>
    let (result, tracker) :=
      answerWith x.turn a.tracker x.sessionId (x.turn.respond messages x.sessionId)
    ⟨tracker, a.exchanges.set i { x with result := some result }⟩

def step (uuid : ℕ → String) (options : Options τ) (a : Agent τ) : Event τ → Agent τ
  | .received turn => received uuid a turn
  | .prepared i => prepared options a i
  | .streamed i => streamed a i

def after (uuid : ℕ → String) (options : Options τ) (idleTimeout : τ) (es : List (Event τ)) :
    Agent τ :=
  Runs.run (step uuid options) ⟨fresh idleTimeout, []⟩ es

/-! ## What the tracker sees -/

def calls (options : Options τ) (a : Agent τ) : Event τ → List (Call τ)
  | .received turn =>
    if enabled a.tracker && isReset turn.input.text then
      [⟨turn.started, .reset (originOf turn.input)⟩]
    else if enabled a.tracker then [⟨turn.started, .sessionFor (originOf turn.input)⟩]
    else []
  | .prepared i =>
    match opened a i with
    | none => []
    | some x =>
      match instructions options x.turn with
      | .error _ => []
      | .ok _ =>
        if options.houseState then
          [⟨x.turn.snapshotAt, .snapshotFor x.origin x.turn.take options.snapshotMaxAge⟩]
        else []
  | .streamed i =>
    match sent a i with
    | none => []
    | some (x, messages) =>
      match (x.turn.respond messages x.sessionId).raised with
      | some _ => []
      | none => if x.sessionId.any (· ≠ "") then [⟨x.turn.completed, .touch x.origin⟩] else []

def callsOf (uuid : ℕ → String) (options : Options τ) (a : Agent τ) (es : List (Event τ)) :
    List (Call τ) :=
  (Runs.trace (step uuid options) (calls options) a es).flatMap Prod.snd

end Handler

section Exchanges

variable {τ : Type*} {a : Agent τ} {x : Exchange τ} {i : ℕ}

theorem opened_some_iff : opened a i = some x ↔
    a.exchanges[i]? = some x ∧ x.messages = none ∧ x.result = none := by
  simp [opened, Option.filter_eq_some_iff]

theorem sent_some_iff {messages : List Message} : sent a i = some (x, messages) ↔
    a.exchanges[i]? = some x ∧ x.messages = some messages ∧ x.result = none := by
  simp only [sent, Option.bind_eq_some_iff, Option.filter_eq_some_iff, Option.isNone_iff_eq_none,
    Option.map_eq_some_iff, Prod.mk.injEq]
  constructor
  · intro h
    obtain ⟨y, ⟨hy, hresult⟩, sent, hmessages, rfl, rfl⟩ := h
    exact ⟨hy, hmessages, hresult⟩
  · intro h
    obtain ⟨hx, hmessages, hresult⟩ := h
    exact ⟨x, ⟨hx, hresult⟩, messages, hmessages, rfl, rfl⟩

theorem answerWith_tracker (turn : Turn τ) (tracker : SessionTracker τ)
    (sessionId : Option String) (stream : Stream.Iteration) :
    (answerWith turn tracker sessionId stream).2 = match stream.raised with
      | some _ => tracker
      | none =>
        if sessionId.any (· ≠ "") then touch tracker turn.completed (originOf turn.input)
        else tracker := by
  simp only [answerWith, asyncAddDeltaContentStream]
  cases stream.raised with
  | some err => rfl
  | none => rfl

section Last

variable {tracker tracker' : SessionTracker τ} {exchanges : List (Exchange τ)}
  {messages : List Message} {result : Except Error Result}

theorem opened_last (hmessages : x.messages = none) (hresult : x.result = none) :
    opened ⟨tracker, exchanges ++ [x]⟩ exchanges.length = some x :=
  opened_some_iff.mpr ⟨List.getElem?_concat_length, hmessages, hresult⟩

theorem set_last (y : Exchange τ) :
    (exchanges ++ [x]).set exchanges.length y = exchanges ++ [y] := by
  rw [List.set_append_right _ _ le_rfl, Nat.sub_self, List.set_cons_zero]

theorem streamed_sent (hmessages : x.messages = some messages) (hresult : x.result = none)
    (hanswer : answerWith x.turn tracker x.sessionId (x.turn.respond messages x.sessionId) =
      (result, tracker')) :
    streamed ⟨tracker, exchanges ++ [x]⟩ exchanges.length =
      ⟨tracker', exchanges ++ [{ x with result := some result }]⟩ := by
  have hsent : sent ⟨tracker, exchanges ++ [x]⟩ exchanges.length = some (x, messages) :=
    sent_some_iff.mpr ⟨List.getElem?_concat_length, hmessages, hresult⟩
  simp only [streamed, hsent, hanswer, set_last]

theorem streamed_over (hresult : x.result ≠ none) :
    streamed ⟨tracker, exchanges ++ [x]⟩ exchanges.length = ⟨tracker, exchanges ++ [x]⟩ := by
  have hnone : sent ⟨tracker, exchanges ++ [x]⟩ exchanges.length = none := by
    rw [Option.eq_none_iff_forall_ne_some]
    intro pair hpair
    obtain ⟨hx, -, hnone⟩ := sent_some_iff.mp hpair
    rw [List.getElem?_concat_length, Option.some.injEq] at hx
    exact hresult (hx ▸ hnone)
  rw [streamed, hnone]

end Last

end Exchanges

section Stages

variable {τ : Type*} [AddCommGroup τ] [LinearOrder τ] {uuid : ℕ → String} {options : Options τ}
  {a : Agent τ} {e : Event τ} {x : Exchange τ}

/-- Where an exchange stands after a step: as before, just received, or one stage further. -/
inductive Stands (a : Agent τ) : Exchange τ → Prop where
  | before {x : Exchange τ} (hx : x ∈ a.exchanges) : Stands a x
  | onTheSpot (turn : Turn τ)
      (hreset : enabled a.tracker = true ∧ isReset turn.input.text = true) :
      Stands a ⟨turn, none, none, some (.ok .newSession)⟩
  | begun (turn : Turn τ) (sessionId : Option String)
      (hreset : ¬(enabled a.tracker = true ∧ isReset turn.input.text = true)) :
      Stands a ⟨turn, sessionId, none, none⟩
  | failed {x : Exchange τ} (err : Error) (hx : x ∈ a.exchanges) (hmessages : x.messages = none)
      (hresult : x.result = none) : Stands a { x with result := some (.error err) }
  | sent {x : Exchange τ} (messages : List Message) (hx : x ∈ a.exchanges)
      (hmessages : x.messages = none) (hresult : x.result = none) :
      Stands a { x with messages := some messages }
  | answered {x : Exchange τ} {messages : List Message} (hx : x ∈ a.exchanges)
      (hmessages : x.messages = some messages) (hresult : x.result = none) :
      Stands a { x with
        result :=
          some (answerWith x.turn a.tracker x.sessionId (x.turn.respond messages x.sessionId)).1 }

theorem stands_step (hx : x ∈ (step uuid options a e).exchanges) : Stands a x := by
  cases e with
  | received turn =>
    simp only [step, received] at hx
    split_ifs at hx with hreset
    · rcases List.mem_append.mp hx with hold | hnew
      · exact .before hold
      · rw [List.mem_singleton.mp hnew]
        exact .onTheSpot turn (Bool.and_eq_true_iff.mp hreset)
    · rcases List.mem_append.mp hx with hold | hnew
      · exact .before hold
      · rw [List.mem_singleton.mp hnew]
        exact .begun turn _ fun h => hreset (Bool.and_eq_true_iff.mpr h)
  | prepared i =>
    simp only [step, prepared] at hx
    cases hopened : opened a i with
    | none =>
      rw [hopened] at hx
      exact .before hx
    | some y =>
      obtain ⟨hy, hmessages, hresult⟩ := opened_some_iff.mp hopened
      have hmem := List.mem_of_getElem? hy
      simp only [hopened] at hx
      rcases hsystem : asyncSystemMessages options y.turn a.tracker y.origin with
        ⟨err | messages, tracker⟩
      · simp only [hsystem] at hx
        rcases List.mem_or_eq_of_mem_set hx with hold | rfl
        · exact .before hold
        · exact .failed err hmem hmessages hresult
      · simp only [hsystem] at hx
        rcases List.mem_or_eq_of_mem_set hx with hold | rfl
        · exact .before hold
        · exact .sent _ hmem hmessages hresult
  | streamed i =>
    simp only [step, streamed] at hx
    cases hsent : sent a i with
    | none =>
      rw [hsent] at hx
      exact .before hx
    | some pair =>
      obtain ⟨y, messages⟩ := pair
      obtain ⟨hy, hmessages, hresult⟩ := sent_some_iff.mp hsent
      simp only [hsent] at hx
      rcases List.mem_or_eq_of_mem_set hx with hold | rfl
      · exact .before hold
      · exact .answered (List.mem_of_getElem? hy) hmessages hresult

end Stages

section Calls

variable {τ : Type*} [AddCommGroup τ] [LinearOrder τ] {uuid : ℕ → String} {options : Options τ}
  {a : Agent τ} {e : Event τ} {es : List (Event τ)} {x : Exchange τ} {i : ℕ} {T : τ}

theorem asyncSystemMessages_eq (options : Options τ) (turn : Turn τ) (tracker : SessionTracker τ)
    (origin : String) :
    asyncSystemMessages options turn tracker origin =
      match instructions options turn with
      | .error err => (.error (.template err), tracker)
      | .ok messages =>
        if options.houseState then
          match snapshotFor tracker turn.snapshotAt origin turn.take options.snapshotMaxAge with
          | (.error err, tracker) => (.error (.snapshot err), tracker)
          | (.ok house, tracker) => (.ok (appendSystem messages house "\n\n"), tracker)
        else (.ok messages, tracker) := by
  simp only [asyncSystemMessages, instructions]
  cases options.prompt.filter (· ≠ "") with
  | none => rfl
  | some prompt =>
    dsimp only
    cases turn.render prompt with
    | error err => rfl
    | ok content => rfl

/-- What a step does to the tracker it does by its calls. -/
theorem step_calls (uuid : ℕ → String) (options : Options τ) (a : Agent τ) (e : Event τ) :
    (step uuid options a e).tracker =
      Runs.run (Sessions.step uuid) a.tracker (calls options a e) := by
  cases e with
  | received turn =>
    simp only [step, received, calls, openSession]
    split_ifs <;> rfl
  | prepared i =>
    simp only [step, prepared, calls]
    cases opened a i with
    | none => rfl
    | some x =>
      simp only [asyncSystemMessages_eq]
      cases instructions options x.turn with
      | error err => rfl
      | ok messages =>
        cases options.houseState with
        | false => rfl
        | true =>
          simp only [if_true, Runs.run_cons, Runs.run_nil, Sessions.step]
          rcases snapshotFor a.tracker x.turn.snapshotAt x.origin x.turn.take options.snapshotMaxAge
            with ⟨err | house, tracker⟩
          · rfl
          · rfl
  | streamed i =>
    simp only [step, streamed, calls]
    cases sent a i with
    | none => rfl
    | some pair =>
      obtain ⟨x, messages⟩ := pair
      simp only [answerWith_tracker]
      cases (x.turn.respond messages x.sessionId).raised with
      | some err => rfl
      | none =>
        dsimp only
        split_ifs <;> rfl

theorem callsOf_append (es fs : List (Event τ)) : callsOf uuid options a (es ++ fs) =
    callsOf uuid options a es ++ callsOf uuid options (Runs.run (step uuid options) a es) fs := by
  rw [callsOf, Runs.trace_append, List.flatMap_append, callsOf, callsOf]

theorem callsOf_singleton : callsOf uuid options a [e] = calls options a e := by
  rw [callsOf, Runs.trace, Runs.trace, List.flatMap_singleton]

theorem tracker_run (es : List (Event τ)) : (Runs.run (step uuid options) a es).tracker =
    Runs.run (Sessions.step uuid) a.tracker (callsOf uuid options a es) := by
  induction es using List.reverseRecOn with
  | nil => rfl
  | append_singleton es e ih =>
    rw [Runs.run_concat, step_calls, ih, callsOf_append, callsOf_singleton, Runs.run_append]

theorem tracker_after (es : List (Event τ)) : (after uuid options T es).tracker =
    Sessions.after uuid T (callsOf uuid options ⟨fresh T, []⟩ es) :=
  tracker_run es

section Last

variable {tracker tracker' : SessionTracker τ} {exchanges : List (Exchange τ)}
  {messages : List Message} {err : Error}

theorem prepared_failed (hmessages : x.messages = none) (hresult : x.result = none)
    (hsystem : asyncSystemMessages options x.turn tracker x.origin = (.error err, tracker')) :
    prepared options ⟨tracker, exchanges ++ [x]⟩ exchanges.length =
      ⟨tracker', exchanges ++ [{ x with result := some (.error err) }]⟩ := by
  simp only [prepared, opened_last hmessages hresult, hsystem, set_last]

theorem prepared_sent (hmessages : x.messages = none) (hresult : x.result = none)
    (hsystem : asyncSystemMessages options x.turn tracker x.origin = (.ok messages, tracker')) :
    prepared options ⟨tracker, exchanges ++ [x]⟩ exchanges.length =
      ⟨tracker', exchanges ++ [{ x with messages := some (outgoing x messages) }]⟩ := by
  simp only [prepared, opened_last hmessages hresult, hsystem, set_last]

theorem prepared_over (hresult : x.result ≠ none) :
    prepared options ⟨tracker, exchanges ++ [x]⟩ exchanges.length =
      ⟨tracker, exchanges ++ [x]⟩ := by
  have hnone : opened ⟨tracker, exchanges ++ [x]⟩ exchanges.length = none := by
    simp [opened, Option.filter_eq_none_iff, hresult]
  rw [prepared, hnone]

end Last

/-- A message that nothing comes between is handled as by the handler in one piece. -/
theorem run_alone (uuid : ℕ → String) (options : Options τ) (a : Agent τ) (turn : Turn τ) :
    ∃ x : Exchange τ, x.turn = turn ∧
      x.result = some (asyncHandleMessage uuid options turn a.tracker).1 ∧
      Runs.run (step uuid options) a
        [.received turn, .prepared a.exchanges.length, .streamed a.exchanges.length] =
        ⟨(asyncHandleMessage uuid options turn a.tracker).2, a.exchanges ++ [x]⟩ := by
  simp only [Runs.run_cons, Runs.run_nil, step, received, asyncHandleMessage]
  split_ifs with hreset
  · have hover : (some (.ok .newSession) : Option (Except Error Result)) ≠ none :=
      Option.some_ne_none _
    exact ⟨⟨turn, none, none, some (.ok .newSession)⟩, rfl, rfl, by
      rw [prepared_over hover, streamed_over hover]⟩
  · rcases hopen : openSession uuid turn a.tracker with ⟨sessionId, tracker⟩
    rcases hsystem : asyncSystemMessages options turn tracker (originOf turn.input) with
      ⟨err | messages, tracker'⟩
    · refine ⟨⟨turn, sessionId, none, some (.error err)⟩, rfl, ?_, ?_⟩
      · simp only [request, hopen, hsystem]
      · simp only [request, hopen, hsystem]
        rw [prepared_failed rfl rfl hsystem, streamed_over (Option.some_ne_none _)]
    · obtain ⟨asked, hasked⟩ : ∃ asked, outgoing ⟨turn, sessionId, none, none⟩ messages = asked :=
        ⟨_, rfl⟩
      rcases hanswer : answerWith turn tracker' sessionId (turn.respond asked sessionId) with
        ⟨result, last⟩
      have hrequest : request uuid options turn a.tracker = (.ok (asked, sessionId), tracker') := by
        simp only [request, hopen, hsystem, ← hasked, outgoing]
      refine ⟨⟨turn, sessionId, some asked, some result⟩, rfl, ?_, ?_⟩
      · simp only [hrequest, hanswer]
      · simp only [hrequest, hanswer]
        rw [prepared_sent rfl rfl hsystem, hasked, streamed_sent rfl rfl hanswer]

end Calls

/-! ## Whose a session is -/

section Sessions

variable {τ : Type*} [AddCommGroup τ] [LinearOrder τ] {uuid : ℕ → String} {t : SessionTracker τ}
  {c : Call τ} {cs : List (Call τ)} {o sid : String}

structure Apart (uuid : ℕ → String) (t : SessionTracker τ) : Prop where
  minted : ∀ o s, t.sessions o = some s → Minted uuid s.sessionId t
  apart : ∀ o o' sid, current t o = some sid → current t o' = some sid → o = o'

theorem step_idleTimeout (uuid : ℕ → String) (t : SessionTracker τ) (c : Call τ) :
    (Sessions.step uuid t c).idleTimeout = t.idleTimeout := by
  obtain ⟨now, op⟩ := c
  cases op with
  | sessionFor x =>
    show (sessionFor uuid t now x).2.idleTimeout = t.idleTimeout
    cases hfound : (prune t now).sessions x with
    | some s =>
      rw [sessionFor_of_live hfound]
      rfl
    | none =>
      rw [sessionFor_of_none hfound]
      rfl
  | touch x => exact touch_idleTimeout t now x
  | reset x => rfl
  | snapshotFor x take maxAge => exact (snapshotFor_keeps t now x take maxAge).1

theorem current_of_step (ho : o ≠ c.op.origin) (h : current (Sessions.step uuid t c) o = some sid) :
    current t o = some sid := by
  obtain ⟨s', hs', rfl⟩ := current_some h
  obtain ⟨now, op⟩ := c
  cases op with
  | sessionFor x =>
    have hpruned : (prune t now).sessions o = some s' :=
      (sessionFor_other uuid t now ho).2.2.symm.trans hs'
    rw [current, (prune_some_iff.mp hpruned).1, Option.map_some]
  | touch x =>
    have hsame := (touch_sessions_of_ne t now ho).symm.trans hs'
    rw [current, hsame, Option.map_some]
  | reset x =>
    have hne : o ≠ x := ho
    have hreset : (reset t x).sessions o = some s' := hs'
    rw [reset_sessions, if_neg hne] at hreset
    rw [current, hreset, Option.map_some]
  | snapshotFor x take maxAge =>
    obtain ⟨s, hs, hid, -⟩ := snapshotFor_some hs'
    rw [current, hs, Option.map_some, hid]

theorem apart_step (huuid : Function.Injective uuid) (h : Apart uuid t) (c : Call τ) :
    Apart uuid (Sessions.step uuid t c) := by
  have hminted : ∀ o sid, current t o = some sid → Minted uuid sid t := by
    intro o sid hsid
    obtain ⟨s, hs, rfl⟩ := current_some hsid
    exact h.minted o s hs
  -- The call's own origin has the id it had, or one that nobody has had.
  have hother : ∀ o o' sid, o ≠ c.op.origin → current (Sessions.step uuid t c) o = some sid →
      current (Sessions.step uuid t c) o' = some sid → o = o' := by
    intro o o' sid ho hsid hsid'
    have hbefore := current_of_step ho hsid
    obtain ⟨s', hs', rfl⟩ := current_some hsid'
    cases step_session hs' with
    | same s hheld hid _ _ _ =>
      exact h.apart o o' _ hbefore (by rw [current, hheld, Option.map_some, hid])
    | took s text hheld hid _ _ _ =>
      exact h.apart o o' _ hbefore (by rw [current, hheld, Option.map_some, hid])
    | born hid _ _ => exact absurd hid.symm (ne_newId huuid (hminted o _ hbefore))
  constructor
  · intro o s' hs'
    cases step_session hs' with
    | same s hheld hid _ _ _ => exact hid ▸ minted_step (h.minted o s hheld) c
    | took s text hheld hid _ _ _ => exact hid ▸ minted_step (h.minted o s hheld) c
    | born hid hminted _ => exact ⟨t.minted, hminted ▸ Nat.lt_succ_self _, hid⟩
  · intro o o' sid hsid hsid'
    by_cases ho : o = c.op.origin
    · by_cases ho' : o' = c.op.origin
      · exact ho.trans ho'.symm
      · exact (hother o' o sid ho' hsid' hsid).symm
    · exact hother o o' sid ho hsid hsid'

omit [AddCommGroup τ] [LinearOrder τ] in
theorem apart_fresh (T : τ) : Apart uuid (fresh T) where
  minted _ _ hs := by cases hs
  apart _ _ _ hsid := by cases hsid

theorem apart_run (huuid : Function.Injective uuid) (h : Apart uuid t) (cs : List (Call τ)) :
    Apart uuid (Runs.run (Sessions.step uuid) t cs) :=
  Runs.run_invariant (P := Apart uuid) (fun _ c ht => apart_step huuid ht c) h cs

omit [AddCommGroup τ] [LinearOrder τ] in
theorem Apart.lost (h : Apart uuid t) (hsid : current t o = some sid) {o' : String} (ho : o' ≠ o) :
    Lost uuid sid o' t := by
  obtain ⟨s, hs, rfl⟩ := current_some hsid
  exact ⟨h.minted o s hs, fun hsid' => ho (h.apart _ _ _ hsid' hsid)⟩

theorem lost_run (huuid : Function.Injective uuid) (h : Lost uuid sid o t) (cs : List (Call τ)) :
    Lost uuid sid o (Runs.run (Sessions.step uuid) t cs) :=
  Runs.run_invariant (P := Lost uuid sid o) (fun _ c ht => lost_step huuid ht c) h cs

end Sessions

/-! ## A session is one conversation -/

section Conversation

variable {τ : Type*} [AddCommGroup τ] [LinearOrder τ] {uuid : ℕ → String} {options : Options τ}
  {a : Agent τ} {e : Event τ} {t t' : SessionTracker τ} {keys : List (String × Option String)}
  {o sid : String} {k : Option String}

def keysOf (a : Agent τ) : List (String × Option String) :=
  a.exchanges.map fun x => (x.origin, x.sessionId)

/-- `left` says of a session that its origin has gone on without that it is gone for good. -/
structure Belongs (uuid : ℕ → String) (keys : List (String × Option String))
    (t : SessionTracker τ) : Prop where
  apart : Apart uuid t
  on : ∀ o sid, (o, some sid) ∈ keys → enabled t = true
  minted : ∀ o sid, (o, some sid) ∈ keys → Minted uuid sid t
  own : ∀ o sid, (o, some sid) ∈ keys → ∀ o', o' ≠ o → Lost uuid sid o' t
  left : ∀ (i j : ℕ) o sid k, i < j → keys[i]? = some (o, some sid) → keys[j]? = some (o, k) →
    k ≠ some sid → Lost uuid sid o t
  shared : ∀ o o' sid, (o, some sid) ∈ keys → (o', some sid) ∈ keys → o = o'
  contiguous : ∀ (i j l : ℕ) o sid k, i < j → j < l → keys[i]? = some (o, some sid) →
    keys[j]? = some (o, k) → keys[l]? = some (o, some sid) → k = some sid

theorem Belongs.run (huuid : Function.Injective uuid) (h : Belongs uuid keys t)
    (cs : List (Call τ)) : Belongs uuid keys (Runs.run (Sessions.step uuid) t cs) where
  apart := apart_run huuid h.apart cs
  on o sid hkey := by
    have hidle : (Runs.run (Sessions.step uuid) t cs).idleTimeout = t.idleTimeout :=
      Runs.run_frame (f := SessionTracker.idleTimeout) (step_idleTimeout uuid) t cs
    have henabled := h.on o sid hkey
    rw [enabled] at henabled ⊢
    rwa [hidle]
  minted o sid hkey :=
    Runs.run_invariant (P := Minted uuid sid) (fun _ c hm => minted_step hm c)
      (h.minted o sid hkey) cs
  own o sid hkey o' ho := lost_run huuid (h.own o sid hkey o' ho) cs
  left i j o sid k hij hi hj hk := lost_run huuid (h.left i j o sid k hij hi hj hk) cs
  shared := h.shared
  contiguous := h.contiguous

/-- A message is given what its origin has afterwards, where there are sessions. -/
def Given (t : SessionTracker τ) (o : String) (k : Option String) : Prop :=
  enabled t = true ∧ current t o = k ∨ enabled t = false ∧ k = none

theorem Given.some (h : Given t o (some sid)) : enabled t = true ∧ current t o = some sid := by
  rcases h with h | ⟨-, hnone⟩
  · exact h
  · cases hnone

section Given

variable {o' : String}

theorem Belongs.current_given (h : Belongs uuid keys t) (hk : Given t o k)
    (hkey : (o', some sid) ∈ keys) : current t o = k := by
  rcases hk with ⟨-, hsame⟩ | ⟨hoff, -⟩
  · exact hsame
  · rw [h.on o' sid hkey] at hoff
    cases hoff

theorem Belongs.origin_eq (h : Belongs uuid keys t) (hkey : (o', some sid) ∈ keys)
    (hcurrent : current t o = some sid) : o' = o := by
  by_contra ho
  exact (h.own o' sid hkey o (Ne.symm ho)).2 hcurrent

theorem mem_concat_given (hk : Given t o k) (hkey : (o', some sid) ∈ keys ++ [(o, k)]) :
    (o', some sid) ∈ keys ∨ o' = o ∧ enabled t = true ∧ current t o = some sid := by
  rcases List.mem_append.mp hkey with hold | hlast
  · exact .inl hold
  · obtain ⟨rfl, rfl⟩ := Prod.mk.inj (List.mem_singleton.mp hlast)
    exact .inr ⟨rfl, hk.some⟩

end Given

theorem Belongs.append (h : Belongs uuid keys t) (hk : Given t o k) :
    Belongs uuid (keys ++ [(o, k)]) t := by
  have hget : ∀ i key, (keys ++ [(o, k)])[i]? = some key →
      keys[i]? = some key ∨ i = keys.length ∧ key = (o, k) := by
    intro i key hi
    exact (Turns.concat_some_iff.mp hi).imp_right fun hlast => ⟨hlast.1, hlast.2.symm⟩
  have hlt : ∀ i key, keys[i]? = some key → i < keys.length := by
    intro i key hi
    exact (List.getElem?_eq_some_iff.mp hi).1
  constructor
  · exact h.apart
  · intro o' sid' hkey
    rcases mem_concat_given hk hkey with hold | ⟨-, hon, -⟩
    · exact h.on o' sid' hold
    · exact hon
  · intro o' sid' hkey
    rcases mem_concat_given hk hkey with hold | ⟨-, -, hsid'⟩
    · exact h.minted o' sid' hold
    · obtain ⟨s, hs, rfl⟩ := current_some hsid'
      exact h.apart.minted o s hs
  · intro o' sid' hkey other hother
    rcases mem_concat_given hk hkey with hold | ⟨rfl, -, hsid'⟩
    · exact h.own o' sid' hold other hother
    · exact h.apart.lost hsid' hother
  · intro i j o' sid' k' hij hi hj hk'
    rcases hget i _ hi with hfirst | ⟨rfl, -⟩
    · rcases hget j _ hj with hsecond | ⟨rfl, hlast⟩
      · exact h.left i j o' sid' k' hij hfirst hsecond hk'
      · obtain ⟨rfl, rfl⟩ := Prod.mk.inj hlast
        have hold := List.mem_of_getElem? hfirst
        exact ⟨h.minted o' sid' hold,
          fun hsid' => hk' ((h.current_given hk hold).symm.trans hsid')⟩
    · rcases hget j _ hj with hsecond | ⟨rfl, -⟩
      · exact absurd hij (Nat.not_lt.mpr (hlt j _ hsecond).le)
      · exact absurd hij (lt_irrefl _)
  · intro o₁ o₂ sid' hkey hkey'
    rcases mem_concat_given hk hkey with hold | ⟨rfl, -, hsid'⟩
    · rcases mem_concat_given hk hkey' with hold' | ⟨rfl, -, hsid'⟩
      · exact h.shared o₁ o₂ sid' hold hold'
      · exact h.origin_eq hold hsid'
    · rcases mem_concat_given hk hkey' with hold' | ⟨rfl, -⟩
      · exact (h.origin_eq hold' hsid').symm
      · rfl
  · intro i j l o' sid' k' hij hjl hi hj hl
    have hend : l ≤ keys.length := by
      rcases hget l _ hl with hthird | ⟨rfl, -⟩
      · exact (hlt l _ hthird).le
      · exact le_rfl
    have hsecond : keys[j]? = some (o', k') := by
      rcases hget j _ hj with hsecond | ⟨rfl, -⟩
      · exact hsecond
      · omega
    have hfirst : keys[i]? = some (o', some sid') := by
      rcases hget i _ hi with hfirst | ⟨rfl, -⟩
      · exact hfirst
      · omega
    rcases hget l _ hl with hthird | ⟨-, hlast⟩
    · exact h.contiguous i j l o' sid' k' hij hjl hfirst hsecond hthird
    · obtain ⟨rfl, rfl⟩ := Prod.mk.inj hlast
      by_contra hk'
      exact (h.left i j o' sid' k' hij hfirst hsecond hk').2 hk.some.2

theorem keysOf_step (uuid : ℕ → String) (options : Options τ) (a : Agent τ) (e : Event τ) :
    keysOf (step uuid options a e) = keysOf a ∨
      ∃ o k, keysOf (step uuid options a e) = keysOf a ++ [(o, k)] ∧
        Given (step uuid options a e).tracker o k := by
  have hset : ∀ (i : ℕ) (x y : Exchange τ), a.exchanges[i]? = some x → y.origin = x.origin →
      y.sessionId = x.sessionId → (a.exchanges.set i y).map (fun x => (x.origin, x.sessionId)) =
        a.exchanges.map fun x => (x.origin, x.sessionId) := by
    intro i x y hx horigin hid
    obtain ⟨hlt, rfl⟩ := List.getElem?_eq_some_iff.mp hx
    rw [List.map_set, horigin, hid]
    refine List.ext_getElem? fun j => ?_
    rw [List.getElem?_set, List.getElem?_map, List.length_map]
    split_ifs with hij
    · rw [← hij, hx, Option.map_some]
    · rfl
  cases e with
  | received turn =>
    right
    simp only [step, received, openSession]
    split_ifs with hreset henabled
    · rw [Bool.and_eq_true] at hreset
      refine ⟨originOf turn.input, none, by simp [keysOf, Exchange.origin], .inl ⟨hreset.1, ?_⟩⟩
      rw [current, reset_sessions, if_pos rfl, Option.map_none]
    · obtain ⟨s, hs, hid, -⟩ := sessionFor_session uuid a.tracker turn.started (originOf turn.input)
      refine ⟨originOf turn.input, some s.sessionId, by simp [keysOf, Exchange.origin, hid],
        .inl ⟨?_, ?_⟩⟩
      · have hidle := step_idleTimeout uuid a.tracker
          ⟨turn.started, .sessionFor (originOf turn.input)⟩
        rw [enabled] at henabled ⊢
        rwa [show (sessionFor uuid a.tracker turn.started (originOf turn.input)).2.idleTimeout = _
          from hidle]
      · rw [current, hs, Option.map_some]
    · exact ⟨originOf turn.input, none, by simp [keysOf, Exchange.origin],
        .inr ⟨by simpa using henabled, rfl⟩⟩
  | prepared i =>
    left
    simp only [step, prepared]
    cases hopened : opened a i with
    | none => rfl
    | some x =>
      have hx := (opened_some_iff.mp hopened).1
      rcases hsystem : asyncSystemMessages options x.turn a.tracker x.origin with
        ⟨err | messages, tracker⟩
      · simp only [hsystem]
        exact hset i x _ hx rfl rfl
      · simp only [hsystem]
        exact hset i x _ hx rfl rfl
  | streamed i =>
    left
    simp only [step, streamed]
    cases hsent : sent a i with
    | none => rfl
    | some pair =>
      obtain ⟨x, messages⟩ := pair
      exact hset i x _ (sent_some_iff.mp hsent).1 rfl rfl

theorem keysOf_prefix (a : Agent τ) (es : List (Event τ)) :
    keysOf a <+: keysOf (Runs.run (step uuid options) a es) := by
  refine Runs.run_invariant (P := fun b => keysOf a <+: keysOf b) (fun b e hb => ?_)
    List.prefix_rfl es
  rcases keysOf_step uuid options b e with hsame | ⟨o, k, hkeys, -⟩
  · rw [hsame]
    exact hb
  · rw [hkeys]
    exact hb.trans (List.prefix_append _ _)

theorem belongs_nil (T : τ) : Belongs uuid [] (fresh T) where
  apart := apart_fresh T
  on _ _ hkey := by cases hkey
  minted _ _ hkey := by cases hkey
  own _ _ hkey := by cases hkey
  left _ _ _ _ _ _ hi := by cases hi
  shared _ _ _ hkey := by cases hkey
  contiguous _ _ _ _ _ _ _ _ hi := by cases hi

theorem belongs_after (huuid : Function.Injective uuid) (options : Options τ) (T : τ)
    (es : List (Event τ)) :
    Belongs uuid (keysOf (after uuid options T es)) (after uuid options T es).tracker := by
  refine Runs.run_invariant (P := fun a => Belongs uuid (keysOf a) a.tracker) (fun a e ha => ?_)
    ?_ es
  · have hrun := ha.run huuid (calls options a e)
    rw [← step_calls] at hrun
    rcases keysOf_step uuid options a e with hsame | ⟨o, k, hkeys, hk⟩
    · rw [hsame]
      exact hrun
    · rw [hkeys]
      exact hrun.append hk
  · exact belongs_nil T

/-- Two messages that are given one session come from one origin, and between them that origin
has neither been given another nor asked for a new one. -/
theorem one_conversation (huuid : Function.Injective uuid) (options : Options τ) (T : τ)
    (es : List (Event τ)) (i j : ℕ) (x y : Exchange τ) (sid : String)
    (hx : (after uuid options T es).exchanges[i]? = some x)
    (hy : (after uuid options T es).exchanges[j]? = some y)
    (hxsid : x.sessionId = some sid) (hysid : y.sessionId = some sid) :
    y.origin = x.origin ∧ ∀ (k : ℕ) (z : Exchange τ), i < k → k < j →
      (after uuid options T es).exchanges[k]? = some z → z.origin = x.origin →
      z.sessionId = some sid := by
  have hbelongs := belongs_after huuid options T es
  have hkey : ∀ (n : ℕ) (z : Exchange τ), (after uuid options T es).exchanges[n]? = some z →
      (keysOf (after uuid options T es))[n]? = some (z.origin, z.sessionId) := by
    intro n z hz
    rw [keysOf, List.getElem?_map, hz, Option.map_some]
  have hxkey := hkey i x hx
  have hykey := hkey j y hy
  rw [hxsid] at hxkey
  rw [hysid] at hykey
  have horigin : y.origin = x.origin :=
    hbelongs.shared _ _ sid (List.mem_of_getElem? hykey) (List.mem_of_getElem? hxkey)
  refine ⟨horigin, fun k z hik hkj hz hzorigin => ?_⟩
  have hzkey := hkey k z hz
  rw [hzorigin] at hzkey
  rw [horigin] at hykey
  exact hbelongs.contiguous i k j x.origin sid z.sessionId hik hkj hxkey hzkey hykey

end Conversation

section Kitchen

def houseOptions : Options ℤ := ⟨some "Be brief.", true, 600⟩

def kitchenTurn (text house : String) (now : ℤ) : Turn ℤ where
  input := ⟨some "kitchen", none, "c", text⟩
  earlier := []
  extraSystemPrompt := none
  clockLine := "12:00"
  started := now
  snapshotAt := now
  completed := now + 5
  render := .ok
  take := .ok house
  respond := fun _ _ => ⟨["Done."], none⟩

def lightsOn : Turn ℤ := kitchenTurn "lights on" "Lamp: off" 0
def lightsOff : Turn ℤ := kitchenTurn "and off" "Lamp: on" 20

theorem one_conversation_kitchen :
    originOf lightsOff.input = originOf lightsOn.input ∧ ∀ (k : ℕ) (z : Exchange ℤ), 0 < k → k < 1 →
      (after tally houseOptions 60 [.received lightsOn, .received lightsOff]).exchanges[k]? =
        some z → z.origin = originOf lightsOn.input → z.sessionId = some "ha-" :=
  one_conversation tally_injective houseOptions 60 [.received lightsOn, .received lightsOff] 0 1
    ⟨lightsOn, some "ha-", none, none⟩ ⟨lightsOff, some "ha-", none, none⟩ "ha-" rfl rfl rfl rfl

end Kitchen

/-! ## What comes ahead of the newest message -/

section Frozen

variable {τ : Type*} [AddCommGroup τ] [LinearOrder τ] [IsOrderedAddMonoid τ] {uuid : ℕ → String}
  {options : Options τ} {a : Agent τ} {e : Event τ} {es : List (Event τ)} {x : Exchange τ} {i : ℕ}
  {sid : String} {messages : List Message} {T : τ}

/-- The request that goes out when a message is prepared. -/
def Sends (options : Options τ) (a : Agent τ) (i : ℕ) (x : Exchange τ) (messages : List Message) :
    Prop :=
  opened a i = some x ∧ (prepared options a i).exchanges[i]?.bind Exchange.messages = some messages

omit [IsOrderedAddMonoid τ] in
theorem fixedAge_calls (a : Agent τ) (e : Event τ) :
    FixedAge options.snapshotMaxAge (calls options a e) := by
  intro c hc age hage
  cases e with
  | received turn =>
    simp only [calls] at hc
    split_ifs at hc
    · rw [List.mem_singleton.mp hc] at hage
      cases hage
    · rw [List.mem_singleton.mp hc] at hage
      cases hage
    · cases hc
  | prepared i =>
    simp only [calls] at hc
    split at hc
    · cases hc
    · split at hc
      · cases hc
      · split_ifs at hc
        · rw [List.mem_singleton.mp hc] at hage
          exact (Option.some.inj hage).symm
        · cases hc
  | streamed i =>
    simp only [calls] at hc
    split at hc
    · cases hc
    · split at hc
      · cases hc
      · split_ifs at hc
        · rw [List.mem_singleton.mp hc] at hage
          cases hage
        · cases hc

omit [IsOrderedAddMonoid τ] in
theorem fixedAge_callsOf (a : Agent τ) (es : List (Event τ)) :
    FixedAge options.snapshotMaxAge (callsOf uuid options a es) := by
  induction es generalizing a with
  | nil =>
    intro c hc
    cases hc
  | cons e es ih =>
    intro c hc
    rw [← List.singleton_append, callsOf_append, callsOf_singleton] at hc
    rcases List.mem_append.mp hc with hc | hc
    · exact fixedAge_calls a e c hc
    · exact ih _ c hc

omit [IsOrderedAddMonoid τ] in
theorem origin_of_current (huuid : Function.Injective uuid) {pre post : List (Event τ)}
    {o : String} (hx : (after uuid options T pre).exchanges[i]? = some x)
    (hsid : x.sessionId = some sid)
    (hlive : current (after uuid options T (pre ++ post)).tracker o = some sid) : o = x.origin := by
  have hbelongs := belongs_after huuid options T (pre ++ post)
  have hkey : (x.origin, some sid) ∈ keysOf (after uuid options T pre) :=
    List.mem_map.mpr ⟨x, List.mem_of_getElem? hx, by rw [hsid]⟩
  have hstarts : keysOf (after uuid options T pre) <+:
      keysOf (after uuid options T (pre ++ post)) := by
    rw [after, after, Runs.run_append]
    exact keysOf_prefix _ _
  exact (hbelongs.origin_eq (hstarts.subset hkey) hlive).symm

omit [IsOrderedAddMonoid τ] in
/-- With a session, a request is the system message and the newest one, and the house in it is
the tracker's answer. -/
theorem Sends.house (h : Sends options a i x messages) (hhouse : options.houseState = true)
    (hsid : x.sessionId = some sid) : ∃ told house, instructions options x.turn = .ok told ∧
      calls options a (.prepared i) =
        [⟨x.turn.snapshotAt, .snapshotFor x.origin x.turn.take options.snapshotMaxAge⟩] ∧
      (snapshotFor a.tracker x.turn.snapshotAt x.origin x.turn.take options.snapshotMaxAge).1 =
        .ok house ∧
      messages.dropLast = appendSystem told house "\n\n" := by
  obtain ⟨hopened, hmessages⟩ := h
  obtain ⟨hx, hunsent, -⟩ := opened_some_iff.mp hopened
  obtain ⟨hlt, -⟩ := List.getElem?_eq_some_iff.mp hx
  have hfailed : ∀ err tracker, asyncSystemMessages options x.turn a.tracker x.origin ≠
      (.error err, tracker) := by
    intro err tracker hsystem
    simp only [prepared, hopened, hsystem, List.getElem?_set_self hlt, Option.bind_some,
      hunsent] at hmessages
    cases hmessages
  have hsystem := asyncSystemMessages_eq options x.turn a.tracker x.origin
  cases htold : instructions options x.turn with
  | error err =>
    rw [htold] at hsystem
    exact absurd hsystem (hfailed _ _)
  | ok told =>
    simp only [htold, if_pos hhouse] at hsystem
    rcases hsnapshot : snapshotFor a.tracker x.turn.snapshotAt x.origin x.turn.take
      options.snapshotMaxAge with ⟨err | house, tracker⟩
    · rw [hsnapshot] at hsystem
      exact absurd hsystem (hfailed _ _)
    · rw [hsnapshot] at hsystem
      refine ⟨told, house, rfl, ?_, rfl, ?_⟩
      · simp only [calls, hopened, htold, if_pos hhouse]
      · simp only [prepared, hopened, hsystem, List.getElem?_set_self hlt, Option.bind_some,
          Option.some.injEq] at hmessages
        rw [← hmessages, outgoing, hsid, Option.isNone_some, if_neg Bool.false_ne_true,
          List.dropLast_concat]

/-- Two requests of one session are the same up to the newest message, if they are told the same,
unless the snapshot in the first is too old for the second. Hermes can keep what comes ahead. -/
theorem prefix_frozen (huuid : Function.Injective uuid) (options : Options τ)
    (hhouse : options.houseState = true) (T : τ) (pre mid : List (Event τ)) (i j : ℕ)
    (x y : Exchange τ) (sid : String) (messages messages' : List Message)
    (hclock : Nondecreasing
      (callsOf uuid options ⟨fresh T, []⟩ (pre ++ .prepared i :: (mid ++ [.prepared j]))))
    (hx : Sends options (after uuid options T pre) i x messages)
    (hy : Sends options (after uuid options T (pre ++ .prepared i :: mid)) j y messages')
    (hxsid : x.sessionId = some sid) (hysid : y.sessionId = some sid)
    (hxlive : current (after uuid options T pre).tracker x.origin = some sid)
    (hylive :
      current (after uuid options T (pre ++ .prepared i :: mid)).tracker y.origin = some sid)
    (htold : instructions options y.turn = instructions options x.turn) :
    messages'.dropLast = messages.dropLast ∨
      ∃ taken,
        lastTake uuid T (callsOf uuid options ⟨fresh T, []⟩ (pre ++ [.prepared i])) x.origin =
          some taken ∧ options.snapshotMaxAge ≤ y.turn.snapshotAt - taken.now := by
  have horigin : y.origin = x.origin :=
    origin_of_current huuid (opened_some_iff.mp hx.1).1 hxsid hylive
  obtain ⟨told, house, hxtold, hxcalls, hxhouse, hxmessages⟩ := hx.house hhouse hxsid
  obtain ⟨told', house', hytold, hycalls, hyhouse, hymessages⟩ := hy.house hhouse hysid
  have htold' : told' = told := by
    rw [htold, hxtold, Except.ok.injEq] at hytold
    exact hytold.symm
  rw [horigin] at hycalls hyhouse hylive
  -- The calls of the run, with those of the two requests brought out.
  obtain ⟨a, ha⟩ : ∃ a, Runs.run (step uuid options) ⟨fresh T, []⟩ (pre ++ [.prepared i]) = a :=
    ⟨_, rfl⟩
  have hone : callsOf uuid options ⟨fresh T, []⟩ (pre ++ [.prepared i]) =
      callsOf uuid options ⟨fresh T, []⟩ pre ++
        [⟨x.turn.snapshotAt, .snapshotFor x.origin x.turn.take options.snapshotMaxAge⟩] := by
    rw [callsOf_append, callsOf_singleton]
    exact congrArg _ hxcalls
  have hmid : callsOf uuid options ⟨fresh T, []⟩ (pre ++ .prepared i :: mid) =
      callsOf uuid options ⟨fresh T, []⟩ pre ++
        ⟨x.turn.snapshotAt, .snapshotFor x.origin x.turn.take options.snapshotMaxAge⟩ ::
          callsOf uuid options a mid := by
    rw [List.append_cons pre, callsOf_append, hone, ha, List.append_assoc, List.singleton_append]
  have hall : callsOf uuid options ⟨fresh T, []⟩ (pre ++ .prepared i :: (mid ++ [.prepared j])) =
      callsOf uuid options ⟨fresh T, []⟩ (pre ++ .prepared i :: mid) ++
        [⟨y.turn.snapshotAt, .snapshotFor x.origin y.turn.take options.snapshotMaxAge⟩] := by
    rw [← List.cons_append, ← List.append_assoc, callsOf_append, callsOf_singleton]
    exact congrArg _ hycalls
  rw [hall, hmid, Nondecreasing, List.append_assoc, List.cons_append] at hclock
  have hbefore := (List.pairwise_cons.mp (List.pairwise_append.mp hclock).2.1).2
  rw [tracker_after] at hxlive hylive hxhouse hyhouse
  rw [hmid] at hylive hyhouse
  have hstable := stable_law (c := ⟨x.turn.snapshotAt, .snapshotFor x.origin x.turn.take
      options.snapshotMaxAge⟩) (d := ⟨y.turn.snapshotAt, .snapshotFor x.origin y.turn.take
      options.snapshotMaxAge⟩) huuid (callsOf uuid options ⟨fresh T, []⟩ pre)
    (callsOf uuid options a mid)
    (fun e he => (List.pairwise_append.mp hbefore).2.2 e he _ (List.mem_singleton_self _))
    (fixedAge_callsOf a mid) rfl rfl (congrArg Reply.snapshot hxhouse)
    (congrArg Reply.snapshot hyhouse) hxlive hylive
  rcases hstable with hsame | ⟨taken, htaken, -, hold⟩
  · left
    rw [hymessages, hxmessages, htold', hsame]
  · right
    rw [hone]
    exact ⟨taken, htaken, hold⟩

end Frozen

section Kitchen

theorem prefix_frozen_kitchen :
    ([⟨"system", "Be brief.\n\nLamp: off"⟩] : List Message) =
        [⟨"system", "Be brief.\n\nLamp: off"⟩] ∨
      ∃ taken, lastTake tally 60 (callsOf tally houseOptions ⟨fresh 60, []⟩
        ([.received lightsOn] ++ [.prepared 0])) "kitchen" = some taken ∧
        houseOptions.snapshotMaxAge ≤ lightsOff.snapshotAt - taken.now :=
  prefix_frozen tally_injective houseOptions rfl 60 [.received lightsOn]
    [.streamed 0, .received lightsOff] 0 1 ⟨lightsOn, some "ha-", none, none⟩
    ⟨lightsOff, some "ha-", none, none⟩ "ha-"
    [⟨"system", "Be brief.\n\nLamp: off"⟩, ⟨"user", "12:00\nlights on"⟩]
    [⟨"system", "Be brief.\n\nLamp: off"⟩, ⟨"user", "12:00\nand off"⟩]
    (by decide) ⟨rfl, rfl⟩ ⟨rfl, rfl⟩ rfl rfl rfl rfl rfl

end Kitchen

end HermesConversation.Conversations
