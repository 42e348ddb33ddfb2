import HermesConversation.Conversations

/-!
# From the wire to the answer

What the gateway sends, line by line, against what the handler answers in the end: the client,
the chat log and the handler put together, with any other messages in between.
-/

namespace HermesConversation.Answers

open Library AnsweredTurns Conversations
open Sessions (tally)
open HermesConversation.Stream (Interruption Iteration Response ascii_of_all carried firstDelta
  frame jsonOf jsonOf_frame nonEmptyText raisedBy sseDone)

section Outcome

def reply (text : String) : Except Error Result :=
  if text = "" then .error .noAssistantContent
  else if Text.trim text = "" then .error .emptyResponse
  else .ok (.answer text)

def settled (stream : Iteration) : Except Error Result :=
  match stream.raised with
  | some err => .error (translated err)
  | none => reply (String.join stream.chunks)

def broken : Interruption → Error
  | .client _ => .cannotConnect
  | .other name text => .uncaught (.reader name text)

/-- What its lines make of a response. One that raises spoils all of it. -/
def outcomeOf (loads : String → Option Json) (tooLong : List UInt8 → Bool)
    (content : List (List UInt8)) (ending : Option Interruption) : Except Error Result :=
  match content.findSome? (raisedBy loads tooLong) with
  | some err => .error (.uncaught err)
  | none =>
    ending.elim (reply (String.join (content.filterMap (carried loads)))) fun interruption =>
      .error (broken interruption)

def outcome (loads : String → Option Json) (tooLong : List UInt8 → Bool) :
    Response → Except Error Result
  | .failed interruption => .error (broken interruption)
  | .response status _ content ending =>
    if status = Client.unauthorized then .error .invalidAuth
    else if 400 ≤ status then .error .cannotConnect
    else outcomeOf loads tooLong content ending

end Outcome

/-! ## One stream -/

section Stream

variable {τ : Type*} {loads : String → Option Json} {tooLong : List UInt8 → Bool}
  {profile : String} {timeout : ℕ} {sessionId : Option String}

theorem answerWith_settled (turn : Turn τ) (tracker : Sessions.SessionTracker τ)
    (sessionId : Option String) (stream : Iteration) :
    (answerWith turn tracker sessionId stream).1 = settled stream := by
  simp only [answerWith, asyncAddDeltaContentStream, settled, reply]
  cases stream.raised with
  | some err => rfl
  | none =>
    dsimp only
    split_ifs with hempty hblank
    · simp [finished, asyncGetResultFromChatLog]
    · simp [finished, hblank]
    · exact finished_spoken hblank

theorem translated_interruption (interruption : Interruption) :
    translated (interruption.raised timeout profile) = broken interruption := by
  cases interruption with
  | client failure => cases failure <;> rfl
  | other name text => rfl

theorem translated_raisedBy {raw : List UInt8} {err : Stream.Raised}
    (h : raisedBy loads tooLong raw = some err) : translated err = .uncaught err := by
  rw [raisedBy] at h
  split_ifs at h
  · obtain rfl := Option.some.inj h
    rfl
  · obtain rfl := Option.some.inj h
    rfl

theorem settled_readContent (hempty : loads "" = none) (hdone : loads sseDone = none)
    (content : List (List UInt8)) (ending : Option Interruption) :
    settled (Stream.readContent loads tooLong
        (ending.map (Interruption.raised timeout profile)) content) =
      outcomeOf loads tooLong content ending := by
  rw [settled, Stream.readContent_raised hempty hdone, outcomeOf]
  cases hfirst : content.findSome? (raisedBy loads tooLong) with
  | some err =>
    obtain ⟨raw, -, hraw⟩ := List.exists_of_findSome?_eq_some hfirst
    rw [Option.some_or]
    exact congrArg Except.error (translated_raisedBy hraw)
  | none =>
    cases ending with
    | some interruption => exact congrArg Except.error (translated_interruption interruption)
    | none =>
      have hlines := Stream.nothing_raised_iff.mp hfirst
      rw [Stream.readContent_delivered hempty hdone hlines]
      rfl

theorem settled_asyncStreamChat (hempty : loads "" = none) (hdone : loads sseDone = none)
    (response : Response) :
    settled (Stream.asyncStreamChat loads tooLong profile timeout sessionId response) =
      outcome loads tooLong response := by
  cases response with
  | failed interruption => exact congrArg Except.error (translated_interruption interruption)
  | response status errorText content ending =>
    rw [Stream.asyncStreamChat, outcome]
    by_cases hauth : status = Client.unauthorized
    · rw [if_pos hauth, if_pos hauth]
      rfl
    · rw [if_neg hauth, if_neg hauth]
      by_cases hstatus : 400 ≤ status
      · rw [if_pos hstatus, Client.raiseForStatus, if_pos hstatus]
        split_ifs <;> rfl
      · -- a refused session is an error status too
        have hallowed : ¬(sessionId.any (· ≠ "") ∧ status = Stream.forbidden) := by
          rintro ⟨-, rfl⟩
          exact hstatus (by decide)
        rw [if_neg hstatus, if_neg hallowed, Client.raiseForStatus, if_neg hstatus]
        exact settled_readContent hempty hdone content ending

end Stream

/-! ## A text in pieces -/

/-- A piece of a text as a gateway writes it: in ASCII and within the limit of the reader. -/
structure Written (loads : String → Option Json) (tooLong : List UInt8 → Bool)
    (dumps : String → String) (piece : String) : Prop where
  ascii : ∀ c ∈ (dumps piece).toList, c.toNat < 0x80
  ne_empty : dumps piece ≠ ""
  trimmed : Text.trim (dumps piece) = dumps piece
  loads_dumps : ∃ value fields, loads (dumps piece) = some value ∧
    firstDelta value = some (.obj fields) ∧ fields.lookup "content" = some (.str piece)
  short : tooLong (frame (dumps piece)) = false

def transcript (dumps : String → String) (pieces : List String) : List (List UInt8) :=
  (pieces.map fun piece => frame (dumps piece)) ++ [frame sseDone]

section Pieces

variable {loads : String → Option Json} {tooLong : List UInt8 → Bool} {dumps : String → String}
  {piece : String} {pieces : List String}

theorem Written.carried (h : Written loads tooLong dumps piece) :
    carried loads (frame (dumps piece)) = nonEmptyText (.str piece) := by
  obtain ⟨value, fields, hvalue, hdelta, hcontent⟩ := h.loads_dumps
  rw [Stream.carried, jsonOf_frame h.ascii h.ne_empty h.trimmed, hvalue, Option.bind_some, hdelta,
    Option.bind_some, Stream.field, hcontent, Option.bind_some]

theorem Written.raisedBy (h : Written loads tooLong dumps piece) :
    raisedBy loads tooLong (frame (dumps piece)) = none := by
  refine Stream.raisedBy_eq_none_iff.mpr ⟨h.short, fun value delta hvalue hdelta => ?_⟩
  obtain ⟨written, fields, hwritten, hfirst, -⟩ := h.loads_dumps
  rw [jsonOf_frame h.ascii h.ne_empty h.trimmed, hwritten] at hvalue
  obtain rfl := Option.some.inj hvalue
  exact ⟨fields, Option.some.inj (hdelta.symm.trans hfirst)⟩

theorem jsonOf_sseDone (hdone : loads sseDone = none) : jsonOf loads (frame sseDone) = none := by
  rw [jsonOf_frame (ascii_of_all (by decide)) (by decide) (by decide), hdone]

theorem join_filterMap_nonEmptyText (pieces : List String) :
    String.join (pieces.filterMap fun piece => nonEmptyText (.str piece)) =
      String.join pieces := by
  induction pieces with
  | nil => rfl
  | cons piece pieces ih =>
    rw [List.filterMap_cons, String.join_cons, nonEmptyText]
    by_cases hempty : piece = ""
    · rw [if_pos hempty, hempty, String.empty_append]
      exact ih
    · rw [if_neg hempty]
      dsimp only
      rw [String.join_cons, ih]

theorem outcome_transcript (hdone : loads sseDone = none)
    (hshort : tooLong (frame sseDone) = false) (errorText : String)
    (h : ∀ piece ∈ pieces, Written loads tooLong dumps piece) :
    outcome loads tooLong (.response 200 errorText (transcript dumps pieces) none) =
      reply (String.join pieces) := by
  have hlast : raisedBy loads tooLong (frame sseDone) = none := by
    refine Stream.raisedBy_eq_none_iff.mpr ⟨hshort, fun value delta hvalue _ => ?_⟩
    rw [jsonOf_sseDone hdone] at hvalue
    cases hvalue
  have hfirst : (transcript dumps pieces).findSome? (raisedBy loads tooLong) = none := by
    rw [List.findSome?_eq_none_iff]
    intro raw hraw
    rcases List.mem_append.mp hraw with hframe | hend
    · obtain ⟨piece, hpiece, rfl⟩ := List.mem_map.mp hframe
      exact (h piece hpiece).raisedBy
    · exact List.mem_singleton.mp hend ▸ hlast
  have hsilent : carried loads (frame sseDone) = none := by
    rw [Stream.carried, jsonOf_sseDone hdone]
    rfl
  have hcarried : (transcript dumps pieces).filterMap (carried loads) =
      pieces.filterMap fun piece => nonEmptyText (.str piece) := by
    rw [transcript, List.filterMap_append, List.filterMap_map, List.filterMap_cons_none hsilent,
      List.filterMap_nil, List.append_nil]
    apply List.filterMap_congr
    intro piece hpiece
    rw [Function.comp_apply, (h piece hpiece).carried]
  rw [outcome, if_neg (by decide), if_neg (by decide), outcomeOf, hfirst]
  dsimp only
  rw [Option.elim_none, hcarried, join_filterMap_nonEmptyText]

end Pieces

/-! ## In a run -/

section Runs

variable {τ : Type*} [AddCommGroup τ] [LinearOrder τ] {uuid : ℕ → String} {options : Options τ}
  {a : Agent τ} {T : τ}

/-- An exchange that was sent and is over has the result of its stream. -/
def Closed (x : Exchange τ) : Prop :=
  ∀ messages result, x.messages = some messages → x.result = some result →
    result = settled (x.turn.respond messages x.sessionId)

theorem closed_step (h : ∀ x ∈ a.exchanges, Closed x) (e : Event τ) :
    ∀ x ∈ (step uuid options a e).exchanges, Closed x := by
  intro x hx messages result hmessages hresult
  cases stands_step hx with
  | before hold => exact h x hold messages result hmessages hresult
  | onTheSpot turn hreset => cases hmessages
  | begun turn sessionId hreset => cases hmessages
  | failed err hold hunsent => cases hunsent.symm.trans hmessages
  | sent _ hold _ hopen => cases hopen.symm.trans hresult
  | answered hold hsent =>
    obtain rfl := Option.some.inj (hsent.symm.trans hmessages)
    rw [← Option.some.inj hresult, answerWith_settled]

theorem closed_after (uuid : ℕ → String) (options : Options τ) (T : τ) (es : List (Event τ)) :
    ∀ x ∈ (after uuid options T es).exchanges, Closed x := by
  refine Runs.run_invariant (P := fun a : Agent τ => ∀ x ∈ a.exchanges, Closed x)
    (fun a e h => closed_step h e) ?_ es
  intro x hx
  exact absurd hx List.not_mem_nil

/-- Whatever else comes and goes in between, a message is answered with what the lines of its own
response carry, and nothing that a failed response has said before it failed is an answer. -/
theorem answers_exact {loads : String → Option Json} (hempty : loads "" = none)
    (hdone : loads Stream.sseDone = none) (tooLong : List UInt8 → Bool) (uuid : ℕ → String)
    (options : Options τ) (T : τ) (es : List (Event τ)) (profile : String) (timeout : ℕ)
    (response : Response) (x : Exchange τ) (hx : x ∈ (after uuid options T es).exchanges)
    (messages : List Message) (hmessages : x.messages = some messages)
    (hrespond : x.turn.respond messages x.sessionId =
      Stream.asyncStreamChat loads tooLong profile timeout x.sessionId response)
    (result : Except Error Result) (hresult : x.result = some result) :
    result = outcome loads tooLong response := by
  rw [closed_after uuid options T es x hx messages result hmessages hresult, hrespond,
    settled_asyncStreamChat hempty hdone]

end Runs

section Kitchen

def donePieces : List String := ["Do", "ne."]

/-- The JSON of a chunk, for a piece that JSON need not escape. -/
def dumpsChunk (piece : String) : String :=
  "\x7b\"choices\":[\x7b\"delta\":\x7b\"content\":\"" ++ piece ++ "\"\x7d\x7d]\x7d"

def doneLoads (text : String) : Option Json :=
  (donePieces.find? fun piece => text = dumpsChunk piece).map fun piece =>
    .obj [("choices", .arr [.obj [("delta", .obj [("content", .str piece)])]])]

theorem written_done : ∀ piece ∈ donePieces,
    Written doneLoads (Stream.exceeds 131072) dumpsChunk piece := by
  refine List.forall_mem_cons.mpr ⟨?_, List.forall_mem_singleton.mpr ?_⟩
  · exact ⟨ascii_of_all (by decide), by decide, by decide, ⟨_, _, rfl, rfl, rfl⟩, by decide⟩
  · exact ⟨ascii_of_all (by decide), by decide, by decide, ⟨_, _, rfl, rfl, rfl⟩, by decide⟩

abbrev doneResponse : Response := .response 200 "" (transcript dumpsChunk donePieces) none

def lightsOut : Turn ℤ :=
  { kitchenTurn "lights out" "Lamp: on" 30 with
    respond := fun _ sessionId =>
      Stream.asyncStreamChat doneLoads (Stream.exceeds 131072) "default" 60 sessionId doneResponse }

theorem respond_lightsOut (messages : List Message) (sessionId : Option String) :
    lightsOut.respond messages sessionId = Stream.asyncStreamChat doneLoads (Stream.exceeds 131072)
      "default" 60 sessionId doneResponse :=
  rfl

/-- The lights are to go out while another message is not answered yet. -/
def lightsEvents : List (Event ℤ) :=
  [.received lightsOn, .received lightsOut, .prepared 1, .prepared 0, .streamed 1]

def lightsMessages : List Message :=
  [⟨"system", "Be brief.\n\nLamp: on"⟩, ⟨"user", "12:00\nlights out"⟩]

def lightsExchange : Exchange ℤ :=
  ⟨lightsOut, some "ha-", some lightsMessages, some (.ok (.answer "Done."))⟩

theorem mem_lightsExchange :
    lightsExchange ∈ (after tally houseOptions 60 lightsEvents).exchanges :=
  List.mem_of_getElem? (i := 1) rfl

theorem answers_exact_kitchen :
    (.ok (.answer "Done.") : Except Error Result) =
      outcome doneLoads (Stream.exceeds 131072) doneResponse :=
  answers_exact (by decide) (by decide) (Stream.exceeds 131072) tally houseOptions 60 lightsEvents
    "default" 60 doneResponse lightsExchange mem_lightsExchange lightsMessages rfl
    (respond_lightsOut _ _) _ rfl

end Kitchen

end HermesConversation.Answers
