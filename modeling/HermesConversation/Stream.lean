import HermesConversation.Client
import HermesConversation.Library.Utf8

/-!
# Streaming a reply

The frames of a stream, one line each, and what the client makes of them. `loads` stands for
`json.loads`: the value of a text that is JSON, and none where it raises a `ValueError`. `tooLong`
tells the lines over the limit of the reader: it raises a `LineTooLong` over such a line, which is
neither a `TimeoutError` nor a `ClientError`, and delivers nothing from it on.
-/

namespace HermesConversation.Stream

open Library Client

inductive PyError where
  | valueError
  | keyError
  | indexError
  | typeError
  | attributeError
  deriving DecidableEq

def orRaise {α : Type} (err : PyError) (found : Option α) : Except PyError α :=
  found.elim (.error err) .ok

def getItem (key : String) : Json → Except PyError Json
  | .obj fields => orRaise .keyError (fields.lookup key)
  | _ => .error .typeError

/-- `value[i]` for a number that is no key of any dictionary. -/
def getIndex (i : ℕ) : Json → Except PyError Json
  | .arr items => orRaise .indexError items[i]?
  | .str text => orRaise .indexError (text.toList[i]?.map fun c => .str c.toString)
  | .obj _ => .error .keyError
  | _ => .error .typeError

/-- `value.get(key)`, a method that only dictionaries have. -/
def get (key : String) : Json → Except PyError Json
  | .obj fields => .ok ((fields.lookup key).getD .null)
  | _ => .error .attributeError

def sseDataPrefix : String := "data: "
def sseDone : String := "[DONE]"

def payloadOf (raw : List UInt8) : Option String :=
  ((Text.afterPrefix sseDataPrefix (Text.trim (Utf8.decode raw))).map Text.trim).filter fun
    payload => payload ≠ "" ∧ payload ≠ sseDone

def deltaOf (loads : String → Option Json) (payload : String) : Except PyError Json := do
  let value ← orRaise .valueError (loads payload)
  let choices ← getItem "choices" value
  let choice ← getIndex 0 choices
  getItem "delta" choice

def caught (err : PyError) : Bool := err ∈ [.valueError, .keyError, .indexError, .typeError]

def nonEmptyText : Json → Option String
  | .str text => if text = "" then none else some text
  | _ => none

def parseSseLine (loads : String → Option Json) (raw : List UInt8) :
    Except PyError (Option String) :=
  match payloadOf raw with
  | none => .ok none
  | some payload =>
    match deltaOf loads payload with
    | .error err => if caught err then .ok none else .error err
    | .ok delta => (get "content" delta).map nonEmptyText

inductive Raised where
  | client (err : Client.Raised)
  | python (err : PyError)
  | lineTooLong
  | reader (name text : String)
  deriving DecidableEq

/-- What an iteration yields, and what it raises in the end if it does. -/
structure Iteration where
  chunks : List String
  raised : Option Raised
  deriving DecidableEq

def raising (err : Client.Raised) : Iteration := ⟨[], some (.client err)⟩

/-- What breaks a stream off, other than one of its lines. -/
inductive Interruption where
  | client (failure : Failure)
  | other (name text : String)

/-- `content` are the lines that arrive, `errorText` is as for `raiseForStatus`. -/
inductive Response where
  | failed (interruption : Interruption)
  | response (status : ℕ) (errorText : String) (content : List (List UInt8))
      (ending : Option Interruption)

def forbidden : ℕ := 403

/-- The iteration from a line on, given what is left of it after that line. -/
def Iteration.preceded (rest : Iteration) : Except PyError (Option String) → Iteration
  | .error err => ⟨[], some (.python err)⟩
  | .ok none => rest
  | .ok (some chunk) => ⟨chunk :: rest.chunks, rest.raised⟩

def readContent (loads : String → Option Json) (tooLong : List UInt8 → Bool)
    (ending : Option Raised) : List (List UInt8) → Iteration
  | [] => ⟨[], ending⟩
  | raw :: content =>
    if tooLong raw then ⟨[], some .lineTooLong⟩
    else (readContent loads tooLong ending content).preceded (parseSseLine loads raw)

def rethrow (timeout : ℕ) (profile : String) : Client.Raised → Client.Raised
  | .timeout _ => .hermesConnectionError
      ("Timed out after " ++ toString timeout ++ "s waiting for profile " ++ profile)
  | .clientError name text => .hermesConnectionError (describe name text)
  | err => err

def Interruption.raised (timeout : ℕ) (profile : String) : Interruption → Raised
  | .client failure => .client (rethrow timeout profile failure.raised)
  | .other name text => .reader name text

def asyncStreamChat (loads : String → Option Json) (tooLong : List UInt8 → Bool)
    (profile : String) (timeout : ℕ) (sessionId : Option String) : Response → Iteration
  | .failed interruption => ⟨[], some (interruption.raised timeout profile)⟩
  | .response status errorText content ending =>
    if status = unauthorized then raising (.hermesAuthError "Hermes rejected the API key")
    else if sessionId.any (· ≠ "") ∧ status = forbidden then
      raising (.hermesConnectionError ("Hermes refused to continue the session; " ++
        "the profile needs API_SERVER_KEY set"))
    else
      match raiseForStatus status errorText with
      | .error err => raising (rethrow timeout profile err)
      | .ok _ =>
        readContent loads tooLong (ending.map (Interruption.raised timeout profile)) content

/-! ## What a line carries -/

def field (key : String) : Json → Option Json
  | .obj fields => fields.lookup key
  | _ => none

def item (i : ℕ) : Json → Option Json
  | .arr items => items[i]?
  | _ => none

def firstDelta (value : Json) : Option Json :=
  ((field "choices" value).bind (item 0)).bind (field "delta")

def dataOf (raw : List UInt8) : Option String :=
  (Text.afterPrefix sseDataPrefix (Text.trim (Utf8.decode raw))).map Text.trim

def jsonOf (loads : String → Option Json) (raw : List UInt8) : Option Json :=
  (dataOf raw).bind loads

def carried (loads : String → Option Json) (raw : List UInt8) : Option String :=
  (((jsonOf loads raw).bind firstDelta).bind (field "content")).bind nonEmptyText

def frame (payload : String) : List UInt8 := Utf8.ascii (sseDataPrefix ++ payload ++ "\n")

/-- Where the line has a `choices[0].delta` at all, it is an object. -/
def DeltaIsObject (loads : String → Option Json) (raw : List UInt8) : Prop :=
  ∀ value delta, jsonOf loads raw = some value → firstDelta value = some delta →
    ∃ fields, delta = .obj fields

section Lines

variable {loads : String → Option Json} {raw : List UInt8} {key : String} {v x : Json}
  {payload : String} {err : PyError}

theorem orRaise_ok_iff {α : Type} {found : Option α} {a : α} :
    orRaise err found = .ok a ↔ found = some a := by
  cases found <;> simp [orRaise]

theorem orRaise_error {α : Type} {found : Option α} {missing : PyError}
    (hmissing : caught missing = true) (h : orRaise missing found = .error err) :
    caught err = true := by
  cases found with
  | none =>
    obtain rfl := Except.error.inj h
    exact hmissing
  | some a => cases h

theorem getItem_ok_iff : getItem key v = .ok x ↔ field key v = some x := by
  cases v with
  | obj fields => exact orRaise_ok_iff
  | _ => simp [getItem, field]

theorem getItem_error (h : getItem key v = .error err) : caught err = true := by
  cases v with
  | obj fields => exact orRaise_error rfl h
  | _ =>
    obtain rfl := Except.error.inj h
    rfl

theorem getIndex_error (h : getIndex 0 v = .error err) : caught err = true := by
  cases v with
  | arr items => exact orRaise_error rfl h
  | str text => exact orRaise_error rfl h
  | _ =>
    obtain rfl := Except.error.inj h
    rfl

theorem bind_ok_iff {α β : Type} {r : Except PyError α} {f : α → Except PyError β} {b : β} :
    (r >>= f) = .ok b ↔ ∃ a, r = .ok a ∧ f a = .ok b := by
  cases r <;> simp [bind, Except.bind]

theorem bind_error_caught {α β : Type} {r : Except PyError α} {f : α → Except PyError β}
    (hr : ∀ err, r = .error err → caught err = true)
    (hf : ∀ a err, f a = .error err → caught err = true)
    (h : (r >>= f) = .error err) : caught err = true := by
  cases r with
  | error e =>
    obtain rfl := Except.error.inj h
    exact hr e rfl
  | ok a => exact hf a err h

theorem getIndex_getItem_ok_iff : (getIndex 0 v >>= getItem key) = .ok x ↔
    (item 0 v).bind (field key) = some x := by
  rw [bind_ok_iff, Option.bind_eq_some_iff]
  cases v with
  | arr items => simp only [getIndex, item, orRaise_ok_iff, getItem_ok_iff]
  | str text =>
    constructor
    · intro h
      obtain ⟨c, hc, hitem⟩ := h
      obtain ⟨d, -, rfl⟩ := Option.map_eq_some_iff.mp (orRaise_ok_iff.mp hc)
      cases hitem
    · intro h
      obtain ⟨c, hc, -⟩ := h
      cases hc
  | _ => simp [getIndex, item]

theorem deltaOf_error (h : deltaOf loads payload = .error err) : caught err = true := by
  apply bind_error_caught (fun err => orRaise_error rfl) (fun value err => ?_) h
  apply bind_error_caught (fun err => getItem_error) fun choices err => ?_
  exact bind_error_caught (fun err => getIndex_error) fun choice err => getItem_error

theorem deltaOf_ok_iff : deltaOf loads payload = .ok x ↔
    (loads payload).bind firstDelta = some x := by
  simp only [deltaOf, bind_ok_iff, orRaise_ok_iff, Option.bind_eq_some_iff, firstDelta,
    Option.bind_assoc]
  refine exists_congr fun value => and_congr_right fun _ => exists_congr fun choices => ?_
  rw [getItem_ok_iff]
  refine and_congr_right fun _ => ?_
  rw [← bind_ok_iff, getIndex_getItem_ok_iff, Option.bind_eq_some_iff]

theorem ascii_of_all (h : payload.toList.all (fun c => c.toNat < 0x80) = true) :
    ∀ c ∈ payload.toList, c.toNat < 0x80 := by
  intro c hc
  exact of_decide_eq_true (List.all_eq_true.mp h c hc)

theorem dataOf_frame (hascii : ∀ c ∈ payload.toList, c.toNat < 0x80) (hne : payload ≠ "")
    (htrim : Text.trim payload = payload) : dataOf (frame payload) = some payload := by
  have hstart : ∀ c ∈ sseDataPrefix.toList, c.toNat < 0x80 := ascii_of_all (by decide)
  have hline : ∀ c ∈ (sseDataPrefix ++ payload ++ "\n").toList, c.toNat < 0x80 := by
    intro c hc
    rw [String.toList_append, String.toList_append, List.mem_append, List.mem_append] at hc
    rcases hc with (hc | hc) | hc
    · exact hstart c hc
    · exact hascii c hc
    · obtain rfl := List.mem_singleton.mp hc
      decide
  have hchars : payload.toList ≠ [] := by simpa using hne
  have hdrop : (sseDataPrefix ++ payload ++ "\n").toList.dropWhile Text.isSpace =
      (sseDataPrefix.toList ++ payload.toList) ++ ['\n'] := by
    rw [String.toList_append, String.toList_append]
    rfl
  have hrdrop : ((sseDataPrefix.toList ++ payload.toList) ++ ['\n']).rdropWhile Text.isSpace =
      sseDataPrefix.toList ++ payload.toList := by
    rw [List.rdropWhile_concat_pos _ _ _ (by decide)]
    exact Text.rdropWhile_append_of_ne_nil hchars (Text.rdropWhile_of_trim htrim)
  have hafter : Text.afterPrefix sseDataPrefix (Text.trim (sseDataPrefix ++ payload ++ "\n")) =
      some payload := by
    rw [Text.afterPrefix, Text.trim, hdrop, hrdrop, String.toList_ofList,
      Text.dropPrefix?_append, Option.map_some, String.ofList_toList]
  rw [dataOf, frame, Utf8.decode_ascii hline, hafter, Option.map_some, htrim]

/-- What a frame of ASCII text carries is what its JSON says. -/
theorem jsonOf_frame (hascii : ∀ c ∈ payload.toList, c.toNat < 0x80) (hne : payload ≠ "")
    (htrim : Text.trim payload = payload) : jsonOf loads (frame payload) = loads payload := by
  rw [jsonOf, dataOf_frame hascii hne htrim, Option.bind_some]

end Lines

/-! ## What a stream yields -/

section Frames

variable {loads : String → Option Json} {raw : List UInt8} {payload : String}

theorem payloadOf_bind (hempty : loads "" = none) (hdone : loads sseDone = none) :
    (payloadOf raw).bind loads = jsonOf loads raw := by
  rw [payloadOf, jsonOf, dataOf]
  cases (Text.afterPrefix sseDataPrefix (Text.trim (Utf8.decode raw))).map Text.trim with
  | none => rfl
  | some payload =>
    by_cases hskipped : payload ≠ "" ∧ payload ≠ sseDone
    · rw [Option.filter_some, if_pos (decide_eq_true hskipped)]
    · have hnone : loads payload = none := by
        rw [not_and_or, not_not, not_not] at hskipped
        rcases hskipped with rfl | rfl
        · exact hempty
        · exact hdone
      rw [Option.filter_some, if_neg (by simpa using hskipped), Option.bind_some, hnone,
        Option.bind_none]

theorem parseSseLine_eq (hempty : loads "" = none) (hdone : loads sseDone = none) :
    parseSseLine loads raw =
      match (jsonOf loads raw).bind firstDelta with
      | none => .ok none
      | some delta => (get "content" delta).map nonEmptyText := by
  rw [← payloadOf_bind hempty hdone, parseSseLine]
  cases payloadOf raw with
  | none => rfl
  | some payload =>
    rw [Option.bind_some]
    cases hdelta : deltaOf loads payload with
    | error err =>
      have hnone : (loads payload).bind firstDelta = none := by
        rw [Option.eq_none_iff_forall_ne_some]
        intro delta hsome
        rw [deltaOf_ok_iff.mpr hsome] at hdelta
        cases hdelta
      simp only [hnone, hdelta, deltaOf_error hdelta, if_true]
    | ok delta => simp only [hdelta, deltaOf_ok_iff.mp hdelta]

theorem get_content (fields : List (String × Json)) :
    (get "content" (.obj fields)).map nonEmptyText =
      .ok ((field "content" (.obj fields)).bind nonEmptyText) := by
  cases hfound : fields.lookup "content" <;> simp [get, field, hfound, Except.map, nonEmptyText]

theorem parseSseLine_object (hempty : loads "" = none) (hdone : loads sseDone = none)
    (h : DeltaIsObject loads raw) : parseSseLine loads raw = .ok (carried loads raw) := by
  rw [parseSseLine_eq hempty hdone, carried]
  cases hdelta : (jsonOf loads raw).bind firstDelta with
  | none => rfl
  | some delta =>
    obtain ⟨value, hvalue, hfirst⟩ := Option.bind_eq_some_iff.mp hdelta
    obtain ⟨fields, rfl⟩ := h value delta hvalue hfirst
    exact get_content fields

theorem parseSseLine_other (hempty : loads "" = none) (hdone : loads sseDone = none)
    (h : ¬DeltaIsObject loads raw) : parseSseLine loads raw = .error .attributeError := by
  rw [DeltaIsObject] at h
  push Not at h
  obtain ⟨value, delta, hvalue, hfirst, hother⟩ := h
  rw [parseSseLine_eq hempty hdone, hvalue, Option.bind_some, hfirst]
  cases delta with
  | obj fields => exact absurd rfl (hother fields)
  | _ => rfl

end Frames

section Content

variable {loads : String → Option Json} {tooLong : List UInt8 → Bool} {ending : Option Raised}
  {raw : List UInt8} {content : List (List UInt8)}

def isObject : Json → Bool
  | .obj _ => true
  | _ => false

theorem isObject_iff {value : Json} : isObject value = true ↔ ∃ fields, value = .obj fields := by
  cases value <;> simp [isObject]

theorem deltaIsObject_iff :
    ((jsonOf loads raw).bind firstDelta).all isObject = true ↔ DeltaIsObject loads raw := by
  rw [Option.all_eq_true, DeltaIsObject]
  constructor
  · intro h value delta hvalue hdelta
    exact isObject_iff.mp (h delta (Option.bind_eq_some_iff.mpr ⟨value, hvalue, hdelta⟩))
  · intro h delta hsome
    obtain ⟨value, hvalue, hdelta⟩ := Option.bind_eq_some_iff.mp hsome
    exact isObject_iff.mpr (h value delta hvalue hdelta)

instance (loads : String → Option Json) (raw : List UInt8) : Decidable (DeltaIsObject loads raw) :=
  decidable_of_iff _ deltaIsObject_iff

/-- What a line raises by itself: in the reader if it is too long, else in the parser. -/
def raisedBy (loads : String → Option Json) (tooLong : List UInt8 → Bool) (raw : List UInt8) :
    Option Raised :=
  if tooLong raw then some .lineTooLong
  else if DeltaIsObject loads raw then none
  else some (.python .attributeError)

theorem raisedBy_eq_none_iff :
    raisedBy loads tooLong raw = none ↔ tooLong raw = false ∧ DeltaIsObject loads raw := by
  rw [raisedBy]
  split_ifs with hlong hobject
  · simp [hlong]
  · simp [hlong, hobject]
  · simp [hobject]

theorem nothing_raised_iff : content.findSome? (raisedBy loads tooLong) = none ↔
    ∀ raw ∈ content, tooLong raw = false ∧ DeltaIsObject loads raw := by
  simp only [List.findSome?_eq_none_iff, raisedBy_eq_none_iff]

theorem readContent_delivered (hempty : loads "" = none) (hdone : loads sseDone = none)
    (h : ∀ raw ∈ content, tooLong raw = false ∧ DeltaIsObject loads raw) :
    readContent loads tooLong ending content = ⟨content.filterMap (carried loads), ending⟩ := by
  induction content with
  | nil => rfl
  | cons raw content ih =>
    obtain ⟨⟨hshort, hraw⟩, hrest⟩ := List.forall_mem_cons.mp h
    rw [readContent, if_neg (by simp [hshort]), parseSseLine_object hempty hdone hraw, ih hrest]
    cases hcarried : carried loads raw with
    | none => rw [List.filterMap_cons_none hcarried, Iteration.preceded]
    | some chunk => rw [List.filterMap_cons_some hcarried, Iteration.preceded]

/-- The first line that raises decides how the iteration ends, and without one it is the ending. -/
theorem readContent_raised (hempty : loads "" = none) (hdone : loads sseDone = none)
    (content : List (List UInt8)) : (readContent loads tooLong ending content).raised =
      (content.findSome? (raisedBy loads tooLong)).or ending := by
  induction content with
  | nil => rfl
  | cons raw content ih =>
    rw [readContent, List.findSome?_cons]
    by_cases hlong : tooLong raw = true
    · rw [if_pos hlong, raisedBy, if_pos hlong]
      rfl
    · rw [if_neg hlong, raisedBy, if_neg hlong]
      by_cases hobject : DeltaIsObject loads raw
      · rw [if_pos hobject, parseSseLine_object hempty hdone hobject, ← ih]
        cases carried loads raw <;> rfl
      · rw [if_neg hobject, parseSseLine_other hempty hdone hobject]
        rfl

end Content

section Streams

variable {loads : String → Option Json} {tooLong : List UInt8 → Bool} {profile errorText : String}
  {timeout : ℕ} {sessionId : Option String} {content : List (List UInt8)}
  {ending : Option Interruption}

def streamed (loads : String → Option Json) (tooLong : List UInt8 → Bool) (profile : String)
    (timeout : ℕ) (sessionId : Option String) (errorText : String) (ending : Option Interruption)
    (content : List (List UInt8)) : Iteration :=
  asyncStreamChat loads tooLong profile timeout sessionId (.response 200 errorText content ending)

/-- The iteration ends as it would have without any line, it yields what the lines carry, and
a line that carries nothing could as well not be there. -/
structure Decodes (loads : String → Option Json) (tooLong : List UInt8 → Bool) (profile : String)
    (timeout : ℕ) (sessionId : Option String) (errorText : String) (ending : Option Interruption)
    (content : List (List UInt8)) : Prop where
  raised : (streamed loads tooLong profile timeout sessionId errorText ending content).raised =
    (streamed loads tooLong profile timeout sessionId errorText ending []).raised
  chunks : (streamed loads tooLong profile timeout sessionId errorText ending content).chunks =
    content.filterMap (carried loads)
  silent : ∀ front raw back, content = front ++ raw :: back → carried loads raw = none →
    (streamed loads tooLong profile timeout sessionId errorText ending (front ++ back)).chunks =
      (streamed loads tooLong profile timeout sessionId errorText ending content).chunks

theorem streamed_eq : streamed loads tooLong profile timeout sessionId errorText ending content =
    readContent loads tooLong (ending.map (Interruption.raised timeout profile)) content := by
  rw [streamed, asyncStreamChat, if_neg (by decide), if_neg fun h => absurd h.2 (by decide)]
  rfl

theorem raisedBy_ne_ending {raw : List UInt8} {err : Raised}
    (h : raisedBy loads tooLong raw = some err) :
    ending.map (Interruption.raised timeout profile) ≠ some err := by
  intro heq
  obtain ⟨interruption, -, rfl⟩ := Option.map_eq_some_iff.mp heq
  rw [raisedBy] at h
  split_ifs at h
  · cases interruption <;> cases h
  · cases interruption <;> cases h

theorem decodes_iff (loads : String → Option Json) (hempty : loads "" = none)
    (hdone : loads sseDone = none) (tooLong : List UInt8 → Bool) (profile : String) (timeout : ℕ)
    (sessionId : Option String) (errorText : String) (ending : Option Interruption)
    (content : List (List UInt8)) :
    Decodes loads tooLong profile timeout sessionId errorText ending content ↔
      ∀ raw ∈ content, tooLong raw = false ∧ DeltaIsObject loads raw := by
  constructor
  · intro h
    have hraised := h.raised
    rw [streamed_eq, readContent_raised hempty hdone, streamed_eq, readContent] at hraised
    cases hfirst : content.findSome? (raisedBy loads tooLong) with
    | none => exact nothing_raised_iff.mp hfirst
    | some err =>
      obtain ⟨raw, -, hraw⟩ := List.exists_of_findSome?_eq_some hfirst
      rw [hfirst, Option.some_or] at hraised
      exact absurd hraised.symm (raisedBy_ne_ending hraw)
  · intro h
    constructor
    · rw [streamed_eq, readContent_delivered hempty hdone h, streamed_eq, readContent]
    · rw [streamed_eq, readContent_delivered hempty hdone h]
    · intro front raw back hcontent hnone
      subst hcontent
      have hrest : ∀ other ∈ front ++ back,
          tooLong other = false ∧ DeltaIsObject loads other := by
        intro other hmem
        apply h other
        rcases List.mem_append.mp hmem with hfront | hback
        · exact List.mem_append_left _ hfront
        · exact List.mem_append_right _ (List.mem_cons_of_mem _ hback)
      rw [streamed_eq, streamed_eq, readContent_delivered hempty hdone h,
        readContent_delivered hempty hdone hrest, List.filterMap_append, List.filterMap_append,
        List.filterMap_cons_none hnone]

def nullDelta : String := "\x7b\"choices\":[\x7b\"delta\":null\x7d]\x7d"

def nullLoads (text : String) : Option Json :=
  if text = nullDelta then some (.obj [("choices", .arr [.obj [("delta", .null)]])]) else none

def nullLine : List UInt8 := frame nullDelta

/-- The limit of a reader, on the length of a line with its line break. -/
def exceeds (limit : ℕ) (raw : List UInt8) : Bool := limit < raw.length

theorem decodes_iff_null :
    Decodes nullLoads (exceeds 131072) "default" 60 none "" none
        [Utf8.ascii ": keep-alive\n", nullLine] ↔
      ∀ raw ∈ [Utf8.ascii ": keep-alive\n", nullLine],
        exceeds 131072 raw = false ∧ DeltaIsObject nullLoads raw :=
  decodes_iff nullLoads (by decide) (by decide) _ _ _ _ _ _ _

theorem not_decodes_null :
    ¬ ∀ (loads : String → Option Json) (tooLong : List UInt8 → Bool) (profile : String)
      (timeout : ℕ) (sessionId : Option String) (errorText : String)
      (ending : Option Interruption) (content : List (List UInt8)), loads "" = none →
        loads sseDone = none → (∀ raw ∈ content, tooLong raw = false) →
          Decodes loads tooLong profile timeout sessionId errorText ending content := by
  intro h
  have hraised := (h nullLoads (exceeds 131072) "default" 60 none "" none [nullLine] (by decide)
    (by decide) (by decide)).raised
  revert hraised
  decide

end Streams

end HermesConversation.Stream
