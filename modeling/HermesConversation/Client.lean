import HermesConversation.Library.Json

/-!
# Listing the models of a profile

One exchange with the gateway, by everything that may come of it: the transport fails, or a
response arrives whose status and body decide the rest. Exceptions are the errors of an
`Except`; `str(err)` travels with them.
-/

namespace HermesConversation.Client

open Library

inductive Raised where
  | timeout (text : String)
  | clientError (name text : String)
  | valueError (name text : String)
  | hermesAuthError (text : String)
  | hermesConnectionError (text : String)
  | configEntryAuthFailed (text : String)
  | configEntryNotReady (text : String)
  deriving DecidableEq

inductive Failure where
  | timeout (text : String)
  | clientError (name text : String)

def Failure.raised : Failure → Raised
  | .timeout text => .timeout text
  | .clientError name text => .clientError name text

inductive Body where
  | broken (failure : Failure)
  | wrongContentType (text : String)
  | empty
  | unparsable (name text : String)
  | parsed (value : Json)

/-- `errorText` is as for `raiseForStatus`. -/
inductive Exchange where
  | failed (failure : Failure)
  | response (status : ℕ) (errorText : String) (body : Body)

abbrev Fields := List (String × Json)

def unauthorized : ℕ := 401

def responseJson : Body → Except Raised Json
  | .broken failure => .error failure.raised
  | .wrongContentType text => .error (.clientError "ContentTypeError" text)
  | .empty => .ok .null
  | .unparsable name text => .error (.valueError name text)
  | .parsed value => .ok value

/-- `errorText` is the `str(err)` of the `ClientResponseError` that an error status is raised as. -/
def raiseForStatus (status : ℕ) (errorText : String) : Except Raised Unit :=
  if 400 ≤ status then .error (.clientError "ClientResponseError" errorText) else .ok ()

/-- What `_request` does under its handler. -/
def exchange : Exchange → Except Raised Fields
  | .failed failure => .error failure.raised
  | .response status errorText body =>
    if status = unauthorized then .error (.hermesAuthError "Hermes rejected the API key")
    else do
      raiseForStatus status errorText
      match ← responseJson body with
      | .obj fields => .ok fields
      | _ => .error (.hermesConnectionError "Malformed JSON response")

/-- `str(err) or type(err).__name__` -/
def describe (name text : String) : String := if text = "" then name else text

def rethrow : Raised → Raised
  | .timeout text => .hermesConnectionError (describe "TimeoutError" text)
  | .clientError name text => .hermesConnectionError (describe name text)
  | err => err

def request (x : Exchange) : Except Raised Fields := (exchange x).mapError rethrow

def modelId : Json → Option String
  | .obj item =>
    match item.lookup "id" with
    | some (.str id) => some id
    | _ => none
  | _ => none

def asyncListModels (x : Exchange) : Except Raised (List String) := do
  let payload ← request x
  match payload.lookup "data" with
  | some (.arr data) => .ok (data.filterMap modelId)
  | _ => .error (.hermesConnectionError "Malformed model list")

def asyncValidate (x : Exchange) : Except Raised (Option String) :=
  match asyncListModels x with
  | .ok _ => .ok none
  | .error (.hermesAuthError _) => .ok (some "invalid_auth")
  | .error (.hermesConnectionError _) => .ok (some "cannot_connect")
  | .error err => .error err

def checkModels (x : Exchange) : Except Raised (List String) :=
  match asyncListModels x with
  | .ok models => .ok models
  | .error (.hermesAuthError text) => .error (.configEntryAuthFailed text)
  | .error (.hermesConnectionError text) => .error (.configEntryNotReady text)
  | .error err => .error err

/-! ## What leaves the client -/

inductive Handled : Raised → Prop where
  | timeout (text : String) : Handled (.timeout text)
  | clientError (name text : String) : Handled (.clientError name text)

inductive HermesError : Raised → Prop where
  | auth (text : String) : HermesError (.hermesAuthError text)
  | connection (text : String) : HermesError (.hermesConnectionError text)

/-- A response that is no error, with a body of the right type that does not parse. -/
def Unparsable (x : Exchange) (err : Raised) : Prop :=
  ∃ status errorText name text, x = .response status errorText (.unparsable name text) ∧
    status < 400 ∧ err = .valueError name text

section Errors

variable {α β : Type} {x : Exchange} {err : Raised}

theorem bind_error_iff {r : Except Raised α} {f : α → Except Raised β} :
    (r >>= f) = .error err ↔ r = .error err ∨ ∃ a, r = .ok a ∧ f a = .error err := by
  cases r <;> simp [bind, Except.bind]

theorem failure_handled (failure : Failure) : Handled failure.raised := by
  cases failure with
  | timeout text => exact .timeout text
  | clientError name text => exact .clientError name text

theorem responseJson_error {body : Body} (h : responseJson body = .error err) :
    Handled err ∨ ∃ name text, body = .unparsable name text ∧ err = .valueError name text := by
  cases body with
  | broken failure =>
    obtain rfl := Except.error.inj h
    exact .inl (failure_handled failure)
  | wrongContentType text =>
    obtain rfl := Except.error.inj h
    exact .inl (.clientError _ _)
  | empty => cases h
  | unparsable name text =>
    obtain rfl := Except.error.inj h
    exact .inr ⟨name, text, rfl, rfl⟩
  | parsed value => cases h

theorem raiseForStatus_error {status : ℕ} {errorText : String}
    (h : raiseForStatus status errorText = .error err) : Handled err := by
  rw [raiseForStatus] at h
  split_ifs at h
  obtain rfl := Except.error.inj h
  exact .clientError _ _

theorem raiseForStatus_ok {status : ℕ} {errorText : String} {u : Unit}
    (h : raiseForStatus status errorText = .ok u) : status < 400 := by
  rw [raiseForStatus] at h
  split_ifs at h with hstatus
  exact not_le.mp hstatus

theorem exchange_error (h : exchange x = .error err) :
    Handled err ∨ HermesError err ∨ Unparsable x err := by
  cases x with
  | failed failure =>
    obtain rfl := Except.error.inj h
    exact .inl (failure_handled failure)
  | response status errorText body =>
    rw [exchange] at h
    split_ifs at h
    · obtain rfl := Except.error.inj h
      exact .inr (.inl (.auth _))
    · rcases bind_error_iff.mp h with hstatus | ⟨_, hstatus, hread⟩
      · exact .inl (raiseForStatus_error hstatus)
      · rcases bind_error_iff.mp hread with hjson | ⟨value, -, hvalue⟩
        · rcases responseJson_error hjson with hhandled | ⟨name, text, rfl, rfl⟩
          · exact .inl hhandled
          · exact .inr (.inr ⟨status, errorText, name, text, rfl, raiseForStatus_ok hstatus, rfl⟩)
        · cases value with
          | obj fields => cases hvalue
          | null | bool _ | num _ | str _ | arr _ =>
            obtain rfl := Except.error.inj hvalue
            exact .inr (.inl (.connection _))

theorem exchange_unparsable (h : Unparsable x err) : exchange x = .error err := by
  obtain ⟨status, errorText, name, text, rfl, hstatus, rfl⟩ := h
  have hauth : status ≠ unauthorized := by
    intro h
    rw [h] at hstatus
    exact absurd hstatus (by decide)
  rw [exchange, if_neg hauth, raiseForStatus, if_neg (not_le.mpr hstatus)]
  rfl

theorem rethrow_handled (h : Handled err) : HermesError (rethrow err) := by
  cases h with
  | timeout text => exact .connection _
  | clientError name text => exact .connection _

theorem rethrow_hermesError (h : HermesError err) : rethrow err = err := by
  cases h <;> rfl

theorem rethrow_unparsable (h : Unparsable x err) : rethrow err = err := by
  obtain ⟨_, _, _, _, -, -, rfl⟩ := h
  rfl

theorem request_error (h : request x = .error err) : HermesError err ∨ Unparsable x err := by
  rw [request] at h
  cases hx : exchange x with
  | ok fields =>
    rw [hx] at h
    cases h
  | error raised =>
    rw [hx] at h
    obtain rfl : rethrow raised = err := Except.error.inj h
    rcases exchange_error hx with hhandled | hhermes | hunparsable
    · exact .inl (rethrow_handled hhandled)
    · rw [rethrow_hermesError hhermes]
      exact .inl hhermes
    · rw [rethrow_unparsable hunparsable]
      exact .inr hunparsable

theorem asyncListModels_error (h : asyncListModels x = .error err) :
    HermesError err ∨ Unparsable x err := by
  rcases bind_error_iff.mp h with hrequest | ⟨payload, -, hdata⟩
  · exact request_error hrequest
  · split at hdata
    · cases hdata
    · obtain rfl := Except.error.inj hdata
      exact .inl (.connection _)

theorem asyncListModels_unparsable (h : Unparsable x err) : asyncListModels x = .error err := by
  refine bind_error_iff.mpr (.inl ?_)
  rw [request, exchange_unparsable h, Except.mapError, rethrow_unparsable h]

end Errors

/-! ## The error contract -/

structure InContract (x : Exchange) : Prop where
  list : ∀ err, asyncListModels x = .error err → HermesError err
  validate : ∃ answer ∈ [none, some "invalid_auth", some "cannot_connect"],
    asyncValidate x = .ok answer
  setup : ∀ err, checkModels x = .error err →
    (∃ text, err = .configEntryAuthFailed text) ∨ ∃ text, err = .configEntryNotReady text

theorem inContract_of_list {x : Exchange}
    (hlist : ∀ err, asyncListModels x = .error err → HermesError err) : InContract x := by
  refine ⟨hlist, ?_, ?_⟩
  · rw [asyncValidate]
    cases hx : asyncListModels x with
    | ok models => exact ⟨none, by simp, rfl⟩
    | error err =>
      cases hlist err hx with
      | auth text => exact ⟨some "invalid_auth", by simp, rfl⟩
      | connection text => exact ⟨some "cannot_connect", by simp, rfl⟩
  · intro err herr
    rw [checkModels] at herr
    cases hx : asyncListModels x with
    | ok models =>
      rw [hx] at herr
      cases herr
    | error raised =>
      rw [hx] at herr
      cases hlist raised hx with
      | auth text => exact .inl ⟨text, (Except.error.inj herr).symm⟩
      | connection text => exact .inr ⟨text, (Except.error.inj herr).symm⟩

theorem not_inContract {x : Exchange} {err : Raised} (h : Unparsable x err) : ¬ InContract x := by
  intro hcontract
  have hhermes := hcontract.list err (asyncListModels_unparsable h)
  obtain ⟨_, _, _, _, -, -, rfl⟩ := h
  cases hhermes

theorem inContract_iff (x : Exchange) : InContract x ↔ ¬ ∃ err, Unparsable x err := by
  constructor
  · intro hcontract hexists
    obtain ⟨err, hunparsable⟩ := hexists
    exact not_inContract hunparsable hcontract
  · intro hparsable
    refine inContract_of_list fun err herr => ?_
    rcases asyncListModels_error herr with hhermes | hunparsable
    · exact hhermes
    · exact absurd ⟨err, hunparsable⟩ hparsable

theorem not_inContract_truncated : ¬ ∀ x, InContract x := by
  intro h
  have hunparsable : Unparsable
      (.response 200 "" (.unparsable "JSONDecodeError" "Expecting value"))
      (.valueError "JSONDecodeError" "Expecting value") :=
    ⟨200, "", _, _, rfl, by decide, rfl⟩
  exact not_inContract hunparsable (h _)

end HermesConversation.Client
