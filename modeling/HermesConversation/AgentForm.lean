import HermesConversation.Client
import HermesConversation.Prompts

/-!
# The form of an agent

An option the agent does not store has a default in the form and another in the entity that
runs it. Editing fills in those of the form, where the default model is the first the gateway
lists at that moment.
-/

namespace HermesConversation.AgentForm

open Library Client

def defaultConversationName : String := "Hermes"
def defaultModel : String := "hermes-agent"
def defaultHouseState : Bool := true
def requestTimeout : Rat := 120
def minTimeout : Rat := 10
def maxTimeout : Rat := 300
def defaultSessionTimeout : Rat := 5
def minSessionTimeout : Rat := 0
def maxSessionTimeout : Rat := 1440
def secondsPerMinute : Rat := 60

structure Options where
  model : Option String
  prompt : Option String
  houseState : Option Bool
  timeout : Option Rat
  sessionTimeout : Option Rat

structure Agent where
  title : String
  data : Options

/-! ## The form -/

def selectSelector (options : List String) (value : String) : Option String :=
  if value ∈ options then some value else none

def templateSelector (parses : String → Bool) (value : String) : Option String :=
  if parses value then some (Text.trim value) else none

def numberSelector (least greatest value : Rat) : Option Rat :=
  if value < least ∨ greatest < value then none else some value

structure Field (α : Type) where
  default : α
  selector : α → Option α

/-- What a field sends when the form is submitted as shown, unless it is refused. -/
def Field.submitted {α : Type} (field : Field α) (suggested : Option α) : Option α :=
  field.selector (suggested.getD field.default)

def nameField : Field String := ⟨defaultConversationName, some⟩
def promptField (parses : String → Bool) : Field String :=
  ⟨Prompts.defaultPrompt, templateSelector parses⟩
def houseStateField : Field Bool := ⟨defaultHouseState, some⟩
def timeoutField : Field Rat := ⟨requestTimeout, numberSelector minTimeout maxTimeout⟩
def sessionTimeoutField : Field Rat :=
  ⟨defaultSessionTimeout, numberSelector minSessionTimeout maxSessionTimeout⟩

/-- A stored value that is no longer listed stays selectable. -/
def keepSelectable (current : Option String) (models : List String) : List String :=
  match current with
  | some current => if current ∉ models then current :: models else models
  | none => models

def offeredModels (listed : List String) (currentModel : Option String) : List String :=
  let current := currentModel.filter (· ≠ "")
  keepSelectable current (if listed = [] then [current.getD defaultModel] else listed)

theorem keepSelectable_ne_nil {models : List String} (h : models ≠ []) (current : Option String) :
    keepSelectable current models ≠ [] := by
  cases current with
  | none => exact h
  | some current =>
    rw [keepSelectable]
    split_ifs
    · exact h
    · exact List.cons_ne_nil _ _

theorem offeredModels_ne_nil (listed : List String) (currentModel : Option String) :
    offeredModels listed currentModel ≠ [] := by
  apply keepSelectable_ne_nil
  split_ifs with hempty
  · exact List.cons_ne_nil _ _
  · exact hempty

/-- What `_async_schema` varies: the rest of its fields are fixed. -/
structure Schema where
  models : List String
  offered : models ≠ []

def Schema.modelField (schema : Schema) : Field String :=
  ⟨schema.models.head schema.offered, selectSelector schema.models⟩

/-- A `HermesError` leaves the list empty; any other error goes on. -/
def listedModels (x : Exchange) : Except Raised (List String) :=
  match asyncListModels x with
  | .error (.hermesAuthError _) => .ok []
  | .error (.hermesConnectionError _) => .ok []
  | result => result

def schemaOf (listed : List String) (currentModel : Option String) : Schema :=
  ⟨offeredModels listed currentModel, offeredModels_ne_nil listed currentModel⟩

def asyncSchema (x : Exchange) (currentModel : Option String) : Except Raised Schema :=
  (listedModels x).map fun listed => schemaOf listed currentModel

structure Suggested where
  name : Option String
  data : Options

def suggestedOf : Option Agent → Suggested
  | none => ⟨none, ⟨none, none, none, none, none⟩⟩
  | some agent => ⟨some agent.title, agent.data⟩

structure Input where
  name : String
  model : String
  prompt : String
  houseState : Bool
  timeout : Rat
  sessionTimeout : Rat

def Input.data (input : Input) : Options :=
  ⟨some input.model, some input.prompt, some input.houseState, some input.timeout,
    some input.sessionTimeout⟩

def Schema.submitted (parses : String → Bool) (schema : Schema) (suggested : Suggested) :
    Option Input := do
  let name ← nameField.submitted suggested.name
  let model ← schema.modelField.submitted suggested.data.model
  let prompt ← (promptField parses).submitted suggested.data.prompt
  let houseState ← houseStateField.submitted suggested.data.houseState
  let timeout ← timeoutField.submitted suggested.data.timeout
  let sessionTimeout ← sessionTimeoutField.submitted suggested.data.sessionTimeout
  return { name, model, prompt, houseState, timeout, sessionTimeout }

inductive FlowResult where
  | abort (reason : String)
  | form (schema : Schema) (suggested : Suggested)
  | createEntry (agent : Agent)
  | update (agent : Agent)

/-- `subentry` is the agent to be edited, or none for a new one. -/
def asyncStepForm (loaded : Bool) (subentry : Option Agent) (x : Exchange)
    (userInput : Option Input) : Except Raised FlowResult :=
  if ¬loaded then .ok (.abort "entry_not_loaded")
  else
    match userInput with
    | some input =>
      let agent : Agent := ⟨input.name, input.data⟩
      .ok (if subentry.isNone then .createEntry agent else .update agent)
    | none =>
      let suggested := suggestedOf subentry
      (asyncSchema x suggested.data.model).map fun schema => .form schema suggested

/-- The agent after its form is opened and submitted as shown, the entry being loaded or not
at either step. -/
def edited (parses : String → Bool) (opening submitting : Bool) (x : Exchange) (agent : Agent) :
    Agent :=
  match asyncStepForm opening (some agent) x none with
  | .ok (.form schema suggested) =>
    match schema.submitted parses suggested with
    | some input =>
      match asyncStepForm submitting (some agent) x (some input) with
      | .ok (.update updated) => updated
      | _ => agent
    | none => agent
  | _ => agent

/-! ## The entity -/

def truncated (value : Rat) : ℤ := value.num.tdiv value.den

structure Behaviour where
  model : String
  prompt : Option String
  houseState : Bool
  timeout : ℤ
  idleTimeout : Rat

/-- What `HermesConversationEntity` makes of its options. -/
def behaviour (data : Options) : Behaviour where
  model := data.model.getD defaultModel
  prompt := data.prompt.filter (· ≠ "")
  houseState := data.houseState.getD defaultHouseState
  timeout := truncated (data.timeout.getD requestTimeout)
  idleTimeout := data.sessionTimeout.getD defaultSessionTimeout * secondsPerMinute

structure Options.Valid (parses : String → Bool) (data : Options) : Prop where
  prompt : ∀ value ∈ data.prompt, (promptField parses).selector value = some value
  timeout : ∀ value ∈ data.timeout, timeoutField.selector value = some value
  sessionTimeout : ∀ value ∈ data.sessionTimeout, sessionTimeoutField.selector value = some value

/-! ## What the form fills in -/

section Submitted

variable {parses : String → Bool} {data : Options} {x : Exchange} {listed : List String}

theorem Field.submitted_of_accepted {α : Type} {field : Field α}
    (hdefault : field.selector field.default = some field.default) {stored : Option α}
    (hstored : ∀ value ∈ stored, field.selector value = some value) :
    field.submitted stored = some (stored.getD field.default) := by
  cases stored with
  | none => exact hdefault
  | some value => exact hstored value rfl

theorem promptField_default (hparses : parses Prompts.defaultPrompt = true) :
    (promptField parses).selector Prompts.defaultPrompt = some Prompts.defaultPrompt := by
  simp only [promptField, templateSelector, hparses, Prompts.trim_defaultPrompt, if_true]

theorem timeoutField_default : timeoutField.selector requestTimeout = some requestTimeout := by
  decide

theorem sessionTimeoutField_default :
    sessionTimeoutField.selector defaultSessionTimeout = some defaultSessionTimeout := by
  decide

theorem mem_keepSelectable (current : String) (models : List String) :
    current ∈ keepSelectable (some current) models := by
  rw [keepSelectable]
  split_ifs with hmem
  · exact hmem
  · exact List.mem_cons_self

theorem mem_offeredModels {model : String} :
    model ∈ offeredModels listed (some model) ↔ (model = "" → "" ∈ listed) := by
  by_cases hmodel : model = ""
  · have hempty : (some "").filter (fun model : String => model ≠ "") = none := rfl
    rw [hmodel, offeredModels, hempty, keepSelectable]
    split_ifs with hlisted
    · rw [hlisted]
      decide
    · simp
  · have hcurrent : (some model).filter (fun model : String => model ≠ "") = some model := by
      simp [hmodel]
    rw [offeredModels, hcurrent]
    exact ⟨fun _ h => absurd h hmodel, fun _ => mem_keepSelectable _ _⟩

theorem head_offeredModels (h : offeredModels listed none ≠ []) :
    (offeredModels listed none).head h = listed.headD defaultModel := by
  cases listed with
  | nil => rfl
  | cons model listed => rfl

/-- The options after a submission as shown, with the model the form settles on. -/
def filled (model : String) (data : Options) : Options where
  model := some model
  prompt := some (data.prompt.getD Prompts.defaultPrompt)
  houseState := some (data.houseState.getD defaultHouseState)
  timeout := some (data.timeout.getD requestTimeout)
  sessionTimeout := some (data.sessionTimeout.getD defaultSessionTimeout)

theorem modelField_submitted (listed : List String) (stored : Option String) :
    (schemaOf listed stored).modelField.submitted stored =
      if stored = some "" → "" ∈ listed then some (stored.getD (listed.headD defaultModel))
      else none := by
  simp only [Field.submitted, Schema.modelField, selectSelector, schemaOf]
  cases stored with
  | none =>
    have hnone : (none : Option String) = some "" → "" ∈ listed := fun h => by cases h
    rw [Option.getD_none, Option.getD_none, if_pos (List.head_mem _), if_pos hnone,
      head_offeredModels]
  | some model => simp only [Option.getD_some, mem_offeredModels, Option.some.injEq]

theorem submitted_eq (hparses : parses Prompts.defaultPrompt = true) {agent : Agent}
    (hvalid : agent.data.Valid parses) (schema : Schema) :
    (schema.submitted parses (suggestedOf (some agent))).map
        (fun input => (⟨input.name, input.data⟩ : Agent)) =
      (schema.modelField.submitted agent.data.model).map fun model =>
        ⟨agent.title, filled model agent.data⟩ := by
  have hname : nameField.submitted (some agent.title) = some agent.title := rfl
  have hhouse : houseStateField.submitted agent.data.houseState =
      some (agent.data.houseState.getD defaultHouseState) := rfl
  have hprompt := Field.submitted_of_accepted (promptField_default hparses) hvalid.prompt
  have htimeout := Field.submitted_of_accepted timeoutField_default hvalid.timeout
  have hsession := Field.submitted_of_accepted sessionTimeoutField_default hvalid.sessionTimeout
  simp only [Schema.submitted, suggestedOf, hname, hhouse, hprompt, htimeout, hsession]
  cases schema.modelField.submitted agent.data.model with
  | none => rfl
  | some model => rfl

end Submitted

/-! ## What an edit leaves as it was -/

section Edited

variable {parses : String → Bool} {opening submitting : Bool} {x : Exchange} {agent : Agent}
  {listed : List String}

/-- The form opens with a listing, is accepted as shown and is written. -/
structure Saves (opening submitting : Bool) (x : Exchange) (agent : Agent) (listed : List String) :
    Prop where
  opened : opening = true
  submitted : submitting = true
  listing : listedModels x = .ok listed
  selectable : agent.data.model = some "" → "" ∈ listed

theorem edited_of_listing (hlisted : listedModels x = .ok listed) :
    edited parses true submitting x agent =
      match (schemaOf listed agent.data.model).submitted parses (suggestedOf (some agent)) with
      | some input => if submitting then ⟨input.name, input.data⟩ else agent
      | none => agent := by
  have hform : asyncStepForm true (some agent) x none =
      .ok (.form (schemaOf listed agent.data.model) (suggestedOf (some agent))) := by
    simp only [asyncStepForm, asyncSchema, suggestedOf, hlisted]
    rfl
  rw [edited, hform]
  cases submitting with
  | true => rfl
  | false => rfl

theorem edited_of_saves (hparses : parses Prompts.defaultPrompt = true)
    (hvalid : agent.data.Valid parses) (h : Saves opening submitting x agent listed) :
    edited parses opening submitting x agent =
      ⟨agent.title, filled (agent.data.model.getD (listed.headD defaultModel)) agent.data⟩ := by
  obtain ⟨rfl, rfl, hlisted, hselectable⟩ := h
  have hsubmitted := submitted_eq hparses hvalid (schemaOf listed agent.data.model)
  rw [modelField_submitted, if_pos hselectable, Option.map_some] at hsubmitted
  obtain ⟨input, hinput, hagent⟩ := Option.map_eq_some_iff.mp hsubmitted
  rw [edited_of_listing hlisted, hinput]
  exact hagent

theorem edited_of_not_saves (hparses : parses Prompts.defaultPrompt = true)
    (hvalid : agent.data.Valid parses) (h : ∀ listed, ¬Saves opening submitting x agent listed) :
    edited parses opening submitting x agent = agent := by
  cases opening with
  | false => rfl
  | true =>
    cases hlisted : listedModels x with
    | error err =>
      simp only [edited, asyncStepForm, asyncSchema, suggestedOf, hlisted]
      rfl
    | ok listed =>
      rw [edited_of_listing hlisted]
      cases submitting with
      | false =>
        split
        · rfl
        · rfl
      | true =>
        have hunselectable : ¬(agent.data.model = some "" → "" ∈ listed) :=
          fun hselectable => h listed ⟨rfl, rfl, hlisted, hselectable⟩
        have hsubmitted := submitted_eq hparses hvalid (schemaOf listed agent.data.model)
        rw [modelField_submitted, if_neg hunselectable, Option.map_none,
          Option.map_eq_none_iff] at hsubmitted
        rw [hsubmitted]

/-- The form and the entity read every option alike that their defaults agree on. -/
theorem behaviour_filled_iff (model : String) (data : Options) :
    behaviour (filled model data) = behaviour data ↔
      data.prompt.isSome ∧ model = data.model.getD defaultModel := by
  have hprompt : (filled model data).prompt.filter (· ≠ "") = data.prompt.filter (· ≠ "") ↔
      data.prompt.isSome := by
    cases hstored : data.prompt with
    | none => simp [filled, hstored, Option.filter, Prompts.defaultPrompt_ne_empty]
    | some value => simp [filled, hstored]
  rw [← hprompt]
  simp [behaviour, filled, and_comm]

/-- Whether an edit that changes nothing changes nothing of what the agent does. -/
theorem edited_behaviour_iff (parses : String → Bool)
    (hparses : parses Prompts.defaultPrompt = true) (agent : Agent)
    (hvalid : agent.data.Valid parses) (opening submitting : Bool) (x : Exchange) :
    behaviour (edited parses opening submitting x agent).data = behaviour agent.data ↔
      ∀ listed, Saves opening submitting x agent listed →
        agent.data.prompt.isSome ∧
          (agent.data.model.isSome ∨ listed.headD defaultModel = defaultModel) := by
  by_cases hsaves : ∃ listed, Saves opening submitting x agent listed
  · obtain ⟨listed, hsaves⟩ := hsaves
    have hlisting : ∀ other, Saves opening submitting x agent other → other = listed := by
      intro other hother
      exact Except.ok.inj (hother.listing.symm.trans hsaves.listing)
    have hmodel : agent.data.model.getD (listed.headD defaultModel) =
        agent.data.model.getD defaultModel ↔
          agent.data.model.isSome ∨ listed.headD defaultModel = defaultModel := by
      cases agent.data.model with
      | none => simp
      | some model => simp
    rw [edited_of_saves hparses hvalid hsaves, behaviour_filled_iff, hmodel]
    constructor
    · intro h other hother
      rw [hlisting other hother]
      exact h
    · intro h
      exact h listed hsaves
  · have hnever := not_exists.mp hsaves
    rw [edited_of_not_saves hparses hvalid hnever]
    exact ⟨fun _ listed h => absurd h (hnever listed), fun _ => rfl⟩

def firstAgent : Agent where
  title := defaultConversationName
  data := ⟨none, some Prompts.defaultPrompt, some defaultHouseState, none, none⟩

def listing (model : String) : Exchange :=
  .response 200 "" (.parsed (.obj [("data", .arr [.obj [("id", .str model)]])]))

theorem firstAgent_valid : firstAgent.data.Valid fun _ => true where
  prompt := by
    intro value hvalue
    obtain rfl := Option.some.inj hvalue
    exact promptField_default rfl
  timeout := by
    intro value hvalue
    cases hvalue
  sessionTimeout := by
    intro value hvalue
    cases hvalue

theorem edited_behaviour_iff_firstAgent :
    behaviour (edited (fun _ => true) true true (listing "home-assist") firstAgent).data =
        behaviour firstAgent.data ↔
      ∀ listed, Saves true true (listing "home-assist") firstAgent listed →
        firstAgent.data.prompt.isSome ∧
          (firstAgent.data.model.isSome ∨ listed.headD defaultModel = defaultModel) :=
  edited_behaviour_iff _ rfl firstAgent firstAgent_valid true true (listing "home-assist")

theorem not_unchanged_firstAgent :
    ¬ ∀ (parses : String → Bool) (x : Exchange) (agent : Agent),
      parses Prompts.defaultPrompt = true → agent.data.Valid parses →
        behaviour (edited parses true true x agent).data = behaviour agent.data := by
  intro h
  have hsame := h (fun _ => true) (listing "home-assist") firstAgent rfl firstAgent_valid
  have hmodel := congrArg Behaviour.model hsame
  revert hmodel
  decide

end Edited

end HermesConversation.AgentForm
