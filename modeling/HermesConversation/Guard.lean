import HermesConversation.Entities
import Mathlib.Data.Finset.Image
import Mathlib.Data.Finset.Sort

/-!
# The tool guard

A tool call is refused when the entities it could resolve to include a lock, an alarm panel or
a door. Which entity meets a constraint is left to a `Matcher`; a match is the conjunction of
the constraints that are given, or an error.
-/

namespace HermesConversation.Guard

open Library Entities

def allEntities : String := "all"

def refusal : String :=
  "Refused: this would act on a lock or a door. Locks, doors and garage " ++
    "doors are never controllable; report their state instead."

def unknownArgumentRefusal (names : String) : String :=
  "Refused: the guard does not recognise the argument(s) " ++ names ++ ". Retry without them."

def targetSlots : List String := ["name", "area", "floor", "domain", "device_class"]

/-- Arguments that affect an action but never select targets. -/
def nonTargetSlots : List String :=
  ["position", "color", "temperature", "brightness", "percentage", "volume_level", "volume_step",
    "is_volume_muted", "mode", "humidity", "state", "media_class", "search_query", "item",
    "todo_list", "status", "message", "response", "hours", "minutes", "seconds", "start_hours",
    "start_minutes", "start_seconds", "conversation_command", "calendar", "range"]

def readOnlyTools : List String :=
  ["GetLiveContext", "GetDateTime", "todo_get_items", "calendar_get_events"]

structure MatchTargetsConstraints where
  name : Option Json
  areaName : Option Json
  floorName : Option Json
  domains : Option (Finset Json)
  deviceClasses : Option (Finset Json)
  features : Option ℕ
  states : Option (List String)
  assistant : Option String
  allowDuplicateNames : Bool

/-- What each constraint demands of an entity, and which matches end in an error. -/
structure Matcher where
  named : Json → State → Bool
  inArea : Json → State → Bool
  onFloor : Json → State → Bool
  inDomains : Finset Json → State → Bool
  ofClasses : Finset Json → State → Bool
  hasFeatures : ℕ → State → Bool
  inStates : List String → State → Bool
  exposed : String → State → Bool
  raises : MatchTargetsConstraints → Bool

def Matcher.meets (m : Matcher) (c : MatchTargetsConstraints) (s : State) : Bool :=
  c.name.all (m.named · s) && c.areaName.all (m.inArea · s) && c.floorName.all (m.onFloor · s) &&
    c.domains.all (m.inDomains · s) && c.deviceClasses.all (m.ofClasses · s) &&
    c.features.all (m.hasFeatures · s) && c.states.all (m.inStates · s) &&
    c.assistant.all (m.exposed · s)

def asyncMatchTargets (m : Matcher) (house : House) (c : MatchTargetsConstraints) :
    Option (List State) :=
  if m.raises c then none else some (house.states.filter (m.meets c))

/-- The matcher as far as domains and device classes go, in a house where all is exposed. No
state is of an empty set of domains, and an empty set of classes is no constraint. -/
def plainMatcher : Matcher where
  named _ _ := true
  inArea _ _ := true
  onFloor _ _ := true
  inDomains domains s := .str s.domain ∈ domains
  ofClasses classes s := classes = ∅ || (s.attributes.lookup attrDeviceClass).any (· ∈ classes)
  hasFeatures _ _ := true
  inStates _ _ := true
  exposed _ _ := true
  raises _ := false

structure ServiceHandler where
  requiredDomains : Option (List String)
  requiredFeatures : Option ℕ
  requiredStates : Option (List String)

/-- `service` is there when the handler is a `DynamicServiceIntentHandler`. -/
structure IntentHandler where
  intentType : String
  service : Option ServiceHandler

structure Intents where
  handlers : List IntentHandler
  unique : (handlers.map IntentHandler.intentType).Nodup

structure Tool where
  name : String
  isAction : Bool

/-! ## The constraints -/

/-- `dict.get`, where a null is as good as nothing. -/
def argument (args : Dict) (slot : String) : Option Json :=
  (args.lookup slot).filter (· ≠ .null)

def asString : Json → Option String
  | .str s => some s
  | _ => none

def stringValues : Option Json → Option (List String)
  | some (.str s) => some [s]
  | some (.arr items) =>
    if items.all fun item => (asString item).isSome then some (items.filterMap asString) else none
  | _ => none

def stringSet (values : List String) : Finset Json := (values.map Json.str).toFinset

def serviceHandler (intents : Intents) (toolName : String) : Option ServiceHandler :=
  intents.handlers.findSome? fun handler =>
    if handler.intentType = toolName then handler.service else none

def nameConstraint (args : Dict) : Option Json :=
  (argument args "name").filter (· ≠ .str allEntities)

def handlerConstraints (intents : Intents) (toolName : String) (args : Dict)
    (assistant : Option String) : MatchTargetsConstraints :=
  let handler := serviceHandler intents toolName
  let domains := stringValues (argument args "domain")
  let domains := match handler with
    | some handler => if "domain" ∉ args then handler.requiredDomains else domains
    | none => domains
  { name := nameConstraint args
    areaName := argument args "area"
    floorName := argument args "floor"
    domains := domains.map stringSet
    deviceClasses := (stringValues (argument args "device_class")).map stringSet
    features := handler.bind ServiceHandler.requiredFeatures
    states := handler.bind ServiceHandler.requiredStates
    assistant
    allowDuplicateNames := true }

/-- `ensure_list`, by which the schema of a handler reads a selector. -/
def listify : Json → List Json
  | .null => []
  | .arr items => items
  | value => [value]

/-- The match the handler itself runs. -/
def ServiceHandler.constraints (handler : ServiceHandler) (args : Dict)
    (assistant : Option String) : MatchTargetsConstraints :=
  { name := nameConstraint args
    areaName := argument args "area"
    floorName := argument args "floor"
    domains := match args.lookup "domain" with
      | some value => some (listify value).toFinset
      | none => handler.requiredDomains.map stringSet
    deviceClasses := (args.lookup "device_class").map fun value => (listify value).toFinset
    features := handler.requiredFeatures
    states := handler.requiredStates
    assistant
    allowDuplicateNames := false }

/-! ## The call -/

def isForbidden (s : State) : Bool :=
  s.domain ∈ forbiddenDomains || (s.domain = coverDomain && s.classForbidden)

def unknownArguments (args : Dict) : Finset String :=
  args.keys.filter fun slot => slot ∉ targetSlots ∧ slot ∉ nonTargetSlots

def targetsForbidden (m : Matcher) (intents : Intents) (house : House) (toolName : String)
    (args : Dict) (assistant : Option String) : Bool :=
  if ¬∃ slot ∈ targetSlots, slot ∈ args then false
  else
    match asyncMatchTargets m house (handlerConstraints intents toolName args assistant) with
    | none => true
    | some matched => matched.any isForbidden

def selectsNoTargets (tool : Tool) : Bool := tool.name ∈ readOnlyTools || tool.isAction

inductive Outcome where
  | delegated
  | refused (error : String)
  deriving DecidableEq

def asyncCall (m : Matcher) (intents : Intents) (house : House) (tool : Tool) (args : Dict)
    (assistant : Option String) : Outcome :=
  if selectsNoTargets tool then .delegated
  else
    let unknown := unknownArguments args
    if unknown ≠ ∅ then
      .refused (unknownArgumentRefusal (Text.join ", " (unknown.sort (· ≤ ·))))
    else if targetsForbidden m intents house tool.name args assistant then .refused refusal
    else .delegated

section Call

variable {m : Matcher} {intents : Intents} {house : House} {tool : Tool} {args : Dict}
  {assistant : Option String}

theorem selectsNoTargets_eq_false_iff :
    selectsNoTargets tool = false ↔ tool.name ∉ readOnlyTools ∧ tool.isAction = false := by
  rw [selectsNoTargets, Bool.or_eq_false_iff, decide_eq_false_iff_not]

theorem asyncCall_delegated_iff : asyncCall m intents house tool args assistant = .delegated ↔
    selectsNoTargets tool = true ∨ (unknownArguments args = ∅ ∧
      targetsForbidden m intents house tool.name args assistant = false) := by
  simp only [asyncCall]
  split_ifs with hread hunknown hforbidden
  · simp [hread]
  · simp [hread, hunknown]
  · simp [hread, hforbidden]
  · simp only [hread, not_not.mp hunknown, Bool.not_eq_true _ ▸ hforbidden]
    simp

theorem targetsForbidden_untargeted (h : ¬∃ slot ∈ targetSlots, slot ∈ args) (toolName : String) :
    targetsForbidden m intents house toolName args assistant = false := by
  rw [targetsForbidden, if_pos h]

theorem targetsForbidden_eq_false_iff (h : ∃ slot ∈ targetSlots, slot ∈ args)
    {toolName : String} : targetsForbidden m intents house toolName args assistant = false ↔
      ∃ matched, asyncMatchTargets m house (handlerConstraints intents toolName args assistant) =
        some matched ∧ ∀ s ∈ matched, isForbidden s = false := by
  rw [targetsForbidden, if_neg (not_not.mpr h)]
  cases asyncMatchTargets m house (handlerConstraints intents toolName args assistant) with
  | none => simp
  | some matched => simp

end Call

end HermesConversation.Guard
