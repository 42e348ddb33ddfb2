import HermesConversation.Guard
import Mathlib.Data.List.Nodup

/-!
# The restricted API

Every tool of Assist behind the guard, and one more tool that announces. A call goes to the
first tool of its name, and the names of script tools are the user's choice.
-/

namespace HermesConversation.RestrictedApi

open Library Guard

def announceTool : String := "announce"

def announceDescription : String :=
  "Speak a message aloud on one Assist satellite. Use it to notify a room " ++
    "unprompted; a reply to the person you are talking to is spoken there " ++
    "already. Satellites that can announce: "

def noSatellites : String := "none right now"

def guardPrompt : String :=
  "\n\nYou cannot lock, unlock, open or close doors, garage doors or locks, " ++
    "and you cannot arm or disarm alarm panels. " ++
    "You can still report their state. Do not claim to have changed them."

structure Satellite where
  entityId : String
  name : String
  areaName : Option String

def Satellite.describe (satellite : Satellite) : String :=
  match satellite.areaName.filter (· ≠ "") with
  | some area => satellite.entityId ++ ": " ++ satellite.name ++ " in the " ++ area
  | none => satellite.entityId ++ ": " ++ satellite.name

def orNoSatellites (listed : String) : String := if listed = "" then noSatellites else listed

structure AssistTool extends Tool where
  description : Option String

inductive OfferedTool where
  | guarded (tool : AssistTool)
  | announce (description : String)

def OfferedTool.name : OfferedTool → String
  | .guarded tool => tool.name
  | .announce _ => announceTool

structure APIInstance (τ : Type) where
  apiPrompt : String
  tools : List τ

/-- `AnnounceTool(self.hass)` -/
def newAnnounceTool (satellites : List Satellite) : OfferedTool :=
  .announce (announceDescription ++
    orNoSatellites (Text.join "; " (satellites.map Satellite.describe)) ++ ".")

def asyncGetApiInstance (assist : APIInstance AssistTool) (satellites : List Satellite) :
    APIInstance OfferedTool where
  apiPrompt := assist.apiPrompt ++ guardPrompt
  tools := assist.tools.map .guarded ++ [newAnnounceTool satellites]

/-! ## Calls -/

structure ToolInput where
  toolName : String
  toolArgs : Dict

/-- The house as a call finds it; `invalid` words what a schema finds wrong. -/
structure Environment where
  matcher : Matcher
  intents : Intents
  house : Entities.House
  assistant : Option String
  satellites : List Satellite
  invalid : Dict → String

/-- What lies behind the tools: those of Assist, and the service that announces. -/
structure Effects (M : Type → Type) where
  assist : AssistTool → ToolInput → M Json
  announce : String → String → M Unit

def errorResponse (error : String) : Json := .obj [("error", .str error)]

/-- The arguments of the announce tool: two texts and nothing else, the message not empty. -/
def announceArguments (args : Dict) : Option (String × String) :=
  match args.lookup "satellite_id", args.lookup "message" with
  | some (.str satelliteId), some (.str message) =>
    if args.keys = {"satellite_id", "message"} ∧ message ≠ "" then some (satelliteId, message)
    else none
  | _, _ => none

section Calls

variable {M : Type → Type} [Monad M]

def guardedCall (env : Environment) (tool : Tool) (call : ToolInput → M Json)
    (input : ToolInput) : M Json :=
  match Guard.asyncCall env.matcher env.intents env.house tool input.toolArgs env.assistant with
  | .delegated => call input
  | .refused error => pure (errorResponse error)

def announceCall (env : Environment) (announce : String → String → M Unit) (args : Dict) :
    M Json :=
  match announceArguments args with
  | none => pure (errorResponse ("Invalid arguments: " ++ env.invalid args))
  | some (satelliteId, message) =>
    match env.satellites.find? fun satellite => satellite.entityId = satelliteId with
    | none =>
      let listed := Text.join ", " (env.satellites.map Satellite.entityId)
      pure (errorResponse ("Unknown satellite " ++ satelliteId ++ ". Choose one of: " ++
        orNoSatellites listed ++ "."))
    | some satellite => do
      announce satellite.entityId message
      return .obj [("success", .bool true), ("result", .str ("Announced on " ++ satellite.name))]

def OfferedTool.asyncCall (env : Environment) (effects : Effects M) (input : ToolInput) :
    OfferedTool → M Json
  | .guarded tool => guardedCall env tool.toTool (effects.assist tool) input
  | .announce _ => announceCall env effects.announce input.toolArgs

def APIInstance.toolNamed (api : APIInstance OfferedTool) (toolName : String) :
    Option OfferedTool :=
  api.tools.find? fun tool => tool.name = toolName

/-- No answer where no tool has the name. -/
def APIInstance.asyncCallTool (api : APIInstance OfferedTool) (env : Environment)
    (effects : Effects M) (input : ToolInput) : Option (M Json) :=
  (api.toolNamed input.toolName).map (OfferedTool.asyncCall env effects input)

end Calls

/-! ## What the restriction keeps -/

section Names

variable {assist : APIInstance AssistTool} {satellites : List Satellite} {tool : AssistTool}

theorem names_asyncGetApiInstance (assist : APIInstance AssistTool)
    (satellites : List Satellite) :
    (asyncGetApiInstance assist satellites).tools.map OfferedTool.name =
      assist.tools.map (fun tool => tool.name) ++ [announceTool] := by
  simp [asyncGetApiInstance, Function.comp_def, OfferedTool.name, newAnnounceTool]

theorem nodup_names_iff (h : (assist.tools.map fun tool => tool.name).Nodup) :
    ((asyncGetApiInstance assist satellites).tools.map OfferedTool.name).Nodup ↔
      announceTool ∉ assist.tools.map fun tool => tool.name := by
  rw [names_asyncGetApiInstance, List.nodup_append]
  constructor
  · intro hnodup hmem
    exact hnodup.2.2 announceTool hmem announceTool (List.mem_singleton_self _) rfl
  · intro hmem
    refine ⟨h, List.nodup_singleton _, ?_⟩
    intro name hname other hother heq
    rw [heq, List.mem_singleton.mp hother] at hname
    exact hmem hname

theorem find_guarded {tools : List AssistTool} (h : (tools.map fun tool => tool.name).Nodup)
    (htool : tool ∈ tools) :
    (tools.map OfferedTool.guarded).find? (fun offered => offered.name = tool.name) =
      some (.guarded tool) := by
  induction tools with
  | nil => cases htool
  | cons first rest ih =>
    rw [List.map_cons, List.nodup_cons] at h
    rw [List.map_cons]
    rcases List.mem_cons.mp htool with rfl | hrest
    · exact List.find?_cons_of_pos (by simp [OfferedTool.name])
    · have hne : first.name ≠ tool.name := by
        intro heq
        exact h.1 (heq ▸ List.mem_map_of_mem hrest)
      rw [List.find?_cons_of_neg (by simp [OfferedTool.name, hne])]
      exact ih h.2 hrest

theorem toolNamed_guarded (h : (assist.tools.map fun tool => tool.name).Nodup)
    (htool : tool ∈ assist.tools) :
    (asyncGetApiInstance assist satellites).toolNamed tool.name = some (.guarded tool) := by
  rw [APIInstance.toolNamed, asyncGetApiInstance, List.find?_append, find_guarded h htool]
  rfl

theorem toolNamed_announce (h : announceTool ∉ assist.tools.map fun tool => tool.name) :
    (asyncGetApiInstance assist satellites).toolNamed announceTool =
      some (newAnnounceTool satellites) := by
  have hguarded : (assist.tools.map OfferedTool.guarded).find?
      (fun offered => offered.name = announceTool) = none := by
    rw [List.find?_eq_none]
    intro offered hoffered hname
    obtain ⟨tool, htool, rfl⟩ := List.mem_map.mp hoffered
    exact h (of_decide_eq_true hname ▸ List.mem_map_of_mem htool)
  rw [APIInstance.toolNamed, asyncGetApiInstance, List.find?_append, hguarded]
  rfl

end Names

/-- Nothing of Assist is lost or hidden, and every call of it goes through the guard. -/
structure Complete (assist : APIInstance AssistTool) (satellites : List Satellite) : Prop where
  distinct : ((asyncGetApiInstance assist satellites).tools.map OfferedTool.name).Nodup
  guarded : ∀ tool ∈ assist.tools, ∀ {M : Type → Type} [Monad M] (env : Environment)
    (effects : Effects M) (args : Dict),
    (asyncGetApiInstance assist satellites).asyncCallTool env effects ⟨tool.name, args⟩ =
      some (guardedCall env tool.toTool (effects.assist tool) ⟨tool.name, args⟩)
  announces : ∀ {M : Type → Type} [Monad M] (env : Environment) (effects : Effects M)
    (args : Dict),
    (asyncGetApiInstance assist satellites).asyncCallTool env effects ⟨announceTool, args⟩ =
      some (announceCall env effects.announce args)

theorem complete_iff (assist : APIInstance AssistTool)
    (hnames : (assist.tools.map fun tool => tool.name).Nodup) (satellites : List Satellite) :
    Complete assist satellites ↔ announceTool ∉ assist.tools.map fun tool => tool.name := by
  constructor
  · intro h
    exact (nodup_names_iff hnames).mp h.distinct
  · intro h
    refine ⟨(nodup_names_iff hnames).mpr h, ?_, ?_⟩
    · intro tool htool M _ env effects args
      rw [APIInstance.asyncCallTool, toolNamed_guarded hnames htool]
      rfl
    · intro M _ env effects args
      rw [APIInstance.asyncCallTool, toolNamed_announce h]
      rfl

/-- A lamp switch and a script whose object id is the user's choice. -/
def withScript (objectId : String) : APIInstance AssistTool :=
  ⟨"", [⟨⟨"HassTurnOn", false⟩, none⟩, ⟨⟨objectId, true⟩, none⟩]⟩

theorem complete_bedtime : Complete (withScript "bedtime") [] :=
  (complete_iff (withScript "bedtime") (by decide) []).mpr (by decide)

theorem not_complete_announce :
    ¬ ∀ assist : APIInstance AssistTool, (assist.tools.map fun tool => tool.name).Nodup →
      ∀ satellites, Complete assist satellites := by
  intro h
  have hdistinct := (h (withScript announceTool) (by decide) []).distinct
  revert hdistinct
  decide

end HermesConversation.RestrictedApi
