import HermesConversation.Library.Grouping
import HermesConversation.Library.Sorting
import HermesConversation.Library.Views
import HermesConversation.RestrictedApi
import Mathlib.Algebra.Ring.Parity

/-!
# Satellites that can speak

A tool lists the satellites of the house it was assembled in, and a call looks again. Between
the two anything may happen to the house.
-/

namespace HermesConversation.Satellites

open Library RestrictedApi Sorting

def satelliteDomain : String := "assist_satellite"
def announceFeature : ℕ := 1

/-- A phone answers a call, it does not play announcements unprompted. -/
def excludedEntryDomains : List String := ["voip"]

structure RegistryEntry where
  supportedFeatures : ℕ
  configEntryId : Option String
  areaId : Option String
  deviceId : Option String

/-- The names of the live states, the entity registry, the areas of the devices, the names of
the areas and the domains of the config entries. -/
structure Hass where
  states : OrderedDict String String
  registry : OrderedDict String RegistryEntry
  devices : OrderedDict String (Option String)
  areas : OrderedDict String String
  configEntries : OrderedDict String String

def entityIds (hass : Hass) (domain : String) : List String :=
  hass.states.keys.filter fun entityId => Entities.domainOf entityId = domain

def entryDomain (hass : Hass) (entity : RegistryEntry) : Option String :=
  (entity.configEntryId.filter (· ≠ "")).bind hass.configEntries.get?

def areaName (hass : Hass) (entityId : String) : Option String :=
  match hass.registry.get? entityId with
  | none => none
  | some entity =>
    let deviceArea := (entity.deviceId.filter (· ≠ "")).bind fun id => (hass.devices.get? id).join
    (entity.areaId.or deviceArea).bind hass.areas.get?

/-- One turn of the loop: `none` where the satellite is passed over. -/
def satelliteAt (hass : Hass) (entityId : String) : Option Satellite :=
  match hass.registry.get? entityId with
  | none => none
  | some entry =>
    if entry.supportedFeatures &&& announceFeature = 0 then none
    else if (entryDomain hass entry).any (· ∈ excludedEntryDomains) then none
    else some ⟨entityId, (hass.states.get? entityId).getD entityId, areaName hass entityId⟩

def announceCapable (hass : Hass) : List Satellite :=
  (sortBy id (entityIds hass satelliteDomain)).filterMap (satelliteAt hass)

/-! ## Which satellites these are -/

/-- A live satellite that is registered, can announce and is no phone. -/
structure Capable (hass : Hass) (entityId : String) : Prop where
  live : entityId ∈ hass.states.keys
  satellite : Entities.domainOf entityId = satelliteDomain
  registered : ∃ entry, hass.registry.get? entityId = some entry ∧ Odd entry.supportedFeatures ∧
    entryDomain hass entry ≠ some "voip"

/-- The same house, its dictionaries in whatever order they have grown. -/
structure SameHouse (hass hass' : Hass) : Prop where
  states : hass'.states.items.Perm hass.states.items
  registry : hass'.registry.items.Perm hass.registry.items
  devices : hass'.devices.items.Perm hass.devices.items
  areas : hass'.areas.items.Perm hass.areas.items
  configEntries : hass'.configEntries.items.Perm hass.configEntries.items

section Capable

variable {hass hass' : Hass} {entityId : String} {satellite : Satellite}

theorem excluded_iff {entry : RegistryEntry} :
    (entryDomain hass entry).any (· ∈ excludedEntryDomains) = true ↔
      entryDomain hass entry = some "voip" := by
  cases entryDomain hass entry with
  | none => simp
  | some domain => simp [excludedEntryDomains]

theorem cannot_announce_iff {features : ℕ} : features &&& announceFeature = 0 ↔ ¬Odd features := by
  rw [announceFeature, Nat.and_one_is_mod, Nat.not_odd_iff]

theorem satelliteAt_isSome : (satelliteAt hass entityId).isSome = true ↔
    ∃ entry, hass.registry.get? entityId = some entry ∧ Odd entry.supportedFeatures ∧
      entryDomain hass entry ≠ some "voip" := by
  rw [satelliteAt]
  cases hass.registry.get? entityId with
  | none => simp
  | some entry =>
    simp only [Option.some.injEq, exists_eq_left']
    split_ifs with hsilent hphone
    · have hodd : ¬Odd entry.supportedFeatures := cannot_announce_iff.mp hsilent
      exact iff_of_false (by decide) fun h => hodd h.1
    · have hvoip : entryDomain hass entry = some "voip" := excluded_iff.mp hphone
      exact iff_of_false (by decide) fun h => h.2 hvoip
    · have hodd : Odd entry.supportedFeatures := by
        by_contra hodd
        exact hsilent (cannot_announce_iff.mpr hodd)
      exact iff_of_true rfl ⟨hodd, fun hvoip => hphone (excluded_iff.mpr hvoip)⟩

theorem satelliteAt_entityId (h : satelliteAt hass entityId = some satellite) :
    satellite.entityId = entityId := by
  rw [satelliteAt] at h
  split at h
  · cases h
  · split_ifs at h
    rw [← Option.some.inj h]

theorem mem_entityIds {domain : String} : entityId ∈ entityIds hass domain ↔
    entityId ∈ hass.states.keys ∧ Entities.domainOf entityId = domain := by
  rw [entityIds, List.mem_filter, decide_eq_true_eq]

theorem ids_announceCapable (hass : Hass) : (announceCapable hass).map Satellite.entityId =
    (sortBy id (entityIds hass satelliteDomain)).filter fun entityId =>
      (satelliteAt hass entityId).isSome := by
  rw [announceCapable, List.map_filterMap]
  induction sortBy id (entityIds hass satelliteDomain) with
  | nil => rfl
  | cons entityId ids ih =>
    cases hfound : satelliteAt hass entityId with
    | none =>
      have hpassed : (satelliteAt hass entityId).map Satellite.entityId = none := by
        rw [hfound]
        rfl
      rw [List.filterMap_cons, hpassed, ih, List.filter_cons_of_neg (by simp [hfound])]
    | some satellite =>
      have hlisted : (satelliteAt hass entityId).map Satellite.entityId = some entityId := by
        rw [hfound, Option.map_some, satelliteAt_entityId hfound]
      rw [List.filterMap_cons, hlisted, ih, List.filter_cons_of_pos (by simp [hfound])]

theorem mem_announceCapable :
    entityId ∈ (announceCapable hass).map Satellite.entityId ↔ Capable hass entityId := by
  rw [ids_announceCapable, List.mem_filter, mem_sortBy, mem_entityIds, satelliteAt_isSome]
  exact ⟨fun h => ⟨h.1.1, h.1.2, h.2⟩, fun h => ⟨⟨h.live, h.satellite⟩, h.registered⟩⟩

instance (hass : Hass) (entityId : String) : Decidable (Capable hass entityId) :=
  decidable_of_iff _ mem_announceCapable

theorem ascending_announceCapable (hass : Hass) :
    ((announceCapable hass).map Satellite.entityId).Pairwise (· < ·) := by
  rw [ids_announceCapable]
  have hnodup : (sortBy id (entityIds hass satelliteDomain)).Nodup :=
    (perm_sortBy id _).nodup_iff.mpr (hass.states.nodup_keys.filter _)
  apply List.Pairwise.filter
  refine ((pairwise_sortBy id _).and hnodup).imp ?_
  intro a b h
  exact lt_of_le_of_ne h.1 h.2

theorem satelliteAt_congr (h : SameHouse hass hass') : satelliteAt hass' = satelliteAt hass := by
  have hstates := OrderedDict.get?_of_perm h.states
  have hregistry := OrderedDict.get?_of_perm h.registry
  have hdevices := OrderedDict.get?_of_perm h.devices
  have hareas := OrderedDict.get?_of_perm h.areas
  have hentries := OrderedDict.get?_of_perm h.configEntries
  have hdomain : entryDomain hass' = entryDomain hass := by
    funext entity
    rw [entryDomain, entryDomain, hentries]
  have harea : areaName hass' = areaName hass := by
    funext entityId
    rw [areaName, areaName, hregistry, hdevices, hareas]
  funext entityId
  rw [satelliteAt, satelliteAt, hregistry, hstates, hdomain, harea]

theorem announceCapable_congr (h : SameHouse hass hass') :
    announceCapable hass' = announceCapable hass := by
  have hids : (entityIds hass' satelliteDomain).Perm (entityIds hass satelliteDomain) :=
    (h.states.map Prod.fst).filter _
  rw [announceCapable, announceCapable, satelliteAt_congr h,
    sortBy_eq_of_perm hids Function.injective_id]

/-- The satellites in ascending order, each once, those that can announce and no others, however
the registries have come about. -/
theorem announceCapable_exact (hass : Hass) :
    ((announceCapable hass).map Satellite.entityId).Pairwise (· < ·) ∧
      (∀ entityId, entityId ∈ (announceCapable hass).map Satellite.entityId ↔
        Capable hass entityId) ∧
      ∀ hass', SameHouse hass hass' → announceCapable hass' = announceCapable hass :=
  ⟨ascending_announceCapable hass, fun _ => mem_announceCapable, fun _ => announceCapable_congr⟩

end Capable

/-! ## Announcements -/

/-- What the announce service has been asked to say, and on which satellite. -/
abbrev Log := List (String × String)

structure Exception where
  name : String
  text : String
  deriving DecidableEq

/-- What a tool of Assist and the announce service return or raise while a call runs. -/
structure Services where
  assist : AssistTool → ToolInput → Except Exception Json
  announce : String → String → Except Exception Unit

abbrev Action := ExceptT Exception (StateM Log)

def say (services : Services) (entityId message : String) : Action Unit :=
  ExceptT.mk (modifyGet fun log =>
    (services.announce entityId message, log ++ [(entityId, message)]))

def effects (services : Services) : Effects Action :=
  ⟨fun tool input => ExceptT.mk (pure (services.assist tool input)), say services⟩

structure World where
  hass : Hass
  env : Environment
  api : APIInstance OfferedTool
  log : Log

inductive Event where
  | changed (hass : Hass) (env : Environment)
  | assembled
  | called (input : ToolInput) (services : Services)

def current (w : World) : Environment := { w.env with satellites := announceCapable w.hass }

def asked (hass : Hass) (args : Dict) : Log :=
  match announceArguments args with
  | none => []
  | some (satelliteId, message) =>
    if Capable hass satelliteId then [(satelliteId, message)] else []

def Succeeds (answer : Option (Except Exception Json)) : Prop :=
  ∃ result, answer = some (.ok (.obj [("success", .bool true), ("result", .str result)]))

def call (w : World) (services : Services) (input : ToolInput) :
    Option (Except Exception Json) × Log :=
  match w.api.asyncCallTool (current w) (effects services) input with
  | none => (none, w.log)
  | some action => (action.run.run w.log).map some id

section Calls

variable (assist : APIInstance AssistTool)

def step (w : World) : Event → World
  | .changed hass env => { w with hass, env }
  | .assembled => { w with api := asyncGetApiInstance assist (announceCapable w.hass) }
  | .called input services => { w with log := (call w services input).2 }

def Assembled (w : World) : Prop :=
  ∃ satellites, w.api = asyncGetApiInstance assist satellites

def spoken (w : World) : Event → Log
  | .called input _ => if input.toolName = announceTool then asked w.hass input.toolArgs else []
  | _ => []

variable {assist} {w : World} {args : Dict} {input : ToolInput} {services : Services} {hass : Hass}

theorem find_announceCapable_none {satelliteId : String}
    (h : (announceCapable hass).find? (fun satellite => satellite.entityId = satelliteId) = none) :
    ¬Capable hass satelliteId := by
  rw [← mem_announceCapable, List.mem_map]
  intro hlisted
  obtain ⟨satellite, hmem, hid⟩ := hlisted
  exact List.find?_eq_none.mp h satellite hmem (decide_eq_true hid)

theorem find_announceCapable_some {satelliteId : String} {satellite : Satellite}
    (h : (announceCapable hass).find? (fun satellite => satellite.entityId = satelliteId) =
      some satellite) : satellite.entityId = satelliteId ∧ Capable hass satelliteId := by
  have hid : satellite.entityId = satelliteId := by simpa using List.find?_some h
  refine ⟨hid, mem_announceCapable.mp ?_⟩
  exact hid ▸ List.mem_map_of_mem (List.mem_of_find?_eq_some h)

/-- A call of the tool asks the service at most once, and what the service does with that is what
the call comes to. -/
structure Announces (hass : Hass) (services : Services) (args : Dict) (log : Log)
    (answer : Except Exception Json × Log) : Prop where
  log : answer.2 = log ++ asked hass args
  succeeds_iff : Succeeds (some answer.1) ↔
    ∃ request ∈ asked hass args, services.announce request.1 request.2 = .ok ()
  raises_iff : ∀ err, answer.1 = .error err ↔
    ∃ request ∈ asked hass args, services.announce request.1 request.2 = .error err

theorem say_run (services : Services) (entityId message : String) (answer : Json) (log : Log) :
    (say services entityId message >>= fun _ => pure answer).run.run log =
      ((services.announce entityId message).map fun _ => answer, log ++ [(entityId, message)]) := by
  rw [say]
  cases services.announce entityId message with
  | ok u => rfl
  | error err => rfl

theorem announces_refused (hasked : asked hass args = []) (log : Log) (text : String) :
    Announces hass services args log (.ok (errorResponse text), log) := by
  constructor
  · rw [hasked, List.append_nil]
  · rw [hasked]
    simp [Succeeds, errorResponse]
  · rw [hasked]
    simp

theorem announces_call (w : World) (services : Services) (args : Dict) : Announces w.hass services
    args w.log ((announceCall (current w) (say services) args).run.run w.log) := by
  have hlisted : (current w).satellites = announceCapable w.hass := rfl
  rw [announceCall, hlisted]
  cases harguments : announceArguments args with
  | none => exact announces_refused (by rw [asked, harguments]) w.log _
  | some arguments =>
    obtain ⟨satelliteId, message⟩ := arguments
    dsimp only
    cases hfound : (announceCapable w.hass).find? fun s => s.entityId = satelliteId with
    | none =>
      have hasked : asked w.hass args = [] := by
        rw [asked, harguments]
        exact if_neg (find_announceCapable_none hfound)
      exact announces_refused hasked w.log _
    | some satellite =>
      obtain ⟨rfl, hcapable⟩ := find_announceCapable_some hfound
      have hasked : asked w.hass args = [(satellite.entityId, message)] := by
        rw [asked, harguments]
        exact if_pos hcapable
      rw [say_run]
      constructor
      · rw [hasked]
      · rw [hasked]
        cases hservice : services.announce satellite.entityId message with
        | ok u => simp [Succeeds, Except.map, hservice]
        | error err => simp [Succeeds, Except.map, hservice]
      · rw [hasked]
        cases hservice : services.announce satellite.entityId message with
        | ok u => simp [Except.map, hservice]
        | error err => simp [Except.map, hservice]

theorem call_announce (hnames : announceTool ∉ assist.tools.map fun tool => tool.name)
    (hw : Assembled assist w) (services : Services) (args : Dict) :
    call w services ⟨announceTool, args⟩ =
      ((announceCall (current w) (say services) args).run.run w.log).map some id := by
  obtain ⟨satellites, hapi⟩ := hw
  have htool : w.api.toolNamed announceTool = some (newAnnounceTool satellites) := by
    rw [hapi]
    exact toolNamed_announce hnames
  rw [call, APIInstance.asyncCallTool, htool]
  rfl

theorem guardedCall_log (env : Environment) (services : Services) (tool : AssistTool)
    (input : ToolInput) (log : Log) :
    ((guardedCall env tool.toTool ((effects services).assist tool) input).run.run log).2 = log := by
  rw [guardedCall]
  split <;> rfl

theorem call_other (w : World) (services : Services) (h : input.toolName ≠ announceTool) :
    (call w services input).2 = w.log := by
  rw [call, APIInstance.asyncCallTool]
  cases hfound : w.api.toolNamed input.toolName with
  | none => rfl
  | some offered =>
    have hname : offered.name = input.toolName := by simpa using List.find?_some hfound
    cases offered with
    | guarded tool => exact guardedCall_log (current w) services tool input w.log
    | announce description => exact absurd hname.symm h

theorem call_log (hnames : announceTool ∉ assist.tools.map fun tool => tool.name)
    (hw : Assembled assist w) (services : Services) (input : ToolInput) :
    (call w services input).2 = w.log ++ spoken w (.called input services) := by
  obtain ⟨toolName, args⟩ := input
  rw [spoken]
  split_ifs with hname
  · dsimp only at hname
    rw [hname, call_announce hnames hw]
    exact (announces_call w services args).log
  · rw [call_other w services hname, List.append_nil]

theorem assembled_step (hw : Assembled assist w) (e : Event) :
    Assembled assist (step assist w e) := by
  cases e with
  | changed hass env => exact hw
  | assembled => exact ⟨announceCapable w.hass, rfl⟩
  | called input services => exact hw

theorem log_step (hnames : announceTool ∉ assist.tools.map fun tool => tool.name)
    (hw : Assembled assist w) (e : Event) : (step assist w e).log = w.log ++ spoken w e := by
  cases e with
  | changed hass env => exact (List.append_nil _).symm
  | assembled => exact (List.append_nil _).symm
  | called input services => exact call_log hnames hw services input

def kitchenId : String := "assist_satellite.kitchen"

def kitchen : Hass where
  states := ⟨[(kitchenId, "Kitchen Voice")], by decide⟩
  registry := ⟨[(kitchenId, ⟨announceFeature, none, none, none⟩)], by decide⟩
  devices := OrderedDict.empty
  areas := OrderedDict.empty
  configEntries := OrderedDict.empty

def nothingLeft : Hass :=
  ⟨OrderedDict.empty, OrderedDict.empty, OrderedDict.empty, OrderedDict.empty, OrderedDict.empty⟩

def plainEnvironment : Environment where
  matcher := Guard.plainMatcher
  intents := ⟨[], by decide⟩
  house := ⟨[], []⟩
  assistant := none
  satellites := []
  invalid _ := ""

def noTools : APIInstance AssistTool := ⟨"", []⟩

def kitchenWorld : World :=
  ⟨kitchen, plainEnvironment, asyncGetApiInstance noTools (announceCapable kitchen), []⟩

def dinner : ToolInput :=
  ⟨announceTool, Finmap.singleton "satellite_id" (.str kitchenId) ∪
    Finmap.singleton "message" (.str "Dinner")⟩

def working : Services := ⟨fun _ _ => .ok .null, fun _ _ => .ok ()⟩

def busy : Services :=
  ⟨fun _ _ => .ok .null, fun _ _ => .error ⟨"SatelliteBusyError", ""⟩⟩

def dinnerEvents : List Event :=
  [.called dinner working, .changed nothingLeft plainEnvironment, .called dinner working,
    .assembled, .changed kitchen plainEnvironment]

example : asked kitchen dinner.toolArgs = [(kitchenId, "Dinner")] := by decide

end Calls

end HermesConversation.Satellites
