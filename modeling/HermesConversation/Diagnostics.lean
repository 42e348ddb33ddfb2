import HermesConversation.Library.Redaction
import HermesConversation.SetupRuns
import Mathlib.Data.List.Forall2

/-!
# Diagnostics

What is pasted into a public issue thread: everything about an entry but its key, and whether
the boundaries are in force. `redact` stands for Home Assistant's `async_redact_data`.
-/

namespace HermesConversation.Diagnostics

open Library Redaction RestrictedGroup UserSync

def confApiKey : String := "api_key"
def toRedact : List String := [confApiKey]

abbrev Fields := List (String × Json)

structure Subentry where
  title : String
  subentryType : String
  data : Fields

/-- `runtimeData` is the client of a loaded entry, by what becomes of its request for models. -/
structure Entry where
  title : String
  data : Fields
  subentries : List Subentry
  hermesUser : Option String
  runtimeData : Option Client.Exchange

inductive Raised where
  | attributeError
  | client (err : Client.Raised)

structure PolicyInfo where
  supported : Bool
  groupPresent : Bool
  userManaged : Bool
  userExists : Bool
  userIsAdmin : Bool
  userInGroup : Bool
  forbiddenCovers : List String

def PolicyInfo.json (info : PolicyInfo) : Json :=
  .obj [("supported", .bool info.supported), ("group_present", .bool info.groupPresent),
    ("user_managed", .bool info.userManaged), ("user_exists", .bool info.userExists),
    ("user_is_admin", .bool info.userIsAdmin), ("user_in_group", .bool info.userInGroup),
    ("forbidden_covers", .arr (info.forbiddenCovers.map .str))]

def asyncPolicyInfo (hass : Hass) (hermesUser : Option String) : PolicyInfo :=
  let userId := hermesUser.getD noUser
  let user := if userId ≠ noUser then Membership.findUser hass userId else none
  { supported := hass.store.supported
    groupPresent := (getGroup hass).isSome
    userManaged := userId ≠ noUser
    userExists := user.isSome
    userIsAdmin := user.any isAdmin
    userInGroup := user.any fun user => user.groups = [groupId]
    forbiddenCovers := Entities.forbiddenCovers hass.house }

/-- An error that is none of the client's own goes on to the caller. -/
def asyncGatewayInfo (runtimeData : Option Client.Exchange) : Except Raised Json :=
  let failed (error detail : String) : Json :=
    .obj [("reachable", .bool false), ("error", .str error), ("detail", .str detail)]
  match runtimeData.map Client.asyncListModels with
  | none => .error .attributeError
  | some (.ok models) => .ok (.obj [("reachable", .bool true), ("models", .arr (models.map .str))])
  | some (.error (.hermesAuthError text)) => .ok (failed "HermesAuthError" text)
  | some (.error (.hermesConnectionError text)) => .ok (failed "HermesConnectionError" text)
  | some (.error err) => .error (.client err)

structure McpEntryInfo where
  selectedApis : List String
  restricted : Bool

structure McpInfo where
  configured : Bool
  entries : List McpEntryInfo
  restrictedApiSelected : Bool

def McpEntryInfo.json (info : McpEntryInfo) : Json :=
  .obj [("selected_apis", .arr (info.selectedApis.map .str)), ("restricted", .bool info.restricted)]

def McpInfo.json (info : McpInfo) : Json :=
  if info.configured then
    .obj [("configured", .bool true),
      ("selected_apis", .arr ((info.entries.flatMap McpEntryInfo.selectedApis).map .str)),
      ("restricted_api_selected", .bool info.restrictedApiSelected),
      ("entries", .arr (info.entries.map McpEntryInfo.json))]
  else
    .obj [("configured", .bool false),
      ("restricted_api_selected", .bool info.restrictedApiSelected)]

def mcpServerInfo (entries : List McpCheck.McpEntry) : McpInfo :=
  if entries = [] then ⟨false, [], false⟩
  else
    let entryInfo := entries.map fun entry =>
      (⟨McpCheck.selected entry.llmHassApi, McpCheck.mcpEntryIsRestricted entry⟩ : McpEntryInfo)
    ⟨true, entryInfo, entryInfo.all McpEntryInfo.restricted⟩

section Report

variable (redact : Json → Json)

def redactData (data : Fields) : Json := redact (.obj data)

def Subentry.json (subentry : Subentry) : Json :=
  .obj [("title", .str subentry.title), ("type", .str subentry.subentryType),
    ("data", redactData redact subentry.data)]

def asyncGetConfigEntryDiagnostics (hass : Hass) (mcp : List McpCheck.McpEntry) (entry : Entry) :
    Except Raised Json := do
  let hermes ← asyncGatewayInfo entry.runtimeData
  return .obj
    [("entry", .obj [("title", .str entry.title), ("data", redactData redact entry.data)]),
      ("agents", .arr (entry.subentries.map (Subentry.json redact))),
      ("hermes", hermes),
      ("mcp_server", (mcpServerInfo mcp).json),
      ("policy", (asyncPolicyInfo hass entry.hermesUser).json)]

end Report

/-! ## What is hidden -/

structure AlikeSubentry (a b : Subentry) : Prop where
  title : a.title = b.title
  subentryType : a.subentryType = b.subentryType
  data : AlikeFields toRedact a.data b.data

/-- Two entries that differ in nothing but their keys, wherever in their data these stand. -/
structure AlikeEntry (a b : Entry) : Prop where
  title : a.title = b.title
  data : AlikeFields toRedact a.data b.data
  subentries : List.Forall₂ AlikeSubentry a.subentries b.subentries

/-- An entry that is not loaded, or one whose gateway answers with what is no JSON. -/
def NoReport (entry : Entry) : Prop :=
  ∀ x, entry.runtimeData = some x → ∃ err, Client.Unparsable x err

section Hidden

variable {redact : Json → Json} {entry other : Entry}

theorem redactData_eq_iff (hr : Redacts toRedact redact) {a b : Fields} :
    redactData redact a = redactData redact b ↔ AlikeFields toRedact a b := by
  rw [redactData, redactData, redact_eq_iff hr]
  constructor
  · intro h
    cases h with
    | obj fields => exact fields
  · exact .obj

theorem subentry_json_eq_iff (hr : Redacts toRedact redact) {a b : Subentry} :
    a.json redact = b.json redact ↔ AlikeSubentry a b := by
  simp only [Subentry.json, Json.obj.injEq, List.cons.injEq, Prod.mk.injEq, Json.str.injEq,
    true_and, and_true, redactData_eq_iff hr]
  exact ⟨fun h => ⟨h.1, h.2.1, h.2.2⟩, fun h => ⟨h.title, h.subentryType, h.data⟩⟩

theorem agents_eq_iff (hr : Redacts toRedact redact) {as bs : List Subentry} :
    as.map (Subentry.json redact) = bs.map (Subentry.json redact) ↔
      List.Forall₂ AlikeSubentry as bs := by
  rw [← List.forall₂_eq_eq_eq, List.forall₂_map_left_iff, List.forall₂_map_right_iff]
  simp only [subentry_json_eq_iff hr]

theorem policyInfo_json_eq_iff {a b : PolicyInfo} : a.json = b.json ↔ a = b := by
  have hcovers : a.forbiddenCovers.map Json.str = b.forbiddenCovers.map Json.str ↔
      a.forbiddenCovers = b.forbiddenCovers :=
    (List.map_injective_iff.mpr fun _ _ h => Json.str.inj h).eq_iff
  cases a
  cases b
  simp only [PolicyInfo.json, Json.obj.injEq, List.cons.injEq, Prod.mk.injEq, Json.bool.injEq,
    Json.arr.injEq, true_and, and_true, PolicyInfo.mk.injEq, hcovers]

theorem gatewayInfo_error_iff :
    (∃ err, asyncGatewayInfo entry.runtimeData = .error err) ↔ NoReport entry := by
  rw [NoReport]
  cases entry.runtimeData with
  | none => exact iff_of_true ⟨.attributeError, rfl⟩ fun x hx => by cases hx
  | some x =>
    simp only [Option.some.injEq, forall_eq']
    constructor
    · intro h
      obtain ⟨err, herr⟩ := h
      cases hlisted : Client.asyncListModels x with
      | ok models => simp [asyncGatewayInfo, hlisted] at herr
      | error raised =>
        rcases Client.asyncListModels_error hlisted with hhermes | hunparsable
        · cases hhermes <;> simp [asyncGatewayInfo, hlisted] at herr
        · exact ⟨raised, hunparsable⟩
    · intro h
      obtain ⟨err, hunparsable⟩ := h
      have hlisted := Client.asyncListModels_unparsable hunparsable
      obtain ⟨status, errorText, name, text, -, -, rfl⟩ := hunparsable
      exact ⟨.client (.valueError name text), by simp [asyncGatewayInfo, hlisted]⟩

/-- Two entries are told apart by their reports exactly if there is more between them than their
keys: in what they hold, in what their gateways answer or in how their users stand. -/
theorem diagnostics_eq_iff (hr : Redacts toRedact redact) (hass : Hass)
    (mcp : List McpCheck.McpEntry) (entry other : Entry) :
    asyncGetConfigEntryDiagnostics redact hass mcp entry =
        asyncGetConfigEntryDiagnostics redact hass mcp other ↔
      asyncGatewayInfo entry.runtimeData = asyncGatewayInfo other.runtimeData ∧
        (NoReport entry ∨ AlikeEntry entry other ∧
          asyncPolicyInfo hass entry.hermesUser = asyncPolicyInfo hass other.hermesUser) := by
  rw [← gatewayInfo_error_iff]
  simp only [asyncGetConfigEntryDiagnostics]
  cases asyncGatewayInfo entry.runtimeData with
  | error err =>
    cases asyncGatewayInfo other.runtimeData with
    | error err' => simp [bind, Except.bind]
    | ok info' => simp [bind, Except.bind, pure, Except.pure]
  | ok info =>
    cases asyncGatewayInfo other.runtimeData with
    | error err' => simp [bind, Except.bind, pure, Except.pure]
    | ok info' =>
      simp only [bind, Except.bind, pure, Except.pure, Except.ok.injEq, Json.obj.injEq,
        List.cons.injEq, Prod.mk.injEq, Json.str.injEq, Json.arr.injEq, true_and, and_true,
        redactData_eq_iff hr, agents_eq_iff hr, policyInfo_json_eq_iff, reduceCtorEq,
        exists_false, false_or]
      constructor
      · intro h
        obtain ⟨⟨htitle, hdata⟩, hagents, hinfo, hpolicy⟩ := h
        exact ⟨hinfo, ⟨htitle, hdata, hagents⟩, hpolicy⟩
      · intro h
        obtain ⟨hinfo, halike, hpolicy⟩ := h
        exact ⟨⟨halike.title, halike.data⟩, halike.subentries, hinfo, hpolicy⟩

mutual

def redactKeys : Json → Json
  | .arr items => .arr (redactItems items)
  | .obj fields => .obj (redactFields fields)
  | value => value

def redactItems : List Json → List Json
  | [] => []
  | item :: items => redactKeys item :: redactItems items

def redactFields : List (String × Json) → List (String × Json)
  | [] => []
  | (key, value) :: fields =>
    (key, if blank value then value
      else if key ∈ toRedact then .str redacted
      else redactKeys value) :: redactFields fields

end

theorem redacts_redactKeys : Redacts toRedact redactKeys where
  null := by rw [redactKeys] <;> simp
  bool value := by rw [redactKeys] <;> simp
  num value := by rw [redactKeys] <;> simp
  str value := by rw [redactKeys] <;> simp
  arr items := by
    rw [redactKeys]
    congr
    induction items with
    | nil => rw [redactItems, List.map_nil]
    | cons item items ih => rw [redactItems, List.map_cons, ih]
  obj fields := by
    rw [redactKeys]
    congr
    induction fields with
    | nil => rw [redactFields, List.map_nil]
    | cons field fields ih =>
      rw [redactFields, List.map_cons, ih]
      rfl

def entryWith (apiKey : String) : Entry :=
  ⟨"Hermes home", [("base_url", .str "http://hermes:8642"), ("profile", .str "home"),
    (confApiKey, .str apiKey)], [⟨"Hermes", "conversation", [("llm_model", .str "home")]⟩], none,
    some Setup.noModels⟩

theorem diagnostics_eq_iff_rotated :
    asyncGetConfigEntryDiagnostics redactKeys Membership.retryWorld.hass [] (entryWith "old") =
        asyncGetConfigEntryDiagnostics redactKeys Membership.retryWorld.hass []
          (entryWith "new") ↔
      asyncGatewayInfo (some Setup.noModels) = asyncGatewayInfo (some Setup.noModels) ∧
        (NoReport (entryWith "old") ∨ AlikeEntry (entryWith "old") (entryWith "new") ∧
          asyncPolicyInfo Membership.retryWorld.hass none =
            asyncPolicyInfo Membership.retryWorld.hass none) :=
  diagnostics_eq_iff redacts_redactKeys Membership.retryWorld.hass [] _ _

end Hidden

/-! ## What is told -/

/-- The report and the repair agree on whether the boundary is bypassed. -/
def McpTold (w : Setup.World) : Prop :=
  Setup.mcpIssue ∈ w.sync.hass.issues ↔
    (mcpServerInfo w.mcp).configured = true ∧ (mcpServerInfo w.mcp).restrictedApiSelected = false

/-- Once no sync is to come, what the report of an entry says, if it has one, is that its user is in
the group if that can be managed, and of others there are none there. -/
def PolicyTold (w : Setup.World) : Prop :=
  Setup.Quiet w →
    (∀ entry ∈ w.sync.hass.entries, ∀ user,
      Membership.findUser w.sync.hass (entry.hermesUser.getD noUser) = some user →
      (asyncPolicyInfo w.sync.hass entry.hermesUser).userManaged = true →
      manageable user = true →
      (asyncPolicyInfo w.sync.hass entry.hermesUser).userInGroup = true) ∧
    ∀ user ∈ w.sync.hass.store.users, user.groups = [groupId] →
      ∃ entry ∈ w.sync.hass.entries, wantedUser entry = some user.id

section Told

open Setup

variable {w : World} {e : Event}

theorem bypassed_iff_report {m : McpCheck.World} : McpCheck.Bypassed m ↔
    (mcpServerInfo m.mcp).configured = true ∧
      (mcpServerInfo m.mcp).restrictedApiSelected = false := by
  rw [McpCheck.bypassed_iff, mcpServerInfo]
  by_cases hnone : m.mcp = []
  · rw [if_pos hnone, hnone]
    simp
  · have hall : (m.mcp.map fun entry => (⟨McpCheck.selected entry.llmHassApi,
        McpCheck.mcpEntryIsRestricted entry⟩ : McpEntryInfo)).all McpEntryInfo.restricted =
        m.mcp.all McpCheck.mcpEntryIsRestricted := List.all_map
    rw [if_neg hnone]
    dsimp only
    rw [hall, Bool.not_eq_true, and_iff_right rfl]

theorem mcpTold_iff : McpTold w ↔ McpCheck.Warned (mcpWorld w) := by
  rw [McpCheck.Warned, bypassed_iff_report]
  rfl

theorem mcpTold_checkMcp (w : World) : McpTold (checkMcp w) := by
  rw [mcpTold_iff, mcpWorld_checkMcp]
  exact McpCheck.asyncCheckMcpServer_warned

theorem McpTold.congr {w' : World} (h : McpTold w) (hmcp : w'.mcp = w.mcp)
    (hissue : mcpIssue ∈ w'.sync.hass.issues ↔ mcpIssue ∈ w.sync.hass.issues) : McpTold w' := by
  rw [McpTold, hmcp, hissue]
  exact h

theorem mem_mcpIssue_step (s : Membership.World) (e : Membership.Event) :
    mcpIssue ∈ (Membership.step s e).hass.issues ↔ mcpIssue ∈ s.hass.issues :=
  (mem_issues_step not_policy_mcp s e).trans
    (and_iff_left fun entryId _ => mcp_ne_profileIssue entryId)

theorem mcpTold_step (h : McpTold w) (e : Event) : McpTold (step w e) := by
  cases e with
  | hermes e =>
    rw [step]
    split_ifs
    · exact h.congr rfl (mem_mcpIssue_step w.sync e)
    · exact h
  | mcp e =>
    rw [step]
    split_ifs
    · exact mcpTold_checkMcp _
    · exact h
  | modelsListed id answer =>
    rw [step]
    split_ifs
    · cases Client.checkModels answer with
      | error err => exact h.congr rfl (mem_mcpIssue_step w.sync _)
      | ok models => exact mcpTold_checkMcp w
    · exact h
  | probed id probe forwarded =>
    rw [step]
    split_ifs
    · refine h.congr rfl ((mem_mcpIssue_step _ _).trans ?_)
      exact mem_asyncCheckProfileRouting (mcp_ne_profileIssue id)
    · exact h

theorem policyTold_of_settled (h : Settled w) : PolicyTold w := by
  intro hquiet
  have hright := h hquiet
  constructor
  · intro entry hentry user hfound hmanaged hmanageable
    have huser : user ∈ w.sync.hass.store.users := List.mem_of_find?_eq_some hfound
    have hid : user.id = entry.hermesUser.getD noUser := by simpa using List.find?_some hfound
    have hchosen : entry.hermesUser.getD noUser ≠ noUser := by
      simpa [asyncPolicyInfo] using hmanaged
    have hwanted : user.id ∈ wanted w.sync.hass.entries := by
      rw [wanted, List.mem_filterMap]
      refine ⟨entry, hentry, ?_⟩
      rw [wantedUser, hid]
      cases hstored : entry.hermesUser with
      | none => exact absurd (by rw [hstored]; rfl) hchosen
      | some userId =>
        rw [hstored] at hchosen
        exact Option.filter_eq_some_iff.mpr ⟨rfl, by simpa using hchosen⟩
    have hgroups : user.groups = [groupId] := (hright user huser).1 hwanted hmanageable
    simp [asyncPolicyInfo, hchosen, hfound, hgroups]
  · intro user huser hgroups
    by_contra hnone
    have hunwanted : user.id ∉ wanted w.sync.hass.entries := by
      intro hwanted
      obtain ⟨entry, hentry, hid⟩ := List.mem_filterMap.mp hwanted
      exact hnone ⟨entry, hentry, hid⟩
    apply (hright user huser).2 hunwanted
    rw [hgroups]
    exact List.mem_singleton_self groupId

/-- Whatever is set up, probed, changed or synced, the report and the repair go on agreeing about
the MCP entries; and the report tells the truth about the group whenever nothing is pending, as
long as no choice of a user goes unnoticed. -/
theorem reports_truthful (w : World) (h : Sound w) (hsettled : Settled w) (htold : McpTold w)
    (es : List Event) (hes : Runs.Guarded step KeepsSettled w es) :
    Runs.Throughout step (fun w => McpTold w ∧ PolicyTold w) w es := by
  have hstep : ∀ w e, (Sound w ∧ Settled w ∧ McpTold w) → KeepsSettled w e →
      Sound (step w e) ∧ Settled (step w e) ∧ McpTold (step w e) := by
    intro w e hw hkeeps
    obtain ⟨hsound, hsettled, htold⟩ := hw
    exact ⟨sound_step hsound e, (settled_step_iff hsound hsettled e).mpr hkeeps,
      mcpTold_step htold e⟩
  refine Runs.Throughout.imp ?_ (Runs.throughout_of_guarded hstep ⟨h, hsettled, htold⟩ hes)
  intro w hw
  exact ⟨hw.2.2, policyTold_of_settled hw.2.1⟩

theorem reports_truthful_retry :
    Runs.Throughout step (fun w => McpTold w ∧ PolicyTold w) retrySetup
      [.modelsListed "hub" noModels, .hermes (.setOptions "hub" (some "ada")),
        .probed "hub" (.answered httpNotFound) true] :=
  reports_truthful retrySetup sound_retrySetup settled_retrySetup
    (iff_of_false (by decide) (by decide)) _
    ⟨trivial, fun hidle => absurd hidle (by decide), trivial, trivial⟩

end Told

end HermesConversation.Diagnostics
