import HermesConversation.Library.Views
import HermesConversation.McpCheck
import HermesConversation.Membership

/-!
# Setups, and the repairs they share

One registry holds the repairs of three checks: the probe of a profile, the check of the MCP
entries and the sync of the users. A setup waits twice for its gateway, first for the models and
then for the probe, and everything else goes on meanwhile.
-/

namespace HermesConversation.Setup

open Library RestrictedGroup UserSync

/-! ## The probe -/

def httpOk : ℕ := 200
def httpNotFound : ℕ := 404

/-- What comes of asking for a profile nobody would configure. -/
inductive Probe where
  | failed (failure : Client.Failure)
  | answered (status : ℕ)

/-- `none` where the probe is inconclusive. -/
def asyncProfilePrefixHonoured : Probe → Option Bool
  | .failed _ => none
  | .answered status =>
    if status = httpNotFound then some true
    else if status = httpOk then some false
    else none

def profileIssue (entryId : String) : String := Membership.issueProfileIgnored ++ "_" ++ entryId

def asyncCheckProfileRouting (hass : Hass) (probe : Probe) (entryId : String) : Hass :=
  if asyncProfilePrefixHonoured probe ≠ some false then deleteIssue hass (profileIssue entryId)
  else createIssue hass (profileIssue entryId)

/-! ## The whole integration -/

/-- `probing` are the entries whose setup has got past the models and waits for the probe. -/
structure World where
  sync : Membership.World
  mcp : List McpCheck.McpEntry
  probing : List String

/-- `hermes` and `mcp` are the changes of entries and users, and what the loop gets round to.
`forwarded` says whether the platforms could be set up after the sync. -/
inductive Event where
  | hermes (e : Membership.Event)
  | mcp (e : McpCheck.Event)
  | modelsListed (entryId : String) (answer : Client.Exchange)
  | probed (entryId : String) (probe : Probe) (forwarded : Bool)

/-- A setup is run here from its two answers. It holds the lock of its entry, so that the entry
is neither unloaded nor removed under it. -/
def allowed (w : World) : Membership.Event → Bool
  | .setupSucceeds _ | .setupFails _ _ => false
  | .unload id | .removeEntry id => id ∉ w.probing
  | _ => true

def mcpChange : McpCheck.Event → Bool
  | .asyncSetup | .modelsAsked _ | .attemptEnded => false
  | _ => true

def mayBegin (w : World) (entryId : String) : Bool :=
  match Membership.findEntry w.sync.hass entryId with
  | none => false
  | some entry => !entry.loaded && entryId ∉ w.probing

/-- What is left of a setup once the profile is probed: the sync, and the platforms. -/
def setupEnds (entryId : String) (forwarded : Bool) : Membership.Event :=
  if forwarded then .setupSucceeds entryId else .setupFails entryId true

def mcpWorld (w : World) : McpCheck.World :=
  ⟨true, w.mcp, w.probing.length, w.sync.hass.issues⟩

def setIssues (w : World) (issues : Finset Issue) : World :=
  { w with sync := { w.sync with hass := { w.sync.hass with issues } } }

def checkMcp (w : World) : World := setIssues w (McpCheck.asyncCheckMcpServer (mcpWorld w)).issues

/-- The repair of older releases, about every profile at once, goes. -/
def asyncSetup (hass : Hass) (mcp : List McpCheck.McpEntry) : World :=
  ⟨⟨deleteIssue hass Membership.issueProfileIgnored, 0, false⟩, mcp, []⟩

def step (w : World) : Event → World
  | .hermes e => if allowed w e then { w with sync := Membership.step w.sync e } else w
  | .mcp e =>
    if mcpChange e && McpCheck.changesMcp (mcpWorld w) e then
      checkMcp { w with mcp := McpCheck.changedMcp (mcpWorld w) e }
    else w
  | .modelsListed id answer =>
    if mayBegin w id then
      match Client.checkModels answer with
      | .error _ => { w with sync := Membership.step w.sync (.setupFails id false) }
      | .ok _ => { checkMcp w with probing := w.probing ++ [id] }
    else w
  | .probed id probe forwarded =>
    if id ∈ w.probing then
      let sync := { w.sync with hass := asyncCheckProfileRouting w.sync.hass probe id }
      ⟨Membership.step sync (setupEnds id forwarded), w.mcp, w.probing.erase id⟩
    else w

/-! ## Whose repair it is -/

def Policy (issue : Issue) : Prop := issue.1 = domain ∧ "policy_".toList <+: issue.2.toList

instance (issue : Issue) : Decidable (Policy issue) := inferInstanceAs (Decidable (_ ∧ _))

def mcpIssue : Issue := (domain, McpCheck.issueUnrestrictedMcp)

def policyPart (hass : Hass) : Hass := { hass with issues := hass.issues.filter Policy }

/-- What reads and writes no repairs but those of the sync. -/
structure Policed (op : Hass → Hass) : Prop where
  part : ∀ hass, policyPart (op hass) = op (policyPart hass)
  rest : ∀ hass issue, ¬Policy issue → (issue ∈ (op hass).issues ↔ issue ∈ hass.issues)

section Policed

variable {hass : Hass} {key userId : String} {f g : Hass → Hass}

theorem policy_userIssue (hkey : key ∈ userIssues) (userId : String) :
    Policy (domain, userIssue key userId) := by
  refine ⟨rfl, ?_⟩
  have hstarts : ∀ key ∈ userIssues, "policy_".toList <+: key.toList := by decide
  rw [userIssue, String.toList_append, String.toList_append, List.append_assoc]
  exact (hstarts key hkey).trans (List.prefix_append _ _)

theorem policy_unsupported : Policy (domain, issuePolicyUnsupported) := by decide

theorem not_policy_profileIssue (entryId : String) : ¬Policy (domain, profileIssue entryId) := by
  intro h
  have hprofile := h.2
  rw [profileIssue, String.toList_append, String.toList_append, List.append_assoc] at hprofile
  have hfirst : "policy_".toList = 'p' :: 'o' :: "licy_".toList := by decide
  have hissue : Membership.issueProfileIgnored.toList = 'p' :: 'r' :: "ofile_ignored".toList := by
    decide
  rw [hfirst, hissue] at hprofile
  simp [List.cons_prefix_cons] at hprofile

theorem not_policy_mcp : ¬Policy mcpIssue := by decide

theorem Policed.comp (h : Policed f) (h' : Policed g) : Policed fun hass => g (f hass) := by
  constructor
  · intro hass
    rw [h'.part, h.part]
  · intro hass issue hissue
    rw [h'.rest _ issue hissue, h.rest hass issue hissue]

theorem policed_id : Policed fun hass => hass := ⟨fun _ => rfl, fun _ _ _ => Iff.rfl⟩

theorem Policed.ite {c : Prop} [Decidable c] (h : Policed f) (h' : Policed g) :
    Policed fun hass => if c then f hass else g hass := by
  split_ifs
  · exact h
  · exact h'

theorem policed_foldl {α : Type*} {f : Hass → α → Hass} (l : List α)
    (h : ∀ a ∈ l, Policed fun hass => f hass a) : Policed fun hass => l.foldl f hass := by
  induction l with
  | nil => exact policed_id
  | cons a l ih =>
    obtain ⟨ha, hl⟩ := List.forall_mem_cons.mp h
    exact ha.comp (ih hl)

theorem policed_createIssue (h : Policy (domain, key)) :
    Policed fun hass => createIssue hass key := by
  constructor
  · intro hass
    simp only [policyPart, createIssue, Finset.filter_insert, if_pos h]
  · intro hass issue hissue
    simp only [createIssue, Finset.mem_insert]
    apply or_iff_right
    intro hsame
    exact hissue (hsame ▸ h)

theorem policyPart_deleteIssue (hass : Hass) (key : String) :
    policyPart (deleteIssue hass key) = deleteIssue (policyPart hass) key := by
  simp only [policyPart, deleteIssue, Finset.filter_erase]

theorem policed_deleteIssue (h : Policy (domain, key)) :
    Policed fun hass => deleteIssue hass key := by
  refine ⟨fun hass => policyPart_deleteIssue hass key, ?_⟩
  intro hass issue hissue
  simp only [deleteIssue, Finset.mem_erase]
  apply and_iff_right
  intro hsame
  exact hissue (hsame ▸ h)

theorem policy_of_stale {names : List String} {issue : Issue}
    (h : staleIssue names issue = true) : Policy issue := by
  simp only [staleIssue, Bool.and_eq_true, decide_eq_true_eq] at h
  obtain ⟨⟨hdomain, hkey⟩, -⟩ := h
  have hstarts : ∀ key ∈ userIssues, "policy_".toList <+: key.toList := by decide
  exact ⟨hdomain, (hstarts _ hkey).trans (Text.rpartition_fst_prefix '_' issue.2)⟩

theorem policed_dropStaleIssues (names : List String) : Policed (dropStaleIssues names) := by
  constructor
  · intro hass
    simp only [policyPart, dropStaleIssues, Finset.filter_comm]
  · intro hass issue hissue
    simp only [dropStaleIssues, Finset.mem_filter]
    apply and_iff_left
    cases hstale : staleIssue names issue with
    | false => rfl
    | true => exact absurd (policy_of_stale hstale) hissue

theorem policed_store (update : AuthStore → AuthStore) :
    Policed fun hass => { hass with store := update hass.store } :=
  ⟨fun _ => rfl, fun _ _ _ => Iff.rfl⟩

theorem policed_asyncMove (user : User) (group : String) :
    Policed fun hass => asyncMove hass user group :=
  policed_store fun store => { store with
    users := store.users.map fun u => if u.id = user.id then { u with groups := [group] } else u }

theorem policed_setPolicy (policy : Option RestrictedPolicy.Policy) :
    Policed fun hass => setPolicy hass policy :=
  policed_store fun store => { store with restricted := policy }

theorem policed_asyncRestrict (user : User) : Policed fun hass => asyncRestrict hass user := by
  have hcleared : Policed fun hass => userIssues.foldl (fun hass key =>
      deleteIssue hass (userIssue key user.id)) hass :=
    policed_foldl userIssues fun key hkey => policed_deleteIssue (policy_userIssue hkey user.id)
  have hraised : Policed fun hass =>
      if isAdmin user then createIssue hass (userIssue issuePolicyUserAdmin user.id)
      else if !manageable user then createIssue hass (userIssue issuePolicyUserGroups user.id)
      else if user.groups ≠ [groupId] then asyncMove hass user groupId
      else hass := by
    apply Policed.ite
    · exact policed_createIssue (policy_userIssue (by decide) user.id)
    · apply Policed.ite
      · exact policed_createIssue (policy_userIssue (by decide) user.id)
      · exact Policed.ite (policed_asyncMove user groupId) policed_id
  exact hcleared.comp hraised

theorem policed_syncUser (names : List String) (user : User) :
    Policed fun hass => syncUser names hass user := by
  apply Policed.ite
  · exact policed_asyncRestrict user
  · exact Policed.ite (policed_asyncMove user groupIdUser) policed_id

theorem policed_ensure : Policed fun hass => (ensure hass).2 := by
  constructor
  · intro hass
    cases hsupported : hass.store.supported with
    | true =>
      have hpart : (policyPart hass).store.supported = true := hsupported
      rw [ensure_of_supported hsupported, ensure_of_supported hpart]
      exact (policed_setPolicy _).part _ |>.trans
        (congrArg (setPolicy · _) (policyPart_deleteIssue hass _))
    | false =>
      have hnot : ¬hass.store.supported = true := by rw [hsupported]; decide
      have hpart : ¬(policyPart hass).store.supported = true := hnot
      rw [ensure, ensure, if_neg hnot, if_neg hpart]
      exact (policed_createIssue policy_unsupported).part hass
  · intro hass issue hissue
    cases hsupported : hass.store.supported with
    | true =>
      rw [ensure_of_supported hsupported]
      exact (policed_deleteIssue policy_unsupported).rest hass issue hissue
    | false =>
      have hnot : ¬hass.store.supported = true := by rw [hsupported]; decide
      rw [ensure, if_neg hnot]
      exact (policed_createIssue policy_unsupported).rest hass issue hissue

theorem ensure_fst (hass : Hass) : (ensure hass).1 =
    if hass.store.supported then some (RestrictedPolicy.restrictedPolicy hass.house) else none := by
  rw [ensure]
  dsimp only
  split_ifs <;> rfl

theorem policed_reportMissing (names : List String) :
    Policed fun hass => names.foldl reportMissing hass := by
  have hmissing : issuePolicyUserMissing ∈ userIssues := by decide
  apply policed_foldl names
  intro name _
  constructor
  · intro hass
    have hsame : (policyPart hass).store = hass.store := rfl
    rw [reportMissing, reportMissing, hsame]
    split_ifs
    · rfl
    · exact (policed_createIssue (policy_userIssue hmissing name)).part hass
  · intro hass issue hissue
    rw [reportMissing]
    split_ifs
    · rfl
    · exact (policed_createIssue (policy_userIssue hmissing name)).rest hass issue hissue

def sweep (names : List String) (hass : Hass) : Hass :=
  let hass := hass.store.users.foldl (syncUser names) hass
  let hass := if names = [] then setPolicy hass none else hass
  names.foldl reportMissing hass

theorem policed_sweep (names : List String) : Policed (sweep names) := by
  have hrest : Policed fun hass =>
      names.foldl reportMissing (if names = [] then setPolicy hass none else hass) :=
    (Policed.ite (policed_setPolicy none) policed_id).comp (policed_reportMissing names)
  have hloop : ∀ users : List User, Policed fun hass => users.foldl (syncUser names) hass :=
    fun users => policed_foldl users fun user _ => policed_syncUser names user
  constructor
  · intro hass
    exact ((hloop hass.store.users).comp hrest).part hass
  · intro hass
    exact ((hloop hass.store.users).comp hrest).rest hass

theorem asyncSyncUsers_unnamed (h : wanted hass.entries = []) : asyncSyncUsers hass =
    if (getGroup hass).isSome then sweep [] (dropStaleIssues [] hass)
    else dropStaleIssues [] hass := by
  have hget : getGroup (dropStaleIssues [] hass) = getGroup hass := rfl
  simp only [asyncSyncUsers, h, ne_eq, not_true_eq_false, if_false, hget]
  cases getGroup hass with
  | none => rfl
  | some policy => rfl

theorem asyncSyncUsers_named (h : wanted hass.entries ≠ []) : asyncSyncUsers hass =
    let ensured := (ensure (dropStaleIssues (wanted hass.entries) hass)).2
    if hass.store.supported then sweep (wanted hass.entries) ensured else ensured := by
  have hfirst := ensure_fst (dropStaleIssues (wanted hass.entries) hass)
  simp only [asyncSyncUsers, if_pos h, if_neg h, sweep]
  have hsame : (dropStaleIssues (wanted hass.entries) hass).store = hass.store := rfl
  rw [hsame] at hfirst
  split_ifs at hfirst ⊢ with hsupported
  · rw [hfirst]
  · rw [hfirst]

theorem policed_asyncSyncUsers : Policed asyncSyncUsers := by
  have hunnamed : Policed fun hass => sweep [] (dropStaleIssues [] hass) :=
    (policed_dropStaleIssues []).comp (policed_sweep [])
  have hensured : ∀ names, Policed fun hass => (ensure (dropStaleIssues names hass)).2 :=
    fun names => (policed_dropStaleIssues names).comp policed_ensure
  have hnamed : ∀ names, Policed fun hass => sweep names (ensure (dropStaleIssues names hass)).2 :=
    fun names => (hensured names).comp (policed_sweep names)
  constructor
  · intro hass
    have hsame : wanted (policyPart hass).entries = wanted hass.entries := rfl
    have hget : getGroup (policyPart hass) = getGroup hass := rfl
    have hstore : (policyPart hass).store = hass.store := rfl
    by_cases hwanted : wanted hass.entries = []
    · rw [asyncSyncUsers_unnamed hwanted, asyncSyncUsers_unnamed (hsame.trans hwanted), hget]
      split_ifs
      · exact hunnamed.part hass
      · exact (policed_dropStaleIssues []).part hass
    · rw [asyncSyncUsers_named hwanted, asyncSyncUsers_named (hsame ▸ hwanted),
        hsame, hstore]
      dsimp only
      split_ifs
      · exact (hnamed _).part hass
      · exact (hensured _).part hass
  · intro hass issue hissue
    by_cases hwanted : wanted hass.entries = []
    · rw [asyncSyncUsers_unnamed hwanted]
      split_ifs
      · exact hunnamed.rest hass issue hissue
      · exact (policed_dropStaleIssues []).rest hass issue hissue
    · rw [asyncSyncUsers_named hwanted]
      dsimp only
      split_ifs
      · exact (hnamed _).rest hass issue hissue
      · exact (hensured _).rest hass issue hissue

end Policed

/-! ## Each check, seen alone -/

def mcpPart (m : McpCheck.World) : McpCheck.World :=
  { m with issues := m.issues.filter (· = mcpIssue) }

def syncPart (s : Membership.World) : Membership.World := { s with hass := policyPart s.hass }

/-- What an event is to the check of the MCP entries. -/
def mcpEvents (w : World) : Event → List McpCheck.Event
  | .hermes _ => []
  | .mcp e => if mcpChange e && McpCheck.changesMcp (mcpWorld w) e then [e] else []
  | .modelsListed id answer => if mayBegin w id then [.modelsAsked answer] else []
  | .probed id _ _ => if id ∈ w.probing then [.attemptEnded] else []

def syncEvents (w : World) : Event → List Membership.Event
  | .hermes e => if allowed w e then [e] else []
  | .mcp _ => []
  | .modelsListed id answer =>
    if mayBegin w id then
      match Client.checkModels answer with
      | .error _ => [.setupFails id false]
      | .ok _ => []
    else []
  | .probed id _ forwarded =>
    if id ∈ w.probing then [setupEnds id forwarded] else []

section Mcp

variable {m : McpCheck.World} {w : World} {e : Event} {issue : Issue}

theorem mcpPart_asyncCheckMcpServer (m : McpCheck.World) :
    mcpPart (McpCheck.asyncCheckMcpServer m) = McpCheck.asyncCheckMcpServer (mcpPart m) := by
  have hmcp : (mcpPart m).mcp = m.mcp := rfl
  simp only [McpCheck.asyncCheckMcpServer, hmcp]
  split_ifs
  · simp only [mcpPart, Finset.filter_erase]
  · simp only [mcpPart, Finset.filter_erase]
  · have hfilter : (insert mcpIssue m.issues).filter (· = mcpIssue) =
        insert mcpIssue (m.issues.filter (· = mcpIssue)) := by
      rw [Finset.filter_insert, if_pos rfl]
    exact congrArg (fun issues => { m with issues }) hfilter

theorem mem_issues_asyncCheckMcpServer (h : issue ≠ mcpIssue) :
    issue ∈ (McpCheck.asyncCheckMcpServer m).issues ↔ issue ∈ m.issues := by
  rw [McpCheck.asyncCheckMcpServer]
  split_ifs
  · exact Finset.mem_erase.trans (and_iff_right h)
  · exact Finset.mem_erase.trans (and_iff_right h)
  · exact Finset.mem_insert.trans (or_iff_right h)

theorem mcpWorld_checkMcp (w : World) :
    mcpWorld (checkMcp w) = McpCheck.asyncCheckMcpServer (mcpWorld w) := by
  rw [McpCheck.asyncCheckMcpServer]
  split_ifs with hnone hall
  · simp only [checkMcp, McpCheck.asyncCheckMcpServer, if_pos hnone]
    rfl
  · simp only [checkMcp, McpCheck.asyncCheckMcpServer, if_neg hnone, if_pos hall]
    rfl
  · simp only [checkMcp, McpCheck.asyncCheckMcpServer, if_neg hnone, if_neg hall]
    rfl

theorem mcpPart_of_issues {m' : McpCheck.World} (hmcp : m'.mcp = m.mcp)
    (hsetUp : m'.setUp = m.setUp) (hattempts : m'.attempts = m.attempts)
    (hissue : mcpIssue ∈ m'.issues ↔ mcpIssue ∈ m.issues) : mcpPart m' = mcpPart m := by
  have hissues : m'.issues.filter (· = mcpIssue) = m.issues.filter (· = mcpIssue) := by
    ext issue
    simp only [Finset.mem_filter]
    refine and_congr_left fun hsame => ?_
    rw [hsame]
    exact hissue
  simp only [mcpPart, hmcp, hsetUp, hattempts, hissues]

theorem changesMcp_mcpPart (m : McpCheck.World) (e : McpCheck.Event) :
    McpCheck.changesMcp (mcpPart m) e = McpCheck.changesMcp m e := by
  cases e <;> rfl

theorem changedMcp_mcpPart (m : McpCheck.World) (e : McpCheck.Event) :
    McpCheck.changedMcp (mcpPart m) e = McpCheck.changedMcp m e := by
  cases e <;> rfl

end Mcp

section Sync

variable {s : Membership.World} {issue : Issue}

theorem syncPart_step (s : Membership.World) (e : Membership.Event) :
    syncPart (Membership.step s e) = Membership.step (syncPart s) e := by
  have hentry : ∀ id, Membership.findEntry (syncPart s).hass id =
      Membership.findEntry s.hass id := fun _ => rfl
  have huser : ∀ id, Membership.findUser (syncPart s).hass id =
      Membership.findUser s.hass id := fun _ => rfl
  cases e with
  | addEntry id =>
    simp only [Membership.step, hentry]
    split <;> rfl
  | setOptions id hermesUser =>
    simp only [Membership.step, hentry]
    split
    · rfl
    · simp only [Membership.configEntryChanged]
      split_ifs <;> rfl
  | entryUpdated id =>
    simp only [Membership.step, hentry]
    split
    · rfl
    · simp only [Membership.configEntryChanged]
      split_ifs <;> rfl
  | setupSucceeds id =>
    simp only [Membership.step, hentry]
    split
    · rfl
    · have hsync := policed_asyncSyncUsers.part s.hass
      exact congrArg (fun hass => { s with hass := Membership.setLoaded hass id true }) hsync
  | setupFails id reached =>
    simp only [Membership.step, hentry]
    split
    · rfl
    · cases reached with
      | false => rfl
      | true =>
        have hsync := policed_asyncSyncUsers.part s.hass
        exact congrArg (fun hass => { s with hass := Membership.setLoaded hass id false }) hsync
  | unload id => rfl
  | removeEntry id =>
    simp only [Membership.step, hentry]
    split
    · rfl
    · exact congrArg (fun hass => (⟨hass, s.tasks + 1, s.debounced⟩ : Membership.World))
        (policyPart_deleteIssue (Membership.removeEntry s.hass id) _)
  | editUser id isActive groups =>
    have hknown : Membership.knownGroup (syncPart s).hass = Membership.knownGroup s.hass := rfl
    simp only [Membership.step, huser, hknown]
    split
    · rfl
    · split_ifs <;> rfl
  | deleteUser id =>
    simp only [Membership.step, huser]
    split <;> rfl
  | runTask =>
    have htasks : (syncPart s).tasks = s.tasks := rfl
    simp only [Membership.step, htasks]
    split
    · rfl
    · exact congrArg (fun hass => (⟨hass, _, s.debounced⟩ : Membership.World))
        (policed_asyncSyncUsers.part s.hass)
  | runDebounced =>
    have hdebounced : (syncPart s).debounced = s.debounced := rfl
    simp only [Membership.step, hdebounced]
    split_ifs
    · exact congrArg (fun hass => (⟨hass, s.tasks, false⟩ : Membership.World))
        (policed_asyncSyncUsers.part s.hass)
    · rfl

/-- The entry is removed, and its repair with it. -/
def Removes (s : Membership.World) (entryId : String) : Membership.Event → Prop
  | .removeEntry id => id = entryId ∧ (Membership.findEntry s.hass entryId).isSome = true
  | _ => False

theorem mem_issues_removeEntry (s : Membership.World) (id : String) :
    issue ∈ (Membership.step s (.removeEntry id)).hass.issues ↔ issue ∈ s.hass.issues ∧
      ∀ entryId, Removes s entryId (.removeEntry id) → issue ≠ (domain, profileIssue entryId) := by
  simp only [Membership.step, Removes]
  cases hfound : Membership.findEntry s.hass id with
  | none =>
    apply (and_iff_left _).symm
    intro entryId hremoved
    obtain ⟨rfl, hsome⟩ := hremoved
    rw [hfound] at hsome
    cases hsome
  | some entry =>
    have hid : entry.entryId = id := by simpa using List.find?_some hfound
    have herased : issue ∈ (s.hass.issues.erase (domain, profileIssue id)) ↔
        issue ≠ (domain, profileIssue id) ∧ issue ∈ s.hass.issues := Finset.mem_erase
    rw [and_comm] at herased
    simp only [Membership.configEntryChanged, hid]
    refine herased.trans (and_congr_right fun _ => ?_)
    constructor
    · intro hother entryId hremoved
      exact hremoved.1 ▸ hother
    · intro hall
      exact hall id ⟨rfl, by rw [hfound]; rfl⟩

theorem mem_issues_other (h : ¬Policy issue) (s : Membership.World) {e : Membership.Event}
    (he : ∀ id, e ≠ .removeEntry id) :
    issue ∈ (Membership.step s e).hass.issues ↔ issue ∈ s.hass.issues := by
  refine Membership.step_of_change (P := fun hass => issue ∈ hass.issues ↔ issue ∈ s.hass.issues)
    fun hass hchange => ?_
  cases hchange with
  | synced | setUp _ _ => exact policed_asyncSyncUsers.rest s.hass issue h
  | removed id _ event => exact absurd event (he id)
  | same | loaded _ _ | added _ | chosen _ _ _ | edited _ _ _ _ | deleted _ _ => rfl

/-- A repair that is not the sync's goes only with its entry. -/
theorem mem_issues_step (h : ¬Policy issue) (s : Membership.World) (e : Membership.Event) :
    issue ∈ (Membership.step s e).hass.issues ↔ issue ∈ s.hass.issues ∧
      ∀ entryId, Removes s entryId e → issue ≠ (domain, profileIssue entryId) := by
  cases e with
  | removeEntry id => exact mem_issues_removeEntry s id
  | addEntry _ | setOptions _ _ | entryUpdated _ | setupSucceeds _ | setupFails _ _ | unload _
  | editUser _ _ _ | deleteUser _ | runTask | runDebounced =>
    rw [mem_issues_other h s fun _ hremoved => by cases hremoved]
    exact (and_iff_left fun _ hremoved => hremoved.elim).symm

theorem mcp_ne_profileIssue (entryId : String) : mcpIssue ≠ (domain, profileIssue entryId) := by
  intro h
  have hchars := congrArg (fun issue : Issue => issue.2.toList.head?) h
  simp [mcpIssue, McpCheck.issueUnrestrictedMcp, profileIssue, Membership.issueProfileIgnored]
    at hchars

theorem mem_asyncCheckProfileRouting {hass : Hass} {probe : Probe} {entryId : String}
    (h : issue ≠ (domain, profileIssue entryId)) :
    issue ∈ (asyncCheckProfileRouting hass probe entryId).issues ↔ issue ∈ hass.issues := by
  rw [asyncCheckProfileRouting]
  split_ifs
  · exact Finset.mem_erase.trans (and_iff_right h)
  · exact Finset.mem_insert.trans (or_iff_right h)

theorem policyPart_asyncCheckProfileRouting (hass : Hass) (probe : Probe) (entryId : String) :
    policyPart (asyncCheckProfileRouting hass probe entryId) = policyPart hass := by
  have hissues : (asyncCheckProfileRouting hass probe entryId).issues.filter Policy =
      hass.issues.filter Policy := by
    ext issue
    simp only [Finset.mem_filter]
    refine and_congr_left fun hpolicy => mem_asyncCheckProfileRouting ?_
    intro hsame
    exact not_policy_profileIssue entryId (hsame ▸ hpolicy)
  rw [policyPart, hissues, asyncCheckProfileRouting]
  split_ifs <;> rfl

end Sync

section Views

variable {w : World} {issue : Issue}

theorem sync_checkMcp (w : World) : syncPart (checkMcp w).sync = syncPart w.sync := by
  have hissues : (checkMcp w).sync.hass.issues.filter Policy =
      w.sync.hass.issues.filter Policy := by
    ext issue
    simp only [Finset.mem_filter]
    refine and_congr_left fun hpolicy => mem_issues_asyncCheckMcpServer ?_
    intro hsame
    exact not_policy_mcp (hsame ▸ hpolicy)
  have hpart : policyPart (checkMcp w).sync.hass = policyPart w.sync.hass :=
    congrArg (fun issues => { w.sync.hass with issues }) hissues
  exact congrArg (fun hass => (⟨hass, w.sync.tasks, w.sync.debounced⟩ : Membership.World)) hpart

theorem mcpPart_sync (w : World) (e : Membership.Event) :
    mcpPart (mcpWorld { w with sync := Membership.step w.sync e }) = mcpPart (mcpWorld w) := by
  refine mcpPart_of_issues rfl rfl rfl ?_
  refine (mem_issues_step not_policy_mcp w.sync e).trans (and_iff_left ?_)
  intro entryId _
  exact mcp_ne_profileIssue entryId

theorem mcpStep_checked {m : McpCheck.World} {e : McpCheck.Event} (hsetUp : m.setUp = true)
    (h : McpCheck.changesMcp m e = true) :
    McpCheck.step m e = McpCheck.asyncCheckMcpServer { m with mcp := McpCheck.changedMcp m e } :=
  (McpCheck.step_change h).trans (if_pos hsetUp)

theorem mcpPart_changed (w : World) (e : McpCheck.Event) :
    mcpPart (mcpWorld (step w (.mcp e))) =
      Runs.run McpCheck.step (mcpPart (mcpWorld w)) (mcpEvents w (.mcp e)) := by
  simp only [step, mcpEvents]
  split_ifs with hchange
  · rw [Bool.and_eq_true] at hchange
    have hpart : McpCheck.changesMcp (mcpPart (mcpWorld w)) e = true :=
      (changesMcp_mcpPart _ e).trans hchange.2
    rw [Runs.run_cons, Runs.run_nil, mcpStep_checked rfl hpart, changedMcp_mcpPart,
      mcpWorld_checkMcp, mcpPart_asyncCheckMcpServer]
    rfl
  · rfl

theorem mcpPart_modelsListed (w : World) (id : String) (answer : Client.Exchange) :
    mcpPart (mcpWorld (step w (.modelsListed id answer))) =
      Runs.run McpCheck.step (mcpPart (mcpWorld w)) (mcpEvents w (.modelsListed id answer)) := by
  have hsetUp : (mcpPart (mcpWorld w)).setUp = true := rfl
  simp only [step, mcpEvents]
  split_ifs
  · rw [Runs.run_cons, Runs.run_nil]
    simp only [McpCheck.step, hsetUp, if_true]
    cases Client.checkModels answer with
    | error err => exact mcpPart_sync w _
    | ok models =>
      have hwhole : mcpWorld { checkMcp w with probing := w.probing ++ [id] } =
          { mcpWorld (checkMcp w) with attempts := w.probing.length + 1 } := by
        simp [mcpWorld, List.length_append]
      dsimp only
      rw [← mcpPart_asyncCheckMcpServer, ← mcpWorld_checkMcp, hwhole]
      rfl
  · rfl

theorem mcpPart_probed (w : World) (id : String) (probe : Probe) (forwarded : Bool) :
    mcpPart (mcpWorld (step w (.probed id probe forwarded))) =
      Runs.run McpCheck.step (mcpPart (mcpWorld w))
        (mcpEvents w (.probed id probe forwarded)) := by
  simp only [step, mcpEvents]
  split_ifs with hprobing
  · rw [Runs.run_cons, Runs.run_nil]
    have hissue := mem_issues_step not_policy_mcp
      { w.sync with hass := asyncCheckProfileRouting w.sync.hass probe id }
      (setupEnds id forwarded)
    rw [and_iff_left fun entryId _ => mcp_ne_profileIssue entryId] at hissue
    exact mcpPart_of_issues (m := { mcpWorld w with attempts := w.probing.length - 1 }) rfl rfl
      (List.length_erase_of_mem hprobing)
      (hissue.trans (mem_asyncCheckProfileRouting (mcp_ne_profileIssue id)))
  · rfl

def mcpView : Views.View step McpCheck.step where
  state w := mcpPart (mcpWorld w)
  events := mcpEvents
  step_state w e := by
    cases e with
    | hermes e =>
      rw [step]
      split_ifs
      · exact mcpPart_sync w e
      · rfl
    | mcp e => exact mcpPart_changed w e
    | modelsListed id answer => exact mcpPart_modelsListed w id answer
    | probed id probe forwarded => exact mcpPart_probed w id probe forwarded

def syncView : Views.View step Membership.step where
  state w := syncPart w.sync
  events := syncEvents
  step_state w e := by
    cases e with
    | hermes e =>
      simp only [step, syncEvents]
      split_ifs
      · exact syncPart_step w.sync e
      · rfl
    | mcp e =>
      simp only [step, syncEvents]
      split_ifs
      · exact sync_checkMcp _
      · rfl
    | modelsListed id answer =>
      simp only [step, syncEvents]
      split_ifs
      · cases Client.checkModels answer with
        | error err => exact syncPart_step w.sync _
        | ok models => exact sync_checkMcp w
      · rfl
    | probed id probe forwarded =>
      simp only [step, syncEvents]
      split_ifs
      · rw [syncPart_step]
        have hpart := policyPart_asyncCheckProfileRouting w.sync.hass probe id
        exact congrArg (fun hass => Membership.step ⟨hass, w.sync.tasks, w.sync.debounced⟩
          (setupEnds id forwarded)) hpart
      · rfl

/-- Apart from the changes the sync only sees setups end. -/
theorem syncEvents_cases {e : Event} {d : Membership.Event} (h : d ∈ syncEvents w e) :
    e = .hermes d ∨ (∃ id, d = .setupSucceeds id) ∨ ∃ id reached, d = .setupFails id reached := by
  cases e with
  | hermes e =>
    rw [syncEvents] at h
    split_ifs at h
    · exact .inl (congrArg Event.hermes (List.mem_singleton.mp h).symm)
    · cases h
  | mcp e => cases h
  | modelsListed id answer =>
    rw [syncEvents] at h
    split_ifs at h
    · cases hmodels : Client.checkModels answer with
      | error err =>
        rw [hmodels] at h
        exact .inr (.inr ⟨id, false, List.mem_singleton.mp h⟩)
      | ok models =>
        rw [hmodels] at h
        cases h
    · cases h
  | probed id probe forwarded =>
    rw [syncEvents] at h
    split_ifs at h
    · rw [List.mem_singleton] at h
      cases forwarded with
      | true => exact .inr (.inl ⟨id, h⟩)
      | false => exact .inr (.inr ⟨id, true, h⟩)
    · cases h

end Views

end HermesConversation.Setup
