import HermesConversation.Setup

/-!
# Whole runs of the integration

What is told of a profile, and who is in the group, with setups of any number of entries under
way at once. A setup that waits for its probe has its sync still to come.
-/

namespace HermesConversation.Setup

open Library RestrictedGroup UserSync

/-! ## What is told of a profile -/

def Warned (entryId : String) (w : World) : Prop :=
  (domain, profileIssue entryId) ∈ w.sync.hass.issues

/-- A setup of the entry finds a profile served that does not exist. -/
def Ignored (entryId : String) (w : World) : Event → Prop
  | .probed id probe _ => id = entryId ∧ entryId ∈ w.probing ∧ probe = .answered httpOk
  | _ => False

/-- A setup of the entry finds anything else, or the entry is removed. -/
def Cleared (entryId : String) (w : World) : Event → Prop
  | .probed id probe _ => id = entryId ∧ entryId ∈ w.probing ∧ probe ≠ .answered httpOk
  | .hermes e => allowed w e = true ∧ Removes w.sync entryId e
  | _ => False

structure Foreign (issue : Issue) : Prop where
  policy : ¬Policy issue
  mcp : issue ≠ mcpIssue
  profile : ∀ entryId, issue ≠ (domain, profileIssue entryId)

section Runs

variable {w : World} {e : Event} {issue : Issue} {entryId : String}

theorem profilePrefix_ignored_iff {probe : Probe} :
    asyncProfilePrefixHonoured probe = some false ↔ probe = .answered httpOk := by
  cases probe with
  | failed failure => simp [asyncProfilePrefixHonoured]
  | answered status =>
    rw [asyncProfilePrefixHonoured, Probe.answered.injEq]
    split_ifs with hmissing hserved
    · rw [hmissing]
      decide
    · exact iff_of_true rfl hserved
    · exact iff_of_false (by decide) hserved

theorem profileIssue_inj {id : String} : profileIssue entryId = profileIssue id ↔ entryId = id := by
  refine ⟨fun h => ?_, congrArg profileIssue⟩
  have hchars := congrArg String.toList h
  simp only [profileIssue, String.toList_append] at hchars
  exact String.toList_inj.mp (List.append_cancel_left hchars)

theorem mem_profileIssue_routing {hass : Hass} {probe : Probe} :
    (domain, profileIssue entryId) ∈ (asyncCheckProfileRouting hass probe entryId).issues ↔
      probe = .answered httpOk := by
  rw [asyncCheckProfileRouting, ← profilePrefix_ignored_iff]
  split_ifs with hfine
  · exact iff_of_false (Finset.notMem_erase _ _) hfine
  · exact iff_of_true (Finset.mem_insert_self _ _) (not_not.mp hfine)

theorem not_removes_setupEnds {s : Membership.World} {id : String} {forwarded : Bool} :
    ¬Removes s entryId (setupEnds id forwarded) := by
  cases forwarded <;> exact fun h => h

theorem mem_issues_probed {s : Membership.World} {id : String} {forwarded : Bool}
    (h : ¬Policy issue) :
    issue ∈ (Membership.step s (setupEnds id forwarded)).hass.issues ↔ issue ∈ s.hass.issues :=
  (mem_issues_step h s _).trans
    (and_iff_left fun _ hremoved => absurd hremoved not_removes_setupEnds)

theorem mem_issues_checkMcp (h : issue ≠ mcpIssue) :
    issue ∈ (checkMcp w).sync.hass.issues ↔ issue ∈ w.sync.hass.issues :=
  mem_issues_asyncCheckMcpServer h

theorem warned_probed (id : String) (probe : Probe) (forwarded : Bool) :
    Warned entryId (step w (.probed id probe forwarded)) ↔
      Ignored entryId w (.probed id probe forwarded) ∨
        Warned entryId w ∧ ¬Cleared entryId w (.probed id probe forwarded) := by
  simp only [Warned, Ignored, Cleared, step]
  split_ifs with hprobing
  · rw [mem_issues_probed (not_policy_profileIssue entryId)]
    by_cases hid : id = entryId
    · subst hid
      rw [mem_profileIssue_routing]
      simp [hprobing]
    · have hother : ((domain, profileIssue entryId) : Issue) ≠ (domain, profileIssue id) := by
        intro hsame
        exact hid (profileIssue_inj.mp (Prod.ext_iff.mp hsame).2).symm
      rw [mem_asyncCheckProfileRouting hother]
      simp [hid]
  · have hnone : ∀ p : Prop, ¬(id = entryId ∧ entryId ∈ w.probing ∧ p) := by
      intro p hall
      obtain ⟨rfl, hmem, -⟩ := hall
      exact hprobing hmem
    simp only [hnone, not_false_eq_true, and_true, false_or]

theorem warned_step (entryId : String) (w : World) (e : Event) :
    Warned entryId (step w e) ↔
      Ignored entryId w e ∨ Warned entryId w ∧ ¬Cleared entryId w e := by
  have hmcp : ((domain, profileIssue entryId) : Issue) ≠ mcpIssue :=
    (mcp_ne_profileIssue entryId).symm
  cases e with
  | probed id probe forwarded => exact warned_probed id probe forwarded
  | hermes e =>
    rw [or_iff_right (show ¬Ignored entryId w (.hermes e) from fun h => h)]
    simp only [Warned, Cleared, step]
    split_ifs with hallowed
    · rw [mem_issues_step (not_policy_profileIssue entryId)]
      refine and_congr_right fun _ => ⟨fun h hcleared => h entryId hcleared.2 rfl, ?_⟩
      intro hkept id hremoved hsame
      obtain rfl := profileIssue_inj.mp (Prod.ext_iff.mp hsame).2
      exact hkept ⟨hallowed, hremoved⟩
    · exact (and_iff_left fun hcleared => hallowed hcleared.1).symm
  | mcp e =>
    rw [or_iff_right (show ¬Ignored entryId w (.mcp e) from fun h => h),
      and_iff_left (show ¬Cleared entryId w (.mcp e) from fun h => h)]
    simp only [Warned, step]
    split_ifs
    · exact mem_issues_checkMcp hmcp
    · rfl
  | modelsListed id answer =>
    rw [or_iff_right (show ¬Ignored entryId w (.modelsListed id answer) from fun h => h),
      and_iff_left (show ¬Cleared entryId w (.modelsListed id answer) from fun h => h)]
    simp only [Warned, step]
    split_ifs
    · cases Client.checkModels answer with
      | error err =>
        exact mem_issues_other (not_policy_profileIssue entryId) w.sync fun _ h => by cases h
      | ok models => exact mem_issues_checkMcp hmcp
    · rfl

/-- Whatever else is set up, synced, checked or changed meanwhile, the warning about a profile
says what the last probe of its entry found. -/
theorem profile_warned_iff (entryId : String) (w : World) (es : List Event) :
    Warned entryId (Runs.run step w es) ↔
      Views.SetSince step (Ignored entryId) (Cleared entryId) w es ∨
        Warned entryId w ∧ Views.NeverCleared step (Cleared entryId) w es :=
  Views.flag_run_iff (warned_step entryId) w es

theorem foreign_step (h : Foreign issue) (w : World) (e : Event) :
    issue ∈ (step w e).sync.hass.issues ↔ issue ∈ w.sync.hass.issues := by
  cases e with
  | hermes e =>
    rw [step]
    split_ifs
    · exact (mem_issues_step h.policy w.sync e).trans (and_iff_left fun id _ => h.profile id)
    · rfl
  | mcp e =>
    rw [step]
    split_ifs
    · exact mem_issues_checkMcp h.mcp
    · rfl
  | modelsListed id answer =>
    rw [step]
    split_ifs
    · cases Client.checkModels answer with
      | error err => exact mem_issues_other h.policy w.sync fun _ hremoved => by cases hremoved
      | ok models => exact mem_issues_checkMcp h.mcp
    · rfl
  | probed id probe forwarded =>
    rw [step]
    split_ifs
    · exact (mem_issues_probed h.policy).trans (mem_asyncCheckProfileRouting (h.profile id))
    · rfl

/-- Of one registry, each check sees and does what it would alone, and no other repair is ever
touched. -/
theorem repairs_apart (w : World) (es : List Event) :
    mcpPart (mcpWorld (Runs.run step w es)) =
        Runs.run McpCheck.step (mcpPart (mcpWorld w)) (mcpView.trace w es) ∧
      syncPart (Runs.run step w es).sync =
        Runs.run Membership.step (syncPart w.sync) (syncView.trace w es) ∧
      ∀ issue, Foreign issue →
        (issue ∈ (Runs.run step w es).sync.hass.issues ↔ issue ∈ w.sync.hass.issues) := by
  refine ⟨mcpView.run_state w es, syncView.run_state w es, ?_⟩
  intro issue hforeign
  exact iff_of_eq (Runs.run_frame (f := fun w : World => issue ∈ w.sync.hass.issues)
    (fun w e => propext (foreign_step hforeign w e)) w es)

/-! ## Who is in the group -/

def Quiet (w : World) : Prop := Membership.Quiet w.sync ∧ w.probing = []

def Settled (w : World) : Prop := Quiet w → Membership.Right w.sync.hass

/-- The options of an entry may change while any setup waits for its probe. -/
def KeepsSettled (w : World) : Event → Prop
  | .hermes e => w.probing = [] → Membership.KeepsSettled w.sync e
  | _ => True

theorem wellFormed_routing {hass : Hass} {probe : Probe} {id : String}
    (h : Membership.WellFormed hass) :
    Membership.WellFormed (asyncCheckProfileRouting hass probe id) := by
  apply h.congr
  rw [asyncCheckProfileRouting]
  split_ifs <;> rfl

theorem wellFormed_step (h : Membership.WellFormed w.sync.hass) (e : Event) :
    Membership.WellFormed (step w e).sync.hass := by
  have hview := syncView.step_invariant (s := w) (e := e)
    (P := fun t => Membership.WellFormed t.hass)
    (fun t d _ ht => Membership.wellFormed_step ht d) (h.congr rfl)
  exact hview.congr rfl

theorem settled_iff_of_idle (h : w.probing = []) : Settled w ↔ Membership.Settled w.sync := by
  constructor
  · intro hsettled hquiet
    exact hsettled ⟨hquiet, h⟩
  · intro hsettled hquiet
    exact hsettled hquiet.1

theorem settled_of_probing (h : w.probing ≠ []) : Settled w := fun hquiet => absurd hquiet.2 h

section Entries

variable {hass : Hass} {id : String}

def HasEntry (hass : Hass) (id : String) : Prop := ∃ entry ∈ hass.entries, entry.entryId = id

theorem hasEntry_of_find {entry : ConfigEntry} (h : Membership.findEntry hass id = some entry) :
    HasEntry hass id :=
  ⟨entry, List.mem_of_find?_eq_some h, by simpa using List.find?_some h⟩

theorem find_of_hasEntry (h : HasEntry hass id) :
    ∃ entry, Membership.findEntry hass id = some entry := by
  obtain ⟨entry, hentry, hid⟩ := h
  apply Option.isSome_iff_exists.mp
  exact List.find?_isSome.mpr ⟨entry, hentry, by simpa using hid⟩

theorem hasEntry_updateEntry {other : String} {f : ConfigEntry → ConfigEntry}
    (hf : ∀ entry, (f entry).entryId = entry.entryId) (h : HasEntry hass id) :
    HasEntry (Membership.updateEntry hass other f) id := by
  obtain ⟨entry, hentry, hid⟩ := h
  refine ⟨_, List.mem_map_of_mem hentry, ?_⟩
  split_ifs
  · exact (hf entry).trans hid
  · exact hid

theorem hasEntry_setLoaded {other : String} {loaded : Bool} (h : HasEntry hass id) :
    HasEntry (Membership.setLoaded hass other loaded) id :=
  hasEntry_updateEntry (fun _ => rfl) h

theorem hasEntry_sync (h : HasEntry hass id) : HasEntry (asyncSyncUsers hass) id := by
  rw [HasEntry, asyncSyncUsers_entries]
  exact h

theorem hasEntry_step {s : Membership.World} {e : Membership.Event} (h : HasEntry s.hass id)
    (he : e ≠ .removeEntry id) : HasEntry (Membership.step s e).hass id := by
  refine Membership.step_of_change (P := fun hass => HasEntry hass id) fun hass hchange => ?_
  cases hchange with
  | same | edited _ _ _ _ | deleted _ _ => exact h
  | synced => exact hasEntry_sync h
  | loaded _ _ => exact hasEntry_setLoaded h
  | setUp _ _ => exact hasEntry_setLoaded (hasEntry_sync h)
  | chosen _ _ _ => exact hasEntry_updateEntry (fun _ => rfl) h
  | added _ =>
    obtain ⟨entry, hentry, hid⟩ := h
    exact ⟨entry, List.mem_append_left _ hentry, hid⟩
  | removed other _ event =>
    obtain ⟨entry, hentry, hid⟩ := h
    refine ⟨entry, List.mem_filter.mpr ⟨hentry, ?_⟩, hid⟩
    rw [decide_eq_true_eq]
    intro hsame
    rw [event, ← hsame, hid] at he
    exact he rfl

theorem right_setupEnds {s : Membership.World} {forwarded : Bool}
    (h : Membership.WellFormed s.hass) (hentry : HasEntry s.hass id) :
    Membership.Right (Membership.step s (setupEnds id forwarded)).hass := by
  have hsynced : ∀ loaded, Membership.Right
      (Membership.setLoaded (asyncSyncUsers s.hass) id loaded) := by
    intro loaded
    have hright : Membership.Right (asyncSyncUsers s.hass) := h.right_sync
    refine Membership.right_congr ?_ (Membership.wanted_setLoaded _ id loaded) hright
    rfl
  obtain ⟨entry, hfound⟩ := find_of_hasEntry hentry
  cases forwarded with
  | true =>
    simp only [setupEnds, if_true, Membership.step, hfound]
    exact hsynced true
  | false =>
    simp only [setupEnds, Bool.false_eq_true, if_false, Membership.step, hfound, if_true]
    exact hsynced false

end Entries

/-- The auth store and the setups under way are as the integration needs them. -/
structure Sound (w : World) : Prop where
  wellFormed : Membership.WellFormed w.sync.hass
  entries : ∀ id ∈ w.probing, HasEntry w.sync.hass id

theorem hasEntry_routing {hass : Hass} {probe : Probe} {id other : String}
    (h : HasEntry hass id) : HasEntry (asyncCheckProfileRouting hass probe other) id := by
  rw [asyncCheckProfileRouting]
  split_ifs <;> exact h

theorem sound_step (h : Sound w) (e : Event) : Sound (step w e) := by
  refine ⟨wellFormed_step h.wellFormed e, ?_⟩
  cases e with
  | hermes e =>
    rw [step]
    split_ifs with hallowed
    · intro id hid
      refine hasEntry_step (h.entries id hid) ?_
      rintro rfl
      simp [allowed, hid] at hallowed
    · exact h.entries
  | mcp e =>
    rw [step]
    split_ifs <;> exact h.entries
  | modelsListed id answer =>
    rw [step]
    split_ifs with hbegin
    · cases Client.checkModels answer with
      | error err =>
        exact fun other hother => hasEntry_step (h.entries other hother) fun hremoved => by
          cases hremoved
      | ok models =>
        intro other hother
        rcases List.mem_append.mp hother with hother | hother
        · exact h.entries other hother
        · obtain rfl := List.mem_singleton.mp hother
          rw [mayBegin] at hbegin
          split at hbegin
          · cases hbegin
          · next entry hfound => exact hasEntry_of_find hfound
    · exact h.entries
  | probed id probe forwarded =>
    rw [step]
    split_ifs
    · intro other hother
      have hentry := h.entries other (List.mem_of_mem_erase hother)
      refine hasEntry_step (hasEntry_routing hentry) ?_
      cases forwarded <;> exact fun hremoved => by cases hremoved
    · exact h.entries

theorem settled_sync_iff (h : Sound w) (hsettled : Settled w) (e : Membership.Event) :
    Settled { w with sync := Membership.step w.sync e } ↔ KeepsSettled w (.hermes e) := by
  by_cases hidle : w.probing = []
  · have hsync : Membership.Settled w.sync := (settled_iff_of_idle hidle).mp hsettled
    have hnext : Settled { w with sync := Membership.step w.sync e } ↔
        Membership.KeepsSettled w.sync e :=
      (settled_iff_of_idle (w := { w with sync := Membership.step w.sync e }) hidle).trans
        (Membership.settled_step_iff h.wellFormed hsync e)
    exact hnext.trans ⟨fun hkeeps _ => hkeeps, fun hkeeps => hkeeps hidle⟩
  · exact iff_of_true (settled_of_probing hidle) fun h => absurd h hidle

theorem keepsSettled_of_not_allowed {e : Membership.Event} (h : ¬allowed w e = true) :
    KeepsSettled w (.hermes e) := by
  intro _
  cases e with
  | setOptions _ _ => exact absurd rfl h
  | addEntry _ | entryUpdated _ | setupSucceeds _ | setupFails _ _ | unload _ | removeEntry _
  | editUser _ _ _ | deleteUser _ | runTask | runDebounced => trivial

theorem settled_step_iff (h : Sound w) (hsettled : Settled w) (e : Event) :
    Settled (step w e) ↔ KeepsSettled w e := by
  cases e with
  | hermes e =>
    rw [step]
    split_ifs with hallowed
    · exact settled_sync_iff h hsettled e
    · exact iff_of_true hsettled (keepsSettled_of_not_allowed hallowed)
  | mcp e =>
    refine iff_of_true ?_ trivial
    rw [step]
    split_ifs
    · exact fun hquiet => Membership.right_congr rfl rfl (hsettled hquiet)
    · exact hsettled
  | modelsListed id answer =>
    refine iff_of_true ?_ trivial
    rw [step]
    split_ifs
    · cases Client.checkModels answer with
      | error err => exact (settled_sync_iff h hsettled _).mpr fun _ => trivial
      | ok models => exact settled_of_probing (by simp)
    · exact hsettled
  | probed id probe forwarded =>
    refine iff_of_true ?_ trivial
    rw [step]
    split_ifs with hprobing
    · intro _
      exact right_setupEnds (wellFormed_routing h.wellFormed)
        (hasEntry_routing (h.entries id hprobing))
    · exact hsettled

/-- A change of options that comes while any setup waits for its probe is caught by the sync at
the end of that setup; of the others, only those that no sync follows and that move someone go
unnoticed. -/
theorem settled_setups_iff (w : World) (h : Sound w) (hsettled : Settled w) (es : List Event) :
    Runs.Throughout step Settled w es ↔ Runs.Guarded step KeepsSettled w es := by
  have haux : ∀ w e, True → Sound w → Settled w → Settled (step w e) → Sound (step w e) :=
    fun _ e _ hsound _ _ => sound_step hsound e
  have hiff : ∀ w e, True → Sound w → Settled w → (Settled (step w e) ↔ KeepsSettled w e) :=
    fun _ e _ hsound hquiet => settled_step_iff hsound hquiet e
  exact Runs.throughout_iff_guarded haux hiff (fun _ _ => trivial) h hsettled

def noModels : Client.Exchange := .response httpOk "" (.parsed (.obj [("data", .arr [])]))

def retrySetup : World := asyncSetup Membership.retryWorld.hass []

theorem sound_retrySetup : Sound retrySetup :=
  ⟨Membership.wellFormed_retryWorld.congr rfl, fun _ h => absurd h List.not_mem_nil⟩

theorem settled_retrySetup : Settled retrySetup := fun hquiet =>
  Membership.right_congr rfl rfl (Membership.settled_retryWorld hquiet.1)

theorem settled_setups_iff_retry :
    Runs.Throughout step Settled retrySetup
        [.modelsListed "hub" noModels, .hermes (.setOptions "hub" (some "ada")),
          .probed "hub" (.answered httpNotFound) true] ↔
      Runs.Guarded step KeepsSettled retrySetup
        [.modelsListed "hub" noModels, .hermes (.setOptions "hub" (some "ada")),
          .probed "hub" (.answered httpNotFound) true] :=
  settled_setups_iff retrySetup sound_retrySetup settled_retrySetup _

end Runs

end HermesConversation.Setup
