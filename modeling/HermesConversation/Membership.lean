import HermesConversation.UserSync

/-!
# Who is in the group, over whole runs

A sync is started by a change of an entry, by a setup that gets that far and, after a pause,
by a change of a user. Nothing it awaits suspends, so a sync is one step, and the events of
its own moves find `moving_user` set. What is scheduled is a number of tasks and one pause.
-/

namespace HermesConversation.Membership

open Library RestrictedPolicy RestrictedGroup UserSync

structure World where
  hass : Hass
  tasks : ℕ
  debounced : Bool

inductive ConfigEntryChange where
  | added
  | removed
  | updated

/-- What happens to the entries and the users, and what the loop gets round to. An update of
an entry that leaves its options alone is `entryUpdated`; `reached` says whether a failed
setup got as far as the sync. -/
inductive Event where
  | addEntry (entryId : String)
  | setOptions (entryId : String) (hermesUser : Option String)
  | entryUpdated (entryId : String)
  | setupSucceeds (entryId : String)
  | setupFails (entryId : String) (reached : Bool)
  | unload (entryId : String)
  | removeEntry (entryId : String)
  | editUser (userId : String) (isActive : Option Bool) (groups : Option (List String))
  | deleteUser (userId : String)
  | runTask
  | runDebounced

def issueProfileIgnored : String := "profile_ignored"

def findEntry (hass : Hass) (entryId : String) : Option ConfigEntry :=
  hass.entries.find? fun entry => entry.entryId = entryId

def findUser (hass : Hass) (userId : String) : Option User :=
  hass.store.users.find? fun user => user.id = userId

def updateEntry (hass : Hass) (entryId : String) (f : ConfigEntry → ConfigEntry) : Hass :=
  { hass with entries := hass.entries.map fun entry =>
      if entry.entryId = entryId then f entry else entry }

def setLoaded (hass : Hass) (entryId : String) (loaded : Bool) : Hass :=
  updateEntry hass entryId fun entry => { entry with loaded }

def setHermesUser (hass : Hass) (entryId : String) (hermesUser : Option String) : Hass :=
  updateEntry hass entryId fun entry => { entry with hermesUser }

def removeEntry (hass : Hass) (entryId : String) : Hass :=
  { hass with entries := hass.entries.filter fun entry => entry.entryId ≠ entryId }

def knownGroup (hass : Hass) (group : String) : Bool :=
  if group = groupId then hass.store.restricted.isSome else group ∈ hass.store.otherGroups

def setUsers (hass : Hass) (users : List User) : Hass :=
  { hass with store := { hass.store with users } }

def updateUser (hass : Hass) (userId : String) (isActive : Option Bool)
    (groups : Option (List String)) : Hass :=
  setUsers hass (hass.store.users.map fun user =>
    if user.id = userId then
      { user with isActive := isActive.getD user.isActive, groups := groups.getD user.groups }
    else user)

def removeUser (hass : Hass) (userId : String) : Hass :=
  setUsers hass (hass.store.users.filter fun user => user.id ≠ userId)

def createTask (world : World) : World := { world with tasks := world.tasks + 1 }

def configEntryChanged (world : World) (change : ConfigEntryChange) (entry : ConfigEntry) : World :=
  match change with
  | .added => world
  | .removed =>
    createTask { world with
      hass := deleteIssue world.hass (issueProfileIgnored ++ "_" ++ entry.entryId) }
  | .updated => if entry.loaded then createTask world else world

def userChanged (world : World) : World := { world with debounced := true }

def step (world : World) : Event → World
  | .addEntry id =>
    match findEntry world.hass id with
    | some _ => world
    | none =>
      let entry : ConfigEntry := ⟨id, none, false⟩
      configEntryChanged
        { world with hass := { world.hass with entries := world.hass.entries ++ [entry] } }
        .added entry
  | .setOptions id hermesUser =>
    match findEntry world.hass id with
    | none => world
    | some entry =>
      if entry.hermesUser = hermesUser then world
      else configEntryChanged { world with hass := setHermesUser world.hass id hermesUser }
        .updated { entry with hermesUser }
  | .entryUpdated id =>
    match findEntry world.hass id with
    | none => world
    | some entry => configEntryChanged world .updated entry
  | .setupSucceeds id =>
    match findEntry world.hass id with
    | none => world
    | some _ => { world with hass := setLoaded (asyncSyncUsers world.hass) id true }
  | .setupFails id reached =>
    match findEntry world.hass id with
    | none => world
    | some _ =>
      let hass := if reached then asyncSyncUsers world.hass else world.hass
      { world with hass := setLoaded hass id false }
  | .unload id => { world with hass := setLoaded world.hass id false }
  | .removeEntry id =>
    match findEntry world.hass id with
    | none => world
    | some entry =>
      configEntryChanged { world with hass := removeEntry world.hass id } .removed entry
  | .editUser id isActive groups =>
    match findUser world.hass id with
    | none => world
    | some user =>
      if (groups.getD []).all (knownGroup world.hass) &&
          !(user.isOwner && isActive = some false) then
        userChanged { world with hass := updateUser world.hass id isActive groups }
      else world
  | .deleteUser id =>
    match findUser world.hass id with
    | none => world
    | some _ => userChanged { world with hass := removeUser world.hass id }
  | .runTask =>
    match world.tasks with
    | 0 => world
    | tasks + 1 => { world with hass := asyncSyncUsers world.hass, tasks }
  | .runDebounced =>
    if world.debounced then { world with hass := asyncSyncUsers world.hass, debounced := false }
    else world

/-! ## What the group should look like -/

def Right (hass : Hass) : Prop :=
  ∀ user ∈ hass.store.users,
    (user.id ∈ wanted hass.entries → manageable user = true → user.groups = [groupId]) ∧
      (user.id ∉ wanted hass.entries → groupId ∉ user.groups)

def Quiet (world : World) : Prop := world.tasks = 0 ∧ world.debounced = false

def Settled (world : World) : Prop := Quiet world → Right world.hass

structure WellFormed (hass : Hass) : Prop where
  supported : hass.store.supported = true
  ids : (hass.store.users.map User.id).Nodup
  group : hass.store.restricted = none → ∀ user ∈ hass.store.users, groupId ∉ user.groups

section Sync

variable {hass hass' : Hass}

theorem right_congr (hstore : hass'.store = hass.store)
    (hwanted : wanted hass'.entries = wanted hass.entries) (h : Right hass) : Right hass' := by
  intro user huser
  rw [hstore] at huser
  rw [hwanted]
  exact h user huser

theorem WellFormed.congr (h : WellFormed hass) (hstore : hass'.store = hass.store) :
    WellFormed hass' := by
  constructor
  · rw [hstore]
    exact h.supported
  · rw [hstore]
    exact h.ids
  · rw [hstore]
    exact h.group

theorem WellFormed.store_sync (h : WellFormed hass) :
    (asyncSyncUsers hass).store = { hass.store with
      restricted := if wanted hass.entries = [] then none else some (restrictedPolicy hass.house)
      users := hass.store.users.map (synced (wanted hass.entries)) } :=
  asyncSyncUsers_store h.supported h.ids h.group

theorem WellFormed.sync (h : WellFormed hass) : WellFormed (asyncSyncUsers hass) := by
  constructor
  · rw [h.store_sync]
    exact h.supported
  · rw [h.store_sync, map_synced_id]
    exact h.ids
  · rw [h.store_sync]
    intro hnone user huser
    obtain ⟨u, hu, rfl⟩ := List.mem_map.mp huser
    have hwanted : wanted hass.entries = [] := by
      by_contra hne
      rw [if_neg hne] at hnone
      cases hnone
    rw [hwanted]
    exact synced_of_unwanted List.not_mem_nil

theorem WellFormed.right_sync (h : WellFormed hass) : Right (asyncSyncUsers hass) := by
  intro user huser
  rw [h.store_sync] at huser
  obtain ⟨u, hu, rfl⟩ := List.mem_map.mp huser
  rw [asyncSyncUsers_entries, synced_id]
  exact ⟨synced_of_wanted, synced_of_unwanted⟩

end Sync

section Updates

variable {hass : Hass} {id : String}

theorem wanted_setLoaded (hass : Hass) (id : String) (loaded : Bool) :
    wanted (setLoaded hass id loaded).entries = wanted hass.entries := by
  rw [setLoaded, updateEntry, wanted, List.filterMap_map, wanted]
  congr 1
  funext entry
  rw [Function.comp_apply]
  split_ifs
  · rfl
  · rfl

theorem wanted_addEntry (entries : List ConfigEntry) :
    wanted (entries ++ [⟨id, none, false⟩]) = wanted entries := by
  simp [wanted, wantedUser]

theorem wellFormed_removeUser (h : WellFormed hass) : WellFormed (removeUser hass id) := by
  constructor
  · exact h.supported
  · exact h.ids.sublist (List.filter_sublist.map User.id)
  · intro hnone user huser
    exact h.group hnone user (List.mem_filter.mp huser).1

theorem wellFormed_updateUser (h : WellFormed hass) {isActive : Option Bool}
    {groups : Option (List String)} (hknown : (groups.getD []).all (knownGroup hass) = true) :
    WellFormed (updateUser hass id isActive groups) := by
  constructor
  · exact h.supported
  · have hids : (updateUser hass id isActive groups).store.users.map User.id =
        hass.store.users.map User.id := by
      simp only [updateUser, setUsers, List.map_map]
      congr 1
      funext user
      rw [Function.comp_apply]
      split_ifs
      · rfl
      · rfl
    rw [hids]
    exact h.ids
  · intro hnone user huser
    obtain ⟨u, hu, rfl⟩ := List.mem_map.mp huser
    have hmember := h.group hnone u hu
    split_ifs
    · cases groups with
      | none => exact hmember
      | some groups =>
        intro hmem
        have hgroup := List.all_eq_true.mp hknown groupId hmem
        rw [knownGroup, if_pos rfl, show hass.store.restricted = none from hnone] at hgroup
        cases hgroup
    · exact hmember

end Updates

/-! ## Runs -/

section Runs

variable {world : World}

def MovesNobody (hass : Hass) (entries : List ConfigEntry) : Prop :=
  ∀ user ∈ hass.store.users,
    (user.id ∈ wanted entries → user.id ∉ wanted hass.entries → manageable user = false) ∧
      (user.id ∉ wanted entries → user.id ∈ wanted hass.entries → groupId ∉ user.groups)

/-- The options of an entry that is not loaded change only while a sync is scheduled anyway,
or in a way that moves nobody. -/
def KeepsSettled (world : World) : Event → Prop
  | .setOptions id hermesUser =>
    ∀ entry, findEntry world.hass id = some entry → entry.hermesUser ≠ hermesUser →
      entry.loaded = false → Quiet world →
        MovesNobody world.hass (setHermesUser world.hass id hermesUser).entries
  | _ => True

structure Unmoved (world world' : World) : Prop where
  store : world'.hass.store = world.hass.store
  wanted : wanted world'.hass.entries = wanted world.hass.entries
  quiet : Quiet world' → Quiet world

structure Synced (world world' : World) : Prop where
  store : world'.hass.store = (asyncSyncUsers world.hass).store
  wanted : wanted world'.hass.entries = wanted world.hass.entries

structure Scheduled (world world' : World) : Prop where
  busy : ¬Quiet world'
  wellFormed : WellFormed world.hass → WellFormed world'.hass

structure Missed (world : World) (e : Event) (id : String) (hermesUser : Option String)
    (entry : ConfigEntry) : Prop where
  event : e = .setOptions id hermesUser
  found : findEntry world.hass id = some entry
  changed : entry.hermesUser ≠ hermesUser
  unloaded : entry.loaded = false
  step : step world e = { world with hass := setHermesUser world.hass id hermesUser }

theorem unmoved_refl (world : World) : Unmoved world world := ⟨rfl, rfl, id⟩

theorem not_quiet_createTask (world : World) : ¬Quiet (createTask world) := by
  intro h
  exact Nat.succ_ne_zero _ h.1

theorem not_quiet_userChanged (world : World) : ¬Quiet (userChanged world) := by
  intro h
  cases h.2

theorem configEntryChanged_updated (world : World) (entry : ConfigEntry) :
    Unmoved world (configEntryChanged world .updated entry) ∨
      Scheduled world (configEntryChanged world .updated entry) := by
  rw [configEntryChanged]
  split_ifs
  · exact .inr ⟨not_quiet_createTask world, id⟩
  · exact .inl (unmoved_refl world)

theorem setOptions_cases (world : World) (id : String) (hermesUser : Option String) :
    (KeepsSettled world (.setOptions id hermesUser) ∧
      (Unmoved world (step world (.setOptions id hermesUser)) ∨
        Scheduled world (step world (.setOptions id hermesUser)))) ∨
    ∃ entry, Missed world (.setOptions id hermesUser) id hermesUser entry := by
  cases hfound : findEntry world.hass id with
  | none =>
    left
    constructor
    · intro entry hentry
      rw [hfound] at hentry
      cases hentry
    · left
      rw [step, hfound]
      exact unmoved_refl world
  | some entry =>
    by_cases hsame : entry.hermesUser = hermesUser
    · left
      constructor
      · intro found hentry hchanged
        rw [hfound, Option.some.injEq] at hentry
        exact absurd (hentry ▸ hsame) hchanged
      · left
        simp only [step, hfound, if_pos hsame]
        exact unmoved_refl world
    · cases hloaded : entry.loaded with
      | false =>
        right
        refine ⟨entry, rfl, hfound, hsame, hloaded, ?_⟩
        simp [step, hfound, hsame, configEntryChanged, hloaded]
      | true =>
        left
        constructor
        · intro found hentry _ hunloaded
          rw [hfound, Option.some.injEq] at hentry
          rw [← hentry, hloaded] at hunloaded
          cases hunloaded
        · right
          simp only [step, hfound, if_neg hsame, configEntryChanged, hloaded, if_true]
          exact ⟨not_quiet_createTask _, fun h => h.congr rfl⟩

theorem setup_cases (world : World) (id : String) (reached : Bool) (loaded : Bool) :
    let hass := if reached then asyncSyncUsers world.hass else world.hass
    Unmoved world { world with hass := setLoaded hass id loaded } ∨
      Synced world { world with hass := setLoaded hass id loaded } := by
  cases reached with
  | true =>
    right
    refine ⟨rfl, (wanted_setLoaded _ id loaded).trans ?_⟩
    rw [if_pos rfl, asyncSyncUsers_entries]
  | false => exact .inl ⟨rfl, wanted_setLoaded world.hass id loaded, fun h => h⟩

theorem synced_sync (world : World) (tasks : ℕ) (debounced : Bool) :
    Synced world ⟨asyncSyncUsers world.hass, tasks, debounced⟩ :=
  ⟨rfl, by rw [asyncSyncUsers_entries]⟩

/-- Every event but a change of options leaves who is wanted alone, or syncs, or has a sync to
come. -/
theorem step_ordinary (world : World) {e : Event}
    (he : ∀ id hermesUser, e ≠ .setOptions id hermesUser) :
    Unmoved world (step world e) ∨ Synced world (step world e) ∨
      Scheduled world (step world e) := by
  cases e with
  | setOptions id hermesUser => exact absurd rfl (he id hermesUser)
  | addEntry id =>
    left
    rw [step]
    split
    · exact unmoved_refl world
    · exact ⟨rfl, wanted_addEntry world.hass.entries, fun h => h⟩
  | entryUpdated id =>
    rw [step]
    split
    · exact .inl (unmoved_refl world)
    · exact (configEntryChanged_updated world _).imp_right .inr
  | setupSucceeds id =>
    rw [step]
    split
    · exact .inl (unmoved_refl world)
    · exact (setup_cases world id true true).imp_right .inl
  | setupFails id reached =>
    rw [step]
    split
    · exact .inl (unmoved_refl world)
    · exact (setup_cases world id reached false).imp_right .inl
  | unload id => exact .inl ⟨rfl, wanted_setLoaded world.hass id false, fun h => h⟩
  | removeEntry id =>
    rw [step]
    split
    · exact .inl (unmoved_refl world)
    · exact .inr (.inr ⟨not_quiet_createTask _, fun h => h.congr rfl⟩)
  | editUser id isActive groups =>
    rw [step]
    split
    · exact .inl (unmoved_refl world)
    · split_ifs with hknown
      · rw [Bool.and_eq_true] at hknown
        exact .inr (.inr ⟨not_quiet_userChanged _, fun h => wellFormed_updateUser h hknown.1⟩)
      · exact .inl (unmoved_refl world)
  | deleteUser id =>
    rw [step]
    split
    · exact .inl (unmoved_refl world)
    · exact .inr (.inr ⟨not_quiet_userChanged _, wellFormed_removeUser⟩)
  | runTask =>
    rw [step]
    split
    · exact .inl (unmoved_refl world)
    · exact .inr (.inl (synced_sync world _ world.debounced))
  | runDebounced =>
    rw [step]
    split_ifs
    · exact .inr (.inl (synced_sync world world.tasks false))
    · exact .inl (unmoved_refl world)

theorem step_cases (world : World) (e : Event) :
    (KeepsSettled world e ∧ (Unmoved world (step world e) ∨ Synced world (step world e) ∨
      Scheduled world (step world e))) ∨
    ∃ id hermesUser entry, Missed world e id hermesUser entry := by
  cases e with
  | setOptions id hermesUser =>
    rcases setOptions_cases world id hermesUser with ⟨hkeeps, hunmoved | hscheduled⟩ | hmissed
    · exact .inl ⟨hkeeps, .inl hunmoved⟩
    · exact .inl ⟨hkeeps, .inr (.inr hscheduled)⟩
    · exact .inr ⟨id, hermesUser, hmissed⟩
  | addEntry _ | entryUpdated _ | setupSucceeds _ | setupFails _ _ | unload _ | removeEntry _
  | editUser _ _ _ | deleteUser _ | runTask | runDebounced =>
    exact .inl ⟨trivial, step_ordinary world fun _ _ h => by cases h⟩

/-- What an event can make of the house, the entries, the store and the issues. -/
inductive Change (hass : Hass) (e : Event) : Hass → Prop where
  | same : Change hass e hass
  | synced : Change hass e (asyncSyncUsers hass)
  | loaded (id : String) (loaded : Bool) : Change hass e (setLoaded hass id loaded)
  | setUp (id : String) (loaded : Bool) : Change hass e (setLoaded (asyncSyncUsers hass) id loaded)
  | added (id : String) : Change hass e { hass with entries := hass.entries ++ [⟨id, none, false⟩] }
  | chosen (id : String) (hermesUser : Option String) (event : e = .setOptions id hermesUser) :
      Change hass e (setHermesUser hass id hermesUser)
  | removed (id : String) (entry : ConfigEntry) (event : e = .removeEntry id) :
      Change hass e
        (deleteIssue (removeEntry hass id) (issueProfileIgnored ++ "_" ++ entry.entryId))
  | edited (id : String) (isActive : Option Bool) (groups : Option (List String))
      (event : e = .editUser id isActive groups) :
      Change hass e (updateUser hass id isActive groups)
  | deleted (id : String) (event : e = .deleteUser id) : Change hass e (removeUser hass id)

theorem step_change (world : World) (e : Event) : Change world.hass e (step world e).hass := by
  cases e with
  | addEntry id =>
    rw [step]
    split
    · exact .same
    · exact .added id
  | setOptions id hermesUser =>
    simp only [step, configEntryChanged]
    split
    · exact .same
    · split_ifs
      · exact .same
      · exact .chosen id hermesUser rfl
      · exact .chosen id hermesUser rfl
  | entryUpdated id =>
    simp only [step, configEntryChanged]
    split
    · exact .same
    · split_ifs <;> exact .same
  | setupSucceeds id =>
    rw [step]
    split
    · exact .same
    · exact .setUp id true
  | setupFails id reached =>
    rw [step]
    split
    · exact .same
    · cases reached with
      | true => exact .setUp id false
      | false => exact .loaded id false
  | unload id => exact .loaded id false
  | removeEntry id =>
    rw [step]
    split
    · exact .same
    · next entry _ => exact .removed id entry rfl
  | editUser id isActive groups =>
    rw [step]
    split
    · exact .same
    · split_ifs
      · exact .edited id isActive groups rfl
      · exact .same
  | deleteUser id =>
    rw [step]
    split
    · exact .same
    · exact .deleted id rfl
  | runTask =>
    rw [step]
    split
    · exact .same
    · exact .synced
  | runDebounced =>
    rw [step]
    split_ifs
    · exact .synced
    · exact .same

/-- What holds whatever the event makes of it holds after the step. -/
theorem step_of_change {P : Hass → Prop} (h : ∀ hass, Change world.hass e hass → P hass) :
    P (step world e).hass :=
  h _ (step_change world e)

theorem wellFormed_step (h : WellFormed world.hass) (e : Event) :
    WellFormed (step world e).hass := by
  rcases step_cases world e with ⟨-, hunmoved | hsynced | hscheduled⟩ | ⟨_, _, _, hmissed⟩
  · exact h.congr hunmoved.store
  · exact h.sync.congr hsynced.store
  · exact hscheduled.wellFormed h
  · rw [hmissed.step]
    exact h.congr rfl

theorem right_setEntries_iff {entries : List ConfigEntry} (h : Right world.hass) :
    Right { world.hass with entries } ↔ MovesNobody world.hass entries := by
  constructor
  · intro hright user huser
    constructor
    · intro hnew hold
      by_contra hmanageable
      rw [Bool.not_eq_false] at hmanageable
      have hgroups : user.groups = [groupId] := (hright user huser).1 hnew hmanageable
      apply (h user huser).2 hold
      rw [hgroups]
      exact List.mem_singleton_self groupId
    · intro hnew _
      exact (hright user huser).2 hnew
  · intro hmoves user huser
    constructor
    · intro hnew hmanageable
      by_cases hold : user.id ∈ wanted world.hass.entries
      · exact (h user huser).1 hold hmanageable
      · rw [(hmoves user huser).1 hnew hold] at hmanageable
        cases hmanageable
    · intro hnew
      by_cases hold : user.id ∈ wanted world.hass.entries
      · exact (hmoves user huser).2 hnew hold
      · exact (h user huser).2 hold

theorem settled_step_iff (h : WellFormed world.hass) (hsettled : Settled world) (e : Event) :
    Settled (step world e) ↔ KeepsSettled world e := by
  rcases step_cases world e with ⟨hkeeps, hcases⟩ | ⟨id, hermesUser, entry, hmissed⟩
  · refine ⟨fun _ => hkeeps, fun _ => ?_⟩
    rcases hcases with hunmoved | hsynced | hscheduled
    · intro hquiet
      exact right_congr hunmoved.store hunmoved.wanted (hsettled (hunmoved.quiet hquiet))
    · intro _
      refine right_congr hsynced.store ?_ h.right_sync
      rw [hsynced.wanted, asyncSyncUsers_entries]
    · intro hquiet
      exact absurd hquiet hscheduled.busy
  · rw [hmissed.step]
    rw [hmissed.event]
    constructor
    · intro hnext found hfound _ _ hquiet
      exact (right_setEntries_iff (hsettled hquiet)).mp (hnext hquiet)
    · intro hkeeps hquiet
      exact (right_setEntries_iff (hsettled hquiet)).mpr
        (hkeeps entry hmissed.found hmissed.changed hmissed.unloaded hquiet)

theorem settled_throughout_iff (world : World) (h : WellFormed world.hass)
    (hsettled : Settled world) (es : List Event) :
    Runs.Throughout step Settled world es ↔ Runs.Guarded step KeepsSettled world es := by
  have haux : ∀ s e, True → WellFormed s.hass → Settled s → Settled (step s e) →
      WellFormed (step s e).hass := fun s e _ hs _ _ => wellFormed_step hs e
  have hiff : ∀ s e, True → WellFormed s.hass → Settled s →
      (Settled (step s e) ↔ KeepsSettled s e) := fun s e _ hs hquiet => settled_step_iff hs hquiet e
  exact Runs.throughout_iff_guarded haux hiff (fun _ _ => trivial) h hsettled

def ada : User := ⟨"ada", false, true, false, [groupIdUser]⟩

def retryStore : AuthStore :=
  ⟨true, none, [groupIdUser], [ada], List.mem_singleton_self groupIdUser⟩

def retryWorld : World := ⟨⟨⟨[], []⟩, [⟨"hub", none, false⟩], retryStore, ∅⟩, 0, false⟩

theorem wellFormed_retryWorld : WellFormed retryWorld.hass := ⟨rfl, by decide, by decide⟩

theorem settled_retryWorld : Settled retryWorld := by
  intro _ user huser
  obtain rfl := List.mem_singleton.mp huser
  decide

theorem settled_throughout_iff_retry :
    Runs.Throughout step Settled retryWorld
        [.setupSucceeds "hub", .setOptions "hub" (some "ada"), .runTask, .unload "hub"] ↔
      Runs.Guarded step KeepsSettled retryWorld
        [.setupSucceeds "hub", .setOptions "hub" (some "ada"), .runTask, .unload "hub"] :=
  settled_throughout_iff retryWorld wellFormed_retryWorld settled_retryWorld _

theorem not_settled_retry :
    ¬ ∀ (world : World) (es : List Event), WellFormed world.hass → Settled world →
      Runs.Throughout step Settled world es := by
  intro h
  have hsettled : Settled (step retryWorld (.setOptions "hub" (some "ada"))) :=
    (h retryWorld [.setOptions "hub" (some "ada")] wellFormed_retryWorld settled_retryWorld).2
  have hgroups := (hsettled ⟨rfl, rfl⟩ ada (List.mem_singleton_self ada)).1 (by decide) (by decide)
  revert hgroups
  decide

end Runs

end HermesConversation.Membership
