import HermesConversation.Membership

/-!
# What one sync promises

The membership that one sync establishes and a second one leaves alone, and whether anybody
gains or loses another group on the way.
-/

namespace HermesConversation.SyncContract

open Library RestrictedPolicy RestrictedGroup UserSync HermesConversation.Membership

/-- What a sync has done before it looks at the users. -/
def begun (hass : Hass) : Option Policy × Hass :=
  let dropped := dropStaleIssues (wanted hass.entries) hass
  if wanted hass.entries ≠ [] then ensure dropped else (getGroup dropped, dropped)

def removed (names : List String) (hass : Hass) : Hass :=
  let moved := hass.store.users.foldl (syncUser names) hass
  if names = [] then setPolicy moved none else moved

/-- The states a sync goes through, the last one being what it returns with. -/
def course (hass : Hass) : List Hass :=
  let names := wanted hass.entries
  [hass, dropStaleIssues names hass] ++
    match begun hass with
    | (none, ensured) => [ensured]
    | (some _, ensured) => ensured.store.users.scanl (syncUser names) ensured ++
        names.scanl reportMissing (removed names ensured)

theorem asyncSyncUsers_eq (hass : Hass) : asyncSyncUsers hass =
    match begun hass with
    | (none, ensured) => ensured
    | (some _, ensured) => (wanted hass.entries).foldl reportMissing
        (removed (wanted hass.entries) ensured) := by
  rcases hbegun : begun hass with ⟨none | policy, ensured⟩
  · simp only [begun] at hbegun
    simp only [asyncSyncUsers, hbegun]
  · simp only [begun] at hbegun
    simp only [asyncSyncUsers, hbegun, removed]

theorem course_getLast? (hass : Hass) : (course hass).getLast? = some (asyncSyncUsers hass) := by
  rw [asyncSyncUsers_eq, course, List.getLast?_append]
  rcases begun hass with ⟨none | policy, ensured⟩
  · rfl
  · simp [List.getLast?_append, List.getLast?_scanl]

/-! ## Membership -/

structure Settles (names : List String) (user user' : User) : Prop where
  groupsOnly : user' = { user with groups := user'.groups }
  restricted : user.id ∈ names → manageable user = true → user'.groups = [groupId]
  refused : user.id ∈ names → manageable user = false → user'.groups = user.groups
  released : user.id ∉ names → groupId ∉ user'.groups
  outside : user.id ∉ names → groupId ∉ user.groups → user' = user

section Users

variable {names : List String} {user : User}

theorem synced_groupsOnly :
    synced names user = { user with groups := (synced names user).groups } := by
  rw [synced]
  split_ifs <;> rfl

theorem synced_refused (hwanted : user.id ∈ names) (h : manageable user = false) :
    synced names user = user := by
  rw [synced, if_pos hwanted, h]
  rfl

theorem synced_restricted (hwanted : user.id ∈ names) (h : manageable user = true) :
    synced names user = { user with groups := [groupId] } := by
  rw [synced, if_pos hwanted, if_pos h]

theorem synced_released (hwanted : user.id ∉ names) (h : groupId ∈ user.groups) :
    synced names user = { user with groups := [groupIdUser] } := by
  rw [synced, if_neg hwanted, if_pos h]

theorem synced_outside (hwanted : user.id ∉ names) (h : groupId ∉ user.groups) :
    synced names user = user := by
  rw [synced, if_neg hwanted, if_neg h]

theorem settles_synced (names : List String) (user : User) :
    Settles names user (synced names user) where
  groupsOnly := synced_groupsOnly
  restricted hwanted h := by rw [synced_restricted hwanted h]
  refused hwanted h := by rw [synced_refused hwanted h]
  released := synced_of_unwanted
  outside := synced_outside

theorem synced_synced (names : List String) (user : User) :
    synced names (synced names user) = synced names user := by
  by_cases hwanted : user.id ∈ names
  · cases h : manageable user with
    | false => rw [synced_refused hwanted h, synced_refused hwanted h]
    | true =>
      rw [synced_restricted hwanted h, synced, if_pos hwanted]
      split_ifs <;> rfl
  · have hother : (synced names user).id ∉ names := by rwa [synced_id]
    exact synced_outside hother (synced_of_unwanted hwanted)

end Users

section Contract

variable {hass : Hass}

def Homed (hass : Hass) : Prop :=
  hass.store.restricted = none → ∀ user ∈ hass.store.users, groupId ∉ user.groups

theorem homed_of_some (h : hass.store.restricted ≠ none) : Homed hass :=
  fun hnone => absurd hnone h

theorem syncUser_restricted (names : List String) (hass : Hass) (user : User) :
    (syncUser names hass user).store.restricted = hass.store.restricted := by
  unfold syncUser asyncRestrict
  split_ifs <;> rfl

theorem reportMissing_homed (h : Homed hass) (name : String) : Homed (reportMissing hass name) := by
  rw [reportMissing]
  split_ifs
  · exact h
  · exact h

theorem restricted_moved {names : List String} (users : List User)
    (h : hass.store.restricted ≠ none) :
    ∀ s ∈ users.scanl (syncUser names) hass, s.store.restricted ≠ none := by
  have hstep : ∀ s user, s.store.restricted ≠ none →
      (syncUser names s user).store.restricted ≠ none := by
    intro s user hs
    rw [syncUser_restricted]
    exact hs
  exact Runs.scanl_invariant hstep h users

theorem begun_some {ensured : Hass} {policy : Policy} (h : WellFormed hass)
    (hbegun : begun hass = (some policy, ensured)) : ensured.store.restricted ≠ none := by
  have hensure : ensure (dropStaleIssues (wanted hass.entries) hass) = _ :=
    ensure_of_supported h.supported
  have hget : getGroup (dropStaleIssues (wanted hass.entries) hass) = hass.store.restricted :=
    if_pos h.supported
  rw [begun] at hbegun
  split_ifs at hbegun
  · rw [hensure, Prod.mk.injEq] at hbegun
    rw [← hbegun.2]
    exact Option.some_ne_none _
  · rw [hget, Prod.mk.injEq] at hbegun
    obtain ⟨hsome, rfl⟩ := hbegun
    exact hsome ▸ Option.some_ne_none policy

theorem homed_course (h : WellFormed hass) : ∀ s ∈ course hass, Homed s := by
  intro s hs
  have hlast : Homed (asyncSyncUsers hass) := h.sync.group
  rw [asyncSyncUsers_eq] at hlast
  rw [course, List.mem_append] at hs
  rcases hs with hs | hs
  · simp only [List.mem_cons, List.not_mem_nil, or_false] at hs
    rcases hs with rfl | rfl
    · exact h.group
    · exact h.group
  · rcases hbegun : begun hass with ⟨none | policy, ensured⟩
    · rw [hbegun] at hs hlast
      exact List.mem_singleton.mp hs ▸ hlast
    · rw [hbegun] at hs hlast
      have hremoved : Homed (removed (wanted hass.entries) ensured) := by
        rw [Homed, reportMissing_store] at hlast
        exact hlast
      rcases List.mem_append.mp hs with hs | hs
      · exact homed_of_some (restricted_moved _ (begun_some h hbegun) s hs)
      · exact Runs.scanl_invariant (P := Homed) (fun _ name h => reportMissing_homed h name)
          hremoved _ s hs

/-- The membership, the group, the course of the sync and a second sync. -/
theorem sync_contract (hass : Hass) (h : WellFormed hass) :
    List.Forall₂ (Settles (wanted hass.entries)) hass.store.users
        (asyncSyncUsers hass).store.users ∧
      (asyncSyncUsers hass).store.restricted =
        (if wanted hass.entries = [] then none else some (restrictedPolicy hass.house)) ∧
      (course hass).getLast? = some (asyncSyncUsers hass) ∧
      (∀ s ∈ course hass, s.store.restricted = none →
        ∀ user ∈ s.store.users, groupId ∉ user.groups) ∧
      (asyncSyncUsers (asyncSyncUsers hass)).store = (asyncSyncUsers hass).store := by
  refine ⟨?_, ?_, course_getLast? hass, homed_course h, ?_⟩
  · rw [h.store_sync, List.forall₂_map_right_iff]
    exact List.forall₂_same.mpr fun user _ => settles_synced _ user
  · rw [h.store_sync]
  · rw [h.sync.store_sync, h.store_sync, asyncSyncUsers_entries, asyncSyncUsers_house,
      List.map_map]
    have htwice : synced (wanted hass.entries) ∘ synced (wanted hass.entries) =
        synced (wanted hass.entries) := funext (synced_synced _)
    rw [htwice]

def ben : User := ⟨"ben", false, true, false, [groupIdUser, groupId]⟩

def sharedStore : AuthStore :=
  ⟨true, some (restrictedPolicy ⟨[], []⟩), [groupIdUser], [ada, ben],
    List.mem_singleton_self groupIdUser⟩

def sharedHass : Hass := ⟨⟨[], []⟩, [⟨"hub", some "ada", true⟩], sharedStore, ∅⟩

theorem wellFormed_sharedHass : WellFormed sharedHass :=
  ⟨rfl, by decide, fun hnone => by cases hnone⟩

theorem sync_contract_shared :
    List.Forall₂ (Settles (wanted sharedHass.entries)) sharedHass.store.users
        (asyncSyncUsers sharedHass).store.users ∧
      (asyncSyncUsers sharedHass).store.restricted =
        (if wanted sharedHass.entries = [] then none
          else some (restrictedPolicy sharedHass.house)) ∧
      (course sharedHass).getLast? = some (asyncSyncUsers sharedHass) ∧
      (∀ s ∈ course sharedHass, s.store.restricted = none →
        ∀ user ∈ s.store.users, groupId ∉ user.groups) ∧
      (asyncSyncUsers (asyncSyncUsers sharedHass)).store = (asyncSyncUsers sharedHass).store :=
  sync_contract sharedHass wellFormed_sharedHass

end Contract

/-! ## The other groups -/

structure KeepsGroups (user user' : User) : Prop where
  others : ∀ group, group ≠ groupIdUser → group ≠ groupId →
    (group ∈ user'.groups ↔ group ∈ user.groups)
  admin : isAdmin user = true → isAdmin user' = true
  neither : groupIdUser ∉ user.groups → groupId ∉ user.groups →
    groupIdUser ∉ user'.groups ∧ groupId ∉ user'.groups

/-- A named user who may be moved has a group, and an unnamed member of the restricted group
has no group that is not one of the two. -/
def Plain (names : List String) (user : User) : Prop :=
  (user.id ∈ names → manageable user = true → user.groups ≠ []) ∧
    (user.id ∉ names → groupId ∈ user.groups →
      ∀ group ∈ user.groups, group = groupIdUser ∨ group = groupId)

section Groups

variable {hass : Hass} {names : List String} {user : User}

theorem keepsGroups_refl (user : User) : KeepsGroups user user :=
  ⟨fun _ _ _ => Iff.rfl, id, fun huser hmember => ⟨huser, hmember⟩⟩

theorem manageable_groups (h : manageable user = true) :
    ∀ group ∈ user.groups, group = groupIdUser ∨ group = groupId := by
  intro group hgroup
  rw [manageable] at h
  split_ifs at h
  simpa using List.all_eq_true.mp h group hgroup

theorem groupIdAdmin_ne : groupIdAdmin ≠ groupIdUser ∧ groupIdAdmin ≠ groupId := by decide

/-- A move between the two groups, by a user who has no third one. -/
theorem keepsGroups_move {group : String} (hgroup : group = groupIdUser ∨ group = groupId)
    (hplain : ∀ other ∈ user.groups, other = groupIdUser ∨ other = groupId)
    (hne : user.groups ≠ []) : KeepsGroups user { user with groups := [group] } := by
  constructor
  · intro other huser hrestricted
    constructor
    · intro hmem
      rw [List.mem_singleton] at hmem
      rw [hmem] at huser hrestricted
      exact absurd hgroup (not_or.mpr ⟨huser, hrestricted⟩)
    · intro hmem
      exact absurd (hplain other hmem) (not_or.mpr ⟨huser, hrestricted⟩)
  · intro hadmin
    have hnot : groupIdAdmin ∉ user.groups := by
      intro hmem
      exact absurd (hplain _ hmem) (not_or.mpr groupIdAdmin_ne)
    have howner : user.isOwner = true := by simpa [isAdmin, hnot] using hadmin
    simp [isAdmin, howner]
  · intro huser hrestricted
    obtain ⟨other, hother⟩ := List.exists_mem_of_ne_nil _ hne
    rcases hplain other hother with rfl | rfl
    · exact absurd hother huser
    · exact absurd hother hrestricted

theorem keepsGroups_synced_iff : KeepsGroups user (synced names user) ↔ Plain names user := by
  by_cases hwanted : user.id ∈ names
  · cases hmanageable : manageable user with
    | false =>
      rw [synced_refused hwanted hmanageable]
      refine ⟨fun _ => ⟨fun _ h => ?_, fun h => absurd hwanted h⟩, fun _ => keepsGroups_refl user⟩
      rw [hmanageable] at h
      cases h
    | true =>
      rw [synced_restricted hwanted hmanageable]
      constructor
      · intro h
        refine ⟨fun _ _ hnil => ?_, fun hother => absurd hwanted hother⟩
        have hneither := h.neither (by simp [hnil]) (by simp [hnil])
        exact hneither.2 (List.mem_singleton_self _)
      · intro h
        exact keepsGroups_move (.inr rfl) (manageable_groups hmanageable) (h.1 hwanted hmanageable)
  · by_cases hmember : groupId ∈ user.groups
    · rw [synced_released hwanted hmember]
      constructor
      · intro h
        refine ⟨fun hother => absurd hother hwanted, fun _ _ group hgroup => ?_⟩
        by_contra hneither
        obtain ⟨huser, hrestricted⟩ := not_or.mp hneither
        have hkept := (h.others group huser hrestricted).mpr hgroup
        exact huser (List.mem_singleton.mp hkept)
      · intro h
        exact keepsGroups_move (.inl rfl) (h.2 hwanted hmember) (List.ne_nil_of_mem hmember)
    · rw [synced_outside hwanted hmember]
      exact ⟨fun _ => ⟨fun h => absurd h hwanted, fun _ h => absurd h hmember⟩,
        fun _ => keepsGroups_refl user⟩

theorem asyncSyncUsers_unsupported (h : hass.store.supported = false) :
    (asyncSyncUsers hass).store = hass.store := by
  have hno : ¬(dropStaleIssues (wanted hass.entries) hass).store.supported = true := by
    show ¬hass.store.supported = true
    rw [h]
    exact Bool.false_ne_true
  rw [asyncSyncUsers_eq, begun, ensure, if_neg hno, getGroup, if_neg hno]
  split_ifs
  · rfl
  · rfl

theorem keepsGroups_iff (hass : Hass) (hids : (hass.store.users.map User.id).Nodup)
    (hgroup : hass.store.restricted = none → ∀ user ∈ hass.store.users, groupId ∉ user.groups) :
    List.Forall₂ KeepsGroups hass.store.users (asyncSyncUsers hass).store.users ↔
      (hass.store.supported = true →
        ∀ user ∈ hass.store.users, Plain (wanted hass.entries) user) := by
  cases hsupported : hass.store.supported with
  | false =>
    rw [asyncSyncUsers_unsupported hsupported, List.forall₂_same]
    exact ⟨fun _ h => absurd h Bool.false_ne_true, fun _ user _ => keepsGroups_refl user⟩
  | true =>
    rw [asyncSyncUsers_store hsupported hids hgroup, List.forall₂_map_right_iff, List.forall₂_same]
    simp only [keepsGroups_synced_iff, forall_const]

theorem keepsGroups_iff_shared :
    List.Forall₂ KeepsGroups sharedHass.store.users (asyncSyncUsers sharedHass).store.users ↔
      (sharedHass.store.supported = true →
        ∀ user ∈ sharedHass.store.users, Plain (wanted sharedHass.entries) user) :=
  keepsGroups_iff sharedHass wellFormed_sharedHass.ids wellFormed_sharedHass.group

/-- A managed user whom an administrator has made one as well. -/
def cleo : User := ⟨"cleo", false, true, false, [groupIdAdmin, groupId]⟩

def promotedHass : Hass :=
  ⟨⟨[], []⟩, [], ⟨true, some (restrictedPolicy ⟨[], []⟩), [groupIdUser, groupIdAdmin], [cleo],
    List.mem_cons_self⟩, ∅⟩

theorem not_keepsGroups_promoted :
    ¬ ∀ hass : Hass, (hass.store.users.map User.id).Nodup →
      (hass.store.restricted = none → ∀ user ∈ hass.store.users, groupId ∉ user.groups) →
      List.Forall₂ KeepsGroups hass.store.users (asyncSyncUsers hass).store.users := by
  intro h
  have hpromoted := h promotedHass (by decide) (fun hnone => by cases hnone)
  have hcleo : KeepsGroups cleo { cleo with groups := [groupIdUser] } :=
    (List.forall₂_cons.mp hpromoted).1
  have hadmin := hcleo.admin
  revert hadmin
  decide

end Groups

end HermesConversation.SyncContract
