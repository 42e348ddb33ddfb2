import HermesConversation.Library.Runs
import HermesConversation.RestrictedGroup

/-!
# Moving users into and out of the restricted group

One run of the sync, from the options of the config entries to the groups of the users.
-/

namespace HermesConversation.UserSync

open Library Entities RestrictedPolicy RestrictedGroup

def isAdmin (user : User) : Bool :=
  user.isOwner || (user.isActive && groupIdAdmin ∈ user.groups)

def manageable (user : User) : Bool :=
  if user.systemGenerated || isAdmin user || !user.isActive then false
  else user.groups.all (· ∈ [groupIdUser, groupId])

def wantedUser (entry : ConfigEntry) : Option String := entry.hermesUser.filter (· ≠ noUser)

/-- The users that the options of some entry name, whatever the state of the entry. -/
def wanted (entries : List ConfigEntry) : List String := entries.filterMap wantedUser

def userIssue (key userId : String) : String := key ++ "_" ++ userId

def staleIssue (wanted : List String) (issue : Issue) : Bool :=
  let (key, userId) := Text.rpartition '_' issue.2
  issue.1 = domain && key ∈ userIssues && userId ∉ wanted

def dropStaleIssues (wanted : List String) (hass : Hass) : Hass :=
  { hass with issues := hass.issues.filter fun issue => !staleIssue wanted issue }

/-- The update of one user, here always to a group the store has. -/
def asyncMove (hass : Hass) (user : User) (group : String) : Hass :=
  { hass with store := { hass.store with
      users := hass.store.users.map fun u =>
        if u.id = user.id then { u with groups := [group] } else u } }

def asyncRestrict (hass : Hass) (user : User) : Hass :=
  let hass := userIssues.foldl (fun hass key => deleteIssue hass (userIssue key user.id)) hass
  if isAdmin user then createIssue hass (userIssue issuePolicyUserAdmin user.id)
  else if !manageable user then createIssue hass (userIssue issuePolicyUserGroups user.id)
  else if user.groups ≠ [groupId] then asyncMove hass user groupId
  else hass

def asyncRelease (hass : Hass) (user : User) : Hass := asyncMove hass user groupIdUser

def syncUser (wanted : List String) (hass : Hass) (user : User) : Hass :=
  if user.id ∈ wanted then asyncRestrict hass user
  else if groupId ∈ user.groups then asyncRelease hass user
  else hass

def reportMissing (hass : Hass) (userId : String) : Hass :=
  if hass.store.users.any (·.id = userId) then hass
  else createIssue hass (userIssue issuePolicyUserMissing userId)

def asyncSyncUsers (hass : Hass) : Hass :=
  let wanted := wanted hass.entries
  let hass := dropStaleIssues wanted hass
  let (group, hass) := if wanted ≠ [] then ensure hass else (getGroup hass, hass)
  match group with
  | none => hass
  | some _ =>
    let hass := hass.store.users.foldl (syncUser wanted) hass
    let hass := if wanted = [] then setPolicy hass none else hass
    wanted.foldl reportMissing hass

/-! ## What a sync leaves behind -/

def synced (wanted : List String) (user : User) : User :=
  if user.id ∈ wanted then
    if manageable user then { user with groups := [groupId] } else user
  else if groupId ∈ user.groups then { user with groups := [groupIdUser] }
  else user

section Sync

variable {hass : Hass} {names : List String} {user : User}

theorem synced_id : (synced names user).id = user.id := by
  rw [synced]
  split_ifs <;> rfl

theorem map_synced_id (names : List String) (users : List User) :
    (users.map (synced names)).map User.id = users.map User.id := by
  rw [List.map_map]
  exact List.map_congr_left fun _ _ => synced_id

theorem manageable_not_admin (h : manageable user = true) : isAdmin user = false := by
  cases hadmin : isAdmin user with
  | false => rfl
  | true => simp [manageable, hadmin] at h

theorem synced_of_wanted (hwanted : user.id ∈ names) (h : manageable (synced names user) = true) :
    (synced names user).groups = [groupId] := by
  rw [synced] at h ⊢
  rw [if_pos hwanted] at h ⊢
  split_ifs at h ⊢ with hmanageable
  · rfl
  · exact absurd h hmanageable

theorem synced_of_unwanted (hwanted : user.id ∉ names) : groupId ∉ (synced names user).groups := by
  rw [synced]
  rw [if_neg hwanted]
  split_ifs with hmember
  · show groupId ∉ [groupIdUser]
    decide
  · exact hmember

theorem synced_of_no_member (h : groupId ∉ user.groups) : synced [] user = user := by
  rw [synced, if_neg List.not_mem_nil, if_neg h]

end Sync

section Loop

variable {hass : Hass} {names : List String} {user : User} {done todo : List User}

theorem map_other {f : User → User} {id : String} {users : List User}
    (h : id ∉ users.map User.id) : users.map (fun u => if u.id = id then f u else u) = users := by
  induction users with
  | nil => rfl
  | cons u users ih =>
    rw [List.map_cons, List.mem_cons, not_or] at h
    rw [List.map_cons, if_neg (Ne.symm h.1), ih h.2]

theorem asyncMove_store (h : hass.store.users = done ++ user :: todo)
    (hids : (hass.store.users.map User.id).Nodup) (group : String) :
    (asyncMove hass user group).store =
      { hass.store with users := done ++ { user with groups := [group] } :: todo } := by
  rw [h, List.map_append, List.map_cons, List.nodup_middle, List.nodup_cons, List.mem_append,
    not_or] at hids
  obtain ⟨⟨hdone, htodo⟩, -⟩ := hids
  simp only [asyncMove, h, List.map_append, List.map_cons, if_true, map_other hdone,
    map_other htodo]

theorem asyncRestrict_refused (h : manageable user = false) :
    (asyncRestrict hass user).store = hass.store := by
  have hmove : (!manageable user) = true := by rw [h, Bool.not_false]
  rw [asyncRestrict]
  split_ifs
  · rfl
  · rfl

theorem asyncRestrict_store (h : hass.store.users = done ++ user :: todo)
    (hids : (hass.store.users.map User.id).Nodup) (hmanageable : manageable user = true) :
    (asyncRestrict hass user).store =
      { hass.store with users := done ++ { user with groups := [groupId] } :: todo } := by
  have hadmin : ¬isAdmin user = true := by rw [manageable_not_admin hmanageable]; decide
  have hmove : ¬(!manageable user) = true := by rw [hmanageable]; decide
  rw [asyncRestrict]
  rw [if_neg hadmin, if_neg hmove]
  split_ifs with hgroups
  · exact asyncMove_store h hids groupId
  · have huser : { user with groups := [groupId] } = user := by rw [← not_ne_iff.mp hgroups]
    rw [huser, ← h]
    rfl

theorem syncUser_store (h : hass.store.users = done ++ user :: todo)
    (hids : (hass.store.users.map User.id).Nodup) :
    (syncUser names hass user).store =
      { hass.store with users := done ++ synced names user :: todo } := by
  unfold syncUser synced
  split_ifs with hwanted hmanageable hmember
  · exact asyncRestrict_store h hids hmanageable
  · rw [asyncRestrict_refused (Bool.not_eq_true _ ▸ hmanageable), ← h]
  · exact asyncMove_store h hids groupIdUser
  · rw [← h]

theorem foldl_syncUser_store (todo : List User) :
    ∀ (hass : Hass) (done : List User), hass.store.users = done ++ todo →
      (hass.store.users.map User.id).Nodup →
      (todo.foldl (syncUser names) hass).store =
        { hass.store with users := done ++ todo.map (synced names) } := by
  induction todo with
  | nil =>
    intro hass done h _
    rw [List.append_nil] at h
    rw [List.map_nil, List.append_nil, ← h]
    rfl
  | cons user todo ih =>
    intro hass done h hids
    have hstep : (syncUser names hass user).store =
        { hass.store with users := done ++ synced names user :: todo } := syncUser_store h hids
    have husers : (syncUser names hass user).store.users =
        (done ++ [synced names user]) ++ todo := by
      rw [hstep, List.append_assoc, List.singleton_append]
    have hsame : (syncUser names hass user).store.users.map User.id =
        hass.store.users.map User.id := by
      simp [hstep, h, synced_id]
    rw [List.foldl_cons, ih _ _ husers (hsame ▸ hids), hstep, List.map_cons, List.append_assoc,
      List.singleton_append]

end Loop

section Sync

variable {hass : Hass} {names : List String}

theorem reportMissing_frame {α : Type*} {f : Hass → α}
    (hcreate : ∀ hass key, f (createIssue hass key) = f hass) (names : List String)
    (hass : Hass) : f (names.foldl reportMissing hass) = f hass := by
  apply Runs.run_frame
  intro hass name
  rw [reportMissing]
  split_ifs
  · rfl
  · exact hcreate hass _

theorem reportMissing_store (names : List String) (hass : Hass) :
    (names.foldl reportMissing hass).store = hass.store :=
  reportMissing_frame (f := Hass.store) (fun _ _ => rfl) names hass

theorem asyncSyncUsers_unwanted (hsupported : hass.store.supported = true)
    (hids : (hass.store.users.map User.id).Nodup)
    (hgroup : hass.store.restricted = none → ∀ user ∈ hass.store.users, groupId ∉ user.groups)
    (hwanted : wanted hass.entries = []) :
    (asyncSyncUsers hass).store =
      { hass.store with restricted := none, users := hass.store.users.map (synced []) } := by
  have hget : getGroup (dropStaleIssues [] hass) = hass.store.restricted := if_pos hsupported
  simp only [asyncSyncUsers, hwanted, ne_eq, not_true_eq_false, if_false, if_true, hget]
  cases hrestricted : hass.store.restricted with
  | none =>
    have hsame : hass.store.users.map (synced []) = hass.store.users := by
      rw [List.map_congr_left fun user huser => synced_of_no_member (hgroup hrestricted user huser),
        List.map_id']
    show hass.store = _
    rw [hsame, ← hrestricted]
  | some policy =>
    have hloop : (hass.store.users.foldl (syncUser []) (dropStaleIssues [] hass)).store =
        { hass.store with users := hass.store.users.map (synced []) } :=
      foldl_syncUser_store hass.store.users (dropStaleIssues [] hass) [] rfl hids
    show (setPolicy (hass.store.users.foldl (syncUser []) (dropStaleIssues [] hass)) none).store = _
    rw [setPolicy, hloop]

theorem asyncSyncUsers_wanted (hsupported : hass.store.supported = true)
    (hids : (hass.store.users.map User.id).Nodup) (hwanted : wanted hass.entries ≠ []) :
    (asyncSyncUsers hass).store = { hass.store with
      restricted := some (restrictedPolicy hass.house)
      users := hass.store.users.map (synced (wanted hass.entries)) } := by
  have hensure : ensure (dropStaleIssues (wanted hass.entries) hass) = _ :=
    ensure_of_supported hsupported
  simp only [asyncSyncUsers, if_pos hwanted, if_neg hwanted, hensure, reportMissing_store]
  exact foldl_syncUser_store _ _ [] rfl hids

/-- The users and the group after a sync, repairs aside. -/
theorem asyncSyncUsers_store (hsupported : hass.store.supported = true)
    (hids : (hass.store.users.map User.id).Nodup)
    (hgroup : hass.store.restricted = none → ∀ user ∈ hass.store.users, groupId ∉ user.groups) :
    (asyncSyncUsers hass).store = { hass.store with
      restricted := if wanted hass.entries = [] then none else some (restrictedPolicy hass.house)
      users := hass.store.users.map (synced (wanted hass.entries)) } := by
  by_cases hwanted : wanted hass.entries = []
  · rw [if_pos hwanted, asyncSyncUsers_unwanted hsupported hids hgroup hwanted, hwanted]
  · rw [if_neg hwanted, asyncSyncUsers_wanted hsupported hids hwanted]

section Frame

variable {α : Type*} {f : Hass → α}

theorem syncUser_frame (hstore : ∀ hass store, f { hass with store } = f hass)
    (hcreate : ∀ hass key, f (createIssue hass key) = f hass)
    (hdelete : ∀ hass key, f (deleteIssue hass key) = f hass) (names : List String) (hass : Hass)
    (user : User) : f (syncUser names hass user) = f hass := by
  have hcleared : f (userIssues.foldl (fun hass key =>
      deleteIssue hass (userIssue key user.id)) hass) = f hass :=
    Runs.run_frame (fun hass key => hdelete hass (userIssue key user.id)) hass userIssues
  have hmove : ∀ hass group, f (asyncMove hass user group) = f hass := fun hass _ => hstore hass _
  simp only [syncUser, asyncRestrict, asyncRelease]
  split_ifs <;> simp only [hcreate, hmove, hcleared]

theorem ensure_frame (hstore : ∀ hass store, f { hass with store } = f hass)
    (hcreate : ∀ hass key, f (createIssue hass key) = f hass)
    (hdelete : ∀ hass key, f (deleteIssue hass key) = f hass) (hass : Hass) :
    f (ensure hass).2 = f hass := by
  by_cases hsupported : hass.store.supported = true
  · rw [ensure_of_supported hsupported]
    exact (hstore _ _).trans (hdelete hass _)
  · rw [ensure, if_neg hsupported]
    exact hcreate hass _

/-- What a sync leaves alone: anything that a change of the store and of the integration's own
repairs leaves alone. -/
theorem asyncSyncUsers_frame (hstore : ∀ hass store, f { hass with store } = f hass)
    (hcreate : ∀ hass key, f (createIssue hass key) = f hass)
    (hdelete : ∀ hass key, f (deleteIssue hass key) = f hass)
    (hdrop : ∀ names hass, f (dropStaleIssues names hass) = f hass) (hass : Hass) :
    f (asyncSyncUsers hass) = f hass := by
  have husers : ∀ names (users : List User) hass,
      f (users.foldl (syncUser names) hass) = f hass := fun names users hass =>
    Runs.run_frame (syncUser_frame hstore hcreate hdelete names) hass users
  have hreport : ∀ (names : List String) hass, f (names.foldl reportMissing hass) = f hass :=
    reportMissing_frame hcreate
  have hpolicy : ∀ hass policy, f (setPolicy hass policy) = f hass := fun hass _ => hstore hass _
  have hensure : ∀ hass, f (ensure hass).2 = f hass := ensure_frame hstore hcreate hdelete
  simp only [asyncSyncUsers]
  split_ifs <;> split <;> simp only [hreport, hpolicy, husers, hensure, hdrop]

end Frame

theorem asyncSyncUsers_entries (hass : Hass) : (asyncSyncUsers hass).entries = hass.entries :=
  asyncSyncUsers_frame (f := Hass.entries) (fun _ _ => rfl) (fun _ _ => rfl) (fun _ _ => rfl)
    (fun _ _ => rfl) hass

theorem asyncSyncUsers_house (hass : Hass) : (asyncSyncUsers hass).house = hass.house :=
  asyncSyncUsers_frame (f := Hass.house) (fun _ _ => rfl) (fun _ _ => rfl) (fun _ _ => rfl)
    (fun _ _ => rfl) hass

end Sync

end HermesConversation.UserSync
