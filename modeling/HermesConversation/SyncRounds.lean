import HermesConversation.Library.Sweeps
import HermesConversation.SyncContract
import HermesConversation.UserRepairs
import HermesConversation.UserWatch

/-!
# A round of syncs

Syncs that are suspended at every call into the auth manager, any number of them under way,
while nobody else edits the users. Where each user and each repair is going is settled as the
first one starts, so that the syncs are sweeps over the users: none undoes what another has done.
-/

namespace HermesConversation.OverlappingSyncs

open Library Entities RestrictedPolicy UserWatch
open RestrictedGroup hiding ensure getGroup User
open UserSync (manageable isAdmin synced userIssue staleIssue wanted)
open UserRepairs (Hex Refused)

/-! ## One account -/

/-- A group that goes by the id of the restricted one is the one in the store. -/
def Regular (object : ℕ) (account : Account) : Prop :=
  ∀ group ∈ account.groups, group.id = groupId → group = .restricted object

def moved (names : List String) (object : ℕ) (account : Account) : Account :=
  if account.removed then account
  else if account.id ∈ names then
    if manageable account.user then { account with groups := [.restricted object] } else account
  else if groupId ∈ account.user.groups then { account with groups := [.other groupIdUser] }
  else account

section Accounts

variable {names : List String} {object : ℕ} {account : Account}

theorem moved_id : (moved names object account).id = account.id := by
  rw [moved]
  split_ifs <;> rfl

theorem moved_removed : (moved names object account).removed = account.removed := by
  rw [moved]
  split_ifs <;> rfl

theorem moved_user (h : account.removed = false) :
    (moved names object account).user = synced names account.user := by
  have hid : account.user.id = account.id := rfl
  rw [moved, synced, hid, if_neg (by rw [h]; decide)]
  split_ifs <;> rfl

theorem moved_of_removed (h : account.removed = true) : moved names object account = account := by
  rw [moved, if_pos h]

theorem moved_restricted (h : account.removed = false) (hwanted : account.id ∈ names)
    (hmanageable : manageable account.user = true) :
    moved names object account = { account with groups := [.restricted object] } := by
  rw [moved, if_neg (Bool.not_eq_true _ ▸ h), if_pos hwanted, if_pos hmanageable]

theorem moved_refused (hwanted : account.id ∈ names) (h : manageable account.user = false) :
    moved names object account = account := by
  have hmanageable : ¬manageable account.user = true := by rw [h]; decide
  rw [moved, if_pos hwanted, if_neg hmanageable]
  split_ifs <;> rfl

theorem moved_released (h : account.removed = false) (hwanted : account.id ∉ names)
    (hmember : groupId ∈ account.user.groups) :
    moved names object account = { account with groups := [.other groupIdUser] } := by
  rw [moved, if_neg (Bool.not_eq_true _ ▸ h), if_neg hwanted, if_pos hmember]

theorem moved_outside (hwanted : account.id ∉ names) (h : groupId ∉ account.user.groups) :
    moved names object account = account := by
  rw [moved, if_neg hwanted, if_neg h]
  split_ifs <;> rfl

theorem moved_moved :
    moved names object (moved names object account) = moved names object account := by
  cases hremoved : account.removed with
  | true => rw [moved_of_removed hremoved, moved_of_removed hremoved]
  | false =>
    by_cases hwanted : account.id ∈ names
    · cases hmanageable : manageable account.user with
      | true =>
        rw [moved_restricted hremoved hwanted hmanageable]
        rw [moved, if_pos hwanted]
        split_ifs <;> rfl
      | false => rw [moved_refused hwanted hmanageable, moved_refused hwanted hmanageable]
    · by_cases hmember : groupId ∈ account.user.groups
      · rw [moved_released hremoved hwanted hmember]
        rw [moved, if_neg hwanted]
        split_ifs <;> rfl
      · rw [moved_outside hwanted hmember, moved_outside hwanted hmember]

theorem regular_moved (h : Regular object account) :
    Regular object (moved names object account) := by
  rw [moved]
  split_ifs
  · exact h
  · intro group hgroup _
    exact List.mem_singleton.mp hgroup
  · exact h
  · intro group hgroup hid
    rw [List.mem_singleton.mp hgroup] at hid
    exact absurd hid (by decide)
  · exact h

theorem refused_of_moved {account' : Account} {key : String} (h : account.removed = false)
    (hsame : moved names object account' = moved names object account)
    (hwanted : account.id ∈ names) : Refused account'.user key ↔ Refused account.user key := by
  have hremoved : account'.removed = false := by
    have hboth := congrArg Account.removed hsame
    rwa [moved_removed, moved_removed, h] at hboth
  have hid : account'.id = account.id := by
    have hboth := congrArg Account.id hsame
    rwa [moved_id, moved_id] at hboth
  have hsynced : synced names account'.user = synced names account.user := by
    have hboth := congrArg Account.user hsame
    rwa [moved_user hremoved, moved_user h] at hboth
  have hwanted' : account'.user.id ∈ names := by
    show account'.id ∈ names
    rwa [hid]
  rw [← UserRepairs.refused_synced hwanted', hsynced, UserRepairs.refused_synced hwanted]

end Accounts

/-! ## A round of syncs -/

variable {D : Type}

def present (w : World D) : List String :=
  (w.users.filter fun account => !account.removed).map Account.id

def target (names : List String) (object : ℕ) (userId : String) : Group :=
  if userId ∈ names then .restricted object else .other groupIdUser

/-- The repairs that the syncs are about: any of a named user who is there, and that of one who
is not. -/
def Touched (names : List String) (start : World D) (issue : Issue) : Prop :=
  ∃ id ∈ names, (id ∈ present start ∧ ∃ key ∈ userIssues, issue = (domain, userIssue key id)) ∨
    (id ∉ present start ∧ issue = (domain, userIssue issuePolicyUserMissing id))

/-- What a first sync finds when it looks at the users: repairs that are not stale, and a group
with the policy of the house, if anybody is to be moved into it. -/
structure Ready (names : List String) (object : ℕ) (start : World D) : Prop where
  wanted : (wanted start.entries).dedup = names
  hex : ∀ name ∈ names, Hex name
  ids : (start.users.map Account.id).Nodup
  supported : start.supported = true
  homed : groupIdUser ∈ start.otherGroups
  policy : ∃ policy, start.policies[object]? = some policy ∧
    (names ≠ [] → policy = restrictedPolicy start.house)
  fresh : ∀ issue ∈ start.issues, staleIssue names issue = false
  supportedIssue : names ≠ [] → (domain, issuePolicyUnsupported) ∉ start.issues

/-- The world while the syncs are under way. -/
structure Midway (names : List String) (object : ℕ) (start w : World D) : Prop where
  house : w.house = start.house
  entries : w.entries = start.entries
  supported : w.supported = start.supported
  otherGroups : w.otherGroups = start.otherGroups
  policies : w.policies = start.policies
  stored : w.stored = some object ∨ names = [] ∧ w.stored = none
  users : w.users.map (moved names object) = start.users.map (moved names object)
  regular : ∀ account ∈ w.users, account.removed = false → Regular object account
  rest : ∀ issue, ¬Touched names start issue → (issue ∈ w.issues ↔ issue ∈ start.issues)

def Placed (names : List String) (object : ℕ) (w : World D) (id : String) : Prop :=
  ∀ account ∈ w.users, account.id = id → moved names object account = account

def Aimed (names : List String) (object : ℕ) (w : World D) (id : String) : Prop :=
  ∀ account ∈ w.users, account.id = id →
    moved names object account = { account with groups := [target names object id] }

def Reported (names : List String) (start w : World D) (id : String) : Prop :=
  id ∈ names →
    (id ∈ present start → ∀ key ∈ userIssues, ((domain, userIssue key id) ∈ w.issues ↔
      ∃ account ∈ start.users, account.removed = false ∧ account.id = id ∧
        Refused account.user key)) ∧
    (id ∉ present start → (domain, userIssue issuePolicyUserMissing id) ∈ w.issues)

def Done (names : List String) (object : ℕ) (start w : World D) (id : String) : Prop :=
  Placed names object w id ∧ Reported names start w id

structure Advances (names : List String) (object : ℕ) (start w v : World D) : Prop where
  placed : ∀ id, Placed names object w id → Placed names object v id
  aimed : ∀ id, Aimed names object w id → Aimed names object v id
  reported : ∀ id, Reported names start w id → Reported names start v id

def absent (names : List String) (start : World D) : List String :=
  names.filter (· ∉ present start)

/-- Whom a sync has still to see to. -/
def left (names : List String) (start : World D) : Phase → List String
  | .gettingUsers => present start ++ absent names start
  | .moving userId _ .requested users => userId :: users ++ absent names start
  | .moving _ _ _ users => users ++ absent names start
  | .gettingUser userId rest => absent (userId :: rest) start
  | .ended => []

def PhaseFits (names : List String) (object : ℕ) (start w : World D) : Phase → Prop
  | .moving userId group stage users =>
    (∀ id ∈ userId :: users, id ∈ present start) ∧ group = (target names object userId).id ∧
      (stage = .requested → Aimed names object w userId ∧ Reported names start w userId)
  | .gettingUser userId rest => ∀ id ∈ userId :: rest, id ∈ names
  | .gettingUsers | .ended => True

structure Fits (names : List String) (object : ℕ) (start w : World D) (task : Task) : Prop where
  wanted : task.wanted = names
  group : task.group = object
  phase : PhaseFits names object start w task.phase

section Round

variable {names : List String} {object : ℕ} {start w v u : World D} {id : String}
  {account : Account} {task : Task}

theorem advances_refl (w : World D) : Advances names object start w w :=
  ⟨fun _ h => h, fun _ h => h, fun _ h => h⟩

theorem Advances.trans (h : Advances names object start w v)
    (h' : Advances names object start v u) : Advances names object start w u :=
  ⟨fun id hid => h'.placed id (h.placed id hid), fun id hid => h'.aimed id (h.aimed id hid),
    fun id hid => h'.reported id (h.reported id hid)⟩

theorem Advances.done (h : Advances names object start w v) (hid : Done names object start w id) :
    Done names object start v id :=
  ⟨h.placed id hid.1, h.reported id hid.2⟩

/-- Users and repairs are all that counts. -/
theorem advances_of_same (husers : v.users = w.users) (hissues : v.issues = w.issues) :
    Advances names object start w v := by
  constructor
  · intro id h
    rw [Placed, husers]
    exact h
  · intro id h
    rw [Aimed, husers]
    exact h
  · intro id h
    rw [Reported, hissues]
    exact h

theorem Advances.fits (h : Advances names object start w v)
    (hfits : Fits names object start w task) : Fits names object start v task := by
  obtain ⟨names', group, debounced, phase⟩ := task
  obtain ⟨hwanted, hgroup, hphase⟩ := hfits
  refine ⟨hwanted, hgroup, ?_⟩
  cases phase with
  | gettingUsers => trivial
  | gettingUser userId rest => exact hphase
  | ended => trivial
  | moving userId group stage users =>
    obtain ⟨hpresent, htarget, haim⟩ := hphase
    exact ⟨hpresent, htarget, fun hstage =>
      ⟨h.aimed _ (haim hstage).1, h.reported _ (haim hstage).2⟩⟩

theorem Fits.of_same (h : Fits names object start w task) (husers : v.users = w.users)
    (hissues : v.issues = w.issues) : Fits names object start v task :=
  (advances_of_same husers hissues).fits h

theorem map_of_map_moved {α : Type*} {f : Account → α}
    (hf : ∀ account, f (moved names object account) = f account)
    (h : w.users.map (moved names object) = start.users.map (moved names object)) :
    w.users.map f = start.users.map f := by
  have hmaps := congrArg (List.map f) h
  simpa only [List.map_map, Function.comp_def, hf] using hmaps

theorem Midway.ids (h : Midway names object start w) :
    w.users.map Account.id = start.users.map Account.id :=
  map_of_map_moved (fun _ => moved_id) h.users

theorem present_eq (w : World D) :
    present w = (w.users.map fun account => (account.removed, account.id)).filterMap
      fun entry => if entry.1 then none else some entry.2 := by
  rw [present, List.filterMap_map]
  induction w.users with
  | nil => rfl
  | cons account users ih =>
    rw [List.filter_cons, List.filterMap_cons, Function.comp_apply]
    cases account.removed with
    | true => simpa using ih
    | false => simpa using ih

theorem Midway.present (h : Midway names object start w) : present w = present start := by
  rw [present_eq, present_eq]
  congr 1
  exact map_of_map_moved (fun _ => by rw [moved_id, moved_removed]) h.users

theorem Midway.unremoved (h : Midway names object start w) (hready : Ready names object start)
    (hid : id ∈ OverlappingSyncs.present start) (hmem : account ∈ w.users)
    (haccount : account.id = id) : account.removed = false := by
  rw [← h.present] at hid
  obtain ⟨other, hother, hsame⟩ := List.mem_map.mp hid
  obtain ⟨hother, hremoved⟩ := List.mem_filter.mp hother
  have hnodup : (w.users.map Account.id).Nodup := h.ids ▸ hready.ids
  have hsame : account = other := List.inj_on_of_nodup_map hnodup hmem hother
    (haccount.trans hsame.symm)
  rw [hsame]
  simpa using hremoved

end Round

/-! ## Seeing to one user -/

section Visit

variable {names : List String} {object : ℕ} {start w v : World D} {account : Account}
  {task : Task} {issue : Issue}

theorem sameGroup_iff (h : Regular object account) {group : Group}
    (hgroup : group ∈ account.groups) :
    sameGroup w object group = true ↔ group.id = groupId := by
  constructor
  · intro hsame
    cases group with
    | other id => cases hsame
    | restricted object' => rfl
  · intro hid
    rw [h group hgroup hid]
    exact beq_self_eq_true _

theorem any_sameGroup_iff (h : Regular object account) :
    account.groups.any (sameGroup w object) = true ↔ groupId ∈ account.user.groups := by
  rw [List.any_eq_true, Account.user, List.mem_map]
  constructor
  · intro hany
    obtain ⟨group, hgroup, hsame⟩ := hany
    exact ⟨group, hgroup, (sameGroup_iff h hgroup).mp hsame⟩
  · intro hmem
    obtain ⟨group, hgroup, hid⟩ := hmem
    exact ⟨group, hgroup, (sameGroup_iff h hgroup).mpr hid⟩

theorem alone_iff (h : Regular object account) :
    (account.groups.length = 1 && account.groups.all (sameGroup w object)) = true ↔
      account.groups = [.restricted object] := by
  rw [Bool.and_eq_true, decide_eq_true_eq, List.length_eq_one_iff]
  constructor
  · intro halone
    obtain ⟨⟨group, hgroups⟩, hall⟩ := halone
    have hmem : group ∈ account.groups := hgroups ▸ List.mem_singleton_self group
    have hsame := (sameGroup_iff h hmem).mp (List.all_eq_true.mp hall group hmem)
    rw [hgroups, h group hmem hsame]
  · intro hgroups
    refine ⟨⟨_, hgroups⟩, List.all_eq_true.mpr fun group hgroup => ?_⟩
    rw [sameGroup_iff h hgroup]
    rw [hgroups, List.mem_singleton] at hgroup
    rw [hgroup]
    rfl

theorem mem_cleared :
    issue ∈ (userIssues.foldl (fun w key => dropReport w (userIssue key account.id)) w).issues ↔
      (∀ key ∈ userIssues, issue ≠ (domain, userIssue key account.id)) ∧ issue ∈ w.issues := by
  simp only [userIssues, List.foldl_cons, List.foldl_nil, dropReport, Finset.mem_erase,
    List.forall_mem_cons, List.not_mem_nil, false_imp_iff, implies_true, and_true]
  tauto

theorem mem_asyncRestrict : issue ∈ (asyncRestrict task account w).1.issues ↔
    (∃ key, Refused account.user key ∧ issue = (domain, userIssue key account.id)) ∨
      (∀ key ∈ userIssues, issue ≠ (domain, userIssue key account.id)) ∧ issue ∈ w.issues := by
  simp only [asyncRestrict]
  cases hadmin : isAdmin account.user with
  | true =>
    rw [if_pos rfl, report, Finset.mem_insert, mem_cleared]
    simp [Refused, hadmin]
  | false =>
    cases hmanageable : manageable account.user with
    | false =>
      rw [if_neg Bool.false_ne_true, if_pos Bool.not_false, report, Finset.mem_insert, mem_cleared]
      simp [Refused, hadmin, hmanageable]
    | true =>
      have hnone :
          ¬∃ key, Refused account.user key ∧ issue = (domain, userIssue key account.id) := by
        simp [Refused, hadmin, hmanageable]
      rw [or_iff_right hnone, if_neg Bool.false_ne_true, if_neg (by decide)]
      split_ifs
      · exact mem_cleared
      · exact mem_cleared

theorem asyncRestrict_result (hgroup : task.group = object) (h : Regular object account) :
    ((asyncRestrict task account w).2 = none → manageable account.user = true →
      account.groups = [.restricted object]) ∧
    ∀ group, (asyncRestrict task account w).2 = some group →
      group = groupId ∧ manageable account.user = true := by
  simp only [asyncRestrict, hgroup]
  split_ifs with hadmin hmanageable halone
  · refine ⟨fun _ hmanageable => ?_, fun group hsome => by cases hsome⟩
    rw [UserSync.manageable_not_admin hmanageable] at hadmin
    cases hadmin
  · refine ⟨fun _ hyes => ?_, fun group hsome => by cases hsome⟩
    rw [hyes] at hmanageable
    cases hmanageable
  · exact ⟨fun _ _ => (alone_iff h).mp halone, fun group hsome => by cases hsome⟩
  · refine ⟨fun hnone => (by cases hnone), fun group hsome => ⟨(Option.some.inj hsome).symm, ?_⟩⟩
    simpa using hmanageable

/-- A sync goes on to the next user where there is nothing to move, and moves a user to where
the user belongs. -/
theorem syncUser_result (hwanted : task.wanted = names) (hgroup : task.group = object)
    (h : Regular object account) (hremoved : account.removed = false) :
    ((syncUser task account w).2 = none → moved names object account = account) ∧
    ∀ group, (syncUser task account w).2 = some group →
      group = (target names object account.id).id ∧
        moved names object account =
          { account with groups := [target names object account.id] } := by
  rw [syncUser, hwanted, hgroup, target]
  by_cases hnamed : account.id ∈ names
  · rw [if_pos hnamed, if_pos hnamed]
    obtain ⟨hnone, hsome⟩ := asyncRestrict_result (w := w) hgroup h
    constructor
    · intro hresult
      cases hmanageable : manageable account.user with
      | false => exact moved_refused hnamed hmanageable
      | true => rw [moved_restricted hremoved hnamed hmanageable, ← hnone hresult hmanageable]
    · intro group hresult
      obtain ⟨hid, hmanageable⟩ := hsome group hresult
      exact ⟨hid, moved_restricted hremoved hnamed hmanageable⟩
  · rw [if_neg hnamed, if_neg hnamed]
    split_ifs with hmember
    · refine ⟨fun hresult => (by cases hresult), fun group hresult => ?_⟩
      exact ⟨(Option.some.inj hresult).symm,
        moved_released hremoved hnamed ((any_sameGroup_iff h).mp hmember)⟩
    · refine ⟨fun _ => ?_, fun group hresult => by cases hresult⟩
      exact moved_outside hnamed fun hmem => hmember ((any_sameGroup_iff h).mpr hmem)

theorem mem_userIssues_of_refused {user : RestrictedGroup.User} {key : String}
    (h : Refused user key) : key ∈ userIssues := by
  rcases h with ⟨rfl, -⟩ | ⟨rfl, -⟩
  · decide
  · decide

theorem mem_syncUser_other (hwanted : task.wanted = names)
    (h : account.id ∈ names → ∀ key ∈ userIssues, issue ≠ (domain, userIssue key account.id)) :
    issue ∈ (syncUser task account w).1.issues ↔ issue ∈ w.issues := by
  rw [syncUser, hwanted]
  split_ifs with hnamed
  · rw [mem_asyncRestrict, and_iff_right (h hnamed), or_iff_right]
    intro hraised
    obtain ⟨key, hrefused, hissue⟩ := hraised
    exact h hnamed key (mem_userIssues_of_refused hrefused) hissue
  · exact Iff.rfl
  · exact Iff.rfl

theorem mem_syncUser_own (hwanted : task.wanted = names) (hnamed : account.id ∈ names)
    (hhex : Hex account.id) {key : String} (hkey : key ∈ userIssues) :
    (domain, userIssue key account.id) ∈ (syncUser task account w).1.issues ↔
      Refused account.user key := by
  rw [syncUser, hwanted, if_pos hnamed, mem_asyncRestrict]
  constructor
  · intro hmem
    rcases hmem with ⟨key', hrefused, hsame⟩ | ⟨hnone, -⟩
    · have hkeys := ((UserRepairs.userIssue_inj hhex hhex).mp (Prod.mk.inj hsame).2).1
      exact hkeys ▸ hrefused
    · exact absurd rfl (hnone key hkey)
  · intro hrefused
    exact .inl ⟨key, hrefused, rfl⟩

theorem reported_congr {id : String}
    (h : id ∈ names → ∀ key ∈ userIssues,
      ((domain, userIssue key id) ∈ v.issues ↔ (domain, userIssue key id) ∈ w.issues))
    (hreported : Reported names start w id) : Reported names start v id := by
  intro hnamed
  obtain ⟨hpresent, habsent⟩ := hreported hnamed
  constructor
  · intro hid key hkey
    rw [h hnamed key hkey]
    exact hpresent hid key hkey
  · intro hid
    rw [h hnamed _ (by decide)]
    exact habsent hid

theorem refused_start (hready : Ready names object start) (hmid : Midway names object start w)
    (hmem : account ∈ w.users) (hremoved : account.removed = false) (hnamed : account.id ∈ names)
    {key : String} : (∃ first ∈ start.users, first.removed = false ∧ first.id = account.id ∧
      Refused first.user key) ↔ Refused account.user key := by
  have hmoved : moved names object account ∈ start.users.map (moved names object) :=
    hmid.users ▸ List.mem_map_of_mem hmem
  obtain ⟨first, hfirst, hsame⟩ := List.mem_map.mp hmoved
  have hid : first.id = account.id := by rw [← moved_id, hsame, moved_id]
  have hfound : first.removed = false := by
    have hboth := congrArg Account.removed hsame
    rwa [moved_removed, moved_removed, hremoved] at hboth
  constructor
  · intro hrefused
    obtain ⟨other, hother, -, hother_id, hrefused⟩ := hrefused
    have hone : other = first := List.inj_on_of_nodup_map hready.ids hother hfirst
      (hother_id.trans hid.symm)
    rw [hone] at hrefused
    exact (refused_of_moved hremoved hsame hnamed).mp hrefused
  · intro hrefused
    exact ⟨first, hfirst, hfound, hid, (refused_of_moved hremoved hsame hnamed).mpr hrefused⟩

theorem Midway.withIssues (h : Midway names object start w) {issues : Finset Issue}
    (hrest : ∀ issue, ¬Touched names start issue → (issue ∈ issues ↔ issue ∈ w.issues)) :
    Midway names object start { w with issues } :=
  ⟨h.house, h.entries, h.supported, h.otherGroups, h.policies, h.stored, h.users, h.regular,
    fun issue hissue => (hrest issue hissue).trans (h.rest issue hissue)⟩

theorem syncUser_visit (hready : Ready names object start) (hmid : Midway names object start w)
    (hwanted : task.wanted = names) (hmem : account ∈ w.users)
    (hpresent : account.id ∈ present start) :
    Midway names object start (syncUser task account w).1 ∧
      Advances names object start w (syncUser task account w).1 ∧
        Reported names start (syncUser task account w).1 account.id := by
  have hremoved : account.removed = false := hmid.unremoved hready hpresent hmem rfl
  have hown : Reported names start (syncUser task account w).1 account.id := by
    intro hnamed
    refine ⟨fun _ key hkey => ?_, fun hid => absurd hpresent hid⟩
    rw [mem_syncUser_own hwanted hnamed (hready.hex _ hnamed) hkey]
    exact (refused_start hready hmid hmem hremoved hnamed).symm
  have hrest : ∀ issue, ¬Touched names start issue →
      (issue ∈ (syncUser task account w).1.issues ↔ issue ∈ w.issues) := by
    intro issue hissue
    refine mem_syncUser_other hwanted fun hnamed key hkey hsame => hissue ?_
    exact ⟨account.id, hnamed, .inl ⟨hpresent, key, hkey, hsame⟩⟩
  have hreported : ∀ id, Reported names start w id →
      Reported names start (syncUser task account w).1 id := by
    intro id hid
    by_cases hsame : id = account.id
    · rw [hsame]
      exact hown
    · refine reported_congr (fun hnamed key hkey => ?_) hid
      refine mem_syncUser_other hwanted fun hnamed' key' _ hissue => hsame ?_
      exact ((UserRepairs.userIssue_inj (hready.hex _ hnamed) (hready.hex _ hnamed')).mp
        (Prod.mk.inj hissue).2).2
  obtain ⟨issues, hworld⟩ := syncUser_reports task account w
  rw [hworld] at hown hrest hreported ⊢
  exact ⟨hmid.withIssues hrest, ⟨fun _ h => h, fun _ h => h, hreported⟩, hown⟩

end Visit

/-! ## A task from one suspension to the next -/

/-- What has come of those a sync had to see to, between two suspensions. -/
structure Resumed (names : List String) (object : ℕ) (start w : World D) (todo : List String)
    (next : World D × Phase) : Prop where
  midway : Midway names object start next.1
  advances : Advances names object start w next.1
  fits : PhaseFits names object start next.1 next.2
  covered : ∀ id ∈ todo, Done names object start next.1 id ∨ id ∈ left names start next.2
  stored : next.1.stored = w.stored ∨ next.1.stored = none
  emptied : next.2 = .ended → names = [] → next.1.stored = none

section Resume

variable {names : List String} {object : ℕ} {start w v : World D} {id : String}
  {account : Account} {task : Task} {todo todo' : List String} {next : World D × Phase}

theorem Resumed.of_advances (h : Resumed names object start v todo next)
    (hadvances : Advances names object start w v) (hstored : v.stored = w.stored)
    (htodo : ∀ id ∈ todo', Done names object start v id ∨ id ∈ todo) :
    Resumed names object start w todo' next := by
  refine ⟨h.midway, hadvances.trans h.advances, h.fits, fun id hid => ?_, hstored ▸ h.stored,
    h.emptied⟩
  rcases htodo id hid with hdone | hleft
  · exact .inl (h.advances.done hdone)
  · exact h.covered id hleft

theorem left_nextLookup (names rest : List String) (start : World D) :
    left names start (nextLookup rest) = absent rest start := by
  cases rest with
  | nil => rfl
  | cons name rest => rfl

theorem fits_nextLookup {rest : List String} (h : ∀ id ∈ rest, id ∈ names) :
    PhaseFits names object start w (nextLookup rest) := by
  cases rest with
  | nil => trivial
  | cons name rest => exact h

theorem afterUsers_resumed (hmid : Midway names object start w) (hwanted : task.wanted = names) :
    Resumed names object start w (absent names start) (afterUsers task w) := by
  rw [afterUsers, hwanted]
  split_ifs with hnames
  · have hadvances : Advances names object start w { w with stored := none } :=
      advances_of_same rfl rfl
    refine ⟨⟨hmid.house, hmid.entries, hmid.supported, hmid.otherGroups, hmid.policies,
      .inr ⟨hnames, rfl⟩, hmid.users, hmid.regular, hmid.rest⟩, hadvances, trivial, ?_, .inr rfl,
      fun _ _ => rfl⟩
    intro id hid
    rw [hnames] at hid
    cases hid
  · refine ⟨hmid, advances_refl w, fits_nextLookup fun _ h => h, fun id hid => .inr ?_, .inl rfl,
      ?_⟩
    · rw [left_nextLookup]
      exact hid
    · intro _ hnil
      exact absurd hnil hnames

theorem find_present (hready : Ready names object start) (hmid : Midway names object start w)
    (hid : id ∈ present start) : ∃ account ∈ w.users,
      w.users.find? (·.id = id) = some account ∧ account.id = id ∧ account.removed = false ∧
        ∀ other ∈ w.users, other.id = id → other = account := by
  cases hfound : w.users.find? (·.id = id) with
  | none =>
    rw [← hmid.present] at hid
    obtain ⟨other, hother, hsame⟩ := List.mem_map.mp hid
    have hnone := List.find?_eq_none.mp hfound other (List.mem_filter.mp hother).1
    exact absurd hsame (by simpa using hnone)
  | some account =>
    have hmem := List.mem_of_find?_eq_some hfound
    have haccount : account.id = id := by simpa using List.find?_some hfound
    refine ⟨account, hmem, rfl, haccount, hmid.unremoved hready hid hmem haccount, ?_⟩
    intro other hother hsame
    have hnodup : (w.users.map Account.id).Nodup := hmid.ids ▸ hready.ids
    exact List.inj_on_of_nodup_map hnodup hother hmem (hsame.trans haccount.symm)

/-- The rest of the loop: every user on the way is done, up to the one who is to be moved. -/
theorem syncUsers_resumed (hready : Ready names object start) (hwanted : task.wanted = names)
    (hgroup : task.group = object) {users : List String}
    (hpresent : ∀ id ∈ users, id ∈ present start) (hmid : Midway names object start w) :
    Resumed names object start w (users ++ absent names start) (syncUsers task users w) := by
  induction users generalizing w with
  | nil =>
    rw [syncUsers]
    exact afterUsers_resumed hmid hwanted
  | cons userId users ih =>
    obtain ⟨huser, husers⟩ := List.forall_mem_cons.mp hpresent
    obtain ⟨account, hmem, hfound, rfl, hremoved, hone⟩ := find_present hready hmid huser
    obtain ⟨hvisited, hadvances, hreported⟩ := syncUser_visit hready hmid hwanted hmem huser
    have hresult := syncUser_result (w := w) hwanted hgroup (hmid.regular account hmem hremoved)
      hremoved
    have hsame : (syncUser task account w).1.users = w.users ∧
        (syncUser task account w).1.stored = w.stored := by
      obtain ⟨issues, hworld⟩ := syncUser_reports task account w
      rw [hworld]
      exact ⟨rfl, rfl⟩
    simp only [syncUsers, hfound]
    rcases hsync : syncUser task account w with ⟨v, none | group⟩
    · rw [hsync] at hvisited hadvances hreported hresult hsame
      refine (ih husers hvisited).of_advances hadvances hsame.2 fun id hid => ?_
      rcases List.mem_cons.mp hid with rfl | hid
      · refine .inl ⟨fun other hother hother_id => ?_, hreported⟩
        rw [hsame.1] at hother
        rw [hone other hother hother_id]
        exact hresult.1 rfl
      · exact .inr hid
    · rw [hsync] at hvisited hadvances hreported hresult hsame
      obtain ⟨hgroup_id, hmoved⟩ := hresult.2 group rfl
      have hflag : Advances names object start v { v with movingUser := true } :=
        advances_of_same rfl rfl
      refine ⟨⟨hvisited.house, hvisited.entries, hvisited.supported, hvisited.otherGroups,
        hvisited.policies, hvisited.stored, hvisited.users, hvisited.regular, hvisited.rest⟩,
        hadvances.trans hflag, ⟨hpresent, hgroup_id, fun _ => ⟨?_, hreported⟩⟩,
        fun id hid => .inr hid, .inl hsame.2, fun hended => by cases hended⟩
      intro other hother hother_id
      rw [show ({ v with movingUser := true } : World D).users = w.users from hsame.1] at hother
      rw [hone other hother hother_id]
      exact hmoved

theorem setGroups_users (haimed : Aimed names object w id) :
    (setGroups w id [target names object id]).users =
      w.users.map fun account =>
        if account.id = id then moved names object account else account := by
  refine List.map_congr_left fun account haccount => ?_
  split_ifs with hid
  · exact (haimed account haccount hid).symm
  · rfl

theorem setGroups_placed (haimed : Aimed names object w id) :
    Placed names object (setGroups w id [target names object id]) id := by
  intro account haccount hid
  rw [setGroups_users haimed] at haccount
  obtain ⟨first, -, rfl⟩ := List.mem_map.mp haccount
  split_ifs at hid ⊢ with hfirst
  · exact moved_moved
  · exact absurd hid hfirst

/-- A move may come late: what it writes is what there is to be. -/
theorem setGroups_advances (hmid : Midway names object start w) (haimed : Aimed names object w id) :
    Midway names object start (setGroups w id [target names object id]) ∧
      Advances names object start w (setGroups w id [target names object id]) := by
  have husers := setGroups_users haimed
  constructor
  · refine ⟨hmid.house, hmid.entries, hmid.supported, hmid.otherGroups, hmid.policies, hmid.stored,
      ?_, ?_, hmid.rest⟩
    · rw [husers, List.map_map, ← hmid.users]
      refine List.map_congr_left fun account _ => ?_
      rw [Function.comp_apply]
      split_ifs
      · exact moved_moved
      · rfl
    · intro account haccount hremoved
      rw [husers] at haccount
      obtain ⟨first, hfirst, rfl⟩ := List.mem_map.mp haccount
      split_ifs at hremoved ⊢
      · exact regular_moved (hmid.regular first hfirst (moved_removed ▸ hremoved))
      · exact hmid.regular first hfirst hremoved
  · refine ⟨fun other hother account haccount hid => ?_,
      fun other hother account haccount hid => ?_,
      fun _ h => h⟩
    · rw [husers] at haccount
      obtain ⟨first, hfirst, rfl⟩ := List.mem_map.mp haccount
      split_ifs at hid ⊢
      · exact moved_moved
      · exact hother first hfirst hid
    · rw [husers] at haccount
      obtain ⟨first, hfirst, rfl⟩ := List.mem_map.mp haccount
      split_ifs at hid ⊢
      · rw [moved_moved, hother first hfirst (moved_id ▸ hid)]
      · exact hother first hfirst hid

theorem findGroup_target (hready : Ready names object start) (hmid : Midway names object start w) :
    findGroup w (target names object id).id = some (target names object id) := by
  rw [target]
  split_ifs with hnamed
  · have hstored : w.stored = some object := by
      rcases hmid.stored with hstored | ⟨hnames, -⟩
      · exact hstored
      · rw [hnames] at hnamed
        cases hnamed
    rw [Group.id, findGroup, if_pos rfl, hstored, Option.map_some]
  · have hother : groupIdUser ≠ groupId := by decide
    rw [Group.id, findGroup, if_neg hother, hmid.otherGroups, if_pos hready.homed]

theorem known_iff (hmid : Midway names object start w) :
    known w id = true ↔ id ∈ present start := by
  rw [← hmid.present, known, present, List.any_eq_true, List.mem_map]
  simp [and_assoc, and_comm, and_left_comm]

theorem gettingUser_resumed (hready : Ready names object start)
    (hmid : Midway names object start w) {userId : String} {rest : List String}
    (hnamed : ∀ id ∈ userId :: rest, id ∈ names) :
    Resumed names object start w (absent (userId :: rest) start)
      (if known w userId then w else report w (userIssue issuePolicyUserMissing userId),
        nextLookup rest) := by
  obtain ⟨huser, hrest⟩ := List.forall_mem_cons.mp hnamed
  have hover : ∀ v : World D, nextLookup rest = .ended → names = [] → v.stored = none := by
    intro v _ hnil
    rw [hnil] at huser
    cases huser
  have hcovered : ∀ v : World D, (userId ∉ present start → Done names object start v userId) →
      ∀ id ∈ absent (userId :: rest) start,
        Done names object start v id ∨ id ∈ left names start (nextLookup rest) := by
    intro v hdone id hid
    obtain ⟨hmem, hgone⟩ := List.mem_filter.mp hid
    rcases List.mem_cons.mp hmem with rfl | hmem
    · exact .inl (hdone (by simpa using hgone))
    · rw [left_nextLookup]
      exact .inr (List.mem_filter.mpr ⟨hmem, hgone⟩)
  split_ifs with hknown
  · rw [known_iff hmid] at hknown
    exact ⟨hmid, advances_refl w, fits_nextLookup hrest,
      hcovered w fun hgone => absurd hknown hgone, .inl rfl, hover w⟩
  · rw [known_iff hmid] at hknown
    have hadvances : Advances names object start w
        (report w (userIssue issuePolicyUserMissing userId)) := by
      refine ⟨fun _ h => h, fun _ h => h, fun id hreported hid => ?_⟩
      obtain ⟨hpresent, habsent⟩ := hreported hid
      refine ⟨fun hthere key hkey => ?_, fun hgone => Finset.mem_insert_of_mem (habsent hgone)⟩
      rw [← hpresent hthere key hkey]
      refine Finset.mem_insert.trans (or_iff_right fun hsame => hknown ?_)
      have hids := ((UserRepairs.userIssue_inj (hready.hex _ hid) (hready.hex _ huser)).mp
        (Prod.mk.inj hsame).2).2
      exact hids ▸ hthere
    refine ⟨hmid.withIssues fun issue hissue => ?_, hadvances, fits_nextLookup hrest,
      hcovered _ fun _ => ⟨?_, fun _ => ⟨fun hthere => absurd hthere hknown, fun _ =>
        Finset.mem_insert_self _ _⟩⟩, .inl rfl, hover _⟩
    · refine Finset.mem_insert.trans (or_iff_right fun hsame => hissue ?_)
      exact ⟨userId, huser, .inr ⟨hknown, hsame⟩⟩
    · intro account haccount hid
      apply moved_of_removed
      by_contra hremoved
      rw [Bool.not_eq_true] at hremoved
      rw [← hmid.present] at hknown
      apply hknown
      exact List.mem_map.mpr ⟨account, List.mem_filter.mpr ⟨haccount, by rw [hremoved]; rfl⟩, hid⟩

variable (deb : Debouncer D)

theorem resume_resumed (hready : Ready names object start) (hmid : Midway names object start w)
    (hfits : Fits names object start w task)
    (hover : task.phase = .ended → names = [] → w.stored = none) :
    Resumed names object start w (left names start task.phase) (resume deb w task) := by
  obtain ⟨hwanted, hgroup, hphase⟩ := hfits
  rw [resume]
  cases hcase : task.phase with
  | gettingUsers =>
    show Resumed names object start w _ (syncUsers task (present w) w)
    rw [hmid.present]
    exact syncUsers_resumed hready hwanted hgroup (fun _ h => h) hmid
  | moving userId group stage users =>
    rw [hcase] at hphase
    obtain ⟨hpresent, htarget, haim⟩ := hphase
    obtain ⟨huser, husers⟩ := List.forall_mem_cons.mp hpresent
    cases stage with
    | requested =>
      obtain ⟨haimed, hreported⟩ := haim rfl
      obtain ⟨hnext, hadvances⟩ := setGroups_advances hmid haimed
      simp only [htarget, findGroup_target hready hmid]
      refine ⟨hnext, hadvances, ⟨hpresent, rfl, fun hstage => by cases hstage⟩, fun id hid => ?_,
        .inl rfl, fun hended => by cases hended⟩
      rcases List.mem_cons.mp hid with rfl | hid
      · exact .inl ⟨setGroups_placed haimed, hreported⟩
      · exact .inr hid
    | written =>
      have hsame : Advances names object start w (userChanged deb w) ∧
          Midway names object start (userChanged deb w) ∧
            (userChanged deb w).stored = w.stored := by
        rw [userChanged]
        split_ifs
        · exact ⟨advances_refl w, hmid, rfl⟩
        · exact ⟨advances_of_same rfl rfl, ⟨hmid.house, hmid.entries, hmid.supported,
            hmid.otherGroups, hmid.policies, hmid.stored, hmid.users, hmid.regular, hmid.rest⟩, rfl⟩
      obtain ⟨hadvances, hnext, hstored⟩ := hsame
      exact ⟨hnext, hadvances, ⟨hpresent, htarget, fun hstage => by cases hstage⟩,
        fun id hid => .inr hid, .inl hstored, fun hended => by cases hended⟩
    | fired =>
      have hflag : Midway names object start { w with movingUser := false } :=
        ⟨hmid.house, hmid.entries, hmid.supported, hmid.otherGroups, hmid.policies, hmid.stored,
          hmid.users, hmid.regular, hmid.rest⟩
      exact (syncUsers_resumed hready hwanted hgroup husers hflag).of_advances
        (advances_of_same rfl rfl) rfl fun id hid => .inr hid
  | gettingUser userId rest =>
    rw [hcase] at hphase
    exact gettingUser_resumed hready hmid hphase
  | ended =>
    exact ⟨hmid, advances_refl w, trivial, fun id hid => .inr hid, .inl rfl,
      fun _ hnames => hover hcase hnames⟩

end Resume

/-! ## Any number of tasks -/

/-- No event from outside the syncs and their timer. -/
def Internal : Event → Prop
  | .syncStarted | .timerEnded | .resumed _ => True
  | .userCreated _ | .userUpdated _ _ _ | .userRemoved _ | .entriesChanged _ | .houseChanged _
  | .policyEnsured => False

structure Round (names : List String) (object : ℕ) (start w : World D) : Prop where
  midway : Midway names object start w
  fits : ∀ task ∈ w.tasks, Fits names object start w task
  emptied : names = [] → (∃ task ∈ w.tasks, task.phase = .ended) → w.stored = none

def Begun (w : World D) (i : ℕ) : Prop := ∃ task, w.tasks[i]? = some task

def Left (names : List String) (start w : World D) (i : ℕ) (id : String) : Prop :=
  ∃ task, w.tasks[i]? = some task ∧ id ∈ left names start task.phase

section Tasks

variable {names : List String} {object : ℕ} {start w : World D} {id : String} {deb : Debouncer D}
  {e : Event}

theorem dropStale_fresh (hready : Ready names object start) (hmid : Midway names object start w) :
    dropStale names w = w := by
  have hfresh : ∀ issue ∈ w.issues, (!staleIssue names issue) = true := by
    intro issue hissue
    rw [Bool.not_eq_true']
    by_cases htouched : Touched names start issue
    · obtain ⟨id, hid, hcase⟩ := htouched
      have hnamed : ∀ key, staleIssue names (domain, userIssue key id) = false := by
        intro key
        simp [staleIssue, UserRepairs.rpartition_userIssue (hready.hex id hid), hid]
      rcases hcase with ⟨-, key, -, rfl⟩ | ⟨-, rfl⟩
      · exact hnamed key
      · exact hnamed _
    · exact hready.fresh issue ((hmid.rest issue htouched).mp hissue)
  rw [dropStale, Finset.filter_true_of_mem hfresh]

theorem not_touched_unsupported (hready : Ready names object start) :
    ¬Touched names start (domain, issuePolicyUnsupported) := by
  intro htouched
  have hparts : Text.rpartition '_' issuePolicyUnsupported = ("policy", "unsupported") := by decide
  have hkeys : "policy" ∉ userIssues := by decide
  have hother : ∀ id ∈ names, ∀ key ∈ userIssues, userIssue key id ≠ issuePolicyUnsupported := by
    intro id hid key hkey hsame
    rw [← hsame, UserRepairs.rpartition_userIssue (hready.hex id hid), Prod.mk.injEq] at hparts
    exact hkeys (hparts.1 ▸ hkey)
  obtain ⟨id, hid, ⟨-, key, hkey, hsame⟩ | ⟨-, hsame⟩⟩ := htouched
  · exact hother id hid key hkey (Prod.mk.inj hsame).2.symm
  · exact hother id hid _ (by decide) (Prod.mk.inj hsame).2.symm

theorem ensure_again (hready : Ready names object start) (hmid : Midway names object start w)
    (hnames : names ≠ []) : ensure w = (some object, w) := by
  have hstored : w.stored = some object := hmid.stored.resolve_right fun h => hnames h.1
  have hissue : dropReport w issuePolicyUnsupported = w := by
    have hnone : (domain, issuePolicyUnsupported) ∉ w.issues := by
      rw [hmid.rest _ (not_touched_unsupported hready)]
      exact hready.supportedIssue hnames
    rw [dropReport, Finset.erase_eq_of_notMem hnone]
  obtain ⟨policy, hpolicy, hcurrent⟩ := hready.policy
  have hpolicies : w.policies.set object (restrictedPolicy w.house) = w.policies := by
    rw [← hmid.policies, List.getElem?_eq_some_iff] at hpolicy
    obtain ⟨hlt, hpolicy⟩ := hpolicy
    rw [hmid.house, ← hcurrent hnames, ← hpolicy, List.set_getElem_self]
  have hsupported : w.supported = true := hmid.supported.trans hready.supported
  simp only [ensure, if_pos hsupported, hissue]
  split
  · rename_i hnone
    rw [hstored] at hnone
    cases hnone
  · rename_i object' hsome
    obtain rfl : object = object' := Option.some.inj (hstored.symm.trans hsome)
    rw [hpolicies]

theorem startSync_again (deb : Debouncer D) (hready : Ready names object start)
    (hmid : Midway names object start w) (debounced : Bool) :
    ∃ d, startSync deb debounced w = { w with debounced := d } ∨
      startSync deb debounced w =
        { w with tasks := w.tasks ++ [⟨names, object, debounced, .gettingUsers⟩] } := by
  have hwanted : (wanted w.entries).dedup = names := by rw [hmid.entries, hready.wanted]
  have hget : getGroup w = w.stored := if_pos (hmid.supported.trans hready.supported)
  simp only [startSync, hwanted, dropStale_fresh hready hmid]
  by_cases hnames : names = []
  · rw [if_neg (not_not.mpr hnames), hget]
    split
    · rw [callEnded]
      split_ifs
      · exact ⟨_, .inl rfl⟩
      · exact ⟨w.debounced, .inl rfl⟩
    · rename_i object' hsome
      have hobject : object' = object := by
        rcases hmid.stored with hstored | ⟨-, hstored⟩
        · exact Option.some.inj (hsome.symm.trans hstored)
        · rw [hstored] at hsome
          cases hsome
      rw [hobject]
      exact ⟨w.debounced, .inr rfl⟩
  · rw [if_pos hnames, ensure_again hready hmid hnames]
    exact ⟨w.debounced, .inr rfl⟩

/-- What an internal event can do: nothing, start one more sync, or resume one. -/
theorem step_internal (deb : Debouncer D) (hready : Ready names object start)
    (hmid : Midway names object start w) (he : Internal e) :
    (∃ d, step deb w e = { w with debounced := d }) ∨
    (∃ d debounced, step deb w e = { w with
      debounced := d
      tasks := w.tasks ++ [⟨names, object, debounced, .gettingUsers⟩] }) ∨
    ∃ i task d, w.tasks[i]? = some task ∧ step deb w e = { (resume deb w task).1 with
      debounced := d
      tasks := w.tasks.set i { task with phase := (resume deb w task).2 } } := by
  cases e with
  | syncStarted =>
    obtain ⟨d, hnothing | hstarted⟩ := startSync_again deb hready hmid false
    · exact .inl ⟨d, hnothing⟩
    · exact .inr (.inl ⟨w.debounced, false, hstarted⟩)
  | timerEnded =>
    have hended : Midway names object start { w with debounced := deb.timerEnded w.debounced } :=
      ⟨hmid.house, hmid.entries, hmid.supported, hmid.otherGroups, hmid.policies, hmid.stored,
        hmid.users, hmid.regular, hmid.rest⟩
    simp only [step]
    split_ifs
    · obtain ⟨d, hnothing | hstarted⟩ := startSync_again deb hready hended true
      · exact .inl ⟨d, hnothing⟩
      · exact .inr (.inl ⟨_, true, hstarted⟩)
    · exact .inl ⟨_, rfl⟩
  | resumed i =>
    cases htask : w.tasks[i]? with
    | none =>
      left
      exact ⟨w.debounced, by simp only [step, htask]⟩
    | some task =>
      right
      right
      rw [step_resumed htask, suspend, callEnded, resume_tasks]
      split_ifs
      · exact ⟨i, task, _, htask, rfl⟩
      · exact ⟨i, task, _, htask, rfl⟩
      · exact ⟨i, task, _, htask, rfl⟩
  | userCreated _ | userUpdated _ _ _ | userRemoved _ | entriesChanged _ | houseChanged _
  | policyEnsured => exact he.elim

theorem Midway.timed (h : Midway names object start w) (d : D) (tasks : List Task) :
    Midway names object start { w with debounced := d, tasks } :=
  ⟨h.house, h.entries, h.supported, h.otherGroups, h.policies, h.stored, h.users, h.regular, h.rest⟩

theorem Round.resumed (deb : Debouncer D) (hready : Ready names object start)
    (h : Round names object start w) {task : Task} (htask : task ∈ w.tasks) :
    Resumed names object start w (left names start task.phase) (resume deb w task) :=
  resume_resumed deb hready h.midway (h.fits task htask) fun hended hnames =>
    h.emptied hnames ⟨task, htask, hended⟩

theorem round_step (hready : Ready names object start) (he : Internal e)
    (h : Round names object start w) : Round names object start (step deb w e) := by
  rcases step_internal deb hready h.midway he with ⟨d, hstep⟩ | ⟨d, debounced, hstep⟩ |
    ⟨i, task, d, htask, hstep⟩
  · rw [hstep]
    exact ⟨h.midway.timed d w.tasks, fun task htask =>
      (h.fits task htask).of_same rfl rfl, h.emptied⟩
  · rw [hstep]
    refine ⟨h.midway.timed d _, fun task htask => ?_, fun hnames hended => ?_⟩
    · rcases List.mem_append.mp htask with htask | htask
      · exact (h.fits task htask).of_same rfl rfl
      · rw [List.mem_singleton.mp htask]
        exact ⟨rfl, rfl, trivial⟩
    · obtain ⟨task, htask, hphase⟩ := hended
      rcases List.mem_append.mp htask with htask | htask
      · exact h.emptied hnames ⟨task, htask, hphase⟩
      · rw [List.mem_singleton.mp htask] at hphase
        cases hphase
  · have hmem : task ∈ w.tasks := List.mem_of_getElem? htask
    have hresumed := h.resumed deb hready hmem
    have hadvances := hresumed.advances.trans (advances_of_same (v := step deb w e)
      (by rw [hstep]) (by rw [hstep]))
    rw [hstep] at hadvances ⊢
    refine ⟨hresumed.midway.timed d _, fun other hother => ?_, fun hnames hended => ?_⟩
    · rcases List.mem_or_eq_of_mem_set hother with hother | rfl
      · exact hadvances.fits (h.fits other hother)
      · have hfits := h.fits task hmem
        have hnext : Fits names object start (resume deb w task).1
            { task with phase := (resume deb w task).2 } :=
          ⟨hfits.wanted, hfits.group, hresumed.fits⟩
        exact hnext.of_same rfl rfl
    · obtain ⟨other, hother, hphase⟩ := hended
      rcases List.mem_or_eq_of_mem_set hother with hother | rfl
      · have hnone := h.emptied hnames ⟨other, hother, hphase⟩
        rcases hresumed.stored with hsame | hgone
        · exact hsame.trans hnone
        · exact hgone
      · exact hresumed.emptied hphase hnames

theorem done_step (hready : Ready names object start) (he : Internal e)
    (h : Round names object start w) (hid : Done names object start w id) :
    Done names object start (step deb w e) id := by
  rcases step_internal deb hready h.midway he with ⟨d, hstep⟩ | ⟨d, debounced, hstep⟩ |
    ⟨i, task, d, htask, hstep⟩
  · rw [hstep]
    exact (advances_of_same rfl rfl).done hid
  · rw [hstep]
    exact (advances_of_same rfl rfl).done hid
  · rw [hstep]
    have hresumed := h.resumed deb hready (List.mem_of_getElem? htask)
    exact (hresumed.advances.trans (advances_of_same rfl rfl)).done hid

theorem done_of_stranger (hmid : Midway names object start w) (hpresent : id ∉ present start)
    (habsent : id ∉ absent names start) : Done names object start w id := by
  constructor
  · intro account haccount hid
    apply moved_of_removed
    by_contra hremoved
    rw [Bool.not_eq_true] at hremoved
    rw [← hmid.present] at hpresent
    apply hpresent
    exact List.mem_map.mpr ⟨account, List.mem_filter.mpr ⟨haccount, by rw [hremoved]; rfl⟩, hid⟩
  · intro hnamed
    exact absurd (List.mem_filter.mpr ⟨hnamed, decide_eq_true hpresent⟩) habsent

/-- Every sync, at whatever time it starts, has everybody before it or done. -/
theorem visits_step (hready : Ready names object start) (he : Internal e)
    (h : Round names object start w) {k : ℕ} (hk : Begun (step deb w e) k)
    (hbefore : Begun w k → Done names object start w id ∨ Left names start w k id) :
    Done names object start (step deb w e) id ∨ Left names start (step deb w e) k id := by
  have hkept : Done names object start w id → Done names object start (step deb w e) id :=
    done_step hready he h
  rcases step_internal deb hready h.midway he with ⟨d, hstep⟩ | ⟨d, debounced, hstep⟩ |
    ⟨i, task, d, htask, hstep⟩
  · rw [hstep] at hk hkept ⊢
    exact (hbefore hk).imp_left hkept
  · rw [hstep] at hk hkept ⊢
    by_cases hold : Begun w k
    · obtain ⟨other, hother⟩ := hold
      obtain ⟨hlt, -⟩ := List.getElem?_eq_some_iff.mp hother
      rcases hbefore ⟨other, hother⟩ with hdone | ⟨found, hfound, hleft⟩
      · exact .inl (hkept hdone)
      · exact .inr ⟨found, (List.getElem?_append_left hlt).trans hfound, hleft⟩
    · obtain ⟨other, hother⟩ := hk
      have hnew : other = ⟨names, object, debounced, .gettingUsers⟩ := by
        have hlast : ¬k < w.tasks.length := fun hlt => hold ⟨_, List.getElem?_eq_getElem hlt⟩
        have hmem := hother
        rw [List.getElem?_append, if_neg hlast] at hmem
        exact List.mem_singleton.mp (List.mem_of_getElem? hmem)
      subst hnew
      by_cases hpresent : id ∈ present start
      · exact .inr ⟨_, hother, List.mem_append_left _ hpresent⟩
      · by_cases habsent : id ∈ absent names start
        · exact .inr ⟨_, hother, List.mem_append_right _ habsent⟩
        · exact .inl (done_of_stranger (h.midway.timed d _) hpresent habsent)
  · have hresumed := h.resumed deb hready (List.mem_of_getElem? htask)
    obtain ⟨hlt, -⟩ := List.getElem?_eq_some_iff.mp htask
    by_cases hki : k = i
    · subst hki
      rcases hbefore ⟨task, htask⟩ with hdone | ⟨found, hfound, hleft⟩
      · exact .inl (hkept hdone)
      · rw [htask, Option.some.injEq] at hfound
        rw [hstep]
        rcases hresumed.covered id (hfound ▸ hleft) with hdone | hleft
        · exact .inl ((advances_of_same rfl rfl).done hdone)
        · exact .inr ⟨_, List.getElem?_set_self hlt, hleft⟩
    · obtain ⟨other, hother⟩ := hk
      have hsame : (step deb w e).tasks[k]? = w.tasks[k]? := by
        rw [hstep]
        exact List.getElem?_set_ne (Ne.symm hki)
      rw [hsame] at hother
      rcases hbefore ⟨other, hother⟩ with hdone | ⟨found, hfound, hleft⟩
      · exact .inl (hkept hdone)
      · exact .inr ⟨found, hsame.trans hfound, hleft⟩

theorem covered_first (hmid : Midway names object start w) {debounced : Bool}
    (htasks : w.tasks = [⟨names, object, debounced, .gettingUsers⟩]) :
    Sweeps.Covered (Done names object start) Begun (Left names start) w := by
  intro k hk id
  obtain ⟨task, htask⟩ := hk
  have hmem := List.mem_of_getElem? htask
  rw [htasks, List.mem_singleton] at hmem
  subst hmem
  by_cases hpresent : id ∈ present start
  · exact .inr ⟨_, htask, List.mem_append_left _ hpresent⟩
  · by_cases habsent : id ∈ absent names start
    · exact .inr ⟨_, htask, List.mem_append_right _ habsent⟩
    · exact .inl (done_of_stranger hmid hpresent habsent)

theorem tasks_ne_nil_step (hready : Ready names object start) (he : Internal e)
    (hmid : Midway names object start w) (h : w.tasks ≠ []) : (step deb w e).tasks ≠ [] := by
  rcases step_internal deb hready hmid he with ⟨d, hstep⟩ | ⟨d, debounced, hstep⟩ |
    ⟨i, task, d, htask, hstep⟩
  · rw [hstep]
    exact h
  · rw [hstep]
    exact List.append_ne_nil_of_right_ne_nil _ (List.cons_ne_nil _ _)
  · rw [hstep]
    intro hnil
    exact h ((List.set_eq_nil_iff _ _).mp hnil)

theorem sweep_syncs (deb : Debouncer D) (hready : Ready names object start) :
    Sweeps.Sweep (step deb) Internal (Round names object start) (Done names object start) Begun
      (Left names start) where
  inv _ _ he h := round_step hready he h
  keeps _ _ _ he h hid := done_step hready he h hid
  visits _ _ _ _ he h hk hbefore := visits_step hready he h hk hbefore

end Tasks

end HermesConversation.OverlappingSyncs
