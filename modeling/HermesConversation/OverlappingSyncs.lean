import HermesConversation.SyncRounds

/-!
# Overlapping syncs

A round of syncs against the sync as one step. The first one to end leaves what the single step
does, and the rest of them change nothing any more.
-/

namespace HermesConversation.OverlappingSyncs

open Library Entities RestrictedPolicy UserWatch
open RestrictedGroup hiding ensure getGroup User
open UserSync (manageable isAdmin synced userIssue staleIssue wanted)
open UserRepairs (Hex Refused)

/-! ## Against the sync as one step -/

/-- The world as the sync that is one step sees it. -/
structure Shows (w : World D) (hass : Hass) : Prop where
  house : w.house = hass.house
  entries : w.entries = hass.entries
  supported : w.supported = hass.store.supported
  restricted : (w.stored.bind fun object => w.policies[object]?) = hass.store.restricted
  otherGroups : w.otherGroups = hass.store.otherGroups
  users : (w.users.filter fun account => !account.removed).map Account.user = hass.store.users
  issues : w.issues = hass.issues

/-- Nobody holds a restricted group other than the one in the store, and ids are hexadecimal. -/
structure Sound (w : World D) : Prop where
  ids : (w.users.map Account.id).Nodup
  users : ∀ account ∈ w.users, Hex account.id
  names : ∀ name ∈ wanted w.entries, Hex name
  stored : ∀ object, w.stored = some object → object < w.policies.length
  held : ∀ account ∈ w.users, account.removed = false → ∀ group ∈ account.groups,
    group.id = groupId → ∃ object, group = .restricted object ∧ w.stored = some object

section Goal

variable {w start v : World D} {hass : Hass} {names : List String} {object : ℕ} {issue : Issue}

theorem synced_congr {names' : List String} (h : ∀ id, id ∈ names ↔ id ∈ names')
    (user : RestrictedGroup.User) : synced names user = synced names' user := by
  rw [synced, synced]
  exact if_congr (h user.id) rfl rfl

theorem Shows.present (h : Shows w hass) :
    present w = hass.store.users.map RestrictedGroup.User.id := by
  rw [← h.users, List.map_map]
  rfl

theorem Shows.exists_iff (h : Shows w hass) {id : String} :
    UserRepairs.Exists hass id ↔ id ∈ OverlappingSyncs.present w := by
  rw [h.present, List.mem_map]
  rfl

theorem Sound.user_ids (hsound : Sound w) (hshows : Shows w hass) :
    (hass.store.users.map RestrictedGroup.User.id).Nodup := by
  rw [← hshows.present]
  exact hsound.ids.sublist (List.filter_sublist.map Account.id)

theorem Sound.homed (hsound : Sound w) (hshows : Shows w hass) :
    hass.store.restricted = none → ∀ user ∈ hass.store.users, groupId ∉ user.groups := by
  intro hnone user huser hmember
  rw [← hshows.users] at huser
  obtain ⟨account, haccount, rfl⟩ := List.mem_map.mp huser
  obtain ⟨haccount, hremoved⟩ := List.mem_filter.mp haccount
  obtain ⟨group, hgroup, hid⟩ := List.mem_map.mp hmember
  obtain ⟨object, -, hstored⟩ :=
    hsound.held account haccount (by simpa using hremoved) group hgroup hid
  rw [← hshows.restricted, hstored, Option.bind_some, List.getElem?_eq_none_iff] at hnone
  exact absurd (hsound.stored object hstored) (not_lt.mpr hnone)

theorem Sound.wellNamed (hsound : Sound w) (hshows : Shows w hass)
    (hsupported : w.supported = true) : UserRepairs.WellNamed hass where
  supported := hshows.supported ▸ hsupported
  ids := hsound.user_ids hshows
  users := by
    intro user huser
    rw [← hshows.users] at huser
    obtain ⟨account, haccount, rfl⟩ := List.mem_map.mp huser
    exact hsound.users account (List.mem_filter.mp haccount).1
  names := hshows.entries ▸ hsound.names

theorem ensure_users (hass : Hass) :
    (RestrictedGroup.ensure hass).2.store.users = hass.store.users := by
  rw [RestrictedGroup.ensure]
  split_ifs
  · dsimp only
    split_ifs <;> rfl
  · rfl

theorem begun_users (hass : Hass) : (SyncContract.begun hass).2.store.users = hass.store.users := by
  simp only [SyncContract.begun]
  split_ifs
  · exact ensure_users _
  · rfl

theorem mem_syncUser_rest {user : RestrictedGroup.User}
    (h : user.id ∈ names → ∀ key ∈ userIssues, issue ≠ (domain, userIssue key user.id)) :
    issue ∈ (UserSync.syncUser names hass user).issues ↔ issue ∈ hass.issues := by
  rw [UserSync.syncUser]
  split_ifs with hnamed
  · have hother := h hnamed
    simp only [userIssues, List.forall_mem_cons, List.not_mem_nil, false_imp_iff, implies_true,
      and_true] at hother
    obtain ⟨hadmin, hgroups, hmissing⟩ := hother
    simp only [UserSync.asyncRestrict, userIssues, List.foldl_cons, List.foldl_nil]
    split_ifs
    · simp [createIssue, deleteIssue, hadmin, hgroups, hmissing]
    · simp [createIssue, deleteIssue, hadmin, hgroups, hmissing]
    · simp [UserSync.asyncMove, deleteIssue, hadmin, hgroups, hmissing]
    · simp [deleteIssue, hadmin, hgroups, hmissing]
  · exact Iff.rfl
  · exact Iff.rfl

theorem removed_issues : (SyncContract.removed names hass).issues =
    (hass.store.users.foldl (UserSync.syncUser names) hass).issues := by
  rw [SyncContract.removed]
  split_ifs <;> rfl

theorem removed_ids (hids : (hass.store.users.map RestrictedGroup.User.id).Nodup) :
    (SyncContract.removed names hass).store.users.map RestrictedGroup.User.id =
      hass.store.users.map RestrictedGroup.User.id := by
  have hmoved : (hass.store.users.foldl (UserSync.syncUser names) hass).store.users.map
      RestrictedGroup.User.id = hass.store.users.map RestrictedGroup.User.id :=
    UserRepairs.foldl_syncUser_ids hids
  rw [SyncContract.removed]
  split_ifs <;> exact hmoved

/-- The repairs that a sync is not about are as it finds them after it has begun. -/
theorem asyncSyncUsers_rest (hids : (hass.store.users.map RestrictedGroup.User.id).Nodup)
    (hpresent : ∀ user ∈ hass.store.users, user.id ∈ wanted hass.entries →
      ∀ key ∈ userIssues, issue ≠ (domain, userIssue key user.id))
    (habsent : ∀ id ∈ wanted hass.entries, ¬UserRepairs.Exists hass id →
      issue ≠ (domain, userIssue issuePolicyUserMissing id)) :
    issue ∈ (UserSync.asyncSyncUsers hass).issues ↔ issue ∈ (SyncContract.begun hass).2.issues := by
  have husers := begun_users hass
  rw [SyncContract.asyncSyncUsers_eq]
  rcases hbegun : SyncContract.begun hass with ⟨none | policy, ensured⟩
  · exact Iff.rfl
  · rw [hbegun] at husers
    have hmoved : issue ∈ (ensured.store.users.foldl
        (UserSync.syncUser (wanted hass.entries)) ensured).issues ↔ issue ∈ ensured.issues := by
      refine Runs.run_invariant_of (P := fun h : Hass => issue ∈ h.issues ↔ issue ∈ ensured.issues)
        (C := fun user => user ∈ ensured.store.users) (fun h user huser hh => ?_)
        (fun user huser => huser) Iff.rfl
      exact (mem_syncUser_rest (hpresent user (husers ▸ huser))).trans hh
    have hreport : ∀ (h : Hass), ∀ name ∈ wanted hass.entries,
        (issue ∈ h.issues ↔ issue ∈ ensured.issues) ∧ h.store.users.map RestrictedGroup.User.id =
          hass.store.users.map RestrictedGroup.User.id →
        (issue ∈ (UserSync.reportMissing h name).issues ↔ issue ∈ ensured.issues) ∧
          (UserSync.reportMissing h name).store.users.map RestrictedGroup.User.id =
            hass.store.users.map RestrictedGroup.User.id := by
      intro h name hname hh
      have hfound : h.store.users.any (·.id = name) = true ↔ UserRepairs.Exists hass name := by
        rw [← UserRepairs.exists_moved hh.2]
        simp [UserRepairs.Exists]
      rw [UserSync.reportMissing]
      split_ifs with hany
      · exact hh
      · rw [hfound] at hany
        refine ⟨?_, hh.2⟩
        rw [createIssue, Finset.mem_insert, or_iff_right (habsent name hname hany)]
        exact hh.1
    refine (Runs.run_invariant_of hreport (fun _ hname => hname) ⟨?_, ?_⟩).1
    · rw [removed_issues]
      exact hmoved
    · rw [removed_ids (husers.symm ▸ hids), husers]

end Goal

/-! ## The first sync of a round -/

/-- What a sync that goes on to the users has done before. -/
structure Opened (names : List String) (object : ℕ) (w v : World D) : Prop where
  house : v.house = w.house
  entries : v.entries = w.entries
  supported : v.supported = w.supported
  otherGroups : v.otherGroups = w.otherGroups
  users : v.users = w.users
  stored : v.stored = some object
  kept : ∀ object', w.stored = some object' → object' = object
  policy : ∃ policy, v.policies[object]? = some policy ∧
    (names ≠ [] → policy = restrictedPolicy w.house)
  issues : v.issues = if names = [] then (dropStale names w).issues
    else (dropStale names w).issues.erase (domain, issuePolicyUnsupported)

section First

variable {w v : World D} {hass : Hass} {names : List String} {object : ℕ} {debounced : Bool}
  (deb : Debouncer D)

theorem ensure_opened (hsupported : w.supported = true)
    (hstored : ∀ object, w.stored = some object → object < w.policies.length)
    (hnames : names ≠ []) :
    ∃ object v, ensure (dropStale names w) = (some object, v) ∧ v.tasks = w.tasks ∧
      Opened names object w v := by
  have hdropped : (dropStale names w).supported = true := hsupported
  simp only [ensure, if_pos hdropped]
  split
  · rename_i hnone
    refine ⟨_, _, rfl, rfl, rfl, rfl, rfl, rfl, rfl, rfl, fun object' hsome => ?_,
      ⟨_, ?_, fun _ => rfl⟩, (if_neg hnames).symm⟩
    · rw [show w.stored = none from hnone] at hsome
      cases hsome
    · exact List.getElem?_concat_length
  · rename_i object hsome
    refine ⟨_, _, rfl, rfl, rfl, rfl, rfl, rfl, rfl, hsome, fun object' hsome' => ?_,
      ⟨_, ?_, fun _ => rfl⟩, (if_neg hnames).symm⟩
    · exact Option.some.inj (hsome'.symm.trans hsome)
    · exact List.getElem?_set_self (hstored object hsome)

theorem startSync_opened (debounced : Bool) (hsupported : w.supported = true)
    (hstored : ∀ object, w.stored = some object → object < w.policies.length)
    (hnames : (wanted w.entries).dedup = names) (hgroup : names ≠ [] ∨ w.stored ≠ none) :
    ∃ object v, startSync deb debounced w =
        { v with tasks := w.tasks ++ [⟨names, object, debounced, .gettingUsers⟩] } ∧
      Opened names object w v := by
  simp only [startSync, hnames]
  by_cases hnone : names = []
  · rw [if_neg (not_not.mpr hnone)]
    have hget : getGroup (dropStale names w) = w.stored := if_pos hsupported
    rw [hget]
    cases hsome : w.stored with
    | none => exact absurd hsome (hgroup.resolve_left (not_not.mpr hnone))
    | some object =>
      have hlt := hstored object hsome
      refine ⟨object, dropStale names w, rfl, rfl, rfl, rfl, rfl, rfl, hsome, fun object' h => ?_,
        ⟨_, List.getElem?_eq_getElem hlt, fun h => absurd hnone h⟩, (if_pos hnone).symm⟩
      exact Option.some.inj (h.symm.trans hsome)
  · obtain ⟨object, v, hensure, htasks, hopened⟩ := ensure_opened hsupported hstored hnone
    rw [if_pos hnone, hensure]
    exact ⟨object, v, by rw [htasks], hopened⟩

theorem Opened.ready (h : Opened names object w v) (hshows : Shows w hass) (hsound : Sound w)
    (hsupported : w.supported = true) (hnames : (wanted w.entries).dedup = names)
    (tasks : List Task) : Ready names object { v with tasks } where
  wanted := by rw [h.entries, hnames]
  hex := by
    intro name hname
    rw [← hnames, List.mem_dedup] at hname
    exact hsound.names name hname
  ids := h.users ▸ hsound.ids
  supported := h.supported.trans hsupported
  homed := by
    rw [h.otherGroups, hshows.otherGroups]
    exact hass.store.usersGroup
  policy := by
    obtain ⟨policy, hpolicy, hcurrent⟩ := h.policy
    exact ⟨policy, hpolicy, fun hne => h.house ▸ hcurrent hne⟩
  fresh := by
    intro issue hissue
    have hdropped : issue ∈ (dropStale names w).issues := by
      rw [show ({ v with tasks } : World D).issues = v.issues from rfl, h.issues] at hissue
      split_ifs at hissue
      · exact hissue
      · exact Finset.mem_of_mem_erase hissue
    simpa using (Finset.mem_filter.mp hdropped).2
  supportedIssue := by
    intro hne
    rw [show ({ v with tasks } : World D).issues = v.issues from rfl, h.issues, if_neg hne]
    exact Finset.notMem_erase _ _

theorem Opened.round (debounced : Bool) (h : Opened names object w v) (hsound : Sound w) :
    Round names object { v with tasks := [⟨names, object, debounced, .gettingUsers⟩] }
      { v with tasks := [⟨names, object, debounced, .gettingUsers⟩] } where
  midway := by
    refine ⟨rfl, rfl, rfl, rfl, rfl, .inl h.stored, rfl, ?_, fun _ _ => Iff.rfl⟩
    intro account haccount hremoved group hgroup hid
    rw [show ({ v with tasks := [⟨names, object, debounced, .gettingUsers⟩] } : World D).users =
      w.users from h.users] at haccount
    obtain ⟨object', hsame, hstored⟩ := hsound.held account haccount hremoved group hgroup hid
    rw [hsame, h.kept object' hstored]
  fits := by
    intro task htask
    rw [List.mem_singleton.mp htask]
    exact ⟨rfl, rfl, trivial⟩
  emptied := by
    intro _ hended
    obtain ⟨task, htask, hphase⟩ := hended
    rw [List.mem_singleton.mp htask] at hphase
    cases hphase

theorem staleIssue_congr {names' : List String} (h : ∀ id, id ∈ names ↔ id ∈ names')
    (issue : Issue) : staleIssue names issue = staleIssue names' issue := by
  simp only [staleIssue, h]

theorem dropStale_issues (hshows : Shows w hass) (hnames : (wanted w.entries).dedup = names) :
    (dropStale names w).issues =
      (UserSync.dropStaleIssues (wanted hass.entries) hass).issues := by
  rw [dropStale, UserSync.dropStaleIssues, hshows.issues, ← hnames, hshows.entries]
  refine Finset.filter_congr fun issue _ => ?_
  rw [staleIssue_congr fun id => List.mem_dedup]

theorem Opened.begun_issues (h : Opened names object w v) (hshows : Shows w hass)
    (hsupported : w.supported = true) (hnames : (wanted w.entries).dedup = names) :
    v.issues = (SyncContract.begun hass).2.issues := by
  have hempty : names = [] ↔ wanted hass.entries = [] := by
    rw [← hnames, hshows.entries, List.dedup_eq_nil]
  rw [h.issues, dropStale_issues hshows hnames]
  simp only [SyncContract.begun]
  by_cases hnone : names = []
  · rw [if_pos hnone, if_neg (not_not.mpr (hempty.mp hnone))]
  · have hdropped : (UserSync.dropStaleIssues (wanted hass.entries) hass).store.supported = true :=
      hshows.supported ▸ hsupported
    rw [if_neg hnone, if_pos (hempty.not.mp hnone), ensure_of_supported hdropped]
    rfl

end First

/-! ## When one of them is over -/

section Over

variable {w start v u : World D} {hass : Hass} {names : List String} {object : ℕ} {id : String}

theorem users_of_placed (hmid : Midway names object start u)
    (hplaced : ∀ id, Placed names object u id) :
    u.users = start.users.map (moved names object) := by
  rw [← hmid.users]
  conv_lhs => rw [← List.map_id u.users]
  refine List.map_congr_left fun account haccount => ?_
  exact (hplaced account.id account haccount rfl).symm

theorem users_synced (hshows : Shows w hass) (husers : u.users = w.users.map (moved names object)) :
    (u.users.filter fun account => !account.removed).map Account.user =
      hass.store.users.map (synced names) := by
  have hremoved : (fun account : Account => !account.removed) ∘ moved names object =
      fun account => !account.removed := by
    funext account
    rw [Function.comp_apply, moved_removed]
  rw [husers, List.filter_map, hremoved, ← hshows.users, List.map_map, List.map_map]
  refine List.map_congr_left fun account haccount => ?_
  rw [Function.comp_apply, Function.comp_apply]
  exact moved_user (by simpa using (List.mem_filter.mp haccount).2)

theorem mem_issues_iff (hshows : Shows w hass) (hsound : Sound w) (hsupported : w.supported = true)
    (hnames : (wanted w.entries).dedup = names) (hready : Ready names object start)
    (hmid : Midway names object start u) (husers : start.users = w.users)
    (hissues : start.issues = (SyncContract.begun hass).2.issues)
    (hreported : ∀ id, Reported names start u id) (issue : Issue) :
    issue ∈ u.issues ↔ issue ∈ (UserSync.asyncSyncUsers hass).issues := by
  have hwellNamed := hsound.wellNamed hshows hsupported
  have hnamed : ∀ id, id ∈ names ↔ id ∈ wanted hass.entries := by
    intro id
    rw [← hnames, hshows.entries, List.mem_dedup]
  have hpresent : ∀ id, id ∈ present start ↔ UserRepairs.Exists hass id := by
    intro id
    rw [hshows.exists_iff, present, present, husers]
  have hrefused : ∀ id key, (∃ account ∈ start.users, account.removed = false ∧ account.id = id ∧
      Refused account.user key) ↔ ∃ user ∈ hass.store.users, user.id = id ∧ Refused user key := by
    intro id key
    rw [husers, ← hshows.users]
    constructor
    · intro h
      obtain ⟨account, haccount, hremoved, hid, hrefused⟩ := h
      exact ⟨account.user, List.mem_map_of_mem
        (List.mem_filter.mpr ⟨haccount, by rw [hremoved]; rfl⟩), hid, hrefused⟩
    · intro h
      obtain ⟨user, huser, hid, hrefused⟩ := h
      obtain ⟨account, haccount, rfl⟩ := List.mem_map.mp huser
      obtain ⟨haccount, hremoved⟩ := List.mem_filter.mp haccount
      exact ⟨account, haccount, by simpa using hremoved, hid, hrefused⟩
  by_cases htouched : Touched names start issue
  · obtain ⟨id, hid, hcase⟩ := htouched
    obtain ⟨hthere, hgone⟩ := hreported id hid
    have hopen := fun key (hkey : key ∈ userIssues) =>
      UserRepairs.open_asyncSyncUsers hass hwellNamed hkey (hready.hex id hid)
    rcases hcase with ⟨hid_present, key, hkey, rfl⟩ | ⟨hid_absent, rfl⟩
    · rw [hthere hid_present key hkey, hrefused]
      refine Iff.trans ?_ (hopen key hkey).symm
      have hexists := (hpresent id).mp hid_present
      simp only [(hnamed id).mp hid, true_and, hexists, not_true_eq_false, false_and, or_false]
    · refine iff_of_true (hgone hid_absent)
        ((hopen _ (by decide)).mpr ⟨(hnamed id).mp hid, .inr ?_⟩)
      exact ⟨fun hexists => hid_absent ((hpresent id).mpr hexists), .inl rfl⟩
  · rw [hmid.rest issue htouched, hissues, asyncSyncUsers_rest (hsound.user_ids hshows)]
    · intro user huser hwanted key hkey hsame
      exact htouched ⟨user.id, (hnamed _).mpr hwanted,
        .inl ⟨(hpresent _).mpr ⟨user, huser, rfl⟩, key, hkey, hsame⟩⟩
    · intro id hwanted hmissing hsame
      exact htouched ⟨id, (hnamed id).mpr hwanted, .inr ⟨fun hthere =>
        hmissing ((hpresent id).mp hthere), hsame⟩⟩

theorem shows_of_done (hshows : Shows w hass) (hsound : Sound w) (hsupported : w.supported = true)
    (hnames : (wanted w.entries).dedup = names) (hopened : Opened names object w v)
    {tasks : List Task} (hround : Round names object { v with tasks } u)
    (hdone : ∀ id, Done names object { v with tasks } u id)
    (hover : ∃ task ∈ u.tasks, task.phase = .ended) :
    Shows u (UserSync.asyncSyncUsers hass) := by
  have hready := hopened.ready hshows hsound hsupported hnames tasks
  have hmid := hround.midway
  have hstore := UserSync.asyncSyncUsers_store (hshows.supported ▸ hsupported)
    (hsound.user_ids hshows) (hsound.homed hshows)
  have hempty : names = [] ↔ wanted hass.entries = [] := by
    rw [← hnames, hshows.entries, List.dedup_eq_nil]
  constructor
  · rw [hmid.house, UserSync.asyncSyncUsers_house, ← hshows.house]
    exact hopened.house
  · rw [hmid.entries, UserSync.asyncSyncUsers_entries, ← hshows.entries]
    exact hopened.entries
  · rw [hmid.supported, hstore, ← hshows.supported]
    exact hopened.supported
  · rw [hstore]
    by_cases hnone : names = []
    · rw [hround.emptied hnone hover, if_pos (hempty.mp hnone)]
      rfl
    · obtain ⟨policy, hpolicy, hcurrent⟩ := hopened.policy
      have hstored : u.stored = some object := hmid.stored.resolve_right fun h => hnone h.1
      rw [if_neg (hempty.not.mp hnone), hstored, Option.bind_some, hmid.policies, ← hshows.house,
        ← hcurrent hnone]
      exact hpolicy
  · rw [hmid.otherGroups, hstore, ← hshows.otherGroups]
    exact hopened.otherGroups
  · have husers := users_of_placed hmid fun id => (hdone id).1
    rw [show ({ v with tasks } : World D).users = w.users from hopened.users] at husers
    rw [users_synced hshows husers, hstore]
    refine List.map_congr_left fun user _ => synced_congr (fun id => ?_) user
    rw [← hnames, hshows.entries, List.mem_dedup]
  · ext issue
    exact mem_issues_iff hshows hsound hsupported hnames hready hmid hopened.users
      (hopened.begun_issues hshows hsupported hnames) (fun id => (hdone id).2) issue

end Over

/-! ## Where there is no group to sync -/

/-- A store that is not supported, or nobody named and no group: a sync ends as it begins. -/
structure Closed (names : List String) (w : World D) : Prop where
  wanted : (wanted w.entries).dedup = names
  tasks : w.tasks = []
  nothing : w.supported = false ∨ names = [] ∧ w.stored = none
  fresh : ∀ issue ∈ w.issues, staleIssue names issue = false
  reported : names ≠ [] → (domain, issuePolicyUnsupported) ∈ w.issues

section Shut

variable {w : World D} {hass : Hass} {names : List String} {debounced : Bool} {e : Event}
  (deb : Debouncer D)

/-- What such a sync does, but for the timer. -/
def shut (names : List String) (w : World D) : World D :=
  if names ≠ [] then report (dropStale names w) issuePolicyUnsupported else dropStale names w

theorem startSync_shut (debounced : Bool) (hnames : (wanted w.entries).dedup = names)
    (hnothing : w.supported = false ∨ names = [] ∧ w.stored = none) :
    ∃ d, startSync deb debounced w = { shut names w with debounced := d } := by
  have hended : ∀ v : World D, ∃ d, callEnded deb debounced v = { v with debounced := d } := by
    intro v
    rw [callEnded]
    split_ifs
    · exact ⟨_, rfl⟩
    · exact ⟨v.debounced, rfl⟩
  simp only [startSync, hnames, shut]
  by_cases hnone : names = []
  · have hget : getGroup (dropStale names w) = none := by
      rw [getGroup]
      split_ifs with hsupported
      · rcases hnothing with hunsupported | ⟨-, hstored⟩
        · rw [show (dropStale names w).supported = w.supported from rfl, hunsupported] at hsupported
          cases hsupported
        · exact hstored
      · rfl
    rw [if_neg (not_not.mpr hnone), if_neg (not_not.mpr hnone), hget]
    exact hended _
  · have hunsupported : ¬(dropStale names w).supported = true := by
      rw [show (dropStale names w).supported = w.supported from rfl,
        hnothing.resolve_right fun h => hnone h.1]
      decide
    rw [if_pos hnone, if_pos hnone, ensure, if_neg hunsupported]
    exact hended _

theorem Closed.shut (h : Closed names w) : shut names w = w := by
  have hdropped : dropStale names w = w := by
    have hfresh : ∀ issue ∈ w.issues, (!staleIssue names issue) = true := by
      intro issue hissue
      rw [h.fresh issue hissue]
      rfl
    rw [dropStale, Finset.filter_true_of_mem hfresh]
  rw [OverlappingSyncs.shut]
  split_ifs with hnone
  · rw [hdropped, report, Finset.insert_eq_of_mem (h.reported hnone)]
  · exact hdropped

theorem Closed.timed (h : Closed names w) (d : D) : Closed names { w with debounced := d } :=
  ⟨h.wanted, h.tasks, h.nothing, h.fresh, h.reported⟩

theorem step_closed (h : Closed names w) (he : Internal e) :
    ∃ d, step deb w e = { w with debounced := d } := by
  cases e with
  | syncStarted =>
    obtain ⟨d, hstep⟩ := startSync_shut deb false h.wanted h.nothing
    rw [h.shut] at hstep
    exact ⟨d, hstep⟩
  | timerEnded =>
    have hended := h.timed (deb.timerEnded w.debounced)
    simp only [step]
    split_ifs
    · obtain ⟨d, hstep⟩ := startSync_shut deb true hended.wanted hended.nothing
      rw [hended.shut] at hstep
      exact ⟨d, hstep⟩
    · exact ⟨_, rfl⟩
  | resumed i =>
    have hnone : w.tasks[i]? = none := by rw [h.tasks, List.getElem?_nil]
    exact ⟨w.debounced, by simp only [step, hnone]⟩
  | userCreated _ | userUpdated _ _ _ | userRemoved _ | entriesChanged _ | houseChanged _
  | policyEnsured => exact he.elim

theorem closed_shut (hidle : w.tasks = [])
    (hnames : (wanted w.entries).dedup = names)
    (hnothing : w.supported = false ∨ names = [] ∧ w.stored = none) :
    Closed names (shut names w) := by
  have hdropped : ∀ issue ∈ (dropStale names w).issues, staleIssue names issue = false := by
    intro issue hissue
    simpa using (Finset.mem_filter.mp hissue).2
  rw [OverlappingSyncs.shut]
  split_ifs with hnone
  · refine ⟨hnames, hidle, hnothing, fun issue hissue => ?_, fun _ => Finset.mem_insert_self _ _⟩
    rcases Finset.mem_insert.mp hissue with rfl | hissue
    · have hparts : Text.rpartition '_' issuePolicyUnsupported = ("policy", "unsupported") := by
        decide
      have hkey : "policy" ∉ userIssues := by decide
      simp [staleIssue, hparts, hkey]
    · exact hdropped issue hissue
  · exact ⟨hnames, hidle, hnothing, hdropped, fun h => absurd h hnone⟩

theorem shows_shut (hshows : Shows w hass) (hnames : (wanted w.entries).dedup = names)
    (hnothing : w.supported = false ∨ names = [] ∧ w.stored = none) :
    Shows (shut names w) (UserSync.asyncSyncUsers hass) := by
  have hempty : names = [] ↔ wanted hass.entries = [] := by
    rw [← hnames, hshows.entries, List.dedup_eq_nil]
  have hdropped : Shows (dropStale names w) (UserSync.dropStaleIssues (wanted hass.entries) hass) :=
    ⟨hshows.house, hshows.entries, hshows.supported, hshows.restricted, hshows.otherGroups,
      hshows.users, dropStale_issues hshows hnames⟩
  rw [SyncContract.asyncSyncUsers_eq]
  simp only [SyncContract.begun, OverlappingSyncs.shut]
  by_cases hnone : names = []
  · have hget : RestrictedGroup.getGroup (UserSync.dropStaleIssues (wanted hass.entries) hass) =
        none := by
      rw [RestrictedGroup.getGroup]
      split_ifs with hsupported
      · rcases hnothing with hunsupported | ⟨-, hstored⟩
        · rw [← hdropped.supported, show (dropStale names w).supported = w.supported from rfl,
            hunsupported] at hsupported
          cases hsupported
        · rw [← hdropped.restricted, show (dropStale names w).stored = none from hstored]
          rfl
      · rfl
    rw [if_neg (not_not.mpr hnone), if_neg (not_not.mpr (hempty.mp hnone)), hget]
    exact hdropped
  · have hunsupported :
        ¬(UserSync.dropStaleIssues (wanted hass.entries) hass).store.supported = true := by
      rw [← hdropped.supported, show (dropStale names w).supported = w.supported from rfl,
        hnothing.resolve_right fun h => hnone h.1]
      decide
    rw [if_pos hnone, if_pos (hempty.not.mp hnone), RestrictedGroup.ensure, if_neg hunsupported]
    exact ⟨hdropped.house, hdropped.entries, hdropped.supported, hdropped.restricted,
      hdropped.otherGroups, hdropped.users, by rw [report, createIssue, hdropped.issues]⟩

end Shut

/-! ## Any round of syncs -/

/-- Once a sync has been started, any number of others may start and all of them may be resumed in
any order: from the moment one of them is over, the world shows what one sync in one step does. -/
theorem overlapping_syncs {D : Type} (deb : Debouncer D) (w : World D) (hass : Hass)
    (hshows : Shows w hass) (hsound : Sound w) (hidle : w.tasks = []) (debounced : Bool)
    (es : List Event) (hes : ∀ e ∈ es, Internal e)
    (hover : (Runs.run (step deb) (startSync deb debounced w) es).tasks = [] ∨
      ∃ task ∈ (Runs.run (step deb) (startSync deb debounced w) es).tasks, task.phase = .ended) :
    Shows (Runs.run (step deb) (startSync deb debounced w) es) (UserSync.asyncSyncUsers hass) := by
  obtain ⟨names, hnames⟩ : ∃ names, (wanted w.entries).dedup = names := ⟨_, rfl⟩
  by_cases hnothing : w.supported = false ∨ names = [] ∧ w.stored = none
  · have hclosed := closed_shut hidle hnames hnothing
    obtain ⟨d, hstart⟩ := startSync_shut deb debounced hnames hnothing
    have hrun : ∃ d, Runs.run (step deb) (startSync deb debounced w) es =
        { shut names w with debounced := d } := by
      refine Runs.run_invariant_of (P := fun v => ∃ d, v = { shut names w with debounced := d })
        (C := Internal) (fun v e he hv => ?_) hes ⟨d, hstart⟩
      obtain ⟨d, rfl⟩ := hv
      obtain ⟨d', hstep⟩ := step_closed deb (hclosed.timed d) he
      exact ⟨d', hstep⟩
    obtain ⟨d, hrun⟩ := hrun
    have hshut := shows_shut hshows hnames hnothing
    rw [hrun]
    exact ⟨hshut.house, hshut.entries, hshut.supported, hshut.restricted, hshut.otherGroups,
      hshut.users, hshut.issues⟩
  · rw [not_or, Bool.not_eq_false, not_and] at hnothing
    obtain ⟨hsupported, hgroup⟩ := hnothing
    obtain ⟨object, v, hstart, hopened⟩ := startSync_opened deb debounced hsupported
      hsound.stored hnames (Decidable.or_iff_not_imp_left.mpr fun h => hgroup (not_not.mp h))
    rw [hidle, List.nil_append] at hstart
    have hready := hopened.ready hshows hsound hsupported hnames
      [⟨names, object, debounced, .gettingUsers⟩]
    have hround := hopened.round debounced hsound
    rw [hstart] at hover ⊢
    have hcovered := covered_first hround.midway rfl
    have hrun := (sweep_syncs deb hready).inv_run hes hround
    have hsome : (Runs.run (step deb) _ es).tasks ≠ [] :=
      (Runs.run_invariant_of (C := Internal)
        (P := fun u => Round names object _ u ∧ u.tasks ≠ [])
        (fun u e he hu => ⟨round_step hready he hu.1, tasks_ne_nil_step hready he hu.1.midway hu.2⟩)
        hes ⟨hround, List.cons_ne_nil _ _⟩).2
    obtain ⟨task, htask, hphase⟩ := hover.resolve_left hsome
    obtain ⟨k, hk⟩ := List.getElem?_of_mem htask
    have hdone := (sweep_syncs deb hready).done_run hes hround hcovered ⟨task, hk⟩
      (fun id hleft => ?_)
    · exact shows_of_done hshows hsound hsupported hnames hopened hrun hdone ⟨task, htask, hphase⟩
    · obtain ⟨other, hother, hleft⟩ := hleft
      rw [hk, Option.some.injEq] at hother
      rw [← hother, hphase] at hleft
      cases hleft

theorem mem_pairGroups : groupIdUser ∈ pair.otherGroups :=
  List.mem_cons_of_mem _ (List.mem_singleton_self groupIdUser)

def pairHass : Hass where
  house := ⟨[], []⟩
  entries := pair.entries
  store :=
    { supported := true
      restricted := some (restrictedPolicy ⟨[], []⟩)
      otherGroups := pair.otherGroups
      users := [bob.user, ada.user]
      usersGroup := mem_pairGroups }
  issues := ∅

theorem pair_shows : Shows pair pairHass := ⟨rfl, rfl, rfl, rfl, rfl, rfl, rfl⟩

theorem pair_sound : Sound pair where
  ids := by decide
  users := by decide
  names := by decide
  stored := by
    intro object hstored
    obtain rfl : 0 = object := Option.some.inj hstored
    exact Nat.zero_lt_one
  held := by
    intro account haccount _ group hgroup hid
    simp only [pair, List.mem_cons, List.not_mem_nil, or_false] at haccount
    rcases haccount with rfl | rfl
    · exact ⟨0, List.mem_singleton.mp hgroup, rfl⟩
    · rw [List.mem_singleton.mp hgroup] at hid
      exact absurd hid (by decide)

theorem overlapping_syncs_pair :
    Shows (Runs.run (step timer) (startSync timer false pair) [.syncStarted, .resumed 0, .resumed 1,
      .resumed 0, .resumed 1, .resumed 0, .resumed 0, .resumed 0, .resumed 0])
      (UserSync.asyncSyncUsers pairHass) := by
  refine overlapping_syncs timer pair pairHass pair_shows pair_sound rfl false _ ?_ (.inr ?_)
  · simp [Internal]
  · decide

end HermesConversation.OverlappingSyncs
