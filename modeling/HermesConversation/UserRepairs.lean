import HermesConversation.UserSync

/-!
# The repairs about users

A sync drops the repairs of users that no entry names, then those of every named user it
finds, and raises what it sees. It does not look at the repairs of a named user who is gone.
-/

namespace HermesConversation.UserRepairs

open Library RestrictedPolicy RestrictedGroup UserSync

inductive Event where
  | sync
  | entriesChanged (entries : List ConfigEntry)
  | usersChanged (users : List User)

def setEntries (hass : Hass) (entries : List ConfigEntry) : Hass := { hass with entries }

def setUsers (hass : Hass) (users : List User) : Hass :=
  { hass with store := { hass.store with users } }

def step (hass : Hass) : Event → Hass
  | .sync => asyncSyncUsers hass
  | .entriesChanged entries => setEntries hass entries
  | .usersChanged users => setUsers hass users

/-- The ids of users are hexadecimal. -/
def Hex (id : String) : Prop := '_' ∉ id.toList

def Open (hass : Hass) (key userId : String) : Prop :=
  (domain, userIssue key userId) ∈ hass.issues

instance (id : String) : Decidable (Hex id) := inferInstanceAs (Decidable (_ ∉ _))

instance (hass : Hass) (key userId : String) : Decidable (Open hass key userId) :=
  inferInstanceAs (Decidable (_ ∈ _))

def Exists (hass : Hass) (userId : String) : Prop := ∃ user ∈ hass.store.users, user.id = userId

/-- What a sync raises about a user it finds. -/
def Refused (user : User) (key : String) : Prop :=
  key = issuePolicyUserAdmin ∧ isAdmin user = true ∨
    key = issuePolicyUserGroups ∧ isAdmin user = false ∧ manageable user = false

/-- The open repairs are the ones that the entries and the users call for. -/
def Truthful (hass : Hass) : Prop :=
  ∀ key ∈ userIssues, ∀ userId, Hex userId →
    (Open hass key userId ↔ userId ∈ wanted hass.entries ∧
      (key = issuePolicyUserMissing ∧ ¬Exists hass userId ∨
        ∃ user ∈ hass.store.users, user.id = userId ∧ Refused user key))

/-- The repairs of other integrations. -/
def others (hass : Hass) : Finset Issue := hass.issues.filter fun issue => issue.1 ≠ domain

/-- No admin or groups repair is open for a named user who is gone. -/
def NoneLeft (hass : Hass) : Prop :=
  ∀ userId ∈ wanted hass.entries, ¬Exists hass userId →
    ¬Open hass issuePolicyUserAdmin userId ∧ ¬Open hass issuePolicyUserGroups userId

section Issues

variable {hass : Hass} {names : List String} {key userId : String} {user : User}

theorem rpartition_userIssue (h : Hex userId) :
    Text.rpartition '_' (userIssue key userId) = (key, userId) := by
  have hseparator : "_" = String.singleton '_' := by decide
  rw [userIssue, hseparator]
  exact Text.rpartition_append h

theorem userIssue_inj {key' userId' : String} (h : Hex userId) (h' : Hex userId') :
    userIssue key userId = userIssue key' userId' ↔ key = key' ∧ userId = userId' := by
  constructor
  · intro hsame
    have hparts := congrArg (Text.rpartition '_') hsame
    rw [rpartition_userIssue h, rpartition_userIssue h', Prod.mk.injEq] at hparts
    exact hparts
  · intro hsame
    rw [hsame.1, hsame.2]

theorem open_dropStaleIssues (hkey : key ∈ userIssues) (h : Hex userId) :
    Open (dropStaleIssues names hass) key userId ↔ Open hass key userId ∧ userId ∈ names := by
  simp [Open, dropStaleIssues, staleIssue, rpartition_userIssue h, hkey]

theorem open_deleteIssue {key' userId' : String} (h : Hex userId) (h' : Hex userId') :
    Open (deleteIssue hass (userIssue key' userId')) key userId ↔
      ¬(key = key' ∧ userId = userId') ∧ Open hass key userId := by
  simp [Open, deleteIssue, userIssue_inj h h']

theorem open_createIssue {key' userId' : String} (h : Hex userId) (h' : Hex userId') :
    Open (createIssue hass (userIssue key' userId')) key userId ↔
      (key = key' ∧ userId = userId') ∨ Open hass key userId := by
  simp [Open, createIssue, userIssue_inj h h']

theorem open_asyncMove {group : String} :
    Open (asyncMove hass user group) key userId ↔ Open hass key userId := Iff.rfl

theorem open_cleared (hkey : key ∈ userIssues) (h : Hex userId) (h' : Hex user.id) :
    Open (userIssues.foldl (fun hass key => deleteIssue hass (userIssue key user.id)) hass)
        key userId ↔ user.id ≠ userId ∧ Open hass key userId := by
  simp only [userIssues, List.foldl_cons, List.foldl_nil, open_deleteIssue h h']
  simp only [userIssues, List.mem_cons, List.not_mem_nil, or_false] at hkey
  constructor
  · intro hopen
    obtain ⟨hmissing, hgroups, hadmin, hopen⟩ := hopen
    refine ⟨fun hid => ?_, hopen⟩
    rcases hkey with rfl | rfl | rfl
    · exact hadmin ⟨rfl, hid.symm⟩
    · exact hgroups ⟨rfl, hid.symm⟩
    · exact hmissing ⟨rfl, hid.symm⟩
  · intro hopen
    have hother : ∀ key', ¬(key = key' ∧ userId = user.id) := fun _ heq => hopen.1 heq.2.symm
    exact ⟨hother _, hother _, hother _, hopen.2⟩

theorem open_asyncRestrict (hkey : key ∈ userIssues) (h : Hex userId) (h' : Hex user.id) :
    Open (asyncRestrict hass user) key userId ↔
      if user.id = userId then Refused user key else Open hass key userId := by
  have hcleared := @open_cleared hass key userId user hkey h h'
  have hraised : ∀ key', (Open (createIssue (userIssues.foldl (fun hass key =>
      deleteIssue hass (userIssue key user.id)) hass) (userIssue key' user.id)) key userId ↔
        if user.id = userId then key = key' else Open hass key userId) := by
    intro key'
    rw [open_createIssue h h', hcleared]
    by_cases hid : user.id = userId
    · simp [hid]
    · simp [hid, Ne.symm hid]
  simp only [asyncRestrict]
  cases hadmin : isAdmin user with
  | true =>
    rw [if_pos rfl, hraised]
    simp [Refused, hadmin]
  | false =>
    cases hmanageable : manageable user with
    | false =>
      rw [if_neg Bool.false_ne_true, if_pos (Bool.not_false), hraised]
      simp [Refused, hadmin, hmanageable]
    | true =>
      rw [if_neg Bool.false_ne_true, if_neg (by decide)]
      have hnone : ¬Refused user key := by simp [Refused, hadmin, hmanageable]
      by_cases hid : user.id = userId
      · rw [if_pos hid]
        split_ifs
        · rw [open_asyncMove, hcleared]
          exact iff_of_false (fun hopen => hopen.1 hid) hnone
        · rw [hcleared]
          exact iff_of_false (fun hopen => hopen.1 hid) hnone
      · rw [if_neg hid]
        split_ifs
        · rw [open_asyncMove, hcleared, and_iff_right hid]
        · rw [hcleared, and_iff_right hid]

theorem open_syncUser (hkey : key ∈ userIssues) (h : Hex userId) (h' : Hex user.id) :
    Open (syncUser names hass user) key userId ↔
      if user.id = userId ∧ userId ∈ names then Refused user key else Open hass key userId := by
  rw [syncUser]
  by_cases hwanted : user.id ∈ names
  · rw [if_pos hwanted, open_asyncRestrict hkey h h']
    by_cases hid : user.id = userId
    · rw [if_pos hid, if_pos ⟨hid, hid ▸ hwanted⟩]
    · rw [if_neg hid, if_neg fun hboth : user.id = userId ∧ userId ∈ names => hid hboth.1]
  · rw [if_neg hwanted, if_neg fun hboth : user.id = userId ∧ userId ∈ names =>
      hwanted (hboth.1 ▸ hboth.2)]
    split_ifs
    · exact Iff.rfl
    · exact Iff.rfl

/-- Every named user has one turn in the loop; the repairs of the others are left alone. -/
theorem open_foldl_syncUser (hkey : key ∈ userIssues) (h : Hex userId) (hnamed : userId ∈ names)
    {users : List User} (hhex : ∀ user ∈ users, Hex user.id) (hids : (users.map User.id).Nodup) :
    Open (users.foldl (syncUser names) hass) key userId ↔
      (∃ user ∈ users, user.id = userId ∧ Refused user key) ∨
        (∀ user ∈ users, user.id ≠ userId) ∧ Open hass key userId := by
  induction users generalizing hass with
  | nil => simp
  | cons user users ih =>
    rw [List.map_cons, List.nodup_cons] at hids
    obtain ⟨huser, husers⟩ := List.forall_mem_cons.mp hhex
    rw [List.foldl_cons, ih husers hids.2, open_syncUser hkey h huser, List.exists_mem_cons_iff,
      List.forall_mem_cons]
    by_cases hid : user.id = userId
    · have hrest : ∀ other ∈ users, other.id ≠ userId := by
        intro other hother heq
        exact hids.1 (List.mem_map.mpr ⟨other, hother, heq.trans hid.symm⟩)
      have hnone : ¬∃ other ∈ users, other.id = userId ∧ Refused other key := by
        intro hex
        obtain ⟨other, hother, heq, -⟩ := hex
        exact hrest other hother heq
      simp only [hid, hnamed, true_and, if_true, hnone, false_or, or_false, ne_eq,
        not_true_eq_false, false_and, and_iff_right hrest]
    · simp only [hid, false_and, if_false, false_or, ne_eq, not_false_eq_true, true_and]

theorem open_reportMissing {name : String} (h : Hex userId) (h' : Hex name) :
    Open (reportMissing hass name) key userId ↔
      key = issuePolicyUserMissing ∧ name = userId ∧ ¬Exists hass userId ∨
        Open hass key userId := by
  have hfound : hass.store.users.any (·.id = name) = true ↔ Exists hass name := by
    simp [Exists]
  rw [reportMissing]
  split_ifs with hany
  · rw [hfound] at hany
    constructor
    · exact .inr
    · intro hopen
      rcases hopen with ⟨-, rfl, hmissing⟩ | hopen
      · exact absurd hany hmissing
      · exact hopen
  · rw [hfound] at hany
    rw [open_createIssue h h']
    refine or_congr_left (and_congr_right fun _ => ?_)
    constructor
    · intro hid
      exact ⟨hid.symm, hid ▸ hany⟩
    · exact fun hid => hid.1.symm

theorem open_foldl_reportMissing (h : Hex userId) (hhex : ∀ name ∈ names, Hex name) :
    Open (names.foldl reportMissing hass) key userId ↔
      key = issuePolicyUserMissing ∧ userId ∈ names ∧ ¬Exists hass userId ∨
        Open hass key userId := by
  induction names generalizing hass with
  | nil => simp
  | cons name names ih =>
    obtain ⟨hname, hnames⟩ := List.forall_mem_cons.mp hhex
    have hsame : Exists (reportMissing hass name) userId ↔ Exists hass userId := by
      rw [Exists, Exists, show (reportMissing hass name).store = hass.store from
        reportMissing_store [name] hass]
    rw [List.foldl_cons, ih hnames, open_reportMissing h hname, hsame, ← or_assoc, ← and_or_left,
      List.mem_cons, ← or_and_right, or_comm (a := userId ∈ names), eq_comm (a := name)]

theorem open_foldl_unnamed (hkey : key ∈ userIssues) (h : Hex userId) (hnamed : userId ∉ names)
    {users : List User} (hhex : ∀ user ∈ users, Hex user.id) :
    Open (users.foldl (syncUser names) hass) key userId ↔ Open hass key userId := by
  refine Runs.run_invariant_of (P := fun v => Open v key userId ↔ Open hass key userId) ?_ hhex
    Iff.rfl
  intro v user huser hopen
  rw [open_syncUser hkey h huser,
    if_neg fun hboth : user.id = userId ∧ userId ∈ names => hnamed hboth.2]
  exact hopen

theorem open_ensure (hsupported : hass.store.supported = true) (hkey : key ∈ userIssues)
    (h : Hex userId) : Open (ensure hass).2 key userId ↔ Open hass key userId := by
  have hother : userIssue key userId ≠ issuePolicyUnsupported := by
    intro hsame
    have hparts := congrArg (Text.rpartition '_') hsame
    have hunsupported : Text.rpartition '_' issuePolicyUnsupported = ("policy", "unsupported") := by
      decide
    rw [rpartition_userIssue h, hunsupported, Prod.mk.injEq] at hparts
    rw [hparts.1] at hkey
    revert hkey
    decide
  rw [ensure_of_supported hsupported]
  simp [Open, setPolicy, deleteIssue, hother]

end Issues

/-! ## One sync -/

structure WellNamed (hass : Hass) : Prop where
  supported : hass.store.supported = true
  ids : (hass.store.users.map User.id).Nodup
  users : ∀ user ∈ hass.store.users, Hex user.id
  names : ∀ name ∈ wanted hass.entries, Hex name

section Sync

variable {hass : Hass} {names : List String} {key userId : String} {user : User}

theorem exists_moved {hass' : Hass}
    (hids : hass'.store.users.map User.id = hass.store.users.map User.id) :
    Exists hass' userId ↔ Exists hass userId := by
  rw [Exists, Exists, ← List.mem_map, ← List.mem_map, hids]

theorem foldl_syncUser_ids (hids : (hass.store.users.map User.id).Nodup) :
    ((hass.store.users.foldl (syncUser names) hass).store.users).map User.id =
      hass.store.users.map User.id := by
  rw [foldl_syncUser_store hass.store.users hass [] rfl hids, List.nil_append, map_synced_id]

theorem ready (h : WellNamed hass) (hkey : key ∈ userIssues) (hhex : Hex userId) :
    ∃ policy ensured, ensure (dropStaleIssues (wanted hass.entries) hass) = (some policy, ensured) ∧
      ensured.store.users = hass.store.users ∧
        (Open ensured key userId ↔ Open hass key userId ∧ userId ∈ wanted hass.entries) := by
  have hsupported : (dropStaleIssues (wanted hass.entries) hass).store.supported = true :=
    h.supported
  have hopen := open_ensure hsupported hkey hhex
  rw [open_dropStaleIssues hkey hhex] at hopen
  have hensure := ensure_of_supported hsupported
  rw [hensure] at hopen
  exact ⟨_, _, hensure, rfl, hopen⟩

/-- After a sync a repair is open for a named user who was found and refused, or who was not
found and either is reported as missing or had the repair already. -/
theorem open_asyncSyncUsers (hass : Hass) (h : WellNamed hass) (hkey : key ∈ userIssues)
    (hhex : Hex userId) : Open (asyncSyncUsers hass) key userId ↔
      userId ∈ wanted hass.entries ∧
        ((∃ user ∈ hass.store.users, user.id = userId ∧ Refused user key) ∨
          ¬Exists hass userId ∧ (key = issuePolicyUserMissing ∨ Open hass key userId)) := by
  by_cases hwanted : wanted hass.entries = []
  · have hget : getGroup (dropStaleIssues [] hass) = hass.store.restricted := if_pos h.supported
    have hdropped : ¬Open (dropStaleIssues [] hass) key userId := by
      rw [open_dropStaleIssues hkey hhex]
      exact fun hopen => List.not_mem_nil hopen.2
    simp only [asyncSyncUsers, hwanted, ne_eq, not_true_eq_false, if_false, if_true, hget,
      List.not_mem_nil, false_and, iff_false]
    cases hass.store.restricted with
    | none => exact hdropped
    | some policy =>
      show ¬Open (hass.store.users.foldl (syncUser []) (dropStaleIssues [] hass)) key userId
      rw [open_foldl_unnamed hkey hhex List.not_mem_nil h.users]
      exact hdropped
  · obtain ⟨policy, ensured, hensure, husers, hopen⟩ := ready h hkey hhex
    have hmoved : Exists (ensured.store.users.foldl (syncUser (wanted hass.entries)) ensured)
        userId ↔ Exists hass userId := by
      apply exists_moved
      rw [foldl_syncUser_ids (husers.symm ▸ h.ids), husers]
    simp only [asyncSyncUsers, if_pos hwanted, if_neg hwanted, hensure]
    rw [open_foldl_reportMissing hhex h.names, hmoved, husers]
    by_cases hnamed : userId ∈ wanted hass.entries
    · have hnobody : (∀ user ∈ hass.store.users, user.id ≠ userId) ↔ ¬Exists hass userId := by
        simp [Exists]
      rw [open_foldl_syncUser hkey hhex hnamed h.users h.ids, hopen, hnobody]
      simp only [hnamed, true_and, and_true]
      rw [and_or_left, and_comm (a := key = issuePolicyUserMissing)]
      exact or_left_comm
    · rw [open_foldl_unnamed hkey hhex hnamed h.users, hopen]
      simp [hnamed]

theorem refused_synced (hnamed : user.id ∈ names) :
    Refused (synced names user) key ↔ Refused user key := by
  rw [synced, if_pos hnamed]
  cases hmanageable : manageable user with
  | false => exact Iff.rfl
  | true =>
    have hadmin : isAdmin user = false := manageable_not_admin hmanageable
    have hmoved : manageable { user with groups := [groupId] } = true := by
      simp only [isAdmin, Bool.or_eq_false_iff] at hadmin
      rw [manageable] at hmanageable ⊢
      split_ifs at hmanageable with hrefused
      simp only [isAdmin, Bool.or_eq_true, not_or] at hrefused
      obtain ⟨⟨hgenerated, -⟩, hactive⟩ := hrefused
      have hnot : groupIdAdmin ∉ [groupId] := by decide
      simp [isAdmin, hadmin.1, hgenerated, hactive, hnot]
    have hmovedAdmin := manageable_not_admin hmoved
    simp [Refused, hmanageable, hadmin, hmoved, hmovedAdmin]

theorem sync_users (h : WellNamed hass) (hnamed : userId ∈ wanted hass.entries) :
    (asyncSyncUsers hass).store.users =
      hass.store.users.map (synced (wanted hass.entries)) := by
  rw [asyncSyncUsers_wanted h.supported h.ids (List.ne_nil_of_mem hnamed)]

theorem sync_exists (h : WellNamed hass) (hnamed : userId ∈ wanted hass.entries) :
    Exists (asyncSyncUsers hass) userId ↔ Exists hass userId := by
  apply exists_moved
  rw [sync_users h hnamed, map_synced_id]

theorem sync_refused (h : WellNamed hass) (hnamed : userId ∈ wanted hass.entries) :
    (∃ user ∈ (asyncSyncUsers hass).store.users, user.id = userId ∧ Refused user key) ↔
      ∃ user ∈ hass.store.users, user.id = userId ∧ Refused user key := by
  rw [sync_users h hnamed]
  simp only [List.mem_map, exists_exists_and_eq_and, synced_id]
  refine exists_congr fun user => and_congr_right fun _ => and_congr_right fun hid => ?_
  exact refused_synced (hid.symm ▸ hnamed)

theorem NoneLeft.missing (hnone : NoneLeft hass) (hkey : key ∈ userIssues)
    (hnamed : userId ∈ wanted hass.entries) (hgone : ¬Exists hass userId)
    (hleft : Open hass key userId) : key = issuePolicyUserMissing := by
  obtain ⟨hadmin, hgroups⟩ := hnone userId hnamed hgone
  simp only [userIssues, List.mem_cons, List.not_mem_nil, or_false] at hkey
  rcases hkey with rfl | rfl | rfl
  · exact absurd hleft hadmin
  · exact absurd hleft hgroups
  · rfl

theorem truthful_sync_iff (h : WellNamed hass) :
    Truthful (asyncSyncUsers hass) ↔ NoneLeft hass := by
  constructor
  · intro htruth userId hnamed hgone
    have hclear : ∀ key ∈ userIssues, key ≠ issuePolicyUserMissing → ¬Open hass key userId := by
      intro key hkey hne hleft
      have hhex : Hex userId := h.names userId hnamed
      have hafter : Open (asyncSyncUsers hass) key userId :=
        (open_asyncSyncUsers hass h hkey hhex).mpr ⟨hnamed, .inr ⟨hgone, .inr hleft⟩⟩
      rcases ((htruth key hkey userId hhex).mp hafter).2 with ⟨hmissing, -⟩ | hrefused
      · exact hne hmissing
      · obtain ⟨user, huser, hid, -⟩ := (sync_refused h hnamed).mp hrefused
        exact hgone ⟨user, huser, hid⟩
    exact ⟨hclear _ (List.mem_cons_self) (by decide),
      hclear _ (List.mem_cons_of_mem _ List.mem_cons_self) (by decide)⟩
  · intro hnone key hkey userId hhex
    rw [open_asyncSyncUsers hass h hkey hhex, asyncSyncUsers_entries]
    refine and_congr_right fun hnamed => ?_
    rw [sync_exists h hnamed, sync_refused h hnamed, or_comm]
    refine or_congr_left ?_
    constructor
    · intro hleft
      obtain ⟨hgone, hmissing | hleft⟩ := hleft
      · exact ⟨hmissing, hgone⟩
      · exact ⟨hnone.missing hkey hnamed hgone hleft, hgone⟩
    · intro hmissing
      exact ⟨hmissing.2, .inl hmissing.1⟩

theorem others_createIssue (hass : Hass) (key : String) :
    others (createIssue hass key) = others hass := by
  simp [others, createIssue, Finset.filter_insert]

theorem others_deleteIssue (hass : Hass) (key : String) :
    others (deleteIssue hass key) = others hass := by
  ext issue
  simp only [others, deleteIssue, Finset.mem_filter, Finset.mem_erase]
  refine and_congr_left fun hother => and_iff_right ?_
  intro hsame
  exact hother (by rw [hsame])

theorem others_dropStaleIssues (names : List String) (hass : Hass) :
    others (dropStaleIssues names hass) = others hass := by
  ext issue
  simp only [others, dropStaleIssues, Finset.mem_filter]
  refine and_congr_left fun hother => and_iff_left ?_
  simp [staleIssue, hother]

theorem asyncSyncUsers_others (hass : Hass) : others (asyncSyncUsers hass) = others hass :=
  asyncSyncUsers_frame (fun _ _ => rfl) others_createIssue others_deleteIssue
    others_dropStaleIssues hass

end Sync

/-! ## Runs -/

section Runs

variable {hass : Hass}

def Event.WellNamed : Event → Prop
  | .sync => True
  | .entriesChanged entries => ∀ name ∈ wanted entries, Hex name
  | .usersChanged users => (users.map User.id).Nodup ∧ ∀ user ∈ users, Hex user.id

instance : DecidablePred Event.WellNamed
  | .sync => .isTrue trivial
  | .entriesChanged entries => inferInstanceAs (Decidable (∀ name ∈ wanted entries, Hex name))
  | .usersChanged users =>
    inferInstanceAs (Decidable ((users.map User.id).Nodup ∧ ∀ user ∈ users, Hex user.id))

/-- What a sync leaves behind. -/
def SyncTells (hass : Hass) (e : Event) : Prop :=
  e = .sync → Truthful (step hass e) ∧ others (step hass e) = others hass

def SyncFinds (hass : Hass) (e : Event) : Prop := e = .sync → NoneLeft hass

theorem sync_unmanaged (h : WellNamed hass) (hwanted : wanted hass.entries = [])
    (hnone : hass.store.restricted = none) : (asyncSyncUsers hass).store = hass.store := by
  have hget : getGroup (dropStaleIssues [] hass) = none := (if_pos h.supported).trans hnone
  simp only [asyncSyncUsers, hwanted, ne_eq, not_true_eq_false, if_false, hget]
  rfl

theorem WellNamed.congr {hass' : Hass} (h : WellNamed hass)
    (hsupported : hass'.store.supported = hass.store.supported)
    (hids : hass'.store.users.map User.id = hass.store.users.map User.id)
    (hentries : hass'.entries = hass.entries) : WellNamed hass' := by
  refine ⟨hsupported.trans h.supported, hids ▸ h.ids, ?_, hentries ▸ h.names⟩
  intro user huser
  have hmem : user.id ∈ hass.store.users.map User.id := hids ▸ List.mem_map_of_mem huser
  obtain ⟨before, hbefore, hid⟩ := List.mem_map.mp hmem
  exact hid ▸ h.users before hbefore

theorem wellNamed_sync (h : WellNamed hass) : WellNamed (asyncSyncUsers hass) := by
  have hmoved : ∀ restricted, (asyncSyncUsers hass).store = { hass.store with
      restricted, users := hass.store.users.map (synced (wanted hass.entries)) } →
      WellNamed (asyncSyncUsers hass) := by
    intro restricted hstore
    refine h.congr (by rw [hstore]) ?_ (asyncSyncUsers_entries hass)
    rw [hstore, map_synced_id]
  by_cases hwanted : wanted hass.entries = []
  · by_cases hnone : hass.store.restricted = none
    · have hstore := sync_unmanaged h hwanted hnone
      exact h.congr (by rw [hstore]) (by rw [hstore]) (asyncSyncUsers_entries hass)
    · exact hmoved _ (asyncSyncUsers_store h.supported h.ids fun habsent => absurd habsent hnone)
  · exact hmoved _ (asyncSyncUsers_wanted h.supported h.ids hwanted)

theorem wellNamed_step {e : Event} (he : e.WellNamed) (h : WellNamed hass) :
    WellNamed (step hass e) := by
  cases e with
  | sync => exact wellNamed_sync h
  | entriesChanged entries => exact ⟨h.supported, h.ids, h.users, he⟩
  | usersChanged users => exact ⟨h.supported, he.1, he.2, h.names⟩

theorem syncTells_iff (hass : Hass) (h : WellNamed hass) (es : List Event)
    (hes : ∀ e ∈ es, e.WellNamed) :
    Runs.Guarded step SyncTells hass es ↔ Runs.Guarded step SyncFinds hass es := by
  refine Runs.guarded_congr (C := Event.WellNamed) (fun s e he hs => wellNamed_step he hs)
    (fun s e _ hs => ?_) hes h
  refine imp_congr_right fun hsync => ?_
  subst hsync
  exact (and_iff_left (asyncSyncUsers_others s)).trans (truthful_sync_iff hs)

def dora : User := ⟨"d0ra", false, true, false, [groupIdAdmin]⟩

def adminStore : AuthStore :=
  ⟨true, none, [groupIdAdmin, groupIdUser], [dora], by decide⟩

def adminHass : Hass := ⟨⟨[], []⟩, [⟨"hub", some "d0ra", true⟩], adminStore, ∅⟩

theorem wellNamed_adminHass : WellNamed adminHass :=
  ⟨rfl, by decide, by decide, by decide⟩

theorem syncTells_iff_admin :
    Runs.Guarded step SyncTells adminHass [.sync, .usersChanged [], .entriesChanged [], .sync] ↔
      Runs.Guarded step SyncFinds adminHass
        [.sync, .usersChanged [], .entriesChanged [], .sync] :=
  syncTells_iff adminHass wellNamed_adminHass _ (by decide)

theorem not_syncTells_deleted :
    ¬ ∀ (hass : Hass) (es : List Event), WellNamed hass → hass.issues = ∅ →
      (∀ e ∈ es, e.WellNamed) → Runs.Guarded step SyncTells hass es := by
  intro h
  obtain ⟨-, -, hlast, -⟩ := h adminHass [.sync, .usersChanged [], .sync] wellNamed_adminHass rfl
    (by decide)
  have hleft : Open (step (step (step adminHass .sync) (.usersChanged [])) .sync)
      issuePolicyUserAdmin "d0ra" := by
    decide
  have hnobody :
      (step (step (step adminHass .sync) (.usersChanged [])) .sync).store.users = [] := by
    decide
  obtain ⟨-, ⟨hmissing, -⟩ | ⟨user, huser, -⟩⟩ :=
    ((hlast rfl).1 issuePolicyUserAdmin (by decide) "d0ra" (by decide)).mp hleft
  · revert hmissing
    decide
  · exact absurd (hnobody ▸ huser) List.not_mem_nil

end Runs

end HermesConversation.UserRepairs
