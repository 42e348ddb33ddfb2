import HermesConversation.Library.Runs
import HermesConversation.UserSync

/-!
# Keeping the memberships up to date with the users

The syncs as tasks that are suspended at the calls into the auth manager, and the listener
that tells the events of their own moves from those of others by one flag. Groups are
objects here: one that is removed from the store may still be held by a user or by a task.
-/

namespace HermesConversation.UserWatch

open Library Entities RestrictedPolicy RestrictedGroup UserSync

/-- The helper that async_watch_users schedules its syncs with: what `async_schedule_call`, the
end of its timer and the end of a call it made do to it, whether a call is due at the end of
the timer, and whether one it made is under way. -/
structure Debouncer (D : Type) where
  scheduleCall : D → D
  timerEnded : D → D
  callEnded : D → D
  due : D → Bool
  busy : D → Bool

/-- A call that is scheduled is due until the timer makes it, and one that comes while another
is under way is dropped. -/
structure Debouncer.Documented {D : Type} (deb : Debouncer D) : Prop where
  scheduleCall_due : ∀ d, deb.due (deb.scheduleCall d) = true ↔
    deb.due d = true ∨ deb.busy d = false
  callEnded_due : ∀ d, deb.due d = true → deb.due (deb.callEnded d) = true

/-- The restricted groups are numbered in the order they were created in. -/
inductive Group where
  | other (id : String)
  | restricted (object : ℕ)
  deriving DecidableEq

def Group.id : Group → String
  | .other id => id
  | .restricted _ => groupId

structure Account where
  id : String
  isOwner : Bool
  isActive : Bool
  systemGenerated : Bool
  groups : List Group
  removed : Bool

def Account.user (account : Account) : User :=
  ⟨account.id, account.isOwner, account.isActive, account.systemGenerated,
    account.groups.map Group.id⟩

/-- How far a call of `async_update_user` has got. -/
inductive Stage where
  | requested
  | written
  | fired
  deriving DecidableEq

/-- What a sync is suspended at, with what it has still to go through. -/
inductive Phase where
  | gettingUsers
  | moving (userId group : String) (stage : Stage) (users : List String)
  | gettingUser (userId : String) (wanted : List String)
  | ended
  deriving DecidableEq

structure Task where
  wanted : List String
  group : ℕ
  debounced : Bool
  phase : Phase

/-- `policies` are those of the restricted groups created so far, `stored` is the one in the
store, and `users` are the user objects, the removed ones included. -/
structure World (D : Type) where
  house : House
  entries : List ConfigEntry
  supported : Bool
  otherGroups : List String
  policies : List Policy
  stored : Option ℕ
  users : List Account
  issues : Finset Issue
  movingUser : Bool
  debounced : D
  tasks : List Task

variable {D : Type}

def findGroup (w : World D) (id : String) : Option Group :=
  if id = groupId then w.stored.map .restricted
  else if id ∈ w.otherGroups then some (.other id)
  else none

def known (w : World D) (userId : String) : Bool :=
  w.users.any fun user => user.id = userId && !user.removed

def report (w : World D) (key : String) : World D :=
  { w with issues := insert (domain, key) w.issues }

def dropReport (w : World D) (key : String) : World D :=
  { w with issues := w.issues.erase (domain, key) }

def dropStale (names : List String) (w : World D) : World D :=
  { w with issues := w.issues.filter fun issue => !staleIssue names issue }

def getGroup (w : World D) : Option ℕ := if w.supported then w.stored else none

def ensure (w : World D) : Option ℕ × World D :=
  if w.supported then
    let w := dropReport w issuePolicyUnsupported
    match w.stored with
    | none =>
      (some w.policies.length, { w with
        policies := w.policies ++ [restrictedPolicy w.house]
        stored := some w.policies.length })
    | some object =>
      (some object, { w with policies := w.policies.set object (restrictedPolicy w.house) })
  else (none, report w issuePolicyUnsupported)

/-- Groups are equal when their fields are, whichever object they are. -/
def sameGroup (w : World D) (object : ℕ) : Group → Bool
  | .other _ => false
  | .restricted object' => w.policies[object']? == w.policies[object]?

/-! ## A sync -/

/-- The group the user is to be moved to, if any, after what is reported. -/
def asyncRestrict (task : Task) (account : Account) (w : World D) : World D × Option String :=
  let w := userIssues.foldl (fun w key => dropReport w (userIssue key account.id)) w
  if isAdmin account.user then (report w (userIssue issuePolicyUserAdmin account.id), none)
  else if !manageable account.user then
    (report w (userIssue issuePolicyUserGroups account.id), none)
  else if account.groups.length = 1 && account.groups.all (sameGroup w task.group) then (w, none)
  else (w, some groupId)

def syncUser (task : Task) (account : Account) (w : World D) : World D × Option String :=
  if account.id ∈ task.wanted then asyncRestrict task account w
  else if account.groups.any (sameGroup w task.group) then (w, some groupIdUser)
  else (w, none)

def nextLookup : List String → Phase
  | [] => .ended
  | userId :: names => .gettingUser userId names

/-- To remove a group that is gone already raises, which ends the sync as well. -/
def afterUsers (task : Task) (w : World D) : World D × Phase :=
  if task.wanted = [] then ({ w with stored := none }, .ended) else (w, nextLookup task.wanted)

/-- The rest of the loop over the users, up to its next move. -/
def syncUsers (task : Task) : List String → World D → World D × Phase
  | [], w => afterUsers task w
  | userId :: users, w =>
    match w.users.find? (·.id = userId) with
    | none => syncUsers task users w
    | some account =>
      match syncUser task account w with
      | (w, none) => syncUsers task users w
      | (w, some group) => ({ w with movingUser := true }, .moving userId group .requested users)

def setGroups (w : World D) (userId : String) (groups : List Group) : World D :=
  { w with users := w.users.map fun user =>
      if user.id = userId then { user with groups := groups } else user }

variable (deb : Debouncer D)

def userChanged (w : World D) : World D :=
  if w.movingUser then w else { w with debounced := deb.scheduleCall w.debounced }

/-- A task from one suspension to the next. A group that is not in the store makes
`async_update_user` raise before it writes anything. -/
def resume (w : World D) (task : Task) : World D × Phase :=
  match task.phase with
  | .gettingUsers =>
    syncUsers task ((w.users.filter fun user => !user.removed).map Account.id) w
  | .moving userId group .requested users =>
    match findGroup w group with
    | none => ({ w with movingUser := false }, .ended)
    | some object => (setGroups w userId [object], .moving userId group .written users)
  | .moving userId group .written users =>
    (userChanged deb w, .moving userId group .fired users)
  | .moving _ _ .fired users => syncUsers task users { w with movingUser := false }
  | .gettingUser userId names =>
    (if known w userId then w else report w (userIssue issuePolicyUserMissing userId),
      nextLookup names)
  | .ended => (w, .ended)

def callEnded (debounced : Bool) (w : World D) : World D :=
  if debounced then { w with debounced := deb.callEnded w.debounced } else w

def suspend (w : World D) (i : ℕ) (task : Task) (phase : Phase) : World D :=
  let w := { w with tasks := w.tasks.set i { task with phase := phase } }
  if phase = .ended then callEnded deb task.debounced w else w

def startSync (debounced : Bool) (w : World D) : World D :=
  let names := (wanted w.entries).dedup
  let w := dropStale names w
  let (group, w) := if names ≠ [] then ensure w else (getGroup w, w)
  match group with
  | none => callEnded deb debounced w
  | some object => { w with tasks := w.tasks ++ [⟨names, object, debounced, .gettingUsers⟩] }

inductive Event where
  | syncStarted
  | timerEnded
  | resumed (task : ℕ)
  | userCreated (account : Account)
  | userUpdated (userId : String) (isActive : Option Bool) (groupIds : Option (List String))
  | userRemoved (userId : String)
  | entriesChanged (entries : List ConfigEntry)
  | houseChanged (house : House)
  | policyEnsured

/-- An edit or a removal from outside the integration that goes through. -/
def foreign (w : World D) : Event → Bool
  | .userUpdated userId isActive groupIds =>
    (groupIds.getD []).all (fun id => (findGroup w id).isSome) && w.users.any fun user =>
      user.id = userId && !user.removed && !(user.isOwner && isActive = some false)
  | .userRemoved userId => known w userId
  | _ => false

def edited (w : World D) : Event → World D
  | .userUpdated userId isActive groupIds =>
    { w with users := w.users.map fun user =>
        if user.id = userId then
          { user with
            isActive := isActive.getD user.isActive
            groups := groupIds.elim user.groups (·.filterMap (findGroup w)) }
        else user }
  | .userRemoved userId =>
    { w with users := w.users.map fun user =>
        if user.id = userId then { user with removed := true } else user }
  | _ => w

def step (w : World D) (e : Event) : World D :=
  match e with
  | .syncStarted => startSync deb false w
  | .timerEnded =>
    let ended := { w with debounced := deb.timerEnded w.debounced }
    if deb.due w.debounced then startSync deb true ended else ended
  | .resumed i =>
    match w.tasks[i]? with
    | none => w
    | some task =>
      let (w, phase) := resume deb w task
      suspend deb w i task phase
  | .userCreated account =>
    if w.users.any (·.id = account.id) then w else { w with users := w.users ++ [account] }
  | .userUpdated _ _ _ | .userRemoved _ =>
    if foreign w e then userChanged deb (edited w e) else w
  | .entriesChanged entries => { w with entries := entries }
  | .houseChanged house => { w with house := house }
  | .policyEnsured => (ensure w).2

/-! ## Events, and what they schedule -/

def Own (w : World D) (e : Event) : Prop :=
  ∃ i task userId group users, e = .resumed i ∧ w.tasks[i]? = some task ∧
    task.phase = .moving userId group .written users

def Due (w : World D) : Prop := deb.due w.debounced = true

/-- A debounced sync is due until one starts. -/
def Scheduled (w : World D) : Prop :=
  ∀ post, Due deb (Runs.run (step deb) w post) ∨
    ∃ pre rest, post = pre ++ .timerEnded :: rest ∧ Due deb (Runs.run (step deb) w pre)

def Told (w : World D) (e : Event) : Prop :=
  (foreign w e = true → Scheduled deb (step deb w e)) ∧
    (Own w e → Due deb (step deb w e) → Due deb w)

def Phase.begins : Phase → Bool
  | .moving _ _ .requested _ => true
  | _ => false

/-- The call that the move of a task awaits is over, be it by an exception. -/
def Phase.returns (w : World D) : Phase → Bool
  | .moving _ group .requested _ => (findGroup w group).isNone
  | .moving _ _ .fired _ => true
  | _ => false

def Began (w : World D) (e : Event) : Prop :=
  ∃ i task, e = .resumed i ∧ (step deb w e).tasks[i]? = some task ∧ task.phase.begins = true

def Ended (w : World D) (e : Event) : Prop :=
  ∃ i task, e = .resumed i ∧ w.tasks[i]? = some task ∧ task.phase.returns w = true

/-- A move has begun, and none has ended since. -/
inductive MoveOpen (w : World D) : List Event → Prop
  | began {es : List Event} {e : Event} (h : Began deb (Runs.run (step deb) w es) e) :
    MoveOpen w (es ++ [e])
  | kept {es : List Event} {e : Event} (h : MoveOpen w es)
    (hend : ¬ Ended (Runs.run (step deb) w es) e) : MoveOpen w (es ++ [e])

/-! ## What a sync leaves alone -/

section Frame

def OnlyReports (w v : World D) : Prop := ∃ issues, v = { w with issues }

theorem onlyReports_refl (w : World D) : OnlyReports w w := ⟨w.issues, rfl⟩

theorem OnlyReports.trans {w v u : World D} (hv : OnlyReports w v) (hu : OnlyReports v u) :
    OnlyReports w u := by
  obtain ⟨_, rfl⟩ := hv
  obtain ⟨issues, rfl⟩ := hu
  exact ⟨issues, rfl⟩

theorem asyncRestrict_reports (task : Task) (account : Account) (w : World D) :
    OnlyReports w (asyncRestrict task account w).1 := by
  have hdropped : OnlyReports w
      (userIssues.foldl (fun w key => dropReport w (userIssue key account.id)) w) :=
    Runs.run_invariant (fun _ _ h => h.trans ⟨_, rfl⟩) (onlyReports_refl w) userIssues
  simp only [asyncRestrict]
  split_ifs
  · exact hdropped.trans ⟨_, rfl⟩
  · exact hdropped.trans ⟨_, rfl⟩
  · exact hdropped
  · exact hdropped

theorem syncUser_reports (task : Task) (account : Account) (w : World D) :
    OnlyReports w (syncUser task account w).1 := by
  rw [syncUser]
  split_ifs
  · exact asyncRestrict_reports task account w
  · exact onlyReports_refl w
  · exact onlyReports_refl w

/-- The loop comes to its end or to a move, and has only reported on the way. -/
theorem syncUsers_cases (task : Task) (users : List String) (w : World D) :
    ∃ v, OnlyReports w v ∧ (syncUsers task users w = afterUsers task v ∨
      ∃ userId group rest, syncUsers task users w =
        ({ v with movingUser := true }, .moving userId group .requested rest)) := by
  induction users generalizing w with
  | nil => exact ⟨w, onlyReports_refl w, .inl rfl⟩
  | cons userId users ih =>
    rw [syncUsers]
    split
    · exact ih w
    · rename_i account _
      have huser := syncUser_reports task account w
      split <;> rename_i hsync <;> rw [hsync] at huser
      · obtain ⟨v, hv, hend⟩ := ih _
        exact ⟨v, huser.trans hv, hend⟩
      · exact ⟨_, huser, .inr ⟨_, _, _, rfl⟩⟩

theorem syncUsers_frame {α : Type*} {f : World D → α}
    (hissues : ∀ w issues, f { w with issues } = f w)
    (hstored : ∀ w stored, f { w with stored } = f w)
    (hmoving : ∀ w movingUser, f { w with movingUser } = f w) (task : Task) (users : List String)
    (w : World D) : f (syncUsers task users w).1 = f w := by
  obtain ⟨v, ⟨issues, rfl⟩, hafter | ⟨_, _, _, hmove⟩⟩ := syncUsers_cases task users w
  · rw [hafter, afterUsers]
    split_ifs
    · exact (hstored _ none).trans (hissues w issues)
    · exact hissues w issues
  · rw [hmove]
    exact (hmoving _ true).trans (hissues w issues)

end Frame

theorem nextLookup_begins (names : List String) : (nextLookup names).begins = false := by
  cases names <;> rfl

theorem syncUsers_movingUser (task : Task) (users : List String) (w : World D) :
    (syncUsers task users w).1.movingUser =
      ((syncUsers task users w).2.begins || w.movingUser) := by
  obtain ⟨v, ⟨issues, rfl⟩, hafter | ⟨_, _, _, hmove⟩⟩ := syncUsers_cases task users w
  · rw [hafter, afterUsers]
    split_ifs
    · rfl
    · rw [nextLookup_begins]
      rfl
  · rw [hmove]
    rfl

/-! ## The flag -/

section Flag

variable {deb} {w : World D} {i : ℕ} {task : Task} {e : Event}

theorem ensure_frame {α : Type*} {f : World D → α}
    (hissues : ∀ w issues, f { w with issues } = f w)
    (hgroup : ∀ w policies stored, f { w with policies, stored } = f w) (w : World D) :
    f (ensure w).2 = f w := by
  have hdropped : f (dropReport w issuePolicyUnsupported) = f w := hissues w _
  simp only [ensure]
  split_ifs
  · split
    · exact (hgroup (dropReport w issuePolicyUnsupported) _ _).trans hdropped
    · exact (hgroup (dropReport w issuePolicyUnsupported) _ _).trans hdropped
  · exact hissues w _

theorem userChanged_movingUser : (userChanged deb w).movingUser = w.movingUser := by
  rw [userChanged]
  split_ifs <;> rfl

theorem callEnded_movingUser {debounced : Bool} :
    (callEnded deb debounced w).movingUser = w.movingUser := by
  rw [callEnded]
  split_ifs <;> rfl

theorem suspend_movingUser {phase : Phase} :
    (suspend deb w i task phase).movingUser = w.movingUser := by
  rw [suspend]
  split_ifs
  · exact callEnded_movingUser
  · rfl

theorem suspend_tasks {phase : Phase} :
    (suspend deb w i task phase).tasks = w.tasks.set i { task with phase := phase } := by
  rw [suspend, callEnded]
  split_ifs <;> rfl

theorem startSync_movingUser {debounced : Bool} :
    (startSync deb debounced w).movingUser = w.movingUser := by
  have hensure : ∀ w : World D, (ensure w).2.movingUser = w.movingUser :=
    ensure_frame (f := World.movingUser) (fun _ _ => rfl) (fun _ _ _ => rfl)
  simp only [startSync]
  split_ifs <;> split <;> simp only [callEnded_movingUser, hensure, dropStale]

theorem resume_keeps {P : World D → Prop} (hissues : ∀ w issues, P { w with issues } = P w)
    (hstored : ∀ w stored, P { w with stored } = P w)
    (hmoving : ∀ w movingUser, P { w with movingUser } = P w)
    (husers : ∀ w users, P { w with users } = P w) (hchanged : ∀ w, P w → P (userChanged deb w))
    (h : P w) : P (resume deb w task).1 := by
  have hloop : ∀ users (w : World D), P (syncUsers task users w).1 = P w :=
    syncUsers_frame hissues hstored hmoving task
  rw [resume]
  cases task.phase with
  | gettingUsers => exact (hloop _ w).mpr h
  | moving userId group stage users =>
    cases stage with
    | requested =>
      cases hgroup : findGroup w group with
      | none => simpa only [hgroup, hmoving] using h
      | some object =>
        simp only [hgroup]
        exact (husers w _).mpr h
    | written => exact hchanged w h
    | fired => exact (hloop users _).mpr ((hmoving w false).mpr h)
  | gettingUser userId names =>
    simp only [report]
    split_ifs
    · exact h
    · exact (hissues w _).mpr h
  | ended => exact h

theorem resume_tasks : (resume deb w task).1.tasks = w.tasks := by
  apply resume_keeps (P := fun v => v.tasks = w.tasks) (fun _ _ => rfl) (fun _ _ => rfl)
    (fun _ _ => rfl) (fun _ _ => rfl) _ rfl
  intro v hv
  rw [userChanged]
  split_ifs <;> exact hv

theorem resume_movingUser : (resume deb w task).1.movingUser =
    ((resume deb w task).2.begins || (w.movingUser && !task.phase.returns w)) := by
  rw [resume]
  cases task.phase with
  | gettingUsers => simp only [syncUsers_movingUser, Phase.returns, Bool.not_false, Bool.and_true]
  | moving userId group stage users =>
    cases stage with
    | requested =>
      cases hgroup : findGroup w group with
      | none => simp [Phase.begins, Phase.returns, hgroup]
      | some object => simp [Phase.begins, Phase.returns, hgroup, setGroups]
    | written => simp [Phase.begins, Phase.returns, userChanged_movingUser]
    | fired => simp only [syncUsers_movingUser, Phase.returns, Bool.not_true, Bool.and_false]
  | gettingUser userId names =>
    simp only [nextLookup_begins, Phase.returns, Bool.not_false, Bool.and_true, Bool.false_or,
      report]
    split_ifs <;> rfl
  | ended => simp [Phase.begins, Phase.returns]

theorem step_resumed (h : w.tasks[i]? = some task) :
    step deb w (.resumed i) =
      suspend deb (resume deb w task).1 i task (resume deb w task).2 := by
  simp only [step, h]

theorem began_iff (h : w.tasks[i]? = some task) :
    Began deb w (.resumed i) ↔ (resume deb w task).2.begins = true := by
  obtain ⟨hlt, -⟩ := List.getElem?_eq_some_iff.mp h
  have htask : (step deb w (.resumed i)).tasks[i]? =
      some { task with phase := (resume deb w task).2 } := by
    rw [step_resumed h, suspend_tasks, resume_tasks, List.getElem?_set_self hlt]
  constructor
  · intro hbegan
    obtain ⟨j, task', hj, htask', hbegins⟩ := hbegan
    cases hj
    rw [htask, Option.some.injEq] at htask'
    rwa [← htask'] at hbegins
  · intro hbegins
    exact ⟨i, _, rfl, htask, hbegins⟩

theorem ended_iff (h : w.tasks[i]? = some task) :
    Ended w (.resumed i) ↔ task.phase.returns w = true := by
  constructor
  · intro hended
    obtain ⟨j, task', hj, htask', hreturns⟩ := hended
    cases hj
    rw [h, Option.some.injEq] at htask'
    rwa [htask']
  · intro hreturns
    exact ⟨i, task, rfl, h, hreturns⟩

theorem edited_movingUser : (edited w e).movingUser = w.movingUser := by
  cases e <;> rfl

theorem step_unresumed (h : ∀ i, e ≠ .resumed i) : (step deb w e).movingUser = w.movingUser := by
  cases e with
  | resumed i => exact absurd rfl (h i)
  | syncStarted => exact startSync_movingUser
  | timerEnded =>
    simp only [step]
    split_ifs
    · exact startSync_movingUser
    · rfl
  | userCreated account =>
    simp only [step]
    split_ifs <;> rfl
  | userUpdated _ _ _ | userRemoved _ =>
    simp only [step]
    split_ifs
    · exact userChanged_movingUser.trans edited_movingUser
    · rfl
  | entriesChanged _ | houseChanged _ => rfl
  | policyEnsured =>
    exact ensure_frame (f := World.movingUser) (fun _ _ => rfl) (fun _ _ _ => rfl) w

theorem step_movingUser : (step deb w e).movingUser = true ↔
    Began deb w e ∨ (w.movingUser = true ∧ ¬ Ended w e) := by
  by_cases hresumed : ∃ i, e = .resumed i
  · obtain ⟨i, rfl⟩ := hresumed
    cases htask : w.tasks[i]? with
    | none =>
      have hstep : step deb w (.resumed i) = w := by simp only [step, htask]
      have hbegan : ¬ Began deb w (.resumed i) := by
        intro hbegan
        obtain ⟨j, task, hj, htask', -⟩ := hbegan
        cases hj
        rw [hstep, htask] at htask'
        cases htask'
      have hended : ¬ Ended w (.resumed i) := by
        intro hended
        obtain ⟨j, task, hj, htask', -⟩ := hended
        cases hj
        rw [htask] at htask'
        cases htask'
      rw [hstep, or_iff_right hbegan, and_iff_left hended]
    | some task =>
      rw [began_iff htask, ended_iff htask, step_resumed htask, suspend_movingUser,
        resume_movingUser, Bool.or_eq_true, Bool.and_eq_true, Bool.not_eq_true',
        Bool.not_eq_true]
  · have hbegan : ¬ Began deb w e := fun ⟨i, _, hi, _⟩ => hresumed ⟨i, hi⟩
    have hended : ¬ Ended w e := fun ⟨i, _, hi, _⟩ => hresumed ⟨i, hi⟩
    rw [step_unresumed fun i hi => hresumed ⟨i, hi⟩, or_iff_right hbegan, and_iff_left hended]

theorem moveOpen_concat {es : List Event} : MoveOpen deb w (es ++ [e]) ↔
    Began deb (Runs.run (step deb) w es) e ∨
      (MoveOpen deb w es ∧ ¬ Ended (Runs.run (step deb) w es) e) := by
  constructor
  · intro h
    generalize hes : es ++ [e] = fs at h
    cases h with
    | began hbegan =>
      obtain ⟨rfl, rfl⟩ := List.append_singleton_inj.mp hes
      exact .inl hbegan
    | kept hopen hend =>
      obtain ⟨rfl, rfl⟩ := List.append_singleton_inj.mp hes
      exact .inr ⟨hopen, hend⟩
  · intro h
    rcases h with hbegan | ⟨hopen, hend⟩
    · exact .began hbegan
    · exact .kept hopen hend

theorem movingUser_iff (hstart : w.movingUser = false) (es : List Event) :
    (Runs.run (step deb) w es).movingUser = true ↔ MoveOpen deb w es := by
  induction es using List.reverseRecOn with
  | nil =>
    rw [Runs.run_nil, hstart]
    refine iff_of_false Bool.false_ne_true fun h => ?_
    generalize hes : ([] : List Event) = fs at h
    cases h <;> simp at hes
  | append_singleton es e ih => rw [Runs.run_concat, step_movingUser, ih, moveOpen_concat]

end Flag

/-! ## What is due -/

section Due

variable {deb} {w : World D} {i : ℕ} {task : Task} {e : Event}

theorem userChanged_due (hdeb : deb.Documented) : Due deb (userChanged deb w) ↔
    Due deb w ∨ (w.movingUser = false ∧ deb.busy w.debounced = false) := by
  cases hmoving : w.movingUser with
  | true => simp [userChanged, hmoving]
  | false => simp [userChanged, hmoving, Due, hdeb.scheduleCall_due]

theorem callEnded_due (hdeb : deb.Documented) {debounced : Bool} (h : Due deb w) :
    Due deb (callEnded deb debounced w) := by
  rw [callEnded]
  split_ifs
  · exact hdeb.callEnded_due _ h
  · exact h

theorem suspend_due (hdeb : deb.Documented) {phase : Phase} (h : Due deb w) :
    Due deb (suspend deb w i task phase) := by
  have htasks : Due deb { w with tasks := w.tasks.set i { task with phase := phase } } := h
  rw [suspend]
  split_ifs
  · exact callEnded_due hdeb htasks
  · exact htasks

theorem startSync_due (hdeb : deb.Documented) {debounced : Bool} (h : Due deb w) :
    Due deb (startSync deb debounced w) := by
  have hensure : ∀ w : World D, (ensure w).2.debounced = w.debounced :=
    ensure_frame (f := World.debounced) (fun _ _ => rfl) (fun _ _ _ => rfl)
  have hstart : ∀ w' : World D, w'.debounced = w.debounced → Due deb w' := by
    intro w' hw'
    rw [Due, hw']
    exact h
  simp only [startSync]
  split_ifs <;> split
  · exact callEnded_due hdeb (hstart _ (hensure _))
  · exact hstart _ (hensure _)
  · exact callEnded_due hdeb (hstart _ rfl)
  · exact hstart _ rfl

theorem resume_due (hdeb : deb.Documented) (h : Due deb w) : Due deb (resume deb w task).1 :=
  resume_keeps (fun _ _ => rfl) (fun _ _ => rfl) (fun _ _ => rfl) (fun _ _ => rfl)
    (fun _ hw => (userChanged_due hdeb).mpr (.inl hw)) h

theorem edited_debounced : (edited w e).debounced = w.debounced := by
  cases e <;> rfl

theorem step_due (hdeb : deb.Documented) (h : Due deb w) :
    Due deb (step deb w e) ∨ e = .timerEnded := by
  cases e with
  | timerEnded => exact .inr rfl
  | syncStarted => exact .inl (startSync_due hdeb h)
  | resumed i =>
    left
    cases htask : w.tasks[i]? with
    | none => simpa only [step, htask] using h
    | some task =>
      rw [step_resumed htask]
      exact suspend_due hdeb (resume_due hdeb h)
  | userCreated account =>
    left
    simp only [step]
    split_ifs <;> exact h
  | userUpdated _ _ _ | userRemoved _ =>
    left
    simp only [step]
    split_ifs
    · rw [userChanged_due hdeb, Due, edited_debounced]
      exact .inl h
    · exact h
  | entriesChanged _ | houseChanged _ => exact .inl h
  | policyEnsured =>
    left
    rw [Due, step, ensure_frame (f := World.debounced) (fun _ _ => rfl) (fun _ _ _ => rfl) w]
    exact h

theorem scheduled_iff (hdeb : deb.Documented) : Scheduled deb w ↔ Due deb w := by
  constructor
  · intro h
    rcases h [] with hdue | ⟨pre, rest, hnil, -⟩
    · exact hdue
    · simp at hnil
  · intro h post
    induction post generalizing w with
    | nil => exact .inl h
    | cons e post ih =>
      rcases step_due hdeb h (e := e) with hdue | rfl
      · rcases ih hdue with hrun | ⟨pre, rest, rfl, hrun⟩
        · exact .inl hrun
        · exact .inr ⟨e :: pre, rest, rfl, hrun⟩
      · exact .inr ⟨[], post, rfl, h⟩

theorem step_foreign (h : foreign w e = true) :
    step deb w e = userChanged deb (edited w e) := by
  cases e with
  | userUpdated _ _ _ | userRemoved _ => simp only [step, h, if_true]
  | syncStarted | timerEnded | resumed _ | userCreated _ | entriesChanged _ | houseChanged _
  | policyEnsured => cases h

theorem foreign_scheduled_iff (hdeb : deb.Documented) (h : foreign w e = true) :
    Scheduled deb (step deb w e) ↔
      Due deb w ∨ (w.movingUser = false ∧ deb.busy w.debounced = false) := by
  rw [scheduled_iff hdeb, step_foreign h, userChanged_due hdeb, Due, edited_debounced,
    edited_movingUser, Due]

theorem own_due_iff (hdeb : deb.Documented) (h : Own w e) : Due deb (step deb w e) ↔
    Due deb w ∨ (w.movingUser = false ∧ deb.busy w.debounced = false) := by
  obtain ⟨i, task, userId, group, users, rfl, htask, hphase⟩ := h
  have hresume : resume deb w task =
      (userChanged deb w, .moving userId group .fired users) := by simp only [resume, hphase]
  have hstep : (step deb w (.resumed i)).debounced = (userChanged deb w).debounced := by
    rw [step_resumed htask, hresume]
    rfl
  rw [Due, hstep]
  exact userChanged_due hdeb

end Due

/-- When the origin of an event is not mistaken, or it makes no difference. -/
structure Plain (w : World D) (pre : List Event) (e : Event) : Prop where
  foreign : foreign (Runs.run (step deb) w pre) e = true → Due deb (Runs.run (step deb) w pre) ∨
    (¬ MoveOpen deb w pre ∧ deb.busy (Runs.run (step deb) w pre).debounced = false)
  own : Own (Runs.run (step deb) w pre) e → Due deb (Runs.run (step deb) w pre) ∨
    MoveOpen deb w pre ∨ deb.busy (Runs.run (step deb) w pre).debounced = true

theorem told_iff (hdeb : deb.Documented) {w : World D} (hstart : w.movingUser = false)
    (pre : List Event) (e : Event) :
    Told deb (Runs.run (step deb) w pre) e ↔ Plain deb w pre e := by
  have hopen : (Runs.run (step deb) w pre).movingUser = false ↔ ¬ MoveOpen deb w pre := by
    rw [← movingUser_iff hstart, Bool.not_eq_true]
  have hown : ∀ h : Own (Runs.run (step deb) w pre) e,
      (Due deb (step deb (Runs.run (step deb) w pre) e) → Due deb (Runs.run (step deb) w pre)) ↔
        Due deb (Runs.run (step deb) w pre) ∨ MoveOpen deb w pre ∨
          deb.busy (Runs.run (step deb) w pre).debounced = true := by
    intro h
    rw [own_due_iff hdeb h, hopen, ← Bool.not_eq_true]
    tauto
  constructor
  · intro h
    obtain ⟨hforeign, hquiet⟩ := h
    constructor
    · intro he
      rw [← hopen]
      exact (foreign_scheduled_iff hdeb he).mp (hforeign he)
    · intro he
      exact (hown he).mp (hquiet he)
  · intro h
    constructor
    · intro he
      rw [foreign_scheduled_iff hdeb he, hopen]
      exact h.foreign he
    · intro he
      exact (hown he).mpr (h.own he)

theorem told_throughout_iff (hdeb : deb.Documented) (w : World D) (hstart : w.movingUser = false)
    (es : List Event) :
    Runs.Guarded (step deb) (Told deb) w es ↔ ∀ pre e, pre ++ [e] <+: es → Plain deb w pre e := by
  rw [Runs.guarded_iff_prefix]
  exact forall_congr' fun pre => forall_congr' fun e => forall_congr' fun _ =>
    told_iff deb hdeb hstart pre e

/-! ## Two users, named by one entry each -/

inductive Timer where
  | idle
  | waiting
  | calling
  | cooling
  deriving DecidableEq

def timer : Debouncer Timer where
  scheduleCall
    | .calling => .calling
    | _ => .waiting
  timerEnded
    | .waiting => .calling
    | .cooling => .idle
    | d => d
  callEnded
    | .calling => .cooling
    | d => d
  due d := d = .waiting
  busy d := d = .calling

theorem timer_documented : timer.Documented := by
  constructor
  · intro d
    cases d <;> decide
  · intro d hd
    cases d <;> exact hd

def bob : Account := ⟨"b0b", false, true, false, [.restricted 0], false⟩
def ada : Account := ⟨"ada", false, true, false, [.other groupIdUser], false⟩

def pair : World Timer where
  house := ⟨[], []⟩
  entries := [⟨"01BOB", some "b0b", true⟩, ⟨"01ADA", some "ada", true⟩]
  supported := true
  otherGroups := [groupIdAdmin, groupIdUser]
  policies := [restrictedPolicy ⟨[], []⟩]
  stored := some 0
  users := [bob, ada]
  issues := ∅
  movingUser := false
  debounced := .idle
  tasks := []

/-- Bob is removed while the move of the other user is awaited. -/
theorem told_throughout_iff_pair :
    Runs.Guarded (step timer) (Told timer) pair
        [.syncStarted, .resumed 0, .userRemoved "b0b", .resumed 0, .timerEnded] ↔
      ∀ pre e, pre ++ [e] <+: [.syncStarted, .resumed 0, .userRemoved "b0b", .resumed 0,
        .timerEnded] → Plain timer pair pre e :=
  told_throughout_iff timer timer_documented pair rfl _

theorem not_told_meanwhile : ¬ ∀ (D : Type) (deb : Debouncer D), deb.Documented →
    ∀ (w : World D) (es : List Event), w.movingUser = false →
      Runs.Guarded (step deb) (Told deb) w es := by
  intro h
  have htold := h Timer timer timer_documented pair
    [.syncStarted, .resumed 0, .userUpdated "b0b" none (some [groupIdUser])] rfl
  have hscheduled := htold.2.2.1.1 (by decide)
  have hdue := (scheduled_iff timer_documented).mp hscheduled
  simp only [Due] at hdue
  revert hdue
  decide

end HermesConversation.UserWatch
