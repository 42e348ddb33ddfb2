import HermesConversation.Library.Memo
import HermesConversation.UserWatch

/-!
# The permissions Home Assistant keeps

Home Assistant compiles a user's permissions from the policies of the user's groups when they
are first asked for, and keeps them until they are invalidated. It does so itself when it
changes a user; that the policy of a group has changed, the integration has to tell it.
-/

namespace HermesConversation.PermissionCache

open Library Entities RestrictedPolicy UserWatch
open RestrictedGroup hiding ensure getGroup User
open UserSync (wanted)

variable {D P : Type}

inductive GroupPolicy where
  | other (id : String)
  | restricted (policy : Option Policy)

def groupPolicy (w : World D) : Group → GroupPolicy
  | .other id => .other id
  | .restricted object => .restricted w.policies[object]?

def permissions (compile : Bool → List GroupPolicy → P) (w : World D) (userId : String) :
    Option P :=
  (w.users.find? fun account => account.id = userId && !account.removed).map fun account =>
    compile account.isOwner (account.groups.map (groupPolicy w))

/-! ## What is invalidated -/

/-- The users `ensure` calls `invalidate_cache` for, as a refreshed policy is another. -/
def ensureDrops (w : World D) : List String :=
  if w.supported then
    match w.stored with
    | none => []
    | some object =>
      if w.policies[object]? = some (restrictedPolicy w.house) then []
      else
        let w := { w with policies := w.policies.set object (restrictedPolicy w.house) }
        (w.users.filter fun account =>
          !account.removed && account.groups.any (sameGroup w object)).map Account.id
  else []

def startDrops (w : World D) : List String :=
  let names := (wanted w.entries).dedup
  if names ≠ [] then ensureDrops (dropStale names w) else []

def resumeDrops (w : World D) (task : Task) : List String :=
  match task.phase with
  | .moving userId group .requested _ => if (findGroup w group).isSome then [userId] else []
  | _ => []

def drops (deb : Debouncer D) (w : World D) (e : Event) : List String :=
  match e with
  | .syncStarted => startDrops w
  | .timerEnded => if deb.due w.debounced then startDrops w else []
  | .resumed i =>
    match w.tasks[i]? with
    | none => []
    | some task => resumeDrops w task
  | .userCreated account => if w.users.any (·.id = account.id) then [] else [account.id]
  | .userUpdated userId isActive groupIds =>
    if foreign w e && (isActive.isSome || groupIds.isSome) then [userId] else []
  | .policyEnsured => ensureDrops w
  | .userRemoved _ | .entriesChanged _ | .houseChanged _ => []

/-- The groups of a new user are taken from the store. -/
def FromStore (w : World D) : Event → Prop
  | .userCreated account => ∀ group ∈ account.groups, findGroup w group.id = some group
  | .syncStarted | .timerEnded | .resumed _ | .userUpdated _ _ _ | .userRemoved _
  | .entriesChanged _ | .houseChanged _ | .policyEnsured => True

structure Grounded (w : World D) : Prop where
  held : ∀ account ∈ w.users, ∀ object, .restricted object ∈ account.groups →
    object < w.policies.length
  stored : ∀ object, w.stored = some object → object < w.policies.length

/-! ## What the steps do to users and policies -/

section Steps

variable {deb : Debouncer D} {w v : World D} {task : Task} {compile : Bool → List GroupPolicy → P}

theorem permissions_congr (husers : v.users = w.users) (hpolicies : v.policies = w.policies) :
    permissions compile v = permissions compile w := by
  have hgroups : groupPolicy v = groupPolicy w := by
    funext group
    cases group with
    | other id => rfl
    | restricted object => rw [groupPolicy, groupPolicy, hpolicies]
  funext userId
  rw [permissions, permissions, husers, hgroups]

theorem Grounded.congr (h : Grounded w) (husers : v.users = w.users)
    (hpolicies : v.policies = w.policies) (hstored : v.stored = w.stored ∨ v.stored = none) :
    Grounded v := by
  constructor
  · rw [husers, hpolicies]
    exact h.held
  · intro object hobject
    rw [hpolicies]
    rcases hstored with hsame | hnone
    · exact h.stored object (hsame ▸ hobject)
    · rw [hnone] at hobject
      cases hobject

theorem Grounded.found (h : Grounded w) {id : String} {object : ℕ}
    (hfound : findGroup w id = some (.restricted object)) : object < w.policies.length := by
  rw [findGroup] at hfound
  split_ifs at hfound
  · cases hstored : w.stored with
    | none =>
      rw [hstored] at hfound
      cases hfound
    | some found =>
      rw [hstored, Option.map_some, Option.some.injEq, Group.restricted.injEq] at hfound
      exact hfound ▸ h.stored found hstored
  · cases hfound

/-- The users stay as they are, and so does every policy but that of the stored group, the
holders of which are told. -/
theorem ensure_cases (w : World D) : (ensure w).2.users = w.users ∧
    ((ensure w).2.policies = w.policies ∧ (ensure w).2.stored = w.stored ∨
      (ensure w).2.policies = w.policies ++ [restrictedPolicy w.house] ∧
        (ensure w).2.stored = some w.policies.length ∨
      ∃ object, w.stored = some object ∧ (ensure w).2.stored = w.stored ∧
        (ensure w).2.policies = w.policies.set object (restrictedPolicy w.house) ∧
          (w.policies[object]? = some (restrictedPolicy w.house) ∨
            ∀ account ∈ w.users, account.removed = false → .restricted object ∈ account.groups →
              account.id ∈ ensureDrops w)) := by
  constructor
  · exact ensure_frame (f := World.users) (fun _ _ => rfl) (fun _ _ _ => rfl) w
  · simp only [ensure]
    split_ifs with hsupported
    · split
      · rename_i hnone
        exact .inr (.inl ⟨rfl, rfl⟩)
      · rename_i object hsome
        refine .inr (.inr ⟨object, hsome, rfl, rfl, ?_⟩)
        by_cases hsame : w.policies[object]? = some (restrictedPolicy w.house)
        · exact .inl hsame
        · right
          intro account haccount hremoved hgroup
          simp only [ensureDrops, if_pos hsupported, show w.stored = some object from hsome,
            if_neg hsame, List.mem_map, List.mem_filter]
          refine ⟨account, ⟨haccount, ?_⟩, rfl⟩
          rw [hremoved, Bool.not_false, Bool.true_and, List.any_eq_true]
          exact ⟨_, hgroup, beq_self_eq_true _⟩
    · exact .inl ⟨rfl, rfl⟩

theorem grounded_ensure (h : Grounded w) : Grounded (ensure w).2 := by
  obtain ⟨husers, ⟨hpolicies, hstored⟩ | ⟨hpolicies, hstored⟩ |
    ⟨object, -, hstored, hpolicies, -⟩⟩ := ensure_cases w
  · exact h.congr husers hpolicies (.inl hstored)
  · constructor
    · intro account haccount object hgroup
      rw [husers] at haccount
      have hheld := h.held account haccount object hgroup
      rw [hpolicies, List.length_append]
      omega
    · intro object hobject
      rw [hstored, Option.some.injEq] at hobject
      rw [hpolicies, List.length_append, ← hobject]
      exact Nat.lt_succ_self _
  · constructor
    · rw [husers, hpolicies, List.length_set]
      exact h.held
    · rw [hstored, hpolicies, List.length_set]
      exact h.stored

theorem unaltered_ensure (h : Grounded w) :
    Memo.Unaltered (ensureDrops w) (permissions compile w) (permissions compile (ensure w).2) := by
  intro userId htold value hvalue
  obtain ⟨husers, hcases⟩ := ensure_cases w
  rw [permissions, husers] at hvalue
  obtain ⟨account, hfound, rfl⟩ := Option.map_eq_some_iff.mp hvalue
  rw [permissions, hfound, Option.map_some]
  have haccount : account ∈ w.users := List.mem_of_find?_eq_some hfound
  have hthere := List.find?_some hfound
  simp only [Bool.and_eq_true, decide_eq_true_eq, Bool.not_eq_true'] at hthere
  obtain ⟨rfl, hremoved⟩ := hthere
  congr 2
  refine List.map_congr_left fun group hgroup => ?_
  cases group with
  | other id => rfl
  | restricted object =>
    rw [groupPolicy, groupPolicy]
    congr 1
    rcases hcases with ⟨hpolicies, -⟩ | ⟨hpolicies, -⟩ | ⟨stored, -, -, hpolicies, hsame | hholders⟩
    · rw [hpolicies]
    · rw [hpolicies, List.getElem?_append_left (h.held account haccount object hgroup)]
    · obtain ⟨hlt, hpolicy⟩ := List.getElem?_eq_some_iff.mp hsame
      rw [hpolicies, ← hpolicy, List.set_getElem_self]
    · by_cases hobject : object = stored
      · subst hobject
        exact absurd (hholders account haccount hremoved hgroup) htold
      · rw [hpolicies, List.getElem?_set_ne (Ne.symm hobject)]

theorem unaltered_write {userId : String} {ks : List String} {write : Account → Account}
    (husers : v.users = w.users.map fun user => if user.id = userId then write user else user)
    (hpolicies : v.policies = w.policies) (hid : ∀ account, (write account).id = account.id)
    (htold : userId ∈ ks ∨ ∀ account, (write account).removed = true) :
    Memo.Unaltered ks (permissions compile w) (permissions compile v) := by
  have hgroups : groupPolicy v = groupPolicy w := by
    funext group
    cases group with
    | other id => rfl
    | restricted object => rw [groupPolicy, groupPolicy, hpolicies]
  intro other hother value hvalue
  rw [permissions, husers, hgroups] at hvalue
  by_cases hsame : other = userId
  · subst hsame
    have hremoved := htold.resolve_left hother
    obtain ⟨account, hfound, -⟩ := Option.map_eq_some_iff.mp hvalue
    have hmem := List.mem_of_find?_eq_some hfound
    obtain ⟨first, -, rfl⟩ := List.mem_map.mp hmem
    have hthere := List.find?_some hfound
    simp only [Bool.and_eq_true, decide_eq_true_eq, Bool.not_eq_true'] at hthere
    split_ifs at hthere with hfirst
    · rw [hremoved first] at hthere
      cases hthere.2
    · exact absurd hthere.1 hfirst
  · rw [permissions, ← hvalue]
    congr 1
    induction w.users with
    | nil => rfl
    | cons account users ih =>
      rw [List.map_cons]
      by_cases haccount : account.id = userId
      · have hneither : (decide (account.id = other) && !account.removed) = false := by
          rw [haccount, decide_eq_false (Ne.symm hsame), Bool.false_and]
        have hwritten :
            (decide ((write account).id = other) && !(write account).removed) = false := by
          rw [hid, haccount, decide_eq_false (Ne.symm hsame), Bool.false_and]
        rw [if_pos haccount, List.find?_cons_of_neg (by rw [hneither]; decide),
          List.find?_cons_of_neg (by rw [hwritten]; decide), ih]
      · rw [if_neg haccount, List.find?_cons, List.find?_cons, ih]

theorem unaltered_same {ks : List String} (husers : v.users = w.users)
    (hpolicies : v.policies = w.policies) :
    Memo.Unaltered ks (permissions compile w) (permissions compile v) :=
  Memo.unaltered_of_eq (permissions_congr husers hpolicies)

theorem startSync_cases (debounced : Bool) (w : World D) :
    ∃ u, (u = dropStale (wanted w.entries).dedup w ∨
        (wanted w.entries).dedup ≠ [] ∧ u = (ensure (dropStale (wanted w.entries).dedup w)).2) ∧
      (startSync deb debounced w).users = u.users ∧
        (startSync deb debounced w).policies = u.policies ∧
        (startSync deb debounced w).stored = u.stored := by
  have hended : ∀ v : World D, (callEnded deb debounced v).users = v.users ∧
      (callEnded deb debounced v).policies = v.policies ∧
        (callEnded deb debounced v).stored = v.stored := by
    intro v
    rw [callEnded]
    split_ifs <;> exact ⟨rfl, rfl, rfl⟩
  simp only [startSync]
  split_ifs with hnames
  · refine ⟨_, .inr ⟨hnames, rfl⟩, ?_⟩
    split
    · exact hended _
    · exact ⟨rfl, rfl, rfl⟩
  · refine ⟨_, .inl rfl, ?_⟩
    split
    · exact hended _
    · exact ⟨rfl, rfl, rfl⟩

theorem grounded_startSync (debounced : Bool) (h : Grounded w) :
    Grounded (startSync deb debounced w) := by
  have hdropped : Grounded (dropStale (wanted w.entries).dedup w) := h.congr rfl rfl (.inl rfl)
  obtain ⟨u, rfl | ⟨-, rfl⟩, husers, hpolicies, hstored⟩ := startSync_cases debounced w
  · exact hdropped.congr husers hpolicies (.inl hstored)
  · exact (grounded_ensure hdropped).congr husers hpolicies (.inl hstored)

theorem unaltered_startSync (debounced : Bool) (h : Grounded w) :
    Memo.Unaltered (startDrops w) (permissions compile w)
      (permissions compile (startSync deb debounced w)) := by
  have hdropped : Grounded (dropStale (wanted w.entries).dedup w) := h.congr rfl rfl (.inl rfl)
  obtain ⟨u, rfl | ⟨hnames, rfl⟩, husers, hpolicies, -⟩ := startSync_cases debounced w
  · exact unaltered_same husers hpolicies
  · rw [permissions_congr husers hpolicies, startDrops, if_pos hnames]
    exact unaltered_ensure hdropped

/-- Between two suspensions a sync writes one user's groups at most. -/
theorem resume_cases (deb : Debouncer D) (w : World D) (task : Task) :
    ((resume deb w task).1.users = w.users ∧ (resume deb w task).1.policies = w.policies ∧
      ((resume deb w task).1.stored = w.stored ∨ (resume deb w task).1.stored = none)) ∨
    ∃ userId group object rest, task.phase = .moving userId group .requested rest ∧
      findGroup w group = some object ∧ (resume deb w task).1 = setGroups w userId [object] := by
  have hloop : ∀ users (v : World D), (syncUsers task users v).1.users = v.users ∧
      (syncUsers task users v).1.policies = v.policies ∧
        ((syncUsers task users v).1.stored = v.stored ∨
          (syncUsers task users v).1.stored = none) := by
    intro users v
    obtain ⟨u, ⟨issues, rfl⟩, hafter | ⟨_, _, _, hmove⟩⟩ := syncUsers_cases task users v
    · rw [hafter, afterUsers]
      split_ifs
      · exact ⟨rfl, rfl, .inr rfl⟩
      · exact ⟨rfl, rfl, .inl rfl⟩
    · rw [hmove]
      exact ⟨rfl, rfl, .inl rfl⟩
  rw [resume]
  cases hphase : task.phase with
  | gettingUsers => exact .inl (hloop _ w)
  | moving userId group stage users =>
    cases stage with
    | requested =>
      cases hfound : findGroup w group with
      | none =>
        left
        simp only [hfound, true_or, and_self]
      | some object =>
        right
        simp only [hfound]
        exact ⟨userId, group, object, users, rfl, hfound, rfl⟩
    | written =>
      left
      dsimp only
      rw [userChanged]
      split_ifs <;> exact ⟨rfl, rfl, .inl rfl⟩
    | fired => exact .inl (hloop users { w with movingUser := false })
  | gettingUser userId names =>
    left
    dsimp only
    split_ifs <;> exact ⟨rfl, rfl, .inl rfl⟩
  | ended => exact .inl ⟨rfl, rfl, .inl rfl⟩

theorem grounded_setGroups (h : Grounded w) {id userId : String} {group : Group}
    (hfound : findGroup w id = some group) : Grounded (setGroups w userId [group]) := by
  constructor
  · intro account haccount object hgroup
    obtain ⟨first, hfirst, rfl⟩ := List.mem_map.mp haccount
    split_ifs at hgroup
    · rw [← List.mem_singleton.mp hgroup] at hfound
      exact h.found hfound
    · exact h.held first hfirst object hgroup
  · exact h.stored

theorem grounded_resume (h : Grounded w) : Grounded (resume deb w task).1 := by
  rcases resume_cases deb w task with ⟨husers, hpolicies, hstored⟩ |
    ⟨userId, group, object, rest, -, hfound, hresume⟩
  · exact h.congr husers hpolicies hstored
  · rw [hresume]
    exact grounded_setGroups h hfound

theorem unaltered_resume : Memo.Unaltered (resumeDrops w task) (permissions compile w)
    (permissions compile (resume deb w task).1) := by
  rcases resume_cases deb w task with ⟨husers, hpolicies, -⟩ |
    ⟨userId, group, object, rest, hphase, hfound, hresume⟩
  · exact unaltered_same husers hpolicies
  · rw [hresume]
    refine unaltered_write rfl rfl (fun _ => rfl) (.inl ?_)
    rw [resumeDrops, hphase]
    simp only [hfound, Option.isSome_some, if_true, List.mem_singleton]

theorem suspend_same {i : ℕ} {phase : Phase} : (suspend deb w i task phase).users = w.users ∧
    (suspend deb w i task phase).policies = w.policies ∧
      (suspend deb w i task phase).stored = w.stored := by
  rw [suspend, callEnded]
  split_ifs <;> exact ⟨rfl, rfl, rfl⟩

theorem userChanged_same : (userChanged deb w).users = w.users ∧
    (userChanged deb w).policies = w.policies ∧ (userChanged deb w).stored = w.stored := by
  rw [userChanged]
  split_ifs <;> exact ⟨rfl, rfl, rfl⟩

theorem grounded_step (h : Grounded w) {e : Event} (he : FromStore w e) :
    Grounded (step deb w e) := by
  cases e with
  | syncStarted => exact grounded_startSync false h
  | timerEnded =>
    have hended : Grounded { w with debounced := deb.timerEnded w.debounced } :=
      h.congr rfl rfl (.inl rfl)
    simp only [step]
    split_ifs
    · exact grounded_startSync true hended
    · exact hended
  | resumed i =>
    cases htask : w.tasks[i]? with
    | none =>
      simp only [step, htask]
      exact h
    | some task =>
      obtain ⟨husers, hpolicies, hstored⟩ := suspend_same
      rw [step_resumed htask]
      exact (grounded_resume h).congr husers hpolicies (.inl hstored)
  | userCreated account =>
    simp only [step]
    split_ifs
    · exact h
    · refine ⟨fun other hother object hgroup => ?_, h.stored⟩
      rcases List.mem_append.mp hother with hother | hother
      · exact h.held other hother object hgroup
      · rw [List.mem_singleton.mp hother] at hgroup
        exact h.found (he _ hgroup)
  | userUpdated userId isActive groupIds =>
    simp only [step]
    split_ifs
    · obtain ⟨husers, hpolicies, hstored⟩ := userChanged_same
      refine Grounded.congr ?_ husers hpolicies (.inl hstored)
      refine ⟨fun account haccount object hgroup => ?_, h.stored⟩
      obtain ⟨first, hfirst, rfl⟩ := List.mem_map.mp haccount
      split_ifs at hgroup
      · cases groupIds with
        | none => exact h.held first hfirst object hgroup
        | some ids =>
          obtain ⟨id, -, hfound⟩ := List.mem_filterMap.mp hgroup
          exact h.found hfound
      · exact h.held first hfirst object hgroup
    · exact h
  | userRemoved userId =>
    simp only [step]
    split_ifs
    · obtain ⟨husers, hpolicies, hstored⟩ := userChanged_same
      refine Grounded.congr ?_ husers hpolicies (.inl hstored)
      refine ⟨fun account haccount object hgroup => ?_, h.stored⟩
      obtain ⟨first, hfirst, rfl⟩ := List.mem_map.mp haccount
      split_ifs at hgroup <;> exact h.held first hfirst object hgroup
    · exact h
  | entriesChanged entries => exact h.congr rfl rfl (.inl rfl)
  | houseChanged house => exact h.congr rfl rfl (.inl rfl)
  | policyEnsured => exact grounded_ensure h

theorem unaltered_step (h : Grounded w) (e : Event) :
    Memo.Unaltered (drops deb w e) (permissions compile w)
      (permissions compile (step deb w e)) := by
  cases e with
  | syncStarted => exact unaltered_startSync false h
  | timerEnded =>
    have hended : Grounded { w with debounced := deb.timerEnded w.debounced } :=
      h.congr rfl rfl (.inl rfl)
    simp only [step, drops]
    split_ifs
    · exact unaltered_startSync true hended
    · exact unaltered_same rfl rfl
  | resumed i =>
    cases htask : w.tasks[i]? with
    | none =>
      simp only [step, htask]
      exact unaltered_same rfl rfl
    | some task =>
      obtain ⟨husers, hpolicies, -⟩ := suspend_same
      rw [step_resumed htask, permissions_congr husers hpolicies]
      simp only [drops, htask]
      exact unaltered_resume
  | userCreated account =>
    simp only [step, drops]
    split_ifs
    · exact unaltered_same rfl rfl
    · intro userId hother value hvalue
      rw [List.mem_singleton] at hother
      obtain ⟨found, hfound, rfl⟩ := Option.map_eq_some_iff.mp hvalue
      have hnew : ¬(decide (account.id = userId) && !account.removed) = true := by
        rw [decide_eq_false (Ne.symm hother), Bool.false_and]
        decide
      rw [List.find?_append, List.find?_singleton, if_neg hnew, Option.or_none] at hfound
      rw [permissions, hfound, Option.map_some]
      rfl
  | userUpdated userId isActive groupIds =>
    simp only [step, drops]
    by_cases hforeign : foreign w (.userUpdated userId isActive groupIds) = true
    · obtain ⟨husers, hpolicies, -⟩ := userChanged_same
      rw [if_pos hforeign, permissions_congr husers hpolicies, hforeign, Bool.true_and]
      split_ifs with hwritten
      · exact unaltered_write rfl rfl (fun _ => rfl) (.inl (List.mem_singleton_self userId))
      · rw [Bool.or_eq_true, not_or, Bool.not_eq_true, Bool.not_eq_true, Option.isSome_eq_false_iff,
          Option.isSome_eq_false_iff, Option.isNone_iff_eq_none, Option.isNone_iff_eq_none]
          at hwritten
        obtain ⟨rfl, rfl⟩ := hwritten
        refine unaltered_same ?_ rfl
        conv_rhs => rw [← List.map_id w.users]
        refine List.map_congr_left fun account _ => ?_
        split_ifs <;> rfl
    · rw [if_neg hforeign]
      exact unaltered_same rfl rfl
  | userRemoved userId =>
    simp only [step]
    split_ifs
    · obtain ⟨husers, hpolicies, -⟩ := userChanged_same
      rw [permissions_congr husers hpolicies]
      exact unaltered_write rfl rfl (fun _ => rfl) (.inr fun _ => rfl)
    · exact unaltered_same rfl rfl
  | entriesChanged entries => exact unaltered_same rfl rfl
  | houseChanged house => exact unaltered_same rfl rfl
  | policyEnsured => exact unaltered_ensure h

end Steps

/-- Whatever has happened before, and however the permissions were asked for in between, those
Home Assistant goes by are those of the groups the user has, with the policies they have. -/
theorem permissions_fresh {D P : Type} (deb : Debouncer D) (compile : Bool → List GroupPolicy → P)
    (w : World D) (h : Grounded w) (ops : List (Memo.Op Event String))
    (hops : Runs.Guarded (Memo.step (step deb) (permissions compile) (drops deb))
      (Memo.Allowed FromStore) (w, fun _ => none) ops) (userId : String) :
    (Memo.read
      (permissions compile (Runs.run (Memo.step (step deb) (permissions compile) (drops deb))
        (w, fun _ => none) ops).1)
      (Runs.run (Memo.step (step deb) (permissions compile) (drops deb)) (w, fun _ => none) ops).2
      userId).1 =
    permissions compile (Runs.run (Memo.step (step deb) (permissions compile) (drops deb))
      (w, fun _ => none) ops).1 userId :=
  Memo.fresh_run (I := Grounded) (fun _ _ hs he => grounded_step hs he)
    (fun _ e hs _ => unaltered_step hs e) h Memo.coherent_empty hops userId

/-- Control, as Home Assistant grants it: all of it to an owner and to a member of its groups of
users and administrators, and what the policy says to a member of the restricted one. -/
def control (isOwner : Bool) (groups : List GroupPolicy) (entityId : String) : Bool :=
  isOwner || groups.any fun
    | .other id => id ∈ [groupIdAdmin, groupIdUser]
    | .restricted policy => policy.any (check · Rule.control entityId)

def garage : House :=
  ⟨[⟨"cover.garage", Finmap.singleton attrDeviceClass (.str "garage")⟩], []⟩

theorem grounded_pair : Grounded pair where
  held := by
    intro account haccount object hgroup
    simp only [pair, List.mem_cons, List.not_mem_nil, or_false] at haccount
    rcases haccount with rfl | rfl
    · have hfirst := List.mem_singleton.mp hgroup
      cases hfirst
      exact Nat.zero_lt_one
    · have hother := List.mem_singleton.mp hgroup
      cases hother
  stored := by
    intro object hobject
    cases hobject
    exact Nat.zero_lt_one

theorem permissions_fresh_pair :
    (Memo.read
      (permissions control (Runs.run (Memo.step (step timer) (permissions control) (drops timer))
        (pair, fun _ => none)
        [.read "b0b", .change (.houseChanged garage), .read "b0b", .change .policyEnsured]).1)
      (Runs.run (Memo.step (step timer) (permissions control) (drops timer)) (pair, fun _ => none)
        [.read "b0b", .change (.houseChanged garage), .read "b0b", .change .policyEnsured]).2
      "b0b").1 =
    permissions control (Runs.run (Memo.step (step timer) (permissions control) (drops timer))
      (pair, fun _ => none)
      [.read "b0b", .change (.houseChanged garage), .read "b0b", .change .policyEnsured]).1 "b0b" :=
  permissions_fresh timer control pair grounded_pair
    [.read "b0b", .change (.houseChanged garage), .read "b0b", .change .policyEnsured]
    ⟨trivial, trivial, trivial, trivial, trivial⟩ "b0b"

end HermesConversation.PermissionCache
