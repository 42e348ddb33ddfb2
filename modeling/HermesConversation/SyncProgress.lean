import HermesConversation.UserWatch

/-!
# Every sync comes to an end

How often a sync can be resumed before it is over, in a run in which anything may happen.
-/

namespace HermesConversation.SyncProgress

open Library Entities UserWatch
open RestrictedGroup hiding ensure getGroup User

/-- How many more resumptions a sync can take, with so many users and so many named. -/
def weight (users named : ℕ) : Phase → ℕ
  | .gettingUsers => 3 * users + named + 1
  | .moving _ _ .requested rest => 3 * rest.length + named + 3
  | .moving _ _ .written rest => 3 * rest.length + named + 2
  | .moving _ _ .fired rest => 3 * rest.length + named + 1
  | .gettingUser _ rest => rest.length + 1
  | .ended => 0

def resumes (i : ℕ) : Event → Bool
  | .resumed j => i = j
  | _ => false

section Progress

variable {w : World D} {task : Task} {users : List String} {n named i : ℕ} {e : Event}
  {deb : Debouncer D}

theorem weight_nextLookup (names : List String) :
    weight n named (nextLookup names) = names.length := by
  cases names <;> rfl

theorem syncUsers_weight (task : Task) (users : List String) (w : World D) :
    weight n task.wanted.length (syncUsers task users w).2 ≤
      3 * users.length + task.wanted.length := by
  induction users generalizing w with
  | nil =>
    rw [syncUsers, afterUsers]
    split_ifs
    · exact Nat.zero_le _
    · rw [weight_nextLookup]
      omega
  | cons userId users ih =>
    rw [syncUsers, List.length_cons]
    split
    · have hrest := ih w
      omega
    · split
      · rename_i v _
        have hrest := ih v
        omega
      · show 3 * users.length + task.wanted.length + 3 ≤ _
        omega

/-- A resumption brings a sync nearer to its end, whatever has happened in between. -/
theorem resume_weight (deb : Debouncer D) (task : Task) (husers : w.users.length ≤ n) :
    weight n task.wanted.length (resume deb w task).2 ≤
      weight n task.wanted.length task.phase - 1 := by
  rw [resume]
  cases hphase : task.phase with
  | gettingUsers =>
    have hloop := syncUsers_weight (n := n) task
      ((w.users.filter fun user => !user.removed).map Account.id) w
    have hlength : ((w.users.filter fun user => !user.removed).map Account.id).length ≤
        w.users.length := by
      rw [List.length_map]
      exact List.length_filter_le _ _
    show _ ≤ 3 * n + task.wanted.length + 1 - 1
    dsimp only
    omega
  | moving userId group stage users =>
    cases stage with
    | requested =>
      dsimp only
      split
      · exact Nat.zero_le _
      · simp only [weight]
        omega
    | written =>
      simp only [weight]
      omega
    | fired =>
      have hloop := syncUsers_weight (n := n) task users { w with movingUser := false }
      show _ ≤ 3 * users.length + task.wanted.length + 1 - 1
      dsimp only
      omega
  | gettingUser userId names =>
    show weight n task.wanted.length (nextLookup names) ≤ names.length + 1 - 1
    rw [weight_nextLookup]
    omega
  | ended => exact Nat.zero_le _

theorem startSync_tasks (deb : Debouncer D) (debounced : Bool) (w : World D) :
    ∃ more, (startSync deb debounced w).tasks = w.tasks ++ more := by
  have hended : ∀ v : World D, (callEnded deb debounced v).tasks = v.tasks := by
    intro v
    rw [callEnded]
    split_ifs <;> rfl
  have hensure : ∀ v : World D, (ensure v).2.tasks = v.tasks :=
    ensure_frame (f := World.tasks) (fun _ _ => rfl) (fun _ _ _ => rfl)
  simp only [startSync]
  split_ifs
  · split
    · exact ⟨[], by rw [hended, hensure, List.append_nil]; rfl⟩
    · exact ⟨_, by rw [hensure]; rfl⟩
  · split
    · exact ⟨[], by rw [hended, List.append_nil]; rfl⟩
    · exact ⟨_, rfl⟩

theorem startSync_users (debounced : Bool) (w : World D) :
    (startSync deb debounced w).users = w.users := by
  have hended : ∀ v : World D, (callEnded deb debounced v).users = v.users := by
    intro v
    rw [callEnded]
    split_ifs <;> rfl
  have hensure : ∀ v : World D, (ensure v).2.users = v.users :=
    ensure_frame (f := World.users) (fun _ _ => rfl) (fun _ _ _ => rfl)
  simp only [startSync]
  split_ifs <;> split <;> simp only [hended, hensure, dropStale]

theorem resume_users_length : (resume deb w task).1.users.length = w.users.length := by
  have hloop : ∀ users (v : World D), (syncUsers task users v).1.users = v.users :=
    syncUsers_frame (f := World.users) (fun _ _ => rfl) (fun _ _ => rfl) (fun _ _ => rfl) task
  rw [resume]
  cases task.phase with
  | gettingUsers => rw [hloop]
  | moving userId group stage users =>
    cases stage with
    | requested =>
      dsimp only
      split
      · rfl
      · exact List.length_map _
    | written =>
      dsimp only
      rw [userChanged]
      split_ifs <;> rfl
    | fired =>
      dsimp only
      rw [hloop]
  | gettingUser userId names =>
    dsimp only
    split_ifs <;> rfl
  | ended => rfl

theorem userChanged_same : (userChanged deb w).users = w.users ∧
    (userChanged deb w).tasks = w.tasks := by
  rw [userChanged]
  split_ifs <;> exact ⟨rfl, rfl⟩

theorem step_users_length (e : Event) : w.users.length ≤ (step deb w e).users.length := by
  cases e with
  | syncStarted => rw [step, startSync_users]
  | timerEnded =>
    simp only [step]
    split_ifs
    · rw [startSync_users]
    · exact le_rfl
  | resumed j =>
    cases htask : w.tasks[j]? with
    | none => simp only [step, htask, le_refl]
    | some task =>
      have hsuspend : (step deb w (.resumed j)).users = (resume deb w task).1.users := by
        rw [step_resumed htask, suspend, callEnded]
        split_ifs <;> rfl
      rw [hsuspend, resume_users_length]
  | userCreated account =>
    simp only [step]
    split_ifs
    · exact le_rfl
    · simp
  | userUpdated _ _ _ | userRemoved _ =>
    simp only [step]
    split_ifs
    · rw [userChanged_same.1]
      exact (List.length_map _).ge
    · exact le_rfl
  | entriesChanged entries => exact le_rfl
  | houseChanged house => exact le_rfl
  | policyEnsured =>
    have hensure : ∀ v : World D, (ensure v).2.users = v.users :=
      ensure_frame (f := World.users) (fun _ _ => rfl) (fun _ _ _ => rfl)
    rw [step, hensure]

theorem step_task_other (he : resumes i e = false) (htask : w.tasks[i]? = some task) :
    (step deb w e).tasks[i]? = some task := by
  have hmore : ∀ more, (w.tasks ++ more)[i]? = some task := by
    intro more
    obtain ⟨hlt, -⟩ := List.getElem?_eq_some_iff.mp htask
    rw [List.getElem?_append_left hlt, htask]
  cases e with
  | syncStarted =>
    obtain ⟨more, hstart⟩ := startSync_tasks deb false w
    rw [step, hstart]
    exact hmore more
  | timerEnded =>
    simp only [step]
    split_ifs
    · obtain ⟨more, hstart⟩ :=
        startSync_tasks deb true { w with debounced := deb.timerEnded w.debounced }
      rw [hstart]
      exact hmore more
    · exact htask
  | resumed j =>
    cases hother : w.tasks[j]? with
    | none => simp only [step, hother, htask]
    | some other =>
      have hne : j ≠ i := by
        rintro rfl
        simp [resumes] at he
      rw [step_resumed hother, suspend_tasks, resume_tasks, List.getElem?_set_ne hne, htask]
  | userCreated account =>
    simp only [step]
    split_ifs <;> exact htask
  | userUpdated _ _ _ | userRemoved _ =>
    simp only [step]
    split_ifs
    · rw [userChanged_same.2]
      exact htask
    · exact htask
  | entriesChanged entries => exact htask
  | houseChanged house => exact htask
  | policyEnsured =>
    have hensure : ∀ v : World D, (ensure v).2.tasks = v.tasks :=
      ensure_frame (f := World.tasks) (fun _ _ => rfl) (fun _ _ _ => rfl)
    rw [step, hensure, htask]

theorem step_task_own (he : resumes i e = true) (htask : w.tasks[i]? = some task) :
    (step deb w e).tasks[i]? = some { task with phase := (resume deb w task).2 } := by
  cases e with
  | resumed j =>
    obtain rfl : i = j := by simpa [resumes] using he
    obtain ⟨hlt, -⟩ := List.getElem?_eq_some_iff.mp htask
    rw [step_resumed htask, suspend_tasks, resume_tasks, List.getElem?_set_self hlt]
  | syncStarted | timerEnded | userCreated _ | userUpdated _ _ _ | userRemoved _
  | entriesChanged _ | houseChanged _ | policyEnsured => cases he

theorem weight_run (deb : Debouncer D) (es : List Event) (htask : w.tasks[i]? = some task)
    (husers : (Runs.run (step deb) w es).users.length ≤ n) :
    ∃ task', (Runs.run (step deb) w es).tasks[i]? = some task' ∧ task'.wanted = task.wanted ∧
      weight n task.wanted.length task'.phase ≤
        weight n task.wanted.length task.phase - es.countP (resumes i) := by
  induction es generalizing w task with
  | nil => exact ⟨task, htask, rfl, le_rfl⟩
  | cons e es ih =>
    have hgrow : w.users.length ≤ (Runs.run (step deb) w (e :: es)).users.length := by
      refine Runs.run_invariant (P := fun v : World D => w.users.length ≤ v.users.length) ?_ le_rfl
        (e :: es)
      intro v f hv
      exact hv.trans (step_users_length f)
    cases he : resumes i e with
    | true =>
      obtain ⟨task', hfound, hwanted, hweight⟩ := ih (step_task_own he htask) husers
      refine ⟨task', hfound, hwanted, hweight.trans ?_⟩
      have hstep := resume_weight deb task (hgrow.trans husers)
      rw [List.countP_cons_of_pos he]
      dsimp only
      omega
    | false =>
      obtain ⟨task', hfound, hwanted, hweight⟩ := ih (step_task_other he htask) husers
      refine ⟨task', hfound, hwanted, hweight.trans ?_⟩
      rw [List.countP_cons_of_neg (by rw [he]; decide)]

end Progress

/-- A sync that is resumed often enough ends, whatever else happens and whatever raises: three
times for each user there is by then, once for each user who is named, and once to begin. -/
theorem sync_ends {D : Type} (deb : Debouncer D) (w : World D) (es : List Event) (i : ℕ)
    (task : Task) (htask : w.tasks[i]? = some task) (hbegun : task.phase = .gettingUsers)
    (hmany : 3 * (Runs.run (step deb) w es).users.length + task.wanted.length <
      es.countP (resumes i)) :
    ∃ task', (Runs.run (step deb) w es).tasks[i]? = some task' ∧ task'.phase = .ended := by
  obtain ⟨task', hfound, -, hweight⟩ := weight_run deb es htask le_rfl
  refine ⟨task', hfound, ?_⟩
  rw [hbegun] at hweight
  have hzero :
      weight (Runs.run (step deb) w es).users.length task.wanted.length task'.phase = 0 := by
    have hbound : weight (Runs.run (step deb) w es).users.length task.wanted.length .gettingUsers =
        3 * (Runs.run (step deb) w es).users.length + task.wanted.length + 1 := rfl
    omega
  cases hphase : task'.phase with
  | ended => rfl
  | gettingUsers | gettingUser _ _ =>
    rw [hphase] at hzero
    cases hzero
  | moving _ _ stage _ =>
    rw [hphase] at hzero
    cases stage <;> cases hzero

theorem sync_ends_pair :
    ∃ task', (Runs.run (step timer) (step timer pair .syncStarted) (.resumed 0 ::
      .userRemoved "b0b" :: List.replicate 8 (.resumed 0))).tasks[0]? = some task' ∧
        task'.phase = .ended :=
  sync_ends timer (step timer pair .syncStarted) _ 0
    ⟨["b0b", "ada"], 0, false, .gettingUsers⟩ rfl rfl (by decide)

end HermesConversation.SyncProgress
