import HermesConversation.EntityWatch
import HermesConversation.Membership

/-!
# What the group protects, over whole runs

The listeners for the entities and those for the entries and the users work on one store: the
first keep its policy up to date with the house, the others make and remove the group and move
users into and out of it. A run here is any interleaving of the events of both.
-/

namespace HermesConversation.Protection

open Library RestrictedPolicy RestrictedGroup UserSync EntityWatch HermesConversation.Membership

inductive Event where
  | house (e : EntityWatch.Event)
  | users (e : Membership.Event)

def step (world : World) : Event → World
  | .house e => { world with hass := EntityWatch.step world.hass e }
  | .users e => Membership.step world e

structure Protected (world : World) : Prop where
  denied : Denied world.hass
  settled : Settled world

def Keeps (world : World) : Event → Prop
  | .house e => KeepsWithheld world.hass e
  | .users e => KeepsSettled world e

/-- Everybody an entry names who may be moved at all has the one group, which lets them read
everything and control nothing that is forbidden. -/
def Confined (world : World) : Prop :=
  Quiet world → ∀ user ∈ world.hass.store.users, user.id ∈ wanted world.hass.entries →
    manageable user = true → user.groups = [groupId] ∧
      ∃ policy, getGroup world.hass = some policy ∧ ∀ entityId,
        check policy Rule.read entityId = true ∧
          (Forbidden world.hass.house entityId → check policy Rule.control entityId = false)

/-- There may be no group; if there is one, its policy was right for some house. -/
def Built (hass : Hass) : Prop :=
  ∀ policy, hass.store.restricted = some policy → ∃ built, policy = restrictedPolicy built

structure Sound (hass : Hass) : Prop where
  wellFormed : WellFormed hass
  built : Built hass

/-! ## What the house leaves alone -/

section House

variable {hass : Hass}

theorem house_step (hsupported : hass.store.supported = true) (e : EntityWatch.Event) :
    (EntityWatch.step hass e).entries = hass.entries ∧
      ∃ restricted, (EntityWatch.step hass e).store = { hass.store with restricted } ∧
        (restricted = none ↔ hass.store.restricted = none) := by
  rcases EntityWatch.step_cases hass e with ⟨-, house, -, hstep⟩ | ⟨-, house, id, -, hstep⟩ |
    ⟨state, _, -, -, hstep⟩
  · rw [hstep]
    exact ⟨rfl, hass.store.restricted, rfl, Iff.rfl⟩
  · rw [hstep, registryChanged]
    split_ifs with hrebuild
    · rw [show ensure { hass with house } = _ from ensure_of_supported hsupported]
      refine ⟨rfl, some (restrictedPolicy house), rfl, iff_of_false (Option.some_ne_none _) ?_⟩
      intro hnone
      have hget : getGroup { hass with house } = none := by
        rw [getGroup, if_pos hsupported]
        exact hnone
      rw [needsRebuild, hget] at hrebuild
      cases hrebuild
    · exact ⟨rfl, hass.store.restricted, rfl, Iff.rfl⟩
  · rw [hstep]
    exact ⟨rfl, hass.store.restricted, rfl, Iff.rfl⟩

theorem wellFormed_house (h : WellFormed hass) (e : EntityWatch.Event) :
    WellFormed (EntityWatch.step hass e) := by
  obtain ⟨-, restricted, hstore, hnone⟩ := house_step h.supported e
  constructor
  · rw [hstore]
    exact h.supported
  · rw [hstore]
    exact h.ids
  · rw [hstore]
    exact fun hgone => h.group (hnone.mp hgone)

theorem right_house (h : WellFormed hass) (hright : Right hass) (e : EntityWatch.Event) :
    Right (EntityWatch.step hass e) := by
  obtain ⟨hentries, restricted, hstore, -⟩ := house_step h.supported e
  intro user huser
  rw [hstore] at huser
  rw [hentries]
  exact hright user huser

theorem Sound.inForce (h : Sound hass) {policy : Policy}
    (hsome : hass.store.restricted = some policy) :
    ∃ built, InForce hass built := by
  obtain ⟨built, hpolicy⟩ := h.built policy hsome
  exact ⟨built, h.wellFormed.supported, hpolicy ▸ hsome⟩

theorem built_house (h : Sound hass) (e : EntityWatch.Event) : Built (EntityWatch.step hass e) := by
  intro policy hpolicy
  cases hsome : hass.store.restricted with
  | none =>
    obtain ⟨-, restricted, hstore, hnone⟩ := house_step h.wellFormed.supported e
    rw [hstore] at hpolicy
    rw [show restricted = none from hnone.mpr hsome] at hpolicy
    cases hpolicy
  | some old =>
    obtain ⟨built, hforce⟩ := h.inForce hsome
    obtain ⟨built', hforce'⟩ := inForce_step hforce e
    rw [hforce'.restricted, Option.some.injEq] at hpolicy
    exact ⟨built', hpolicy.symm⟩

theorem denied_of_none (h : hass.store.restricted = none) : Denied hass := by
  intro policy hget
  rw [getGroup, h, ite_self] at hget
  cases hget

theorem denied_house_iff (h : Sound hass) (hdenied : Denied hass) (e : EntityWatch.Event) :
    Denied (EntityWatch.step hass e) ↔ KeepsWithheld hass e := by
  cases hsome : hass.store.restricted with
  | none =>
    obtain ⟨-, restricted, hstore, hnone⟩ := house_step h.wellFormed.supported e
    refine iff_of_true (denied_of_none ?_) ?_
    · rw [hstore]
      exact hnone.mpr hsome
    · cases e with
      | stateSet state =>
        intro _ policy _ hget
        rw [getGroup, hsome, ite_self] at hget
        cases hget
      | stateRemoved _ | registryCreated _ | registryUpdated _ _ | registryRemoved _ => trivial
  | some policy =>
    obtain ⟨built, hforce⟩ := h.inForce hsome
    exact denied_step_iff hforce hdenied e

end House

/-! ## What the entries and the users leave alone -/

section Users

variable {world : World}

/-- Only a sync has to do with the policy. -/
theorem users_step (world : World) (e : Membership.Event) :
    (Membership.step world e).hass.house = world.hass.house ∧
      ((Membership.step world e).hass.store.restricted = world.hass.store.restricted ∨
        (Membership.step world e).hass.store.restricted =
          (asyncSyncUsers world.hass).store.restricted) := by
  refine step_of_change (P := fun hass => hass.house = world.hass.house ∧
    (hass.store.restricted = world.hass.store.restricted ∨
      hass.store.restricted = (asyncSyncUsers world.hass).store.restricted))
    fun hass hchange => ?_
  cases hchange with
  | synced | setUp _ _ => exact ⟨asyncSyncUsers_house world.hass, .inr rfl⟩
  | same | loaded _ _ | added _ | chosen _ _ _ | removed _ _ _ | edited _ _ _ _ | deleted _ _ =>
    exact ⟨rfl, .inl rfl⟩

theorem built_users (h : Sound world.hass) (e : Membership.Event) :
    Built (Membership.step world e).hass := by
  obtain ⟨-, hsame | hsynced⟩ := users_step world e
  · intro policy hpolicy
    exact h.built policy (hsame ▸ hpolicy)
  · rw [h.wellFormed.store_sync] at hsynced
    intro policy hpolicy
    rw [hsynced] at hpolicy
    refine ⟨world.hass.house, ?_⟩
    split_ifs at hpolicy
    exact (Option.some.inj hpolicy).symm

/-- The policy that a sync leaves is right for the house, and nothing else touches either. -/
theorem denied_users (h : Sound world.hass) (hdenied : Denied world.hass) (e : Membership.Event) :
    Denied (Membership.step world e).hass := by
  obtain ⟨hhouse, hcases⟩ := users_step world e
  have hsupported := (wellFormed_step h.wellFormed e).supported
  cases hsome : (Membership.step world e).hass.store.restricted with
  | none => exact denied_of_none hsome
  | some policy =>
    rcases hcases with hsame | hsynced
    · have hgroup : getGroup (Membership.step world e).hass = getGroup world.hass := by
        rw [getGroup, getGroup, if_pos hsupported, if_pos h.wellFormed.supported, hsame]
      intro found hget id hforbidden
      rw [hhouse] at hforbidden
      exact hdenied found (hgroup ▸ hget) id hforbidden
    · rw [hsome, h.wellFormed.store_sync] at hsynced
      apply denied_of_current
      refine ⟨hsupported, ?_⟩
      rw [hsome, hhouse]
      split_ifs at hsynced
      exact hsynced

end Users

/-! ## Both together -/

section Both

variable {world : World}

theorem sound_step (h : Sound world.hass) (e : Event) : Sound (step world e).hass := by
  cases e with
  | house e => exact ⟨wellFormed_house h.wellFormed e, built_house h e⟩
  | users e => exact ⟨wellFormed_step h.wellFormed e, built_users h e⟩

theorem protected_step_iff (h : Sound world.hass) (hprotected : Protected world) (e : Event) :
    Protected (step world e) ↔ Keeps world e := by
  cases e with
  | house e =>
    constructor
    · intro hnext
      exact (denied_house_iff h hprotected.denied e).mp hnext.denied
    · intro hkeeps
      refine ⟨(denied_house_iff h hprotected.denied e).mpr hkeeps, fun hquiet => ?_⟩
      exact right_house h.wellFormed (hprotected.settled hquiet) e
  | users e =>
    constructor
    · intro hnext
      exact (settled_step_iff h.wellFormed hprotected.settled e).mp hnext.settled
    · intro hkeeps
      exact ⟨denied_users h hprotected.denied e,
        (settled_step_iff h.wellFormed hprotected.settled e).mpr hkeeps⟩

theorem Protected.confined (hprotected : Protected world) (h : Sound world.hass) :
    Confined world := by
  intro hquiet user huser hwanted hmanageable
  have hgroups := (hprotected.settled hquiet user huser).1 hwanted hmanageable
  refine ⟨hgroups, ?_⟩
  cases hsome : world.hass.store.restricted with
  | none =>
    have hmember := h.wellFormed.group hsome user huser
    rw [hgroups] at hmember
    exact absurd (List.mem_singleton_self groupId) hmember
  | some policy =>
    have hget : getGroup world.hass = some policy := by
      rw [getGroup, if_pos h.wellFormed.supported, hsome]
    obtain ⟨built, rfl⟩ := h.built policy hsome
    exact ⟨_, hget, fun id => ⟨check_read built id, hprotected.denied _ hget id⟩⟩

theorem protected_throughout_iff (world : World) (h : Sound world.hass)
    (hprotected : Protected world) (es : List Event) :
    (Runs.Throughout step Protected world es ↔ Runs.Guarded step Keeps world es) ∧
      (Runs.Guarded step Keeps world es → Runs.Throughout step Confined world es) := by
  have haux : ∀ s e, True → Sound s.hass → Protected s → Protected (step s e) →
      Sound (step s e).hass := fun s e _ hs _ _ => sound_step hs e
  have hiff : ∀ s e, True → Sound s.hass → Protected s → (Protected (step s e) ↔ Keeps s e) :=
    fun s e _ hs hp => protected_step_iff hs hp e
  refine ⟨Runs.throughout_iff_guarded haux hiff (fun _ _ => trivial) h hprotected,
    fun hguarded => ?_⟩
  have hboth : Runs.Throughout step (fun s => Sound s.hass ∧ Protected s) world es := by
    refine Runs.throughout_of_guarded (fun s e hs he => ?_) ⟨h, hprotected⟩ hguarded
    exact ⟨sound_step hs.1 e, (protected_step_iff hs.1 hs.2 e).mpr he⟩
  exact hboth.imp fun s hs => hs.2.confined hs.1

def guarded : World where
  hass :=
    { house := sideHouse
      entries := [⟨"hub", some "ada", true⟩]
      store :=
        { supported := true
          restricted := some (restrictedPolicy sideHouse)
          otherGroups := [groupIdUser]
          users := [⟨"ada", false, true, false, [groupId]⟩]
          usersGroup := List.mem_singleton_self groupIdUser }
      issues := ∅ }
  tasks := 0
  debounced := false

theorem sound_guarded : Sound guarded.hass where
  wellFormed := ⟨rfl, by decide, fun h => by cases h⟩
  built _ hpolicy := ⟨sideHouse, (Option.some.inj hpolicy).symm⟩

theorem protected_guarded : Protected guarded where
  denied := denied_of_current ⟨rfl, rfl⟩
  settled := by
    intro _ user huser
    obtain rfl := List.mem_singleton.mp huser
    decide

theorem protected_throughout_iff_guarded :
    (Runs.Throughout step Protected guarded
        [.users (.editUser "ada" none (some [groupIdUser])), .users .runDebounced,
          .house (.registryCreated ⟨"cover.side", some "door", none⟩)] ↔
      Runs.Guarded step Keeps guarded
        [.users (.editUser "ada" none (some [groupIdUser])), .users .runDebounced,
          .house (.registryCreated ⟨"cover.side", some "door", none⟩)]) ∧
      (Runs.Guarded step Keeps guarded
        [.users (.editUser "ada" none (some [groupIdUser])), .users .runDebounced,
          .house (.registryCreated ⟨"cover.side", some "door", none⟩)] →
        Runs.Throughout step Confined guarded
          [.users (.editUser "ada" none (some [groupIdUser])), .users .runDebounced,
            .house (.registryCreated ⟨"cover.side", some "door", none⟩)]) :=
  protected_throughout_iff guarded sound_guarded protected_guarded _

end Both

end HermesConversation.Protection
