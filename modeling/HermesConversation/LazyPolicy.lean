import HermesConversation.EntityWatch

/-!
# The policy that is not rebuilt

The listeners rebuild the policy only for covers and for domains that have no control yet.
What is kept in between still lists domains that are gone, so it is not the policy of the
current house; it decides as that one does on every entity there is.
-/

namespace HermesConversation.LazyPolicy

open Library Entities RestrictedPolicy RestrictedGroup EntityWatch

/-- What a listener looks at. The registry renames an entity within its domain only: for any other
`new_entity_id` its `async_update_entity` raises "New entity ID should be same domain". -/
def Examined (hass : Hass) : Event → Prop
  | .stateSet state => findState hass.house state.entityId = none
  | .stateRemoved _ => False
  | .registryUpdated id entry => entry.domain = domainOf id
  | .registryCreated _ | .registryRemoved _ => True

def Agrees (hass : Hass) : Prop :=
  ∃ policy, getGroup hass = some policy ∧ ∀ id, Known hass.house id →
    check policy Rule.control id = check (restrictedPolicy hass.house) Rule.control id

/-! ## Houses that differ in some domains only -/

structure SameOn (p : String → Prop) (house house' : House) : Prop where
  states : ∀ s : State, p s.domain → (s ∈ house'.states ↔ s ∈ house.states)
  registry : ∀ e : RegistryEntry, p e.domain → (e ∈ house'.registry ↔ e ∈ house.registry)

section Same

variable {p q : String → Prop} {house house' house'' : House} {id : String} {state : State}
  {entry : RegistryEntry}

theorem sameOn_refl (p : String → Prop) (house : House) : SameOn p house house :=
  ⟨fun _ _ => Iff.rfl, fun _ _ => Iff.rfl⟩

theorem SameOn.trans (h : SameOn p house house') (h' : SameOn p house' house'') :
    SameOn p house house'' :=
  ⟨fun s hs => (h'.states s hs).trans (h.states s hs),
    fun e he => (h'.registry e he).trans (h.registry e he)⟩

theorem SameOn.mono (h : SameOn p house house') (hpq : ∀ domain, q domain → p domain) :
    SameOn q house house' :=
  ⟨fun s hs => h.states s (hpq _ hs), fun e he => h.registry e (hpq _ he)⟩

theorem SameOn.known (h : SameOn p house house') (hid : p (domainOf id)) :
    Known house' id ↔ Known house id := by
  refine or_congr (exists_congr fun s => ?_) (exists_congr fun e => ?_)
  · refine and_congr_left fun hs => h.states s ?_
    rw [State.domain, hs]
    exact hid
  · refine and_congr_left fun he => h.registry e ?_
    rw [RegistryEntry.domain, he]
    exact hid

theorem SameOn.classified (h : SameOn p house house') (hid : p (domainOf id)) :
    Classified house' id ↔ Classified house id := by
  refine or_congr (exists_congr fun s => ?_) (exists_congr fun e => ?_)
  · refine and_congr_left fun hs => h.states s ?_
    rw [State.domain, hs.1]
    exact hid
  · refine and_congr_left fun he => h.registry e ?_
    rw [RegistryEntry.domain, he.1]
    exact hid

theorem sameOn_setState : SameOn (· ≠ state.domain) house (setState house state) := by
  refine ⟨fun s hs => ?_, fun _ _ => Iff.rfl⟩
  have hstate : s ≠ state := fun heq => hs (heq ▸ rfl)
  have hid : s.entityId ≠ state.entityId := fun heq => hs (congrArg domainOf heq)
  simp [setState, removeState, hstate, hid]

theorem sameOn_removeEntry : SameOn (· ≠ domainOf id) house (removeEntry house id) := by
  refine ⟨fun _ _ => Iff.rfl, fun e he => ?_⟩
  have hid : e.entityId ≠ id := fun heq => he (congrArg domainOf heq)
  simp [removeEntry, hid]

theorem sameOn_addEntry : SameOn (· ≠ entry.domain) house (addEntry house entry) := by
  refine ⟨fun _ _ => Iff.rfl, fun e he => ?_⟩
  have hentry : e ≠ entry := fun heq => he (heq ▸ rfl)
  simp [addEntry, hentry]

theorem examined_cases {hass : Hass} {e : Event} (h : Examined hass e) :
    step hass e = hass ∨ ∃ house' id, SameOn (· ≠ domainOf id) hass.house house' ∧
      step hass e = registryChanged { hass with house := house' } id := by
  cases e with
  | stateSet state =>
    right
    refine ⟨setState hass.house state, state.entityId, sameOn_setState, ?_⟩
    simp only [step, show findState hass.house state.entityId = none from h, stateChanged,
      registryChanged, Option.isNone_none, Bool.true_and]
  | stateRemoved id => exact h.elim
  | registryCreated entry =>
    cases hfound : findEntry hass.house entry.entityId with
    | some found =>
      left
      simp only [step, hfound]
    | none =>
      right
      exact ⟨_, entry.entityId, sameOn_addEntry, by simp only [step, hfound]⟩
  | registryUpdated id entry =>
    cases hfound : findEntry hass.house id with
    | none =>
      left
      simp only [step, hfound]
    | some found =>
      right
      have hdomain : domainOf entry.entityId = domainOf id := h
      have hremove : SameOn (· ≠ domainOf entry.entityId) hass.house
          (removeEntry hass.house id) := hdomain ▸ sameOn_removeEntry
      exact ⟨_, entry.entityId, hremove.trans sameOn_addEntry, by simp only [step, hfound]⟩
  | registryRemoved id =>
    cases hfound : findEntry hass.house id with
    | none =>
      left
      simp only [step, hfound]
    | some found =>
      right
      exact ⟨_, id, sameOn_removeEntry, by simp only [step, hfound]⟩

end Same

/-! ## What the kept policy still says of the house -/

/-- The policy was built for a house with the same covers and with every domain of today
that may be controlled. -/
structure Tracks (built house : House) : Prop where
  domains : ∀ id, Known house id → domainOf id ∉ readOnlyDomains → KnownDomain built (domainOf id)
  covers : SameOn (· = coverDomain) built house

section Tracking

variable {hass : Hass} {built house house' : House} {id : String}

theorem tracks_refl (house : House) : Tracks house house :=
  ⟨fun id hid _ => ⟨id, hid, rfl⟩, sameOn_refl _ house⟩

theorem Tracks.check_control (h : Tracks built house) (hid : Known house id) :
    check (restrictedPolicy built) Rule.control id =
      check (restrictedPolicy house) Rule.control id := by
  rw [Bool.eq_iff_iff, check_control_iff, check_control_iff]
  simp only [mem_knownDomains, mem_entityIds_iff, mem_forbiddenCovers_iff]
  refine or_congr (and_congr_left fun hopen => ?_) ?_
  · exact ⟨fun _ => ⟨id, hid, rfl⟩, fun _ => h.domains id hid hopen⟩
  · by_cases hcover : domainOf id = coverDomain
    · rw [h.covers.known hcover, h.covers.classified hcover]
    · simp only [hcover, false_and]

theorem Tracks.agrees (h : Tracks built hass.house) (hforce : InForce hass built) :
    Agrees hass :=
  ⟨restrictedPolicy built, hforce.get_eq, fun _ hid => h.check_control hid⟩

theorem needsRebuild_false (hforce : InForce hass built) (h : ¬needsRebuild hass id = true) :
    domainOf id ≠ coverDomain ∧
      (domainOf id ∉ readOnlyDomains → KnownDomain built (domainOf id)) := by
  constructor
  · intro hcover
    exact h (needsRebuild_cover hforce.get_eq hcover)
  · intro hopen
    by_contra hunknown
    apply h
    have hnone : (restrictedPolicy built).domains.lookup (domainOf id) = none := by
      rw [restrictedPolicy_domains, if_neg]
      intro hknown
      exact hunknown (mem_knownDomains.mp hknown.1)
    simp only [needsRebuild, hforce.get_eq, if_neg hopen, hnone, Option.isNone_none]

theorem Tracks.skip (h : Tracks built house) (hsame : SameOn (· ≠ domainOf id) house house')
    (hcover : domainOf id ≠ coverDomain)
    (hgranted : domainOf id ∉ readOnlyDomains → KnownDomain built (domainOf id)) :
    Tracks built house' := by
  constructor
  · intro other hother hopen
    by_cases hdomain : domainOf other = domainOf id
    · rw [hdomain] at hopen ⊢
      exact hgranted hopen
    · exact h.domains other ((hsame.known hdomain).mp hother) hopen
  · refine h.covers.trans (hsame.mono fun domain hdomain => ?_)
    rw [hdomain]
    exact hcover.symm

def Kept (hass : Hass) : Prop := ∃ built, InForce hass built ∧ Tracks built hass.house

theorem registryChanged_kept (h : Kept hass) (hsame : SameOn (· ≠ domainOf id) hass.house house') :
    Kept (registryChanged { hass with house := house' } id) := by
  obtain ⟨built, hforce, htracks⟩ := h
  rw [registryChanged]
  split_ifs with hrebuild
  · have hhouse : (ensure { hass with house := house' }).2.house = house' :=
      ensure_house hforce.supported
    refine ⟨house', inForce_ensure hforce.supported, ?_⟩
    rw [hhouse]
    exact tracks_refl house'
  · obtain ⟨hcover, hgranted⟩ := needsRebuild_false (hforce.withHouse house') hrebuild
    exact ⟨built, hforce.withHouse house', htracks.skip hsame hcover hgranted⟩

theorem kept_step {e : Event} (h : Kept hass) (he : Examined hass e) : Kept (step hass e) := by
  rcases examined_cases he with hstep | ⟨house', id, hsame, hstep⟩
  · rw [hstep]
    exact h
  · rw [hstep]
    exact registryChanged_kept h hsame

theorem agrees_throughout (hass : Hass) (h : InForce hass hass.house) (es : List Event)
    (hes : Runs.Guarded step Examined hass es) : Runs.Throughout step Agrees hass es := by
  have hkept : Runs.Throughout step Kept hass es :=
    Runs.throughout_of_guarded (fun _ _ => kept_step) ⟨hass.house, h, tracks_refl _⟩ hes
  apply hkept.imp
  intro hass hkept
  obtain ⟨built, hforce, htracks⟩ := hkept
  exact htracks.agrees hforce

theorem agrees_throughout_side : Runs.Throughout step Agrees sideHass
    [.registryCreated ⟨"light.hall", none, none⟩, .registryRemoved "light.hall",
      .registryCreated ⟨"cover.side", some "door", none⟩] :=
  agrees_throughout sideHass ⟨rfl, rfl⟩ _ ⟨trivial, trivial, trivial, trivial⟩

end Tracking

end HermesConversation.LazyPolicy
