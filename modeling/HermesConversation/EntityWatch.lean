import HermesConversation.Library.Runs
import HermesConversation.RestrictedGroup

/-!
# Keeping the policy up to date with the house

The listeners rebuild the policy when an entity appears or its registry entry changes. A
state that is merely rewritten is not looked at, and neither is one that goes.
-/

namespace HermesConversation.EntityWatch

open Library Entities RestrictedPolicy RestrictedGroup

inductive Event where
  | stateSet (state : State)
  | stateRemoved (entityId : String)
  | registryCreated (entry : RegistryEntry)
  | registryUpdated (entityId : String) (entry : RegistryEntry)
  | registryRemoved (entityId : String)

def findState (house : House) (entityId : String) : Option State :=
  house.states.find? fun s => s.entityId = entityId

def findEntry (house : House) (entityId : String) : Option RegistryEntry :=
  house.registry.find? fun e => e.entityId = entityId

def removeState (house : House) (entityId : String) : House :=
  { house with states := house.states.filter fun s => s.entityId ≠ entityId }

def setState (house : House) (state : State) : House :=
  { house with states := (removeState house state.entityId).states ++ [state] }

def removeEntry (house : House) (entityId : String) : House :=
  { house with registry := house.registry.filter fun e => e.entityId ≠ entityId }

def addEntry (house : House) (entry : RegistryEntry) : House :=
  { house with registry := house.registry ++ [entry] }

def registryChanged (hass : Hass) (entityId : String) : Hass :=
  if needsRebuild hass entityId then (ensure hass).2 else hass

def stateChanged (hass : Hass) (oldState : Option State) (entityId : String) : Hass :=
  if oldState.isNone && needsRebuild hass entityId then (ensure hass).2 else hass

/-- An event and its listener. A change of something that is not there is no event, and an
update may rename its entry. -/
def step (hass : Hass) : Event → Hass
  | .stateSet state =>
    let oldState := findState hass.house state.entityId
    stateChanged { hass with house := setState hass.house state } oldState state.entityId
  | .stateRemoved id =>
    match findState hass.house id with
    | none => hass
    | some oldState =>
      stateChanged { hass with house := removeState hass.house id } (some oldState) id
  | .registryCreated entry =>
    match findEntry hass.house entry.entityId with
    | some _ => hass
    | none => registryChanged { hass with house := addEntry hass.house entry } entry.entityId
  | .registryUpdated id entry =>
    match findEntry hass.house id with
    | none => hass
    | some _ =>
      registryChanged { hass with house := addEntry (removeEntry hass.house id) entry }
        entry.entityId
  | .registryRemoved id =>
    match findEntry hass.house id with
    | none => hass
    | some _ => registryChanged { hass with house := removeEntry hass.house id } id

/-! ## What a change of the house adds to the withheld covers -/

def Fewer (house' house : House) : Prop :=
  ∀ id ∈ forbiddenCovers house', id ∈ forbiddenCovers house

section Changes

variable {house : House} {state : State} {entry : RegistryEntry} {id entityId : String}

theorem forbiddenCovers_removeState (h : entityId ∈ forbiddenCovers (removeState house id)) :
    entityId ∈ forbiddenCovers house := by
  obtain ⟨hdomain, ⟨s, hs, hid, hclass⟩ | hentry⟩ := mem_forbiddenCovers.mp h
  · exact mem_forbiddenCovers.mpr ⟨hdomain, .inl ⟨s, (List.mem_filter.mp hs).1, hid, hclass⟩⟩
  · exact mem_forbiddenCovers.mpr ⟨hdomain, .inr hentry⟩

theorem forbiddenCovers_setState (h : entityId ∈ forbiddenCovers (setState house state)) :
    entityId ∈ forbiddenCovers house ∨
      entityId = state.entityId ∧ state.domain = coverDomain ∧ state.classForbidden := by
  obtain ⟨hdomain, ⟨s, hs, hid, hclass⟩ | hentry⟩ := mem_forbiddenCovers.mp h
  · rcases List.mem_append.mp hs with hs | hs
    · left
      exact forbiddenCovers_removeState
        (mem_forbiddenCovers.mpr ⟨hdomain, .inl ⟨s, hs, hid, hclass⟩⟩)
    · obtain rfl := List.mem_singleton.mp hs
      subst hid
      exact .inr ⟨rfl, hdomain, hclass⟩
  · exact .inl (mem_forbiddenCovers.mpr ⟨hdomain, .inr hentry⟩)

theorem forbiddenCovers_setState_self (hdomain : state.domain = coverDomain)
    (hclass : state.classForbidden) : state.entityId ∈ forbiddenCovers (setState house state) :=
  mem_forbiddenCovers.mpr ⟨hdomain, .inl ⟨state, by simp [setState], rfl, hclass⟩⟩

theorem forbiddenCovers_removeEntry (h : entityId ∈ forbiddenCovers (removeEntry house id)) :
    entityId ∈ forbiddenCovers house := by
  obtain ⟨hdomain, hstate | ⟨e, he, hid, hclass⟩⟩ := mem_forbiddenCovers.mp h
  · exact mem_forbiddenCovers.mpr ⟨hdomain, .inl hstate⟩
  · exact mem_forbiddenCovers.mpr ⟨hdomain, .inr ⟨e, (List.mem_filter.mp he).1, hid, hclass⟩⟩

theorem forbiddenCovers_addEntry (h : entityId ∈ forbiddenCovers (addEntry house entry)) :
    entityId ∈ forbiddenCovers house ∨ entityId = entry.entityId ∧ entry.domain = coverDomain := by
  obtain ⟨hdomain, hstate | ⟨e, he, hid, hclass⟩⟩ := mem_forbiddenCovers.mp h
  · exact .inl (mem_forbiddenCovers.mpr ⟨hdomain, .inl hstate⟩)
  · rcases List.mem_append.mp he with he | he
    · exact .inl (mem_forbiddenCovers.mpr ⟨hdomain, .inr ⟨e, he, hid, hclass⟩⟩)
    · obtain rfl := List.mem_singleton.mp he
      subst hid
      exact .inr ⟨rfl, hdomain⟩

end Changes

/-! ## The policy in force -/

section Denied

variable {hass : Hass} {policy : Policy} {house house' : House} {id : String}

def Forbidden (house : House) (entityId : String) : Prop :=
  domainOf entityId ∈ forbiddenDomains ∨ domainOf entityId = automationDomain ∨
    entityId ∈ forbiddenCovers house

def Denied (hass : Hass) : Prop :=
  ∀ policy, getGroup hass = some policy → ∀ entityId, Forbidden hass.house entityId →
    check policy Rule.control entityId = false

/-- The group is there, with a policy that was right for some house. -/
structure InForce (hass : Hass) (built : House) : Prop where
  supported : hass.store.supported = true
  restricted : hass.store.restricted = some (restrictedPolicy built)

theorem InForce.get_eq (h : InForce hass house) :
    getGroup hass = some (restrictedPolicy house) := by
  rw [getGroup, if_pos h.supported, h.restricted]

theorem InForce.withHouse (h : InForce hass house) (house' : House) :
    InForce { hass with house := house' } house :=
  ⟨h.supported, h.restricted⟩

theorem inForce_ensure (h : hass.store.supported = true) : InForce (ensure hass).2 hass.house := by
  rw [ensure_of_supported h]
  exact ⟨h, rfl⟩

theorem ensure_house (h : hass.store.supported = true) : (ensure hass).2.house = hass.house := by
  rw [ensure_of_supported h]
  rfl

theorem denied_iff (h : InForce hass house) :
    Denied hass ↔ ∀ id ∈ forbiddenCovers hass.house,
      check (restrictedPolicy house) Rule.control id = false := by
  constructor
  · intro hdenied id hid
    exact hdenied _ h.get_eq id (.inr (.inr hid))
  · intro hcovers policy hpolicy id hforbidden
    rw [h.get_eq, Option.some.injEq] at hpolicy
    subst hpolicy
    -- A domain that is read-only as such is so under the policy of every house.
    have hreadOnly : domainOf id ∈ readOnlyDomains → domainOf id ≠ coverDomain →
        check (restrictedPolicy house) Rule.control id = false := by
      intro hmem hne
      rw [← Bool.not_eq_true, check_control_iff]
      intro hgranted
      rcases hgranted with ⟨-, hopen⟩ | ⟨hcover, -⟩
      · exact hopen hmem
      · exact hne (mem_entityIds.mp hcover).1
    rcases hforbidden with hmem | hauto | hcover
    · refine hreadOnly (List.mem_append_left _ hmem) fun heq => ?_
      rw [heq] at hmem
      revert hmem
      decide
    · exact hreadOnly (by rw [hauto]; decide) (by rw [hauto]; decide)
    · exact hcovers id hcover

theorem denied_of_current (h : InForce hass hass.house) : Denied hass := by
  rw [denied_iff h]
  intro id hid
  rw [← Bool.not_eq_true, check_control_iff]
  intro hgranted
  rcases hgranted with ⟨-, hopen⟩ | ⟨-, hnot⟩
  · rw [(mem_forbiddenCovers.mp hid).1] at hopen
    exact hopen (by decide)
  · exact hnot hid

theorem denied_withHouse (h : InForce hass house) (hdenied : Denied hass)
    (hfewer : Fewer house' hass.house) : Denied { hass with house := house' } := by
  rw [denied_iff (h.withHouse house')]
  intro id hid
  exact (denied_iff h).mp hdenied id (hfewer id hid)

theorem registryChanged_denied (h : InForce hass house) (hdenied : Denied hass)
    (hfewer : domainOf id ≠ coverDomain → Fewer house' hass.house) :
    Denied (registryChanged { hass with house := house' } id) := by
  rw [registryChanged]
  split_ifs with hrebuild
  · have hhouse : (ensure { hass with house := house' }).2.house = house' :=
      ensure_house h.supported
    have hforce : InForce (ensure { hass with house := house' }).2 house' :=
      inForce_ensure h.supported
    refine denied_of_current ?_
    rw [hhouse]
    exact hforce
  · refine denied_withHouse h hdenied (hfewer fun hcover => hrebuild ?_)
    exact needsRebuild_cover (h.withHouse house').get_eq hcover

theorem registryChanged_inForce (h : InForce hass house) :
    ∃ built, InForce (registryChanged { hass with house := house' } id) built := by
  rw [registryChanged]
  split_ifs
  · exact ⟨house', inForce_ensure h.supported⟩
  · exact ⟨house, h.withHouse house'⟩

end Denied

/-! ## Runs -/

section Runs

variable {hass : Hass} {house : House}

/-- No cover is rewritten to a withheld class while the policy in force grants its control. -/
def KeepsWithheld (hass : Hass) : Event → Prop
  | .stateSet state =>
    ∀ oldState policy, findState hass.house state.entityId = some oldState →
      getGroup hass = some policy → state.domain = coverDomain → state.classForbidden →
        check policy Rule.control state.entityId = false
  | .stateRemoved _ | .registryCreated _ | .registryUpdated _ _ | .registryRemoved _ => True

/-- A step takes nothing from the policy that it should not, or is seen by a listener, or
rewrites a state, which no listener looks at. -/
theorem step_cases (hass : Hass) (e : Event) :
    (KeepsWithheld hass e ∧ ∃ house', Fewer house' hass.house ∧
      step hass e = { hass with house := house' }) ∨
    (KeepsWithheld hass e ∧ ∃ house' id, (domainOf id ≠ coverDomain → Fewer house' hass.house) ∧
      step hass e = registryChanged { hass with house := house' } id) ∨
    ∃ state oldState, e = .stateSet state ∧
      findState hass.house state.entityId = some oldState ∧
      step hass e = { hass with house := setState hass.house state } := by
  cases e with
  | stateSet state =>
    cases hold : findState hass.house state.entityId with
    | some oldState =>
      exact .inr (.inr ⟨state, oldState, rfl, hold, by simp [step, hold, stateChanged]⟩)
    | none =>
      refine .inr (.inl ⟨fun oldState _ hsome => by simp [hold] at hsome,
        setState hass.house state, state.entityId, fun hcover id hid => ?_,
        by simp [step, hold, stateChanged, registryChanged]⟩)
      rcases forbiddenCovers_setState hid with hid | ⟨-, hdomain, -⟩
      · exact hid
      · exact absurd hdomain hcover
  | stateRemoved id =>
    cases hold : findState hass.house id with
    | none => exact .inl ⟨trivial, hass.house, fun _ h => h, by simp [step, hold]⟩
    | some oldState =>
      exact .inl ⟨trivial, removeState hass.house id, fun _ => forbiddenCovers_removeState,
        by simp [step, hold, stateChanged]⟩
  | registryCreated entry =>
    cases hfound : findEntry hass.house entry.entityId with
    | some found => exact .inl ⟨trivial, hass.house, fun _ h => h, by simp [step, hfound]⟩
    | none =>
      refine .inr (.inl ⟨trivial, addEntry hass.house entry, entry.entityId,
        fun hcover id hid => ?_, by simp [step, hfound]⟩)
      rcases forbiddenCovers_addEntry hid with hid | ⟨-, hdomain⟩
      · exact hid
      · exact absurd hdomain hcover
  | registryUpdated id entry =>
    cases hfound : findEntry hass.house id with
    | none => exact .inl ⟨trivial, hass.house, fun _ h => h, by simp [step, hfound]⟩
    | some found =>
      refine .inr (.inl ⟨trivial, addEntry (removeEntry hass.house id) entry, entry.entityId,
        fun hcover other hother => ?_, by simp [step, hfound]⟩)
      rcases forbiddenCovers_addEntry hother with hother | ⟨-, hdomain⟩
      · exact forbiddenCovers_removeEntry hother
      · exact absurd hdomain hcover
  | registryRemoved id =>
    cases hfound : findEntry hass.house id with
    | none => exact .inl ⟨trivial, hass.house, fun _ h => h, by simp [step, hfound]⟩
    | some found =>
      exact .inr (.inl ⟨trivial, removeEntry hass.house id, id,
        fun _ _ => forbiddenCovers_removeEntry, by simp [step, hfound]⟩)

theorem inForce_step (h : InForce hass house) (e : Event) :
    ∃ built, InForce (step hass e) built := by
  rcases step_cases hass e with ⟨-, house', -, hstep⟩ | ⟨-, house', id, -, hstep⟩ |
    ⟨state, _, -, -, hstep⟩
  · rw [hstep]
    exact ⟨house, h.withHouse house'⟩
  · rw [hstep]
    exact registryChanged_inForce h
  · rw [hstep]
    exact ⟨house, h.withHouse _⟩

theorem denied_rewrite_iff (h : InForce hass house) (hdenied : Denied hass) {state : State}
    {oldState : State} (hold : findState hass.house state.entityId = some oldState) :
    Denied { hass with house := setState hass.house state } ↔
      KeepsWithheld hass (.stateSet state) := by
  rw [denied_iff (h.withHouse _)]
  constructor
  · intro hcovers _ policy _ hpolicy hdomain hclass
    rw [h.get_eq, Option.some.injEq] at hpolicy
    rw [← hpolicy]
    exact hcovers _ (forbiddenCovers_setState_self hdomain hclass)
  · intro hkeeps id hid
    rcases forbiddenCovers_setState hid with hid | ⟨rfl, hdomain, hclass⟩
    · exact (denied_iff h).mp hdenied id hid
    · exact hkeeps oldState _ hold h.get_eq hdomain hclass

theorem denied_step_iff (h : InForce hass house) (hdenied : Denied hass) (e : Event) :
    Denied (step hass e) ↔ KeepsWithheld hass e := by
  rcases step_cases hass e with ⟨hkeeps, house', hfewer, hstep⟩ |
    ⟨hkeeps, house', id, hfewer, hstep⟩ | ⟨state, oldState, rfl, hold, hstep⟩
  · rw [hstep]
    exact ⟨fun _ => hkeeps, fun _ => denied_withHouse h hdenied hfewer⟩
  · rw [hstep]
    exact ⟨fun _ => hkeeps, fun _ => registryChanged_denied h hdenied hfewer⟩
  · rw [hstep]
    exact denied_rewrite_iff h hdenied hold

theorem denied_throughout_iff (hass : Hass) (h : InForce hass hass.house) (es : List Event) :
    Runs.Throughout step Denied hass es ↔ Runs.Guarded step KeepsWithheld hass es := by
  have haux : ∀ s e, True → (∃ built, InForce s built) → Denied s → Denied (step s e) →
      ∃ built, InForce (step s e) built := fun s e _ ⟨_, hforce⟩ _ _ => inForce_step hforce e
  have hiff : ∀ s e, True → (∃ built, InForce s built) → Denied s →
      (Denied (step s e) ↔ KeepsWithheld s e) :=
    fun s e _ ⟨_, hforce⟩ hdenied => denied_step_iff hforce hdenied e
  exact Runs.throughout_iff_guarded haux hiff (fun _ _ => trivial) ⟨hass.house, h⟩
    (denied_of_current h)

def sideCover (deviceClass : String) : State :=
  ⟨"cover.side", Finmap.singleton attrDeviceClass (.str deviceClass)⟩

def sideHouse : House := ⟨[sideCover "blind"], []⟩

def sideHass : Hass :=
  ⟨sideHouse, [], ⟨true, some (restrictedPolicy sideHouse), [groupIdUser], [], by decide⟩, ∅⟩

theorem denied_throughout_iff_side :
    Runs.Throughout step Denied sideHass
        [.stateSet (sideCover "shutter"), .registryCreated ⟨"cover.side", some "door", none⟩] ↔
      Runs.Guarded step KeepsWithheld sideHass
        [.stateSet (sideCover "shutter"), .registryCreated ⟨"cover.side", some "door", none⟩] :=
  denied_throughout_iff sideHass ⟨rfl, rfl⟩ _

theorem not_denied_reclassified :
    ¬ ∀ (hass : Hass) (es : List Event), InForce hass hass.house →
      Runs.Throughout step Denied hass es := by
  intro h
  have hdenied : Denied (step sideHass (.stateSet (sideCover "door"))) :=
    (h sideHass [.stateSet (sideCover "door")] ⟨rfl, rfl⟩).2
  have hcheck := hdenied (restrictedPolicy sideHouse) rfl "cover.side"
    (.inr (.inr (mem_forbiddenCovers.mpr (by decide))))
  revert hcheck
  decide

end Runs

end HermesConversation.EntityWatch
