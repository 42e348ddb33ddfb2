import HermesConversation.Entities

/-!
# The policy of the restricted group

Policies are allow-lists: a rule without a key has no opinion on it, and the lookup goes on
from the entity to its domain and then to all entities.
-/

namespace HermesConversation.RestrictedPolicy

open Library Entities

structure Rule where
  read : Option Bool
  control : Option Bool
  deriving DecidableEq

abbrev Rules := Finmap fun _ : String => Rule

/-- The `entities` part of a policy. -/
structure Policy where
  entityIds : Option Rules
  domains : Rules
  all : Rule
  deriving DecidableEq

def readOnly : Rule := ⟨some true, none⟩
def readAndControl : Rule := ⟨some true, some true⟩
def readOnlyDomains : List String := forbiddenDomains ++ [automationDomain, coverDomain]

/-- A dictionary comprehension with one value. -/
def ruleFor (keys : List String) (rule : Rule) : Rules :=
  (keys.map fun key => (⟨key, rule⟩ : Sigma fun _ : String => Rule)).toFinmap

theorem ruleFor_lookup (keys : List String) (rule : Rule) (key : String) :
    (ruleFor keys rule).lookup key = if key ∈ keys then some rule else none := by
  rw [ruleFor, Finmap.dlookup_list_toFinmap]
  induction keys with
  | nil => rfl
  | cons k keys ih =>
    rw [List.map_cons]
    by_cases hk : key = k
    · subst hk
      simp
    · rw [List.dlookup_cons_ne _ _ hk, ih]
      simp [hk]

def restrictedPolicy (house : House) : Policy :=
  let domains := ruleFor ((knownDomains house).filter (· ∉ readOnlyDomains)) readAndControl
  let withheld := forbiddenCovers house
  let covers := (entityIds house coverDomain).filter (· ∉ withheld)
  { entityIds := if covers = [] then none else some (ruleFor covers readAndControl)
    domains
    all := readOnly }

def check (policy : Policy) (key : Rule → Option Bool) (entityId : String) : Bool :=
  ((((policy.entityIds.bind (·.lookup entityId)).bind key).or
    ((policy.domains.lookup (domainOf entityId)).bind key)).or (key policy.all)).getD false

section Restricted

variable {house : House} {id : String}

theorem restrictedPolicy_entityIds (house : House) (id : String) :
    (restrictedPolicy house).entityIds.bind (·.lookup id) =
      if id ∈ entityIds house coverDomain ∧ id ∉ forbiddenCovers house then
        some readAndControl else none := by
  have hmem : id ∈ (entityIds house coverDomain).filter (· ∉ forbiddenCovers house) ↔
      id ∈ entityIds house coverDomain ∧ id ∉ forbiddenCovers house := by
    rw [List.mem_filter, decide_eq_true_eq]
  rw [← if_congr hmem rfl rfl, restrictedPolicy]
  by_cases hcovers : (entityIds house coverDomain).filter (· ∉ forbiddenCovers house) = []
  · simp only [hcovers, if_true, List.not_mem_nil, if_false]
    rfl
  · simp only [if_neg hcovers]
    exact ruleFor_lookup _ _ _

theorem restrictedPolicy_domains (house : House) (domain : String) :
    (restrictedPolicy house).domains.lookup domain =
      if domain ∈ knownDomains house ∧ domain ∉ readOnlyDomains then
        some readAndControl else none := by
  have hmem : domain ∈ (knownDomains house).filter (· ∉ readOnlyDomains) ↔
      domain ∈ knownDomains house ∧ domain ∉ readOnlyDomains := by
    rw [List.mem_filter, decide_eq_true_eq]
  rw [← if_congr hmem rfl rfl]
  exact ruleFor_lookup _ _ _

theorem check_read (house : House) (id : String) :
    check (restrictedPolicy house) Rule.read id = true := by
  rw [check, restrictedPolicy_entityIds, restrictedPolicy_domains]
  split_ifs <;> rfl

theorem check_control_iff : check (restrictedPolicy house) Rule.control id = true ↔
    (domainOf id ∈ knownDomains house ∧ domainOf id ∉ readOnlyDomains) ∨
      (id ∈ entityIds house coverDomain ∧ id ∉ forbiddenCovers house) := by
  rw [check, restrictedPolicy_entityIds, restrictedPolicy_domains]
  split_ifs with hcover hdomain hdomain
  · exact ⟨fun _ => .inr hcover, fun _ => rfl⟩
  · exact ⟨fun _ => .inr hcover, fun _ => rfl⟩
  · exact ⟨fun _ => .inl hdomain, fun _ => rfl⟩
  · constructor
    · intro h
      cases h
    · intro h
      rcases h with h | h
      · exact absurd h hdomain
      · exact absurd h hcover

end Restricted

/-! ## The policy in terms of the entities -/

def Known (house : House) (id : String) : Prop :=
  (∃ s ∈ house.states, s.entityId = id) ∨ ∃ e ∈ house.registry, e.entityId = id

def KnownDomain (house : House) (domain : String) : Prop :=
  ∃ id, Known house id ∧ domainOf id = domain

def liveClass (s : State) : Option String :=
  match s.attributes.lookup attrDeviceClass with
  | some (.str deviceClass) => some deviceClass
  | _ => none

def DoorClass (deviceClass : Option String) : Prop :=
  deviceClass = some "door" ∨ deviceClass = some "garage"

def Classified (house : House) (id : String) : Prop :=
  (∃ s ∈ house.states, s.entityId = id ∧ DoorClass (liveClass s)) ∨
    ∃ e ∈ house.registry, e.entityId = id ∧ DoorClass e.registryClass

section Entities

variable {house : House} {id domain : String}

theorem mem_entityIds_iff : id ∈ entityIds house domain ↔ domainOf id = domain ∧ Known house id :=
  mem_entityIds

theorem mem_knownDomains : domain ∈ knownDomains house ↔ KnownDomain house domain := by
  simp only [knownDomains, List.mem_append, List.mem_map, KnownDomain, Known]
  constructor
  · intro h
    rcases h with ⟨s, hs, rfl⟩ | ⟨e, he, rfl⟩
    · exact ⟨s.entityId, .inl ⟨s, hs, rfl⟩, rfl⟩
    · exact ⟨e.entityId, .inr ⟨e, he, rfl⟩, rfl⟩
  · intro h
    obtain ⟨id, ⟨s, hs, rfl⟩ | ⟨e, he, rfl⟩, rfl⟩ := h
    · exact .inl ⟨s, hs, rfl⟩
    · exact .inr ⟨e, he, rfl⟩

theorem state_classForbidden_iff {s : State} :
    s.classForbidden = true ↔ DoorClass (liveClass s) := by
  rw [State.classForbidden, liveClass]
  cases s.attributes.lookup attrDeviceClass with
  | none => simp [DoorClass]
  | some value => cases value <;> simp [forbiddenCoverClasses, DoorClass]

theorem entry_classForbidden_iff {e : RegistryEntry} :
    e.classForbidden = true ↔ DoorClass e.registryClass := by
  rw [RegistryEntry.classForbidden]
  cases e.registryClass with
  | none => simp [DoorClass]
  | some deviceClass => simp [forbiddenCoverClasses, DoorClass]

theorem mem_forbiddenCovers_iff :
    id ∈ forbiddenCovers house ↔ domainOf id = coverDomain ∧ Classified house id := by
  simp only [mem_forbiddenCovers, state_classForbidden_iff, entry_classForbidden_iff, Classified]

theorem mem_readOnlyDomains : domain ∈ readOnlyDomains ↔ domain = "lock" ∨
    domain = "alarm_control_panel" ∨ domain = "automation" ∨ domain = "cover" := by
  simp [readOnlyDomains, forbiddenDomains, automationDomain, coverDomain]

theorem restrictedPolicy_exact (house : House) (id : String) :
    check (restrictedPolicy house) Rule.read id = true ∧
      (check (restrictedPolicy house) Rule.control id = true ↔
        (KnownDomain house (domainOf id) ∧ ¬(domainOf id = "lock" ∨
          domainOf id = "alarm_control_panel" ∨ domainOf id = "automation" ∨
          domainOf id = "cover")) ∨
        (domainOf id = "cover" ∧ Known house id ∧ ¬Classified house id)) := by
  refine ⟨check_read house id, ?_⟩
  rw [check_control_iff, mem_knownDomains, mem_readOnlyDomains, mem_entityIds_iff,
    mem_forbiddenCovers_iff]
  refine or_congr_right ?_
  constructor
  · intro h
    obtain ⟨⟨hcover, hknown⟩, hnot⟩ := h
    exact ⟨hcover, hknown, fun hclass => hnot ⟨hcover, hclass⟩⟩
  · intro h
    obtain ⟨hcover, hknown, hnot⟩ := h
    exact ⟨⟨hcover, hknown⟩, fun hclass => hnot hclass.2⟩

end Entities

end HermesConversation.RestrictedPolicy
