import HermesConversation.Library.Json
import HermesConversation.Library.Text
import Mathlib.Data.List.Sort
import Mathlib.Data.String.Basic

/-!
# Entities

The live states and the registry entries of a house. An entity may have either or both;
each has a device class of its own, and the registry has two.
-/

namespace HermesConversation.Entities

open Library

structure State where
  entityId : String
  attributes : Dict
  deriving DecidableEq

structure RegistryEntry where
  entityId : String
  deviceClass : Option String
  originalDeviceClass : Option String
  deriving DecidableEq

structure House where
  states : List State
  registry : List RegistryEntry
  deriving DecidableEq

def forbiddenDomains : List String := ["lock", "alarm_control_panel"]
def forbiddenCoverClasses : List String := ["door", "garage"]
def coverDomain : String := "cover"
def automationDomain : String := "automation"
def attrDeviceClass : String := "device_class"

def domainOf (entityId : String) : String := Text.before '.' entityId

def State.domain (s : State) : String := domainOf s.entityId
def RegistryEntry.domain (e : RegistryEntry) : String := domainOf e.entityId

def State.classForbidden (s : State) : Bool :=
  match s.attributes.lookup attrDeviceClass with
  | some (.str deviceClass) => deviceClass ∈ forbiddenCoverClasses
  | _ => false

/-- The user's override, or the integration's class where there is none. -/
def RegistryEntry.registryClass (e : RegistryEntry) : Option String :=
  (e.deviceClass.filter (· ≠ "")).or e.originalDeviceClass

def RegistryEntry.classForbidden (e : RegistryEntry) : Bool :=
  e.registryClass.any (· ∈ forbiddenCoverClasses)

def knownDomains (house : House) : List String :=
  house.states.map State.domain ++ house.registry.map RegistryEntry.domain

def entityIds (house : House) (domain : String) : List String :=
  (house.states.filter fun s => s.domain = domain).map State.entityId ++
    (house.registry.filter fun e => e.domain = domain).map RegistryEntry.entityId

def forbiddenCovers (house : House) : List String :=
  let found :=
    (house.states.filter fun s => s.domain = coverDomain ∧ s.classForbidden).map State.entityId ++
      (house.registry.filter fun e => e.domain = coverDomain ∧ e.classForbidden).map
        RegistryEntry.entityId
  found.dedup.insertionSort (· ≤ ·)

section Membership

variable {house : House} {id domain : String}

theorem mem_entityIds : id ∈ entityIds house domain ↔ domainOf id = domain ∧
    ((∃ s ∈ house.states, s.entityId = id) ∨ ∃ e ∈ house.registry, e.entityId = id) := by
  simp only [entityIds, List.mem_append, List.mem_map, List.mem_filter, decide_eq_true_eq]
  constructor
  · intro h
    rcases h with ⟨s, ⟨hs, hdomain⟩, rfl⟩ | ⟨e, ⟨he, hdomain⟩, rfl⟩
    · exact ⟨hdomain, .inl ⟨s, hs, rfl⟩⟩
    · exact ⟨hdomain, .inr ⟨e, he, rfl⟩⟩
  · intro h
    obtain ⟨hdomain, ⟨s, hs, rfl⟩ | ⟨e, he, rfl⟩⟩ := h
    · exact .inl ⟨s, ⟨hs, hdomain⟩, rfl⟩
    · exact .inr ⟨e, ⟨he, hdomain⟩, rfl⟩

theorem mem_forbiddenCovers : id ∈ forbiddenCovers house ↔ domainOf id = coverDomain ∧
    ((∃ s ∈ house.states, s.entityId = id ∧ s.classForbidden) ∨
      ∃ e ∈ house.registry, e.entityId = id ∧ e.classForbidden) := by
  simp only [forbiddenCovers, List.mem_insertionSort, List.mem_dedup, List.mem_append,
    List.mem_map, List.mem_filter, decide_eq_true_eq]
  constructor
  · intro h
    rcases h with ⟨s, ⟨hs, hdomain, hclass⟩, rfl⟩ | ⟨e, ⟨he, hdomain, hclass⟩, rfl⟩
    · exact ⟨hdomain, .inl ⟨s, hs, rfl, hclass⟩⟩
    · exact ⟨hdomain, .inr ⟨e, he, rfl, hclass⟩⟩
  · intro h
    obtain ⟨hdomain, ⟨s, hs, rfl, hclass⟩ | ⟨e, he, rfl, hclass⟩⟩ := h
    · exact .inl ⟨s, ⟨hs, hdomain, hclass⟩, rfl⟩
    · exact .inr ⟨e, ⟨he, hdomain, hclass⟩, rfl⟩

end Membership

end HermesConversation.Entities
