import HermesConversation.RestrictedPolicy
import Mathlib.Data.Finset.Insert
import Mathlib.Data.Finset.Prod

/-!
# The restricted group in the auth store

What the integration reads and writes of Home Assistant: the entities, the config entries,
the auth store and the open repairs. A group is known by its id; of the restricted one the
store also keeps the policy.
-/

namespace HermesConversation.RestrictedGroup

open Library Entities RestrictedPolicy

def domain : String := "hermes_conversation"
def groupIdAdmin : String := "system-admin"
def groupIdUser : String := "system-users"
def groupId : String := "hermes_conversation_restricted"
def noUser : String := "none"

def issuePolicyUnsupported : String := "policy_unsupported"
def issuePolicyUserAdmin : String := "policy_user_admin"
def issuePolicyUserGroups : String := "policy_user_groups"
def issuePolicyUserMissing : String := "policy_user_missing"
def userIssues : List String :=
  [issuePolicyUserAdmin, issuePolicyUserGroups, issuePolicyUserMissing]

structure User where
  id : String
  isOwner : Bool
  isActive : Bool
  systemGenerated : Bool
  groups : List String
  deriving DecidableEq

/-- `supported` says whether the store still has the internals the group is kept in; the
Users group is in every store. -/
structure AuthStore where
  supported : Bool
  restricted : Option Policy
  otherGroups : List String
  users : List User
  usersGroup : groupIdUser ∈ otherGroups

/-- `hermesUser` is the stored option, where there is one. -/
structure ConfigEntry where
  entryId : String
  hermesUser : Option String
  loaded : Bool
  deriving DecidableEq

/-- An open repair, by the integration it belongs to and its id. -/
abbrev Issue := String × String

structure Hass where
  house : House
  entries : List ConfigEntry
  store : AuthStore
  issues : Finset Issue

def getGroup (hass : Hass) : Option Policy :=
  if hass.store.supported then hass.store.restricted else none

def needsRebuild (hass : Hass) (entityId : String) : Bool :=
  match getGroup hass with
  | none => false
  | some policy =>
    if domainOf entityId ∈ readOnlyDomains then domainOf entityId = coverDomain
    else (policy.domains.lookup (domainOf entityId)).isNone

def setPolicy (hass : Hass) (policy : Option Policy) : Hass :=
  { hass with store := { hass.store with restricted := policy } }

def createIssue (hass : Hass) (key : String) : Hass :=
  { hass with issues := insert (domain, key) hass.issues }

def deleteIssue (hass : Hass) (key : String) : Hass :=
  { hass with issues := hass.issues.erase (domain, key) }

def ensure (hass : Hass) : Option Policy × Hass :=
  if hass.store.supported then
    let policy := restrictedPolicy hass.house
    if hass.store.restricted = some policy then
      (some policy, deleteIssue hass issuePolicyUnsupported)
    else (some policy, setPolicy (deleteIssue hass issuePolicyUnsupported) (some policy))
  else (none, createIssue hass issuePolicyUnsupported)

section Ensure

variable {hass : Hass}

theorem ensure_of_supported (h : hass.store.supported = true) :
    ensure hass = (some (restrictedPolicy hass.house), setPolicy
      (deleteIssue hass issuePolicyUnsupported) (some (restrictedPolicy hass.house))) := by
  rw [ensure, if_pos h]
  by_cases hsame : hass.store.restricted = some (restrictedPolicy hass.house)
  · rw [if_pos hsame, setPolicy, ← hsame]
    rfl
  · rw [if_neg hsame]

theorem needsRebuild_cover {entityId : String} {policy : Policy}
    (hget : getGroup hass = some policy) (hcover : domainOf entityId = coverDomain) :
    needsRebuild hass entityId = true := by
  have hmem : coverDomain ∈ readOnlyDomains := by decide
  simp only [needsRebuild, hget, hcover, if_pos hmem, decide_true]

end Ensure

end HermesConversation.RestrictedGroup
