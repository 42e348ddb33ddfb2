import HermesConversation.Library.Json
import HermesConversation.Prompts

/-!
# Migration of config entries

An upgrade walks over the subentries of an entry written by an older release and records
the new minor version at the end, so a walk that is cut short starts again from the old
version over subentries that are partly up to date.
-/

namespace HermesConversation.Migration

open Library Prompts

def confPrompt : String := "prompt"
def confHouseState : String := "house_state"
def subentryTypeConversation : String := "conversation"
def minorVersionHouseState : ℕ := 2
def minorVersionDefaultPrompt : ℕ := 5
def configMinorVersion : ℕ := minorVersionDefaultPrompt

theorem confPrompt_ne_confHouseState : confPrompt ≠ confHouseState := by decide

def PromptIsText (data : Dict) : Prop := ∀ v, data.lookup confPrompt = some v → ∃ s, v = .str s

structure Subentry where
  subentryId : String
  subentryType : String
  data : Dict
  promptIsText : subentryType = subentryTypeConversation → PromptIsText data

structure Entry where
  minorVersion : ℕ
  subentries : List Subentry

/-! ## One agent -/

/-- `data.get(CONF_PROMPT, "")` -/
def promptOf (data : Dict) : String :=
  match data.lookup confPrompt with
  | some (.str s) => s
  | _ => ""

def sameWords (left right : String) : Bool := Text.words left = Text.words right

def addHouseState (data : Dict) : Dict :=
  if confHouseState ∈ data then data
  else data.insert confHouseState (.bool (sameWords (promptOf data) promptBeforeHouseState))

def refreshDefaultPrompt (data : Dict) : Dict :=
  if supersededPrompts.any (sameWords (promptOf data)) then
    data.insert confPrompt (.str defaultPrompt)
  else data

def migrateData (minorVersion : ℕ) (data : Dict) : Dict :=
  let data := if minorVersion < minorVersionHouseState then addHouseState data else data
  if minorVersion < minorVersionDefaultPrompt then refreshDefaultPrompt data else data

theorem addHouseState_lookup (data : Dict) (k : String) :
    (addHouseState data).lookup k =
      if k = confHouseState then
        (data.lookup k).or (some (.bool (sameWords (promptOf data) promptBeforeHouseState)))
      else data.lookup k := by
  rw [addHouseState]
  by_cases hk : k = confHouseState
  · subst hk
    by_cases hmem : confHouseState ∈ data
    · obtain ⟨v, hv⟩ := Finmap.mem_iff.mp hmem
      simp [hmem, hv]
    · simp [hmem, Finmap.lookup_eq_none.mpr hmem]
  · split_ifs
    · rfl
    · rw [Finmap.lookup_insert_of_ne _ hk]

theorem refreshDefaultPrompt_lookup (data : Dict) (k : String) :
    (refreshDefaultPrompt data).lookup k =
      if k = confPrompt ∧ supersededPrompts.any (sameWords (promptOf data)) then
        some (.str defaultPrompt)
      else data.lookup k := by
  rw [refreshDefaultPrompt]
  cases supersededPrompts.any (sameWords (promptOf data)) with
  | false => simp
  | true =>
    by_cases hk : k = confPrompt
    · subst hk
      simp
    · simp [Finmap.lookup_insert_of_ne _ hk, hk]

@[simp] theorem promptOf_addHouseState (data : Dict) :
    promptOf (addHouseState data) = promptOf data := by
  rw [promptOf, addHouseState_lookup, if_neg confPrompt_ne_confHouseState, promptOf]

theorem default_kept : supersededPrompts.any (sameWords defaultPrompt) = false := by
  rw [List.any_eq_false]
  intro old hold
  simp [sameWords, defaultPrompt_not_superseded hold]

theorem refreshDefaultPrompt_idempotent (data : Dict) :
    refreshDefaultPrompt (refreshDefaultPrompt data) = refreshDefaultPrompt data := by
  cases hold : supersededPrompts.any (sameWords (promptOf data)) with
  | false =>
    have hsame : refreshDefaultPrompt data = data := by simp [refreshDefaultPrompt, hold]
    rw [hsame, hsame]
  | true =>
    have hprompt : promptOf (refreshDefaultPrompt data) = defaultPrompt := by
      rw [promptOf, refreshDefaultPrompt_lookup, if_pos ⟨rfl, hold⟩]
    rw [refreshDefaultPrompt, hprompt, default_kept]
    rfl

theorem addHouseState_of_mem {data : Dict} (hmem : confHouseState ∈ data) :
    addHouseState data = data := by
  rw [addHouseState, if_pos hmem]

theorem mem_addHouseState (data : Dict) : confHouseState ∈ addHouseState data := by
  rw [Finmap.mem_iff]
  rw [addHouseState_lookup, if_pos rfl]
  cases data.lookup confHouseState with
  | none => exact ⟨_, rfl⟩
  | some v => exact ⟨v, rfl⟩

theorem mem_refreshDefaultPrompt {data : Dict} (hmem : confHouseState ∈ data) :
    confHouseState ∈ refreshDefaultPrompt data := by
  rw [Finmap.mem_iff] at hmem ⊢
  rw [refreshDefaultPrompt_lookup, if_neg (fun h => confPrompt_ne_confHouseState h.1.symm)]
  exact hmem

theorem migrateData_idempotent (minorVersion : ℕ) (data : Dict) :
    migrateData minorVersion (migrateData minorVersion data) = migrateData minorVersion data := by
  unfold migrateData
  by_cases h2 : minorVersion < minorVersionHouseState
  · have h5 : minorVersion < minorVersionDefaultPrompt := h2.trans (by decide)
    simp only [if_pos h2, if_pos h5]
    rw [addHouseState_of_mem (mem_refreshDefaultPrompt (mem_addHouseState data)),
      refreshDefaultPrompt_idempotent]
  · simp only [if_neg h2]
    split_ifs
    · exact refreshDefaultPrompt_idempotent data
    · rfl

theorem addHouseState_promptIsText (data : Dict) (htext : PromptIsText data) :
    PromptIsText (addHouseState data) := by
  intro v hv
  rw [addHouseState_lookup, if_neg confPrompt_ne_confHouseState] at hv
  exact htext v hv

theorem refreshDefaultPrompt_promptIsText (data : Dict) (htext : PromptIsText data) :
    PromptIsText (refreshDefaultPrompt data) := by
  intro v hv
  rw [refreshDefaultPrompt_lookup] at hv
  split_ifs at hv
  · exact ⟨defaultPrompt, (Option.some.inj hv).symm⟩
  · exact htext v hv

theorem migrateData_promptIsText (minorVersion : ℕ) (data : Dict) (htext : PromptIsText data) :
    PromptIsText (migrateData minorVersion data) := by
  unfold migrateData
  split_ifs
  · exact refreshDefaultPrompt_promptIsText _ (addHouseState_promptIsText data htext)
  · exact addHouseState_promptIsText data htext
  · exact refreshDefaultPrompt_promptIsText data htext
  · exact htext

/-! ## One entry -/

/-- The body of the walk, with what it does to the options as a parameter. -/
def updateAgent (f : Dict → Dict) (hf : ∀ data, PromptIsText data → PromptIsText (f data))
    (s : Subentry) : Subentry :=
  if h : s.subentryType = subentryTypeConversation then
    if f s.data ≠ s.data then
      { s with data := f s.data, promptIsText := fun _ => hf s.data (s.promptIsText h) }
    else s
  else s

def migrateSubentry (minorVersion : ℕ) : Subentry → Subentry :=
  updateAgent (migrateData minorVersion) (migrateData_promptIsText minorVersion)

/-- The walk over the subentries, cut short after the first `n`. -/
def migrateFirst (minorVersion : ℕ) : ℕ → List Subentry → List Subentry
  | 0, subentries => subentries
  | _, [] => []
  | n + 1, s :: subentries =>
    migrateSubentry minorVersion s :: migrateFirst minorVersion n subentries

def asyncMigrateEntry (e : Entry) : Entry :=
  ⟨configMinorVersion, migrateFirst e.minorVersion e.subentries.length e.subentries⟩

def interrupted (e : Entry) (n : ℕ) : Entry :=
  { e with subentries := migrateFirst e.minorVersion n e.subentries }

theorem Subentry.eq_of_data {s s' : Subentry} (hid : s.subentryId = s'.subentryId)
    (htype : s.subentryType = s'.subentryType) (hdata : s.data = s'.data) : s = s' := by
  cases s
  cases s'
  simp_all

section UpdateAgent

variable {f : Dict → Dict} {hf : ∀ data, PromptIsText data → PromptIsText (f data)} {s : Subentry}

@[simp] theorem updateAgent_subentryId : (updateAgent f hf s).subentryId = s.subentryId := by
  rw [updateAgent]
  split_ifs <;> rfl

@[simp] theorem updateAgent_subentryType :
    (updateAgent f hf s).subentryType = s.subentryType := by
  rw [updateAgent]
  split_ifs <;> rfl

theorem updateAgent_data :
    (updateAgent f hf s).data =
      if s.subentryType = subentryTypeConversation then f s.data else s.data := by
  rw [updateAgent]
  split_ifs with htype hsame
  · rfl
  · exact (not_not.mp hsame).symm
  · rfl

theorem updateAgent_of_other (h : s.subentryType ≠ subentryTypeConversation) :
    updateAgent f hf s = s := by
  rw [updateAgent, dif_neg h]

theorem updateAgent_updateAgent {g k : Dict → Dict}
    {hg : ∀ data, PromptIsText data → PromptIsText (g data)}
    {hk : ∀ data, PromptIsText data → PromptIsText (k data)}
    (hcomp : ∀ data, g (f data) = k data) (s : Subentry) :
    updateAgent g hg (updateAgent f hf s) = updateAgent k hk s := by
  refine Subentry.eq_of_data (by simp) (by simp) ?_
  rw [updateAgent_data, updateAgent_subentryType, updateAgent_data, updateAgent_data]
  split_ifs
  · exact hcomp s.data
  · rfl

end UpdateAgent

theorem migrateSubentry_idempotent (minorVersion : ℕ) (s : Subentry) :
    migrateSubentry minorVersion (migrateSubentry minorVersion s) =
      migrateSubentry minorVersion s :=
  updateAgent_updateAgent (migrateData_idempotent minorVersion) s

theorem migrateFirst_length (minorVersion : ℕ) (subentries : List Subentry) :
    migrateFirst minorVersion subentries.length subentries =
      subentries.map (migrateSubentry minorVersion) := by
  induction subentries with
  | nil => rfl
  | cons s subentries ih => rw [List.length_cons, migrateFirst, ih, List.map_cons]

theorem map_migrateFirst (minorVersion n : ℕ) (subentries : List Subentry) :
    (migrateFirst minorVersion n subentries).map (migrateSubentry minorVersion) =
      subentries.map (migrateSubentry minorVersion) := by
  induction n generalizing subentries with
  | zero => rfl
  | succ n ih =>
    cases subentries with
    | nil => rfl
    | cons s subentries =>
      rw [migrateFirst, List.map_cons, List.map_cons, migrateSubentry_idempotent, ih]

theorem asyncMigrateEntry_eq (e : Entry) :
    asyncMigrateEntry e =
      ⟨configMinorVersion, e.subentries.map (migrateSubentry e.minorVersion)⟩ := by
  rw [asyncMigrateEntry, migrateFirst_length]

theorem asyncMigrateEntry_interrupted (e : Entry) (n : ℕ) :
    asyncMigrateEntry (interrupted e n) = asyncMigrateEntry e := by
  rw [asyncMigrateEntry_eq, asyncMigrateEntry_eq, interrupted, map_migrateFirst]

/-- The migration of the release that brought the house state, whose own minor version was
`minorVersionHouseState`. -/
def houseStateStage (e : Entry) : Entry :=
  if e.minorVersion < minorVersionHouseState then
    ⟨minorVersionHouseState,
      e.subentries.map (updateAgent addHouseState addHouseState_promptIsText)⟩
  else e

theorem asyncMigrateEntry_houseStateStage (e : Entry) :
    asyncMigrateEntry (houseStateStage e) = asyncMigrateEntry e := by
  rw [houseStateStage]
  split_ifs with h2
  · have h5 : e.minorVersion < minorVersionDefaultPrompt := h2.trans (by decide)
    have hdata : ∀ data, migrateData minorVersionHouseState (addHouseState data) =
        migrateData e.minorVersion data := by
      intro data
      simp only [migrateData, if_pos h2, if_pos h5, lt_irrefl, if_false]
      rfl
    have hsubentry : ∀ s, migrateSubentry minorVersionHouseState
        (updateAgent addHouseState addHouseState_promptIsText s) =
          migrateSubentry e.minorVersion s := by
      intro s
      rw [migrateSubentry, migrateSubentry, updateAgent_updateAgent hdata]
    rw [asyncMigrateEntry_eq, asyncMigrateEntry_eq, List.map_map]
    congr 1
    exact List.map_congr_left fun s _ => hsubentry s
  · rfl

/-! ## The contract of the migration -/

def Superseded (prompt : String) : Prop := ∃ old ∈ supersededPrompts, sameWords prompt old

structure SubentryLaw (minorVersion : ℕ) (s s' : Subentry) : Prop where
  same_id : s'.subentryId = s.subentryId
  same_type : s'.subentryType = s.subentryType
  other_type : s.subentryType ≠ subentryTypeConversation → s' = s
  other_options : ∀ k, k ≠ confPrompt → k ≠ confHouseState → s'.data.lookup k = s.data.lookup k
  prompt_changes : s.subentryType = subentryTypeConversation →
    (s'.data.lookup confPrompt ≠ s.data.lookup confPrompt ↔
      minorVersion < minorVersionDefaultPrompt ∧ Superseded (promptOf s.data))
  prompt_default : s'.data.lookup confPrompt ≠ s.data.lookup confPrompt →
    s'.data.lookup confPrompt = some (.str defaultPrompt)
  house_state_kept : ∀ v, s.data.lookup confHouseState = some v →
    s'.data.lookup confHouseState = some v
  house_state_added : s.subentryType = subentryTypeConversation →
    s.data.lookup confHouseState = none →
    s'.data.lookup confHouseState = if minorVersion < minorVersionHouseState then
      some (.bool (sameWords (promptOf s.data) promptBeforeHouseState)) else none

theorem any_superseded_iff {prompt : String} :
    supersededPrompts.any (sameWords prompt) = true ↔ Superseded prompt := by
  simp [Superseded]

theorem migrateData_house_state (minorVersion : ℕ) (data : Dict) :
    (migrateData minorVersion data).lookup confHouseState =
      if minorVersion < minorVersionHouseState then
        (data.lookup confHouseState).or
          (some (.bool (sameWords (promptOf data) promptBeforeHouseState)))
      else data.lookup confHouseState := by
  have hne : ¬ confHouseState = confPrompt := confPrompt_ne_confHouseState.symm
  rw [migrateData]
  split_ifs <;> simp [refreshDefaultPrompt_lookup, addHouseState_lookup, hne]

theorem migrateData_prompt (minorVersion : ℕ) (data : Dict) :
    (migrateData minorVersion data).lookup confPrompt =
      if minorVersion < minorVersionDefaultPrompt ∧
          supersededPrompts.any (sameWords (promptOf data)) then
        some (.str defaultPrompt)
      else data.lookup confPrompt := by
  have hne : ¬ confPrompt = confHouseState := confPrompt_ne_confHouseState
  rw [migrateData]
  split_ifs <;> simp_all [refreshDefaultPrompt_lookup, addHouseState_lookup]

theorem migrateData_other (minorVersion : ℕ) (data : Dict) {k : String} (hp : k ≠ confPrompt)
    (hh : k ≠ confHouseState) : (migrateData minorVersion data).lookup k = data.lookup k := by
  rw [migrateData]
  split_ifs <;> simp [refreshDefaultPrompt_lookup, addHouseState_lookup, hp, hh]

theorem lookup_ne_default {data : Dict} (hold : Superseded (promptOf data)) :
    data.lookup confPrompt ≠ some (.str defaultPrompt) := by
  intro hlookup
  have hprompt : promptOf data = defaultPrompt := by rw [promptOf, hlookup]
  rw [hprompt, ← any_superseded_iff, default_kept] at hold
  cases hold

theorem migrateSubentry_law (minorVersion : ℕ) (s : Subentry) :
    SubentryLaw minorVersion s (migrateSubentry minorVersion s) where
  same_id := updateAgent_subentryId
  same_type := updateAgent_subentryType
  other_type := updateAgent_of_other
  other_options := by
    intro k hp hh
    rw [migrateSubentry, updateAgent_data]
    split_ifs
    · exact migrateData_other minorVersion s.data hp hh
    · rfl
  prompt_changes := by
    intro htype
    rw [migrateSubentry, updateAgent_data, if_pos htype, migrateData_prompt, ← any_superseded_iff]
    split_ifs with hold
    · exact ⟨fun _ => hold, fun _ => (lookup_ne_default (any_superseded_iff.mp hold.2)).symm⟩
    · exact ⟨fun h => absurd rfl h, fun h => absurd h hold⟩
  prompt_default := by
    rw [migrateSubentry, updateAgent_data]
    split_ifs with htype
    · rw [migrateData_prompt]
      split_ifs with hold
      · exact fun _ => rfl
      · exact fun h => absurd rfl h
    · exact fun h => absurd rfl h
  house_state_kept := by
    intro v hv
    rw [migrateSubentry, updateAgent_data]
    split_ifs
    · rw [migrateData_house_state, hv]
      split_ifs <;> rfl
    · exact hv
  house_state_added := by
    intro htype hnone
    rw [migrateSubentry, updateAgent_data, if_pos htype, migrateData_house_state, hnone]
    rfl

structure MigrationLaw (e : Entry) : Prop where
  minor_version : (asyncMigrateEntry e).minorVersion = configMinorVersion
  subentries : List.Forall₂ (SubentryLaw e.minorVersion) e.subentries
    (asyncMigrateEntry e).subentries
  staged : asyncMigrateEntry (houseStateStage e) = asyncMigrateEntry e
  restarted : ∀ ns : List ℕ, asyncMigrateEntry (ns.foldl interrupted e) = asyncMigrateEntry e

theorem migration_law (e : Entry) : MigrationLaw e where
  minor_version := rfl
  subentries := by
    rw [asyncMigrateEntry_eq, List.forall₂_map_right_iff, List.forall₂_same]
    exact fun s _ => migrateSubentry_law e.minorVersion s
  staged := asyncMigrateEntry_houseStateStage e
  restarted := by
    intro ns
    induction ns generalizing e with
    | nil => rfl
    | cons n ns ih => rw [List.foldl_cons, ih, asyncMigrateEntry_interrupted]

end HermesConversation.Migration
