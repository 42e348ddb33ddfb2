import HermesConversation.Client
import HermesConversation.Library.Runs
import HermesConversation.Library.Text
import Mathlib.Data.List.Basic

/-!
# The identity of a config entry

An entry is one profile of one gateway, and its unique id spells out both. Three flows write
entries: the one that adds them, the one that changes gateway and profile, and the one that
only replaces the key. Each completes at once, with the exchange that validated it.
-/

namespace HermesConversation.ConfigFlow

open Library Client

structure Data where
  baseUrl : String
  profile : String
  apiKey : String
  deriving DecidableEq

structure Entry where
  entryId : ℕ
  uniqueId : String
  data : Data
  deriving DecidableEq

/-- `minted` counts the entries ever created, of which each has its number as its id. -/
structure Registry where
  entries : List Entry
  minted : ℕ

inductive FlowResult where
  | form (error : String)
  | createEntry (title : String)
  | abort (reason : String)
  | raised (err : Raised)
  | unknownEntry
  deriving DecidableEq

def uniqueIdOf (data : Data) : String := data.baseUrl ++ "#" ++ data.profile

def stripped (input : Data) : Data := { input with baseUrl := Text.rstrip ['/'] input.baseUrl }

/-- `{**entry.data, **user_input}` for a submission of the key alone. -/
def withKey (data : Data) (apiKey : String) : Data := { data with apiKey }

namespace Registry

def find (r : Registry) (id : ℕ) : Option Entry := r.entries.find? fun e => e.entryId = id

/-- `async_entry_for_domain_unique_id` -/
def entryForUniqueId (r : Registry) (uniqueId : String) : Option Entry :=
  r.entries.find? fun e => e.uniqueId = uniqueId

def add (r : Registry) (data : Data) : Registry :=
  ⟨r.entries ++ [⟨r.minted, uniqueIdOf data, data⟩], r.minted + 1⟩

def setData (r : Registry) (id : ℕ) (data : Data) : Registry :=
  { r with entries := r.entries.map fun e => if e.entryId = id then { e with data } else e }

def remove (r : Registry) (id : ℕ) : Registry :=
  { r with entries := r.entries.filter fun e => e.entryId ≠ id }

end Registry

def validated (r : Registry) (x : Exchange) (proceed : FlowResult × Registry) :
    FlowResult × Registry :=
  match asyncValidate x with
  | .error err => (.raised err, r)
  | .ok (some error) => (.form error, r)
  | .ok none => proceed

def asyncStepUser (r : Registry) (input : Data) (x : Exchange) : FlowResult × Registry :=
  let data := stripped input
  validated r x <|
    if (r.entryForUniqueId (uniqueIdOf data)).isSome then (.abort "already_configured", r)
    else (.createEntry ("Hermes " ++ data.profile), r.add data)

def asyncStepReconfigure (r : Registry) (id : ℕ) (input : Data) (x : Exchange) :
    FlowResult × Registry :=
  match r.find id with
  | none => (.unknownEntry, r)
  | some entry =>
    let data := stripped input
    validated r x <|
      match r.entryForUniqueId (uniqueIdOf data) with
      | some clash =>
        if clash.entryId ≠ entry.entryId then (.abort "already_configured", r)
        else (.abort "reconfigure_successful", r.setData entry.entryId data)
      | none => (.abort "reconfigure_successful", r.setData entry.entryId data)

def asyncStepReauthConfirm (r : Registry) (id : ℕ) (apiKey : String) (x : Exchange) :
    FlowResult × Registry :=
  match r.find id with
  | none => (.unknownEntry, r)
  | some entry =>
    let data := withKey entry.data apiKey
    validated r x (.abort "reauth_successful", r.setData entry.entryId data)

inductive Event where
  | user (input : Data) (x : Exchange)
  | reconfigure (id : ℕ) (input : Data) (x : Exchange)
  | reauth (id : ℕ) (apiKey : String) (x : Exchange)
  | remove (id : ℕ)

def step (r : Registry) : Event → Registry
  | .user input x => (asyncStepUser r input x).2
  | .reconfigure id input x => (asyncStepReconfigure r id input x).2
  | .reauth id apiKey x => (asyncStepReauthConfirm r id apiKey x).2
  | .remove id => r.remove id

/-! ## What a step can do -/

section Steps

variable {r : Registry} {e : Entry} {id : ℕ} {data input : Data} {x : Exchange}

theorem find_some (h : r.find id = some e) : e ∈ r.entries ∧ e.entryId = id :=
  ⟨List.mem_of_find?_eq_some h, by simpa using List.find?_some h⟩

/-- The reconfigure flow runs to its end and moves the entry to the submitted profile. -/
def Reconfigures (r : Registry) (id : ℕ) (input : Data) (x : Exchange) (entry : Entry) : Prop :=
  r.find id = some entry ∧ asyncValidate x = .ok none ∧
    ∀ clash, r.entryForUniqueId (uniqueIdOf (stripped input)) = some clash →
      clash.entryId = entry.entryId

theorem validated_of_valid {proceed : FlowResult × Registry} (h : asyncValidate x = .ok none) :
    validated r x proceed = proceed := by
  rw [validated, h]

theorem validated_of_invalid {proceed : FlowResult × Registry} (h : asyncValidate x ≠ .ok none) :
    (validated r x proceed).2 = r ∧ ∀ reason, (validated r x proceed).1 ≠ .abort reason := by
  rw [validated]
  cases hx : asyncValidate x with
  | error err => exact ⟨rfl, by simp⟩
  | ok answer =>
    cases answer with
    | none => exact absurd hx h
    | some error => exact ⟨rfl, by simp⟩

theorem user_cases (r : Registry) (input : Data) (x : Exchange) :
    (asyncStepUser r input x).2 = r ∨
      (∀ e ∈ r.entries, e.uniqueId ≠ uniqueIdOf (stripped input)) ∧
        (asyncStepUser r input x).2 = r.add (stripped input) := by
  by_cases hvalid : asyncValidate x = .ok none
  · rw [asyncStepUser, validated_of_valid hvalid]
    cases hfound : r.entryForUniqueId (uniqueIdOf (stripped input)) with
    | some clash => exact .inl rfl
    | none =>
      refine .inr ⟨fun e he => ?_, rfl⟩
      simpa using List.find?_eq_none.mp hfound e he
  · exact .inl (validated_of_invalid hvalid).1

theorem user_rejected {reason : String} (h : (asyncStepUser r input x).1 = .abort reason) :
    ∃ e ∈ r.entries, e.uniqueId = uniqueIdOf (stripped input) := by
  by_cases hvalid : asyncValidate x = .ok none
  · rw [asyncStepUser, validated_of_valid hvalid] at h
    cases hfound : r.entryForUniqueId (uniqueIdOf (stripped input)) with
    | some clash =>
      exact ⟨clash, List.mem_of_find?_eq_some hfound, by simpa using List.find?_some hfound⟩
    | none => simp [hfound] at h
  · exact absurd h ((validated_of_invalid hvalid).2 reason)

theorem reconfigure_cases (r : Registry) (id : ℕ) (input : Data) (x : Exchange) :
    ((∀ entry, ¬ Reconfigures r id input x entry) ∧ (asyncStepReconfigure r id input x).2 = r) ∨
      ∃ entry, Reconfigures r id input x entry ∧
        (asyncStepReconfigure r id input x).2 = r.setData entry.entryId (stripped input) := by
  rw [asyncStepReconfigure]
  cases hfind : r.find id with
  | none => exact .inl ⟨fun entry h => by simp [Reconfigures, hfind] at h, rfl⟩
  | some entry =>
    by_cases hvalid : asyncValidate x = .ok none
    · dsimp only
      rw [validated_of_valid hvalid]
      cases hclash : r.entryForUniqueId (uniqueIdOf (stripped input)) with
      | none =>
        exact .inr ⟨entry, ⟨hfind, hvalid, fun clash h => by simp [hclash] at h⟩, rfl⟩
      | some clash =>
        by_cases hsame : clash.entryId = entry.entryId
        · refine .inr ⟨entry, ⟨hfind, hvalid, fun other h => ?_⟩, by simp [hsame]⟩
          rw [hclash, Option.some.injEq] at h
          rw [← h, hsame]
        · refine .inl ⟨fun other h => ?_, by simp [hsame]⟩
          obtain ⟨hother, -, hmine⟩ := h
          rw [hfind, Option.some.injEq] at hother
          exact hsame (hother ▸ hmine clash hclash)
    · exact .inl ⟨fun other h => hvalid h.2.1, (validated_of_invalid hvalid).1⟩

theorem reauth_cases (r : Registry) (id : ℕ) (apiKey : String) (x : Exchange) :
    (asyncStepReauthConfirm r id apiKey x).2 = r ∨
      ∃ entry, r.find id = some entry ∧ (asyncStepReauthConfirm r id apiKey x).2 =
        r.setData entry.entryId (withKey entry.data apiKey) := by
  rw [asyncStepReauthConfirm]
  cases hfind : r.find id with
  | none => exact .inl rfl
  | some entry =>
    by_cases hvalid : asyncValidate x = .ok none
    · dsimp only
      rw [validated_of_valid hvalid]
      exact .inr ⟨entry, rfl, rfl⟩
    · exact .inl (validated_of_invalid hvalid).1

end Steps

/-! ## Identity -/

section Identity

variable {r : Registry} {data : Data} {id : ℕ} {entry : Entry}

def HashFree (data : Data) : Prop := '#' ∉ data.profile.toList

theorem hashFree_stripped (h : HashFree data) : HashFree (stripped data) := by
  unfold HashFree stripped
  exact h

def place (data : Data) : String × String := (data.baseUrl, data.profile)

theorem uniqueIdOf_inj {a b : Data} (ha : HashFree a) (hb : HashFree b) :
    uniqueIdOf a = uniqueIdOf b ↔ place a = place b := by
  constructor
  · intro h
    have hlists := congrArg (fun s => s.toList.reverse) h
    have hhash : "#".toList = ['#'] := by decide
    simp only [uniqueIdOf, String.toList_append, List.reverse_append, hhash] at hlists
    obtain ⟨hprofile, hbase⟩ := Text.append_cons_inj (fun h => ha (List.mem_reverse.mp h))
      (fun h => hb (List.mem_reverse.mp h)) hlists
    exact Prod.ext (String.toList_inj.mp (List.reverse_inj.mp hbase))
      (String.toList_inj.mp (List.reverse_inj.mp hprofile))
  · intro h
    obtain ⟨hbase, hprofile⟩ := Prod.mk.inj h
    rw [uniqueIdOf, uniqueIdOf, hbase, hprofile]

structure WellFormed (r : Registry) : Prop where
  ids : r.entries.Pairwise fun a b => a.entryId ≠ b.entryId
  fresh : ∀ e ∈ r.entries, e.entryId < r.minted
  uniqueIds : r.entries.Pairwise fun a b => a.uniqueId ≠ b.uniqueId
  hashFree : ∀ e ∈ r.entries, HashFree e.data
  stripped : ∀ e ∈ r.entries, stripped e.data = e.data

theorem eq_of_entryId {entries : List Entry} {a b : Entry}
    (hids : entries.Pairwise fun a b => a.entryId ≠ b.entryId) (ha : a ∈ entries)
    (hb : b ∈ entries) (hsame : a.entryId = b.entryId) : a = b :=
  List.inj_on_of_nodup_map (List.pairwise_map.mpr hids) ha hb hsame

theorem stripped_stripped (data : Data) :
    ConfigFlow.stripped (ConfigFlow.stripped data) = ConfigFlow.stripped data := by
  simp [ConfigFlow.stripped, Text.rstrip_idempotent]

theorem hashFree_withKey (h : HashFree data) (apiKey : String) : HashFree (withKey data apiKey) := h

theorem stripped_withKey (h : ConfigFlow.stripped data = data) (apiKey : String) :
    ConfigFlow.stripped (withKey data apiKey) = withKey data apiKey := by
  have hbase := congrArg Data.baseUrl h
  simp only [ConfigFlow.stripped] at hbase
  simp only [ConfigFlow.stripped, withKey, hbase]

theorem wellFormed_add (hw : WellFormed r) (hdata : HashFree data)
    (hstripped : ConfigFlow.stripped data = data)
    (hnew : ∀ e ∈ r.entries, e.uniqueId ≠ uniqueIdOf data) : WellFormed (r.add data) where
  ids := by
    refine List.pairwise_append.mpr ⟨hw.ids, List.pairwise_singleton _ _, ?_⟩
    intro a ha b hb
    rw [List.mem_singleton.mp hb]
    exact (hw.fresh a ha).ne
  fresh := by
    intro e he
    rcases List.mem_append.mp he with he | he
    · exact Nat.lt_succ_of_lt (hw.fresh e he)
    · rw [List.mem_singleton.mp he]
      exact Nat.lt_succ_self _
  uniqueIds := by
    refine List.pairwise_append.mpr ⟨hw.uniqueIds, List.pairwise_singleton _ _, ?_⟩
    intro a ha b hb
    rw [List.mem_singleton.mp hb]
    exact hnew a ha
  hashFree := by
    intro e he
    rcases List.mem_append.mp he with he | he
    · exact hw.hashFree e he
    · rw [List.mem_singleton.mp he]
      exact hdata
  stripped := by
    intro e he
    rcases List.mem_append.mp he with he | he
    · exact hw.stripped e he
    · rw [List.mem_singleton.mp he]
      exact hstripped

theorem wellFormed_setData (hw : WellFormed r) (hdata : HashFree data)
    (hstripped : ConfigFlow.stripped data = data) (id : ℕ) : WellFormed (r.setData id data) := by
  have hsame : ∀ e : Entry, (if e.entryId = id then { e with data } else e).entryId = e.entryId ∧
      (if e.entryId = id then { e with data } else e).uniqueId = e.uniqueId := by
    intro e
    split_ifs <;> exact ⟨rfl, rfl⟩
  have hmem : ∀ (Q : Data → Prop), Q data → (∀ e ∈ r.entries, Q e.data) →
      ∀ e ∈ (r.setData id data).entries, Q e.data := by
    intro Q hnew hold e he
    obtain ⟨e₀, he₀, rfl⟩ := List.mem_map.mp he
    split_ifs
    · exact hnew
    · exact hold e₀ he₀
  refine ⟨?_, ?_, ?_, hmem HashFree hdata hw.hashFree,
    hmem (fun data => ConfigFlow.stripped data = data) hstripped hw.stripped⟩
  · refine List.pairwise_map.mpr (hw.ids.imp fun {a b} hne => ?_)
    rw [(hsame a).1, (hsame b).1]
    exact hne
  · intro e he
    obtain ⟨e₀, he₀, rfl⟩ := List.mem_map.mp he
    rw [(hsame e₀).1]
    exact hw.fresh e₀ he₀
  · refine List.pairwise_map.mpr (hw.uniqueIds.imp fun {a b} hne => ?_)
    rw [(hsame a).2, (hsame b).2]
    exact hne

theorem wellFormed_remove (hw : WellFormed r) (id : ℕ) : WellFormed (r.remove id) where
  ids := hw.ids.filter _
  fresh := fun e he => hw.fresh e (List.mem_filter.mp he).1
  uniqueIds := hw.uniqueIds.filter _
  hashFree := fun e he => hw.hashFree e (List.mem_filter.mp he).1
  stripped := fun e he => hw.stripped e (List.mem_filter.mp he).1

def EventHashFree : Event → Prop
  | .user input _ | .reconfigure _ input _ => HashFree input
  | .reauth _ _ _ | .remove _ => True

instance : DecidablePred EventHashFree
  | .user input _ | .reconfigure _ input _ =>
    inferInstanceAs (Decidable ('#' ∉ input.profile.toList))
  | .reauth _ _ _ | .remove _ => instDecidableTrue

theorem wellFormed_step (hw : WellFormed r) {e : Event} (he : EventHashFree e) :
    WellFormed (step r e) := by
  cases e with
  | user input x =>
    rcases user_cases r input x with h | ⟨hnew, h⟩
    · rw [step, h]; exact hw
    · rw [step, h]; exact wellFormed_add hw (hashFree_stripped he) (stripped_stripped input) hnew
  | reconfigure id input x =>
    rcases reconfigure_cases r id input x with ⟨-, h⟩ | ⟨entry, -, h⟩
    · rw [step, h]; exact hw
    · rw [step, h]
      exact wellFormed_setData hw (hashFree_stripped he) (stripped_stripped input) _
  | reauth id apiKey x =>
    rcases reauth_cases r id apiKey x with h | ⟨entry, hfind, h⟩
    · rw [step, h]; exact hw
    · have hentry := (find_some hfind).1
      rw [step, h]
      exact wellFormed_setData hw (hashFree_withKey (hw.hashFree entry hentry) apiKey)
        (stripped_withKey (hw.stripped entry hentry) apiKey) _
  | remove id => exact wellFormed_remove hw id

structure Right (r : Registry) : Prop where
  identity : ∀ e ∈ r.entries, e.uniqueId = uniqueIdOf (stripped e.data)
  distinct : r.entries.Pairwise fun a b => place a.data ≠ place b.data
  accepted : ∀ input x, HashFree input →
    (∀ e ∈ r.entries, place e.data ≠ place (stripped input)) →
      (asyncStepUser r input x).1 ≠ .abort "already_configured"

theorem right_iff (hw : WellFormed r) :
    Right r ↔ ∀ e ∈ r.entries, e.uniqueId = uniqueIdOf e.data := by
  constructor
  · intro hright e he
    rw [hright.identity e he, hw.stripped e he]
  · intro hids
    refine ⟨fun e he => by rw [hw.stripped e he, hids e he], ?_, ?_⟩
    · refine hw.uniqueIds.imp_of_mem fun {a b} ha hb hne hplace => hne ?_
      rw [hids a ha, hids b hb]
      exact (uniqueIdOf_inj (hw.hashFree a ha) (hw.hashFree b hb)).mpr hplace
    · intro input x hinput hfree hreject
      obtain ⟨e, he, hsame⟩ := user_rejected hreject
      rw [hids e he] at hsame
      exact hfree e he ((uniqueIdOf_inj (hw.hashFree e he) (hashFree_stripped hinput)).mp hsame)

/-- A reconfigure flow that completes leaves its entry with the gateway and the profile it
has. -/
def KeepsPlace (r : Registry) : Event → Prop
  | .reconfigure id input x =>
    ∀ entry, Reconfigures r id input x entry → place (stripped input) = place entry.data
  | .user _ _ | .reauth _ _ _ | .remove _ => True

theorem right_setData_iff (hw : WellFormed r) (hright : Right r) (hdata : HashFree data)
    (hstripped : ConfigFlow.stripped data = data) (hentry : entry ∈ r.entries) :
    Right (r.setData entry.entryId data) ↔ place data = place entry.data := by
  rw [right_iff (wellFormed_setData hw hdata hstripped _)]
  have hids := (right_iff hw).mp hright
  have hsame := uniqueIdOf_inj hdata (hw.hashFree entry hentry)
  constructor
  · intro hnew
    have hmem : { entry with data } ∈ (r.setData entry.entryId data).entries :=
      List.mem_map.mpr ⟨entry, hentry, by rw [if_pos rfl]⟩
    exact hsame.mp ((hnew _ hmem).symm.trans (hids entry hentry))
  · intro hplace e he
    obtain ⟨e₀, he₀, rfl⟩ := List.mem_map.mp he
    split_ifs with hid
    · have hunique : e₀ = entry := eq_of_entryId hw.ids he₀ hentry hid
      rw [hunique, hids entry hentry]
      exact (hsame.mpr hplace).symm
    · exact hids e₀ he₀

theorem right_step_iff (hw : WellFormed r) (hright : Right r) {e : Event} (he : EventHashFree e) :
    Right (step r e) ↔ KeepsPlace r e := by
  have hids := (right_iff hw).mp hright
  cases e with
  | user input x =>
    rcases user_cases r input x with h | ⟨hnew, h⟩
    · rw [step, h]
      exact ⟨fun _ => trivial, fun _ => hright⟩
    · have hadd := wellFormed_add hw (hashFree_stripped he) (stripped_stripped input) hnew
      rw [step, h, right_iff hadd]
      refine ⟨fun _ => trivial, fun _ e he => ?_⟩
      rcases List.mem_append.mp he with he | he
      · exact hids e he
      · rw [List.mem_singleton.mp he]
  | reconfigure id input x =>
    rcases reconfigure_cases r id input x with ⟨hnone, h⟩ | ⟨entry, hentry, h⟩
    · rw [step, h]
      exact ⟨fun _ entry hentry => absurd hentry (hnone entry), fun _ => hright⟩
    · rw [step, h, right_setData_iff hw hright (hashFree_stripped he) (stripped_stripped input)
        (find_some hentry.1).1]
      refine ⟨fun hplace other hother => ?_, fun hkeep => hkeep entry hentry⟩
      have hsame := hother.1
      rw [hentry.1, Option.some.injEq] at hsame
      rw [← hsame, hplace]
  | reauth id apiKey x =>
    refine ⟨fun _ => trivial, fun _ => ?_⟩
    rcases reauth_cases r id apiKey x with h | ⟨entry, hfind, h⟩
    · rw [step, h]
      exact hright
    · have hentry := (find_some hfind).1
      have hsetData := right_setData_iff hw hright
        (hashFree_withKey (hw.hashFree entry hentry) apiKey)
        (stripped_withKey (hw.stripped entry hentry) apiKey) hentry
      rw [step, h]
      exact hsetData.mpr rfl
  | remove id =>
    refine ⟨fun _ => trivial, fun _ => ?_⟩
    rw [step, right_iff (wellFormed_remove hw id)]
    exact fun e he => hids e (List.mem_filter.mp he).1

end Identity

/-! ## Runs -/

def noEntries : Registry := ⟨[], 0⟩

theorem right_throughout_iff (es : List Event) (hes : ∀ e ∈ es, EventHashFree e) :
    Runs.Throughout step Right noEntries es ↔ Runs.Guarded step KeepsPlace noEntries es := by
  have hinit : WellFormed noEntries :=
    ⟨List.Pairwise.nil, by simp [noEntries], List.Pairwise.nil, by simp [noEntries],
      by simp [noEntries]⟩
  have hright : Right noEntries := (right_iff hinit).mpr (by simp [noEntries])
  exact Runs.throughout_iff_guarded (fun _ _ he hw _ _ => wellFormed_step hw he)
    (fun _ _ he hw hr => right_step_iff hw hr he) hes hinit hright

def house (profile : String) : Data := ⟨"http://hermes:8642", profile, "key"⟩

def noModels : Exchange := .response 200 "" (.parsed (.obj [("data", .arr [])]))

theorem right_throughout_iff_new_key :
    Runs.Throughout step Right noEntries [.user (house "wife") noModels,
        .reconfigure 0 { house "wife" with apiKey := "rotated" } noModels] ↔
      Runs.Guarded step KeepsPlace noEntries [.user (house "wife") noModels,
        .reconfigure 0 { house "wife" with apiKey := "rotated" } noModels] :=
  right_throughout_iff _ (by decide)

theorem not_right_changed_profile :
    ¬ ∀ es : List Event, (∀ e ∈ es, EventHashFree e) → Runs.Throughout step Right noEntries es := by
  intro h
  have hright := h [.user (house "home-assist") noModels, .reconfigure 0 (house "wife") noModels]
    (by decide)
  have hidentity := hright.2.2.identity
  revert hidentity
  decide

end HermesConversation.ConfigFlow
