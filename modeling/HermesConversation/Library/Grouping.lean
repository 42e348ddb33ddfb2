import Mathlib.Data.List.Basic
import Mathlib.Data.List.Nodup
import Mathlib.Tactic.Common

/-!
# Dictionaries in insertion order

A dictionary that keeps the order its keys arrived in, and grouping a list by a key into one:
each group has its members in the order of the list.
-/

namespace HermesConversation.Library

structure OrderedDict (κ α : Type*) where
  items : List (κ × α)
  nodup : (items.map Prod.fst).Nodup

namespace OrderedDict

variable {κ α β : Type*}

def empty : OrderedDict κ α := ⟨[], List.nodup_nil⟩

def keys (d : OrderedDict κ α) : List κ := d.items.map Prod.fst

theorem nodup_keys (d : OrderedDict κ α) : d.keys.Nodup := d.nodup

variable [DecidableEq κ]

def get? (d : OrderedDict κ α) (key : κ) : Option α := d.items.lookup key

theorem get?_eq_some_iff {d : OrderedDict κ α} {key : κ} {a : α} :
    d.get? key = some a ↔ (key, a) ∈ d.items := by
  obtain ⟨items, hnodup⟩ := d
  rw [get?]
  induction items with
  | nil => simp
  | cons item items ih =>
    obtain ⟨k, b⟩ := item
    rw [List.map_cons, List.nodup_cons] at hnodup
    rw [List.lookup_cons, List.mem_cons, Prod.mk.injEq]
    by_cases hk : key = k
    · subst hk
      have habsent : (key, a) ∉ items := fun h =>
        hnodup.1 (List.mem_map.mpr ⟨(key, a), h, rfl⟩)
      simp [habsent, eq_comm]
    · simp [hk, beq_eq_false_iff_ne.mpr hk, ih hnodup.2]

/-- What is under a key does not depend on the order the keys arrived in. -/
theorem get?_of_perm {d d' : OrderedDict κ α} (h : d'.items.Perm d.items) : d'.get? = d.get? := by
  funext key
  apply Option.ext
  intro a
  rw [get?_eq_some_iff, get?_eq_some_iff, h.mem_iff]

/-- The list under a key, which an absent key has none of. -/
def listAt (d : OrderedDict κ (List β)) (key : κ) : List β := (d.get? key).getD []

def pushItem (key : κ) (b : β) : List (κ × List β) → List (κ × List β)
  | [] => [(key, [b])]
  | (k, bs) :: items => if k = key then (k, bs ++ [b]) :: items else (k, bs) :: pushItem key b items

theorem keys_pushItem (key : κ) (b : β) (items : List (κ × List β)) :
    (pushItem key b items).map Prod.fst =
      if key ∈ items.map Prod.fst then items.map Prod.fst else items.map Prod.fst ++ [key] := by
  induction items with
  | nil => rfl
  | cons item items ih =>
    obtain ⟨k, bs⟩ := item
    rw [pushItem]
    split_ifs with hk hmem hmem
    · rfl
    · exact absurd (List.mem_cons.mpr (.inl hk.symm)) hmem
    · have hrest : key ∈ items.map Prod.fst := (List.mem_cons.mp hmem).resolve_left (Ne.symm hk)
      rw [List.map_cons, ih, if_pos hrest, List.map_cons]
    · have hrest : key ∉ items.map Prod.fst := fun h => hmem (List.mem_cons_of_mem _ h)
      rw [List.map_cons, ih, if_neg hrest, List.map_cons, List.cons_append]

theorem nodup_pushItem {items : List (κ × List β)} (h : (items.map Prod.fst).Nodup) (key : κ)
    (b : β) : ((pushItem key b items).map Prod.fst).Nodup := by
  rw [keys_pushItem]
  split_ifs with hmem
  · exact h
  · refine List.nodup_append.mpr ⟨h, List.nodup_singleton key, ?_⟩
    intro k hk k' hk' heq
    rw [List.mem_singleton.mp hk'] at heq
    exact hmem (heq ▸ hk)

/-- `setdefault(key, []).append(b)` -/
def push (d : OrderedDict κ (List β)) (key : κ) (b : β) : OrderedDict κ (List β) :=
  ⟨pushItem key b d.items, nodup_pushItem d.nodup key b⟩

def groupBy (key : α → κ) (entry : α → β) (l : List α) : OrderedDict κ (List β) :=
  l.foldl (fun d a => d.push (key a) (entry a)) empty

/-! ## What a group holds -/

section Push

variable {d : OrderedDict κ (List β)} {key : κ} {b : β}

theorem mem_keys_push {k : κ} : k ∈ (d.push key b).keys ↔ k ∈ d.keys ∨ k = key := by
  rw [keys, push, keys_pushItem]
  split_ifs with hmem
  · constructor
    · exact .inl
    · intro h
      cases h with
      | inl h => exact h
      | inr h => exact h ▸ hmem
  · rw [List.mem_append, List.mem_singleton]
    exact Iff.rfl

theorem lookup_pushItem (key k : κ) (b : β) (items : List (κ × List β)) :
    ((pushItem key b items).lookup k).getD [] =
      (items.lookup k).getD [] ++ if key = k then [b] else [] := by
  induction items with
  | nil =>
    by_cases hk : key = k
    · simp [pushItem, hk]
    · simp [pushItem, List.lookup_cons, hk, beq_eq_false_iff_ne.mpr (Ne.symm hk)]
  | cons item items ih =>
    obtain ⟨k', bs⟩ := item
    rw [pushItem]
    split_ifs with hkey hk hk
    · subst hkey hk
      simp
    · have hne : (k == k') = false := beq_eq_false_iff_ne.mpr fun h => hk (hkey.symm.trans h.symm)
      simp [List.lookup_cons, hne]
    · subst hk
      have hne : (key == k') = false := beq_eq_false_iff_ne.mpr (Ne.symm hkey)
      simpa [List.lookup_cons, hne] using ih
    · by_cases hk' : k = k'
      · simp [hk']
      · have hne : (k == k') = false := beq_eq_false_iff_ne.mpr hk'
        simpa [List.lookup_cons, hne, hk] using ih

theorem listAt_push (k : κ) :
    (d.push key b).listAt k = d.listAt k ++ if key = k then [b] else [] :=
  lookup_pushItem key k b d.items

end Push

section GroupBy

variable {key : α → κ} {entry : α → β}

theorem foldl_push (l : List α) (d : OrderedDict κ (List β)) (k : κ) :
    (k ∈ (l.foldl (fun d a => d.push (key a) (entry a)) d).keys ↔
      k ∈ d.keys ∨ ∃ a ∈ l, key a = k) ∧
    (l.foldl (fun d a => d.push (key a) (entry a)) d).listAt k =
      d.listAt k ++ (l.filter (key · = k)).map entry := by
  induction l generalizing d with
  | nil => simp
  | cons a l ih =>
    obtain ⟨hkeys, hlist⟩ := ih (d.push (key a) (entry a))
    rw [List.foldl_cons]
    constructor
    · rw [hkeys, mem_keys_push, List.exists_mem_cons_iff, or_assoc, eq_comm]
    · rw [hlist, listAt_push, List.append_assoc]
      congr 1
      by_cases ha : key a = k
      · simp [ha]
      · simp [ha]

theorem mem_keys_groupBy {l : List α} {k : κ} :
    k ∈ (groupBy key entry l).keys ↔ ∃ a ∈ l, key a = k := by
  rw [groupBy, (foldl_push l empty k).1]
  simp [keys, empty]

theorem listAt_groupBy (l : List α) (k : κ) :
    (groupBy key entry l).listAt k = (l.filter (key · = k)).map entry := by
  rw [groupBy, (foldl_push l empty k).2]
  rfl

/-- The groups of a list, under any keys that cover it, are the list in another order. -/
theorem perm_flatMap_filter {ks : List κ} (hks : ks.Nodup) {l : List α}
    (hcover : ∀ a ∈ l, key a ∈ ks) : (ks.flatMap fun k => l.filter (key · = k)).Perm l := by
  induction ks generalizing l with
  | nil =>
    cases l with
    | nil => exact List.Perm.refl []
    | cons a l => cases hcover a List.mem_cons_self
  | cons k ks ih =>
    obtain ⟨hk, hks⟩ := List.nodup_cons.mp hks
    have hrest : (ks.flatMap fun k' => l.filter (key · = k')) =
        ks.flatMap fun k' => (l.filter (! key · = k)).filter (key · = k') := by
      apply List.flatMap_congr
      intro k' hk'
      rw [List.filter_filter]
      apply List.filter_congr
      intro a _
      by_cases ha : key a = k'
      · have hne : key a ≠ k := fun h => hk (h ▸ ha ▸ hk')
        simp [ha, ha ▸ hne]
      · simp [ha]
    rw [List.flatMap_cons, hrest]
    refine ((ih hks ?_).append_left _).trans (List.filter_append_perm (key · = k) l)
    intro a ha
    obtain ⟨ha, hne⟩ := List.mem_filter.mp ha
    exact (List.mem_cons.mp (hcover a ha)).resolve_left (by simpa using hne)

end GroupBy

end OrderedDict

end HermesConversation.Library
