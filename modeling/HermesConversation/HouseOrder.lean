import HermesConversation.House

/-!
# The house block and the order of the registry

Home Assistant hands the exposed entities over sorted by friendly name, which need not be
unique. Two of one name come in the order they were registered, and their lines with them.
-/

namespace HermesConversation.HouseOrder

open Library Sorting House

structure Registered where
  entityId : String
  friendlyName : String
  info : Info

structure Registry where
  entities : List Registered
  unique : (entities.map Registered.entityId).Nodup

def asyncGetExposedEntities (registry : Registry) : Exposed where
  items := (sortBy Registered.friendlyName registry.entities).map fun e => (e.entityId, e.info)
  nodup := by
    rw [List.map_map]
    exact ((perm_sortBy _ _).map Registered.entityId).nodup_iff.mpr registry.unique

def line (e : Registered) : String := describe e.entityId e.info

/-- The block comes out the same in whatever order the entities were registered. -/
def OrderFree (registry : Registry) : Prop :=
  ∀ r r' : Registry, r.entities.Perm registry.entities → r'.entities.Perm registry.entities →
    houseLines (asyncGetExposedEntities r) = houseLines (asyncGetExposedEntities r')

/-- Entities that share a name and an area are told apart by nothing in the block. -/
def TwinsAlike (registry : Registry) : Prop :=
  ∀ a ∈ registry.entities, ∀ b ∈ registry.entities, a.friendlyName = b.friendlyName →
    a.info.area = b.info.area → line a = line b

section Order

variable {registry r r' : Registry}

theorem listAt_exposed (r : Registry) (area : String) :
    (byArea (asyncGetExposedEntities r)).listAt area =
      ((sortBy Registered.friendlyName r.entities).filter (·.info.area = area)).map line := by
  rw [listAt_byArea, under, asyncGetExposedEntities, List.filter_map, List.map_map]
  rfl

theorem mem_keys_exposed {area : String} :
    area ∈ (byArea (asyncGetExposedEntities r)).keys ↔ ∃ e ∈ r.entities, e.info.area = area := by
  rw [byArea, OrderedDict.mem_keys_groupBy, asyncGetExposedEntities]
  constructor
  · intro h
    obtain ⟨entity, hentity, harea⟩ := h
    obtain ⟨e, he, rfl⟩ := List.mem_map.mp hentity
    exact ⟨e, mem_sortBy.mp he, harea⟩
  · intro h
    obtain ⟨e, he, harea⟩ := h
    exact ⟨_, List.mem_map_of_mem (mem_sortBy.mpr he), harea⟩

theorem headings_eq (hr : r.entities.Perm registry.entities)
    (hr' : r'.entities.Perm registry.entities) :
    headings (asyncGetExposedEntities r) = headings (asyncGetExposedEntities r') := by
  apply sortBy_eq_of_perm _ headingKey_injective
  rw [List.perm_ext_iff_of_nodup (OrderedDict.nodup_keys _) (OrderedDict.nodup_keys _)]
  intro area
  have hmem : ∀ e, e ∈ r.entities ↔ e ∈ r'.entities :=
    fun e => hr.mem_iff.trans hr'.mem_iff.symm
  exact mem_keys_exposed.trans ((exists_congr fun e => and_congr_left' (hmem e)).trans
    mem_keys_exposed.symm)

theorem listAt_eq_nil {exposed : Exposed} {area : String} (h : area ∉ headings exposed) :
    (byArea exposed).listAt area = [] := by
  rw [listAt_byArea, under, List.map_eq_nil_iff, List.filter_eq_nil_iff]
  intro entity hentity harea
  exact h (mem_headings.mpr ⟨entity, hentity, of_decide_eq_true harea⟩)

/-- Under equal headings, the lines are the same when those of each area are. -/
theorem houseLines_eq_iff {exposed exposed' : Exposed}
    (hheadings : headings exposed = headings exposed') :
    houseLines exposed = houseLines exposed' ↔
      ∀ area, (byArea exposed).listAt area = (byArea exposed').listAt area := by
  constructor
  · intro hlines area
    have hsections : sections exposed = sections exposed' := by
      rw [← readSections_houseLines, hlines, readSections_houseLines]
    by_cases harea : area ∈ headings exposed
    · rw [sections, sections, ← hheadings] at hsections
      exact congrArg Prod.snd (List.map_inj_left.mp hsections area harea)
    · rw [listAt_eq_nil harea, listAt_eq_nil (hheadings ▸ harea)]
  · intro h
    rw [houseLines, houseLines, ← hheadings]
    simp only [h]

theorem houseLines_order_free_iff (registry : Registry) :
    OrderFree registry ↔ TwinsAlike registry := by
  rw [TwinsAlike, ← selections_order_free_iff]
  constructor
  · intro hfree l l' hl hl' area
    let r : Registry := ⟨l, (hl.map _).nodup_iff.mpr registry.unique⟩
    let r' : Registry := ⟨l', (hl'.map _).nodup_iff.mpr registry.unique⟩
    have hlists := (houseLines_eq_iff (@headings_eq registry r r' hl hl')).mp
      (hfree r r' hl hl') area
    rw [listAt_exposed, listAt_exposed] at hlists
    exact hlists
  · intro hselect r r' hr hr'
    rw [houseLines_eq_iff (headings_eq hr hr')]
    intro area
    rw [listAt_exposed, listAt_exposed]
    exact hselect r.entities r'.entities hr hr' area

def lamp (entityId state : String) : Registered where
  entityId
  friendlyName := "Lamp"
  info := ⟨some ⟨"Lamp", true⟩, "light", some ⟨state, true⟩, none, none⟩

def lampFirst : Registry := ⟨[lamp "light.a" "on", lamp "light.b" "off"], by decide⟩

def lampLast : Registry := ⟨[lamp "light.b" "off", lamp "light.a" "on"], by decide⟩

theorem not_order_free_lamps : ¬ ∀ registry, OrderFree registry := by
  intro h
  have hsame := h lampFirst lampFirst lampLast (List.Perm.refl _) (List.Perm.swap _ _ _)
  revert hsame
  decide

end Order

end HermesConversation.HouseOrder
