import HermesConversation.Guard

/-!
# What a cleared call can reach

The constraints of the guard are never narrower than those of the handler, so a call whose
targets were matched is safe. The guard does not match a call without a target slot, though the
handler goes by its own requirements then.
-/

namespace HermesConversation.GuardSoundness

open Library Entities Guard

/-- A tool backed by the registered service handler of its name. -/
structure BackedTool (intents : Intents) where
  tool : Tool
  handler : ServiceHandler
  registered : ⟨tool.name, some handler⟩ ∈ intents.handlers
  notAction : tool.isAction = false

theorem findSome_handler {handlers : List IntentHandler} {toolName : String}
    {handler : ServiceHandler} (hunique : (handlers.map IntentHandler.intentType).Nodup)
    (hmem : ⟨toolName, some handler⟩ ∈ handlers) :
    (handlers.findSome? fun h => if h.intentType = toolName then h.service else none) =
      some handler := by
  induction handlers with
  | nil => cases hmem
  | cons first rest ih =>
    rw [List.map_cons, List.nodup_cons] at hunique
    rw [List.findSome?_cons]
    rcases List.mem_cons.mp hmem with hfirst | hrest
    · rw [← hfirst, if_pos rfl]
    · have hne : first.intentType ≠ toolName := by
        intro heq
        apply hunique.1
        rw [heq]
        exact List.mem_map_of_mem hrest
      rw [if_neg hne]
      exact ih hunique.2 hrest

section Selectors

variable {value : Json} {values : List String}

theorem filterMap_asString {items : List Json}
    (h : (items.all fun item => (asString item).isSome) = true) :
    (items.filterMap asString).map Json.str = items := by
  induction items with
  | nil => rfl
  | cons item items ih =>
    rw [List.all_cons, Bool.and_eq_true] at h
    cases item with
    | str s =>
      have htext : asString (.str s) = some s := rfl
      rw [List.filterMap_cons_some htext, List.map_cons, ih h.2]
    | null | bool _ | num _ | arr _ | obj _ => cases h.1

theorem listify_of_stringValues (h : stringValues (some value) = some values) :
    listify value = values.map Json.str := by
  cases value with
  | str s =>
    rw [stringValues, Option.some.injEq] at h
    rw [← h]
    rfl
  | arr items =>
    rw [stringValues] at h
    split_ifs at h with hall
    rw [← Option.some.inj h, filterMap_asString hall]
    rfl
  | null | bool _ | num _ | obj _ => cases h

theorem stringValues_narrower {args : Dict} {slot : String} {p : Finset Json → Bool}
    (h : (args.lookup slot).all fun value => p (listify value).toFinset) :
    ((stringValues (argument args slot)).map stringSet).all p = true := by
  cases hvalues : stringValues (argument args slot) with
  | none => rfl
  | some values =>
    cases hlookup : args.lookup slot with
    | none =>
      rw [argument, hlookup] at hvalues
      cases hvalues
    | some value =>
      rw [hlookup, Option.all_some] at h
      have hargument : argument args slot = some value := by
        rw [argument, hlookup] at hvalues ⊢
        cases value with
        | null => cases hvalues
        | bool _ | num _ | str _ | arr _ | obj _ => rfl
      rw [hargument] at hvalues
      rw [Option.map_some, Option.all_some, stringSet, ← listify_of_stringValues hvalues]
      exact h

end Selectors

section Sound

variable {m : Matcher} {intents : Intents} {house : House} {backed : BackedTool intents}
  {args : Dict} {assistant : Option String}

theorem serviceHandler_backed (backed : BackedTool intents) :
    serviceHandler intents backed.tool.name = some backed.handler :=
  findSome_handler intents.unique backed.registered

theorem domains_narrower {p : Finset Json → Bool}
    (h : (backed.handler.constraints args assistant).domains.all p = true) :
    (handlerConstraints intents backed.tool.name args assistant).domains.all p = true := by
  simp only [ServiceHandler.constraints] at h
  simp only [handlerConstraints, serviceHandler_backed backed]
  cases hlookup : args.lookup "domain" with
  | none =>
    rw [hlookup] at h
    rw [if_pos (Finmap.lookup_eq_none.mp hlookup)]
    exact h
  | some value =>
    have hmem : "domain" ∈ args := Finmap.mem_iff.mpr ⟨value, hlookup⟩
    rw [hlookup, Option.all_some] at h
    rw [if_neg (not_not.mpr hmem)]
    apply stringValues_narrower
    rw [hlookup]
    exact h

theorem deviceClasses_narrower {p : Finset Json → Bool}
    (h : (backed.handler.constraints args assistant).deviceClasses.all p = true) :
    (handlerConstraints intents backed.tool.name args assistant).deviceClasses.all p = true := by
  apply stringValues_narrower
  simpa only [ServiceHandler.constraints, Option.all_map, Function.comp_def] using h

/-- The guard looks at every entity that meets the constraints of the handler. -/
theorem meets_handlerConstraints {s : State}
    (h : m.meets (backed.handler.constraints args assistant) s = true) :
    m.meets (handlerConstraints intents backed.tool.name args assistant) s = true := by
  simp only [Matcher.meets, Bool.and_eq_true] at h ⊢
  obtain ⟨⟨⟨⟨⟨⟨⟨hname, harea⟩, hfloor⟩, hdomains⟩, hclasses⟩, hfeatures⟩, hstates⟩, hexposed⟩ := h
  refine ⟨⟨⟨⟨⟨⟨⟨hname, harea⟩, hfloor⟩, ?_⟩, ?_⟩, ?_⟩, ?_⟩, hexposed⟩
  · exact domains_narrower hdomains
  · exact deviceClasses_narrower hclasses
  · simp only [handlerConstraints, serviceHandler_backed backed]
    exact hfeatures
  · simp only [handlerConstraints, serviceHandler_backed backed]
    exact hstates

/-- Whatever the handler acts on among its matches, a call that reaches it acts on nothing
forbidden. -/
def Sound (m : Matcher) (intents : Intents) (house : House) (backed : BackedTool intents)
    (args : Dict) (assistant : Option String) : Prop :=
  asyncCall m intents house backed.tool args assistant = .delegated →
    ∀ acted, acted ⊆ house.states.filter (m.meets (backed.handler.constraints args assistant)) →
      ∀ s ∈ acted, isForbidden s = false

def Checked (tool : Tool) (args : Dict) : Prop :=
  tool.name ∉ readOnlyTools ∧ (unknownArguments args ≠ ∅ ∨ ∃ slot ∈ targetSlots, slot ∈ args)

def Harmless (m : Matcher) (house : House) (handler : ServiceHandler) (args : Dict)
    (assistant : Option String) : Prop :=
  ∀ s ∈ house.states, m.meets (handler.constraints args assistant) s = true → isForbidden s = false

theorem sound_of_checked (h : Checked backed.tool args) :
    Sound m intents house backed args assistant := by
  intro hcall acted hacted s hs
  have hguarded : selectsNoTargets backed.tool = false :=
    selectsNoTargets_eq_false_iff.mpr ⟨h.1, backed.notAction⟩
  rw [asyncCall_delegated_iff, hguarded] at hcall
  obtain hread | ⟨hknown, hcleared⟩ := hcall
  · cases hread
  · have htarget : ∃ slot ∈ targetSlots, slot ∈ args := h.2.resolve_left (not_not.mpr hknown)
    obtain ⟨matched, hmatched, hsafe⟩ := (targetsForbidden_eq_false_iff htarget).mp hcleared
    obtain ⟨hstate, hmeets⟩ := List.mem_filter.mp (hacted hs)
    apply hsafe
    rw [asyncMatchTargets] at hmatched
    split_ifs at hmatched
    rw [← Option.some.inj hmatched]
    exact List.mem_filter.mpr ⟨hstate, meets_handlerConstraints hmeets⟩

theorem sound_of_harmless (h : Harmless m house backed.handler args assistant) :
    Sound m intents house backed args assistant := by
  intro _ acted hacted s hs
  obtain ⟨hstate, hmeets⟩ := List.mem_filter.mp (hacted hs)
  exact h s hstate hmeets

theorem delegated_of_not_checked (h : ¬Checked backed.tool args) :
    asyncCall m intents house backed.tool args assistant = .delegated := by
  rw [asyncCall_delegated_iff]
  by_cases hread : backed.tool.name ∈ readOnlyTools
  · left
    rw [selectsNoTargets, decide_eq_true hread, Bool.true_or]
  · right
    rw [Checked, not_and] at h
    obtain ⟨hknown, huntargeted⟩ := not_or.mp (h hread)
    exact ⟨not_not.mp hknown, targetsForbidden_untargeted huntargeted _⟩

theorem sound_iff (m : Matcher) (intents : Intents) (house : House) (backed : BackedTool intents)
    (args : Dict) (assistant : Option String) :
    Sound m intents house backed args assistant ↔
      Checked backed.tool args ∨ Harmless m house backed.handler args assistant := by
  constructor
  · intro hsound
    by_cases hchecked : Checked backed.tool args
    · exact .inl hchecked
    -- Nothing stops the call, so it is sound only where everything it can reach is.
    · right
      intro s hstate hmeets
      exact hsound (delegated_of_not_checked hchecked) _ (List.Subset.refl _) s
        (List.mem_filter.mpr ⟨hstate, hmeets⟩)
  · intro h
    cases h with
    | inl hchecked => exact sound_of_checked hchecked
    | inr hharmless => exact sound_of_harmless hharmless

def setCoverPosition : ServiceHandler := ⟨some [coverDomain], none, none⟩

def positionIntents : Intents := ⟨[⟨"SetCoverPosition", some setCoverPosition⟩], by decide⟩

def positionTool : BackedTool positionIntents :=
  ⟨⟨"SetCoverPosition", false⟩, setCoverPosition, by simp [positionIntents], rfl⟩

def garageHouse : House :=
  ⟨[⟨"cover.garage", Finmap.singleton attrDeviceClass (.str "garage")⟩], []⟩

theorem not_sound_position :
    ¬ ∀ (m : Matcher) (intents : Intents) (house : House) (backed : BackedTool intents)
      (args : Dict) (assistant : Option String), Sound m intents house backed args assistant := by
  intro h
  have hsound := h plainMatcher positionIntents garageHouse positionTool
    (Finmap.singleton "position" (.num 100)) none (by decide) garageHouse.states
  have hgarage := hsound (by decide) _ (List.mem_singleton_self _)
  revert hgarage
  decide

end Sound

end HermesConversation.GuardSoundness
