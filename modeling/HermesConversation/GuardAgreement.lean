import HermesConversation.Guard

/-!
# The guard and the policy on what a door is

The policy goes by the live device class and by the registry, the guard by the live one alone.
-/

namespace HermesConversation.GuardAgreement

open Library Entities Guard

/-- A call the guard has to decide by its targets. -/
structure GuardedCall where
  tool : Tool
  args : Dict
  guarded : selectsNoTargets tool = false
  classified : unknownArguments args = ∅
  targeted : ∃ slot ∈ targetSlots, slot ∈ args

/-- What the policy of the user group withholds as a lock, an alarm panel or a door. -/
def Withheld (house : House) (s : State) : Prop :=
  s.domain ∈ forbiddenDomains ∨ s.entityId ∈ forbiddenCovers house

def RegistryDoor (house : House) (s : State) : Prop :=
  s.domain = coverDomain ∧ ∃ e ∈ house.registry, e.entityId = s.entityId ∧ e.classForbidden

section Agreement

variable {m : Matcher} {intents : Intents} {house : House} {call : GuardedCall}
  {assistant : Option String} {s : State} {matched : List State}

theorem isForbidden_iff : isForbidden s = true ↔
    s.domain ∈ forbiddenDomains ∨ s.domain = coverDomain ∧ s.classForbidden = true := by
  rw [isForbidden, Bool.or_eq_true, Bool.and_eq_true, decide_eq_true_eq, decide_eq_true_eq]

theorem withheld_of_isForbidden (hs : s ∈ house.states) (h : isForbidden s = true) :
    Withheld house s := by
  rcases isForbidden_iff.mp h with hdomain | ⟨hcover, hclass⟩
  · exact .inl hdomain
  · exact .inr (mem_forbiddenCovers.mpr ⟨hcover, .inl ⟨s, hs, rfl, hclass⟩⟩)

theorem withheld_of_registryDoor (h : RegistryDoor house s) : Withheld house s :=
  .inr (mem_forbiddenCovers.mpr ⟨h.1, .inr h.2⟩)

theorem withheld_iff (hids : (house.states.map State.entityId).Nodup) (hs : s ∈ house.states) :
    Withheld house s ↔ isForbidden s = true ∨ RegistryDoor house s := by
  constructor
  · intro h
    rcases h with hdomain | hcover
    · exact .inl (isForbidden_iff.mpr (.inl hdomain))
    · obtain ⟨hdomain, ⟨t, ht, hid, hclass⟩ | hentry⟩ := mem_forbiddenCovers.mp hcover
      · have hsame : t = s := List.inj_on_of_nodup_map hids ht hs hid
        rw [hsame] at hclass
        exact .inl (isForbidden_iff.mpr (.inr ⟨hdomain, hclass⟩))
      · exact .inr ⟨hdomain, hentry⟩
  · intro h
    cases h with
    | inl hforbidden => exact withheld_of_isForbidden hs hforbidden
    | inr hdoor => exact withheld_of_registryDoor hdoor

theorem asyncMatchTargets_subset {c : MatchTargetsConstraints}
    (h : asyncMatchTargets m house c = some matched) : matched ⊆ house.states := by
  rw [asyncMatchTargets] at h
  split_ifs at h
  rw [← Option.some.inj h]
  exact fun s hs => (List.mem_filter.mp hs).1

def Agrees (m : Matcher) (intents : Intents) (house : House) (call : GuardedCall)
    (assistant : Option String) : Prop :=
  ∀ matched, asyncMatchTargets m house
      (handlerConstraints intents call.tool.name call.args assistant) = some matched →
    (∃ s ∈ matched, Withheld house s) →
      asyncCall m intents house call.tool call.args assistant = .refused refusal

/-- Where the matches include a door by the registry, they include something forbidden by its
live state too. -/
def LiveTells (m : Matcher) (intents : Intents) (house : House) (call : GuardedCall)
    (assistant : Option String) : Prop :=
  ∀ matched, asyncMatchTargets m house
      (handlerConstraints intents call.tool.name call.args assistant) = some matched →
    (∃ s ∈ matched, RegistryDoor house s) → ∃ s ∈ matched, isForbidden s = true

theorem asyncCall_refused_iff
    (h : asyncMatchTargets m house
      (handlerConstraints intents call.tool.name call.args assistant) = some matched) :
    asyncCall m intents house call.tool call.args assistant = .refused refusal ↔
      ∃ s ∈ matched, isForbidden s = true := by
  have hforbidden : targetsForbidden m intents house call.tool.name call.args assistant =
      matched.any isForbidden := by
    rw [targetsForbidden, if_neg (not_not.mpr call.targeted), h]
  rw [← List.any_eq_true, ← hforbidden]
  simp only [asyncCall, call.guarded, call.classified]
  cases targetsForbidden m intents house call.tool.name call.args assistant with
  | true => simp
  | false => simp

theorem agrees_iff (m : Matcher) (intents : Intents) (house : House)
    (hids : (house.states.map State.entityId).Nodup) (call : GuardedCall)
    (assistant : Option String) :
    Agrees m intents house call assistant ↔ LiveTells m intents house call assistant := by
  constructor
  · intro hagrees matched hmatched hdoor
    obtain ⟨s, hs, hregistry⟩ := hdoor
    exact (asyncCall_refused_iff hmatched).mp
      (hagrees matched hmatched ⟨s, hs, withheld_of_registryDoor hregistry⟩)
  · intro htells matched hmatched hwithheld
    obtain ⟨s, hs, hwithheld⟩ := hwithheld
    rw [asyncCall_refused_iff hmatched]
    rcases (withheld_iff hids (asyncMatchTargets_subset hmatched hs)).mp hwithheld with
      hforbidden | hdoor
    · exact ⟨s, hs, hforbidden⟩
    · exact htells matched hmatched ⟨s, hs, hdoor⟩

def sideHouse : House :=
  ⟨[⟨"cover.side", Finmap.singleton attrDeviceClass (.str "blind")⟩],
    [⟨"cover.side", some "door", some "blind"⟩]⟩

def turnOnCovers : GuardedCall where
  tool := ⟨"HassTurnOn", false⟩
  args := Finmap.singleton "domain" (.str coverDomain)
  guarded := by decide
  classified := by decide
  targeted := by decide

theorem agrees_iff_side :
    Agrees plainMatcher ⟨[], List.nodup_nil⟩ sideHouse turnOnCovers none ↔
      LiveTells plainMatcher ⟨[], List.nodup_nil⟩ sideHouse turnOnCovers none :=
  agrees_iff plainMatcher ⟨[], List.nodup_nil⟩ sideHouse (by decide) turnOnCovers none

theorem not_agrees_side :
    ¬ ∀ (m : Matcher) (intents : Intents) (house : House),
      (house.states.map State.entityId).Nodup → ∀ (call : GuardedCall)
        (assistant : Option String), Agrees m intents house call assistant := by
  intro h
  have hrefused := h plainMatcher ⟨[], List.nodup_nil⟩ sideHouse (by decide) turnOnCovers none
    sideHouse.states (by decide)
    ⟨_, List.mem_singleton_self _, .inr (mem_forbiddenCovers.mpr (by decide))⟩
  revert hrefused
  decide

end Agreement

end HermesConversation.GuardAgreement
