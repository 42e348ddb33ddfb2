import HermesConversation.GuardAgreement
import HermesConversation.GuardSoundness
import HermesConversation.RestrictedApi

/-!
# The guard on well-formed calls

Where the arguments have the types that a handler's schema asks for, the guard matches what the
handler matches, and refuses a call exactly when that includes something forbidden. Tools that
are read-only by name are not matched at all.
-/

namespace HermesConversation.GuardExact

open Library Entities Guard GuardSoundness GuardAgreement RestrictedApi

def textSlots : List String := ["name", "area", "floor"]
def selectorSlots : List String := ["domain", "device_class"]

structure WellFormed (args : Dict) : Prop where
  texts : ∀ slot ∈ textSlots, ∀ value, args.lookup slot = some value →
    ∃ s, value = .str s ∧ s ≠ ""
  selectors : ∀ slot ∈ selectorSlots, ∀ value, args.lookup slot = some value →
    (∃ s, value = .str s) ∨ ∃ items : List String, value = .arr (items.map .str)

/-- What the handler matches, before it picks among entities of one name. -/
def handlerMatches (m : Matcher) (house : House) (handler : ServiceHandler) (args : Dict)
    (assistant : Option String) : List State :=
  house.states.filter (m.meets (handler.constraints args assistant))

section Constraints

variable {m : Matcher} {intents : Intents} {house : House} {backed : BackedTool intents}
  {args : Dict} {assistant : Option String} {slot : String}

theorem stringValues_eq_listify {value : Json}
    (h : (∃ s, value = .str s) ∨ ∃ items : List String, value = .arr (items.map .str)) :
    (stringValues (some value)).map stringSet = some (listify value).toFinset := by
  obtain ⟨values, hvalues⟩ : ∃ values, stringValues (some value) = some values := by
    rcases h with ⟨s, rfl⟩ | ⟨items, rfl⟩
    · exact ⟨[s], rfl⟩
    · refine ⟨_, if_pos ?_⟩
      rw [List.all_map, List.all_eq_true]
      intro _ _
      rfl
  rw [hvalues, Option.map_some, stringSet, listify_of_stringValues hvalues]

theorem selector_eq (hargs : WellFormed args) (hslot : slot ∈ selectorSlots) :
    (stringValues (argument args slot)).map stringSet =
      (args.lookup slot).map fun value => (listify value).toFinset := by
  cases hlookup : args.lookup slot with
  | none =>
    rw [argument, hlookup]
    rfl
  | some value =>
    have hshape := hargs.selectors slot hslot value hlookup
    have hargument : argument args slot = some value := by
      rw [argument, hlookup]
      rcases hshape with ⟨s, rfl⟩ | ⟨items, rfl⟩
      · rfl
      · rfl
    rw [hargument, stringValues_eq_listify hshape]
    rfl

theorem domains_eq (hargs : WellFormed args) :
    (handlerConstraints intents backed.tool.name args assistant).domains =
      (backed.handler.constraints args assistant).domains := by
  have hselector := @selector_eq args "domain" hargs (by decide)
  simp only [handlerConstraints, ServiceHandler.constraints, serviceHandler_backed backed]
  cases hlookup : args.lookup "domain" with
  | none => rw [if_pos (Finmap.lookup_eq_none.mp hlookup)]
  | some value =>
    have hmem : "domain" ∈ args := Finmap.mem_iff.mpr ⟨value, hlookup⟩
    rw [if_neg (not_not.mpr hmem), hselector, hlookup]
    rfl

/-- The two constructions differ in what they make of entities of one name, and in no more. -/
theorem constraints_eq (hargs : WellFormed args) :
    handlerConstraints intents backed.tool.name args assistant =
      { backed.handler.constraints args assistant with allowDuplicateNames := true } := by
  have hdomains := @domains_eq intents backed args assistant hargs
  have hclasses := @selector_eq args "device_class" hargs (by decide)
  simp only [handlerConstraints, ServiceHandler.constraints, serviceHandler_backed backed]
    at hdomains ⊢
  rw [hdomains, hclasses]
  rfl

theorem asyncMatchTargets_eq (hargs : WellFormed args)
    (hraises : m.raises (handlerConstraints intents backed.tool.name args assistant) = false) :
    asyncMatchTargets m house (handlerConstraints intents backed.tool.name args assistant) =
      some (handlerMatches m house backed.handler args assistant) := by
  rw [asyncMatchTargets, if_neg (by simp [hraises]), constraints_eq hargs]
  rfl

end Constraints

/-! ## Calls -/

def guardedDomains : List String := coverDomain :: forbiddenDomains

/-- A matcher that takes a set of domains as the domains to match. -/
def RespectsDomains (m : Matcher) : Prop :=
  ∀ domains s, m.inDomains domains s = true → .str s.domain ∈ domains

structure Decided (env : Environment) (backed : BackedTool env.intents) (args : Dict) : Prop where
  classified : unknownArguments args = ∅
  targeted : ∃ slot ∈ targetSlots, slot ∈ args
  wellFormed : WellFormed args
  matched : env.matcher.raises
    (handlerConstraints env.intents backed.tool.name args env.assistant) = false

section Calls

variable {env : Environment} {backed : BackedTool env.intents} {args : Dict}

def outcome (env : Environment) (backed : BackedTool env.intents) (args : Dict) : Outcome :=
  Guard.asyncCall env.matcher env.intents env.house backed.tool args env.assistant

def matchesOf (env : Environment) (backed : BackedTool env.intents) (args : Dict) : List State :=
  handlerMatches env.matcher env.house backed.handler args env.assistant

/-- The guard refuses what the handler would do to a lock or a door, and lets the rest pass. -/
structure Exact (env : Environment) (backed : BackedTool env.intents) (args : Dict) : Prop where
  examined : asyncMatchTargets env.matcher env.house
    (handlerConstraints env.intents backed.tool.name args env.assistant) =
      some (matchesOf env backed args)
  refused_iff : (∃ error, outcome env backed args = .refused error) ↔
    ∃ s ∈ matchesOf env backed args, isForbidden s = true
  refuses : ∀ {M : Type → Type} [Monad M] (call : ToolInput → M Json) (toolName : String),
    (∃ s ∈ matchesOf env backed args, isForbidden s = true) →
      guardedCall env backed.tool call ⟨toolName, args⟩ = pure (errorResponse refusal)
  delegates : ∀ {M : Type → Type} [Monad M] (call : ToolInput → M Json) (toolName : String),
    (¬∃ s ∈ matchesOf env backed args, isForbidden s = true) →
      guardedCall env backed.tool call ⟨toolName, args⟩ = call ⟨toolName, args⟩
  domain_bound : RespectsDomains env.matcher → ∀ domains,
    (backed.handler.constraints args env.assistant).domains = some domains →
      (∀ d ∈ guardedDomains, .str d ∉ domains) → outcome env backed args = .delegated

theorem domain_of_isForbidden {s : State} (h : isForbidden s = true) :
    s.domain ∈ guardedDomains := by
  rcases isForbidden_iff.mp h with hdomain | ⟨hcover, -⟩
  · exact List.mem_cons_of_mem _ hdomain
  · exact hcover ▸ List.mem_cons_self

theorem not_forbidden_of_domains (hmatcher : RespectsDomains env.matcher)
    {domains : Finset Json}
    (hdomains : (backed.handler.constraints args env.assistant).domains = some domains)
    (hguarded : ∀ d ∈ guardedDomains, .str d ∉ domains) :
    ¬∃ s ∈ matchesOf env backed args, isForbidden s = true := by
  intro h
  obtain ⟨s, hs, hforbidden⟩ := h
  have hmeets := (List.mem_filter.mp hs).2
  simp only [Matcher.meets, Bool.and_eq_true, hdomains, Option.all_some] at hmeets
  obtain ⟨⟨⟨⟨⟨-, hin⟩, -⟩, -⟩, -⟩, -⟩ := hmeets
  exact hguarded s.domain (domain_of_isForbidden hforbidden) (hmatcher domains s hin)

theorem outcome_eq (hname : backed.tool.name ∉ readOnlyTools) (h : Decided env backed args) :
    outcome env backed args =
      if ∃ s ∈ matchesOf env backed args, isForbidden s = true then .refused refusal
      else .delegated := by
  let call : GuardedCall := ⟨backed.tool, args,
    selectsNoTargets_eq_false_iff.mpr ⟨hname, backed.notAction⟩, h.classified, h.targeted⟩
  have hmatched : asyncMatchTargets env.matcher env.house
      (handlerConstraints env.intents call.tool.name call.args env.assistant) =
        some (matchesOf env backed args) := asyncMatchTargets_eq h.wellFormed h.matched
  split_ifs with hforbidden
  · exact (asyncCall_refused_iff hmatched).mpr hforbidden
  · refine asyncCall_delegated_iff.mpr (.inr ⟨h.classified, ?_⟩)
    refine (targetsForbidden_eq_false_iff h.targeted).mpr ⟨_, hmatched, ?_⟩
    intro s hs
    rw [← Bool.not_eq_true]
    exact fun hs' => hforbidden ⟨s, hs, hs'⟩

theorem guard_exact (env : Environment) (backed : BackedTool env.intents) (args : Dict)
    (hname : backed.tool.name ∉ readOnlyTools) (h : Decided env backed args) :
    Exact env backed args := by
  have houtcome := outcome_eq hname h
  refine ⟨asyncMatchTargets_eq h.wellFormed h.matched, ?_, ?_, ?_, ?_⟩
  · rw [houtcome]
    split_ifs with hforbidden
    · simp [hforbidden]
    · simp [hforbidden]
  · intro M _ call toolName hforbidden
    rw [if_pos hforbidden] at houtcome
    rw [outcome] at houtcome
    rw [guardedCall, houtcome]
  · intro M _ call toolName hsafe
    rw [if_neg hsafe] at houtcome
    rw [outcome] at houtcome
    rw [guardedCall, houtcome]
  · intro hmatcher domains hdomains hguarded
    rw [houtcome, if_neg (not_forbidden_of_domains hmatcher hdomains hguarded)]

end Calls

/-! ## At the edges -/

theorem wellFormed_domain {value : Json}
    (h : (∃ s, value = .str s) ∨ ∃ items : List String, value = .arr (items.map .str)) :
    WellFormed (Finmap.singleton "domain" value) where
  texts := by
    intro slot hslot v hv
    have hmem : slot ∈ (Finmap.singleton "domain" value : Dict) := Finmap.mem_iff.mpr ⟨v, hv⟩
    rw [Finmap.mem_singleton] at hmem
    rw [hmem] at hslot
    exact absurd hslot (by decide)
  selectors := by
    intro slot _ v hv
    have hmem : slot ∈ (Finmap.singleton "domain" value : Dict) := Finmap.mem_iff.mpr ⟨v, hv⟩
    rw [Finmap.mem_singleton] at hmem
    rw [hmem, Finmap.lookup_singleton_eq] at hv
    rw [← Option.some.inj hv]
    exact h

def porch : House := ⟨[⟨"lock.porch", ∅⟩], []⟩

def porchEnvironment (intents : Intents) : Environment :=
  ⟨plainMatcher, intents, porch, none, [], fun _ => ""⟩

def oneTool (toolName : String) (domains : List String) : Intents :=
  ⟨[⟨toolName, some ⟨some domains, none, none⟩⟩], List.nodup_singleton _⟩

def onlyTool (toolName : String) (domains : List String) :
    BackedTool (oneTool toolName domains) :=
  ⟨⟨toolName, false⟩, ⟨some domains, none, none⟩, List.mem_singleton_self _, rfl⟩

theorem respectsDomains_plainMatcher : RespectsDomains plainMatcher := by
  intro domains s hin
  exact of_decide_eq_true hin

theorem decided_domain (toolName : String) (domains : List String) {value : Json}
    (h : (∃ s, value = .str s) ∨ ∃ items : List String, value = .arr (items.map .str)) :
    Decided (porchEnvironment (oneTool toolName domains)) (onlyTool toolName domains)
      (Finmap.singleton "domain" value) where
  classified := by
    rw [unknownArguments, Finmap.keys_singleton]
    decide
  targeted := ⟨"domain", by decide, (Finmap.mem_singleton _ _ _).mpr rfl⟩
  wellFormed := wellFormed_domain h
  matched := rfl

theorem exact_mediaPause : Exact (porchEnvironment (oneTool "HassMediaPause" ["media_player"]))
    (onlyTool "HassMediaPause" ["media_player"]) (Finmap.singleton "domain" (.arr [])) :=
  guard_exact _ _ _ (by decide) (decided_domain _ _ (.inr ⟨[], rfl⟩))

/-- A handler by the name of a read-only tool is not guarded; a selection of domains sets an
intent free of the domains it requires. -/
theorem not_exact_edges :
    (¬ ∀ (env : Environment) (backed : BackedTool env.intents) (args : Dict),
      Decided env backed args → Exact env backed args) ∧
    ¬ ∀ (env : Environment) (backed : BackedTool env.intents) (args : Dict),
      Decided env backed args → RespectsDomains env.matcher →
        ∀ domains, backed.handler.requiredDomains = some domains → domains ≠ [] →
          (∀ d ∈ guardedDomains, d ∉ domains) → outcome env backed args = .delegated := by
  constructor
  · intro h
    have hexact := h (porchEnvironment (oneTool "GetLiveContext" ["lock"]))
      (onlyTool "GetLiveContext" ["lock"]) _
      (decided_domain "GetLiveContext" ["lock"] (.inl ⟨"lock", rfl⟩))
    have hporch : ∃ s ∈ matchesOf (porchEnvironment (oneTool "GetLiveContext" ["lock"]))
        (onlyTool "GetLiveContext" ["lock"]) (Finmap.singleton "domain" (.str "lock")),
        isForbidden s = true := by
      decide
    obtain ⟨error, herror⟩ := hexact.refused_iff.mpr hporch
    cases herror
  · intro h
    have hpause := h (porchEnvironment (oneTool "HassMediaPause" ["media_player"]))
      (onlyTool "HassMediaPause" ["media_player"]) _
      (decided_domain "HassMediaPause" ["media_player"] (.inl ⟨"lock", rfl⟩))
      respectsDomains_plainMatcher ["media_player"] rfl (by decide) (by decide)
    revert hpause
    decide

end HermesConversation.GuardExact
