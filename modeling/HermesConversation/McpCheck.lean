import HermesConversation.Library.Runs
import HermesConversation.Client
import HermesConversation.RestrictedGroup

/-!
# The unrestricted-MCP warning

Two places run the check: the listener that `async_setup` connects, at every change of an
MCP entry, and the setup of a Hermes entry, once the gateway has listed its models.
-/

namespace HermesConversation.McpCheck

open Library RestrictedGroup

def restrictedApiId : String := "hermes_conversation_restricted"
def issueUnrestrictedMcp : String := "mcp_server_unrestricted"

inductive HassApi where
  | absent
  | one (apiId : String)
  | many (apiIds : List String) (distinct : apiIds.Nodup)
  deriving DecidableEq

structure McpEntry where
  entryId : String
  llmHassApi : HassApi

/-- `entry.data.get(CONF_LLM_HASS_API) or []`, with a string in a list of its own. -/
def selected : HassApi → List String
  | .absent => []
  | .one apiId => if apiId = "" then [] else [apiId]
  | .many apiIds _ => apiIds

def mcpEntryIsRestricted (entry : McpEntry) : Bool :=
  selected entry.llmHassApi == [restrictedApiId]

/-- `mcp` are the entries of the MCP server, `attempts` the setups of Hermes entries that have
got past the list of models and are still under way. -/
structure World where
  setUp : Bool
  mcp : List McpEntry
  attempts : ℕ
  issues : Finset Issue

def asyncCheckMcpServer (w : World) : World :=
  if w.mcp = [] then { w with issues := w.issues.erase (domain, issueUnrestrictedMcp) }
  else if w.mcp.all mcpEntryIsRestricted then
    { w with issues := w.issues.erase (domain, issueUnrestrictedMcp) }
  else { w with issues := insert (domain, issueUnrestrictedMcp) w.issues }

def configEntryChanged (w : World) : World := if w.setUp then asyncCheckMcpServer w else w

inductive Event where
  | asyncSetup
  | mcpAdded (entry : McpEntry)
  | mcpUpdated (entryId : String) (llmHassApi : HassApi)
  | mcpStateChanged (entryId : String)
  | mcpRemoved (entryId : String)
  | modelsAsked (answer : Client.Exchange)
  | attemptEnded

def hasEntry (w : World) (entryId : String) : Bool := w.mcp.any (·.entryId = entryId)

/-- Whether the event is a change of an MCP entry. An update that changes nothing is none, and
neither is a change of an entry that is not there. -/
def changesMcp (w : World) : Event → Bool
  | .mcpAdded entry => !hasEntry w entry.entryId
  | .mcpUpdated id api => w.mcp.any fun e => e.entryId = id && e.llmHassApi ≠ api
  | .mcpStateChanged id => hasEntry w id
  | .mcpRemoved id => hasEntry w id
  | _ => false

def changedMcp (w : World) : Event → List McpEntry
  | .mcpAdded entry => w.mcp ++ [entry]
  | .mcpUpdated id api =>
    w.mcp.map fun e => if e.entryId = id then { e with llmHassApi := api } else e
  | .mcpRemoved id => w.mcp.filter fun e => e.entryId ≠ id
  | _ => w.mcp

/-- The gateway's answer decides what is left of a setup: an error leaves it there, and models
let it go on past the check. A Hermes entry is set up only after `async_setup`. -/
def step (w : World) (e : Event) : World :=
  match e with
  | .asyncSetup => { w with setUp := true }
  | .modelsAsked answer =>
    if w.setUp then
      match Client.checkModels answer with
      | .error _ => w
      | .ok _ => { asyncCheckMcpServer w with attempts := w.attempts + 1 }
    else w
  | .attemptEnded => { w with attempts := w.attempts - 1 }
  | change =>
    if changesMcp w change then configEntryChanged { w with mcp := changedMcp w change } else w

def start : World := ⟨false, [], 0, ∅⟩

/-! ## What the warning is to say -/

def serves : HassApi → Set String
  | .absent => ∅
  | .one apiId => {apiId}
  | .many apiIds _ => {apiId | apiId ∈ apiIds}

/-- Some entry serves anything other than exactly the restricted API. -/
def Bypassed (w : World) : Prop := ∃ entry ∈ w.mcp, serves entry.llmHassApi ≠ {restrictedApiId}

def Open (w : World) : Prop := (domain, issueUnrestrictedMcp) ∈ w.issues

def Warned (w : World) : Prop := Open w ↔ Bypassed w

def Fails (w : World) : Event → Prop
  | .modelsAsked answer => w.setUp = true ∧ ∃ err, Client.checkModels answer = .error err
  | _ => False

/-- The event after which the warning has to be right: a change of an MCP entry that follows
`async_setup`, or the end of a setup attempt. -/
def Due (w : World) (e : Event) : Prop :=
  (w.setUp = true ∧ changesMcp w e = true) ∨ Fails w e ∨ (e = .attemptEnded ∧ 0 < w.attempts)

def Reports (w : World) (e : Event) : Prop := Due w e → Warned (step w e)

def Checks (w : World) (e : Event) : Prop :=
  w.setUp = true ∧ (changesMcp w e = true ∨
    ∃ answer models, e = .modelsAsked answer ∧ Client.checkModels answer = .ok models)

def Checked (es : List Event) : Prop :=
  ∃ pre e, pre ++ [e] <+: es ∧ Checks (Runs.run step start pre) e

/-! ## The check -/

section Check

variable {w : World} {e : Event}

theorem eq_singleton_iff {apiIds : List String} {apiId : String} (h : apiIds.Nodup) :
    apiIds = [apiId] ↔ {id | id ∈ apiIds} = ({apiId} : Set String) := by
  rw [← List.perm_singleton, List.perm_ext_iff_of_nodup h (List.nodup_singleton apiId),
    Set.ext_iff]
  simp only [List.mem_singleton, Set.mem_ofPred_eq, Set.mem_singleton_iff]

theorem mcpEntryIsRestricted_iff {entry : McpEntry} :
    mcpEntryIsRestricted entry = true ↔ serves entry.llmHassApi = {restrictedApiId} := by
  rw [mcpEntryIsRestricted, beq_iff_eq]
  cases entry.llmHassApi with
  | absent =>
    have hempty : (∅ : Set String) ≠ {restrictedApiId} := (Set.singleton_ne_empty _).symm
    simp only [selected, serves, hempty, List.ne_cons_self]
  | one apiId =>
    simp only [selected, serves, Set.singleton_eq_singleton_iff]
    split_ifs with hempty
    · rw [hempty]
      decide
    · rw [List.singleton_inj]
  | many apiIds distinct => exact eq_singleton_iff distinct

theorem bypassed_iff : Bypassed w ↔ ¬ w.mcp.all mcpEntryIsRestricted = true := by
  simp only [Bypassed, List.all_eq_true, not_forall, mcpEntryIsRestricted_iff, exists_prop, ne_eq]

theorem asyncCheckMcpServer_warned : Warned (asyncCheckMcpServer w) := by
  rw [Warned, Open, asyncCheckMcpServer]
  split_ifs with hnone hall
  · simp [bypassed_iff, hnone]
  · simp [bypassed_iff, hall]
  · simp [bypassed_iff, hall]

theorem warned_congr {w' : World} (hmcp : w'.mcp = w.mcp) (hissues : w'.issues = w.issues) :
    Warned w' ↔ Warned w := by
  rw [Warned, Warned, Open, Open, Bypassed, Bypassed, hmcp, hissues]

theorem asyncCheckMcpServer_frame {α : Type*} {f : World → α}
    (hissues : ∀ w issues, f { w with issues } = f w) (w : World) :
    f (asyncCheckMcpServer w) = f w := by
  rw [asyncCheckMcpServer]
  split_ifs <;> exact hissues w _

theorem asyncCheckMcpServer_setUp (w : World) : (asyncCheckMcpServer w).setUp = w.setUp :=
  asyncCheckMcpServer_frame (f := World.setUp) (fun _ _ => rfl) w

theorem step_change (h : changesMcp w e = true) :
    step w e = configEntryChanged { w with mcp := changedMcp w e } := by
  cases e with
  | asyncSetup | modelsAsked _ | attemptEnded => cases h
  | mcpAdded _ | mcpUpdated _ _ | mcpStateChanged _ | mcpRemoved _ => exact if_pos h

theorem step_checks (h : Checks w e) : (step w e).setUp = true ∧ Warned (step w e) := by
  obtain ⟨hsetUp, hchange | ⟨answer, models, rfl, hmodels⟩⟩ := h
  · rw [step_change hchange, configEntryChanged, if_pos hsetUp, asyncCheckMcpServer_setUp]
    exact ⟨hsetUp, asyncCheckMcpServer_warned⟩
  · simp only [step, if_pos hsetUp, hmodels, asyncCheckMcpServer_setUp]
    exact ⟨hsetUp, (warned_congr rfl rfl).mp asyncCheckMcpServer_warned⟩

/-- An event that is not checked leaves the repair alone, and the entries once the listener is
connected. -/
structure Kept (w w' : World) : Prop where
  issues : w'.issues = w.issues
  attempts : w'.attempts ≤ w.attempts
  setUp : w.setUp = true → w'.setUp = true
  mcp : w.setUp = true → w'.mcp = w.mcp

theorem step_unchanged (hsetUp : w.setUp = false ∨ changesMcp w e = false) :
    Kept w (if changesMcp w e then configEntryChanged { w with mcp := changedMcp w e } else w) := by
  split_ifs with hchange
  · rw [hchange, or_iff_left (by decide)] at hsetUp
    have hlistener : configEntryChanged { w with mcp := changedMcp w e } =
        { w with mcp := changedMcp w e } := if_neg (by rw [hsetUp]; decide)
    have hnever : w.setUp ≠ true := by rw [hsetUp]; decide
    rw [hlistener]
    exact ⟨rfl, le_rfl, id, fun h => absurd h hnever⟩
  · exact ⟨rfl, le_rfl, id, fun _ => rfl⟩

theorem step_kept (h : ¬ Checks w e) : Kept w (step w e) := by
  have hchange : w.setUp = false ∨ changesMcp w e = false := by
    by_contra hboth
    simp only [not_or, Bool.not_eq_false] at hboth
    exact h ⟨hboth.1, .inl hboth.2⟩
  cases e with
  | asyncSetup => exact ⟨rfl, le_rfl, fun _ => rfl, fun _ => rfl⟩
  | attemptEnded => exact ⟨rfl, Nat.sub_le _ _, id, fun _ => rfl⟩
  | modelsAsked answer =>
    simp only [step]
    split_ifs with hsetUp
    · cases hmodels : Client.checkModels answer with
      | error err => exact ⟨rfl, le_rfl, id, fun _ => rfl⟩
      | ok models => exact absurd ⟨hsetUp, .inr ⟨answer, models, rfl, hmodels⟩⟩ h
    · exact ⟨rfl, le_rfl, id, fun _ => rfl⟩
  | mcpAdded _ | mcpUpdated _ _ | mcpStateChanged _ | mcpRemoved _ => exact step_unchanged hchange

theorem step_fails (h : Fails w e) : step w e = w := by
  cases e with
  | modelsAsked answer =>
    obtain ⟨hsetUp, err, herr⟩ := h
    simp only [step, if_pos hsetUp, herr]
  | asyncSetup | attemptEnded => cases h
  | mcpAdded _ | mcpUpdated _ _ | mcpStateChanged _ | mcpRemoved _ => cases h

theorem warned_kept {w' : World} (h : Kept w w') (hsetUp : w.setUp = true) (hwarned : Warned w) :
    Warned w' :=
  (warned_congr (h.mcp hsetUp) h.issues).mpr hwarned

end Check

/-! ## Every run -/

section Runs

variable {es : List Event} {e : Event} {w : World}

theorem checked_concat : Checked (es ++ [e]) ↔ Checked es ∨ Checks (Runs.run step start es) e := by
  constructor
  · intro h
    obtain ⟨pre, f, hpre, hchecks⟩ := h
    rcases List.prefix_concat_iff.mp hpre with heq | hpre
    · obtain ⟨rfl, rfl⟩ := List.append_singleton_inj.mp heq
      exact .inr hchecks
    · exact .inl ⟨pre, f, hpre, hchecks⟩
  · intro h
    rcases h with ⟨pre, f, hpre, hchecks⟩ | hchecks
    · exact ⟨pre, f, hpre.trans (List.prefix_append es [e]), hchecks⟩
    · exact ⟨es, e, List.prefix_rfl, hchecks⟩

/-- Nothing is said before the first check, and what is said from then on is right. -/
structure Settled (es : List Event) (w : World) : Prop where
  setUp : Checked es → w.setUp = true
  warned : Checked es → Warned w
  silent : ¬ Checked es → ¬ Open w
  attempts : 0 < w.attempts → Checked es

theorem settled_start : Settled [] start := by
  have hnone : ¬ Checked [] := by
    intro h
    obtain ⟨pre, e, hpre, -⟩ := h
    simp at hpre
  exact ⟨fun h => absurd h hnone, fun h => absurd h hnone, fun _ => Finset.notMem_empty _,
    fun h => absurd h (by decide)⟩

theorem settled_step (h : Settled es (Runs.run step start es)) (e : Event) :
    Settled (es ++ [e]) (step (Runs.run step start es) e) := by
  by_cases hchecks : Checks (Runs.run step start es) e
  · have hchecked : Checked (es ++ [e]) := checked_concat.mpr (.inr hchecks)
    obtain ⟨hsetUp, hwarned⟩ := step_checks hchecks
    exact ⟨fun _ => hsetUp, fun _ => hwarned, fun hnone => absurd hchecked hnone,
      fun _ => hchecked⟩
  · have hkept := step_kept hchecks
    have hchecked : Checked (es ++ [e]) ↔ Checked es := by
      rw [checked_concat, or_iff_left hchecks]
    constructor
    · intro hold
      exact hkept.setUp (h.setUp (hchecked.mp hold))
    · intro hold
      exact warned_kept hkept (h.setUp (hchecked.mp hold)) (h.warned (hchecked.mp hold))
    · intro hnone
      rw [Open, hkept.issues]
      exact h.silent (hchecked.not.mp hnone)
    · intro hattempts
      exact hchecked.mpr (h.attempts (hattempts.trans_le hkept.attempts))

theorem settled_run (es : List Event) : Settled es (Runs.run step start es) := by
  induction es using List.reverseRecOn with
  | nil => exact settled_start
  | append_singleton es e ih =>
    rw [Runs.run_concat]
    exact settled_step ih e

theorem warned_iff_of_settled (h : Settled es w) : Warned w ↔ Checked es ∨ ¬ Bypassed w := by
  by_cases hchecked : Checked es
  · simp only [h.warned hchecked, hchecked, true_or]
  · simp only [Warned, h.silent hchecked, hchecked, false_iff, false_or]

theorem reports_iff (h : Settled es (Runs.run step start es)) (e : Event) :
    Reports (Runs.run step start es) e ↔ (Fails (Runs.run step start es) e →
      Checked es ∨ ¬ Bypassed (Runs.run step start es)) := by
  rw [← warned_iff_of_settled h]
  constructor
  · intro hreports hfails
    have hwarned := hreports (.inr (.inl hfails))
    rwa [step_fails hfails] at hwarned
  · intro hwarned hdue
    rcases hdue with ⟨hsetUp, hchange⟩ | hfails | ⟨rfl, hattempts⟩
    · exact (step_checks ⟨hsetUp, .inl hchange⟩).2
    · rw [step_fails hfails]
      exact hwarned hfails
    · exact (warned_congr rfl rfl).mpr (h.warned (h.attempts hattempts))

/-- A setup that fails to list the models is the only one that says nothing; it does no harm
once the check has run, or while no entry bypasses the boundary. -/
theorem reports_throughout_iff (es : List Event) :
    Runs.Guarded step Reports start es ↔
      ∀ pre e, pre ++ [e] <+: es → Fails (Runs.run step start pre) e →
        Checked pre ∨ ¬ Bypassed (Runs.run step start pre) := by
  rw [Runs.guarded_iff_prefix]
  exact forall_congr' fun pre => forall_congr' fun e => forall_congr' fun _ =>
    reports_iff (settled_run pre) e

def assistEntry : McpEntry := ⟨"01MCP", .many ["assist"] (by decide)⟩

theorem not_reports_gateway_down : ¬ ∀ es, Runs.Guarded step Reports start es := by
  intro h
  have hdown := h [.mcpAdded assistEntry, .asyncSetup,
    .modelsAsked (.failed (.clientError "ClientConnectorError" "Cannot connect to host"))]
  have hwarned := hdown.2.2.1 (.inr (.inl ⟨rfl, _, rfl⟩))
  have hbypassed : Bypassed ⟨true, [assistEntry], 0, ∅⟩ := bypassed_iff.mpr (by decide)
  exact Finset.notMem_empty _ (hwarned.mpr hbypassed)

end Runs

end HermesConversation.McpCheck
