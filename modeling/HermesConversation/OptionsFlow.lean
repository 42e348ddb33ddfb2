import HermesConversation.SetupRuns

/-!
# Choosing a user

The form that names the user of an entry, from the users it offers when it is shown to what is
stored when it is submitted. Anything may happen to the users and the entries in between, and any
number of forms may be open.
-/

namespace HermesConversation.OptionsFlow

open Library RestrictedGroup UserSync Setup

/-- The values the selector takes, and the one the form opens with, if any is suggested. -/
structure Form where
  entryId : String
  choices : List String
  suggested : Option String

def choices (hass : Hass) : List String :=
  noUser :: (hass.store.users.filter fun user => manageable user).map User.id

def asyncStepInit (hass : Hass) (entry : ConfigEntry) : Form :=
  let current := entry.hermesUser.getD noUser
  ⟨entry.entryId, choices hass, if current ∈ choices hass then some current else none⟩

structure World where
  setup : Setup.World
  forms : List Form

/-- Options change through a form and in no other way; a form takes no other value than it has
offered. -/
inductive Event where
  | goesOn (e : Setup.Event)
  | opened (entryId : String)
  | submitted (i : ℕ) (value : String)

def setsOptions : Setup.Event → Bool
  | .hermes (.setOptions _ _) => true
  | _ => false

def hassOf (w : World) : Hass := w.setup.sync.hass

def step (w : World) : Event → World
  | .goesOn e => if setsOptions e then w else { w with setup := Setup.step w.setup e }
  | .opened id =>
    match Membership.findEntry (hassOf w) id with
    | none => w
    | some entry => { w with forms := w.forms ++ [asyncStepInit (hassOf w) entry] }
  | .submitted i value =>
    match w.forms[i]? with
    | none => w
    | some form =>
      if value ∈ form.choices then
        ⟨Setup.step w.setup (.hermes (.setOptions form.entryId (some value))), w.forms.eraseIdx i⟩
      else w

/-! ## Who may be chosen -/

def ManageableNow (w : World) (userId : String) : Prop :=
  ∃ user ∈ (hassOf w).store.users, user.id = userId ∧ manageable user = true

def ManageableOnce (w : World) (es : List Event) (userId : String) : Prop :=
  ∃ pre, pre <+: es ∧ ManageableNow (Runs.run step w pre) userId

structure Vetted (start : World) (es : List Event) (w : World) : Prop where
  chosen : ∀ userId ∈ wanted (hassOf w).entries, ManageableOnce start es userId
  offered : ∀ form ∈ w.forms, ∀ userId ∈ form.choices, userId ≠ noUser →
    ManageableOnce start es userId

section Vetted

variable {w start : World} {es : List Event} {userId : String}

theorem mem_choices {hass : Hass} (h : userId ∈ choices hass) (hne : userId ≠ noUser) :
    ∃ user ∈ hass.store.users, user.id = userId ∧ manageable user = true := by
  rcases List.mem_cons.mp h with hnone | hmem
  · exact absurd hnone hne
  · obtain ⟨user, huser, hid⟩ := List.mem_map.mp hmem
    obtain ⟨huser, hmanageable⟩ := List.mem_filter.mp huser
    exact ⟨user, huser, hid, hmanageable⟩

theorem ManageableOnce.later (h : ManageableOnce start es userId) (e : Event) :
    ManageableOnce start (es ++ [e]) userId := by
  obtain ⟨pre, hpre, hnow⟩ := h
  exact ⟨pre, hpre.trans (List.prefix_append es [e]), hnow⟩

theorem wanted_updateEntry {hass : Hass} {id : String} {f : ConfigEntry → ConfigEntry}
    (h : userId ∈ wanted (Membership.updateEntry hass id f).entries) :
    userId ∈ wanted hass.entries ∨ ∃ entry ∈ hass.entries, wantedUser (f entry) = some userId := by
  obtain ⟨entry, hentry, hwanted⟩ := List.mem_filterMap.mp h
  obtain ⟨entry, hmem, rfl⟩ := List.mem_map.mp hentry
  split_ifs at hwanted
  · exact .inr ⟨entry, hmem, hwanted⟩
  · exact .inl (List.mem_filterMap.mpr ⟨entry, hmem, hwanted⟩)

theorem wanted_sync (hass : Hass) : wanted (asyncSyncUsers hass).entries = wanted hass.entries := by
  rw [asyncSyncUsers_entries]

theorem mem_wanted_step {s : Membership.World} {e : Membership.Event}
    (h : userId ∈ wanted (Membership.step s e).hass.entries) :
    userId ∈ wanted s.hass.entries ∨ ∃ id, e = .setOptions id (some userId) := by
  revert h
  refine Membership.step_of_change (P := fun hass => userId ∈ wanted hass.entries →
    userId ∈ wanted s.hass.entries ∨ ∃ id, e = .setOptions id (some userId))
    fun hass hchange h => ?_
  cases hchange with
  | same | edited _ _ _ _ | deleted _ _ => exact .inl h
  | synced => exact .inl (wanted_sync s.hass ▸ h)
  | loaded id loaded => exact .inl (Membership.wanted_setLoaded s.hass id loaded ▸ h)
  | setUp id loaded =>
    rw [Membership.wanted_setLoaded, wanted_sync] at h
    exact .inl h
  | added _ => exact .inl (Membership.wanted_addEntry s.hass.entries ▸ h)
  | chosen id hermesUser event =>
    refine (wanted_updateEntry h).imp_right fun hchosen => ?_
    obtain ⟨entry, -, hchosen⟩ := hchosen
    obtain ⟨hstored, -⟩ := Option.filter_eq_some_iff.mp hchosen
    exact ⟨id, by rw [event, ← hstored]⟩
  | removed _ _ _ =>
    obtain ⟨entry, hentry, hwanted⟩ := List.mem_filterMap.mp h
    exact .inl (List.mem_filterMap.mpr ⟨entry, (List.mem_filter.mp hentry).1, hwanted⟩)

theorem mem_wanted_setup {s : Setup.World} {e : Setup.Event}
    (h : userId ∈ wanted (Setup.step s e).sync.hass.entries) :
    userId ∈ wanted s.sync.hass.entries ∨
      ∃ id, e = .hermes (.setOptions id (some userId)) := by
  have hview := syncView.step_invariant (s := s) (e := e) (P := fun t =>
    userId ∈ wanted t.hass.entries → userId ∈ wanted s.sync.hass.entries ∨
      ∃ id, e = .hermes (.setOptions id (some userId))) ?_ .inl
  · exact hview h
  intro t d hd ht hwanted
  rcases mem_wanted_step hwanted with hbefore | ⟨id, rfl⟩
  · exact ht hbefore
  · rcases syncEvents_cases hd with rfl | ⟨_, hends⟩ | ⟨_, _, hends⟩
    · exact .inr ⟨id, rfl⟩
    · cases hends
    · cases hends

theorem ne_noUser_of_wanted {entries : List ConfigEntry} (h : userId ∈ wanted entries) :
    userId ≠ noUser := by
  obtain ⟨entry, -, hwanted⟩ := List.mem_filterMap.mp h
  exact of_decide_eq_true (Option.filter_eq_some_iff.mp hwanted).2

theorem vetted_step (h : Vetted start es (Runs.run step start es)) (e : Event) :
    Vetted start (es ++ [e]) (step (Runs.run step start es) e) := by
  obtain ⟨w, hw⟩ : ∃ w, Runs.run step start es = w := ⟨_, rfl⟩
  rw [hw] at h ⊢
  have hkept : Vetted start (es ++ [e]) w :=
    ⟨fun userId hwanted => (h.chosen userId hwanted).later e,
      fun form hform userId hoffered hne => (h.offered form hform userId hoffered hne).later e⟩
  cases e with
  | goesOn e =>
    rw [step]
    split_ifs with hsets
    · exact hkept
    · refine ⟨fun userId hwanted => ?_, hkept.offered⟩
      rcases mem_wanted_setup hwanted with hold | ⟨id, rfl⟩
      · exact hkept.chosen userId hold
      · exact absurd rfl hsets
  | opened id =>
    rw [step]
    split
    · exact hkept
    · refine ⟨hkept.chosen, fun form hform userId hoffered hne => ?_⟩
      rcases List.mem_append.mp hform with hform | hform
      · exact hkept.offered form hform userId hoffered hne
      · obtain rfl := List.mem_singleton.mp hform
        refine ⟨es, List.prefix_append es _, ?_⟩
        rw [hw]
        exact mem_choices hoffered hne
  | submitted i value =>
    rw [step]
    split
    · exact hkept
    · next form hform =>
      split_ifs with hoffered
      · constructor
        · intro userId hwanted
          rcases mem_wanted_setup hwanted with hold | ⟨id, hset⟩
          · exact hkept.chosen userId hold
          · obtain ⟨-, rfl⟩ : form.entryId = id ∧ value = userId := by simpa using hset
            exact hkept.offered form (List.mem_of_getElem? hform) value hoffered
              (ne_noUser_of_wanted hwanted)
        · intro other hother
          exact hkept.offered other (List.mem_of_mem_eraseIdx hother)
      · exact hkept

/-- However forms, changes of users, setups and syncs interleave, an entry only ever names a user
who could be managed at some moment of the run: the one its form was shown at. -/
theorem chosen_was_manageable (start : World) (hforms : start.forms = [])
    (hnobody : wanted (hassOf start).entries = []) (es : List Event) :
    ∀ userId ∈ wanted (hassOf (Runs.run step start es)).entries,
      ManageableOnce start es userId := by
  have hvetted : Vetted start es (Runs.run step start es) := by
    induction es using List.reverseRecOn with
    | nil =>
      refine ⟨fun userId hwanted => ?_, fun form hform => ?_⟩
      · rw [Runs.run_nil, hnobody] at hwanted
        cases hwanted
      · rw [Runs.run_nil, hforms] at hform
        cases hform
    | append_singleton es e ih =>
      rw [Runs.run_concat]
      exact vetted_step ih e
  exact hvetted.chosen

theorem chosen_was_manageable_deactivated :
    ManageableOnce ⟨retrySetup, []⟩ [.opened "hub",
      .goesOn (.hermes (.editUser "ada" (some false) none)), .submitted 0 "ada"] "ada" :=
  chosen_was_manageable ⟨retrySetup, []⟩ rfl (by decide) _ "ada" (by decide)

end Vetted

/-! ## Managing a user can be undone -/

def Plain (userId : String) (hass : Hass) : Prop :=
  ∀ user ∈ hass.store.users, user.id = userId →
    user.groups = [groupIdUser] ∨ user.groups = [groupId]

def LeavesGroups (userId : String) : Setup.Event → Prop
  | .hermes (.editUser id _ (some _)) => id ≠ userId
  | _ => True

/-- While nothing is pending, a user who can be managed is in the restricted group alone if an
entry names it, and one that no entry names is in the Users group alone, as before. -/
def Reversible (userId : String) (w : Setup.World) : Prop :=
  Quiet w → ∀ user ∈ w.sync.hass.store.users, user.id = userId →
    (userId ∈ wanted w.sync.hass.entries → manageable user = true → user.groups = [groupId]) ∧
      (userId ∉ wanted w.sync.hass.entries → user.groups = [groupIdUser])

section Reversible

variable {hass : Hass} {userId : String}

theorem Plain.sync (h : Plain userId hass) (hwell : Membership.WellFormed hass) :
    Plain userId (asyncSyncUsers hass) := by
  intro user huser hid
  rw [hwell.store_sync] at huser
  obtain ⟨before, hbefore, rfl⟩ := List.mem_map.mp huser
  rw [synced_id] at hid
  rw [synced]
  split_ifs
  · exact .inr rfl
  · exact h before hbefore hid
  · exact .inl rfl
  · exact h before hbefore hid

theorem Plain.updateUser (h : Plain userId hass) {id : String} {isActive : Option Bool}
    {groups : Option (List String)} (he : groups = none ∨ id ≠ userId) :
    Plain userId (Membership.updateUser hass id isActive groups) := by
  intro user huser hid
  obtain ⟨before, hbefore, rfl⟩ := List.mem_map.mp huser
  split_ifs at hid ⊢ with hedited
  · rcases he with rfl | hother
    · exact h before hbefore hid
    · exact absurd (hedited.symm.trans hid) hother
  · exact h before hbefore hid

theorem Plain.step {s : Membership.World} (h : Plain userId s.hass)
    (hwell : Membership.WellFormed s.hass) {e : Membership.Event}
    (he : LeavesGroups userId (.hermes e)) : Plain userId (Membership.step s e).hass := by
  refine Membership.step_of_change (P := Plain userId) fun hass hchange => ?_
  cases hchange with
  | same | loaded _ _ | added _ | chosen _ _ _ | removed _ _ _ => exact h
  | synced | setUp _ _ => exact h.sync hwell
  | edited id isActive groups event =>
    rw [event] at he
    apply h.updateUser
    cases groups with
    | none => exact .inl rfl
    | some groups => exact .inr he
  | deleted _ _ => exact fun user huser hid => h user (List.mem_filter.mp huser).1 hid

theorem Plain.setup {w : Setup.World} (h : Plain userId w.sync.hass)
    (hwell : Membership.WellFormed w.sync.hass) {e : Setup.Event} (he : LeavesGroups userId e) :
    Plain userId (Setup.step w e).sync.hass := by
  have hview := syncView.step_invariant (s := w) (e := e) (P := fun t =>
    Membership.WellFormed t.hass ∧ Plain userId t.hass) ?_ ⟨hwell.congr rfl, h⟩
  · exact hview.2
  intro t d hd ht
  have hleaves : LeavesGroups userId (.hermes d) := by
    rcases syncEvents_cases hd with rfl | ⟨_, rfl⟩ | ⟨_, _, rfl⟩
    · exact he
    · trivial
    · trivial
  exact ⟨Membership.wellFormed_step ht.1 d, ht.2.step ht.1 hleaves⟩

/-- Over whole runs a user who began in the Users group alone is moved between that group and
the restricted one and nowhere else, and is back whenever nobody names it any more. -/
theorem management_reversible (w : Setup.World) (h : Sound w) (hsettled : Settled w)
    (userId : String) (hplain : Plain userId w.sync.hass) (es : List Setup.Event)
    (hes : Runs.Guarded Setup.step (fun w e => KeepsSettled w e ∧ LeavesGroups userId e) w es) :
    Runs.Throughout Setup.step (fun w => Plain userId w.sync.hass ∧ Reversible userId w) w es := by
  have hstep : ∀ w e, (Sound w ∧ Settled w ∧ Plain userId w.sync.hass) →
      (KeepsSettled w e ∧ LeavesGroups userId e) →
      Sound (Setup.step w e) ∧ Settled (Setup.step w e) ∧
        Plain userId (Setup.step w e).sync.hass := by
    intro w e hw he
    obtain ⟨hsound, hsettled, hplain⟩ := hw
    exact ⟨sound_step hsound e, (settled_step_iff hsound hsettled e).mpr he.1,
      hplain.setup hsound.wellFormed he.2⟩
  refine Runs.Throughout.imp ?_ (Runs.throughout_of_guarded hstep ⟨h, hsettled, hplain⟩ hes)
  intro w hw
  obtain ⟨-, hsettled, hplain⟩ := hw
  refine ⟨hplain, fun hquiet user huser hid => ?_⟩
  have hright := hsettled hquiet user huser
  rw [hid] at hright
  refine ⟨hright.1, fun hunwanted => (hplain user huser hid).resolve_right fun hmember => ?_⟩
  apply hright.2 hunwanted
  rw [hmember]
  exact List.mem_singleton_self groupId

theorem plain_retrySetup : Plain "ada" retrySetup.sync.hass := by
  intro user huser _
  obtain rfl := List.mem_singleton.mp huser
  exact .inl rfl

def chosenAndDropped : List Setup.Event :=
  [.modelsListed "hub" noModels, .hermes (.setOptions "hub" (some "ada")),
    .probed "hub" (.answered httpNotFound) true, .hermes (.setOptions "hub" (some noUser)),
    .hermes .runTask]

theorem guarded_chosenAndDropped :
    Runs.Guarded Setup.step (fun w e => KeepsSettled w e ∧ LeavesGroups "ada" e) retrySetup
      chosenAndDropped := by
  refine ⟨⟨trivial, trivial⟩, ⟨fun hidle => absurd hidle (by decide), trivial⟩,
    ⟨trivial, trivial⟩, ⟨?_, trivial⟩, ⟨fun _ => trivial, trivial⟩, trivial⟩
  -- By now the entry is loaded.
  intro _ entry hfound _ hunloaded _
  have hloaded : entry.loaded = true := by
    rw [← Option.some.inj hfound]
    rfl
  rw [hloaded] at hunloaded
  cases hunloaded

theorem management_reversible_retry :
    Runs.Throughout Setup.step (fun w => Plain "ada" w.sync.hass ∧ Reversible "ada" w) retrySetup
      chosenAndDropped :=
  management_reversible retrySetup sound_retrySetup settled_retrySetup "ada" plain_retrySetup
    chosenAndDropped guarded_chosenAndDropped

end Reversible

end HermesConversation.OptionsFlow
