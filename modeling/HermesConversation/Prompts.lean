import HermesConversation.Library.Lines

/-!
# Shipped prompts

The default prompt and the defaults of earlier releases, which an upgrade replaces.
-/

namespace HermesConversation.Prompts

open Library

def promptLead : List String := [
  Text.join "" [
    "You are the voice of the house at \x7b\x7b ha_name | default('') \x7d\x7d. Your ",
    "reply is spoken aloud, so answer in one or two short plain sentences with no ",
    "lists, markdown, or emoji. Do not narrate what you are doing."],
  Text.join "" [
    "\x7b% if user_name is defined and user_name %\x7dYou are talking to \x7b\x7b ",
    "user_name \x7d\x7d.\x7b% endif %\x7d"],
  Text.join "" [
    "\x7b% if satellite_id is defined and satellite_id %\x7dThe request came from ",
    "\x7b\x7b satellite_name or satellite_id \x7d\x7d\x7b% if area_name %\x7d in the ",
    "\x7b\x7b area_name \x7d\x7d\x7b% endif %\x7d. When a command names no room, assume ",
    "the \x7b\x7b area_name or \"same\" \x7d\x7d area. Send any announcements to ",
    "\x7b\x7b satellite_id \x7d\x7d.\x7b% endif %\x7d"]]

def answerAndAct : String := Text.join "" [
    "Each message starts with the current time. The state of the house is listed at the ",
    "end of these instructions, as of the time shown there; it does not include changes ",
    "since then, even your own. Answer from it directly unless the answer depends on ",
    "something that changes quickly, then check with a tool. To act, call the tool ",
    "without checking state first; its result says what changed. Confirm briefly after ",
    "acting."]

def defaultPrompt : String := Text.join "\n" (promptLead ++ [answerAndAct])

def unguardedLead : List String := [
  Text.join "" [
    "You are the voice of the house at \x7b\x7b ha_name \x7d\x7d. Your reply is spoken ",
    "aloud, so answer in one or two short plain sentences with no lists, markdown, or ",
    "emoji. Do not narrate what you are doing."],
  Text.join "" [
    "\x7b% if user_name %\x7dYou are talking to \x7b\x7b user_name \x7d\x7d.\x7b% endif ",
    "%\x7d"],
  Text.join "" [
    "\x7b% if satellite_id %\x7dThe request came from \x7b\x7b satellite_name or ",
    "satellite_id \x7d\x7d\x7b% if area_name %\x7d in the \x7b\x7b area_name ",
    "\x7d\x7d\x7b% endif %\x7d. When a command names no room, assume the \x7b\x7b ",
    "area_name or \"same\" \x7d\x7d area. Send any announcements to \x7b\x7b ",
    "satellite_id \x7d\x7d.\x7b% endif %\x7d"]]

def checkWithTools : String := Text.join "" [
    "Use the Home Assistant tools to check state before answering questions about the ",
    "house, and confirm briefly after acting."]

def promptBeforeHouseState : String := Text.join "\n" (unguardedLead ++ [checkWithTools])

def answerFromBlock : String := Text.join "" [
    "The current time and the state of the house are listed at the end of these ",
    "instructions. Answer from them directly. Call tools only to act or when what you ",
    "need is not listed, and confirm briefly after acting."]

def promptBeforeGuards : String := Text.join "\n" (unguardedLead ++ [answerFromBlock])

def promptBeforeSnapshot : String := Text.join "\n" (promptLead ++ [answerFromBlock])

def answerFromSnapshot : String := Text.join "" [
    "Each message starts with the current time. The state of the house is listed at the ",
    "end of these instructions, as of the time shown there. Answer from it directly ",
    "unless the answer depends on something that changes quickly, then check with a ",
    "tool. Call tools to act, and confirm briefly after acting."]

def promptBeforeDirectAction : String := Text.join "\n" (promptLead ++ [answerFromSnapshot])

def supersededPrompts : List String :=
  [promptBeforeHouseState, promptBeforeGuards, promptBeforeSnapshot, promptBeforeDirectAction]

/-! ## The defaults differ in more than white space -/

theorem ink_text (pieces : List String) :
    Text.ink (Text.join "" pieces) = (pieces.map Text.ink).flatten :=
  Text.ink_join (by decide) pieces

theorem inkLength_pieces :
    [promptLead, unguardedLead, [checkWithTools], [answerFromBlock], [answerFromSnapshot],
      [answerAndAct]].map Text.inkLength = [483, 426, 103, 171, 247, 342] := by
  simp only [List.map, Text.inkLength, promptLead, unguardedLead, checkWithTools,
    answerFromBlock, answerFromSnapshot, answerAndAct]
  repeat rewrite [ink_text]
  simp only [List.map]
  -- A literal is the list of its characters; decoding it would be far slower.
  repeat rewrite [Text.ink_ofList]
  decide +kernel

theorem length_ink_prompt (pieces : List String) :
    (Text.ink (Text.join "\n" pieces)).length = Text.inkLength pieces :=
  Text.length_ink_join (by decide) pieces

theorem length_ink_superseded :
    supersededPrompts.map (fun old => (Text.ink old).length) = [529, 597, 654, 730] := by
  have hpieces := inkLength_pieces
  simp only [List.map, List.cons.injEq, and_true] at hpieces
  simp only [supersededPrompts, promptBeforeHouseState, promptBeforeGuards, promptBeforeSnapshot,
    promptBeforeDirectAction, List.map, length_ink_prompt, Text.inkLength_append, hpieces]

theorem length_ink_defaultPrompt : (Text.ink defaultPrompt).length = 825 := by
  have hpieces := inkLength_pieces
  simp only [List.map, List.cons.injEq, and_true] at hpieces
  simp only [defaultPrompt, length_ink_prompt, Text.inkLength_append, hpieces]

theorem defaultPrompt_not_superseded {old : String} (hold : old ∈ supersededPrompts) :
    Text.words defaultPrompt ≠ Text.words old := by
  apply Text.words_ne_of_ink
  intro hink
  have hmem : 825 ∈ supersededPrompts.map fun old => (Text.ink old).length :=
    List.mem_map.mpr ⟨old, hold, by rw [← hink, length_ink_defaultPrompt]⟩
  rw [length_ink_superseded] at hmem
  revert hmem
  decide

theorem defaultPrompt_ne_empty : defaultPrompt ≠ "" := by
  intro h
  have hlength := length_ink_defaultPrompt
  rw [h] at hlength
  revert hlength
  decide

theorem flush_defaultPrompt : Lines.Flush defaultPrompt := by
  rw [defaultPrompt, promptLead, List.cons_append]
  apply Lines.Flush.join_cons
  · exact Lines.Flush.join_cons (by decide) (by decide) _ _
  · rw [Text.join_empty_cons]
    simp [String.append_eq_empty_iff]

theorem answerAndAct_end : ∃ front, answerAndAct = front ++ "acting." :=
  ⟨_, Text.join_concat "" _ "acting." [_, _, _, _]⟩

theorem defaultPrompt_end :
    defaultPrompt.toList.rdropWhile Text.isSpace = defaultPrompt.toList := by
  obtain ⟨front, hfront⟩ := answerAndAct_end
  rw [defaultPrompt, promptLead, List.cons_append, Text.join_concat, hfront,
    ← String.append_assoc, String.toList_append]
  exact Text.rdropWhile_append_of_ne_nil (by decide) (by decide)

/-- A selector of templates strips what it is given, and would leave the default as it is. -/
theorem trim_defaultPrompt : Text.trim defaultPrompt = defaultPrompt :=
  Lines.trim_eq_self flush_defaultPrompt defaultPrompt_end

end HermesConversation.Prompts
