import HermesConversation.Library.Text

/-!
# Phrases

Squeezing a text puts one separator between its runs and none around them. Trimming what is
squeezed squeezes what is trimmed, so that two texts that differ in their blanks, in what they
are wrapped in and in case are one phrase.
-/

namespace HermesConversation.Library.Phrases

section Squeeze

variable {α : Type*} {space : α → Bool} {separator : α}

/-- The maximal runs of what is not space. -/
def runs (space : α → Bool) (l : List α) : List (List α) := (l.splitOnP space).filter (· ≠ [])

def squeeze (space : α → Bool) (separator : α) (l : List α) : List α :=
  [separator].intercalate (runs space l)

def blank (space trimmed : α → Bool) (c : α) : Bool := space c || trimmed c

/-! ## From the front -/

theorem runs_cons_space {c : α} (hc : space c = true) (l : List α) :
    runs space (c :: l) = runs space l := by
  rw [runs, runs, List.splitOnP_cons_eq_if_modifyHead, if_pos hc]
  exact List.filter_cons_of_neg (by simp)

/-- What comes to the front stays there, next to what was there or one separator ahead of it. -/
theorem squeeze_cons (separator : α) {c : α} (hc : space c = false) (l : List α) :
    ∃ between, (between = [] ∨ between = [separator]) ∧
      squeeze space separator (c :: l) = c :: (between ++ squeeze space separator l) := by
  obtain ⟨head, rest, hsplit⟩ := List.exists_cons_of_ne_nil (List.splitOnP_ne_nil space l)
  have hruns : runs space (c :: l) = (c :: head) :: rest.filter (· ≠ []) := by
    rw [runs, List.splitOnP_cons_eq_if_modifyHead, hc, hsplit]
    exact List.filter_cons_of_pos (by simp)
  rw [squeeze, squeeze, hruns, runs, hsplit]
  cases head with
  | nil =>
    rw [List.filter_cons_of_neg (by simp)]
    cases rest.filter (· ≠ []) with
    | nil => exact ⟨[], .inl rfl, by simp⟩
    | cons next others => exact ⟨[separator], .inr rfl, by simp⟩
  | cons d head =>
    rw [List.filter_cons_of_pos (by simp)]
    exact ⟨[], .inl rfl, List.intercalate_cons_cons_left⟩

theorem dropWhile_squeeze (trimmed : α → Bool) (hseparator : trimmed separator = true)
    (l : List α) :
    (squeeze space separator l).dropWhile trimmed =
      squeeze space separator (l.dropWhile (blank space trimmed)) := by
  induction l with
  | nil => rfl
  | cons c l ih =>
    cases hspace : space c with
    | true =>
      have hblank : blank space trimmed c = true := by rw [blank, hspace, Bool.true_or]
      rw [List.dropWhile_cons_of_pos hblank, ← ih, squeeze, runs_cons_space hspace, squeeze]
    | false =>
      obtain ⟨between, hbetween, hcons⟩ := squeeze_cons separator hspace l
      have hblank : blank space trimmed c = trimmed c := by rw [blank, hspace, Bool.false_or]
      cases htrimmed : trimmed c with
      | true =>
        rw [List.dropWhile_cons_of_pos (hblank.trans htrimmed), ← ih, hcons,
          List.dropWhile_cons_of_pos htrimmed]
        apply List.dropWhile_append_of_pos
        intro d hd
        rcases hbetween with rfl | rfl
        · cases hd
        · exact List.mem_singleton.mp hd ▸ hseparator
      | false =>
        rw [List.dropWhile_cons_of_neg (by simp [hblank, htrimmed]), hcons,
          List.dropWhile_cons_of_neg (by simp [htrimmed])]

/-! ## From the back -/

theorem splitOnP_reverse (p : α → Bool) (l : List α) :
    l.reverse.splitOnP p = ((l.splitOnP p).map List.reverse).reverse := by
  induction hlength : l.length using Nat.strong_induction_on generalizing l with
  | _ n ih =>
    by_cases hsome : ∃ c ∈ l, p c = true
    · obtain ⟨c, hmem, hc⟩ := hsome
      obtain ⟨front, back, rfl⟩ := List.append_of_mem hmem
      rw [List.length_append, List.length_cons] at hlength
      have hfront := ih front.length (by omega) front rfl
      have hback := ih back.length (by omega) back rfl
      rw [List.reverse_append, List.reverse_cons, List.append_assoc, List.singleton_append,
        List.splitOnP_append_cons _ _ hc, List.splitOnP_append_cons _ _ hc, hfront, hback,
        List.map_append, List.reverse_append]
    · have hnone : ∀ c ∈ l, p c = false := by
        intro c hmem
        by_contra hc
        exact hsome ⟨c, hmem, by simpa using hc⟩
      rw [List.splitOnP_eq_singleton hnone,
        List.splitOnP_eq_singleton fun c hmem => hnone c (List.mem_reverse.mp hmem)]
      rfl

theorem runs_reverse (space : α → Bool) (l : List α) :
    runs space l.reverse = ((runs space l).map List.reverse).reverse := by
  rw [runs, splitOnP_reverse, List.filter_reverse, List.filter_map, runs]
  congr 3
  funext run
  simp

theorem intercalate_concat (separator : List α) (last : List α) {ls : List (List α)}
    (hls : ls ≠ []) :
    separator.intercalate (ls ++ [last]) = separator.intercalate ls ++ separator ++ last := by
  induction ls with
  | nil => exact absurd rfl hls
  | cons l ls ih =>
    cases ls with
    | nil => simp
    | cons next ls =>
      have hrest := ih (List.cons_ne_nil next ls)
      rw [List.cons_append] at hrest ⊢
      rw [List.cons_append, List.intercalate_cons_cons, hrest, List.intercalate_cons_cons]
      simp only [List.append_assoc]

theorem reverse_intercalate (separator : α) (ls : List (List α)) :
    ([separator].intercalate ls).reverse =
      [separator].intercalate (ls.map List.reverse).reverse := by
  induction ls with
  | nil => rfl
  | cons l ls ih =>
    cases ls with
    | nil => simp
    | cons next ls =>
      rw [List.intercalate_cons_cons, List.map_cons, List.reverse_cons,
        intercalate_concat _ _ (by simp), ← ih]
      simp

theorem squeeze_reverse (space : α → Bool) (separator : α) (l : List α) :
    squeeze space separator l.reverse = (squeeze space separator l).reverse := by
  rw [squeeze, runs_reverse, squeeze, reverse_intercalate]

theorem rdropWhile_squeeze (trimmed : α → Bool) (hseparator : trimmed separator = true)
    (l : List α) :
    (squeeze space separator l).rdropWhile trimmed =
      squeeze space separator (l.rdropWhile (blank space trimmed)) := by
  rw [List.rdropWhile, ← squeeze_reverse, dropWhile_squeeze _ hseparator, ← squeeze_reverse,
    List.rdropWhile]

end Squeeze

/-! ## Texts -/

section Texts

open Text

variable {chars : List Char} {s phrase : String}

/-- The text without the white space and the given code points at its ends. -/
def unwrap (chars : List Char) (s : String) : String :=
  String.ofList ((s.toList.dropWhile (blank isSpace (· ∈ chars))).rdropWhile
    (blank isSpace (· ∈ chars)))

theorem toList_join_words (s : String) :
    (join " " (words s)).toList = squeeze isSpace ' ' s.toList := by
  rw [join, String.toList_intercalate, squeeze, runs]
  simp [words, Function.comp_def]

theorem strip_join_words (h : ' ' ∈ chars) (s : String) :
    strip chars (join " " (words s)) = join " " (words (unwrap chars s)) := by
  have hspace : decide (' ' ∈ chars) = true := decide_eq_true h
  rw [strip, toList_join_words, dropWhile_squeeze (· ∈ chars) hspace,
    rdropWhile_squeeze (· ∈ chars) hspace]
  apply String.toList_inj.mp
  rw [String.toList_ofList, toList_join_words, unwrap, String.toList_ofList]

theorem casefold_append (s t : String) : casefold (s ++ t) = casefold s ++ casefold t := by
  rw [casefold, String.toList_append, List.flatMap_append, String.ofList_append, casefold, casefold]

theorem casefold_join (pieces : List String) :
    casefold (join " " pieces) = join " " (pieces.map casefold) := by
  induction pieces with
  | nil => rfl
  | cons s pieces ih =>
    cases pieces with
    | nil => simp [join]
    | cons t pieces =>
      rw [join] at ih ⊢
      rw [String.intercalate_cons_cons, casefold_append, casefold_append, ih]
      simp [join, show casefold " " = " " by decide]

theorem toLower_ne_space {c : Char} (hc : c ≠ ' ') : c.toLower ≠ ' ' := by
  intro hspace
  delta Char.toLower at hspace
  split at hspace
  · rename_i hupper
    have hval := congrArg (fun d : Char => d.val.toNat) hspace
    have hlow : 65 ≤ c.val.toNat := hupper.1
    have hhigh : c.val.toNat ≤ 90 := hupper.2
    have hwrapped : (c.val.toNat + 32) % 2 ^ 32 = 32 := hval
    omega
  · exact hc hspace

theorem space_notMem_foldChar {c : Char} (hc : c ≠ ' ') : ' ' ∉ foldChar c := by
  unfold foldChar
  split
  all_goals try decide
  rw [List.mem_singleton]
  exact (toLower_ne_space hc).symm

theorem space_notMem_casefold (hs : ' ' ∉ s.toList) : ' ' ∉ (casefold s).toList := by
  rw [casefold, String.toList_ofList, List.mem_flatMap]
  rintro ⟨c, hmem, hspace⟩
  exact space_notMem_foldChar (fun hc => hs (hc ▸ hmem)) hspace

theorem space_notMem_word {w : String} (hw : w ∈ words s) : ' ' ∉ w.toList := by
  intro hmem
  have hspace := isSpace_of_mem_words hw hmem
  revert hspace
  decide

theorem join_inj {pieces others : List String} (hpieces : ∀ w ∈ pieces, ' ' ∉ w.toList)
    (hothers : ∀ w ∈ others, ' ' ∉ w.toList) (hne : pieces ≠ []) (hne' : others ≠ []) :
    join " " pieces = join " " others ↔ pieces = others := by
  refine ⟨fun hjoin => ?_, fun heq => heq ▸ rfl⟩
  have hsplit : ∀ {ws : List String}, (∀ w ∈ ws, ' ' ∉ w.toList) → ws ≠ [] →
      (join " " ws).toList.splitOn ' ' = ws.map String.toList := by
    intro ws hws hne
    rw [join, String.toList_intercalate]
    apply List.splitOn_intercalate
    · simpa using hws
    · simpa using hne
  have hlists := congrArg (List.splitOn ' ' ∘ String.toList) hjoin
  rw [Function.comp_apply, Function.comp_apply, hsplit hpieces hne, hsplit hothers hne'] at hlists
  exact List.map_injective_iff.mpr (fun _ _ => String.toList_inj.mp) hlists

/-- A text in which only words are looked for is one of the phrases if its words are. -/
theorem casefold_strip_eq_iff (h : ' ' ∈ chars) (hphrase : join " " (words phrase) = phrase)
    (hne : words phrase ≠ []) :
    casefold (strip chars (join " " (words s))) = phrase ↔
      (words (unwrap chars s)).map casefold = words phrase := by
  rw [strip_join_words h, casefold_join]
  cases hwords : words (unwrap chars s) with
  | nil =>
    refine iff_of_false (fun hempty => ?_) (Ne.symm hne)
    rw [← hempty] at hne
    exact hne (by decide)
  | cons w ws =>
    rw [← hwords]
    conv_lhs => rw [← hphrase]
    apply join_inj
    · intro folded hfolded
      obtain ⟨word, hword, rfl⟩ := List.mem_map.mp hfolded
      exact space_notMem_casefold (space_notMem_word hword)
    · intro word hword
      exact space_notMem_word hword
    · simp [hwords]
    · exact hne

end Texts

end HermesConversation.Library.Phrases
