import HermesConversation.Library.Text

/-!
# Lines of a text

`str.splitlines`, which joining by line feeds undoes for lines that hold no boundary.
-/

namespace HermesConversation.Library.Lines

open Text

/-- The line boundaries of `str.splitlines`. -/
def isBoundary (c : Char) : Bool :=
  let n := c.toNat
  (0x0A ≤ n && n ≤ 0x0D) || (0x1C ≤ n && n ≤ 0x1E) || n = 0x85 || n = 0x2028 || n = 0x2029

def splitChars : List Char → List (List Char)
  | [] => []
  | '\r' :: '\n' :: rest => [] :: splitChars rest
  | c :: rest =>
    if isBoundary c then [] :: splitChars rest
    else
      match splitChars rest with
      | [] => [[c]]
      | line :: lines => (c :: line) :: lines

def splitLines (s : String) : List String := (splitChars s.toList).map String.ofList

def SingleLine (s : String) : Prop := ∀ c ∈ s.toList, isBoundary c = false

/-- No white space in front; the empty text has none. -/
def Flush (s : String) : Prop := ∀ c ∈ s.toList.head?, isSpace c = false

instance (s : String) : Decidable (SingleLine s) :=
  decidable_of_iff (s.toList.all (!isBoundary ·) = true) (by simp [SingleLine])

instance (s : String) : Decidable (Flush s) :=
  decidable_of_iff (s.toList.head?.all (!isSpace ·) = true) (by simp [Flush, Option.all_eq_true])

/-! ## Splitting -/

section Split

variable {c : Char} {line rest : List Char}

theorem splitChars_cons_of_boundary_false (hc : isBoundary c = false) (rest : List Char) :
    splitChars (c :: rest) =
      match splitChars rest with
      | [] => [[c]]
      | line :: lines => (c :: line) :: lines := by
  have hreturn : c ≠ '\r' := by
    intro h
    rw [h] at hc
    revert hc
    decide
  rw [splitChars, hc]
  · rfl
  · intro _ h _
    exact hreturn h

theorem splitChars_feed (rest : List Char) : splitChars ('\n' :: rest) = [] :: splitChars rest := by
  rw [splitChars]
  · rfl
  · intro _ h _
    revert h
    decide

theorem splitChars_append_feed (h : ∀ c ∈ line, isBoundary c = false) (rest : List Char) :
    splitChars (line ++ '\n' :: rest) = line :: splitChars rest := by
  induction line with
  | nil => exact splitChars_feed rest
  | cons c line ih =>
    obtain ⟨hc, hline⟩ := List.forall_mem_cons.mp h
    rw [List.cons_append, splitChars_cons_of_boundary_false hc, ih hline]

theorem splitChars_of_singleLine (hne : line ≠ []) (h : ∀ c ∈ line, isBoundary c = false) :
    splitChars line = [line] := by
  induction line with
  | nil => exact absurd rfl hne
  | cons c line ih =>
    obtain ⟨hc, hline⟩ := List.forall_mem_cons.mp h
    rw [splitChars_cons_of_boundary_false hc]
    cases line with
    | nil => rfl
    | cons d line => rw [ih (List.cons_ne_nil d line) hline]

end Split

theorem splitLines_join {lines : List String} (hlines : ∀ s ∈ lines, SingleLine s)
    (hlast : ∀ s ∈ lines.getLast?, s ≠ "") : splitLines (join "\n" lines) = lines := by
  induction lines with
  | nil => rfl
  | cons s lines ih =>
    obtain ⟨hs, hlines⟩ := List.forall_mem_cons.mp hlines
    cases lines with
    | nil =>
      have hne : s.toList ≠ [] := by simpa using hlast
      rw [join, String.intercalate_singleton, splitLines, splitChars_of_singleLine hne hs]
      simp
    | cons t lines =>
      have hrest := ih hlines (by simpa using hlast)
      rw [splitLines, join] at hrest ⊢
      rw [String.intercalate_cons_cons]
      have hchars : (s ++ "\n" ++ "\n".intercalate (t :: lines)).toList =
          s.toList ++ '\n' :: ("\n".intercalate (t :: lines)).toList := by
        simp
      rw [hchars, splitChars_append_feed hs, List.map_cons, hrest, String.ofList_toList]

/-! ## Texts that stay on their line -/

section SingleLine

variable {s t : String}

theorem isSpace_of_isBoundary {c : Char} (h : isBoundary c = true) : isSpace c = true := by
  simp only [isBoundary, Bool.or_eq_true, Bool.and_eq_true, decide_eq_true_eq] at h
  simp only [isSpace, Bool.or_eq_true, Bool.and_eq_true, decide_eq_true_eq]
  omega

theorem SingleLine.append (hs : SingleLine s) (ht : SingleLine t) : SingleLine (s ++ t) := by
  intro c hc
  rw [String.toList_append, List.mem_append] at hc
  cases hc with
  | inl hc => exact hs c hc
  | inr hc => exact ht c hc

theorem SingleLine.join {separator : String} (hseparator : SingleLine separator)
    {pieces : List String} (h : ∀ s ∈ pieces, SingleLine s) :
    SingleLine (Text.join separator pieces) := by
  induction pieces with
  | nil =>
    intro c hc
    cases hc
  | cons s pieces ih =>
    obtain ⟨hs, hpieces⟩ := List.forall_mem_cons.mp h
    cases pieces with
    | nil =>
      rw [Text.join, String.intercalate_singleton]
      exact hs
    | cons t pieces =>
      rw [Text.join, String.intercalate_cons_cons]
      exact (hs.append hseparator).append (ih hpieces)

theorem Flush.append (hs : Flush s) (ht : s = "" → Flush t) : Flush (s ++ t) := by
  by_cases hne : s = ""
  · rw [hne, String.empty_append]
    exact ht hne
  · intro c hc
    have hchars : s.toList ≠ [] := by simpa using hne
    rw [String.toList_append, List.head?_append_of_ne_nil _ hchars] at hc
    exact hs c hc

theorem Flush.join_cons (hs : Flush s) (hne : s ≠ "") (separator : String)
    (pieces : List String) : Flush (Text.join separator (s :: pieces)) := by
  rw [Text.join_cons]
  exact hs.append fun h => absurd h hne

theorem singleLine_words (s : String) : SingleLine (join " " (words s)) := by
  apply SingleLine.join (by decide)
  intro w hw c hc
  by_contra hboundary
  have hspace := isSpace_of_isBoundary (Bool.not_eq_false _ ▸ hboundary)
  rw [isSpace_of_mem_words hw hc] at hspace
  cases hspace

theorem flush_words (s : String) : Flush (join " " (words s)) := by
  cases hwords : words s with
  | nil => decide
  | cons w rest =>
    have hw : w ∈ words s := hwords ▸ List.mem_cons_self
    have hflush : Flush w := fun c hc => isSpace_of_mem_words hw (List.mem_of_mem_head? hc)
    have hne : w ≠ "" := by simpa using ne_nil_of_mem_words hw
    exact hflush.join_cons hne " " rest

theorem trim_eq_self (hs : Flush s) (hend : s.toList.rdropWhile isSpace = s.toList) :
    trim s = s := by
  have hfront : s.toList.dropWhile isSpace = s.toList := by
    cases hchars : s.toList with
    | nil => rfl
    | cons c rest =>
      have hc : isSpace c = false := hs c (by rw [hchars]; rfl)
      rw [List.dropWhile_cons_of_neg (by simp [hc])]
  rw [trim, hfront, hend, String.ofList_toList]

end SingleLine

end HermesConversation.Library.Lines
