import Mathlib.Data.List.DropRight
import Mathlib.Tactic.Common

/-!
# Text as Python sees it

The string methods the source calls, by their documented behaviour on code points.
-/

namespace HermesConversation.Library.Text

/-- `str.isspace` on one code point. -/
def isSpace (c : Char) : Bool :=
  let n := c.toNat
  (0x09 ≤ n && n ≤ 0x0D) || (0x1C ≤ n && n ≤ 0x20) || n = 0x85 || n = 0xA0 || n = 0x1680 ||
    (0x2000 ≤ n && n ≤ 0x200A) || n = 0x2028 || n = 0x2029 || n = 0x202F || n = 0x205F ||
    n = 0x3000

/-- `str.split()`: the maximal runs without white space. -/
def words (s : String) : List String :=
  ((s.toList.splitOnP isSpace).filter (· ≠ [])).map String.ofList

def join (separator : String) (pieces : List String) : String := separator.intercalate pieces

def rstrip (chars : List Char) (s : String) : String :=
  String.ofList (s.toList.rdropWhile (· ∈ chars))

def strip (chars : List Char) (s : String) : String :=
  String.ofList ((s.toList.dropWhile (· ∈ chars)).rdropWhile (· ∈ chars))

/-- `str.strip()` without an argument. -/
def trim (s : String) : String :=
  String.ofList ((s.toList.dropWhile isSpace).rdropWhile isSpace)

/-- `s[:limit]` -/
def clip (limit : ℕ) (s : String) : String := String.ofList (s.toList.take limit)

/-- What `str.removeprefix` leaves of a text that does start with the prefix. -/
def afterPrefix (start s : String) : Option String :=
  (s.toList.dropPrefix? start.toList).map String.ofList

/-- `str.partition(c)[0]`. -/
def before (c : Char) (s : String) : String := String.ofList (s.toList.takeWhile (· ≠ c))

/-- The first and the last piece of `str.rpartition(c)`. -/
def rpartition (c : Char) (s : String) : String × String :=
  match s.toList.reverse.dropWhile (· ≠ c) with
  | [] => ("", s)
  | _ :: head => (String.ofList head.reverse, String.ofList (s.toList.rtakeWhile (· ≠ c)))

/-- Full case folding of the code points that fold to ASCII letters; U+212A is the Kelvin sign. -/
def foldChar (c : Char) : List Char :=
  match c with
  | 'ſ' => ['s']
  | '\u212A' => ['k']
  | 'ß' | 'ẞ' => ['s', 's']
  | 'ﬀ' => ['f', 'f']
  | 'ﬁ' => ['f', 'i']
  | 'ﬂ' => ['f', 'l']
  | 'ﬃ' => ['f', 'f', 'i']
  | 'ﬄ' => ['f', 'f', 'l']
  | 'ﬅ' | 'ﬆ' => ['s', 't']
  | c => [c.toLower]

/-- `str.casefold()` as far as equality with an ASCII text is concerned: the code points
that fold to something outside ASCII are left alone. -/
def casefold (s : String) : String := String.ofList (s.toList.flatMap foldChar)

theorem join_empty_cons (s : String) (pieces : List String) :
    join "" (s :: pieces) = s ++ join "" pieces := by
  cases pieces with
  | nil => simp [join]
  | cons t pieces => rw [join, String.intercalate_cons_cons, String.append_empty, join]

theorem join_empty_append (front back : List String) :
    join "" (front ++ back) = join "" front ++ join "" back := by
  induction front with
  | nil => simp [join]
  | cons s front ih =>
    rw [List.cons_append, join_empty_cons, join_empty_cons, ih, String.append_assoc]

/-- Joining puts the separator in front of every piece but the first. -/
theorem join_cons (separator s : String) (pieces : List String) :
    join separator (s :: pieces) = s ++ join "" (pieces.map (separator ++ ·)) := by
  induction pieces generalizing s with
  | nil => simp [join]
  | cons t pieces ih =>
    have hrest := ih t
    rw [join] at hrest ⊢
    rw [String.intercalate_cons_cons, hrest, List.map_cons, join_empty_cons, String.append_assoc,
      String.append_assoc]

theorem join_concat (separator s t : String) (pieces : List String) :
    join separator (s :: (pieces ++ [t])) = join separator (s :: pieces) ++ separator ++ t := by
  rw [join_cons, join_cons, List.map_append, join_empty_append, String.append_assoc,
    String.append_assoc, List.map_singleton]
  simp [join]

theorem append_cons_inj {α : Type*} {c : α} {x y z w : List α} (hx : c ∉ x) (hy : c ∉ y)
    (h : x ++ c :: z = y ++ c :: w) : x = y ∧ z = w := by
  rcases List.append_eq_append_iff.mp h with ⟨l, rfl, hl⟩ | ⟨l, rfl, hl⟩
  · cases l with
    | nil => simpa using hl
    | cons d l =>
      obtain ⟨rfl, -⟩ := List.cons.inj hl
      simp at hy
  · cases l with
    | nil => simpa [eq_comm] using hl
    | cons d l =>
      obtain ⟨rfl, -⟩ := List.cons.inj hl
      simp at hx

theorem rstrip_idempotent (chars : List Char) (s : String) :
    rstrip chars (rstrip chars s) = rstrip chars s := by
  rw [rstrip, rstrip, String.toList_ofList, List.rdropWhile_idempotent]

theorem dropPrefix?_append (start rest : List Char) :
    (start ++ rest).dropPrefix? start = some rest := by
  induction start with
  | nil => simp
  | cons c start ih => simp [List.dropPrefix?, ih]

theorem rdropWhile_of_trim {s : String} (h : trim s = s) :
    s.toList.rdropWhile isSpace = s.toList := by
  have hchars := congrArg String.toList h
  rw [trim, String.toList_ofList] at hchars
  rw [← hchars, List.rdropWhile_idempotent]

theorem rdropWhile_append_of_ne_nil {p : Char → Bool} {front back : List Char} (hne : back ≠ [])
    (h : back.rdropWhile p = back) : (front ++ back).rdropWhile p = front ++ back := by
  rw [List.rdropWhile_eq_self_iff] at h ⊢
  intro _
  rw [List.getLast_append_of_ne_nil _ hne]
  exact h hne

theorem rpartition_append {c : Char} {s t : String} (h : c ∉ t.toList) :
    rpartition c (s ++ String.singleton c ++ t) = (s, t) := by
  have hne : ∀ d ∈ t.toList.reverse, decide (d ≠ c) = true := by
    intro d hd
    rw [decide_eq_true_eq]
    intro hdc
    exact h (hdc ▸ List.mem_reverse.mp hd)
  have hlist : (s ++ String.singleton c ++ t).toList = s.toList ++ c :: t.toList := by simp
  have hdrop : (s ++ String.singleton c ++ t).toList.reverse.dropWhile (· ≠ c) =
      c :: s.toList.reverse := by
    rw [hlist, List.reverse_append, List.reverse_cons, List.append_assoc,
      List.dropWhile_append_of_pos hne]
    simp
  have htake : (s ++ String.singleton c ++ t).toList.rtakeWhile (· ≠ c) = t.toList := by
    rw [hlist, List.rtakeWhile, List.reverse_append, List.reverse_cons, List.append_assoc,
      List.takeWhile_append_of_pos hne]
    simp
  simp only [rpartition, hdrop, htake, List.reverse_reverse, String.ofList_toList]

theorem rpartition_fst_prefix (c : Char) (s : String) :
    (rpartition c s).1.toList <+: s.toList := by
  rw [rpartition]
  cases hrest : s.toList.reverse.dropWhile (· ≠ c) with
  | nil => exact List.nil_prefix
  | cons d head =>
    have hsuffix : d :: head <:+ s.toList.reverse := hrest ▸ List.dropWhile_suffix _
    have hhead : head <:+ s.toList.reverse := (List.suffix_cons d head).trans hsuffix
    dsimp only
    rw [String.toList_ofList, ← List.reverse_suffix, List.reverse_reverse]
    exact hhead

section Ink

def ink (s : String) : List Char := s.toList.filter (!isSpace ·)

theorem ink_ofList (l : List Char) : ink (String.ofList l) = l.filter (!isSpace ·) := by
  rw [ink, String.toList_ofList]

theorem ink_append (s t : String) : ink (s ++ t) = ink s ++ ink t := by
  simp [ink]

theorem ink_join {separator : String} (hsep : ink separator = []) (pieces : List String) :
    ink (join separator pieces) = (pieces.map ink).flatten := by
  induction pieces with
  | nil => simp [join, ink]
  | cons s pieces ih =>
    cases pieces with
    | nil => simp [join]
    | cons t pieces =>
      rw [join, String.intercalate_cons_cons, ink_append, ink_append, hsep, List.append_nil,
        List.map_cons, List.flatten_cons, ← ih, join]

def inkLength (pieces : List String) : ℕ := (pieces.map ink).flatten.length

theorem inkLength_append (pieces more : List String) :
    inkLength (pieces ++ more) = inkLength pieces + inkLength more := by
  simp [inkLength]

theorem length_ink_join {separator : String} (hsep : ink separator = []) (pieces : List String) :
    (ink (join separator pieces)).length = inkLength pieces := by
  rw [ink_join hsep, inkLength]

theorem flatten_splitOnP (p : Char → Bool) (l : List Char) :
    (l.splitOnP p).flatten = l.filter (!p ·) := by
  induction l with
  | nil => rfl
  | cons c l ih =>
    rw [List.splitOnP_cons_eq_if_modifyHead]
    cases hc : p c with
    | true => simpa [hc] using ih
    | false =>
      obtain ⟨head, rest, hsplit⟩ := List.exists_cons_of_ne_nil (List.splitOnP_ne_nil p l)
      rw [hsplit] at ih
      simpa [hsplit, hc] using ih

theorem words_ink (s : String) : ((words s).map String.toList).flatten = ink s := by
  have hwords : (words s).map String.toList = (s.toList.splitOnP isSpace).filter (· ≠ []) := by
    simp [words, Function.comp_def]
  rw [hwords, ink, ← flatten_splitOnP]
  exact List.flatten_filter_ne_nil

theorem words_ne_of_ink {s t : String} (h : ink s ≠ ink t) : words s ≠ words t := by
  intro hwords
  exact h (by rw [← words_ink, ← words_ink, hwords])

end Ink

section Words

variable {s w : String}

theorem ne_nil_of_mem_words (h : w ∈ words s) : w.toList ≠ [] := by
  obtain ⟨chars, hchars, rfl⟩ := List.mem_map.mp h
  rw [String.toList_ofList]
  simpa using (List.mem_filter.mp hchars).2

theorem isSpace_of_mem_words (h : w ∈ words s) {c : Char} (hc : c ∈ w.toList) :
    isSpace c = false := by
  have hflatten : c ∈ ((words s).map String.toList).flatten :=
    List.mem_flatten.mpr ⟨w.toList, List.mem_map_of_mem h, hc⟩
  rw [words_ink] at hflatten
  simpa using (List.mem_filter.mp hflatten).2

end Words

end HermesConversation.Library.Text
