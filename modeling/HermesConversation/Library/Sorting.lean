import Mathlib.Data.List.Sort
import Mathlib.Data.List.TakeWhile
import Mathlib.Order.Defs.LinearOrder

/-!
# Sorting by a key

`sorted(l, key=...)`: stable, so elements of one key stay in the order of the list. What such a
sort makes of a list depends on its order exactly where a key is shared.
-/

namespace HermesConversation.Library.Sorting

variable {α β κ : Type*} [LinearOrder κ] {key : α → κ}

def sortBy (key : α → κ) (l : List α) : List α := l.insertionSort fun a b => key a ≤ key b

instance totalKey : Std.Total fun a b : α => key a ≤ key b := ⟨fun a b => le_total (key a) (key b)⟩

instance transKey : IsTrans α fun a b => key a ≤ key b := ⟨fun _ _ _ => le_trans⟩

theorem perm_sortBy (key : α → κ) (l : List α) : (sortBy key l).Perm l :=
  List.perm_insertionSort _ l

theorem mem_sortBy {l : List α} {a : α} : a ∈ sortBy key l ↔ a ∈ l := (perm_sortBy key l).mem_iff

theorem pairwise_sortBy (key : α → κ) (l : List α) :
    (sortBy key l).Pairwise fun a b => key a ≤ key b :=
  List.pairwise_insertionSort _ l

theorem filter_orderedInsert (p : α → Bool) (a : α) {l : List α}
    (hl : l.Pairwise fun a b => key a ≤ key b) :
    (l.orderedInsert (fun a b => key a ≤ key b) a).filter p =
      if p a then (l.filter p).orderedInsert (fun a b => key a ≤ key b) a else l.filter p := by
  induction l with
  | nil =>
    cases ha : p a <;> simp [ha]
  | cons b l ih =>
    obtain ⟨hb, hl⟩ := List.pairwise_cons.mp hl
    rw [List.orderedInsert_cons]
    split_ifs with hab hpa hpa
    · rw [List.filter_cons_of_pos hpa]
      -- All that is left of the list is at least `b`, so `a` goes in front of it.
      have hle : ∀ c ∈ (b :: l).filter p, key a ≤ key c := by
        intro c hc
        rcases List.mem_cons.mp (List.mem_filter.mp hc).1 with rfl | hc
        · exact hab
        · exact hab.trans (hb c hc)
      cases hrest : (b :: l).filter p with
      | nil => rfl
      | cons c rest =>
        rw [List.orderedInsert_cons_of_le]
        exact hle c (hrest ▸ List.mem_cons_self)
    · rw [List.filter_cons_of_neg hpa]
    · have hrest := ih hl
      rw [if_pos hpa] at hrest
      cases hpb : p b with
      | true =>
        rw [List.filter_cons_of_pos hpb, List.filter_cons_of_pos hpb, hrest,
          List.orderedInsert_cons, if_neg hab]
      | false =>
        have hneg : ¬p b = true := by simp [hpb]
        rw [List.filter_cons_of_neg hneg, List.filter_cons_of_neg hneg, hrest]
    · have hrest := ih hl
      rw [if_neg hpa] at hrest
      rw [List.filter_cons, List.filter_cons, hrest]

/-- Stability: what is selected is sorted as if it were alone. -/
theorem filter_sortBy (p : α → Bool) (l : List α) :
    (sortBy key l).filter p = sortBy key (l.filter p) := by
  induction l with
  | nil => rfl
  | cons a l ih =>
    have hcons : sortBy key (a :: l) =
        (sortBy key l).orderedInsert (fun a b => key a ≤ key b) a := rfl
    rw [hcons, filter_orderedInsert p a (pairwise_sortBy key l), ih]
    cases hpa : p a with
    | true => rw [if_pos rfl, List.filter_cons_of_pos hpa]; rfl
    | false => rw [if_neg (by simp), List.filter_cons_of_neg (by simp [hpa])]

/-- Two elements of one key that come first are neighbours in the sorted list. -/
theorem sortBy_cons_cons (l : List α) {a b : α} (h : key a = key b) :
    ∃ front back, sortBy key (a :: b :: l) = front ++ a :: b :: back ∧
      sortBy key (b :: a :: l) = front ++ b :: a :: back := by
  have hinsert : ∀ {x y : α}, key x = key a → key y = key a → sortBy key (x :: y :: l) =
      ((sortBy key l).takeWhile fun c => ¬key a ≤ key c) ++
        x :: y :: (sortBy key l).dropWhile fun c => ¬key a ≤ key c := by
    intro x y hx hy
    have hcons : sortBy key (x :: y :: l) = ((sortBy key l).orderedInsert
        (fun a b => key a ≤ key b) y).orderedInsert (fun a b => key a ≤ key b) x := rfl
    have hfront : ∀ c ∈ (sortBy key l).takeWhile fun c => ¬key a ≤ key c,
        decide (¬key a ≤ key c) = true := by
      intro c hc
      have hbelow := List.mem_takeWhile_imp hc
      exact hbelow
    rw [hcons, List.orderedInsert_eq_take_drop, List.orderedInsert_eq_take_drop, hx, hy,
      List.takeWhile_append_of_pos hfront, List.dropWhile_append_of_pos hfront]
    simp [hy]
  exact ⟨_, _, hinsert rfl h.symm, hinsert h.symm rfl⟩

/-- Sorted lists with the same members agree on what members of one key have in common. -/
theorem map_eq_of_perm {l l' : List α} {f : α → β} (hperm : l.Perm l')
    (hl : l.Pairwise fun a b => key a ≤ key b) (hl' : l'.Pairwise fun a b => key a ≤ key b)
    (h : ∀ a ∈ l, ∀ b ∈ l, key a = key b → f a = f b) : l.map f = l'.map f := by
  have hpairs : l.map (fun a => (key a, f a)) = l'.map fun a => (key a, f a) := by
    refine @List.Perm.eq_of_pairwise _ (fun p q => p.1 ≤ q.1) _ _ ?_ (List.pairwise_map.mpr hl)
      (List.pairwise_map.mpr hl') (hperm.map _)
    intro p q hp hq hpq hqp
    obtain ⟨a, ha, rfl⟩ := List.mem_map.mp hp
    obtain ⟨b, hb, rfl⟩ := List.mem_map.mp hq
    have hkey : key a = key b := le_antisymm hpq hqp
    exact Prod.ext hkey (h a ha b (hperm.mem_iff.mpr hb) hkey)
  simpa [Function.comp_def] using congrArg (List.map Prod.snd) hpairs

theorem sortBy_eq_of_perm {l l' : List α} (hperm : l.Perm l') (h : Function.Injective key) :
    sortBy key l = sortBy key l' := by
  have hmap := map_eq_of_perm (f := id)
    (((perm_sortBy key l).trans hperm).trans (perm_sortBy key l').symm)
    (pairwise_sortBy key l) (pairwise_sortBy key l') fun a _ b _ hkey => h hkey
  simpa using hmap

theorem exists_perm_cons_cons {l : List α} {a b : α} (ha : a ∈ l) (hb : b ∈ l) (hab : a ≠ b) :
    ∃ rest, l.Perm (a :: b :: rest) := by
  obtain ⟨front, back, rfl⟩ := List.append_of_mem ha
  have hrest : b ∈ front ++ back := by
    rcases List.mem_append.mp hb with hb | hb
    · exact List.mem_append_left _ hb
    · exact List.mem_append_right _ ((List.mem_cons.mp hb).resolve_left (Ne.symm hab))
  obtain ⟨front', back', hsplit⟩ := List.append_of_mem hrest
  refine ⟨front' ++ back', List.perm_middle.trans (List.Perm.cons a ?_)⟩
  rw [hsplit]
  exact List.perm_middle

/-- Whether what is selected of a list comes out the same for every order the list may have. -/
theorem selections_order_free_iff {γ : Type*} [DecidableEq γ] {group : α → γ} {f : α → β}
    {es : List α} :
    (∀ l l', l.Perm es → l'.Perm es → ∀ c, ((sortBy key l).filter (group · = c)).map f =
        ((sortBy key l').filter (group · = c)).map f) ↔
      ∀ a ∈ es, ∀ b ∈ es, key a = key b → group a = group b → f a = f b := by
  constructor
  · intro hfree a ha b hb hkey hgroup
    by_cases hab : a = b
    · rw [hab]
    · obtain ⟨rest, hrest⟩ := exists_perm_cons_cons ha hb hab
      have hsame := hfree (a :: b :: rest) (b :: a :: rest) hrest.symm
        ((List.Perm.swap a b rest).trans hrest.symm) (group a)
      have hselect : ∀ {x y : α}, group x = group a → group y = group a →
          (x :: y :: rest).filter (group · = group a) =
            x :: y :: rest.filter (group · = group a) := by
        intro x y hx hy
        rw [List.filter_cons_of_pos (by simpa using hx),
          List.filter_cons_of_pos (by simpa using hy)]
      rw [filter_sortBy, filter_sortBy, hselect rfl hgroup.symm, hselect hgroup.symm rfl] at hsame
      -- The two stand side by side among what is selected, in the order they were given.
      obtain ⟨front, back, hab', hba⟩ :=
        sortBy_cons_cons (rest.filter (group · = group a)) hkey
      rw [hab', hba, List.map_append, List.map_append] at hsame
      exact (List.cons.inj (List.append_cancel_left hsame)).1
  · intro hsame l l' hl hl' c
    rw [filter_sortBy, filter_sortBy]
    apply map_eq_of_perm _ (pairwise_sortBy key _) (pairwise_sortBy key _)
    · intro a ha b hb hkey
      obtain ⟨ha, hca⟩ := List.mem_filter.mp (mem_sortBy.mp ha)
      obtain ⟨hb, hcb⟩ := List.mem_filter.mp (mem_sortBy.mp hb)
      refine hsame a (hl.mem_iff.mp ha) b (hl.mem_iff.mp hb) hkey ?_
      rw [of_decide_eq_true hca, of_decide_eq_true hcb]
    · exact ((perm_sortBy key _).trans ((hl.trans hl'.symm).filter _)).trans
        (perm_sortBy key _).symm

end HermesConversation.Library.Sorting
