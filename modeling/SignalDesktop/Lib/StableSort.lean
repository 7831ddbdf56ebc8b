import Mathlib.Data.List.Sort
import Mathlib.Order.Lattice

/-!
# Stable sorting by a key

`sortByKey key l` sorts a list by a key into a linear order. A **stable
rearrangement** (`IsStableSort`) is a sorted permutation that keeps, for every key,
the elements with that key in their order; there is exactly one, so every stable
sort computes the same list (`isStableSort_iff`).

Stability is what makes sorting local: dropping elements before or after the sort
is the same (`filter_sortByKey`), so the rest of a sorted list does not depend on
where one element's key puts it.

Of the order of the list, the sorted list only keeps that of ties
(`map_key_sortByKey_of_perm`, `sortByKey_eq_of_perm`); of the elements, the sort only
sees their keys (`forall₂_sortByKey`). More elements leave the others in their order
(`sortByKey_sublist`).
-/

namespace StableSort

variable {α κ : Type*} [LinearOrder κ] (key : α → κ)

/-- The list sorted by `key`, ties in list order. -/
def sortByKey (l : List α) : List α := l.insertionSort fun a b => key a ≤ key b

/-- `l'` is a stable rearrangement of `l` by `key`. -/
structure IsStableSort (l l' : List α) : Prop where
  perm : l'.Perm l
  sorted : l'.Pairwise fun a b => key a ≤ key b
  stable : ∀ k, l'.filter (fun a => key a = k) = l.filter (fun a => key a = k)

theorem sortByKey_cons (a : α) (l : List α) :
    sortByKey key (a :: l) = (sortByKey key l).orderedInsert (fun a b => key a ≤ key b) a := rfl

theorem sortByKey_perm (l : List α) : (sortByKey key l).Perm l := List.perm_insertionSort _ l

theorem sortByKey_pairwise (l : List α) :
    (sortByKey key l).Pairwise fun a b => key a ≤ key b := by
  have : Std.Total fun a b : α => key a ≤ key b := ⟨fun a b => le_total (key a) (key b)⟩
  have : IsTrans α fun a b => key a ≤ key b := ⟨fun _ _ _ => le_trans⟩
  exact List.pairwise_insertionSort _ l

/-- Inserting `a` puts it before the elements of its own key. -/
theorem filter_orderedInsert (a : α) (k : κ) (l : List α) :
    (l.orderedInsert (fun a b => key a ≤ key b) a).filter (fun b => key b = k) =
      (a :: l).filter (fun b => key b = k) := by
  induction l with
  | nil => simp
  | cons b l ih =>
    rw [List.orderedInsert_cons]
    split
    · rfl
    · rename_i hab
      rw [List.filter_cons, ih]
      by_cases hb : key b = k
      · have ha : key a ≠ k := by rintro rfl; exact hab hb.ge
        simp [hb, ha]
      · by_cases ha : key a = k <;> simp [hb, ha]

theorem filter_key_sortByKey (k : κ) (l : List α) :
    (sortByKey key l).filter (fun a => key a = k) = l.filter (fun a => key a = k) := by
  induction l with
  | nil => rfl
  | cons a l ih => rw [sortByKey_cons, filter_orderedInsert, List.filter_cons, ih, List.filter_cons]

theorem sortByKey_isStableSort (l : List α) : IsStableSort key l (sortByKey key l) :=
  ⟨sortByKey_perm key l, sortByKey_pairwise key l, fun k => filter_key_sortByKey key k l⟩

variable {key}

/-- The head of a sorted list is below every element of it. -/
theorem head_le {a x : α} {l : List α} (h : (a :: l).Pairwise fun a b => key a ≤ key b)
    (hx : x ∈ a :: l) : key a ≤ key x := by
  rcases List.mem_cons.1 hx with rfl | hx
  · exact le_rfl
  · exact List.rel_of_pairwise_cons h hx

/-- **Two sorted lists with the same elements of each key, in the same order, are equal.** -/
theorem eq_of_filter_eq {l₁ l₂ : List α} (h₁ : l₁.Pairwise fun a b => key a ≤ key b)
    (h₂ : l₂.Pairwise fun a b => key a ≤ key b)
    (h : ∀ k, l₁.filter (fun a => key a = k) = l₂.filter (fun a => key a = k)) : l₁ = l₂ := by
  have mem_of : ∀ {l l' : List α} {a : α},
      (∀ k, l.filter (fun a => key a = k) = l'.filter (fun a => key a = k)) → a ∈ l → a ∈ l' := by
    intro l l' a h ha
    have hf : a ∈ l.filter (fun b => key b = key a) := List.mem_filter.2 ⟨ha, by simp⟩
    rw [h] at hf
    exact List.mem_of_mem_filter hf
  induction l₁ generalizing l₂ with
  | nil =>
    cases l₂ with
    | nil => rfl
    | cons b l₂ => exact absurd (mem_of (fun k => (h k).symm) List.mem_cons_self) (by simp)
  | cons a l₁ ih =>
    cases l₂ with
    | nil => exact absurd (mem_of h List.mem_cons_self) (by simp)
    | cons b l₂ =>
      -- each head occurs in the other list, so the heads have the same key
      have hab : key a = key b := le_antisymm
        (head_le h₁ (mem_of (fun k => (h k).symm) List.mem_cons_self))
        (head_le h₂ (mem_of h List.mem_cons_self))
      have hhd : a = b := by
        have hk := h (key a)
        rw [List.filter_cons_of_pos (by simp), List.filter_cons_of_pos (by simp [hab])] at hk
        exact (List.cons.inj hk).1
      subst hhd
      rw [ih h₁.of_cons h₂.of_cons ?_]
      intro k
      have hk := h k
      by_cases ha : key a = k
      · rw [List.filter_cons_of_pos (by simp [ha]), List.filter_cons_of_pos (by simp [ha])] at hk
        exact (List.cons.inj hk).2
      · rwa [List.filter_cons_of_neg (by simp [ha]), List.filter_cons_of_neg (by simp [ha])] at hk

/-- **Every stable rearrangement is the one `sortByKey` computes.** -/
theorem isStableSort_iff {l l' : List α} : IsStableSort key l l' ↔ l' = sortByKey key l := by
  constructor
  · intro h
    refine eq_of_filter_eq h.sorted (sortByKey_pairwise key l) fun k => ?_
    rw [h.stable, filter_key_sortByKey]
  · rintro rfl
    exact sortByKey_isStableSort key l

/-- **Sorting is local**: dropping elements commutes with the sort. -/
theorem filter_sortByKey (p : α → Bool) (l : List α) :
    (sortByKey key l).filter p = sortByKey key (l.filter p) := by
  refine isStableSort_iff.1 ⟨(sortByKey_perm key l).filter p,
    (sortByKey_pairwise key l).filter p, fun k => ?_⟩
  rw [List.filter_filter, List.filter_filter]
  simp only [Bool.and_comm _ (p _)]
  rw [← List.filter_filter, filter_key_sortByKey, List.filter_filter]

/-! ## Two lists with the same elements -/

variable (key) in
/-- **The sorted keys do not depend on the order of the list.** -/
theorem map_key_sortByKey_of_perm {l l' : List α} (h : l'.Perm l) :
    (sortByKey key l').map key = (sortByKey key l).map key := by
  have hsorted : ∀ x : List α, ((sortByKey key x).map key).Pairwise (· ≤ ·) := by
    intro x
    rw [List.pairwise_map]
    exact sortByKey_pairwise key x
  have hperm : (sortByKey key l').Perm (sortByKey key l) :=
    (sortByKey_perm key l').trans (h.trans (sortByKey_perm key l).symm)
  refine List.Perm.eq_of_pairwise ?_ (hsorted l') (hsorted l) (hperm.map key)
  intro a b _ _ hab hba
  exact le_antisymm hab hba

/-- **Without ties, neither does the sorted list.** -/
theorem sortByKey_eq_of_perm {l l' : List α} (h : l'.Perm l) (hnd : (l.map key).Nodup) :
    sortByKey key l' = sortByKey key l := by
  have hl := sortByKey_perm key l
  have hl' : (sortByKey key l').Perm l := (sortByKey_perm key l').trans h
  refine List.Perm.eq_of_pairwise ?_ (sortByKey_pairwise key l') (sortByKey_pairwise key l)
    (hl'.trans hl.symm)
  intro a b ha hb hab hba
  -- the keys are equal, and no two elements share one
  have hkey : key a = key b := le_antisymm hab hba
  exact List.inj_on_of_nodup_map hnd (hl'.mem_iff.1 ha) (hl.mem_iff.1 hb) hkey

/-! ## Two lists with the same keys -/

theorem forall₂_orderedInsert {β : Type*} {key' : β → κ} {R : α → β → Prop}
    (hkey : ∀ a b, R a b → key' b = key a) {a : α} {b : β} {l : List α} {l' : List β} (h : R a b)
    (hl : List.Forall₂ R l l') :
    List.Forall₂ R (l.orderedInsert (fun a b => key a ≤ key b) a)
      (l'.orderedInsert (fun a b => key' a ≤ key' b) b) := by
  induction hl with
  | nil => exact .cons h .nil
  | @cons x y l l' hxy hl ih =>
    rw [List.orderedInsert_cons, List.orderedInsert_cons, hkey a b h, hkey x y hxy]
    split
    · exact .cons h (.cons hxy hl)
    · exact .cons hxy ih

/-- **Elements with the same keys are moved alike.** -/
theorem forall₂_sortByKey {β : Type*} {key' : β → κ} {R : α → β → Prop}
    (hkey : ∀ a b, R a b → key' b = key a) {l : List α} {l' : List β} (h : List.Forall₂ R l l') :
    List.Forall₂ R (sortByKey key l) (sortByKey key' l') := by
  induction h with
  | nil => exact .nil
  | cons hab _ ih =>
    rw [sortByKey_cons, sortByKey_cons]
    exact forall₂_orderedInsert hkey hab ih

/-! ## More elements -/

theorem sortByKey_sublist {l l' : List α} (h : l.Sublist l') :
    (sortByKey key l).Sublist (sortByKey key l') := by
  have : IsTrans α fun a b => key a ≤ key b := ⟨fun _ _ _ => le_trans⟩
  induction h with
  | slnil => exact List.Sublist.refl _
  | cons a _ ih =>
    rw [sortByKey_cons]
    exact ih.trans (List.sublist_orderedInsert a _)
  | cons_cons a _ ih =>
    rw [sortByKey_cons, sortByKey_cons]
    exact ih.orderedInsert_sublist a (sortByKey_pairwise _ _)

end StableSort
