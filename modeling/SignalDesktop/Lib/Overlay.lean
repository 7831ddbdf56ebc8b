import Mathlib.Data.List.Forall2
import Mathlib.Data.List.Flatten
import Mathlib.Data.List.Perm.Basic
import Mathlib.Algebra.BigOperators.Group.List.Basic
import Mathlib.Algebra.GroupWithZero.Nat

/-!
# Reading records from two homes

Records with a key live in a `front` list and in a `back` list that holds the
records of one key per entry. `overlay` reads both, and for each key the front is
the record: an entry of the back counts only if the front has nothing under its key.

* `filter_overlay_of_mem`, `filter_overlay_of_notMem`: what is read under each key.
* `length_overlay`: nothing is lost, nothing counted twice.
* `overlay_migrate`: moving the entries of any set of keys to the front changes the
  reading at most in its order.
* `filter_overlay_congr`, `overlay_congr_of_mem`: changing an entry is seen only
  under its own key, and not at all if the front has that key.
* `overlay_perm`: the order of the two homes only decides the order of the reading.
* `overlay_sublist`: more entries of the back leave the others in their order.
-/

namespace Overlay

variable {κ β : Type*} [DecidableEq κ] (key : β → κ)

/-- The front, and the entries of the back under keys the front does not have. -/
def overlay (front : List β) (back : List (κ × List β)) : List β :=
  front ++ (back.filter fun e => e.1 ∉ front.map key).flatMap Prod.snd

/-- The back files every record under its own key. -/
def Stamped (back : List (κ × List β)) : Prop := ∀ e ∈ back, ∀ b ∈ e.2, key b = e.1

variable {key} {front front' : List β} {back back' : List (κ × List β)} {k : κ}

omit [DecidableEq κ] in
theorem Stamped.of_cons {e : κ × List β} (h : Stamped key (e :: back)) : Stamped key back :=
  fun x hx => h x (List.mem_cons_of_mem e hx)

omit [DecidableEq κ] in
/-- A condition on the key selects the records of a stamped back entry by entry. -/
theorem Stamped.filter_flatMap (h : Stamped key back) (p : κ → Bool) :
    (back.flatMap Prod.snd).filter (fun b => p (key b)) =
      (back.filter fun e => p e.1).flatMap Prod.snd := by
  induction back with
  | nil => rfl
  | cons e back ih =>
    rw [List.flatMap_cons, List.filter_append, ih h.of_cons]
    have he := h e List.mem_cons_self
    by_cases hp : p e.1 = true
    · rw [List.filter_cons_of_pos (by simpa using hp), List.flatMap_cons,
        List.filter_eq_self.2 fun b hb => by rw [he b hb, hp]]
    · rw [List.filter_cons_of_neg (by simpa using hp),
        List.filter_eq_nil_iff.2 fun b hb => by rwa [he b hb], List.nil_append]

omit [DecidableEq κ] in
theorem Stamped.filter (h : Stamped key back) (p : κ × List β → Bool) :
    Stamped key (back.filter p) := fun e he => h e (List.mem_of_mem_filter he)

/-- **A key of the front is read from the front alone.** -/
theorem filter_overlay_of_mem (h : Stamped key back) (hk : k ∈ front.map key) :
    (overlay key front back).filter (fun b => key b = k) = front.filter (fun b => key b = k) := by
  rw [overlay, List.filter_append, (h.filter _).filter_flatMap (fun x => x = k), List.filter_filter]
  have : (back.filter fun e => decide (e.1 = k) && decide (e.1 ∉ front.map key)) = [] := by
    refine List.filter_eq_nil_iff.2 fun e _ => ?_
    simp only [Bool.and_eq_true, decide_eq_true_eq, not_and, not_not]
    rintro rfl
    exact hk
  rw [this, List.flatMap_nil, List.append_nil]

/-- **Any other key is read from the back, in the order of the back.** -/
theorem filter_overlay_of_notMem (h : Stamped key back) (hk : k ∉ front.map key) :
    (overlay key front back).filter (fun b => key b = k) =
      (back.filter fun e => e.1 = k).flatMap Prod.snd := by
  rw [overlay, List.filter_append, (h.filter _).filter_flatMap (fun x => x = k), List.filter_filter,
    List.filter_eq_nil_iff.2 fun b hb => by
      simp only [decide_eq_true_eq]
      rintro rfl
      exact hk (List.mem_map_of_mem hb), List.nil_append]
  congr 1
  refine List.filter_congr fun e _ => ?_
  by_cases he : e.1 = k
  · simpa [he] using hk
  · simp [he]

theorem length_overlay :
    (overlay key front back).length =
      front.length + ((back.filter fun e => e.1 ∉ front.map key).map fun e => e.2.length).sum := by
  rw [overlay, List.length_append, List.length_flatMap]

/-- A key is read at all iff the front has it or the back has a record for it. -/
theorem exists_key_iff (h : Stamped key back) :
    (∃ b ∈ overlay key front back, key b = k) ↔
      k ∈ front.map key ∨ ∃ e ∈ back, e.1 = k ∧ e.2 ≠ [] := by
  simp only [overlay, List.mem_append, List.mem_flatMap, List.mem_filter, decide_eq_true_eq]
  constructor
  · rintro ⟨b, hb | ⟨e, ⟨he, -⟩, hb⟩, rfl⟩
    · exact Or.inl (List.mem_map_of_mem hb)
    · exact Or.inr ⟨e, he, (h e he b hb).symm, List.ne_nil_of_mem hb⟩
  · intro hk
    by_cases hf : k ∈ front.map key
    · obtain ⟨b, hb, rfl⟩ := List.mem_map.1 hf
      exact ⟨b, Or.inl hb, rfl⟩
    · obtain ⟨e, he, rfl, hne⟩ := hk.resolve_left hf
      obtain ⟨b, hb⟩ := List.exists_mem_of_ne_nil _ hne
      exact ⟨b, Or.inr ⟨e, ⟨he, hf⟩, hb⟩, h e he b hb⟩

/-! ## Migration -/

/-- `back'` is `back` with entries of keys in `S` kept or emptied. -/
def Emptied (S : κ → Prop) (back back' : List (κ × List β)) : Prop :=
  List.Forall₂ (fun e e' => e'.1 = e.1 ∧ (e'.2 = e.2 ∨ S e.1 ∧ e'.2 = [])) back back'

omit [DecidableEq κ] in
/-- If every dropped entry is empty or also dropped in `back'`, the readings of the two
backs agree. -/
theorem Emptied.flatMap_eq {S : κ → Prop} (h : Emptied S back back') {p q : κ → Bool}
    (hS : ∀ e ∈ back, S e.1 → p e.1 = true → e.2 = [])
    (hS' : ∀ e ∈ back, S e.1 → q e.1 = true → e.2 = [])
    (hp : ∀ k, ¬ S k → q k = p k) :
    (back'.filter fun e => q e.1).flatMap Prod.snd = (back.filter fun e => p e.1).flatMap Prod.snd := by
  induction h with
  | nil => rfl
  | @cons e e' l l' he _ ih =>
    have ih' := ih (fun x hx => hS x (List.mem_cons_of_mem e hx))
      (fun x hx => hS' x (List.mem_cons_of_mem e hx))
    have hSe := hS e List.mem_cons_self
    have hSe' := hS' e List.mem_cons_self
    have hhd : ([e'].filter fun e => q e.1).flatMap Prod.snd =
        ([e].filter fun e => p e.1).flatMap Prod.snd := by
      by_cases hs : S e.1
      · have h0 : e.2 = [] → e'.2 = [] := fun h => he.2.elim (fun h' => h'.trans h) And.right
        cases h1 : p e.1 <;> cases h2 : q e.1 <;> simp_all
      · have h2 : e'.2 = e.2 := he.2.resolve_right fun h => hs h.1
        cases h1 : p e.1 <;> simp [he.1, hp _ hs, h1, h2]
    rw [show e' :: l' = [e'] ++ l' from rfl, show e :: l = [e] ++ l from rfl, List.filter_append,
      List.filter_append, List.flatMap_append, List.flatMap_append, hhd, ih']

omit [DecidableEq κ] in
theorem flatMap_filter_perm (l : List (κ × List β)) (p : κ × List β → Bool) :
    (l.flatMap Prod.snd).Perm
      ((l.filter p).flatMap Prod.snd ++ (l.filter fun e => !p e).flatMap Prod.snd) := by
  rw [← List.flatMap_append]
  exact (List.filter_append_perm p l).symm.flatMap_right _

open Classical in
/-- **Migration keeps the reading.** The entries of the keys in `S`, none of them in the
front, are copied to the front in any order, and each is kept in the back or emptied.
The reading is permuted at most. -/
theorem overlay_migrate {S : κ → Prop} (hs : Stamped key back) (hback : Emptied S back back')
    (hfront : front'.Perm (front ++ (back.filter fun e => S e.1).flatMap Prod.snd))
    (hS : ∀ k, S k → k ∉ front.map key) :
    (overlay key front' back').Perm (overlay key front back) := by
  have hmem : ∀ k, k ∈ front'.map key ↔
      k ∈ front.map key ∨ ∃ e ∈ back, S e.1 ∧ e.1 = k ∧ e.2 ≠ [] := by
    intro k
    rw [(hfront.map key).mem_iff, List.map_append, List.mem_append]
    refine or_congr_right ⟨?_, ?_⟩
    · intro h
      obtain ⟨b, hb, rfl⟩ := List.mem_map.1 h
      obtain ⟨e, he, hbe⟩ := List.mem_flatMap.1 hb
      rw [List.mem_filter, decide_eq_true_eq] at he
      exact ⟨e, he.1, he.2, (hs e he.1 b hbe).symm, List.ne_nil_of_mem hbe⟩
    · rintro ⟨e, he, hSe, rfl, hne⟩
      obtain ⟨b, hb⟩ := List.exists_mem_of_ne_nil _ hne
      exact List.mem_map.2 ⟨b, List.mem_flatMap.2
        ⟨e, List.mem_filter.2 ⟨he, by simpa using hSe⟩, hb⟩, hs e he b hb⟩
  -- what the new reading takes from the back: the old back without the keys of `S`
  have hrest : (back'.filter fun e => e.1 ∉ front'.map key).flatMap Prod.snd =
      (back.filter fun e => !decide (S e.1) && decide (e.1 ∉ front.map key)).flatMap Prod.snd := by
    refine hback.flatMap_eq (p := fun k => !decide (S k) && decide (k ∉ front.map key))
      (q := fun k => decide (k ∉ front'.map key)) ?_ ?_ ?_
    · intro e _ hSe hp; simp [hSe] at hp
    · intro e he hSe hp
      by_contra hne
      exact (of_decide_eq_true hp) ((hmem e.1).2 (Or.inr ⟨e, he, hSe, rfl, hne⟩))
    · intro k hk
      have : k ∈ front'.map key ↔ k ∈ front.map key := by
        rw [hmem k]
        exact ⟨fun h => h.elim id (by rintro ⟨e, -, hSe, rfl, -⟩; exact absurd hSe hk), Or.inl⟩
      simp [hk, this]
  have hsplit := flatMap_filter_perm (back.filter fun e => e.1 ∉ front.map key) fun e => decide (S e.1)
  have hmoved : ((back.filter fun e => e.1 ∉ front.map key).filter fun e => decide (S e.1)) =
      back.filter fun e => S e.1 := by
    rw [List.filter_filter]
    refine List.filter_congr fun e _ => ?_
    by_cases hSe : S e.1
    · simpa [hSe] using hS _ hSe
    · simp [hSe]
  rw [hmoved, List.filter_filter] at hsplit
  rw [overlay, overlay, hrest]
  refine (hfront.append_right _).trans ?_
  rw [List.append_assoc]
  exact (hsplit.symm).append_left front

/-! ## One entry -/

/-- `back'` is `back` with the entries of key `i` replaced. -/
def ReplacedAt (i : κ) (back back' : List (κ × List β)) : Prop :=
  List.Forall₂ (fun e e' => e'.1 = e.1 ∧ (e.1 ≠ i → e'.2 = e.2)) back back'

theorem ReplacedAt.flatMap_eq {i : κ} (h : ReplacedAt i back back') {p : κ → Bool}
    (hp : p i = false) :
    (back'.filter fun e => p e.1).flatMap Prod.snd = (back.filter fun e => p e.1).flatMap Prod.snd := by
  induction h with
  | nil => rfl
  | @cons e e' l l' he _ ih =>
    by_cases hi : e.1 = i
    · rw [List.filter_cons_of_neg (by simp [he.1, hi, hp]), List.filter_cons_of_neg (by simp [hi, hp]), ih]
    · cases hpe : p e.1
      · rw [List.filter_cons_of_neg (by simp [he.1, hpe]), List.filter_cons_of_neg (by simp [hpe]), ih]
      · rw [List.filter_cons_of_pos (by simp [he.1, hpe]), List.filter_cons_of_pos (by simp [hpe]),
          List.flatMap_cons, List.flatMap_cons, ih, he.2 hi]

/-- If the front has the key of the replaced entry, the reading does not change. -/
theorem overlay_congr_of_mem {i : κ} (h : ReplacedAt i back back') (hi : i ∈ front.map key) :
    overlay key front back' = overlay key front back := by
  rw [overlay, overlay, h.flatMap_eq (p := fun k => decide (k ∉ front.map key)) (by simpa using hi)]

/-- **The other keys do not see the replaced entry.** -/
theorem filter_overlay_congr {i : κ} (hs : Stamped key back) (hs' : Stamped key back')
    (h : ReplacedAt i back back') :
    (overlay key front back').filter (fun b => key b ≠ i) =
      (overlay key front back).filter (fun b => key b ≠ i) := by
  simp only [overlay, List.filter_append]
  rw [(hs'.filter _).filter_flatMap (fun k => k ≠ i), (hs.filter _).filter_flatMap (fun k => k ≠ i),
    List.filter_filter, List.filter_filter,
    h.flatMap_eq (p := fun k => decide (k ≠ i) && decide (k ∉ front.map key)) (by simp)]

theorem overlay_perm (hfront : front'.Perm front) (hback : back'.Perm back) :
    (overlay key front' back').Perm (overlay key front back) := by
  have hmem : ∀ k, k ∈ front'.map key ↔ k ∈ front.map key := fun k => (hfront.map key).mem_iff
  unfold overlay
  simp only [hmem]
  exact hfront.append ((hback.filter _).flatMap_right _)

theorem overlay_sublist (h : back'.Sublist back) :
    (overlay key front back').Sublist (overlay key front back) := by
  unfold overlay
  refine (List.Sublist.refl front).append ?_
  have hfilter := h.filter fun e => e.1 ∉ front.map key
  exact hfilter.flatMap _

end Overlay
