import Mathlib.Data.List.Induction
import Mathlib.Data.List.Nodup

/-!
# Dictionaries in insertion order

A dictionary is a list of entries with different keys. Setting a key replaces its value
where it stands, or adds an entry at the end.

* `get?_set`: what a dictionary holds after setting a key.
* `mem_entries_iff`: its entries are the values it holds.
* `get?_merge`: merging records into a dictionary folds, for each key, its records.
-/

structure Dict (κ ν : Type) where
  entries : List (κ × ν)
  nodup : (entries.map Prod.fst).Nodup

namespace Dict

variable {κ ν : Type} [DecidableEq κ]

/-! ## Entries -/

def getEntry (k : κ) : List (κ × ν) → Option ν
  | [] => none
  | e :: es => if e.1 = k then some e.2 else getEntry k es

def setEntry (k : κ) (v : ν) : List (κ × ν) → List (κ × ν)
  | [] => [(k, v)]
  | e :: es => if e.1 = k then (k, v) :: es else e :: setEntry k v es

variable {k k' : κ} {v : ν} {es : List (κ × ν)}

theorem getEntry_setEntry :
    getEntry k' (setEntry k v es) = if k = k' then some v else getEntry k' es := by
  induction es with
  | nil => rfl
  | cons e es ih =>
    unfold setEntry
    by_cases he : e.1 = k
    · rw [if_pos he, getEntry, getEntry, he]
      by_cases hk : k = k'
      · rw [if_pos hk, if_pos hk]
      · rw [if_neg hk, if_neg hk, if_neg hk]
    · rw [if_neg he, getEntry, getEntry, ih]
      by_cases hk : k = k'
      · subst hk
        rw [if_neg he, if_pos rfl, if_pos rfl]
      · rw [if_neg hk, if_neg hk]

/-- The keys stay in place, a new one comes last. -/
theorem keys_setEntry (k : κ) (v : ν) (es : List (κ × ν)) :
    (setEntry k v es).map Prod.fst = es.map Prod.fst ∨
      k ∉ es.map Prod.fst ∧ (setEntry k v es).map Prod.fst = es.map Prod.fst ++ [k] := by
  induction es with
  | nil => exact Or.inr ⟨by simp, rfl⟩
  | cons e es ih =>
    unfold setEntry
    by_cases he : e.1 = k
    · rw [if_pos he, List.map_cons, List.map_cons, he]
      exact Or.inl rfl
    · rw [if_neg he, List.map_cons, List.map_cons, List.mem_cons]
      rcases ih with hkeys | ⟨hnew, hkeys⟩
      · exact Or.inl (by rw [hkeys])
      · refine Or.inr ⟨?_, by rw [hkeys, List.cons_append]⟩
        rintro (rfl | hmem)
        · exact he rfl
        · exact hnew hmem

theorem nodup_setEntry (h : (es.map Prod.fst).Nodup) : ((setEntry k v es).map Prod.fst).Nodup := by
  rcases keys_setEntry k v es with hkeys | ⟨hnew, hkeys⟩
  · rwa [hkeys]
  · rw [hkeys, List.nodup_append]
    refine ⟨h, List.nodup_singleton k, ?_⟩
    rintro a ha b hb rfl
    rw [List.mem_singleton] at hb
    exact hnew (hb ▸ ha)

theorem mem_iff_getEntry (h : (es.map Prod.fst).Nodup) : (k, v) ∈ es ↔ getEntry k es = some v := by
  induction es with
  | nil => simp [getEntry]
  | cons e es ih =>
    obtain ⟨k₀, v₀⟩ := e
    rw [List.map_cons, List.nodup_cons] at h
    unfold getEntry
    rw [List.mem_cons, Prod.mk.injEq]
    by_cases hk : k₀ = k
    · subst hk
      have hnot : (k₀, v) ∉ es := fun hmem => h.1 (List.mem_map.2 ⟨_, hmem, rfl⟩)
      rw [if_pos rfl, Option.some.injEq, eq_comm]
      simp only [true_and, hnot, or_false, eq_comm]
    · rw [if_neg hk, ← ih h.2]
      have hne : ¬ (k = k₀ ∧ v = v₀) := fun heq => hk heq.1.symm
      simp only [hne, false_or]

/-! ## Dictionaries -/

def empty : Dict κ ν := ⟨[], List.nodup_nil⟩

def get? (d : Dict κ ν) (k : κ) : Option ν := getEntry k d.entries

def set (d : Dict κ ν) (k : κ) (v : ν) : Dict κ ν := ⟨setEntry k v d.entries, nodup_setEntry d.nodup⟩

variable {d : Dict κ ν}

/-- **Setting a key changes its value only.** -/
theorem get?_set : (d.set k v).get? k' = if k = k' then some v else d.get? k' := getEntry_setEntry

/-- **The entries are the values held.** -/
theorem mem_entries_iff : (k, v) ∈ d.entries ↔ d.get? k = some v := mem_iff_getEntry d.nodup

/-! ## Merging records -/

variable {ρ : Type} (key : ρ → κ) (step : Option ν → ρ → ν)

/-- Merge a record into the value of its key. -/
def mergeOne (d : Dict κ ν) (r : ρ) : Dict κ ν := d.set (key r) (step (d.get? (key r)) r)

def merge (rs : List ρ) : Dict κ ν := rs.foldl (mergeOne key step) .empty

/-- **Each key holds what its own records give**, in their order. -/
theorem get?_merge (rs : List ρ) (k : κ) :
    (merge key step rs).get? k =
      (rs.filter fun r => key r = k).foldl (fun v r => some (step v r)) none := by
  -- the last record is the one merged last
  induction rs using List.reverseRecOn with
  | nil => rfl
  | append_singleton rs r ih =>
    have hmerge : merge key step (rs ++ [r]) = mergeOne key step (merge key step rs) r := by
      rw [merge, List.foldl_append]
      rfl
    rw [hmerge, mergeOne, get?_set, List.filter_append, List.foldl_append]
    by_cases hk : key r = k
    · subst hk
      rw [if_pos rfl, ih]
      simp
    · rw [if_neg hk, ih]
      simp [hk]

end Dict
