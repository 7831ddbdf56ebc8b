import Mathlib.Data.Set.Basic

/-!
# Dangling references

Snapshots of a store with parents, and references of children to parents. A run is a
sequence of snapshots in which every new reference is to a parent that exists (`Next`);
parents and references may disappear at any time.

`dangling_iff`: in a run from a snapshot without dangling references, a reference dangles
iff its parent disappeared under it, at some step, and neither the parent came back nor the
reference went away since.
-/

namespace References

variable {ι κ : Type*}

structure Snapshot (ι κ : Type*) where
  parents : Set κ
  /-- A child, and the parent it refers to. -/
  refs : Set (ι × κ)

namespace Snapshot

/-- The reference is there, its parent is not. -/
def Dangling (s : Snapshot ι κ) (x : ι × κ) : Prop := x ∈ s.refs ∧ x.2 ∉ s.parents

/-- New references are to parents that exist. -/
def Next (s s' : Snapshot ι κ) : Prop := ∀ x ∈ s'.refs, x ∉ s.refs → x.2 ∈ s'.parents

end Snapshot

/-- At step `m` of the run the parent of `x` disappears, and up to `n` nothing repairs it. -/
structure LeftAt (s : ℕ → Snapshot ι κ) (x : ι × κ) (m n : ℕ) : Prop where
  lt : m < n
  refers : x ∈ (s m).refs
  parent : x.2 ∈ (s m).parents
  since : ∀ j, m < j → j ≤ n → (s j).Dangling x

variable {s : ℕ → Snapshot ι κ} {x : ι × κ} {m n : ℕ}

theorem LeftAt.succ (h : LeftAt s x m n) (hx : (s (n + 1)).Dangling x) : LeftAt s x m (n + 1) := by
  have hlt := h.lt
  refine ⟨by omega, h.refers, h.parent, fun j hj hn => ?_⟩
  rcases Nat.eq_or_lt_of_le hn with hjn | hjn
  · rwa [hjn]
  · exact h.since j hj (by omega)

/-- **The step**: a reference that starts to dangle was there before, with its parent. -/
theorem leftAt_of_step (hstep : (s n).Next (s (n + 1))) (hx : (s (n + 1)).Dangling x)
    (hn : ¬ (s n).Dangling x) : LeftAt s x n (n + 1) := by
  have hrefers : x ∈ (s n).refs := by
    by_contra hnew
    exact hx.2 (hstep x hx.1 hnew)
  have hparent : x.2 ∈ (s n).parents := by
    by_contra hgone
    exact hn ⟨hrefers, hgone⟩
  refine ⟨by omega, hrefers, hparent, fun j hj hjn => ?_⟩
  have hj : j = n + 1 := by omega
  rwa [hj]

/-- **The run**: a reference dangles iff its parent was removed under it and nothing
repaired it since. -/
theorem dangling_iff (h₀ : ∀ x, ¬ (s 0).Dangling x) (hs : ∀ m < n, (s m).Next (s (m + 1))) (x : ι × κ) :
    (s n).Dangling x ↔ ∃ m, LeftAt s x m n := by
  constructor
  · intro hx
    induction n with
    | zero => exact absurd hx (h₀ x)
    | succ n ih =>
      by_cases hn : (s n).Dangling x
      · obtain ⟨m, hm⟩ := ih (fun m hm => hs m (by omega)) hn
        exact ⟨m, hm.succ hx⟩
      · exact ⟨n, leftAt_of_step (hs n (by omega)) hx hn⟩
  · rintro ⟨m, hm⟩
    exact hm.since n hm.lt le_rfl

end References
