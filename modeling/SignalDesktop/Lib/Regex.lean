import Mathlib.Data.List.Basic

/-!
# Regular expressions at the start of a text

`rests r s` lists what can be left of `s` after `r` has matched at its start. `Matches` is
the language of an expression, and `isMatch_iff` says that a text matches iff it starts
with a word of it.
-/

inductive Regex
  | eps
  | cls (p : Char → Bool)
  /-- Characters of a class, any number of them. -/
  | many (p : Char → Bool)
  | opt (r : Regex)
  | seq (r t : Regex)

namespace Regex

/-- The words of an expression. -/
inductive Matches : Regex → List Char → Prop
  | eps : Matches eps []
  | cls {p : Char → Bool} {c : Char} (h : p c = true) : Matches (cls p) [c]
  | many {p : Char → Bool} {w : List Char} (h : ∀ c ∈ w, p c = true) : Matches (many p) w
  | optNone {r : Regex} : Matches (opt r) []
  | optSome {r : Regex} {w : List Char} (h : Matches r w) : Matches (opt r) w
  | seq {r t : Regex} {w₁ w₂ : List Char} (h₁ : Matches r w₁) (h₂ : Matches t w₂) :
    Matches (seq r t) (w₁ ++ w₂)

/-! ## Matching -/

def restsCls (p : Char → Bool) : List Char → List (List Char)
  | [] => []
  | c :: s => if p c then [s] else []

def restsMany (p : Char → Bool) : List Char → List (List Char)
  | [] => [[]]
  | c :: s => if p c then restsMany p s ++ [c :: s] else [c :: s]

/-- What is left after a match, in the order a backtracking matcher tries. -/
def rests : Regex → List Char → List (List Char)
  | eps, s => [s]
  | cls p, s => restsCls p s
  | many p, s => restsMany p s
  | opt r, s => rests r s ++ [s]
  | seq r t, s => (rests r s).flatMap (rests t)

/-- The expression matches at the start. -/
def isMatch (r : Regex) (s : List Char) : Bool := !(rests r s).isEmpty

/-- A fixed word. -/
def word (w : List Char) : Regex := w.foldr (fun c r => seq (cls (· == c)) r) eps

/-- Characters of a class, at least one. -/
def many1 (p : Char → Bool) : Regex := seq (cls p) (many p)

/-- Expressions one after the other. -/
def seqs (rs : List Regex) : Regex := rs.foldr seq eps

/-! ## The language -/

variable {p : Char → Bool} {r : Regex} {s t : List Char}

theorem mem_restsCls_iff : t ∈ restsCls p s ↔ ∃ w, s = w ++ t ∧ Matches (cls p) w := by
  constructor
  · intro h
    cases s with
    | nil => cases h
    | cons c s =>
      rw [restsCls] at h
      by_cases hc : p c = true
      · rw [if_pos hc, List.mem_singleton] at h
        subst h
        exact ⟨[c], rfl, Matches.cls hc⟩
      · rw [if_neg hc] at h
        cases h
  · rintro ⟨w, rfl, hw⟩
    cases hw with
    | cls hc =>
      rw [List.singleton_append, restsCls, if_pos hc]
      exact List.mem_singleton.2 rfl

theorem mem_restsMany_iff : t ∈ restsMany p s ↔ ∃ w, s = w ++ t ∧ ∀ c ∈ w, p c = true := by
  induction s with
  | nil =>
    rw [restsMany, List.mem_singleton]
    constructor
    · rintro rfl
      exact ⟨[], rfl, by simp⟩
    · rintro ⟨w, hw, -⟩
      exact (List.append_eq_nil_iff.1 hw.symm).2
  | cons c s ih =>
    -- the longest word first; the word is empty or starts with `c`
    have hempty : ∃ w, c :: s = w ++ (c :: s) ∧ ∀ c ∈ w, p c = true := ⟨[], rfl, by simp⟩
    unfold restsMany
    by_cases hc : p c = true
    · rw [if_pos hc, List.mem_append, List.mem_singleton, ih]
      constructor
      · rintro (⟨w, rfl, hw⟩ | rfl)
        · refine ⟨c :: w, rfl, ?_⟩
          intro x hx
          rcases List.mem_cons.1 hx with rfl | hx
          · exact hc
          · exact hw x hx
        · exact hempty
      · rintro ⟨w, hw, hall⟩
        cases w with
        | nil => exact Or.inr hw.symm
        | cons x w =>
          obtain ⟨rfl, hs⟩ := List.cons.inj hw
          exact Or.inl ⟨w, hs, fun y hy => hall y (List.mem_cons_of_mem _ hy)⟩
    · rw [if_neg hc, List.mem_singleton]
      constructor
      · rintro rfl
        exact hempty
      · rintro ⟨w, hw, hall⟩
        cases w with
        | nil => exact hw.symm
        | cons x w =>
          obtain ⟨rfl, -⟩ := List.cons.inj hw
          exact absurd (hall c List.mem_cons_self) hc

/-- **What is left is what follows a word.** -/
theorem mem_rests_iff : t ∈ rests r s ↔ ∃ w, s = w ++ t ∧ Matches r w := by
  induction r generalizing s t with
  | eps =>
    rw [rests, List.mem_singleton]
    constructor
    · rintro rfl
      exact ⟨[], rfl, Matches.eps⟩
    · rintro ⟨w, rfl, hw⟩
      cases hw
      rfl
  | cls p => exact mem_restsCls_iff
  | many p =>
    rw [rests, mem_restsMany_iff]
    constructor
    · rintro ⟨w, hs, hw⟩
      exact ⟨w, hs, Matches.many hw⟩
    · rintro ⟨w, hs, hw⟩
      cases hw with
      | many hw => exact ⟨w, hs, hw⟩
  | opt r ih =>
    rw [rests, List.mem_append, List.mem_singleton, ih]
    constructor
    · rintro (⟨w, hs, hw⟩ | rfl)
      · exact ⟨w, hs, Matches.optSome hw⟩
      · exact ⟨[], rfl, Matches.optNone⟩
    · rintro ⟨w, hs, hw⟩
      cases hw with
      | optNone => exact Or.inr hs.symm
      | optSome hw => exact Or.inl ⟨w, hs, hw⟩
  | seq r t' ihr iht =>
    rw [rests, List.mem_flatMap]
    constructor
    · rintro ⟨u, hu, ht⟩
      obtain ⟨w₁, rfl, hw₁⟩ := ihr.1 hu
      obtain ⟨w₂, rfl, hw₂⟩ := iht.1 ht
      exact ⟨w₁ ++ w₂, (List.append_assoc _ _ _).symm, Matches.seq hw₁ hw₂⟩
    · rintro ⟨w, hs, hw⟩
      cases hw with
      | seq hw₁ hw₂ =>
        rw [List.append_assoc] at hs
        exact ⟨_, ihr.2 ⟨_, hs, hw₁⟩, iht.2 ⟨_, rfl, hw₂⟩⟩

/-- **A text matches iff it starts with a word.** -/
theorem isMatch_iff : isMatch r s = true ↔ ∃ w, w <+: s ∧ Matches r w := by
  have hmem : isMatch r s = true ↔ ∃ t, t ∈ rests r s := by
    unfold isMatch
    rw [Bool.not_eq_true', List.isEmpty_eq_false_iff_exists_mem]
  rw [hmem]
  constructor
  · rintro ⟨t, ht⟩
    obtain ⟨w, hs, hw⟩ := mem_rests_iff.1 ht
    exact ⟨w, ⟨t, hs.symm⟩, hw⟩
  · rintro ⟨w, ⟨t, hs⟩, hw⟩
    exact ⟨t, mem_rests_iff.2 ⟨w, hs.symm, hw⟩⟩

end Regex
