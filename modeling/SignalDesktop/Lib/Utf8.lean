import Mathlib.Data.List.Basic

/-!
# The bytes of a text

`bytes s` is the UTF-8 encoding of `s`. Bytes are decoded to at most one text, the one they
encode (`fromUTF8?_eq_some_iff`).
-/

namespace Utf8

/-- The UTF-8 encoding of a text. -/
def bytes (s : String) : List UInt8 := s.toUTF8.data.toList

/-- The bytes encode some text. -/
def IsText (b : List UInt8) : Prop := ∃ s, b = bytes s

variable {b : List UInt8} {s : String}

theorem length_bytes (s : String) : (bytes s).length = s.utf8ByteSize := Array.length_toList

/-- **Decoding inverts encoding**, and accepts nothing else. -/
theorem fromUTF8?_eq_some_iff : String.fromUTF8? ⟨b.toArray⟩ = some s ↔ b = bytes s := by
  unfold String.fromUTF8?
  constructor
  · intro h
    split at h
    · cases h
      rfl
    · cases h
  · intro h
    subst h
    have hval : (⟨(bytes s).toArray⟩ : ByteArray) = s.toUTF8 := by
      rw [bytes, Array.toArray_toList]
    rw [hval]
    exact dif_pos s.isValidUTF8

theorem fromUTF8?_bytes (s : String) : String.fromUTF8? ⟨(bytes s).toArray⟩ = some s :=
  fromUTF8?_eq_some_iff.2 rfl

theorem fromUTF8?_eq_none_iff : String.fromUTF8? ⟨b.toArray⟩ = none ↔ ¬ IsText b := by
  rw [Option.eq_none_iff_forall_ne_some]
  constructor
  · rintro h ⟨s, hs⟩
    exact h s (fromUTF8?_eq_some_iff.2 hs)
  · intro h s hs
    exact h ⟨s, fromUTF8?_eq_some_iff.1 hs⟩

theorem bytes_injective : Function.Injective bytes := by
  intro s t h
  have hs := fromUTF8?_bytes s
  rw [h, fromUTF8?_bytes] at hs
  exact (Option.some.inj hs).symm

end Utf8
