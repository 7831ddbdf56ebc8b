import Mathlib.Data.List.Basic
import Mathlib.Data.Nat.Notation
import Mathlib.Tactic.IntervalCases

/-!
# Hexadecimal text

Bytes are written as two lower-case digits each (`encode`). A text *spells* bytes if it is
their writing up to the case of its digits.

* `exists_spells_iff`: the texts that spell bytes are those of even length that have hex
  digits only.
* `decode_eq_some_iff`: `decode` finds the bytes a text spells. A `Decoder` is any function
  that does.
-/

namespace Hex

/-- The digits bytes are written with. -/
def IsLowerDigit (c : Char) : Prop := c ∈ "0123456789abcdef".toList

/-- The digits of either case. -/
def IsDigit (c : Char) : Prop := c ∈ "0123456789abcdefABCDEF".toList

instance : DecidablePred IsLowerDigit := fun c =>
  inferInstanceAs (Decidable (c ∈ "0123456789abcdef".toList))

instance : DecidablePred IsDigit := fun c =>
  inferInstanceAs (Decidable (c ∈ "0123456789abcdefABCDEF".toList))

def encode : List UInt8 → List Char
  | [] => []
  | b :: bs => Nat.digitChar (b.toNat / 16) :: Nat.digitChar (b.toNat % 16) :: encode bs

/-- `s` spells `b`, in any mix of cases. -/
def Spells (s : List Char) (b : List UInt8) : Prop := s.map Char.toLower = encode b

/-! ## Digits -/

/-- A property of each character of a fixed text, checked one by one. -/
theorem forall_mem_of_all {l : List Char} {P : Char → Prop} [DecidablePred P]
    (h : (l.all fun c => P c) = true) : ∀ c ∈ l, P c := by
  intro c hc
  exact of_decide_eq_true (List.all_eq_true.1 h c hc)

theorem digitChar_isLowerDigit : ∀ n < 16, IsLowerDigit (Nat.digitChar n) := by decide

theorem exists_digitChar : ∀ c ∈ "0123456789abcdef".toList, ∃ n < 16, Nat.digitChar n = c :=
  forall_mem_of_all (by decide)

theorem digitChar_inj : ∀ m < 16, ∀ n < 16, Nat.digitChar m = Nat.digitChar n → m = n := by decide

theorem isLowerDigit_iff {c : Char} : IsLowerDigit c ↔ ∃ n < 16, Nat.digitChar n = c := by
  refine ⟨exists_digitChar c, ?_⟩
  rintro ⟨n, hn, rfl⟩
  exact digitChar_isLowerDigit n hn

/-- An upper-case letter and the letter it is lowered to. -/
theorem toLower_cases (c : Char) :
    c.toLower = c ∨ 65 ≤ c.toNat ∧ c.toNat ≤ 90 ∧ c.toLower.toNat = c.toNat + 32 := by
  unfold Char.toLower
  split
  · rename_i h
    obtain ⟨h₁, h₂⟩ := h
    have hlo : 65 ≤ c.toNat := h₁
    have hhi : c.toNat ≤ 90 := h₂
    refine Or.inr ⟨hlo, hhi, ?_⟩
    show (c.val + 32).toNat = c.val.toNat + 32
    have : c.val.toNat ≤ 90 := hhi
    rw [UInt32.toNat_add]
    have h32 : (32 : UInt32).toNat = 32 := rfl
    omega
  · exact Or.inl rfl

theorem toLower_of_not_upper {c : Char} (h : ¬ (65 ≤ c.toNat ∧ c.toNat ≤ 90)) : c.toLower = c :=
  (toLower_cases c).resolve_right fun hc => h ⟨hc.1, hc.2.1⟩

@[simp] theorem toLower_toLower (c : Char) : c.toLower.toLower = c.toLower := by
  rcases toLower_cases c with h | ⟨h₁, h₂, h₃⟩
  · rw [h, h]
  · refine toLower_of_not_upper ?_
    omega

theorem lowerDigit_toNat {c : Char} (h : IsLowerDigit c) :
    48 ≤ c.toNat ∧ c.toNat ≤ 57 ∨ 97 ≤ c.toNat ∧ c.toNat ≤ 102 := by
  have hall : ∀ c ∈ "0123456789abcdef".toList,
      48 ≤ c.toNat ∧ c.toNat ≤ 57 ∨ 97 ≤ c.toNat ∧ c.toNat ≤ 102 := forall_mem_of_all (by decide)
  exact hall c h

/-- **A digit of either case lowers to a lower-case one**, and nothing else does. -/
theorem isDigit_iff {c : Char} : IsDigit c ↔ IsLowerDigit c.toLower := by
  constructor
  · intro h
    have hall : ∀ c ∈ "0123456789abcdefABCDEF".toList, IsLowerDigit c.toLower :=
      forall_mem_of_all (by decide)
    exact hall c h
  · intro h
    rcases toLower_cases c with heq | ⟨hlo, hhi, hadd⟩
    · rw [heq] at h
      have hall : ∀ c ∈ "0123456789abcdef".toList, IsDigit c := forall_mem_of_all (by decide)
      exact hall c h
    · -- only `A` to `F` lower to a hex digit
      have hF : c.toNat ≤ 70 := by
        have := lowerDigit_toNat h
        omega
      have hall : ∀ n, 65 ≤ n → n ≤ 70 → IsDigit (Char.ofNat n) := by
        intro n h₁ h₂
        interval_cases n <;> decide
      have := hall c.toNat hlo hF
      rwa [Char.ofNat_toNat] at this

theorem IsLowerDigit.toLower_eq {c : Char} (h : IsLowerDigit c) : c.toLower = c := by
  have := lowerDigit_toNat h
  exact toLower_of_not_upper (by omega)

/-- A digit takes one byte. -/
theorem IsDigit.utf8Size_eq {c : Char} (h : IsDigit c) : c.utf8Size = 1 := by
  have hall : ∀ c ∈ "0123456789abcdefABCDEF".toList, c.utf8Size = 1 := forall_mem_of_all (by decide)
  exact hall c h

/-! ## Texts -/

theorem encode_lower : ∀ {b : List UInt8}, ∀ c ∈ encode b, IsLowerDigit c := by
  intro b
  induction b with
  | nil => intro c hc; cases hc
  | cons x b ih =>
    intro c hc
    have hx := x.toNat_lt
    rcases List.mem_cons.1 hc with rfl | hc
    · exact digitChar_isLowerDigit _ (by omega)
    rcases List.mem_cons.1 hc with rfl | hc
    · exact digitChar_isLowerDigit _ (by omega)
    · exact ih c hc

theorem length_encode (b : List UInt8) : (encode b).length = 2 * b.length := by
  induction b with
  | nil => rfl
  | cons x b ih =>
    simp only [encode, List.length_cons, ih]
    omega

variable {s : List Char} {b : List UInt8}

theorem Spells.length_eq (h : Spells s b) : s.length = 2 * b.length := by
  rw [← length_encode, ← h, List.length_map]

theorem Spells.isDigit (h : Spells s b) : ∀ c ∈ s, IsDigit c := by
  intro c hc
  have hl : c.toLower ∈ encode b := by
    rw [← h]
    exact List.mem_map_of_mem hc
  exact isDigit_iff.2 (encode_lower _ hl)

/-- The case of the digits does not matter. -/
theorem spells_map_toLower : Spells (s.map Char.toLower) b ↔ Spells s b := by
  unfold Spells
  have : (s.map Char.toLower).map Char.toLower = s.map Char.toLower := by
    rw [List.map_map]
    exact List.map_congr_left fun c _ => toLower_toLower c
  rw [this]

/-- Two digits spell a byte. -/
theorem exists_byte {c d : Char} (hc : IsDigit c) (hd : IsDigit d) :
    ∃ x : UInt8, c.toLower = Nat.digitChar (x.toNat / 16) ∧ d.toLower = Nat.digitChar (x.toNat % 16) := by
  obtain ⟨m, hm, hmc⟩ := isLowerDigit_iff.1 (isDigit_iff.1 hc)
  obtain ⟨n, hn, hnd⟩ := isLowerDigit_iff.1 (isDigit_iff.1 hd)
  have hx : (UInt8.ofNat (16 * m + n)).toNat = 16 * m + n := by
    rw [UInt8.toNat_ofNat']
    omega
  refine ⟨UInt8.ofNat (16 * m + n), ?_, ?_⟩
  · rw [hx, show (16 * m + n) / 16 = m by omega, hmc]
  · rw [hx, show (16 * m + n) % 16 = n by omega, hnd]

/-- The texts that spell bytes. -/
theorem exists_spells_iff : (∃ b, Spells s b) ↔ s.length % 2 = 0 ∧ ∀ c ∈ s, IsDigit c := by
  constructor
  · rintro ⟨b, h⟩
    have := h.length_eq
    exact ⟨by omega, h.isDigit⟩
  · -- two digits at a time
    induction hn : s.length using Nat.strong_induction_on generalizing s with
    | _ n ih =>
      rintro ⟨heven, hdig⟩
      match s, hn with
      | [], _ => exact ⟨[], rfl⟩
      | [c], hn => simp only [List.length_singleton] at hn; omega
      | c :: d :: s, hn =>
        simp only [List.length_cons] at hn
        obtain ⟨b, hb⟩ := ih s.length (by omega) rfl
          ⟨by omega, fun x hx => hdig x (by simp [hx])⟩
        obtain ⟨x, hx₁, hx₂⟩ := exists_byte (hdig c (by simp)) (hdig d (by simp))
        refine ⟨x :: b, ?_⟩
        rw [Spells, List.map_cons, List.map_cons, encode, hx₁, hx₂, hb]

/-! ## Decoding -/

/-- The value of a digit. -/
def value (c : Char) : Option ℕ := (List.range 16).find? fun n => Nat.digitChar n = c.toLower

theorem value_eq_some_iff {c : Char} {n : ℕ} : value c = some n ↔ n < 16 ∧ Nat.digitChar n = c.toLower := by
  have sound : ∀ {m}, value c = some m → m < 16 ∧ Nat.digitChar m = c.toLower := by
    intro m h
    unfold value at h
    have hm := List.find?_some h
    rw [decide_eq_true_eq] at hm
    exact ⟨List.mem_range.1 (List.mem_of_find?_eq_some h), hm⟩
  constructor
  · exact sound
  · rintro ⟨hn, hc⟩
    cases hv : value c with
    | none =>
      have := List.find?_eq_none.1 hv n (List.mem_range.2 hn)
      simp [hc] at this
    | some m =>
      obtain ⟨hm, hmc⟩ := sound hv
      rw [digitChar_inj m hm n hn (hmc.trans hc.symm)]

/-- The bytes a text spells. -/
def decode : List Char → Option (List UInt8)
  | [] => some []
  | [_] => none
  | c :: d :: s =>
    match value c, value d, decode s with
    | some m, some n, some b => some (UInt8.ofNat (16 * m + n) :: b)
    | _, _, _ => none

theorem decode_encode (b : List UInt8) : ∀ s, Spells s b → decode s = some b := by
  induction b with
  | nil =>
    intro s hs
    have : s = [] := List.map_eq_nil_iff.1 hs
    rw [this, decode]
  | cons x b ih =>
    intro s hs
    match s with
    | [] => cases hs
    | [c] => simp [Spells, encode] at hs
    | c :: d :: s =>
      simp only [Spells, encode, List.map_cons, List.cons.injEq] at hs
      obtain ⟨hc, hd, hrest⟩ := hs
      have hx := x.toNat_lt
      have hm : value c = some (x.toNat / 16) := value_eq_some_iff.2 ⟨by omega, hc.symm⟩
      have hn : value d = some (x.toNat % 16) := value_eq_some_iff.2 ⟨by omega, hd.symm⟩
      rw [decode, hm, hn, ih s hrest]
      have hxx : UInt8.ofNat (16 * (x.toNat / 16) + x.toNat % 16) = x := by
        rw [show 16 * (x.toNat / 16) + x.toNat % 16 = x.toNat by omega, UInt8.ofNat_toNat]
      simp only [hxx]

theorem decode_eq_some_iff : decode s = some b ↔ Spells s b := by
  refine ⟨?_, decode_encode b s⟩
  fun_induction decode s generalizing b with
  | case1 => intro h; cases h; rfl
  | case2 => intro h; cases h
  | case3 c d s m n b₀ hb hn hm ih =>
    intro h
    cases h
    obtain ⟨hm, hmc⟩ := value_eq_some_iff.1 hm
    obtain ⟨hn, hnd⟩ := value_eq_some_iff.1 hn
    have hx : (UInt8.ofNat (16 * m + n)).toNat = 16 * m + n := by
      rw [UInt8.toNat_ofNat']
      omega
    rw [Spells, List.map_cons, List.map_cons, encode, hx, show (16 * m + n) / 16 = m by omega,
      show (16 * m + n) % 16 = n by omega, hmc, hnd, ih hb]
  | case4 => intro h; cases h

/-- A decoder of hexadecimal text: it finds the bytes a text spells, if it spells any. -/
structure Decoder where
  decode : String → Option (List UInt8)
  decode_eq_some_iff : ∀ {s : String} {b : List UInt8}, decode s = some b ↔ Spells s.toList b

/-- The decoder that reads two digits at a time. -/
def pairDecoder : Decoder where
  decode s := Hex.decode s.toList
  decode_eq_some_iff := Hex.decode_eq_some_iff

/-- A text that can be decoded: even length, hex digits only. -/
theorem Decoder.isSome_iff {D : Decoder} {s : String} :
    (∃ b, D.decode s = some b) ↔ s.length % 2 = 0 ∧ ∀ c ∈ s.toList, IsDigit c := by
  simp only [D.decode_eq_some_iff, exists_spells_iff, String.length_toList]

/-- A text of one-byte characters has as many bytes as characters. -/
theorem utf8ByteSize_eq {s : String} (h : ∀ c ∈ s.toList, IsDigit c) : s.utf8ByteSize = s.length := by
  have hlist : ∀ l : List Char, (∀ c ∈ l, IsDigit c) → (String.ofList l).utf8ByteSize = l.length := by
    intro l
    induction l with
    | nil => intro _; rfl
    | cons c l ih =>
      intro hl
      rw [show c :: l = [c] ++ l from rfl, String.ofList_append, String.utf8ByteSize_append,
        ih fun x hx => hl x (List.mem_cons_of_mem c hx), ← String.singleton_eq_ofList,
        String.utf8ByteSize_singleton, (hl c List.mem_cons_self).utf8Size_eq, List.length_append,
        List.length_singleton]
  have := hlist s.toList h
  rwa [String.ofList_toList, String.length_toList] at this

end Hex
