import SignalDesktop.Proof.KeyErrors
import SignalDesktop.Proof.Profile

/-!
# What is shown of a key

A key that is recovered is shown through its `Debug` text, an error through its `Display`
text. `Disclosure` is what the text gives away of the value the key is read from.

* `shown_unwrap`: the text is that of the disclosure (`disclosed`), and of nothing else.
* `key_disclosure`: two values are shown alike iff their disclosures are the same.
-/

namespace SignalDesktop

open Hex

variable {fromSlice : SliceParser} {D : Decoder} {bytes value : List UInt8} {RecoveredKey : Type}
  {decryptCookie : RecoveredKey → List UInt8 → Except String (List UInt8)} {catalog : Catalog}
  {files : Files} {profile : String} {recovered : RecoveredKey} {config : SignalConfig} {s : String}

/-- What a text gives away of a value. -/
inductive Disclosure
  /-- That it is a key. -/
  | key
  /-- How many bytes it has. -/
  | length (n : ℕ)
  /-- That it has 64 bytes, and how it starts. -/
  | offending (start : String)
  deriving DecidableEq

def Disclosure.text : Disclosure → String
  | key => "SqlcipherKey([64 hex chars redacted])"
  | length n => "recovered SQLCipher key is not 64 hex chars (got " ++ toString n ++ " chars)"
  | offending start => "config key field is not valid hex (offending prefix: " ++ start ++ ")"

/-- What is given away of a value that a key is read from. -/
def disclosed (value : List UInt8) : Disclosure :=
  match String.fromUTF8? ⟨value.toArray⟩ with
  | none => .length value.length
  | some s =>
    if s.utf8ByteSize ≠ 64 then .length s.utf8ByteSize
    else if IsHexKey s then .key
    else .offending (String.ofList (s.toList.take 8))

/-- What is shown of an attempt to recover a key. -/
def shown (texts : Texts) : Except ProfileError SqlcipherKey → String
  | .ok key => key.debug
  | .error err => err.display texts

/-! ## The disclosure of a value -/

theorem disclosed_bytes (s : String) : disclosed (Utf8.bytes s) =
    if s.utf8ByteSize ≠ 64 then .length s.utf8ByteSize
    else if IsHexKey s then .key
    else .offending (String.ofList (s.toList.take 8)) := by
  unfold disclosed
  rw [Utf8.fromUTF8?_bytes]

theorem disclosed_of_not_text (h : ¬ Utf8.IsText value) : disclosed value = .length value.length := by
  unfold disclosed
  rw [Utf8.fromUTF8?_eq_none_iff.2 h]

theorem IsHexKey.utf8ByteSize (h : IsHexKey s) : s.utf8ByteSize = 64 := by
  rw [utf8ByteSize_eq h.2]
  exact h.1

theorem disclosed_of_isHexKey (h : IsHexKey s) : disclosed (Utf8.bytes s) = .key := by
  have hlen := h.utf8ByteSize
  rw [disclosed_bytes, if_neg (not_not.2 hlen), if_pos h]

theorem disclosed_eq_key_iff : disclosed value = .key ↔ ∃ s, value = Utf8.bytes s ∧ IsHexKey s := by
  constructor
  · intro h
    by_cases ht : Utf8.IsText value
    · obtain ⟨s, rfl⟩ := ht
      rw [disclosed_bytes] at h
      by_cases hlen : s.utf8ByteSize = 64
      · by_cases hkey : IsHexKey s
        · exact ⟨s, rfl, hkey⟩
        · rw [if_neg (not_not.2 hlen), if_neg hkey] at h
          cases h
      · rw [if_pos hlen] at h
        cases h
    · rw [disclosed_of_not_text ht] at h
      cases h
  · rintro ⟨s, rfl, hs⟩
    exact disclosed_of_isHexKey hs

/-- At most the first 8 characters are given away. -/
theorem disclosed_offending {start : String} (h : disclosed value = .offending start) :
    ∃ s, value = Utf8.bytes s ∧ start.toList = s.toList.take 8 := by
  by_cases ht : Utf8.IsText value
  · obtain ⟨s, rfl⟩ := ht
    rw [disclosed_bytes] at h
    split at h
    · cases h
    · split at h
      · cases h
      · cases h
        exact ⟨s, rfl, String.toList_ofList⟩
  · rw [disclosed_of_not_text ht] at h
    cases h

/-! ## The text of a disclosure -/

theorem toString_nat_injective {n m : ℕ} (h : toString n = toString m) : n = m := by
  have hn := Nat.ofDigitChars_ten_toDigits (n := n)
  have hm := Nat.ofDigitChars_ten_toDigits (n := m)
  rw [Nat.toString_eq_repr, Nat.toString_eq_repr] at h
  rw [← Nat.toList_repr] at hn hm
  rw [h] at hn
  exact hn.symm.trans hm

/-- The first character of the text tells the kinds apart. -/
def Disclosure.initial : Disclosure → Char
  | key => 'S'
  | length _ => 'r'
  | offending _ => 'c'

theorem Disclosure.head_text (d : Disclosure) : d.text.toList.head? = some d.initial := by
  cases d with
  | key => rfl
  | length n =>
    unfold text
    rw [String.toList_append, String.toList_append]
    rfl
  | offending start =>
    unfold text
    rw [String.toList_append, String.toList_append]
    rfl

theorem Disclosure.initial_eq {d d' : Disclosure} (h : d.text = d'.text) : d.initial = d'.initial := by
  have hd := head_text d
  rw [h, head_text] at hd
  exact (Option.some.inj hd).symm

theorem Disclosure.text_injective : Function.Injective Disclosure.text := by
  intro d d' h
  have hinitial := initial_eq h
  cases d with
  | key =>
    cases d' with
    | key => rfl
    | length _ => exact absurd hinitial (by simp [initial])
    | offending _ => exact absurd hinitial (by simp [initial])
  | length n =>
    cases d' with
    | length m =>
      have hn := (String.append_right_inj _).1 ((String.append_left_inj _).1 h)
      rw [toString_nat_injective hn]
    | key => exact absurd hinitial (by simp [initial])
    | offending _ => exact absurd hinitial (by simp [initial])
  | offending start =>
    cases d' with
    | offending start' =>
      have hstart := (String.append_right_inj _).1 ((String.append_left_inj _).1 h)
      rw [hstart]
    | key => exact absurd hinitial (by simp [initial])
    | length _ => exact absurd hinitial (by simp [initial])

/-! ## What is shown -/

variable {texts : Texts}

/-- **The text shown is that of the disclosure.** -/
theorem shown_unwrap (h : KeyValue decryptCookie recovered config value) :
    shown texts ((unwrapSqlcipherKey D decryptCookie recovered config).mapError .signal) =
      (disclosed value).text := by
  by_cases ht : Utf8.IsText value
  · obtain ⟨s, rfl⟩ := ht
    rw [unwrap_of_text h]
    cases hs : SqlcipherKey.fromHex D s with
    | ok key =>
      rw [disclosed_of_isHexKey (fromHex_ok_iff.1 hs).1]
      rfl
    | error err =>
      rw [disclosed_bytes]
      cases fromHex_error_iff.1 hs with
      | length hlen =>
        rw [if_pos hlen]
        rfl
      | notHex hlen hdigits =>
        rw [if_neg (not_not.2 hlen), if_neg fun hkey => hdigits hkey.2]
        rfl
  · rw [unwrap_of_not_text h ht, disclosed_of_not_text ht]
    rfl

/-- **What is shown of a key.** Whichever value a profile's key is read from, the text shown
is a function of what is disclosed of the value, and two values are shown alike iff the same
is disclosed of them: of a key nothing but that it is one, of a text of 64 bytes with a
character that is no digit its first 8 characters, of any other value its length. -/
theorem key_disclosure (catalog : Catalog) (files : Files) (fromSlice : SliceParser) (D : Decoder)
    (decryptCookie : RecoveredKey → List UInt8 → Except String (List UInt8)) (texts : Texts) :
    (∀ profile recovered bytes config value,
      files.read (configPath catalog files profile) = .ok bytes →
      SignalConfig.fromBytes fromSlice D bytes = .ok config →
      KeyValue decryptCookie recovered config value →
      shown texts (profileKey catalog files fromSlice D decryptCookie profile recovered) =
        (disclosed value).text) ∧
    (∀ value value', (disclosed value).text = (disclosed value').text ↔ disclosed value = disclosed value') ∧
    (∀ value, disclosed value = .key ↔ ∃ s, value = Utf8.bytes s ∧ IsHexKey s) ∧
    (∀ value start, disclosed value = .offending start →
      ∃ s, value = Utf8.bytes s ∧ start.toList = s.toList.take 8) ∧
    ∀ value n, disclosed value = .length n → value.length = n := by
  refine ⟨?_, fun _ _ => Disclosure.text_injective.eq_iff, fun _ => disclosed_eq_key_iff,
    fun _ _ => disclosed_offending, ?_⟩
  · intro profile recovered bytes config value hread hparsed hvalue
    have hkey : recoverKey fromSlice D decryptCookie bytes recovered =
        unwrapSqlcipherKey D decryptCookie recovered config := by
      unfold recoverKey
      rw [hparsed]
      rfl
    rw [profileKey_of_bytes hread, hkey]
    exact shown_unwrap hvalue
  · intro value n h
    by_cases ht : Utf8.IsText value
    · obtain ⟨s, rfl⟩ := ht
      rw [disclosed_bytes] at h
      split at h
      · cases h
        exact Utf8.length_bytes s
      · split at h <;> cases h
    · rw [disclosed_of_not_text ht] at h
      cases h
      rfl

end SignalDesktop
