import SignalDesktop.Lib.Utf8
import SignalDesktop.Proof.Recovery

/-!
# What a key error says

`unwrapSqlcipherKey` fails in four ways. `KeyFault` gives, for each of them, what is wrong
with the config or with the value a key is read from, and `unwrap_error_iff` says that the
error returned is the one of the fault. A length error may report the expected length: it is
also the error for a decrypted value that is not text (`length_error_of_64_bytes`).
-/

namespace SignalDesktop

open Hex

variable {D : Decoder} {RecoveredKey : Type}
  {decryptCookie : RecoveredKey → List UInt8 → Except String (List UInt8)}
  {recovered : RecoveredKey} {config : SignalConfig} {s : String} {err : SignalError}

/-! ## Faults of a text -/

/-- Why a text is not a key. -/
inductive TextFault (s : String) : SignalError → Prop
  | length (h : s.utf8ByteSize ≠ 64) : TextFault s (.badSqlcipherKeyLength s.utf8ByteSize)
  | notHex (h : s.utf8ByteSize = 64) (hs : ¬ ∀ c ∈ s.toList, IsDigit c) :
    TextFault s (.configKeyNotHex (offendingChars s))

/-- The digits of a text of 64 bytes are checked after lower-casing it. -/
theorem decode_lower_eq_none_iff (hlen : s.utf8ByteSize = 64) :
    D.decode (toAsciiLowercase s) = none ↔ ¬ ∀ c ∈ s.toList, IsDigit c := by
  rw [Option.eq_none_iff_forall_ne_some, ← not_exists, not_iff_not]
  simp only [decode_toAsciiLowercase]
  constructor
  · intro h
    exact (Decoder.isSome_iff.1 h).2
  · intro hs
    refine Decoder.isSome_iff.2 ⟨?_, hs⟩
    have := utf8ByteSize_eq hs
    omega

theorem fromHex_error_iff : SqlcipherKey.fromHex D s = .error err ↔ TextFault s err := by
  unfold SqlcipherKey.fromHex
  constructor
  · intro h
    split at h
    · rename_i hlen
      split at h
      · rename_i hnone
        cases h
        exact TextFault.notHex hlen ((decode_lower_eq_none_iff hlen).1 hnone)
      · cases h
    · rename_i hlen
      cases h
      exact TextFault.length hlen
  · intro h
    cases h with
    | length hlen => rw [dif_neg hlen]
    | notHex hlen hs =>
      rw [dif_pos hlen]
      have hnone := (decode_lower_eq_none_iff (D := D) hlen).2 hs
      split
      · rfl
      · rename_i b hb
        rw [hnone] at hb
        cases hb

/-! ## Faults of a config -/

/-- The value a key is read from: the legacy text, or what the blob decrypts to. -/
inductive KeyValue (decryptCookie : RecoveredKey → List UInt8 → Except String (List UInt8))
    (recovered : RecoveredKey) (config : SignalConfig) : List UInt8 → Prop
  | legacy {s : String} (h : config.legacyKeyHex = some s) :
    KeyValue decryptCookie recovered config (Utf8.bytes s)
  | decrypted {blob value : List UInt8} (h : config.legacyKeyHex = none)
    (he : config.encryptedKey = some blob) (hd : decryptCookie recovered blob = .ok value) :
    KeyValue decryptCookie recovered config value

/-- Why there is no key. -/
inductive KeyFault (decryptCookie : RecoveredKey → List UInt8 → Except String (List UInt8))
    (recovered : RecoveredKey) (config : SignalConfig) : SignalError → Prop
  | text {s : String} {err : SignalError} (hv : KeyValue decryptCookie recovered config (Utf8.bytes s))
    (hs : TextFault s err) : KeyFault decryptCookie recovered config err
  | notText {value : List UInt8} (hv : KeyValue decryptCookie recovered config value)
    (h : ¬ Utf8.IsText value) :
    KeyFault decryptCookie recovered config (.badSqlcipherKeyLength value.length)
  | decryption {blob : List UInt8} {e : String} (h : config.legacyKeyHex = none)
    (he : config.encryptedKey = some blob) (hd : decryptCookie recovered blob = .error e) :
    KeyFault decryptCookie recovered config (.keyUnwrap e)
  | noField (h : config.legacyKeyHex = none) (he : config.encryptedKey = none) :
    KeyFault decryptCookie recovered config .noKeyField

/-! How the value decides. -/

theorem unwrap_of_text (hv : KeyValue decryptCookie recovered config (Utf8.bytes s)) :
    unwrapSqlcipherKey D decryptCookie recovered config = SqlcipherKey.fromHex D s := by
  unfold unwrapSqlcipherKey
  generalize hb : Utf8.bytes s = b at hv
  cases hv with
  | legacy h => rw [h, Utf8.bytes_injective hb]
  | decrypted h he hd =>
    subst hb
    simp only [h, he, hd, Utf8.fromUTF8?_bytes]

theorem unwrap_of_not_text {value : List UInt8} (hv : KeyValue decryptCookie recovered config value)
    (h : ¬ Utf8.IsText value) :
    unwrapSqlcipherKey D decryptCookie recovered config =
      .error (.badSqlcipherKeyLength value.length) := by
  unfold unwrapSqlcipherKey
  cases hv with
  | legacy hl => exact absurd ⟨_, rfl⟩ h
  | decrypted hl he hd => simp only [hl, he, hd, Utf8.fromUTF8?_eq_none_iff.2 h]

/-- **A text is a key or not, anything else is a fault.** -/
theorem unwrap_cases (D : Decoder)
    (decryptCookie : RecoveredKey → List UInt8 → Except String (List UInt8))
    (recovered : RecoveredKey) (config : SignalConfig) :
    (∃ s, KeyValue decryptCookie recovered config (Utf8.bytes s) ∧
      unwrapSqlcipherKey D decryptCookie recovered config = SqlcipherKey.fromHex D s) ∨
    ∃ err, KeyFault decryptCookie recovered config err ∧
      unwrapSqlcipherKey D decryptCookie recovered config = .error err := by
  have hvalue : ∀ {value}, KeyValue decryptCookie recovered config value →
      (∃ s, KeyValue decryptCookie recovered config (Utf8.bytes s) ∧
        unwrapSqlcipherKey D decryptCookie recovered config = SqlcipherKey.fromHex D s) ∨
      ∃ err, KeyFault decryptCookie recovered config err ∧
        unwrapSqlcipherKey D decryptCookie recovered config = .error err := by
    intro value hv
    by_cases ht : Utf8.IsText value
    · obtain ⟨s, rfl⟩ := ht
      exact Or.inl ⟨s, hv, unwrap_of_text hv⟩
    · exact Or.inr ⟨_, KeyFault.notText hv ht, unwrap_of_not_text hv ht⟩
  cases hl : config.legacyKeyHex with
  | some s => exact hvalue (KeyValue.legacy hl)
  | none =>
    cases he : config.encryptedKey with
    | none =>
      refine Or.inr ⟨_, KeyFault.noField hl he, ?_⟩
      simp only [unwrapSqlcipherKey, hl, he]
    | some blob =>
      cases hd : decryptCookie recovered blob with
      | ok value => exact hvalue (KeyValue.decrypted hl he hd)
      | error e =>
        refine Or.inr ⟨_, KeyFault.decryption hl he hd, ?_⟩
        simp only [unwrapSqlcipherKey, hl, he, hd]

/-- **The error is the one of the fault.** -/
theorem unwrap_error_iff :
    unwrapSqlcipherKey D decryptCookie recovered config = .error err ↔
      KeyFault decryptCookie recovered config err := by
  constructor
  · intro h
    rcases unwrap_cases D decryptCookie recovered config with ⟨s, hv, heq⟩ | ⟨err', hf, heq⟩
    · rw [heq] at h
      exact KeyFault.text hv (fromHex_error_iff.1 h)
    · rw [heq] at h
      cases h
      exact hf
  · intro h
    cases h with
    | text hv hs => rw [unwrap_of_text hv, fromHex_error_iff.2 hs]
    | notText hv ht => exact unwrap_of_not_text hv ht
    | decryption hl he hd => simp only [unwrapSqlcipherKey, hl, he, hd]
    | noField hl he => simp only [unwrapSqlcipherKey, hl, he]

/-- **A key comes from a value that is its text.** -/
theorem unwrap_ok_iff {k : SqlcipherKey} :
    unwrapSqlcipherKey D decryptCookie recovered config = .ok k ↔
      ∃ s, KeyValue decryptCookie recovered config (Utf8.bytes s) ∧ IsHexKey s ∧
        k.hex = toAsciiLowercase s := by
  constructor
  · intro h
    rcases unwrap_cases D decryptCookie recovered config with ⟨s, hv, heq⟩ | ⟨err, -, heq⟩
    · rw [heq] at h
      exact ⟨s, hv, fromHex_ok_iff.1 h⟩
    · rw [heq] at h
      cases h
  · rintro ⟨s, hv, hkey⟩
    rw [unwrap_of_text hv]
    exact fromHex_ok_iff.2 hkey

/-! What each error says. -/

theorem keyFault_length_iff {len : ℕ} :
    KeyFault decryptCookie recovered config (.badSqlcipherKeyLength len) ↔
      ∃ value, KeyValue decryptCookie recovered config value ∧ value.length = len ∧
        (len ≠ 64 ∨ ¬ Utf8.IsText value) := by
  constructor
  · intro h
    cases h with
    | text hv hs =>
      cases hs with
      | length hlen => exact ⟨_, hv, Utf8.length_bytes _, Or.inl hlen⟩
    | notText hv ht => exact ⟨_, hv, rfl, Or.inr ht⟩
  · rintro ⟨value, hv, rfl, hlen⟩
    by_cases ht : Utf8.IsText value
    · obtain ⟨s, rfl⟩ := ht
      have hne := hlen.resolve_right fun hnot => hnot ⟨s, rfl⟩
      rw [Utf8.length_bytes] at hne ⊢
      exact KeyFault.text hv (TextFault.length hne)
    · exact KeyFault.notText hv ht

theorem keyFault_notHex_iff {offending : String} :
    KeyFault decryptCookie recovered config (.configKeyNotHex offending) ↔
      ∃ s, KeyValue decryptCookie recovered config (Utf8.bytes s) ∧ (Utf8.bytes s).length = 64 ∧
        (¬ ∀ c ∈ s.toList, IsDigit c) ∧ offending = String.ofList (s.toList.take 8) := by
  constructor
  · intro h
    cases h with
    | text hv hs =>
      cases hs with
      | notHex hlen hs => exact ⟨_, hv, (Utf8.length_bytes _).trans hlen, hs, rfl⟩
  · rintro ⟨s, hv, hlen, hs, rfl⟩
    rw [Utf8.length_bytes] at hlen
    exact KeyFault.text hv (TextFault.notHex hlen hs)

theorem keyFault_unwrap_iff {e : String} :
    KeyFault decryptCookie recovered config (.keyUnwrap e) ↔
      config.legacyKeyHex = none ∧
        ∃ blob, config.encryptedKey = some blob ∧ decryptCookie recovered blob = .error e := by
  constructor
  · intro h
    cases h with
    | text hv hs => cases hs
    | decryption hl he hd => exact ⟨hl, _, he, hd⟩
  · rintro ⟨hl, blob, he, hd⟩
    exact KeyFault.decryption hl he hd

theorem keyFault_noKeyField_iff :
    KeyFault decryptCookie recovered config .noKeyField ↔
      config.legacyKeyHex = none ∧ config.encryptedKey = none := by
  constructor
  · intro h
    cases h with
    | text hv hs => cases hs
    | noField hl he => exact ⟨hl, he⟩
  · rintro ⟨hl, he⟩
    exact KeyFault.noField hl he

/-! ## The errors -/

/-- **A key error names its cause**, and each cause gives its error.

* A length error reports the length of the value, which is not 64 bytes or not text.
* A hex error is about a text of 64 bytes with a character that is no digit, and shows its
  first 8 characters.
* An unwrap error is the decryption's.
* A missing field is reported only without both fields; a parsed config has one. -/
theorem key_errors_exact (D : Decoder)
    (decryptCookie : RecoveredKey → List UInt8 → Except String (List UInt8))
    (recovered : RecoveredKey) (config : SignalConfig) :
    (∀ len, unwrapSqlcipherKey D decryptCookie recovered config = .error (.badSqlcipherKeyLength len) ↔
      ∃ value, KeyValue decryptCookie recovered config value ∧ value.length = len ∧
        (len ≠ 64 ∨ ¬ Utf8.IsText value)) ∧
    (∀ offending, unwrapSqlcipherKey D decryptCookie recovered config =
        .error (.configKeyNotHex offending) ↔
      ∃ s, KeyValue decryptCookie recovered config (Utf8.bytes s) ∧ (Utf8.bytes s).length = 64 ∧
        (¬ ∀ c ∈ s.toList, IsDigit c) ∧ offending = String.ofList (s.toList.take 8)) ∧
    (∀ e, unwrapSqlcipherKey D decryptCookie recovered config = .error (.keyUnwrap e) ↔
      config.legacyKeyHex = none ∧
        ∃ blob, config.encryptedKey = some blob ∧ decryptCookie recovered blob = .error e) ∧
    (unwrapSqlcipherKey D decryptCookie recovered config = .error .noKeyField ↔
      config.legacyKeyHex = none ∧ config.encryptedKey = none) ∧
    ∀ fromSlice bytes, SignalConfig.fromBytes fromSlice D bytes = .ok config →
      unwrapSqlcipherKey D decryptCookie recovered config ≠ .error .noKeyField := by
  refine ⟨fun len => unwrap_error_iff.trans keyFault_length_iff,
    fun offending => unwrap_error_iff.trans keyFault_notHex_iff,
    fun e => unwrap_error_iff.trans keyFault_unwrap_iff,
    unwrap_error_iff.trans keyFault_noKeyField_iff, ?_⟩
  intro fromSlice bytes hparsed h
  have hkey := hasKey_of_fromBytes hparsed
  obtain ⟨hl, he⟩ := keyFault_noKeyField_iff.1 (unwrap_error_iff.1 h)
  unfold SignalConfig.hasKey at hkey
  rw [hl, he] at hkey
  cases hkey

/-! A blob under the OS key `0123456789abcdef` whose plaintext is 64 bytes that are no text. -/

def binaryPlaintext : List UInt8 := List.replicate 64 0xff

def binaryBlob : List UInt8 := (Hex.decode ("7631305f282a0a0eba5bda00361f5e44c2dc3c0b5465b388" ++
  "1657a206403aa0eaece43b8ca38d7f1c1b79a386cf0a6ecb6e3cb352768d0975bde059e3159b797c8f46d87ed8a9f8b" ++
  "cad54dbb8be8f448f327b23").toList).getD []

def binaryDecrypt (_ : Unit) (blob : List UInt8) : Except String (List UInt8) :=
  if blob = binaryBlob then .ok binaryPlaintext else .error "bad padding"

def binaryConfig : SignalConfig := { encryptedKey := some binaryBlob, legacyKeyHex := none }

theorem binaryPlaintext_not_text : ¬ Utf8.IsText binaryPlaintext := by
  rw [← Utf8.fromUTF8?_eq_none_iff]
  decide +kernel

/-- **A length error may report 64**, so it does not say that the length is wrong. -/
theorem length_error_of_64_bytes :
    unwrapSqlcipherKey pairDecoder binaryDecrypt () binaryConfig =
      .error (.badSqlcipherKeyLength 64) ∧
    ¬ ∀ len, unwrapSqlcipherKey pairDecoder binaryDecrypt () binaryConfig =
        .error (.badSqlcipherKeyLength len) →
      ∃ value, KeyValue binaryDecrypt () binaryConfig value ∧ value.length = len ∧ len ≠ 64 := by
  have hvalue : KeyValue binaryDecrypt () binaryConfig binaryPlaintext :=
    KeyValue.decrypted rfl rfl (if_pos rfl)
  have herr : unwrapSqlcipherKey pairDecoder binaryDecrypt () binaryConfig =
      .error (.badSqlcipherKeyLength 64) := unwrap_of_not_text hvalue binaryPlaintext_not_text
  refine ⟨herr, fun h => ?_⟩
  obtain ⟨value, -, -, hne⟩ := h 64 herr
  exact hne rfl

end SignalDesktop
