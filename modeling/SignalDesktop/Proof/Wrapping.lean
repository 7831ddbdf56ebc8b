import SignalDesktop.Proof.KeyErrors

/-!
# The modern key path inverts the wrapping

Signal stores its key as 64 hex digits, encrypted under an OS key and written in hex as
`encryptedKey`. `wrapping_inverse`: from any such writing the recovery finds the key in
lower case, and it finds a key from nothing else.
-/

namespace SignalDesktop

open Hex SerdeJson

variable {fromSlice : SliceParser} {D : Decoder} {RecoveredKey : Type}
  {decryptCookie : RecoveredKey → List UInt8 → Except String (List UInt8)} {bytes : List UInt8}
  {doc : Value} {h : String} {recovered : RecoveredKey} {k : SqlcipherKey}

/-- The document is read as a config with this `encryptedKey` and no `key`. -/
def WrappedOnly (doc : Value) (h : String) : Prop :=
  RawConfig.ofValue doc = .ok { encryptedKey := some h, key := none }

/-- An object with these members is read so. -/
theorem wrappedOnly_object {members : List (String × Value)}
    (he : StringMember members "encryptedKey" (some h)) (hkey : StringMember members "key" none) :
    WrappedOnly (.object members) h := visitMap_ok he hkey

/-- **Both hex layers and the decryption**: a key is the text that the decoded bytes decrypt to. -/
theorem recoverKey_wrapped_iff (hdoc : fromSlice bytes = .ok doc) (hw : WrappedOnly doc h) :
    recoverKey fromSlice D decryptCookie bytes recovered = .ok k ↔
      ∃ blob s, Spells h.toList blob ∧ decryptCookie recovered blob = .ok (Utf8.bytes s) ∧
        IsHexKey s ∧ k.hex = toAsciiLowercase s := by
  rw [recoverKey, fromBytes_of_raw hdoc hw]
  show ((decodeHex D h).map _ >>= _) = _ ↔ _
  unfold decodeHex
  cases hb : D.decode h with
  | none =>
    constructor
    · intro hk
      cases hk
    · rintro ⟨blob, s, hspells, -⟩
      rw [D.decode_eq_some_iff.2 hspells] at hb
      cases hb
  | some blob =>
    have hspells := D.decode_eq_some_iff.1 hb
    show unwrapSqlcipherKey D decryptCookie recovered
      { encryptedKey := some blob, legacyKeyHex := none } = _ ↔ _
    rw [unwrap_ok_iff]
    constructor
    · rintro ⟨s, hv, hkey⟩
      generalize hvb : Utf8.bytes s = value at hv
      cases hv with
      | legacy hl => cases hl
      | decrypted hl he hd =>
        cases he
        rw [← hvb] at hd
        exact ⟨blob, s, hspells, hd, hkey⟩
    · rintro ⟨blob', s, hspells', hd, hkey⟩
      -- a text spells the bytes it is decoded to and no others
      rw [D.decode_eq_some_iff.2 hspells'] at hb
      cases hb
      exact ⟨s, KeyValue.decrypted rfl rfl hd, hkey⟩

/-- **The modern key path inverts the wrapping and accepts nothing else.**

* A text of 64 hex digits, encrypted under an OS key and written in hex with any mix of
  cases, is recovered in lower case.
* A key is recovered only from an even number of hex digits, whose bytes the decryption
  takes to 64 hex digits, which are the key up to case. -/
theorem wrapping_inverse (fromSlice : SliceParser) (D : Decoder) {RecoveredKey : Type}
    (decryptCookie : RecoveredKey → List UInt8 → Except String (List UInt8))
    (mint : RecoveredKey → List UInt8 → List UInt8) :
    (∀ members h, StringMember members "encryptedKey" (some h) → StringMember members "key" none →
      WrappedOnly (.object members) h) ∧
    (∀ recovered, (∀ p, decryptCookie recovered (mint recovered p) = .ok p) →
      ∀ bytes doc h s, fromSlice bytes = .ok doc → WrappedOnly doc h → IsHexKey s →
        Spells h.toList (mint recovered (Utf8.bytes s)) →
        ∃ k, recoverKey fromSlice D decryptCookie bytes recovered = .ok k ∧
          k.hex = toAsciiLowercase s) ∧
    (∀ bytes doc h recovered k, fromSlice bytes = .ok doc → WrappedOnly doc h →
      recoverKey fromSlice D decryptCookie bytes recovered = .ok k →
      IsHexText h ∧ ∃ blob, D.decode h = some blob ∧
        ∃ s, decryptCookie recovered blob = .ok (Utf8.bytes s) ∧ IsHexKey s ∧
          k.hex = toAsciiLowercase s) := by
  refine ⟨fun members h he hkey => wrappedOnly_object he hkey, ?_, ?_⟩
  · intro recovered hmint bytes doc h s hdoc hw hs hspells
    obtain ⟨k, hk⟩ := (fromHex_isOk_iff (D := D)).2 hs
    have hhex : k.hex = toAsciiLowercase s := (fromHex_ok_iff.1 hk).2
    refine ⟨k, ?_, hhex⟩
    rw [recoverKey_wrapped_iff hdoc hw]
    exact ⟨_, s, hspells, hmint _, hs, hhex⟩
  · intro bytes doc h recovered k hdoc hw hk
    obtain ⟨blob, s, hspells, hd, hs, hhex⟩ := (recoverKey_wrapped_iff hdoc hw).1 hk
    have hdec : D.decode h = some blob := D.decode_eq_some_iff.2 hspells
    exact ⟨Decoder.isSome_iff.1 ⟨blob, hdec⟩, blob, hdec, s, hd, hs, hhex⟩

/-! The key `sampleKey` under the OS key `0123456789abcdef`, in mixed case. -/

def wrappedText : String := "7631308E11849E765Db9dF703F8A271CeFa2c591652F442DeBb07F32bA821537c99137d3" ++
  "c74B414594717F4A5922778Af50C521522a7f509522210b124a45891bD1EaB977Fd7562A1921bF748806b869b8e2b3"

def wrappedBlob : List UInt8 := (Hex.decode wrappedText.toList).getD []

def wrappedConfig : String :=
  "\x7b\"encryptedKey\":\"" ++ wrappedText ++ "\",\"mediaPermissions\":true\x7d"

def wrappedMembers : List (String × Value) :=
  [("encryptedKey", .string wrappedText), ("mediaPermissions", .bool true)]

def wrappedSlice : SliceParser := fun bytes =>
  if bytes = Utf8.bytes wrappedConfig then .ok (.object wrappedMembers)
  else .error "expected value at line 1 column 1"

def wrappedMint (_ : Unit) (p : List UInt8) : List UInt8 :=
  if p = Utf8.bytes sampleKey then wrappedBlob else wrappedBlob ++ 0 :: p

def wrappedDecrypt (_ : Unit) (blob : List UInt8) : Except String (List UInt8) :=
  if blob = wrappedBlob then .ok (Utf8.bytes sampleKey)
  else if blob.length ≤ wrappedBlob.length then .error "bad padding"
  else .ok (blob.drop (wrappedBlob.length + 1))

theorem wrappedDecrypt_mint (p : List UInt8) : wrappedDecrypt () (wrappedMint () p) = .ok p := by
  unfold wrappedMint
  by_cases hp : p = Utf8.bytes sampleKey
  · rw [if_pos hp, hp]
    exact if_pos rfl
  · have hlen : (wrappedBlob ++ 0 :: p).length = wrappedBlob.length + (p.length + 1) := by
      rw [List.length_append, List.length_cons]
    have hne : wrappedBlob ++ 0 :: p ≠ wrappedBlob := by
      intro heq
      rw [heq] at hlen
      omega
    have hdrop : (wrappedBlob ++ 0 :: p).drop (wrappedBlob.length + 1) = p := by
      rw [List.drop_append, List.drop_eq_nil_of_le (by omega)]
      simp
    unfold wrappedDecrypt
    rw [if_neg hp, if_neg hne, if_neg (by omega), hdrop]

theorem wrappedText_spells : Spells wrappedText.toList wrappedBlob := by
  have hlen : wrappedText.toList.length % 2 = 0 := by decide +kernel
  have hdig : ∀ c ∈ wrappedText.toList, IsDigit c := forall_mem_of_all (by decide +kernel)
  obtain ⟨b, hb⟩ := exists_spells_iff.2 ⟨hlen, hdig⟩
  unfold wrappedBlob
  rw [Hex.decode_eq_some_iff.2 hb]
  exact hb

theorem wrapping_inverse_sample :
    ∃ k, recoverKey wrappedSlice pairDecoder wrappedDecrypt (Utf8.bytes wrappedConfig) () = .ok k ∧
      k.hex = toAsciiLowercase sampleKey := by
  have hinv := wrapping_inverse wrappedSlice pairDecoder wrappedDecrypt wrappedMint
  have hmint : wrappedMint () (Utf8.bytes sampleKey) = wrappedBlob := if_pos rfl
  have hspells : Spells wrappedText.toList (wrappedMint () (Utf8.bytes sampleKey)) := by
    rw [hmint]
    exact wrappedText_spells
  have hdoc : wrappedSlice (Utf8.bytes wrappedConfig) = .ok (.object wrappedMembers) := if_pos rfl
  exact hinv.2.1 () wrappedDecrypt_mint _ _ wrappedText sampleKey hdoc
    (hinv.1 wrappedMembers wrappedText rfl rfl) isHexKey_sampleKey hspells

end SignalDesktop
