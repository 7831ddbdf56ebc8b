import SignalDesktop.Proof.Keys

/-!
# Which field decides the recovery

`recoverKey` parses a config and recovers its key. A config may carry both fields; the
legacy `key` is then used, but the parser has decoded `encryptedKey` before.

* `legacy_key_decides`: next to a legacy key, an `encryptedKey` that is hex has no effect,
  and one that is not hex is a loud error whatever the key.
* `legacy_key_not_alone`: so the legacy key does not decide alone.
-/

namespace SignalDesktop

open Hex SerdeJson Sqlite

variable {fromSlice : SliceParser} {D : Decoder} {RecoveredKey : Type}
  {decryptCookie : RecoveredKey → List UInt8 → Except String (List UInt8)} {bytes : List UInt8}
  {members : List (String × Value)} {s : String} {e : Option String}

/-- Parse the config, then recover the key. -/
def recoverKey (fromSlice : SliceParser) (D : Decoder)
    (decryptCookie : RecoveredKey → List UInt8 → Except String (List UInt8)) (bytes : List UInt8)
    (recovered : RecoveredKey) : Result SqlcipherKey := do
  unwrapSqlcipherKey D decryptCookie recovered (← SignalConfig.fromBytes fromSlice D bytes)

/-- An even number of hex digits. -/
def IsHexText (h : String) : Prop := h.length % 2 = 0 ∧ ∀ c ∈ h.toList, IsDigit c

instance : DecidablePred IsHexText := fun h =>
  have : Decidable (∀ c ∈ h.toList, IsDigit c) := List.decidableBAll _ _
  inferInstanceAs (Decidable (h.length % 2 = 0 ∧ ∀ c ∈ h.toList, IsDigit c))

/-! ## Reading the members -/

/-- The member `name` of an object is this string, or absent. -/
def StringMember (members : List (String × Value)) (name : String) (v : Option String) : Prop :=
  members.filter (fun m => m.1 = name) = v.toList.map fun s => (name, Value.string s)

/-- The field `name` gets the value `v`, from what was found so far or from the members left. -/
def Found (members : List (String × Value)) (name : String) : Option (Option String) →
    Option String → Prop
  | none, v => StringMember members name v
  | some x, v => v = x ∧ StringMember members name none

variable {name n : String} {v : Value} {found : Option (Option String)} {x : Option String}

theorem Found.skip (h : Found ((n, v) :: members) name found x) (hne : n ≠ name) :
    Found members name found x := by
  have hskip : ∀ y, StringMember ((n, v) :: members) name y → StringMember members name y := by
    intro y hy
    rwa [StringMember, List.filter_cons_of_neg (by simpa using hne)] at hy
  cases found with
  | none => exact hskip x h
  | some y => exact ⟨h.1, hskip none h.2⟩

theorem Found.take (h : Found ((name, v) :: members) name found x) :
    found = none ∧ ∃ s, v = .string s ∧ Found members name (some (some s)) x := by
  cases found with
  | some y =>
    have hnone := h.2
    rw [StringMember, List.filter_cons_of_pos (by simp)] at hnone
    cases hnone
  | none =>
    have hsome : StringMember ((name, v) :: members) name x := h
    rw [StringMember, List.filter_cons_of_pos (by simp)] at hsome
    cases x with
    | none => cases hsome
    | some s =>
      simp only [Option.toList_some, List.map_cons, List.map_nil, List.cons.injEq, Prod.mk.injEq,
        true_and] at hsome
      exact ⟨rfl, s, hsome.1, rfl, hsome.2⟩

theorem Found.end (h : Found [] name found x) : found.getD none = x := by
  cases found with
  | some y => exact h.1.symm
  | none =>
    have hnil : StringMember [] name x := h
    cases x with
    | none => rfl
    | some s => cases hnil

/-- **Both fields are found wherever they stand**, among any other members. -/
theorem visitMap_ok {e₀ k₀ : Option (Option String)} {e k : Option String}
    (he : Found members "encryptedKey" e₀ e) (hk : Found members "key" k₀ k) :
    RawConfig.visitMap members e₀ k₀ = .ok { encryptedKey := e, key := k } := by
  -- the induction carries what the members before have given
  induction members generalizing e₀ k₀ with
  | nil => rw [RawConfig.visitMap, he.end, hk.end]
  | cons m members ih =>
    obtain ⟨n, v⟩ := m
    unfold RawConfig.visitMap
    by_cases hn : n = "encryptedKey"
    · subst hn
      obtain ⟨rfl, s, rfl, hrest⟩ := he.take
      rw [if_pos rfl]
      exact ih hrest (hk.skip (by decide))
    · rw [if_neg hn]
      by_cases hn' : n = "key"
      · subst hn'
        obtain ⟨rfl, s, rfl, hrest⟩ := hk.take
        rw [if_pos rfl]
        exact ih (he.skip hn) hrest
      · rw [if_neg hn']
        exact ih (he.skip hn) (hk.skip hn')

/-! ## The recovery -/

theorem decodeHex_ok {h : String} (hh : IsHexText h) : ∃ b, decodeHex D h = .ok b := by
  obtain ⟨b, hb⟩ := (Decoder.isSome_iff (D := D)).2 hh
  exact ⟨b, by rw [decodeHex, hb]⟩

theorem decodeHex_error {h : String} (hh : ¬ IsHexText h) :
    decodeHex D h = .error (.configKeyNotHex (offendingChars h)) := by
  cases hb : D.decode h with
  | none => rw [decodeHex, hb]
  | some b => exact absurd (Decoder.isSome_iff.1 ⟨b, hb⟩) hh

/-- **The parsed config**, from the two fields as the document has them. -/
theorem fromBytes_of_raw {doc : Value} {raw : RawConfig} (hdoc : fromSlice bytes = .ok doc)
    (hraw : RawConfig.ofValue doc = .ok raw) :
    SignalConfig.fromBytes fromSlice D bytes =
      match raw.encryptedKey, raw.key with
      | none, none => .error .noKeyField
      | none, some s => .ok { encryptedKey := none, legacyKeyHex := some s }
      | some h, key => (decodeHex D h).map fun b => { encryptedKey := some b, legacyKeyHex := key } := by
  unfold SignalConfig.fromBytes
  rw [hdoc]
  show ((RawConfig.ofValue doc).mapError SignalError.configJson >>= _) = _
  rw [hraw]
  obtain ⟨e, key⟩ := raw
  cases e with
  | none => cases key <;> rfl
  | some h =>
    -- `encryptedKey` is decoded before the legacy key is looked at
    show ((some <$> decodeHex D h) >>= _) = (decodeHex D h).map _
    cases decodeHex D h with
    | ok b => cases key <;> rfl
    | error err => rfl

theorem exists_raw_of_fromBytes {config : SignalConfig}
    (h : SignalConfig.fromBytes fromSlice D bytes = .ok config) :
    ∃ doc raw, fromSlice bytes = .ok doc ∧ RawConfig.ofValue doc = .ok raw := by
  unfold SignalConfig.fromBytes at h
  cases hdoc : fromSlice bytes with
  | error message =>
    rw [hdoc] at h
    cases h
  | ok doc =>
    rw [hdoc] at h
    replace h : ((RawConfig.ofValue doc).mapError SignalError.configJson >>= _) = _ := h
    cases hraw : RawConfig.ofValue doc with
    | error err =>
      rw [hraw] at h
      cases h
    | ok raw => exact ⟨doc, raw, rfl, hraw⟩

/-- A parsed config has a key field. -/
theorem hasKey_of_fromBytes {config : SignalConfig}
    (h : SignalConfig.fromBytes fromSlice D bytes = .ok config) : config.hasKey = true := by
  obtain ⟨doc, ⟨e, key⟩, hdoc, hraw⟩ := exists_raw_of_fromBytes h
  rw [fromBytes_of_raw hdoc hraw] at h
  cases e with
  | none =>
    cases key with
    | none => cases h
    | some s =>
      cases h
      rfl
  | some hexStr =>
    replace h : (decodeHex D hexStr).map _ = _ := h
    cases hb : decodeHex D hexStr with
    | error err =>
      rw [hb] at h
      cases h
    | ok b =>
      rw [hb] at h
      cases h
      rfl

/-- Next to a usable `encryptedKey`, or none, the outcome is that of the legacy key. -/
theorem recoverKey_eq (hdoc : fromSlice bytes = .ok (.object members))
    (hkey : StringMember members "key" (some s)) (he : StringMember members "encryptedKey" e)
    (hhex : ∀ h, e = some h → IsHexText h) (recovered : RecoveredKey) :
    recoverKey fromSlice D decryptCookie bytes recovered = SqlcipherKey.fromHex D s := by
  rw [recoverKey, fromBytes_of_raw hdoc (visitMap_ok he hkey)]
  cases e with
  | none => rfl
  | some h =>
    obtain ⟨b, hb⟩ := decodeHex_ok (hhex h rfl) (D := D)
    show ((decodeHex D h).map _ >>= _) = _
    rw [hb]
    rfl

/-- An `encryptedKey` that is not hex fails the parse. -/
theorem recoverKey_error {h : String} (hdoc : fromSlice bytes = .ok (.object members))
    (hkey : StringMember members "key" (some s)) (he : StringMember members "encryptedKey" (some h))
    (hhex : ¬ IsHexText h) (recovered : RecoveredKey) :
    recoverKey fromSlice D decryptCookie bytes recovered =
      .error (.configKeyNotHex (offendingChars h)) := by
  rw [recoverKey, fromBytes_of_raw hdoc (visitMap_ok he hkey)]
  show ((decodeHex D h).map _ >>= _) = _
  rw [decodeHex_error hhex]
  rfl

/-- **A legacy key decides among usable configs.** For an object with a string under `key`:
if `encryptedKey` is absent or hex, the outcome is that of the legacy key alone, under any
OS key, and is a key, the text in lower case, iff the text is 64 hex digits. If
`encryptedKey` is not hex the outcome is that error, whatever the legacy key. -/
theorem legacy_key_decides (hdoc : fromSlice bytes = .ok (.object members))
    (hkey : StringMember members "key" (some s)) (he : StringMember members "encryptedKey" e)
    (recovered : RecoveredKey) :
    ((∀ h, e = some h → IsHexText h) →
      recoverKey fromSlice D decryptCookie bytes recovered = SqlcipherKey.fromHex D s ∧
      ((∃ k, recoverKey fromSlice D decryptCookie bytes recovered = .ok k) ↔ IsHexKey s) ∧
      ∀ k, recoverKey fromSlice D decryptCookie bytes recovered = .ok k →
        k.hex = toAsciiLowercase s) ∧
    (∀ h, e = some h → ¬ IsHexText h →
      recoverKey fromSlice D decryptCookie bytes recovered =
        .error (.configKeyNotHex (String.ofList (h.toList.take 8)))) := by
  constructor
  · intro hhex
    have heq : recoverKey fromSlice D decryptCookie bytes recovered = SqlcipherKey.fromHex D s :=
      recoverKey_eq hdoc hkey he hhex recovered
    rw [heq]
    exact ⟨rfl, fromHex_isOk_iff, fun k hk => (fromHex_ok_iff.1 hk).2⟩
  · intro h heq hhex
    subst heq
    exact recoverKey_error hdoc hkey he hhex recovered

/-! Two configs with the same legacy key, one with an `encryptedKey` that is not hex. -/

def legacyText : String := "\x7b\"key\":\"" ++ sampleKey ++ "\"\x7d"

def clashText : String := "\x7b\"encryptedKey\":\"zzzz\",\"key\":\"" ++ sampleKey ++ "\"\x7d"

def legacyMembers : List (String × Value) := [("key", .string sampleKey)]

def clashMembers : List (String × Value) := [("encryptedKey", .string "zzzz"), ("key", .string sampleKey)]

def sampleSlice : SliceParser := fun bytes =>
  if bytes = clashText.toUTF8.data.toList then .ok (.object clashMembers)
  else if bytes = legacyText.toUTF8.data.toList then .ok (.object legacyMembers)
  else .error "expected value at line 1 column 1"

def failingDecrypt (_ : Unit) (_ : List UInt8) : Except String (List UInt8) := .error "bad padding"

theorem sampleSlice_clash : sampleSlice clashText.toUTF8.data.toList = .ok (.object clashMembers) :=
  if_pos rfl

theorem sampleSlice_legacy : sampleSlice legacyText.toUTF8.data.toList = .ok (.object legacyMembers) := by
  have hne : legacyText.toUTF8.data.toList ≠ clashText.toUTF8.data.toList := by decide +kernel
  rw [sampleSlice, if_neg hne, if_pos rfl]

theorem legacy_key_decides_sample :
    recoverKey sampleSlice pairDecoder failingDecrypt legacyText.toUTF8.data.toList () =
      SqlcipherKey.fromHex pairDecoder sampleKey :=
  ((legacy_key_decides sampleSlice_legacy rfl (e := none) rfl ()).1 (by simp)).1

/-- **The legacy key does not decide alone**: the first config fails and the second gives
a key. -/
theorem legacy_key_not_alone :
    sampleSlice clashText.toUTF8.data.toList = .ok (.object clashMembers) ∧
    sampleSlice legacyText.toUTF8.data.toList = .ok (.object legacyMembers) ∧
    StringMember clashMembers "key" (some sampleKey) ∧
    StringMember legacyMembers "key" (some sampleKey) ∧
    StringMember clashMembers "encryptedKey" (some "zzzz") ∧
    StringMember legacyMembers "encryptedKey" none ∧
    recoverKey sampleSlice pairDecoder failingDecrypt clashText.toUTF8.data.toList () =
      .error (.configKeyNotHex "zzzz") ∧
    ∃ k, recoverKey sampleSlice pairDecoder failingDecrypt legacyText.toUTF8.data.toList () = .ok k := by
  refine ⟨sampleSlice_clash, sampleSlice_legacy, rfl, rfl, rfl, rfl, ?_, ?_⟩
  · exact recoverKey_error sampleSlice_clash rfl rfl (by decide) ()
  · obtain ⟨k, hk⟩ := (fromHex_isOk_iff (D := pairDecoder)).2 isHexKey_sampleKey
    refine ⟨k, ?_⟩
    rw [recoverKey_eq sampleSlice_legacy rfl (e := none) rfl (by simp), hk]

end SignalDesktop
