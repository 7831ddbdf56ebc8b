import SignalDesktop.Proof.Recovery
import SignalDesktop.Spec.Profile

/-!
# What `config.json` says

The reader of the two fields is written out in the model; `RawConfig.ofValue_eq` says that it
is the derived deserializer.

* `config_exact`: which files give a config, which config, and which error each of the others
  gives.
* `config_rearranged`: neither the order of the members nor other members matter.
-/

namespace SignalDesktop

open Hex SerdeJson Derive

variable {fromSlice : SliceParser} {D : Decoder} {bytes : List UInt8} {v : Value}
  {members : List (String × Value)} {vals : List Value}

/-! ## Optional fields -/

/-- The values given to an optional field: nothing or a null, or one value of its type. -/
def Holds {α : Type} (get : Value → Option α) (vals : List Value) (x : Option α) : Prop :=
  (vals = [] ∨ vals = [.null]) ∧ x = none ∨ ∃ w a, vals = [w] ∧ get w = some a ∧ x = some a

theorem option_ok_iff {α : Type} {get : Value → Option α} {decode : Value → Except JsonError α}
    (hdecode : ∀ w a, decode w = .ok a ↔ get w = some a) (hnull : get .null = none) {w : Value}
    {x : Option α} :
    option decode w = .ok x ↔ w = .null ∧ x = none ∨ ∃ a, get w = some a ∧ x = some a := by
  by_cases hw : w = .null
  · subst hw
    unfold option
    rw [hnull]
    simp [eq_comm]
  · have hsome : option decode w = some <$> decode w := by
      unfold option
      split
      · exact absurd rfl hw
      · rfl
    rw [hsome]
    simp only [hw, false_and, false_or, ← hdecode]
    cases decode w with
    | error e => simp
    | ok a => simp [eq_comm]

theorem holds_iff {α : Type} {get : Value → Option α} {decode : Value → Except JsonError α}
    (hdecode : ∀ w a, decode w = .ok a ↔ get w = some a) (hnull : get .null = none) {x : Option α} :
    (vals = [] ∧ x = none ∨ ∃ w, vals = [w] ∧ option decode w = .ok x) ↔ Holds get vals x := by
  unfold Holds
  simp only [option_ok_iff hdecode hnull]
  constructor
  · rintro (⟨hnil, hx⟩ | ⟨w, hone, ⟨rfl, hx⟩ | ⟨a, ha, hx⟩⟩)
    · exact Or.inl ⟨Or.inl hnil, hx⟩
    · exact Or.inl ⟨Or.inr hone, hx⟩
    · exact Or.inr ⟨w, a, hone, ha, hx⟩
  · rintro (⟨hnil | hone, hx⟩ | ⟨w, a, hone, ha, hx⟩)
    · exact Or.inl ⟨hnil, hx⟩
    · exact Or.inr ⟨_, hone, Or.inl ⟨rfl, hx⟩⟩
    · exact Or.inr ⟨w, hone, Or.inr ⟨a, ha, hx⟩⟩

theorem accessor_ok_iff {α : Type} {get : Value → Option α} {w : Value} {a : α} :
    accessor get w = .ok a ↔ get w = some a := by
  unfold accessor
  cases get w <;> simp

theorem toOption_eq_some_iff {ε α : Type} {x : Except ε α} {a : α} : x.toOption = some a ↔ x = .ok a := by
  cases x <;> simp [Except.toOption]

theorem map_ok_iff {ε α β : Type} {f : α → β} {x : Except ε α} {b : β} :
    f <$> x = .ok b ↔ ∃ a, x = .ok a ∧ f a = b := by
  cases x <;> simp

theorem map_error_iff {ε α β : Type} {f : α → β} {x : Except ε α} {e : ε} :
    f <$> x = .error e ↔ x = .error e := by
  cases x <;> simp

/-! ## The fields of `config.json` -/

inductive RawField
  | encryptedKey
  | key
  deriving DecidableEq

def rawSchema : Schema RawField where
  fields := [.encryptedKey, .key]
  nodup := by decide
  complete f := by cases f <;> decide
  name
    | .encryptedKey => "encryptedKey"
    | .key => "key"
  name_injective f g := by cases f <;> cases g <;> decide
  Val _ := Option String
  default _ := none
  decode _ := optionString

/-- The fields found so far, as the reader of `RawConfig` keeps them. -/
def rawFound (encryptedKey key : Option (Option String)) : Derive.Found rawSchema
  | .encryptedKey => encryptedKey
  | .key => key

def RawConfig.ofValues (x : Values rawSchema) : RawConfig where
  encryptedKey := x .encryptedKey
  key := x .key

def RawConfig.values (raw : RawConfig) : Values rawSchema
  | .encryptedKey => raw.encryptedKey
  | .key => raw.key

theorem put_encryptedKey {e k : Option (Option String)} {x : Option String} :
    put (rawFound e k) .encryptedKey x = rawFound (some x) k := by
  funext f
  cases f <;> rfl

theorem put_key {e k : Option (Option String)} {x : Option String} :
    put (rawFound e k) .key x = rawFound e (some x) := by
  funext f
  cases f <;> rfl

theorem RawConfig.visitMap_eq : ∀ {e k : Option (Option String)},
    RawConfig.visitMap members e k =
      (fun found => RawConfig.ofValues (fill found)) <$> Derive.visitMap rawSchema members (rawFound e k) := by
  induction members with
  | nil =>
    intro e k
    rfl
  | cons m members ih =>
    obtain ⟨n, v⟩ := m
    intro e k
    unfold RawConfig.visitMap Derive.visitMap
    by_cases he : n = "encryptedKey"
    · have hf : fieldOf rawSchema n = some .encryptedKey := fieldOf_eq_some_iff.2 he.symm
      rw [if_pos he, hf]
      subst he
      cases e with
      | some x => rfl
      | none =>
        show (optionString v >>= _) = _ <$> (optionString v >>= _)
        cases optionString v with
        | error err => rfl
        | ok x =>
          refine ih.trans ?_
          show _ = _ <$> Derive.visitMap rawSchema members (put (rawFound none k) _ x)
          rw [put_encryptedKey]
    · rw [if_neg he]
      by_cases hk : n = "key"
      · have hf : fieldOf rawSchema n = some .key := fieldOf_eq_some_iff.2 hk.symm
        rw [if_pos hk, hf]
        subst hk
        cases k with
        | some x => rfl
        | none =>
          show (optionString v >>= _) = _ <$> (optionString v >>= _)
          cases optionString v with
          | error err => rfl
          | ok x =>
            refine ih.trans ?_
            show _ = _ <$> Derive.visitMap rawSchema members (put (rawFound e none) _ x)
            rw [put_key]
      · have hf : fieldOf rawSchema n = none := by
          rw [Option.eq_none_iff_forall_ne_some]
          intro f hf
          have hname := fieldOf_eq_some_iff.1 hf
          cases f with
          | encryptedKey => exact he hname.symm
          | key => exact hk hname.symm
        rw [if_neg hk, hf]
        exact ih

/-- **`config.json` is read by the derived deserializer** of its two fields. -/
theorem RawConfig.ofValue_eq (v : Value) :
    RawConfig.ofValue v = RawConfig.ofValues <$> Derive.ofValue rawSchema v := by
  cases v with
  | object members =>
    refine RawConfig.visitMap_eq.trans ?_
    show _ = _ <$> (fill <$> Derive.visitMap rawSchema members (noneFound rawSchema))
    have hnone : rawFound none none = noneFound rawSchema := by
      funext f
      cases f <;> rfl
    rw [hnone]
    cases Derive.visitMap rawSchema members (noneFound rawSchema) <;> rfl
  | array a =>
    cases a with
    | nil => rfl
    | cons e a =>
      cases a with
      | nil =>
        show (optionString e >>= _) = _ <$> (fill <$> (optionString e >>= _))
        cases optionString e <;> rfl
      | cons k a =>
        show (optionString e >>= _) = _ <$> (fill <$> (optionString e >>= _))
        cases optionString e with
        | error err => rfl
        | ok x =>
          show (optionString k >>= _) = _ <$> (fill <$> (optionString k >>= _))
          cases optionString k with
          | error err => rfl
          | ok y => cases a <;> rfl
  | null => rfl
  | bool b => rfl
  | number n => rfl
  | string s => rfl

theorem optionString_eq : optionString = option (accessor Value.asStr) := by
  funext w
  cases w <;> rfl

theorem rawSchema_gives {f : RawField} {x : Option String} :
    Gives rawSchema v f x ↔ Holds Value.asStr (given rawSchema v f) x := by
  rw [← holds_iff (fun w a => accessor_ok_iff) rfl, ← optionString_eq]
  rfl

theorem RawConfig.ofValue_ok_iff {raw : RawConfig} :
    RawConfig.ofValue v = .ok raw ↔ Shaped rawSchema v ∧
      Holds Value.asStr (given rawSchema v .encryptedKey) raw.encryptedKey ∧
      Holds Value.asStr (given rawSchema v .key) raw.key := by
  rw [RawConfig.ofValue_eq, ← rawSchema_gives, ← rawSchema_gives]
  constructor
  · intro h
    cases hx : Derive.ofValue rawSchema v with
    | error e =>
      rw [hx] at h
      cases h
    | ok x =>
      rw [hx] at h
      cases h
      obtain ⟨hshape, hall⟩ := Derive.ofValue_ok_iff.1 hx
      exact ⟨hshape, hall .encryptedKey, hall .key⟩
  · rintro ⟨hshape, he, hk⟩
    have hread : Derive.ofValue rawSchema v = .ok raw.values :=
      Derive.ofValue_ok_iff.2 ⟨hshape, fun f => by cases f <;> assumption⟩
    rw [hread]
    rfl

/-- The texts a file gives the two key fields. -/
def KeyFields (fromSlice : SliceParser) (bytes : List UInt8) (e k : Option String) : Prop :=
  ∃ doc, fromSlice bytes = .ok doc ∧ Shaped rawSchema doc ∧
    Holds Value.asStr (given rawSchema doc .encryptedKey) e ∧
    Holds Value.asStr (given rawSchema doc .key) k

theorem fromBytes_of_keyFields {e k : Option String} : KeyFields fromSlice bytes e k →
    SignalConfig.fromBytes fromSlice D bytes =
      match e, k with
      | none, none => .error .noKeyField
      | none, some s => .ok { encryptedKey := none, legacyKeyHex := some s }
      | some h, key => (decodeHex D h).map fun b => { encryptedKey := some b, legacyKeyHex := key } := by
  rintro ⟨doc, hdoc, hshape, he, hk⟩
  have hraw : RawConfig.ofValue doc = .ok ⟨e, k⟩ := RawConfig.ofValue_ok_iff.2 ⟨hshape, he, hk⟩
  exact fromBytes_of_raw hdoc hraw

/-- A file has its two fields, or is not the JSON that is expected. -/
theorem fromBytes_cases (fromSlice : SliceParser) (D : Decoder) (bytes : List UInt8) :
    (∃ e k, KeyFields fromSlice bytes e k) ∨
      ∃ e, SignalConfig.fromBytes fromSlice D bytes = .error (.configJson e) := by
  unfold SignalConfig.fromBytes
  cases hdoc : fromSlice bytes with
  | error message => exact Or.inr ⟨_, rfl⟩
  | ok doc =>
    show _ ∨ ∃ e, ((RawConfig.ofValue doc).mapError SignalError.configJson >>= _) = _
    cases hraw : RawConfig.ofValue doc with
    | error e => exact Or.inr ⟨e, rfl⟩
    | ok raw => exact Or.inl ⟨_, _, doc, hdoc, RawConfig.ofValue_ok_iff.1 hraw⟩

theorem RawConfig.ofValue_error_iff {e : JsonError} :
    RawConfig.ofValue (.object members) = .error e ↔ Fault rawSchema members e := by
  rw [RawConfig.ofValue_eq, ← visitMap_error_iff]
  exact map_error_iff.trans map_error_iff

/-- The config with these fields, the blob as the bytes its text spells. -/
def ConfigOf (e k : Option String) (config : SignalConfig) : Prop :=
  config.legacyKeyHex = k ∧
    (e = none ∧ config.encryptedKey = none ∨
      ∃ h b, e = some h ∧ config.encryptedKey = some b ∧ Spells h.toList b)

theorem fromBytes_fields {e k : Option String} (hfields : KeyFields fromSlice bytes e k) :
    (∃ config, SignalConfig.fromBytes fromSlice D bytes = .ok config ∧ ConfigOf e k config ∧
      (e ≠ none ∨ k ≠ none)) ∨
    SignalConfig.fromBytes fromSlice D bytes = .error .noKeyField ∧ e = none ∧ k = none ∨
    ∃ h, SignalConfig.fromBytes fromSlice D bytes = .error (.configKeyNotHex (offendingChars h)) ∧
      e = some h ∧ ¬ IsHexText h := by
  rw [fromBytes_of_keyFields hfields]
  cases e with
  | none =>
    cases k with
    | none => exact Or.inr (Or.inl ⟨rfl, rfl, rfl⟩)
    | some s => exact Or.inl ⟨_, rfl, ⟨rfl, Or.inl ⟨rfl, rfl⟩⟩, by simp⟩
  | some h =>
    by_cases hhex : IsHexText h
    · obtain ⟨b, hb⟩ := (Decoder.isSome_iff (D := D)).2 hhex
      refine Or.inl ⟨{ encryptedKey := some b, legacyKeyHex := k }, ?_,
        ⟨rfl, Or.inr ⟨h, b, rfl, rfl, D.decode_eq_some_iff.1 hb⟩⟩, by simp⟩
      show (decodeHex D h).map _ = _
      rw [decodeHex, hb]
      rfl
    · refine Or.inr (Or.inr ⟨h, ?_, rfl, hhex⟩)
      show (decodeHex D h).map _ = _
      rw [decodeHex_error hhex]
      rfl

theorem ConfigOf.unique {e k : Option String} {config config' : SignalConfig} (D : Decoder)
    (h : ConfigOf e k config) (h' : ConfigOf e k config') : config = config' := by
  obtain ⟨encryptedKey, legacy⟩ := config
  obtain ⟨encryptedKey', legacy'⟩ := config'
  obtain ⟨hk, he⟩ := h
  obtain ⟨hk', he'⟩ := h'
  have hlegacy : legacy = legacy' := hk.trans hk'.symm
  rcases he with ⟨hnone, hblob⟩ | ⟨t, b, hsome, hblob, hb⟩
  · rcases he' with ⟨-, hblob'⟩ | ⟨t', b', hsome', -⟩
    · rw [hlegacy, show encryptedKey = encryptedKey' from hblob.trans hblob'.symm]
    · rw [hnone] at hsome'
      cases hsome'
  · rcases he' with ⟨hnone', -⟩ | ⟨t', b', hsome', hblob', hb'⟩
    · rw [hsome] at hnone'
      cases hnone'
    · rw [hsome, Option.some.injEq] at hsome'
      subst hsome'
      -- a text spells one list of bytes
      have hd := D.decode_eq_some_iff.2 hb
      rw [D.decode_eq_some_iff.2 hb', Option.some.injEq] at hd
      subst hd
      rw [hlegacy, show encryptedKey = encryptedKey' from hblob.trans hblob'.symm]

theorem ConfigOf.isHexText {h : String} {k : Option String} {config : SignalConfig} (D : Decoder)
    (hc : ConfigOf (some h) k config) : IsHexText h := by
  rcases hc.2 with ⟨hnone, -⟩ | ⟨h', b, hsome, -, hb⟩
  · cases hnone
  · cases hsome
    exact (Decoder.isSome_iff (D := D)).1 ⟨b, D.decode_eq_some_iff.2 hb⟩

/-! ## What `config.json` says -/

theorem fromBytes_ok_iff {config : SignalConfig} :
    SignalConfig.fromBytes fromSlice D bytes = .ok config ↔
      ∃ e k, KeyFields fromSlice bytes e k ∧ (e ≠ none ∨ k ≠ none) ∧ ConfigOf e k config := by
  constructor
  · intro h
    rcases fromBytes_cases fromSlice D bytes with ⟨e, k, hfields⟩ | ⟨e, herr⟩
    · rcases fromBytes_fields (D := D) hfields with ⟨config', hok, hc, hne⟩ | ⟨herr, -⟩ | ⟨t, herr, -⟩
      · rw [hok, Except.ok.injEq] at h
        subst h
        exact ⟨e, k, hfields, hne, hc⟩
      · rw [herr] at h
        cases h
      · rw [herr] at h
        cases h
    · rw [herr] at h
      cases h
  · rintro ⟨e, k, hfields, hne, hc⟩
    rcases fromBytes_fields (D := D) hfields with ⟨config', hok, hc', -⟩ | ⟨-, rfl, rfl⟩ | ⟨t, -, rfl, hhex⟩
    · rw [hok, hc.unique D hc']
    · simp at hne
    · exact absurd (hc.isHexText D) hhex

theorem fromBytes_json_iff {e : JsonError} :
    SignalConfig.fromBytes fromSlice D bytes = .error (.configJson e) ↔
      (∃ message, fromSlice bytes = .error message ∧ e = .malformed message) ∨
        ∃ doc, fromSlice bytes = .ok doc ∧ RawConfig.ofValue doc = .error e := by
  constructor
  · intro h
    cases hdoc : fromSlice bytes with
    | error message =>
      unfold SignalConfig.fromBytes at h
      rw [hdoc] at h
      cases h
      exact Or.inl ⟨message, rfl, rfl⟩
    | ok doc =>
      refine Or.inr ⟨doc, rfl, ?_⟩
      cases hraw : RawConfig.ofValue doc with
      | error err =>
        unfold SignalConfig.fromBytes at h
        rw [hdoc] at h
        replace h : ((RawConfig.ofValue doc).mapError SignalError.configJson >>= _) = _ := h
        rw [hraw] at h
        cases h
        rfl
      | ok raw =>
        have hfields : KeyFields fromSlice bytes raw.encryptedKey raw.key :=
          ⟨doc, hdoc, RawConfig.ofValue_ok_iff.1 hraw⟩
        rcases fromBytes_fields (D := D) hfields with ⟨config', hok, -⟩ | ⟨herr, -⟩ | ⟨t, herr, -⟩
        · rw [hok] at h
          cases h
        · rw [herr] at h
          cases h
        · rw [herr] at h
          cases h
  · unfold SignalConfig.fromBytes
    rintro (⟨message, hdoc, rfl⟩ | ⟨doc, hdoc, hraw⟩)
    · rw [hdoc]
      rfl
    · rw [hdoc]
      show ((RawConfig.ofValue doc).mapError SignalError.configJson >>= _) = _
      rw [hraw]
      rfl

theorem fromBytes_error_iff {err : SignalError} :
    SignalConfig.fromBytes fromSlice D bytes = .error err ↔
      err = .noKeyField ∧ KeyFields fromSlice bytes none none ∨
      (∃ h k, err = .configKeyNotHex (offendingChars h) ∧
        KeyFields fromSlice bytes (some h) k ∧ ¬ IsHexText h) ∨
      ∃ e, err = .configJson e ∧ ((∃ message, fromSlice bytes = .error message ∧ e = .malformed message) ∨
        ∃ doc, fromSlice bytes = .ok doc ∧ RawConfig.ofValue doc = .error e) := by
  constructor
  · intro h
    rcases fromBytes_cases fromSlice D bytes with ⟨e, k, hfields⟩ | ⟨e, herr⟩
    · rcases fromBytes_fields (D := D) hfields with ⟨config', hok, -⟩ | ⟨herr, rfl, rfl⟩ | ⟨t, herr, rfl, hhex⟩
      · rw [hok] at h
        cases h
      · rw [herr] at h
        cases h
        exact Or.inl ⟨rfl, hfields⟩
      · rw [herr] at h
        cases h
        exact Or.inr (Or.inl ⟨t, k, rfl, hfields, hhex⟩)
    · have hjson := fromBytes_json_iff.1 herr
      rw [herr] at h
      cases h
      exact Or.inr (Or.inr ⟨e, rfl, hjson⟩)
  · rintro (⟨rfl, hfields⟩ | ⟨h, k, rfl, hfields, hhex⟩ | ⟨e, rfl, hjson⟩)
    · exact fromBytes_of_keyFields hfields
    · rw [fromBytes_of_keyFields hfields]
      show (decodeHex D h).map _ = _
      rw [decodeHex_error hhex]
      rfl
    · exact fromBytes_json_iff.2 hjson

/-- **What `config.json` says, exactly.** A config is returned iff the file gives the two
fields, not both of them nothing, and then it has the legacy key as it stands and the bytes
that `encryptedKey` spells. Without any of them, and with an `encryptedKey` that spells no
bytes, the error says so; every other error is about the JSON, and for an object it is the
one of the first member at fault. -/
theorem config_exact (fromSlice : SliceParser) (D : Decoder) (bytes : List UInt8) :
    (∀ config, SignalConfig.fromBytes fromSlice D bytes = .ok config ↔
      ∃ e k, KeyFields fromSlice bytes e k ∧ (e ≠ none ∨ k ≠ none) ∧ ConfigOf e k config) ∧
    (∀ err, SignalConfig.fromBytes fromSlice D bytes = .error err ↔
      err = .noKeyField ∧ KeyFields fromSlice bytes none none ∨
      (∃ h k, err = .configKeyNotHex (String.ofList (h.toList.take 8)) ∧
        KeyFields fromSlice bytes (some h) k ∧ ¬ IsHexText h) ∨
      ∃ e, err = .configJson e ∧ ((∃ message, fromSlice bytes = .error message ∧ e = .malformed message) ∨
        ∃ doc, fromSlice bytes = .ok doc ∧ RawConfig.ofValue doc = .error e)) ∧
    ∀ members e, RawConfig.ofValue (.object members) = .error e ↔ Fault rawSchema members e :=
  ⟨fun _ => fromBytes_ok_iff, fun _ => fromBytes_error_iff, fun _ _ => RawConfig.ofValue_error_iff⟩

/-! ## The order of the members -/

variable {bytes' : List UInt8} {members' : List (String × Value)} {RecoveredKey : Type}
  {decryptCookie : RecoveredKey → List UInt8 → Except String (List UInt8)}

theorem keyFields_rearranged (hdoc : fromSlice bytes = .ok (.object members))
    (hdoc' : fromSlice bytes' = .ok (.object members')) (h : Rearranged rawSchema members members')
    {e k : Option String} : KeyFields fromSlice bytes' e k ↔ KeyFields fromSlice bytes e k := by
  have hraw : ∀ {bytes members}, fromSlice bytes = .ok (.object members) →
      (KeyFields fromSlice bytes e k ↔ RawConfig.ofValue (.object members) = .ok ⟨e, k⟩) := by
    intro bytes members hdoc
    unfold KeyFields
    simp only [hdoc, Except.ok.injEq, exists_eq_left', RawConfig.ofValue_ok_iff]
  rw [hraw hdoc, hraw hdoc', RawConfig.ofValue_eq, RawConfig.ofValue_eq, map_ok_iff, map_ok_iff]
  simp only [h.ofValue_iff]

/-- A key is recovered from the config parsed. -/
theorem recoverKey_ok_iff {recovered : RecoveredKey} {key : SqlcipherKey} :
    recoverKey fromSlice D decryptCookie bytes recovered = .ok key ↔
      ∃ config, SignalConfig.fromBytes fromSlice D bytes = .ok config ∧
        unwrapSqlcipherKey D decryptCookie recovered config = .ok key := Sqlite.bind_ok_iff

/-- **The order of the members of `config.json` does not matter**, and neither do members
other than the two fields: the config, the key recovered and every error but those about the
JSON are the same. If the two fields stand in the same order, the JSON errors are of the same
kind too. -/
theorem config_rearranged (D : Decoder)
    (decryptCookie : RecoveredKey → List UInt8 → Except String (List UInt8))
    (hdoc : fromSlice bytes = .ok (.object members)) (hdoc' : fromSlice bytes' = .ok (.object members'))
    (h : (known rawSchema members').Perm (known rawSchema members)) :
    (∀ config, SignalConfig.fromBytes fromSlice D bytes' = .ok config ↔
      SignalConfig.fromBytes fromSlice D bytes = .ok config) ∧
    (∀ recovered key, recoverKey fromSlice D decryptCookie bytes' recovered = .ok key ↔
      recoverKey fromSlice D decryptCookie bytes recovered = .ok key) ∧
    (∀ err, (∀ e, err ≠ .configJson e) → (SignalConfig.fromBytes fromSlice D bytes' = .error err ↔
      SignalConfig.fromBytes fromSlice D bytes = .error err)) ∧
    (known rawSchema members' = known rawSchema members →
      SignalConfig.fromBytes fromSlice D bytes' = SignalConfig.fromBytes fromSlice D bytes) := by
  have hfields : ∀ e k, KeyFields fromSlice bytes' e k ↔ KeyFields fromSlice bytes e k := fun e k =>
    keyFields_rearranged hdoc hdoc' (rearranged_of_perm h)
  have hok : ∀ config, SignalConfig.fromBytes fromSlice D bytes' = .ok config ↔
      SignalConfig.fromBytes fromSlice D bytes = .ok config := by
    intro config
    rw [fromBytes_ok_iff, fromBytes_ok_iff]
    simp only [hfields]
  refine ⟨hok, ?_, ?_, ?_⟩
  · intro recovered key
    rw [recoverKey_ok_iff, recoverKey_ok_iff]
    simp only [hok]
  · intro err hjson
    rw [fromBytes_error_iff, fromBytes_error_iff]
    simp only [hfields]
    refine or_congr_right (or_congr_right (iff_of_false ?_ ?_))
    · rintro ⟨e, herr, -⟩
      exact hjson e herr
    · rintro ⟨e, herr, -⟩
      exact hjson e herr
  · intro hknown
    have hraw : RawConfig.ofValue (.object members') = RawConfig.ofValue (.object members) := by
      rw [RawConfig.ofValue_eq, RawConfig.ofValue_eq]
      show _ <$> (fill <$> Derive.visitMap rawSchema members' (noneFound rawSchema)) =
        _ <$> (fill <$> Derive.visitMap rawSchema members (noneFound rawSchema))
      rw [← visitMap_known, hknown, visitMap_known]
    unfold SignalConfig.fromBytes
    rw [hdoc, hdoc']
    show ((RawConfig.ofValue (.object members')).mapError _ >>= _) = _
    rw [hraw]
    rfl

/-! Two spellings of a config: the second in another order, with a member no field reads. -/

def orderedMembers : List (String × Value) := [("encryptedKey", .string "00ff"), ("key", .string sampleKey)]

def reorderedMembers : List (String × Value) :=
  [("key", .string sampleKey), ("mediaPermissions", .bool true), ("encryptedKey", .string "00ff")]

def orderedText : List UInt8 :=
  ("\x7b\"encryptedKey\":\"00ff\",\"key\":\"" ++ sampleKey ++ "\"\x7d").toUTF8.data.toList

def reorderedText : List UInt8 :=
  ("\x7b\"key\":\"" ++ sampleKey ++ "\",\"mediaPermissions\":true,\"encryptedKey\":\"00ff\"\x7d").toUTF8.data.toList

def configSpellings : SliceParser := fun bytes =>
  if bytes = orderedText then .ok (.object orderedMembers)
  else if bytes = reorderedText then .ok (.object reorderedMembers)
  else .error "expected value at line 1 column 1"

theorem configSpellings_ordered : configSpellings orderedText = .ok (.object orderedMembers) := if_pos rfl

theorem configSpellings_reordered : configSpellings reorderedText = .ok (.object reorderedMembers) := by
  have hne : reorderedText ≠ orderedText := by decide +kernel
  rw [configSpellings, if_neg hne, if_pos rfl]

theorem config_rearranged_sample :
    SignalConfig.fromBytes configSpellings pairDecoder reorderedText =
      .ok { encryptedKey := some [0x00, 0xff], legacyKeyHex := some sampleKey } := by
  refine ((config_rearranged pairDecoder failingDecrypt configSpellings_ordered
    configSpellings_reordered (List.Perm.swap _ _ _)).1 _).2 ?_
  unfold SignalConfig.fromBytes
  rw [configSpellings_ordered]
  rfl

end SignalDesktop
