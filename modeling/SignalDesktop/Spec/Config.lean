import SignalDesktop.Lib.Hex
import SignalDesktop.Spec.Records

/-!
# The key store `config.json`

`SignalConfig.fromBytes` parses the file: an `encryptedKey` as hex, a legacy `key` as it
stands. `fromSlice` is the JSON parser (the document with its members in order, or the
message of a syntax error), `D` the hex decoder.
-/

namespace SignalDesktop

open SerdeJson

abbrev SliceParser := List UInt8 → Except String Value

/-- The content of `config.json` relevant to decryption. -/
structure SignalConfig where
  /-- The bytes of `encryptedKey`. -/
  encryptedKey : Option (List UInt8)
  legacyKeyHex : Option String

/-! ## Deserializing -/

structure RawConfig where
  encryptedKey : Option String := none
  key : Option String := none

/-- An optional string: null is none. -/
def optionString : Value → Except JsonError (Option String)
  | .null => .ok none
  | .string s => .ok (some s)
  | _ => .error .invalidType

/-- The members of an object, with the two fields found so far. A field may occur once,
other members are ignored. -/
def RawConfig.visitMap : List (String × Value) → Option (Option String) → Option (Option String) →
    Except JsonError RawConfig
  | [], encryptedKey, key => .ok { encryptedKey := encryptedKey.getD none, key := key.getD none }
  | (name, v) :: members, encryptedKey, key =>
    if name = "encryptedKey" then
      match encryptedKey with
      | some _ => .error (.duplicateField "encryptedKey")
      | none => do visitMap members (some (← optionString v)) key
    else if name = "key" then
      match key with
      | some _ => .error (.duplicateField "key")
      | none => do visitMap members encryptedKey (some (← optionString v))
    else visitMap members encryptedKey key

/-- The fields of an array, in declaration order. -/
def RawConfig.visitSeq : List Value → Except JsonError RawConfig
  | [] => .ok {}
  | [encryptedKey] => do return { encryptedKey := ← optionString encryptedKey }
  | encryptedKey :: key :: rest => do
    let encryptedKey ← optionString encryptedKey
    let key ← optionString key
    if rest.isEmpty then return { encryptedKey, key } else throw .trailingElements

def RawConfig.ofValue : Value → Except JsonError RawConfig
  | .object members => visitMap members none none
  | .array a => visitSeq a
  | _ => .error .invalidType

/-! ## Parsing -/

/-- The first 8 characters of an offending value. -/
def offendingChars (s : String) : String := String.ofList (s.toList.take 8)

variable (fromSlice : SliceParser) (D : Hex.Decoder)

def decodeHex (s : String) : Result (List UInt8) :=
  match D.decode s with
  | some bytes => .ok bytes
  | none => .error (.configKeyNotHex (offendingChars s))

namespace SignalConfig

/-- Parse `config.json`. -/
def fromBytes (bytes : List UInt8) : Result SignalConfig := do
  let doc ← (fromSlice bytes).mapError fun message => .configJson (.malformed message)
  let raw ← (RawConfig.ofValue doc).mapError .configJson
  let encryptedKey ←
    match raw.encryptedKey with
    | some hexStr => some <$> decodeHex D hexStr
    | none => pure none
  if encryptedKey.isNone && raw.key.isNone then
    throw .noKeyField
  return { encryptedKey, legacyKeyHex := raw.key }

/-- Whether there is any key material. -/
def hasKey (config : SignalConfig) : Bool :=
  config.encryptedKey.isSome || config.legacyKeyHex.isSome

end SignalConfig

end SignalDesktop
