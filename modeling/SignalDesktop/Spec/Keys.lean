import SignalDesktop.Spec.Config

/-!
# The SQLCipher key

`unwrapSqlcipherKey` recovers the raw key from the config, with `decryptCookie` for the
blob decryption under a recovered OS key. `openAt` opens the database with it.
-/

namespace SignalDesktop

/-- `str::to_ascii_lowercase`. -/
def toAsciiLowercase (s : String) : String := String.ofList (s.toList.map Char.toLower)

/-- 64 lower-case hex digits: a raw key of 32 bytes. -/
def IsRawKey (hex : String) : Prop := hex.length = 64 ∧ ∀ c ∈ hex.toList, Hex.IsLowerDigit c

instance : DecidablePred IsRawKey := fun hex =>
  have : Decidable (∀ c ∈ hex.toList, Hex.IsLowerDigit c) := List.decidableBAll _ _
  inferInstanceAs (Decidable (hex.length = 64 ∧ ∀ c ∈ hex.toList, Hex.IsLowerDigit c))

/-- A validated raw key. -/
structure SqlcipherKey where
  hex : String
  isRawKey : IsRawKey hex
  deriving DecidableEq

/-- A text of 64 bytes whose lower-casing can be decoded lower-cases to a raw key: its
characters are digits, so each of them is one byte. -/
theorem isRawKey_of_decode {D : Hex.Decoder} {s : String} {b : List UInt8} (hlen : s.utf8ByteSize = 64)
    (h : D.decode (toAsciiLowercase s) = some b) : IsRawKey (toAsciiLowercase s) := by
  rw [D.decode_eq_some_iff, toAsciiLowercase, String.toList_ofList, Hex.spells_map_toLower] at h
  have hdig := h.isDigit
  rw [Hex.utf8ByteSize_eq hdig] at hlen
  refine ⟨?_, ?_⟩
  · rw [toAsciiLowercase, String.length_ofList, List.length_map, String.length_toList, hlen]
  · intro c hc
    rw [toAsciiLowercase, String.toList_ofList] at hc
    obtain ⟨d, hd, rfl⟩ := List.mem_map.1 hc
    exact Hex.isDigit_iff.1 (hdig d hd)

variable (D : Hex.Decoder)

namespace SqlcipherKey

/-- Validate a raw key. -/
def fromHex (hexStr : String) : Result SqlcipherKey :=
  if hlen : hexStr.utf8ByteSize = 64 then
    match hb : D.decode (toAsciiLowercase hexStr) with
    | none => .error (.configKeyNotHex (offendingChars hexStr))
    | some _ => .ok ⟨toAsciiLowercase hexStr, isRawKey_of_decode hlen hb⟩
  else .error (.badSqlcipherKeyLength hexStr.utf8ByteSize)

/-- The key as the argument of `PRAGMA key`: raw, without key derivation. -/
def asPragma (key : SqlcipherKey) : String := "x'" ++ key.hex ++ "'"

end SqlcipherKey

/-- Recover the key: the legacy one if present, else the decrypted blob. -/
def unwrapSqlcipherKey {RecoveredKey : Type}
    (decryptCookie : RecoveredKey → List UInt8 → Except String (List UInt8))
    (recovered : RecoveredKey) (config : SignalConfig) : Result SqlcipherKey :=
  match config.legacyKeyHex with
  | some legacy => SqlcipherKey.fromHex D legacy
  | none =>
    match config.encryptedKey with
    | none => .error .noKeyField
    | some blob =>
      match decryptCookie recovered blob with
      | .error e => .error (.keyUnwrap e)
      | .ok plaintext =>
        match String.fromUTF8? ⟨plaintext.toArray⟩ with
        | none => .error (.badSqlcipherKeyLength plaintext.length)
        | some hexStr => SqlcipherKey.fromHex D hexStr

/-! ## Opening the database -/

/-- A call to the database library. -/
inductive Call
  | openReadOnly (path : String)
  | executeBatch (sql : String)
  | queryRow (sql : String)
  deriving DecidableEq

/-- How the library answers a call, given the calls before it: an error, or none. -/
abbrev Library := List Call → Call → Option Sqlite.Error

/-- A computation that keeps its calls, also when it fails. -/
abbrev OpenM := ExceptT SignalError (StateM (List Call))

def perform (lib : Library) (call : Call) : OpenM Unit := do
  let calls ← get
  set (calls ++ [call])
  match lib calls call with
  | none => return ()
  | some e => throw (.dbOpen e)

/-- Open a database file with the raw key: open it, set the key, and force a decryption. -/
def openAt (lib : Library) (dbPath : String) (key : SqlcipherKey) : OpenM Unit := do
  perform lib (.openReadOnly dbPath)
  perform lib (.executeBatch ("PRAGMA key = \"" ++ key.asPragma ++ "\";"))
  perform lib (.queryRow "SELECT count(*) FROM sqlite_master")

end SignalDesktop
