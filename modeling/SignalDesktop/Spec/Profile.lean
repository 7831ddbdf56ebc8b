import SignalDesktop.Lib.Derive
import SignalDesktop.Spec.Keys

/-!
# The files of a profile

`config.json` and `ephemeral.json` are read from a profile directory, and the database in
it is opened. `Files` gives what reading a file returns and how paths are joined, `Catalog`
the stores of the known messengers.
-/

namespace SignalDesktop

open SerdeJson

/-! ## Paths -/

inductive StoreRole
  | messages
  | encryptionKey
  | attachments

/-- The relative path of each store of a messenger. -/
structure MessengerSpec where
  store : StoreRole → Option String

abbrev Catalog := String → Option MessengerSpec

/-- The app key of Signal Desktop in the catalog. -/
def app : String := "Signal Desktop"

variable (catalog : Catalog)

def spec : Option MessengerSpec := catalog app

def messagesDbRelpath : Option String := (spec catalog).bind (·.store .messages)

def configRelpath : Option String := (spec catalog).bind (·.store .encryptionKey)

def attachmentsRelpath : Option String := (spec catalog).bind (·.store .attachments)

/-! ## Files -/

/-- A failure on a file of a profile; the failures after its bytes are read are those of
`SignalError`, but for the second JSON file. -/
inductive ProfileError
  /-- Carries the path. -/
  | configRead (path source : String)
  | ephemeralJson (error : JsonError)
  | signal (error : SignalError)
  deriving DecidableEq

structure Files where
  join : String → String → String
  /-- The bytes of a file, or the text of the error. -/
  read : String → Except String (List UInt8)

variable (files : Files)

/-- Read a file, its error with the path. -/
def readFile (path : String) : Except ProfileError (List UInt8) :=
  (files.read path).mapError (.configRead path)

/-- Read and parse `config.json`. -/
def SignalConfig.fromProfile (fromSlice : SliceParser) (D : Hex.Decoder) (profile : String) :
    Except ProfileError SignalConfig := do
  let bytes ← readFile files (files.join profile ((configRelpath catalog).getD "config.json"))
  (fromBytes fromSlice D bytes).mapError .signal

/-- Open the database of a profile. -/
def openProfile (lib : Library) (profile : String) (key : SqlcipherKey) : OpenM Unit :=
  openAt lib (files.join profile ((messagesDbRelpath catalog).getD "sql/db.sqlite")) key

/-! ## What is shown -/

/-- The texts of the errors of other libraries. -/
structure Texts where
  json : JsonError → String
  sqlite : Sqlite.Error → String

variable (texts : Texts)

/-- The `Display` text. -/
def SignalError.display : SignalError → String
  | configJson e => "config.json is not valid JSON: " ++ texts.json e
  | noKeyField => "config.json has no `encryptedKey` (modern) or `key` (legacy) field"
  | configKeyNotHex offending =>
    "config key field is not valid hex (offending prefix: " ++ offending ++ ")"
  | keyUnwrap e => "cannot unwrap the SQLCipher key from encryptedKey: " ++ e
  | badSqlcipherKeyLength len =>
    "recovered SQLCipher key is not 64 hex chars (got " ++ toString len ++ " chars)"
  | dbOpen e => "cannot open the SQLCipher database (wrong key or corrupt DB): " ++ texts.sqlite e
  | query e => "SQLCipher query failed: " ++ texts.sqlite e

def ProfileError.display : ProfileError → String
  | configRead path source => "cannot read " ++ path ++ ": " ++ source
  | ephemeralJson e => "ephemeral.json is not valid JSON: " ++ texts.json e
  | signal e => e.display texts

/-- The `Debug` text, redacted. -/
def SqlcipherKey.debug (_ : SqlcipherKey) : String := "SqlcipherKey([64 hex chars redacted])"

/-! ## The app state `ephemeral.json` -/

/-- An `Option`: null is none. -/
def option {α : Type} (decode : Value → Except JsonError α) : Value → Except JsonError (Option α)
  | .null => .ok none
  | v => some <$> decode v

def accessor {α : Type} (get : Value → Option α) (v : Value) : Except JsonError α :=
  match get v with
  | some a => .ok a
  | none => .error .invalidType

/-- The last window geometry. -/
structure WindowState where
  width : Option Int64
  height : Option Int64
  x : Option Int64
  y : Option Int64
  maximized : Option Bool
  fullscreen : Option Bool
  deriving DecidableEq

inductive WindowField
  | width
  | height
  | x
  | y
  | maximized
  | fullscreen
  deriving DecidableEq

def windowSchema : Derive.Schema WindowField where
  fields := [.width, .height, .x, .y, .maximized, .fullscreen]
  nodup := by decide
  complete f := by cases f <;> decide
  name
    | .width => "width"
    | .height => "height"
    | .x => "x"
    | .y => "y"
    | .maximized => "maximized"
    | .fullscreen => "fullscreen"
  name_injective f g := by cases f <;> cases g <;> decide
  Val
    | .width | .height | .x | .y => Option Int64
    | .maximized | .fullscreen => Option Bool
  default
    | .width | .height | .x | .y => (none : Option Int64)
    | .maximized | .fullscreen => (none : Option Bool)
  decode
    | .width | .height | .x | .y => option (accessor Value.asI64)
    | .maximized | .fullscreen => option (accessor Value.asBool)

def WindowState.ofValues (x : Derive.Values windowSchema) : WindowState where
  width := x .width
  height := x .height
  x := x .x
  y := x .y
  maximized := x .maximized
  fullscreen := x .fullscreen

def WindowState.ofValue (v : Value) : Except JsonError WindowState :=
  ofValues <$> Derive.ofValue windowSchema v

/-- The app state; every field is optional. -/
structure EphemeralConfig where
  theme : Option String
  spellCheck : Option Bool
  localeOverride : Option String
  window : Option WindowState
  deriving DecidableEq

inductive EphemeralField
  | theme
  | spellCheck
  | localeOverride
  | window
  deriving DecidableEq

def ephemeralSchema : Derive.Schema EphemeralField where
  fields := [.theme, .spellCheck, .localeOverride, .window]
  nodup := by decide
  complete f := by cases f <;> decide
  name
    | .theme => "theme-setting"
    | .spellCheck => "spell-check"
    | .localeOverride => "localeOverride"
    | .window => "window"
  name_injective f g := by cases f <;> cases g <;> decide
  Val
    | .theme | .localeOverride => Option String
    | .spellCheck => Option Bool
    | .window => Option WindowState
  default
    | .theme | .localeOverride => (none : Option String)
    | .spellCheck => (none : Option Bool)
    | .window => (none : Option WindowState)
  decode
    | .theme | .localeOverride => option (accessor Value.asStr)
    | .spellCheck => option (accessor Value.asBool)
    | .window => option WindowState.ofValue

namespace EphemeralConfig

def ofValues (x : Derive.Values ephemeralSchema) : EphemeralConfig where
  theme := x .theme
  spellCheck := x .spellCheck
  localeOverride := x .localeOverride
  window := x .window

def ofValue (v : Value) : Except JsonError EphemeralConfig := ofValues <$> Derive.ofValue ephemeralSchema v

def relpath : String := "ephemeral.json"

/-- Parse `ephemeral.json`. -/
def fromBytes (fromSlice : SliceParser) (bytes : List UInt8) : Except ProfileError EphemeralConfig := do
  let doc ← (fromSlice bytes).mapError fun message => .ephemeralJson (.malformed message)
  (ofValue doc).mapError .ephemeralJson

/-- Read and parse `ephemeral.json`. -/
def fromProfile (fromSlice : SliceParser) (profile : String) : Except ProfileError EphemeralConfig := do
  let bytes ← readFile files (files.join profile relpath)
  fromBytes fromSlice bytes

end EphemeralConfig

end SignalDesktop
