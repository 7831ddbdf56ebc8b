import Mathlib.Data.List.Basic

/-!
# JSON values

The value a JSON text parses to and its typed accessors. An integer is kept as an
unsigned or a (negative) signed 64-bit number, any other number as a double, so
`asI64` gives an integer only if it fits.
-/

namespace SerdeJson

inductive Number
  | posInt (n : UInt64)
  | negInt (i : Int64)
  | float (bits : UInt64)

inductive Value
  | null
  | bool (b : Bool)
  | number (n : Number)
  | string (s : String)
  | array (a : List Value)
  | object (m : List (String × Value))

/-- Why a JSON text is not read as the expected type: the kind of the error. The line, the
column and the value found there are left out. -/
inductive JsonError
  | malformed (message : String)
  | invalidType
  | duplicateField (field : String)
  | trailingElements
  deriving DecidableEq

def Number.asI64 : Number → Option Int64
  | .posInt n => if n.toNat ≤ Int64.maxValue.toInt then some n.toInt64 else none
  | .negInt i => some i
  | .float _ => none

/-- The member of an object; none for any other value. -/
def Value.get : Value → String → Option Value
  | .object m, key => m.lookup key
  | _, _ => none

def Value.asStr : Value → Option String
  | .string s => some s
  | _ => none

def Value.asBool : Value → Option Bool
  | .bool b => some b
  | _ => none

def Value.asI64 : Value → Option Int64
  | .number n => n.asI64
  | _ => none

def Value.asArray : Value → Option (List Value)
  | .array a => some a
  | _ => none

def Value.isObject : Value → Bool
  | .object _ => true
  | _ => false

end SerdeJson
