import SignalDesktop.Lib.SerdeJson
import SignalDesktop.Lib.Sqlite

/-!
# Typed records

The reader's output, and its failures. Enumerated fields keep an unrecognized `type`
verbatim (`other`).
-/

namespace SignalDesktop

/-- A reader failure. -/
inductive SignalError
  | configJson (error : SerdeJson.JsonError)
  | noKeyField
  /-- Carries up to the first 8 characters of the offending value. -/
  | configKeyNotHex (offending : String)
  /-- Carries the reason the blob could not be decrypted. -/
  | keyUnwrap (error : String)
  | badSqlcipherKeyLength (len : ℕ)
  | dbOpen (error : Sqlite.Error)
  | query (error : Sqlite.Error)
  deriving DecidableEq

abbrev Result (α : Type) := Except SignalError α

inductive ConversationKind
  | «private»
  | group
  | other (raw : String)
  deriving DecidableEq

/-- Classify the `type` column of a conversation. -/
def ConversationKind.fromType : String → ConversationKind
  | "private" => .«private»
  | "group" => .group
  | raw => .other raw

structure Conversation where
  id : String
  kind : ConversationKind
  serviceId : Option String
  e164 : Option String
  name : Option String
  activeAt : Option Int64
  deriving DecidableEq

/-- A private conversation, projected to its identity fields. -/
structure Contact where
  conversationId : String
  serviceId : Option String
  e164 : Option String
  name : Option String
  deriving DecidableEq

inductive Direction
  | incoming
  | outgoing
  | other (raw : String)
  deriving DecidableEq

/-- Classify the `type` column of a message. -/
def Direction.fromType : String → Direction
  | "incoming" => .incoming
  | "outgoing" => .outgoing
  | raw => .other raw

/-- The `Display` text. -/
def Direction.display : Direction → String
  | .incoming => "incoming"
  | .outgoing => "outgoing"
  | .other s => s

structure Message where
  id : String
  conversationId : Option String
  direction : Direction
  body : Option String
  sentAt : Option Int64
  /-- An ordering counter, not a time. -/
  receivedAt : Option Int64
  receivedAtMs : Option Int64
  serverTimestamp : Option Int64
  isViewOnce : Option Bool
  isErased : Option Bool
  sourceServiceId : Option String
  hasAttachments : Bool
  deriving DecidableEq

structure Attachment where
  messageId : String
  contentType : Option String
  fileName : Option String
  size : Option Int64
  path : Option String
  plaintextHash : Option String
  deriving DecidableEq

/-- **A direction displays as the text it was read from.** -/
@[simp] theorem Direction.display_fromType (raw : String) : (fromType raw).display = raw := by
  unfold fromType
  split <;> rfl

/-- The direction read from a text is the one that displays as it and that keeps no text with
a direction of its own. -/
theorem Direction.eq_fromType_iff {d : Direction} {raw : String} :
    d = fromType raw ↔ d.display = raw ∧ ∀ s, d = .other s → s ≠ "incoming" ∧ s ≠ "outgoing" := by
  constructor
  · rintro rfl
    refine ⟨display_fromType raw, fun s hs => ?_⟩
    have hraw : raw = s := by rw [← display_fromType raw, hs, display]
    subst hraw
    refine ⟨fun h => ?_, fun h => ?_⟩
    · rw [h] at hs
      cases hs
    · rw [h] at hs
      cases hs
  · rintro ⟨rfl, hother⟩
    cases d with
    | incoming => rfl
    | outgoing => rfl
    | other s =>
      obtain ⟨hin, hout⟩ := hother s rfl
      unfold fromType
      split
      · rename_i heq
        exact absurd heq hin
      · rename_i heq
        exact absurd heq hout
      · rfl

/-- The text a conversation kind was read from. -/
def ConversationKind.raw : ConversationKind → String
  | .«private» => "private"
  | .group => "group"
  | .other s => s

@[simp] theorem ConversationKind.raw_fromType (raw : String) : (fromType raw).raw = raw := by
  unfold fromType
  split <;> rfl

theorem ConversationKind.fromType_eq_private {raw : String} :
    fromType raw = .«private» ↔ raw = "private" := by
  unfold fromType
  split <;> simp_all

end SignalDesktop
