import SignalDesktop.Spec.Records

/-!
# The timeline

`buildTimeline` turns messages into entries ordered by timestamp. A message with no
wall-clock time is kept, with timestamp 0.
-/

namespace SignalDesktop

structure TimelineEntry where
  timestamp : Int64
  conversationId : Option String
  messageId : String
  direction : Direction
  summary : String
  deriving DecidableEq

/-- Maximum characters in a summary. -/
def summaryChars : ℕ := 80

/-- A preview of the body, or a placeholder. -/
def preview (body : Option String) (hasAttachments : Bool) : String :=
  let placeholder := if hasAttachments then "[attachment]" else "[no body]"
  match body with
  | some b => if b ≠ "" then String.ofList (b.toList.take summaryChars) else placeholder
  | none => placeholder

/-- Wall-clock times only: `receivedAt` is never a fallback. -/
def timelineEntry (m : Message) : TimelineEntry where
  timestamp := ((m.sentAt.or m.receivedAtMs).or m.serverTimestamp).getD 0
  conversationId := m.conversationId
  messageId := m.id
  direction := m.direction
  summary := preview m.body m.hasAttachments

/-- The sort is stable: ties stay in input order. -/
def buildTimeline (messages : List Message) : List TimelineEntry :=
  StableSort.sortByKey (fun e => e.timestamp.toInt) (messages.map timelineEntry)

end SignalDesktop
