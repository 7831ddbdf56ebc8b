import SignalDesktop.Lib.SqlText
import SignalDesktop.Spec.Analyze

/-!
# The store readers with their SQL

The readers of `Spec/Store` as the store sends them: each builds the text of its statement, the
optional columns spliced in, and hands it to the connection (`readText`).
-/

namespace SignalDesktop.StoreSql

open Sqlite SqlText

/-- The column names a table has, from `PRAGMA table_info`. -/
def tableColumns (db : Database) (table : String) : Result (List String) :=
  (readText db ("PRAGMA table_info(" ++ table ++ ")") fun row => get row String 1).mapError .query

/-- The text that projects each wanted column, `NULL AS` the column for the ones not present. -/
def optionalProjection (present wanted : List String) : String :=
  ", ".intercalate (wanted.map fun col => if present.contains col then col else "NULL AS " ++ col)

def conversationsSql : String := "SELECT id, type, active_at, json FROM conversations"

def messagesSql (present : List String) : String :=
  "SELECT id, conversationId, sent_at, received_at, type, body, json, " ++
    optionalProjection present optionalMessageColumns ++ " FROM messages"

def idJsonSql : String := "SELECT id, json FROM messages"

def tableAttachmentsSql (present : List String) : String :=
  "SELECT messageId, " ++ optionalProjection present optionalAttachmentColumns ++ " FROM " ++
    messageAttachmentsTable ++ " ORDER BY messageId"

def distinctIdsSql : String := "SELECT DISTINCT messageId FROM " ++ messageAttachmentsTable

variable (parse : Parser)

def conversations (db : Database) : Result (List Conversation) := do
  let rows ← (readText db conversationsSql decodeConversation).mapError .query
  return rows.map (conversationOf parse)

def contacts (db : Database) : Result (List Contact) := do
  return ((← conversations parse db).filter fun c => c.kind = .«private»).map contactOf

def messageIdsWithTableAttachments (db : Database) : Result (List String) := do
  if (← tableColumns db messageAttachmentsTable).isEmpty then
    return []
  (readText db distinctIdsSql fun row => get row String 0).mapError .query

def messages (db : Database) : Result (List Message) := do
  let withTableAttachments ← messageIdsWithTableAttachments db
  let present ← tableColumns db "messages"
  let rows ← (readText db (messagesSql present) decodeMessage).mapError .query
  return rows.map (messageOf parse withTableAttachments)

def timeline (db : Database) : Result (List TimelineEntry) := do
  return buildTimeline (← messages parse db)

def tableAttachments (db : Database) : Result (List Attachment) := do
  let present ← tableColumns db messageAttachmentsTable
  if present.isEmpty then
    return []
  (readText db (tableAttachmentsSql present) decodeAttachment).mapError .query

def attachments (db : Database) : Result (List Attachment) := do
  let out ← tableAttachments db
  let fromTable := out.map Attachment.messageId
  let rows ← (readText db idJsonSql decodeIdJson).mapError .query
  return out ++ rows.flatMap fun (id, json) =>
    if fromTable.contains id then [] else json.elim [] (parseAttachmentsJson parse id)

def auditStore {Finding : Type} (toFinding : Observation → Source → Finding) (db : Database) :
    Result (List Finding) := do
  return audit toFinding (← conversations parse db) (← messages parse db) (← attachments parse db)

end SignalDesktop.StoreSql
