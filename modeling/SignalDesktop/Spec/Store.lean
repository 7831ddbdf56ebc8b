import SignalDesktop.Lib.SerdeJson
import SignalDesktop.Spec.Timeline

/-!
# The store readers

`conversations`, `messages`, `attachments`, `timeline` and `contacts` of an opened
database. Fields that drift across schema revisions are read from the row's `json`;
`parse` is the JSON parser (none for a text that is not JSON), and every text it
rejects degrades to absent fields.
-/

namespace SignalDesktop

open Sqlite SerdeJson

/-- `serde_json::from_str`, its error dropped. -/
abbrev Parser := String → Option Value

/-! ## Fields of the json -/

def strField (v : Value) (key : String) : Option String := (v.get key).bind Value.asStr

/-- First present string among several candidate keys. -/
def firstStr (v : Value) (keys : List String) : Option String := keys.findSome? (strField v)

/-- A flag that drifted between a column and the json: the column wins if it records a
value. -/
def flag (column : Option Int64) (json : Option Value) (key : String) : Option Bool :=
  match column with
  | some v => some (v != 0)
  | none => (json.bind (·.get key)).bind Value.asBool

/-- A wall-clock time: the column if it records a value, else the json. -/
def ts (column : Option Int64) (json : Option Value) (key : String) : Option Int64 :=
  match column with
  | some v => some v
  | none => (json.bind (·.get key)).bind Value.asI64

/-! ## The schema -/

/-- `messages` columns that only exist on some revisions, in projection order. -/
def optionalMessageColumns : List String :=
  ["received_at_ms", "serverTimestamp", "isViewOnce", "isErased"]

def messageAttachmentsTable : String := "message_attachments"

/-- `message_attachments` columns, in projection order. -/
def optionalAttachmentColumns : List String :=
  ["contentType", "path", "size", "fileName", "plaintextHash"]

/-- The column names a table has. Empty if there is no such table. -/
def tableColumns (db : Database) (table : String) : Result (List String) :=
  (db.readAll (.tableInfo table) fun row => get row String 1).mapError .query

/-- Project each wanted column, `NULL AS` the column for the ones not present, so that
the row indices do not depend on the revision. -/
def optionalProjection (present wanted : List String) : List ResultColumn :=
  wanted.map fun col => if present.contains col then .column col else .nullAs col

/-! ## Conversations -/

/-- A decoded row of `conversations`. -/
structure ConversationRow where
  id : String
  type : Option String
  activeAt : Option Int64
  json : Option String

def conversationsSelect : Select where
  columns := ["id", "type", "active_at", "json"].map .column
  table := "conversations"

def decodeConversation (row : List Cell) : Except Error ConversationRow := do
  let id ← get row String 0
  let type ← get row (Option String) 1
  let activeAt ← get row (Option Int64) 2
  let json ← get row (Option String) 3
  return { id, type, activeAt, json }

variable (parse : Parser)

def conversationOf (r : ConversationRow) : Conversation :=
  let v := r.json.bind parse
  { id := r.id
    kind := .fromType (r.type.getD "")
    serviceId := v.bind (firstStr · ["serviceId", "uuid"])
    e164 := v.bind (strField · "e164")
    name := v.bind (firstStr · ["name", "profileName", "profileFullName"])
    activeAt := r.activeAt }

/-- All conversations. -/
def conversations (db : Database) : Result (List Conversation) := do
  let rows ← (db.readAll (.select conversationsSelect) decodeConversation).mapError .query
  return rows.map (conversationOf parse)

def contactOf (c : Conversation) : Contact where
  conversationId := c.id
  serviceId := c.serviceId
  e164 := c.e164
  name := c.name

/-- The private conversations, projected to their identity fields. -/
def contacts (db : Database) : Result (List Contact) := do
  return ((← conversations parse db).filter fun c => c.kind = .«private»).map contactOf

/-! ## Messages -/

/-- A decoded row of `messages`, as projected by `messagesSelect`. -/
structure MessageRow where
  id : String
  conversationId : Option String
  sentAt : Option Int64
  receivedAt : Option Int64
  type : Option String
  body : Option String
  json : Option String
  receivedAtMs : Option Int64
  serverTimestamp : Option Int64
  viewOnceCol : Option Int64
  erasedCol : Option Int64

def messagesSelect (present : List String) : Select where
  columns :=
    ["id", "conversationId", "sent_at", "received_at", "type", "body", "json"].map .column ++
      optionalProjection present optionalMessageColumns
  table := "messages"

def decodeMessage (row : List Cell) : Except Error MessageRow := do
  let id ← get row String 0
  let conversationId ← get row (Option String) 1
  let sentAt ← get row (Option Int64) 2
  let receivedAt ← get row (Option Int64) 3
  let type ← get row (Option String) 4
  let body ← get row (Option String) 5
  let json ← get row (Option String) 6
  let receivedAtMs ← get row (Option Int64) 7
  let serverTimestamp ← get row (Option Int64) 8
  let viewOnceCol ← get row (Option Int64) 9
  let erasedCol ← get row (Option Int64) 10
  return { id, conversationId, sentAt, receivedAt, type, body, json, receivedAtMs,
           serverTimestamp, viewOnceCol, erasedCol }

def distinctIdsSelect : Select where
  columns := [.column "messageId"]
  table := messageAttachmentsTable
  distinct := true

/-- The ids of messages that have at least one `message_attachments` row. -/
def messageIdsWithTableAttachments (db : Database) : Result (List String) := do
  if (← tableColumns db messageAttachmentsTable).isEmpty then
    return []
  (db.readAll (.select distinctIdsSelect) fun row => get row String 0).mapError .query

/-- Whether the json carries a non-empty `attachments` array. -/
def hasJsonAttachments (v : Option Value) : Bool :=
  ((v.bind (·.get "attachments")).bind Value.asArray).any fun a => !a.isEmpty

def messageOf (withTableAttachments : List String) (r : MessageRow) : Message :=
  let v := r.json.bind parse
  { id := r.id
    conversationId := r.conversationId
    direction := .fromType (r.type.getD "")
    body := r.body
    sentAt := r.sentAt
    receivedAt := r.receivedAt
    receivedAtMs := ts r.receivedAtMs v "received_at_ms"
    serverTimestamp := ts r.serverTimestamp v "serverTimestamp"
    isViewOnce := flag r.viewOnceCol v "isViewOnce"
    isErased := flag r.erasedCol v "isErased"
    sourceServiceId := v.bind (firstStr · ["sourceServiceId", "source"])
    hasAttachments := hasJsonAttachments v || withTableAttachments.contains r.id }

/-- All messages. -/
def messages (db : Database) : Result (List Message) := do
  let withTableAttachments ← messageIdsWithTableAttachments db
  let present ← tableColumns db "messages"
  let rows ← (db.readAll (.select (messagesSelect present)) decodeMessage).mapError .query
  return rows.map (messageOf parse withTableAttachments)

/-- A timestamp-ordered timeline of all messages. -/
def timeline (db : Database) : Result (List TimelineEntry) := do
  return buildTimeline (← messages parse db)

/-! ## Attachments -/

/-- The record of one element of a json `attachments` array. -/
def jsonAttachment (messageId : String) (a : Value) : Attachment where
  messageId := messageId
  contentType := strField a "contentType"
  fileName := strField a "fileName"
  size := (a.get "size").bind Value.asI64
  path := strField a "path"
  plaintextHash := none

/-- Parse the `attachments` array out of one message's json. -/
def parseAttachmentsJson (messageId json : String) : List Attachment :=
  match parse json with
  | none => []
  | some v =>
    match (v.get "attachments").bind Value.asArray with
    | none => []
    | some arr => (arr.filter Value.isObject).map (jsonAttachment messageId)

def tableAttachmentsSelect (present : List String) : Select where
  columns := .column "messageId" :: optionalProjection present optionalAttachmentColumns
  table := messageAttachmentsTable
  orderBy := some "messageId"

def decodeAttachment (row : List Cell) : Except Error Attachment := do
  let messageId ← get row String 0
  let contentType ← get row (Option String) 1
  let path ← get row (Option String) 2
  let size ← get row (Option Int64) 3
  let fileName ← get row (Option String) 4
  let plaintextHash ← get row (Option String) 5
  return { messageId, contentType, path, size, fileName, plaintextHash }

/-- The records of `message_attachments`, empty on a revision that predates it. -/
def tableAttachments (db : Database) : Result (List Attachment) := do
  let present ← tableColumns db messageAttachmentsTable
  if present.isEmpty then
    return []
  (db.readAll (.select (tableAttachmentsSelect present)) decodeAttachment).mapError .query

def idJsonSelect : Select where
  columns := ["id", "json"].map .column
  table := "messages"

def decodeIdJson (row : List Cell) : Except Error (String × Option String) := do
  let id ← get row String 0
  let json ← get row (Option String) 1
  return (id, json)

/-- Attachment records of all messages: the table's, then those of the json of every
message the table has no row for. -/
def attachments (db : Database) : Result (List Attachment) := do
  let out ← tableAttachments db
  let fromTable := out.map Attachment.messageId
  let rows ← (db.readAll (.select idJsonSelect) decodeIdJson).mapError .query
  return out ++ rows.flatMap fun (id, json) =>
    if fromTable.contains id then [] else json.elim [] (parseAttachmentsJson parse id)

end SignalDesktop
