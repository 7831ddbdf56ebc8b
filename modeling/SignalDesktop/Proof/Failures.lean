import SignalDesktop.Lib.Failures
import SignalDesktop.Proof.Reads
import SignalDesktop.Spec.Analyze

/-!
# Why the readers fail

Each reader runs a few statements in turn and fails as the first of them that fails
(`InTurn`), with an error that names what is wrong: the missing table or column, the first cell
that is not of its column's kind, with its position and class, or the failure of the step.

`errors_exact` says so of all readers and of the audit. No json text decides a failure.
-/

namespace SignalDesktop

open Sqlite

variable {parse : Parser} {db : Database} {e : SignalError}

/-- A failed statement. -/
def Query (A : Error → Prop) (e : SignalError) : Prop := ∃ e₀, e = .query e₀ ∧ A e₀

/-! ## The columns -/

def conversationKinds : List Kind := [.text, .optText, .optInteger, .optText]

def messageKinds : List Kind :=
  [.text, .optText, .optInteger, .optInteger, .optText, .optText, .optText, .optInteger, .optInteger,
    .optInteger, .optInteger]

def attachmentKinds : List Kind := [.text, .optText, .optText, .optInteger, .optText, .optText]

theorem reads_conversation : Reads decodeConversation conversationKinds := by
  intro row
  unfold decodeConversation
  iterate 4 refine failureOf_bind fun _ => ?_
  rfl

theorem reads_message : Reads decodeMessage messageKinds := by
  intro row
  unfold decodeMessage
  iterate 11 refine failureOf_bind fun _ => ?_
  rfl

theorem reads_attachment : Reads decodeAttachment attachmentKinds := by
  intro row
  unfold decodeAttachment
  iterate 6 refine failureOf_bind fun _ => ?_
  rfl

theorem reads_idJson : Reads decodeIdJson [.text, .optText] := by
  intro row
  unfold decodeIdJson
  iterate 2 refine failureOf_bind fun _ => ?_
  rfl

theorem reads_id : Reads (fun row => get row String 0) [.text] := by
  intro row
  exact (Option.or_none ..).symm

/-! ## The readers -/

/-- Why the columns of a table cannot be probed. -/
def ProbeFails (db : Database) (table : String) : SignalError → Prop :=
  Query fun e => ∃ n, db.fault (.tableInfo table) = some (n, e)

def ConversationsFail (db : Database) : SignalError → Prop :=
  Query (SelectFails db conversationsSelect conversationKinds)

/-- A read of the attachment table, which is left out if there is none. -/
def TableReadFails (db : Database) (q : Select) (kinds : List Kind) : SignalError → Prop :=
  InTurn (ProbeFails db messageAttachmentsTable) fun e =>
    db.table messageAttachmentsTable ≠ none ∧ Query (SelectFails db q kinds) e

def MessagesFail (db : Database) : SignalError → Prop :=
  InTurn (TableReadFails db distinctIdsSelect [.text]) <|
    InTurn (ProbeFails db "messages") <|
      Query (SelectFails db (messagesSelect (db.columns "messages")) messageKinds)

def AttachmentsFail (db : Database) : SignalError → Prop :=
  InTurn (TableReadFails db (tableAttachmentsSelect (db.columns messageAttachmentsTable)) attachmentKinds) <|
    Query (SelectFails db idJsonSelect [.text, .optText])

def AuditFails (db : Database) : SignalError → Prop :=
  InTurn (ConversationsFail db) <| InTurn (MessagesFail db) <| AttachmentsFail db

theorem tableColumns_error_iff {table : String} (e : SignalError) :
    tableColumns db table = .error e ↔ ProbeFails db table e := by
  unfold tableColumns ProbeFails Query
  rw [mapError_error_iff]
  simp only [readAll_tableInfo_error_iff]

theorem query_error_iff {α : Type} {decode : List Cell → Except Error α} {q : Select} {kinds : List Kind}
    (h : Reads decode kinds) (hk : q.columns.length = kinds.length) (e : SignalError) :
    (db.readAll (.select q) decode).mapError .query = .error e ↔ Query (SelectFails db q kinds) e := by
  unfold Query
  rw [mapError_error_iff]
  simp only [readAll_select_error_iff h hk]

theorem conversations_error_iff (e : SignalError) :
    conversations parse db = .error e ↔ ConversationsFail db e := by
  unfold conversations
  rw [bind_pure_error_iff]
  exact query_error_iff reads_conversation rfl e

/-- A read of the attachment table, its columns probed first. -/
theorem tableRead_error_iff {α : Type} {read : List String → Result (List α)} {q : Select}
    {kinds : List Kind}
    (h : ∀ e, read (db.columns messageAttachmentsTable) = .error e ↔ Query (SelectFails db q kinds) e)
    (e : SignalError) :
    (tableColumns db messageAttachmentsTable >>= fun present =>
        if present.isEmpty then return [] else read present) = .error e ↔
      TableReadFails db q kinds e := by
  refine bind_error_iff_inTurn tableColumns_error_iff (fun present hp e => ?_) e
  obtain ⟨-, rfl⟩ := tableColumns_ok_iff.1 hp
  by_cases ht : db.table messageAttachmentsTable = none
  · rw [if_pos (columns_isEmpty_iff.2 ht)]
    constructor
    · rintro ⟨⟩
    · rintro ⟨hne, -⟩
      exact absurd ht hne
  · have hne : ¬ (db.columns messageAttachmentsTable).isEmpty = true := fun h => ht (columns_isEmpty_iff.1 h)
    rw [if_neg hne, h e]
    exact ⟨fun hs => ⟨ht, hs⟩, And.right⟩

theorem messageIds_error_iff (e : SignalError) :
    messageIdsWithTableAttachments db = .error e ↔ TableReadFails db distinctIdsSelect [.text] e :=
  tableRead_error_iff (fun e => query_error_iff reads_id rfl e) e

theorem tableAttachments_error_iff (e : SignalError) :
    tableAttachments db = .error e ↔
      TableReadFails db (tableAttachmentsSelect (db.columns messageAttachmentsTable)) attachmentKinds e :=
  tableRead_error_iff (fun e => query_error_iff reads_attachment rfl e) e

theorem messages_error_iff (e : SignalError) : messages parse db = .error e ↔ MessagesFail db e := by
  unfold messages
  refine bind_error_iff_inTurn messageIds_error_iff (fun ids _ e => ?_) e
  refine bind_error_iff_inTurn tableColumns_error_iff (fun present hp e => ?_) e
  obtain ⟨-, rfl⟩ := tableColumns_ok_iff.1 hp
  rw [bind_pure_error_iff]
  exact query_error_iff reads_message rfl e

theorem attachments_error_iff (e : SignalError) :
    attachments parse db = .error e ↔ AttachmentsFail db e := by
  unfold attachments
  refine bind_error_iff_inTurn tableAttachments_error_iff (fun out _ e => ?_) e
  rw [bind_pure_error_iff]
  exact query_error_iff reads_idJson rfl e

/-- **Every failure is the first one, and says what it is.** The readers and the audit fail
exactly as the statements they run, whatever the json is. -/
theorem errors_exact {Finding : Type} (toFinding : Observation → Source → Finding) (parse : Parser)
    (db : Database) (e : SignalError) :
    (conversations parse db = .error e ↔ ConversationsFail db e) ∧
    (contacts parse db = .error e ↔ ConversationsFail db e) ∧
    (messages parse db = .error e ↔ MessagesFail db e) ∧
    (timeline parse db = .error e ↔ MessagesFail db e) ∧
    (attachments parse db = .error e ↔ AttachmentsFail db e) ∧
    (auditStore toFinding parse db = .error e ↔ AuditFails db e) := by
  refine ⟨conversations_error_iff e, ?_, messages_error_iff e, ?_, attachments_error_iff e, ?_⟩
  · unfold contacts
    rw [bind_pure_error_iff]
    exact conversations_error_iff e
  · unfold timeline
    rw [bind_pure_error_iff]
    exact messages_error_iff e
  · unfold auditStore
    refine bind_error_iff_inTurn conversations_error_iff (fun cs _ e => ?_) e
    refine bind_error_iff_inTurn messages_error_iff (fun ms _ e => ?_) e
    rw [bind_pure_error_iff]
    exact attachments_error_iff e

end SignalDesktop
