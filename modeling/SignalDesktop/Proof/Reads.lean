import Mathlib.Data.List.Perm.Basic
import SignalDesktop.Lib.Overlay
import SignalDesktop.Lib.Pointwise
import SignalDesktop.Spec.Store

/-!
# What the readers read

Each reader succeeds iff the columns it needs exist, no step fails and every row of its
table *records* a typed row, cell by cell; its result is then a function of the typed
rows. All later proofs about the store use these lemmas and never unfold a reader.

* `conversations_ok_iff`, `messages_ok_iff`: one record per row, in row order.
* `mem_ids_iff`: the ids of the DISTINCT read are the ids of the table's rows.
* `attachments_ok_iff`: the records of both homes, read as an overlay.
-/

namespace SignalDesktop

open Sqlite SerdeJson Overlay Pointwise

variable {parse : Parser} {db : Database} {t : Table} {r : Row}

/-! ## Optional columns -/

/-- The value of a row under an optional column, NULL if the column is not present. -/
def optionalCell (present : List String) (r : Row) (c : String) : Cell :=
  if c ∈ present then r c else .null

theorem optionalProjection_eval (present wanted : List String) :
    (optionalProjection present wanted).map (·.eval r) = wanted.map (optionalCell present r) := by
  simp only [optionalProjection, List.map_map]
  refine List.map_congr_left fun c _ => ?_
  simp only [Function.comp, optionalCell, List.contains_iff_mem]
  split <;> rfl

/-- A projection only names columns that exist. -/
theorem optionalProjection_names (present wanted : List String) :
    ∀ c ∈ (optionalProjection present wanted).filterMap ResultColumn.source, c ∈ present := by
  intro c hc
  simp only [optionalProjection, List.filterMap_map, List.mem_filterMap, Function.comp,
    List.contains_iff_mem] at hc
  obtain ⟨w, -, hw⟩ := hc
  by_cases hp : w ∈ present
  · rw [if_pos hp] at hw; cases hw; exact hp
  · rw [if_neg hp] at hw; cases hw

/-! ## The schema probe -/

theorem tableColumns_ok_iff {table : String} {cols : List String} :
    tableColumns db table = .ok cols ↔
      db.fault (.tableInfo table) = none ∧ cols = db.columns table := by
  rw [tableColumns, mapError_ok_iff, readAll_tableInfo_ok_iff, Database.tableInfo,
    List.forall₂_map_left_iff]
  simp only [get_ok_iff, List.getElem?_cons_succ, List.getElem?_cons_zero, cell_string,
    Option.some.injEq, Cell.text.injEq]
  rw [← List.forall₂_map_left_iff (R := fun a b : String => a = b) (f := Prod.fst),
    List.forall₂_eq_eq_eq, List.zipIdx_map_fst]
  exact and_congr_right fun _ => eq_comm

theorem columns_eq {table : String} (h : db.table table = some t) : db.columns table = t.columns := by
  rw [Database.columns, h]; rfl

theorem rows_eq {table : String} (h : db.table table = some t) : db.rows table = t.rows := by
  rw [Database.rows, h]; rfl

theorem columns_isEmpty_iff {table : String} :
    (db.columns table).isEmpty = true ↔ db.table table = none := by
  unfold Database.columns
  cases h : db.table table with
  | none => simp
  | some t => simpa using t.columns_ne

/-! ## Conversations -/

/-- The row `r` records `c`. -/
structure ConversationRecorded (r : Row) (c : ConversationRow) : Prop where
  id : r "id" = .text c.id
  type : r "type" = .ofOption c.type
  activeAt : r "active_at" = .ofOption c.activeAt
  json : r "json" = .ofOption c.json

def conversationColumns : List String := ["id", "type", "active_at", "json"]

theorem conversationColumns_ne : conversationColumns ≠ [] := List.cons_ne_nil _ _

/-- Reading `conversations` gives the rows `l`. -/
structure ReadsConversations (db : Database) (t : Table) (l : List ConversationRow) : Prop where
  table : db.table "conversations" = some t
  columns : ∀ c ∈ conversationColumns, c ∈ t.columns
  fault : db.fault (.select conversationsSelect) = none
  rows : List.Forall₂ ConversationRecorded t.rows l

theorem decodeConversation_ok_iff {a b c d : Cell} {row : ConversationRow} :
    decodeConversation [a, b, c, d] = .ok row ↔
      a = .text row.id ∧ b = .ofOption row.type ∧ c = .ofOption row.activeAt ∧
        d = .ofOption row.json := by
  simp only [decodeConversation, bind_ok_iff, get_ok_iff, get_option_ok_iff, pure_ok_iff]
  simp only [List.getElem?_cons_zero, List.getElem?_cons_succ, Option.some.injEq, cell_string]
  constructor
  · rintro ⟨_, rfl, _, rfl, _, rfl, _, rfl, rfl⟩
    exact ⟨rfl, rfl, rfl, rfl⟩
  · rintro ⟨rfl, rfl, rfl, rfl⟩
    exact ⟨_, rfl, _, rfl, _, rfl, _, rfl, rfl⟩

theorem readConversations_ok_iff {l : List ConversationRow} :
    db.readAll (.select conversationsSelect) decodeConversation = .ok l ↔
      ∃ t, ReadsConversations db t l := by
  rw [readAll_select_ok_iff]
  refine exists_congr fun t => ?_
  rw [forall₂_run_iff (by rfl)]
  have hrow : ∀ r row, decodeConversation (conversationsSelect.columns.map (·.eval r)) = .ok row ↔
      ConversationRecorded r row := fun r row =>
    decodeConversation_ok_iff.trans ⟨fun ⟨h1, h2, h3, h4⟩ => ⟨h1, h2, h3, h4⟩,
      fun ⟨h1, h2, h3, h4⟩ => ⟨h1, h2, h3, h4⟩⟩
  simp only [hrow]
  exact ⟨fun ⟨h1, h2, h3, h4⟩ => ⟨h1, h2, h3, h4⟩, fun ⟨h1, h2, h3, h4⟩ => ⟨h1, h2, h3, h4⟩⟩

/-- **Conversations are the recorded rows, in row order.** -/
theorem conversations_ok_iff {cs : List Conversation} :
    conversations parse db = .ok cs ↔
      ∃ t l, ReadsConversations db t l ∧ cs = l.map (conversationOf parse) := by
  rw [conversations, bind_ok_iff]
  simp only [mapError_ok_iff, readConversations_ok_iff, pure_ok_iff]
  exact ⟨fun ⟨l, ⟨t, h⟩, e⟩ => ⟨t, l, h, e.symm⟩, fun ⟨t, l, h, e⟩ => ⟨l, ⟨t, h⟩, e.symm⟩⟩

/-! ## Messages -/

/-- The row `r`, of a table with the columns `present`, records `m`. -/
structure MessageRecorded (present : List String) (r : Row) (m : MessageRow) : Prop where
  id : r "id" = .text m.id
  conversationId : r "conversationId" = .ofOption m.conversationId
  sentAt : r "sent_at" = .ofOption m.sentAt
  receivedAt : r "received_at" = .ofOption m.receivedAt
  type : r "type" = .ofOption m.type
  body : r "body" = .ofOption m.body
  json : r "json" = .ofOption m.json
  receivedAtMs : optionalCell present r "received_at_ms" = .ofOption m.receivedAtMs
  serverTimestamp : optionalCell present r "serverTimestamp" = .ofOption m.serverTimestamp
  viewOnceCol : optionalCell present r "isViewOnce" = .ofOption m.viewOnceCol
  erasedCol : optionalCell present r "isErased" = .ofOption m.erasedCol

def messageColumns : List String :=
  ["id", "conversationId", "sent_at", "received_at", "type", "body", "json"]

theorem messageColumns_ne : messageColumns ≠ [] := List.cons_ne_nil _ _

/-- Reading `messages` gives the rows `l`. -/
structure ReadsMessages (db : Database) (t : Table) (l : List MessageRow) : Prop where
  table : db.table "messages" = some t
  columns : ∀ c ∈ messageColumns, c ∈ t.columns
  probe : db.fault (.tableInfo "messages") = none
  fault : db.fault (.select (messagesSelect t.columns)) = none
  rows : List.Forall₂ (MessageRecorded t.columns) t.rows l

theorem decodeMessage_ok_iff {a b c d e f g h i j k : Cell} {m : MessageRow} :
    decodeMessage [a, b, c, d, e, f, g, h, i, j, k] = .ok m ↔
      a = .text m.id ∧ b = .ofOption m.conversationId ∧ c = .ofOption m.sentAt ∧
        d = .ofOption m.receivedAt ∧ e = .ofOption m.type ∧ f = .ofOption m.body ∧
        g = .ofOption m.json ∧ h = .ofOption m.receivedAtMs ∧ i = .ofOption m.serverTimestamp ∧
        j = .ofOption m.viewOnceCol ∧ k = .ofOption m.erasedCol := by
  simp only [decodeMessage, bind_ok_iff, get_ok_iff, get_option_ok_iff, pure_ok_iff]
  simp only [List.getElem?_cons_zero, List.getElem?_cons_succ, Option.some.injEq, cell_string]
  constructor
  · rintro ⟨_, rfl, _, rfl, _, rfl, _, rfl, _, rfl, _, rfl, _, rfl, _, rfl, _, rfl, _, rfl, _, rfl,
      rfl⟩
    exact ⟨rfl, rfl, rfl, rfl, rfl, rfl, rfl, rfl, rfl, rfl, rfl⟩
  · rintro ⟨rfl, rfl, rfl, rfl, rfl, rfl, rfl, rfl, rfl, rfl, rfl⟩
    exact ⟨_, rfl, _, rfl, _, rfl, _, rfl, _, rfl, _, rfl, _, rfl, _, rfl, _, rfl, _, rfl, _, rfl,
      rfl⟩

/-- The projected row, at the fixed indices 0 to 10. -/
theorem messagesSelect_eval (present : List String) :
    (messagesSelect present).columns.map (·.eval r) =
      [r "id", r "conversationId", r "sent_at", r "received_at", r "type", r "body", r "json",
        optionalCell present r "received_at_ms", optionalCell present r "serverTimestamp",
        optionalCell present r "isViewOnce", optionalCell present r "isErased"] := by
  simp only [messagesSelect, List.map_append, optionalProjection_eval]
  rfl

theorem messagesSelect_names :
    (∀ c ∈ (messagesSelect t.columns).names, c ∈ t.columns) ↔ ∀ c ∈ messageColumns, c ∈ t.columns := by
  have hn : (messagesSelect t.columns).names = messageColumns ++
      (optionalProjection t.columns optionalMessageColumns).filterMap ResultColumn.source := by
    simp [Select.names, messagesSelect, messageColumns, ResultColumn.source]
  rw [hn]
  constructor
  · intro h c hc
    exact h c (List.mem_append_left _ hc)
  · intro h c hc
    rcases List.mem_append.1 hc with hc | hc
    · exact h c hc
    · exact optionalProjection_names _ _ c hc

theorem readMessages_ok_iff {l : List MessageRow} (ht : db.table "messages" = some t)
    (hp : db.fault (.tableInfo "messages") = none) :
    db.readAll (.select (messagesSelect t.columns)) decodeMessage = .ok l ↔
      ReadsMessages db t l := by
  rw [readAll_select_ok_iff]
  simp only [show (messagesSelect t.columns).table = "messages" from rfl, ht, Option.some.injEq,
    exists_eq_left', messagesSelect_names]
  rw [forall₂_run_iff (by rfl)]
  have hrow : ∀ r m, decodeMessage ((messagesSelect t.columns).columns.map (·.eval r)) = .ok m ↔
      MessageRecorded t.columns r m := fun r m => by
    rw [messagesSelect_eval, decodeMessage_ok_iff]
    exact ⟨fun ⟨h1, h2, h3, h4, h5, h6, h7, h8, h9, h10, h11⟩ =>
        ⟨h1, h2, h3, h4, h5, h6, h7, h8, h9, h10, h11⟩,
      fun ⟨h1, h2, h3, h4, h5, h6, h7, h8, h9, h10, h11⟩ =>
        ⟨h1, h2, h3, h4, h5, h6, h7, h8, h9, h10, h11⟩⟩
  simp only [hrow]
  exact ⟨fun ⟨h1, h2, h3⟩ => ⟨ht, h1, hp, h2, h3⟩, fun h => ⟨h.columns, h.fault, h.rows⟩⟩

/-- **Messages are the recorded rows, in row order.** -/
theorem messages_ok_iff {ms : List Message} :
    messages parse db = .ok ms ↔
      ∃ ids t l, messageIdsWithTableAttachments db = .ok ids ∧ ReadsMessages db t l ∧
        ms = l.map (messageOf parse ids) := by
  simp only [messages, bind_ok_iff, tableColumns_ok_iff, mapError_ok_iff, pure_ok_iff]
  constructor
  · rintro ⟨ids, hids, cols, ⟨hp, rfl⟩, l, hl, rfl⟩
    -- the SELECT succeeds, so the probed table exists
    obtain ⟨t, ht, -⟩ := readAll_select_ok_iff.1 hl
    rw [columns_eq (show db.table "messages" = some t from ht)] at hl
    exact ⟨ids, t, l, hids, (readMessages_ok_iff ht hp).1 hl, rfl⟩
  · rintro ⟨ids, t, l, hids, hr, rfl⟩
    refine ⟨ids, hids, _, ⟨hr.probe, rfl⟩, l, ?_, rfl⟩
    rw [columns_eq hr.table]
    exact (readMessages_ok_iff hr.table hr.probe).2 hr

/-- A message has the id of its row. -/
theorem map_id_messageOf (ids : List String) (l : List MessageRow) :
    (l.map (messageOf parse ids)).map Message.id = l.map MessageRow.id := by
  rw [List.map_map]
  rfl

theorem timeline_ok_iff {tl : List TimelineEntry} :
    timeline parse db = .ok tl ↔ ∃ ms, messages parse db = .ok ms ∧ tl = buildTimeline ms := by
  simp only [timeline, bind_ok_iff, pure_ok_iff, eq_comm (a := tl)]

/-! ## The attachment table -/

/-- The rows of the attachment table, none on a revision that predates it. -/
def attachmentRows (db : Database) : List Row := db.rows messageAttachmentsTable

/-- The attachment table has a row for message `i`. -/
def InTable (db : Database) (i : String) : Prop := ∃ r ∈ attachmentRows db, r "messageId" = .text i

/-- The DISTINCT read of the attachment table succeeds. -/
structure IdsReadable (db : Database) : Prop where
  probe : db.fault (.tableInfo messageAttachmentsTable) = none
  column : ∀ t, db.table messageAttachmentsTable = some t → "messageId" ∈ t.columns
  fault : ∀ t, db.table messageAttachmentsTable = some t →
    db.fault (.select distinctIdsSelect) = none
  ids : ∀ r ∈ attachmentRows db, ∃ i, r "messageId" = .text i

theorem mem_distinctIds {x : List Cell} :
    x ∈ distinctIdsSelect.run t ↔ ∃ r ∈ t.rows, x = [r "messageId"] := by
  simp only [Select.run, distinctIdsSelect, Select.scan, if_true, List.mem_eraseDups, List.mem_map,
    List.map_cons, List.map_nil, ResultColumn.eval, eq_comm]

theorem messageIds_ok_iff {ids : List String} :
    messageIdsWithTableAttachments db = .ok ids ↔
      db.fault (.tableInfo messageAttachmentsTable) = none ∧
        (db.table messageAttachmentsTable = none ∧ ids = [] ∨
          ∃ t, db.table messageAttachmentsTable = some t ∧ "messageId" ∈ t.columns ∧
            db.fault (.select distinctIdsSelect) = none ∧
            List.Forall₂ (fun x i => x = [Cell.text i]) (distinctIdsSelect.run t) ids) := by
  simp only [messageIdsWithTableAttachments, bind_ok_iff, tableColumns_ok_iff]
  constructor
  · rintro ⟨cols, ⟨hp, rfl⟩, h⟩
    refine ⟨hp, ?_⟩
    split at h
    · rename_i he
      exact Or.inl ⟨columns_isEmpty_iff.1 he, (pure_ok_iff.1 h).symm⟩
    · rw [mapError_ok_iff, readAll_select_ok_iff] at h
      obtain ⟨t, ht, hc, hf, hr⟩ := h
      refine Or.inr ⟨t, ht, hc _ (by simp [Select.names, distinctIdsSelect, ResultColumn.source]), hf, ?_⟩
      refine (List.forall₂_iff_zip.2 ⟨hr.length_eq, fun {x i} hxi => ?_⟩)
      obtain ⟨r, -, rfl⟩ := mem_distinctIds.1 (List.of_mem_zip hxi).1
      have := (List.forall₂_iff_zip.1 hr).2 hxi
      simpa [get_ok_iff] using this
  · rintro ⟨hp, h⟩
    refine ⟨_, ⟨hp, rfl⟩, ?_⟩
    rcases h with ⟨hn, rfl⟩ | ⟨t, ht, hc, hf, hr⟩
    · rw [if_pos (columns_isEmpty_iff.2 hn)]; rfl
    · rw [if_neg (by rw [columns_isEmpty_iff, ht]; simp), mapError_ok_iff, readAll_select_ok_iff]
      refine ⟨t, ht, by simpa [Select.names, distinctIdsSelect, ResultColumn.source] using hc, hf, hr.imp ?_⟩
      rintro x i rfl
      simp [get_ok_iff]

theorem attachmentRows_eq (h : db.table messageAttachmentsTable = some t) :
    attachmentRows db = t.rows := rows_eq h

theorem attachmentRows_nil (h : db.table messageAttachmentsTable = none) : attachmentRows db = [] := by
  rw [attachmentRows, Database.rows, h]; rfl

/-- **The ids read are the ids of the table's rows.** -/
theorem mem_ids_iff {ids : List String} (h : messageIdsWithTableAttachments db = .ok ids) {i : String} :
    i ∈ ids ↔ InTable db i := by
  obtain ⟨-, ⟨hn, rfl⟩ | ⟨t, ht, -, -, hr⟩⟩ := messageIds_ok_iff.1 h
  · simp [InTable, attachmentRows_nil hn]
  · rw [InTable, attachmentRows_eq ht]
    constructor
    · intro hi
      obtain ⟨x, hx, rfl⟩ := mem_of_forall₂_right hr hi
      obtain ⟨r, hr, hx⟩ := mem_distinctIds.1 hx
      exact ⟨r, hr, (List.singleton_inj.1 hx).symm⟩
    · rintro ⟨r, hrt, hri⟩
      obtain ⟨j, hj, hx⟩ := mem_of_forall₂_left hr (mem_distinctIds.2 ⟨r, hrt, rfl⟩)
      rw [hri, List.singleton_inj, Cell.text.injEq] at hx
      rwa [hx]

theorem exists_ids_iff : (∃ ids, messageIdsWithTableAttachments db = .ok ids) ↔ IdsReadable db := by
  simp only [messageIds_ok_iff]
  constructor
  · rintro ⟨ids, hp, ⟨hn, -⟩ | ⟨t, ht, hc, hf, hr⟩⟩
    · exact ⟨hp, by simp [hn], by simp [hn], by simp [attachmentRows_nil hn]⟩
    · refine ⟨hp, fun t' ht' => ?_, fun _ _ => hf, fun r hrt => ?_⟩
      · rw [ht] at ht'; cases ht'; exact hc
      · rw [attachmentRows_eq ht] at hrt
        obtain ⟨i, -, hx⟩ := mem_of_forall₂_left hr (mem_distinctIds.2 ⟨r, hrt, rfl⟩)
        exact ⟨i, List.singleton_inj.1 hx⟩
  · intro h
    cases ht : db.table messageAttachmentsTable with
    | none => exact ⟨[], h.probe, Or.inl ⟨rfl, rfl⟩⟩
    | some t =>
      have hall : ∀ x ∈ distinctIdsSelect.run t, ∃ i, x = [Cell.text i] := by
        intro x hx
        obtain ⟨r, hr, rfl⟩ := mem_distinctIds.1 hx
        obtain ⟨i, hi⟩ := h.ids r (by rwa [attachmentRows_eq ht])
        exact ⟨i, by rw [hi]⟩
      obtain ⟨ids, hids⟩ := exists_forall₂ hall
      exact ⟨ids, h.probe, Or.inr ⟨t, rfl, h.column t ht, h.fault t ht, hids⟩⟩

/-- The row `r`, of a table with the columns `present`, records the attachment `a`. -/
structure AttachmentRecorded (present : List String) (r : Row) (a : Attachment) : Prop where
  messageId : r "messageId" = .text a.messageId
  contentType : optionalCell present r "contentType" = .ofOption a.contentType
  path : optionalCell present r "path" = .ofOption a.path
  size : optionalCell present r "size" = .ofOption a.size
  fileName : optionalCell present r "fileName" = .ofOption a.fileName
  plaintextHash : optionalCell present r "plaintextHash" = .ofOption a.plaintextHash

/-- Reading the attachment table gives the records `l`, in the order of their rows. -/
inductive ReadsTable (db : Database) : List Attachment → Prop
  | absent : db.fault (.tableInfo messageAttachmentsTable) = none →
      db.table messageAttachmentsTable = none → ReadsTable db []
  | present (t : Table) (l : List Attachment) :
      db.fault (.tableInfo messageAttachmentsTable) = none →
      db.table messageAttachmentsTable = some t → "messageId" ∈ t.columns →
      db.fault (.select (tableAttachmentsSelect t.columns)) = none →
      List.Forall₂ (AttachmentRecorded t.columns) t.rows l → ReadsTable db l

theorem decodeAttachment_ok_iff {a b c d e f : Cell} {row : Attachment} :
    decodeAttachment [a, b, c, d, e, f] = .ok row ↔
      a = .text row.messageId ∧ b = .ofOption row.contentType ∧ c = .ofOption row.path ∧
        d = .ofOption row.size ∧ e = .ofOption row.fileName ∧ f = .ofOption row.plaintextHash := by
  simp only [decodeAttachment, bind_ok_iff, get_ok_iff, get_option_ok_iff, pure_ok_iff]
  simp only [List.getElem?_cons_zero, List.getElem?_cons_succ, Option.some.injEq, cell_string]
  constructor
  · rintro ⟨_, rfl, _, rfl, _, rfl, _, rfl, _, rfl, _, rfl, rfl⟩
    exact ⟨rfl, rfl, rfl, rfl, rfl, rfl⟩
  · rintro ⟨rfl, rfl, rfl, rfl, rfl, rfl⟩
    exact ⟨_, rfl, _, rfl, _, rfl, _, rfl, _, rfl, _, rfl, rfl⟩

theorem tableAttachmentsSelect_eval (present : List String) :
    (tableAttachmentsSelect present).columns.map (·.eval r) =
      [r "messageId", optionalCell present r "contentType", optionalCell present r "path",
        optionalCell present r "size", optionalCell present r "fileName", optionalCell present r "plaintextHash"] := by
  simp only [tableAttachmentsSelect, List.map_cons, optionalProjection_eval]
  rfl

theorem tableAttachmentsSelect_names :
    (∀ c ∈ (tableAttachmentsSelect t.columns).names, c ∈ t.columns) ↔ "messageId" ∈ t.columns := by
  have hn : (tableAttachmentsSelect t.columns).names = "messageId" ::
      (optionalProjection t.columns optionalAttachmentColumns).filterMap ResultColumn.source ++
        ["messageId"] := by
    simp [Select.names, tableAttachmentsSelect, ResultColumn.source]
  rw [hn]
  constructor
  · intro h
    exact h _ (by simp)
  · intro h c hc
    rw [List.cons_append, List.mem_cons, List.mem_append, List.mem_singleton] at hc
    rcases hc with rfl | hc | rfl
    · exact h
    · exact optionalProjection_names _ _ c hc
    · exact h

theorem readTableAttachments_ok_iff {out : List Attachment}
    (ht : db.table messageAttachmentsTable = some t) :
    db.readAll (.select (tableAttachmentsSelect t.columns)) decodeAttachment = .ok out ↔
      "messageId" ∈ t.columns ∧ db.fault (.select (tableAttachmentsSelect t.columns)) = none ∧
        List.Forall₂ (AttachmentRecorded t.columns) ((tableAttachmentsSelect t.columns).scan t) out := by
  rw [readAll_select_ok_iff]
  simp only [show (tableAttachmentsSelect t.columns).table = messageAttachmentsTable from rfl, ht,
    Option.some.injEq, exists_eq_left', tableAttachmentsSelect_names]
  rw [forall₂_run_iff (by rfl)]
  have hrow : ∀ r a, decodeAttachment ((tableAttachmentsSelect t.columns).columns.map (·.eval r)) =
      .ok a ↔ AttachmentRecorded t.columns r a := fun r a => by
    rw [tableAttachmentsSelect_eval, decodeAttachment_ok_iff]
    exact ⟨fun ⟨h1, h2, h3, h4, h5, h6⟩ => ⟨h1, h2, h3, h4, h5, h6⟩,
      fun ⟨h1, h2, h3, h4, h5, h6⟩ => ⟨h1, h2, h3, h4, h5, h6⟩⟩
  simp only [hrow]

/-- The table's records come back as a permutation of its rows' records. -/
theorem exists_readsTable {out : List Attachment} (h : tableAttachments db = .ok out) :
    ∃ l, ReadsTable db l ∧ out.Perm l := by
  simp only [tableAttachments, bind_ok_iff, tableColumns_ok_iff] at h
  obtain ⟨cols, ⟨hp, rfl⟩, h⟩ := h
  split at h
  · rename_i he
    rw [pure_ok_iff] at h
    subst h
    exact ⟨[], .absent hp (columns_isEmpty_iff.1 he), List.Perm.refl _⟩
  · rename_i he
    cases ht : db.table messageAttachmentsTable with
    | none => exact absurd (columns_isEmpty_iff.2 ht) he
    | some t =>
      rw [columns_eq ht, mapError_ok_iff, readTableAttachments_ok_iff ht] at h
      obtain ⟨hc, hf, hr⟩ := h
      -- ORDER BY permutes the rows, and with them their records
      obtain ⟨l, hl, hperm⟩ := List.perm_comp_forall₂ (scan_perm _ t).symm hr
      exact ⟨l, .present t l hp ht hc hf hl, hperm.symm⟩

theorem exists_tableAttachments {l : List Attachment} (h : ReadsTable db l) :
    ∃ out, tableAttachments db = .ok out ∧ out.Perm l := by
  simp only [tableAttachments, bind_ok_iff, tableColumns_ok_iff]
  cases h with
  | absent hp hn =>
    exact ⟨[], ⟨_, ⟨hp, rfl⟩, by rw [if_pos (columns_isEmpty_iff.2 hn)]; rfl⟩, List.Perm.refl _⟩
  | present t l hp ht hc hf hl =>
    obtain ⟨out, hout, hperm⟩ :=
      List.perm_comp_forall₂ (scan_perm (tableAttachmentsSelect t.columns) t) hl
    refine ⟨out, ⟨_, ⟨hp, rfl⟩, ?_⟩, hperm⟩
    rw [if_neg (by rw [columns_isEmpty_iff, ht]; simp), columns_eq ht, mapError_ok_iff,
      readTableAttachments_ok_iff ht]
    exact ⟨hc, hf, hout⟩

/-- The table's records carry exactly the ids of its rows. -/
theorem ReadsTable.mem_iff {l : List Attachment} (h : ReadsTable db l) {i : String} :
    i ∈ l.map Attachment.messageId ↔ InTable db i := by
  cases h with
  | absent _ hn => simp [InTable, attachmentRows_nil hn]
  | present t l _ ht _ _ hr =>
    rw [InTable, attachmentRows_eq ht, List.mem_map]
    constructor
    · rintro ⟨a, ha, rfl⟩
      obtain ⟨r, hrt, hra⟩ := mem_of_forall₂_right hr ha
      exact ⟨r, hrt, hra.messageId⟩
    · rintro ⟨r, hrt, hri⟩
      obtain ⟨a, ha, hra⟩ := mem_of_forall₂_left hr hrt
      have := hra.messageId
      rw [hri, Cell.text.injEq] at this
      exact ⟨a, ha, this.symm⟩

/-- **The ids of the table's records are those of its rows**, in whatever order. -/
theorem mem_tableAttachments_iff {tbl : List Attachment} (h : tableAttachments db = .ok tbl) {i : String} :
    i ∈ tbl.map Attachment.messageId ↔ InTable db i := by
  obtain ⟨l, hl, hperm⟩ := exists_readsTable h
  rw [(hperm.map Attachment.messageId).mem_iff, hl.mem_iff]

/-! ## Attachments -/

/-- The id and json of a row. -/
def IdJsonRecorded (r : Row) (p : String × Option String) : Prop :=
  r "id" = .text p.1 ∧ r "json" = .ofOption p.2

/-- Reading the ids and json of `messages` gives `l`. -/
structure ReadsIdJson (db : Database) (t : Table) (l : List (String × Option String)) : Prop where
  table : db.table "messages" = some t
  id : "id" ∈ t.columns
  json : "json" ∈ t.columns
  fault : db.fault (.select idJsonSelect) = none
  rows : List.Forall₂ IdJsonRecorded t.rows l

theorem decodeIdJson_ok_iff {a b : Cell} {p : String × Option String} :
    decodeIdJson [a, b] = .ok p ↔ a = .text p.1 ∧ b = .ofOption p.2 := by
  simp only [decodeIdJson, bind_ok_iff, get_ok_iff, get_option_ok_iff, pure_ok_iff]
  simp only [List.getElem?_cons_zero, List.getElem?_cons_succ, Option.some.injEq, cell_string]
  constructor
  · rintro ⟨_, rfl, _, rfl, rfl⟩
    exact ⟨rfl, rfl⟩
  · rintro ⟨rfl, rfl⟩
    exact ⟨_, rfl, _, rfl, rfl⟩

theorem readIdJson_ok_iff {l : List (String × Option String)} :
    db.readAll (.select idJsonSelect) decodeIdJson = .ok l ↔ ∃ t, ReadsIdJson db t l := by
  rw [readAll_select_ok_iff]
  refine exists_congr fun t => ?_
  rw [forall₂_run_iff (by rfl)]
  have hrow : ∀ r p, decodeIdJson (idJsonSelect.columns.map (·.eval r)) = .ok p ↔
      IdJsonRecorded r p := fun r p => decodeIdJson_ok_iff
  simp only [hrow]
  have hn : (∀ c ∈ idJsonSelect.names, c ∈ t.columns) ↔ "id" ∈ t.columns ∧ "json" ∈ t.columns := by
    simp [Select.names, idJsonSelect, ResultColumn.source]
  rw [hn]
  exact ⟨fun ⟨h1, ⟨h2, h3⟩, h4, h5⟩ => ⟨h1, h2, h3, h4, h5⟩,
    fun ⟨h1, h2, h3, h4, h5⟩ => ⟨h1, ⟨h2, h3⟩, h4, h5⟩⟩

/-- The records in the json of one message, under its id. -/
def jsonEntry (parse : Parser) (p : String × Option String) : String × List Attachment :=
  (p.1, p.2.elim [] (parseAttachmentsJson parse p.1))

/-- Every json record is stamped with the id of its row, whatever the json says. -/
theorem stamped_jsonEntry (parse : Parser) (l : List (String × Option String)) :
    Stamped Attachment.messageId (l.map (jsonEntry parse)) := by
  intro e he a ha
  obtain ⟨⟨i, json⟩, -, rfl⟩ := List.mem_map.1 he
  cases json with
  | none => cases ha
  | some s =>
    simp only [jsonEntry, Option.elim, parseAttachmentsJson] at ha
    split at ha
    · cases ha
    · split at ha
      · cases ha
      · obtain ⟨v, -, rfl⟩ := List.mem_map.1 ha
        rfl

/-- **Attachments are the overlay of the table's records over the json's.** -/
theorem attachments_ok_iff {out : List Attachment} :
    attachments parse db = .ok out ↔
      ∃ tbl t l, tableAttachments db = .ok tbl ∧ ReadsIdJson db t l ∧
        out = overlay Attachment.messageId tbl (l.map (jsonEntry parse)) := by
  simp only [attachments, bind_ok_iff, mapError_ok_iff, readIdJson_ok_iff, pure_ok_iff]
  have hov : ∀ tbl (l : List (String × Option String)),
      (tbl ++ l.flatMap fun p => if (tbl.map Attachment.messageId).contains p.1 then []
        else p.2.elim [] (parseAttachmentsJson parse p.1)) =
      overlay Attachment.messageId tbl (l.map (jsonEntry parse)) := by
    intro tbl l
    rw [overlay]
    congr 1
    induction l with
    | nil => rfl
    | cons p l ih =>
      rw [List.flatMap_cons, ih, List.map_cons]
      by_cases hp : p.1 ∈ tbl.map Attachment.messageId
      · rw [List.filter_cons_of_neg (by simpa [jsonEntry] using hp)]
        simp only [List.contains_iff_mem, hp, if_true, List.nil_append]
      · rw [List.filter_cons_of_pos (by simpa [jsonEntry] using hp), List.flatMap_cons]
        simp only [List.contains_iff_mem, hp, if_false]
        rfl
  constructor
  · rintro ⟨tbl, htbl, l, ⟨t, hl⟩, rfl⟩
    exact ⟨tbl, t, l, htbl, hl, hov tbl l⟩
  · rintro ⟨tbl, t, l, htbl, hl, rfl⟩
    exact ⟨tbl, htbl, l, ⟨t, hl⟩, hov tbl l⟩

end SignalDesktop
