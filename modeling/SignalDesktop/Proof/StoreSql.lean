import SignalDesktop.Spec.StoreSql

/-!
# The SQL of the readers

Each text a reader builds is the writing of the statement of `Spec/Store` (`messagesSql_eq`, …),
so it is read as that statement whatever columns the database has, and `readers_sql`: the readers
that send texts are the readers of `Spec/Store`.
-/

namespace SignalDesktop

open Sqlite SqlText

variable {present : List String} {db : Database}

/-! ## The texts -/

theorem renderColumn_projection (present wanted : List String) :
    (optionalProjection present wanted).map renderColumn =
      wanted.map fun col => if present.contains col then col else "NULL AS " ++ col := by
  rw [optionalProjection, List.map_map]
  refine List.map_congr_left fun col _ => ?_
  rw [Function.comp_apply]
  by_cases h : present.contains col = true
  · rw [if_pos h, if_pos h]
    rfl
  · rw [if_neg h, if_neg h]
    rfl

/-- Fixed columns before the optional ones. -/
theorem intercalate_projection (present : List String) {fixed wanted : List String} (hf : fixed ≠ []) (hw : wanted ≠ []) :
    ", ".intercalate ((fixed.map ResultColumn.column ++ optionalProjection present wanted).map
      renderColumn) =
      ", ".intercalate fixed ++ ", " ++ StoreSql.optionalProjection present wanted := by
  have hfixed : (fixed.map ResultColumn.column).map renderColumn = fixed := by
    rw [List.map_map]
    exact List.map_id fixed
  rw [List.map_append, hfixed, renderColumn_projection,
    String.intercalate_append_of_ne_nil hf (by simpa using hw)]
  rfl

theorem messagesSql_eq : StoreSql.messagesSql present = render (.select (messagesSelect present)) := by
  have hfixed : ["id", "conversationId", "sent_at", "received_at", "type", "body", "json"] ≠ [] := by
    simp
  have hopt : optionalMessageColumns ≠ [] := by decide
  have hcols := intercalate_projection present hfixed hopt
  have hstart : "SELECT id, conversationId, sent_at, received_at, type, body, json, " =
      "SELECT " ++ "" ++ (", ".intercalate
        ["id", "conversationId", "sent_at", "received_at", "type", "body", "json"] ++ ", ") := by
    decide
  have hend : " FROM messages" = " FROM " ++ "messages" ++ "" := by decide
  unfold StoreSql.messagesSql
  rw [render_select, messagesSelect, hcols, hstart, hend]
  simp only [String.append_assoc]
  rfl

theorem tableAttachmentsSql_eq :
    StoreSql.tableAttachmentsSql present = render (.select (tableAttachmentsSelect present)) := by
  have hfixed : ["messageId"] ≠ [] := by simp
  have hopt : optionalAttachmentColumns ≠ [] := by decide
  have hcols := intercalate_projection present hfixed hopt
  have hstart : "SELECT messageId, " = "SELECT " ++ "" ++ (", ".intercalate ["messageId"] ++ ", ") := by
    decide
  have hend : " ORDER BY messageId" = " ORDER BY " ++ "messageId" := by decide
  unfold StoreSql.tableAttachmentsSql
  rw [render_select, tableAttachmentsSelect, ← List.singleton_append, ← List.map_singleton, hcols,
    hstart, hend]
  simp only [String.append_assoc]
  rfl

theorem conversationsSql_eq : StoreSql.conversationsSql = render (.select conversationsSelect) := by
  decide

theorem idJsonSql_eq : StoreSql.idJsonSql = render (.select idJsonSelect) := by decide

theorem distinctIdsSql_eq : StoreSql.distinctIdsSql = render (.select distinctIdsSelect) := by decide

/-! ## Their names -/

theorem columnName_mem {wanted : List String} {c : ResultColumn}
    (hc : c ∈ optionalProjection present wanted) : columnName c ∈ wanted := by
  obtain ⟨n, hn, rfl⟩ := List.mem_map.1 hc
  by_cases h : present.contains n = true
  · rw [if_pos h]
    exact hn
  · rw [if_neg h]
    exact hn

/-- Fixed and optional columns with names for names make a statement. -/
theorem isName_columns {fixed wanted : List String} (hf : ∀ n ∈ fixed, IsName n)
    (hw : ∀ n ∈ wanted, IsName n) :
    ∀ c ∈ fixed.map ResultColumn.column ++ optionalProjection present wanted, IsName (columnName c) := by
  intro c hc
  rcases List.mem_append.1 hc with hc | hc
  · obtain ⟨n, hn, rfl⟩ := List.mem_map.1 hc
    exact hf n hn
  · exact hw _ (columnName_mem hc)

theorem wellFormed_messages : WellFormed (.select (messagesSelect present)) := by
  have htable : IsName "messages" := by decide
  have horder : ∀ c ∈ (none : Option String), IsName c := by simp
  refine .select (by simp [messagesSelect]) ?_ htable horder
  exact isName_columns (by decide) (by decide)

theorem wellFormed_tableAttachments : WellFormed (.select (tableAttachmentsSelect present)) := by
  have htable : IsName messageAttachmentsTable := by decide
  have hid : IsName "messageId" := by decide
  have horder : ∀ c ∈ some "messageId", IsName c := by simpa using hid
  refine .select (by simp [tableAttachmentsSelect]) ?_ htable horder
  have hfixed : ∀ n ∈ ["messageId"], IsName n := by decide
  exact isName_columns hfixed (by decide)

/-- A statement without optional columns. -/
theorem wellFormed_plain {q : Select} (hne : q.columns ≠ [])
    (hcols : ∀ c ∈ q.columns, IsName (columnName c)) (ht : IsName q.table) (ho : q.orderBy = none) :
    WellFormed (.select q) := by
  refine .select hne hcols ht fun c hc => ?_
  rw [ho] at hc
  cases hc

theorem wellFormed_conversations : WellFormed (.select conversationsSelect) :=
  wellFormed_plain (by decide) (by decide) (by decide) rfl

theorem wellFormed_idJson : WellFormed (.select idJsonSelect) :=
  wellFormed_plain (by decide) (by decide) (by decide) rfl

theorem wellFormed_distinctIds : WellFormed (.select distinctIdsSelect) :=
  wellFormed_plain (by decide) (by decide) (by decide) rfl

/-! ## The readers -/

theorem tableColumns_sql {table : String} (h : IsName table) (db : Database) :
    StoreSql.tableColumns db table = tableColumns db table := by
  unfold StoreSql.tableColumns tableColumns
  rw [readText_of_render (.tableInfo h) (render_tableInfo table).symm]

theorem messageIds_sql (db : Database) :
    StoreSql.messageIdsWithTableAttachments db = messageIdsWithTableAttachments db := by
  unfold StoreSql.messageIdsWithTableAttachments messageIdsWithTableAttachments
  rw [tableColumns_sql (by decide), readText_of_render wellFormed_distinctIds distinctIdsSql_eq]

theorem tableAttachments_sql (db : Database) :
    StoreSql.tableAttachments db = tableAttachments db := by
  unfold StoreSql.tableAttachments tableAttachments
  rw [tableColumns_sql (by decide)]
  -- whatever the probed columns are
  simp only [readText_of_render wellFormed_tableAttachments tableAttachmentsSql_eq]

theorem conversations_sql (parse : Parser) (db : Database) :
    StoreSql.conversations parse db = conversations parse db := by
  unfold StoreSql.conversations conversations
  rw [readText_of_render wellFormed_conversations conversationsSql_eq]

theorem messages_sql (parse : Parser) (db : Database) :
    StoreSql.messages parse db = messages parse db := by
  unfold StoreSql.messages messages
  rw [messageIds_sql, tableColumns_sql (by decide)]
  simp only [readText_of_render wellFormed_messages messagesSql_eq]

theorem attachments_sql (parse : Parser) (db : Database) :
    StoreSql.attachments parse db = attachments parse db := by
  unfold StoreSql.attachments attachments
  rw [tableAttachments_sql, readText_of_render wellFormed_idJson idJsonSql_eq]

/-- **The texts are the statements.** On every database the readers that build and send SQL texts
have the outcomes of the readers that run the statements. -/
theorem readers_sql {Finding : Type} (toFinding : Observation → Source → Finding) (parse : Parser)
    (db : Database) :
    StoreSql.conversations parse db = conversations parse db ∧
    StoreSql.contacts parse db = contacts parse db ∧
    StoreSql.messages parse db = messages parse db ∧
    StoreSql.timeline parse db = timeline parse db ∧
    StoreSql.attachments parse db = attachments parse db ∧
    StoreSql.auditStore parse toFinding db = auditStore toFinding parse db := by
  have hc := conversations_sql parse db
  have hm := messages_sql parse db
  have ha := attachments_sql parse db
  refine ⟨hc, ?_, hm, ?_, ha, ?_⟩
  · unfold StoreSql.contacts contacts
    rw [hc]
  · unfold StoreSql.timeline timeline
    rw [hm]
  · unfold StoreSql.auditStore auditStore
    rw [hc, hm, ha]

end SignalDesktop
