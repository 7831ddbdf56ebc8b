import SignalDesktop.Proof.Attachments

/-!
# Two databases, one reading

What is read from a second database that differs from the first in a known way. A table
that is the same reads the same (`conversations_of_same`, `tableAttachments_of_same`);
for a changed table it is enough to say what one row becomes (`messages_transport`,
`conversations_transport`, `attachments_transport`).
-/

namespace SignalDesktop

open Sqlite SerdeJson Overlay Pointwise

variable {parse : Parser} {db db' : Database} {t t' : Table} {r r' : Row}

/-! ## The same table -/

/-- No statement fails on `db'` that does not fail on `db`. -/
def NoNewFaults (db db' : Database) : Prop := ∀ s, db.fault s = none → db'.fault s = none

theorem rows_of_same {table : String} (ht : db'.table table = db.table table) :
    db'.rows table = db.rows table := by
  rw [Database.rows, Database.rows, ht]

theorem columns_of_same {table : String} (ht : db'.table table = db.table table) :
    db'.columns table = db.columns table := by
  rw [Database.columns, Database.columns, ht]

theorem tableColumns_of_same {table : String} {cols : List String}
    (ht : db'.table table = db.table table) (hf : NoNewFaults db db')
    (h : tableColumns db table = .ok cols) : tableColumns db' table = .ok cols := by
  rw [tableColumns_ok_iff] at h ⊢
  obtain ⟨hp, rfl⟩ := h
  exact ⟨hf _ hp, (columns_of_same ht).symm⟩

/-- A read behind a schema probe: nothing if there is no such table, else a SELECT built
from its columns. -/
theorem probedRead_of_same {α : Type} {table : String} {q : List String → Select}
    {decode : List Cell → Except Error α} {out : List α} (hq : ∀ cols, (q cols).table = table)
    (ht : db'.table table = db.table table) (hf : NoNewFaults db db')
    (h : (tableColumns db table >>= fun cols => if cols.isEmpty then pure [] else
      (db.readAll (.select (q cols)) decode).mapError SignalError.query) = .ok out) :
    (tableColumns db' table >>= fun cols => if cols.isEmpty then pure [] else
      (db'.readAll (.select (q cols)) decode).mapError SignalError.query) = .ok out := by
  rw [bind_ok_iff] at h ⊢
  obtain ⟨cols, hcols, h⟩ := h
  refine ⟨cols, tableColumns_of_same ht hf hcols, ?_⟩
  by_cases he : cols.isEmpty = true
  · rw [if_pos he] at h ⊢
    exact h
  · rw [if_neg he, mapError_ok_iff] at h ⊢
    refine readAll_select_of_same ?_ (hf _) h
    rw [hq, ht]

theorem messageIds_of_same {ids : List String}
    (ht : db'.table messageAttachmentsTable = db.table messageAttachmentsTable)
    (hf : NoNewFaults db db') (h : messageIdsWithTableAttachments db = .ok ids) :
    messageIdsWithTableAttachments db' = .ok ids :=
  probedRead_of_same (q := fun _ => distinctIdsSelect) (fun _ => rfl) ht hf h

theorem tableAttachments_of_same {out : List Attachment}
    (ht : db'.table messageAttachmentsTable = db.table messageAttachmentsTable)
    (hf : NoNewFaults db db') (h : tableAttachments db = .ok out) : tableAttachments db' = .ok out :=
  probedRead_of_same (q := tableAttachmentsSelect) (fun _ => rfl) ht hf h

theorem conversations_of_same {cs : List Conversation}
    (ht : db'.table "conversations" = db.table "conversations")
    (hf : NoNewFaults db db') (h : conversations parse db = .ok cs) : conversations parse db' = .ok cs := by
  unfold conversations at h ⊢
  rw [bind_ok_iff] at h ⊢
  obtain ⟨rows, hrows, h⟩ := h
  rw [mapError_ok_iff] at hrows
  exact ⟨rows, mapError_ok_iff.2 (readAll_select_of_same ht (hf _) hrows), h⟩

theorem messages_of_same {ms : List Message} (ht : db'.table "messages" = db.table "messages")
    (hta : db'.table messageAttachmentsTable = db.table messageAttachmentsTable)
    (hf : NoNewFaults db db') (h : messages parse db = .ok ms) : messages parse db' = .ok ms := by
  unfold messages at h ⊢
  rw [bind_ok_iff] at h ⊢
  obtain ⟨ids, hids, h⟩ := h
  rw [bind_ok_iff] at h
  obtain ⟨present, hpresent, h⟩ := h
  rw [bind_ok_iff] at h
  obtain ⟨rows, hrows, h⟩ := h
  rw [mapError_ok_iff] at hrows
  refine ⟨ids, messageIds_of_same hta hf hids, ?_⟩
  rw [bind_ok_iff]
  refine ⟨present, tableColumns_of_same ht hf hpresent, ?_⟩
  rw [bind_ok_iff]
  exact ⟨rows, mapError_ok_iff.2 (readAll_select_of_same ht (hf _) hrows), h⟩

theorem attachments_of_same {as : List Attachment} (ht : db'.table "messages" = db.table "messages")
    (hta : db'.table messageAttachmentsTable = db.table messageAttachmentsTable)
    (hf : NoNewFaults db db') (h : attachments parse db = .ok as) : attachments parse db' = .ok as := by
  unfold attachments at h ⊢
  rw [bind_ok_iff] at h ⊢
  obtain ⟨out, hout, h⟩ := h
  rw [bind_ok_iff] at h
  obtain ⟨rows, hrows, h⟩ := h
  rw [mapError_ok_iff] at hrows
  refine ⟨out, tableAttachments_of_same hta hf hout, ?_⟩
  rw [bind_ok_iff]
  exact ⟨rows, mapError_ok_iff.2 (readAll_select_of_same ht (hf _) hrows), h⟩

theorem contacts_ok_iff {cs : List Contact} :
    contacts parse db = .ok cs ↔ ∃ v, conversations parse db = .ok v ∧
      cs = (v.filter fun c => c.kind = .«private»).map contactOf := by
  simp only [contacts, bind_ok_iff, pure_ok_iff, eq_comm (a := cs)]

/-! ## The json of a row -/

/-- The parsed json texts have the same members under the keys `keys`. -/
def AgreeOn (keys : List String) (v v' : Option Value) : Prop :=
  ∀ k ∈ keys, v'.bind (·.get k) = v.bind (·.get k)

/-- The json keys a message is read from, its attachments apart. -/
def messageKeys : List String :=
  ["received_at_ms", "serverTimestamp", "isViewOnce", "isErased", "sourceServiceId", "source"]

theorem bind_firstStr (v : Option Value) (keys : List String) :
    v.bind (firstStr · keys) = keys.findSome? fun k => (v.bind (·.get k)).bind Value.asStr := by
  cases v with
  | none =>
    symm
    rw [Option.bind_none, List.findSome?_eq_none_iff]
    intro k _
    rfl
  | some v => rfl

theorem ts_congr {keys : List String} {v v' : Option Value} (h : AgreeOn keys v v') {key : String}
    (hk : key ∈ keys) (column : Option Int64) : ts column v' key = ts column v key := by
  cases column with
  | none => exact congrArg (Option.bind · Value.asI64) (h key hk)
  | some i => rfl

theorem flag_congr {keys : List String} {v v' : Option Value} (h : AgreeOn keys v v') {key : String}
    (hk : key ∈ keys) (column : Option Int64) : flag column v' key = flag column v key := by
  cases column with
  | none => exact congrArg (Option.bind · Value.asBool) (h key hk)
  | some i => rfl

theorem firstStr_congr {keys ks : List String} {v v' : Option Value} (h : AgreeOn keys v v')
    (hk : ∀ k ∈ ks, k ∈ keys) : v'.bind (firstStr · ks) = v.bind (firstStr · ks) := by
  rw [bind_firstStr, bind_firstStr]
  induction ks with
  | nil => rfl
  | cons k ks ih =>
    rw [List.findSome?_cons, List.findSome?_cons, h k (hk k List.mem_cons_self),
      ih fun x hx => hk x (List.mem_cons_of_mem _ hx)]

/-- **A message sees its json only under the keys it is read from.** -/
theorem messageOf_json_congr {ids ids' : List String} {m : MessageRow} {json' : Option String}
    (h : AgreeOn messageKeys (m.json.bind parse) (json'.bind parse))
    (ha : (messageOf parse ids' { m with json := json' }).hasAttachments =
      (messageOf parse ids m).hasAttachments) :
    messageOf parse ids' { m with json := json' } = messageOf parse ids m := by
  unfold messageOf at ha ⊢
  simp only at ha ⊢
  rw [ha, ts_congr h (by decide), ts_congr h (by decide), flag_congr h (by decide),
    flag_congr h (by decide), firstStr_congr h (by decide)]

/-- A row whose json alone changed records the same message, with the new json. -/
theorem MessageRecorded.withJson {present : List String} {m : MessageRow} {json' : Option String}
    (h : MessageRecorded present r m) (hc : ∀ c ∈ messageColumns, c ∈ present)
    (hcells : ∀ c ∈ present, c ≠ "json" → r' c = r c) (hj : r' "json" = .ofOption json') :
    MessageRecorded present r' { m with json := json' } := by
  have hcell : ∀ c ∈ messageColumns, c ≠ "json" → r' c = r c := fun c hm => hcells c (hc c hm)
  have hopt : ∀ c, c ≠ "json" → optionalCell present r' c = optionalCell present r c := by
    intro c hne
    unfold optionalCell
    split
    · exact hcells c ‹_› hne
    · rfl
  exact ⟨(hcell _ (by decide) (by decide)).trans h.id,
    (hcell _ (by decide) (by decide)).trans h.conversationId,
    (hcell _ (by decide) (by decide)).trans h.sentAt, (hcell _ (by decide) (by decide)).trans h.receivedAt,
    (hcell _ (by decide) (by decide)).trans h.type, (hcell _ (by decide) (by decide)).trans h.body, hj,
    (hopt _ (by decide)).trans h.receivedAtMs, (hopt _ (by decide)).trans h.serverTimestamp,
    (hopt _ (by decide)).trans h.viewOnceCol, (hopt _ (by decide)).trans h.erasedCol⟩

/-! ## A changed table -/

/-- A conversation row whose json alone changed. -/
theorem ConversationRecorded.withJson {present : List String} {c : ConversationRow} {json' : Option String}
    (h : ConversationRecorded r c) (hc : ∀ k ∈ conversationColumns, k ∈ present)
    (hcells : ∀ k ∈ present, k ≠ "json" → r' k = r k) (hj : r' "json" = .ofOption json') :
    ConversationRecorded r' { c with json := json' } := by
  have hcell : ∀ k ∈ conversationColumns, k ≠ "json" → r' k = r k := fun k hk => hcells k (hc k hk)
  exact ⟨(hcell _ (by decide) (by decide)).trans h.id, (hcell _ (by decide) (by decide)).trans h.type,
    (hcell _ (by decide) (by decide)).trans h.activeAt, hj⟩

theorem exists_table {name : String} {c : String} (h : c ∈ db.columns name) :
    ∃ t, db.table name = some t ∧ t.columns = db.columns name := by
  cases ht : db.table name with
  | none => rw [Database.columns, ht] at h; cases h
  | some t => exact ⟨t, rfl, (columns_eq ht).symm⟩

/-- A table whose schema is kept still exists. -/
theorem exists_table_of_schema {name : String} (hs : db'.columns name = db.columns name)
    (ht : db.table name = some t) : ∃ t', db'.table name = some t' ∧ t'.columns = t.columns := by
  have hcols : db'.columns name = t.columns := hs.trans (columns_eq ht)
  -- a table has at least one column
  obtain ⟨c, hc⟩ := List.exists_mem_of_ne_nil _ t.columns_ne
  rw [← hcols] at hc
  obtain ⟨t', ht', heq⟩ := exists_table hc
  exact ⟨t', ht', heq.trans hcols⟩

/-- The messages of a table that can be read, row by row. -/
structure MessagesOpen (db : Database) (t : Table) : Prop where
  table : db.table "messages" = some t
  columns : ∀ c ∈ messageColumns, c ∈ t.columns
  probe : db.fault (.tableInfo "messages") = none
  fault : db.fault (.select (messagesSelect t.columns)) = none

/-- **Messages of two runs.** The step: a row that becomes `r'` records a message that
becomes one related to it by `Q`. -/
theorem messages_transport {ids ids' : List String} {l : List MessageRow} {P : Row → Row → Prop}
    {Q : Message → Message → Prop} (hids : messageIdsWithTableAttachments db' = .ok ids')
    (hr : ReadsMessages db t l) (ho : MessagesOpen db' t') (hrows : List.Forall₂ P t.rows t'.rows)
    (step : ∀ r ∈ t.rows, ∀ r' m, P r r' → MessageRecorded t.columns r m →
      ∃ m', MessageRecorded t'.columns r' m' ∧ Q (messageOf parse ids m) (messageOf parse ids' m')) :
    ∃ ms', messages parse db' = .ok ms' ∧ List.Forall₂ Q (l.map (messageOf parse ids)) ms' := by
  obtain ⟨l', hl', hQ⟩ := forall₂_transport step hrows hr.rows
  refine ⟨l'.map (messageOf parse ids'), messages_ok_iff.2 ⟨ids', t', l', hids, ?_, rfl⟩, ?_⟩
  · exact ⟨ho.table, ho.columns, ho.probe, ho.fault, hl'⟩
  · rwa [List.forall₂_map_left_iff, List.forall₂_map_right_iff]

theorem conversations_transport {l : List ConversationRow} {P : Row → Row → Prop}
    {Q : Conversation → Conversation → Prop} (hr : ReadsConversations db t l)
    (ht : db'.table "conversations" = some t') (hc : ∀ c ∈ conversationColumns, c ∈ t'.columns)
    (hf : db'.fault (.select conversationsSelect) = none) (hrows : List.Forall₂ P t.rows t'.rows)
    (step : ∀ r ∈ t.rows, ∀ r' c, P r r' → ConversationRecorded r c →
      ∃ c', ConversationRecorded r' c' ∧ Q (conversationOf parse c) (conversationOf parse c')) :
    ∃ cs', conversations parse db' = .ok cs' ∧ List.Forall₂ Q (l.map (conversationOf parse)) cs' := by
  obtain ⟨l', hl', hQ⟩ := forall₂_transport step hrows hr.rows
  refine ⟨l'.map (conversationOf parse), conversations_ok_iff.2 ⟨t', l', ⟨ht, hc, hf, hl'⟩, rfl⟩, ?_⟩
  rwa [List.forall₂_map_left_iff, List.forall₂_map_right_iff]

/-- **Attachments of two runs.** -/
theorem attachments_transport {tbl' : List Attachment} {l : List (String × Option String)}
    {P : Row → Row → Prop} {Q : String × Option String → String × Option String → Prop}
    (htbl : tableAttachments db' = .ok tbl') (hj : ReadsIdJson db t l)
    (ht : db'.table "messages" = some t') (hid : "id" ∈ t'.columns) (hjson : "json" ∈ t'.columns)
    (hf : db'.fault (.select idJsonSelect) = none) (hrows : List.Forall₂ P t.rows t'.rows)
    (step : ∀ r ∈ t.rows, ∀ r' p, P r r' → IdJsonRecorded r p → ∃ p', IdJsonRecorded r' p' ∧ Q p p') :
    ∃ l', List.Forall₂ Q l l' ∧ attachments parse db' =
      .ok (overlay Attachment.messageId tbl' (l'.map (jsonEntry parse))) := by
  obtain ⟨l', hl', hQ⟩ := forall₂_transport step hrows hj.rows
  exact ⟨l', hQ, attachments_ok_iff.2 ⟨tbl', t', l', htbl, ⟨ht, hid, hjson, hf, hl'⟩, rfl⟩⟩

end SignalDesktop
