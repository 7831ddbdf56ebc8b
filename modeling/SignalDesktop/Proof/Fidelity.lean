import SignalDesktop.Proof.Reads

/-!
# Row fidelity, all or nothing

* `row_fidelity`: a reader succeeds iff the required columns exist, no step fails and
  every projected value has the right storage class, whatever the json texts contain;
  it then returns one record per row, with the row's own values, and otherwise an error.
-/

namespace SignalDesktop

open Sqlite Pointwise

variable {parse : Parser} {db : Database} {t : Table} {r : Row}

def IsText (c : Cell) : Prop := ∃ s, c = .text s

def IsTextOrNull (c : Cell) : Prop := c = .null ∨ ∃ s, c = .text s

def IsIntegerOrNull (c : Cell) : Prop := c = .null ∨ ∃ i, c = .integer i

theorem isTextOrNull_iff {c : Cell} : IsTextOrNull c ↔ ∃ v : Option String, c = .ofOption v := by
  constructor
  · rintro (rfl | ⟨s, rfl⟩)
    · exact ⟨none, rfl⟩
    · exact ⟨some s, rfl⟩
  · rintro ⟨_ | s, rfl⟩
    · exact Or.inl rfl
    · exact Or.inr ⟨s, rfl⟩

theorem isIntegerOrNull_iff {c : Cell} : IsIntegerOrNull c ↔ ∃ v : Option Int64, c = .ofOption v := by
  constructor
  · rintro (rfl | ⟨i, rfl⟩)
    · exact ⟨none, rfl⟩
    · exact ⟨some i, rfl⟩
  · rintro ⟨_ | i, rfl⟩
    · exact Or.inl rfl
    · exact Or.inr ⟨i, rfl⟩

/-! ## When the readers succeed -/

/-- The storage classes of a conversation row. -/
structure ConversationDecodes (r : Row) : Prop where
  id : IsText (r "id")
  type : IsTextOrNull (r "type")
  activeAt : IsIntegerOrNull (r "active_at")
  json : IsTextOrNull (r "json")

/-- The storage classes of a message row. -/
structure MessageDecodes (present : List String) (r : Row) : Prop where
  id : IsText (r "id")
  conversationId : IsTextOrNull (r "conversationId")
  sentAt : IsIntegerOrNull (r "sent_at")
  receivedAt : IsIntegerOrNull (r "received_at")
  type : IsTextOrNull (r "type")
  body : IsTextOrNull (r "body")
  json : IsTextOrNull (r "json")
  optional : ∀ c ∈ optionalMessageColumns, IsIntegerOrNull (optionalCell present r c)

def ConversationsReadable (db : Database) : Prop :=
  ∃ t, db.table "conversations" = some t ∧ (∀ c ∈ conversationColumns, c ∈ t.columns) ∧
    db.fault (.select conversationsSelect) = none ∧ ∀ r ∈ t.rows, ConversationDecodes r

/-- Besides its own table, reading the messages needs the ids of the attachment table. -/
def MessagesReadable (db : Database) : Prop :=
  IdsReadable db ∧
    ∃ t, db.table "messages" = some t ∧ (∀ c ∈ messageColumns, c ∈ t.columns) ∧
      db.fault (.tableInfo "messages") = none ∧
      db.fault (.select (messagesSelect t.columns)) = none ∧ ∀ r ∈ t.rows, MessageDecodes t.columns r

theorem conversationDecodes_iff : ConversationDecodes r ↔ ∃ c, ConversationRecorded r c := by
  constructor
  · rintro ⟨⟨id, h1⟩, h2, h3, h4⟩
    obtain ⟨type, h2⟩ := isTextOrNull_iff.1 h2
    obtain ⟨activeAt, h3⟩ := isIntegerOrNull_iff.1 h3
    obtain ⟨json, h4⟩ := isTextOrNull_iff.1 h4
    exact ⟨⟨id, type, activeAt, json⟩, h1, h2, h3, h4⟩
  · rintro ⟨c, h⟩
    exact ⟨⟨_, h.id⟩, isTextOrNull_iff.2 ⟨_, h.type⟩, isIntegerOrNull_iff.2 ⟨_, h.activeAt⟩,
      isTextOrNull_iff.2 ⟨_, h.json⟩⟩

theorem messageDecodes_iff {present : List String} : MessageDecodes present r ↔ ∃ m, MessageRecorded present r m := by
  constructor
  · rintro ⟨⟨id, h1⟩, h2, h3, h4, h5, h6, h7, ho⟩
    obtain ⟨conversationId, h2⟩ := isTextOrNull_iff.1 h2
    obtain ⟨sentAt, h3⟩ := isIntegerOrNull_iff.1 h3
    obtain ⟨receivedAt, h4⟩ := isIntegerOrNull_iff.1 h4
    obtain ⟨type, h5⟩ := isTextOrNull_iff.1 h5
    obtain ⟨body, h6⟩ := isTextOrNull_iff.1 h6
    obtain ⟨json, h7⟩ := isTextOrNull_iff.1 h7
    obtain ⟨receivedAtMs, h8⟩ := isIntegerOrNull_iff.1 (ho "received_at_ms" (by decide))
    obtain ⟨serverTimestamp, h9⟩ := isIntegerOrNull_iff.1 (ho "serverTimestamp" (by decide))
    obtain ⟨viewOnce, h10⟩ := isIntegerOrNull_iff.1 (ho "isViewOnce" (by decide))
    obtain ⟨erased, h11⟩ := isIntegerOrNull_iff.1 (ho "isErased" (by decide))
    exact ⟨⟨id, conversationId, sentAt, receivedAt, type, body, json, receivedAtMs, serverTimestamp,
      viewOnce, erased⟩, h1, h2, h3, h4, h5, h6, h7, h8, h9, h10, h11⟩
  · rintro ⟨m, h⟩
    refine ⟨⟨_, h.id⟩, isTextOrNull_iff.2 ⟨_, h.conversationId⟩, isIntegerOrNull_iff.2 ⟨_, h.sentAt⟩,
      isIntegerOrNull_iff.2 ⟨_, h.receivedAt⟩, isTextOrNull_iff.2 ⟨_, h.type⟩,
      isTextOrNull_iff.2 ⟨_, h.body⟩, isTextOrNull_iff.2 ⟨_, h.json⟩, fun c hc => ?_⟩
    simp only [optionalMessageColumns, List.mem_cons, List.not_mem_nil, or_false] at hc
    rcases hc with rfl | rfl | rfl | rfl
    · exact isIntegerOrNull_iff.2 ⟨_, h.receivedAtMs⟩
    · exact isIntegerOrNull_iff.2 ⟨_, h.serverTimestamp⟩
    · exact isIntegerOrNull_iff.2 ⟨_, h.viewOnceCol⟩
    · exact isIntegerOrNull_iff.2 ⟨_, h.erasedCol⟩

theorem conversations_isOk_iff : (∃ v, conversations parse db = .ok v) ↔ ConversationsReadable db := by
  simp only [conversations_ok_iff, ConversationsReadable, conversationDecodes_iff, forall_exists_iff]
  constructor
  · rintro ⟨v, t, l, h, -⟩
    exact ⟨t, h.table, h.columns, h.fault, l, h.rows⟩
  · rintro ⟨t, h1, h2, h3, l, h4⟩
    exact ⟨_, t, l, ⟨h1, h2, h3, h4⟩, rfl⟩

theorem messages_isOk_iff : (∃ v, messages parse db = .ok v) ↔ MessagesReadable db := by
  simp only [messages_ok_iff, MessagesReadable, messageDecodes_iff, forall_exists_iff,
    ← exists_ids_iff]
  constructor
  · rintro ⟨v, ids, t, l, hids, h, -⟩
    exact ⟨⟨ids, hids⟩, t, h.table, h.columns, h.probe, h.fault, l, h.rows⟩
  · rintro ⟨⟨ids, hids⟩, t, h1, h2, h3, h4, l, h5⟩
    exact ⟨_, ids, t, l, hids, ⟨h1, h2, h3, h4, h5⟩, rfl⟩

/-! ## What they return -/

/-- The conversation carries the row's own values. -/
structure ConversationFaithful (r : Row) (c : Conversation) : Prop where
  id : r "id" = .text c.id
  kind : r "type" = .null ∧ c.kind.raw = "" ∨ r "type" = .text c.kind.raw
  activeAt : r "active_at" = .ofOption c.activeAt

/-- The message carries the row's own values. -/
structure MessageFaithful (r : Row) (m : Message) : Prop where
  id : r "id" = .text m.id
  conversationId : r "conversationId" = .ofOption m.conversationId
  direction : r "type" = .null ∧ m.direction.display = "" ∨ r "type" = .text m.direction.display
  body : r "body" = .ofOption m.body
  sentAt : r "sent_at" = .ofOption m.sentAt
  receivedAt : r "received_at" = .ofOption m.receivedAt

/-- The contact carries the identity fields of the conversation. -/
structure ContactFaithful (c : Conversation) (k : Contact) : Prop where
  conversationId : k.conversationId = c.id
  serviceId : k.serviceId = c.serviceId
  e164 : k.e164 = c.e164
  name : k.name = c.name

/-- A `type` value and the text it is classified from. -/
theorem type_verbatim {c : Cell} {v : Option String} (h : c = .ofOption v) :
    c = .null ∧ v.getD "" = "" ∨ c = .text (v.getD "") := by
  cases v with
  | none => exact Or.inl ⟨h, rfl⟩
  | some s => exact Or.inr h

theorem ConversationRecorded.faithful {c : ConversationRow} (h : ConversationRecorded r c) :
    ConversationFaithful r (conversationOf parse c) :=
  ⟨h.id, by simpa [conversationOf] using type_verbatim h.type, h.activeAt⟩

theorem MessageRecorded.faithful {present ids : List String} {m : MessageRow}
    (h : MessageRecorded present r m) :
    MessageFaithful r (messageOf parse ids m) :=
  ⟨h.id, h.conversationId, by simpa [messageOf] using type_verbatim h.type, h.body, h.sentAt,
    h.receivedAt⟩

theorem conversations_faithful {v : List Conversation} (h : conversations parse db = .ok v) :
    List.Forall₂ ConversationFaithful (db.rows "conversations") v := by
  obtain ⟨t, l, hr, rfl⟩ := conversations_ok_iff.1 h
  rw [rows_eq hr.table, List.forall₂_map_right_iff]
  exact hr.rows.imp fun _ _ h => h.faithful

theorem messages_faithful {v : List Message} (h : messages parse db = .ok v) :
    List.Forall₂ MessageFaithful (db.rows "messages") v := by
  obtain ⟨ids, t, l, -, hr, rfl⟩ := messages_ok_iff.1 h
  rw [rows_eq hr.table, List.forall₂_map_right_iff]
  exact hr.rows.imp fun _ _ h => h.faithful

/-- A kind is private iff the row says so verbatim. -/
theorem kind_private_iff {c : ConversationRow} (h : ConversationRecorded r c) :
    (conversationOf parse c).kind = .«private» ↔ r "type" = .text "private" := by
  rw [conversationOf, ConversationKind.fromType_eq_private, h.type]
  cases c.type <;> simp

/-- The conversations whose row is of type `private`, in row order. -/
def privateConversations (db : Database) (v : List Conversation) : List Conversation :=
  (((db.rows "conversations").zip v).filter fun p => p.1 "type" = .text "private").map Prod.snd

theorem contactOf_faithful (c : Conversation) : ContactFaithful c (contactOf c) := ⟨rfl, rfl, rfl, rfl⟩

/-- **Contacts are the private conversations, in order.** -/
theorem contacts_ok {v : List Conversation} (h : conversations parse db = .ok v) :
    contacts parse db = .ok ((privateConversations db v).map contactOf) := by
  rw [contacts, h, privateConversations, List.map_map]
  obtain ⟨t, l, hr, rfl⟩ := conversations_ok_iff.1 h
  rw [rows_eq hr.table]
  refine congrArg Except.ok ?_
  have hrows := hr.rows
  generalize t.rows = rows at hrows
  clear h hr
  induction hrows with
  | nil => rfl
  | @cons r c rows l hrc _ ih =>
    rw [List.map_cons, List.zip_cons_cons, List.filter_cons, List.filter_cons]
    simp only [decide_eq_true_eq, kind_private_iff hrc]
    split
    · rw [List.map_cons, List.map_cons, ih]
      rfl
    · exact ih

theorem contacts_faithful {v : List Conversation} (h : conversations parse db = .ok v) :
    ∃ ks, contacts parse db = .ok ks ∧ List.Forall₂ ContactFaithful (privateConversations db v) ks := by
  refine ⟨_, contacts_ok h, ?_⟩
  rw [List.forall₂_map_right_iff, List.forall₂_same]
  exact fun c _ => contactOf_faithful c

/-! ## Failures -/

theorem conversations_error {e : SignalError} (h : conversations parse db = .error e) :
    ∃ q, e = .query q := by
  rcases bind_error h with h | ⟨_, _, h⟩
  · exact mapError_error h
  · cases h

theorem tableColumns_error {table : String} {e : SignalError} (h : tableColumns db table = .error e) :
    ∃ q, e = .query q := mapError_error h

theorem messageIds_error {e : SignalError} (h : messageIdsWithTableAttachments db = .error e) :
    ∃ q, e = .query q := by
  rcases bind_error h with h | ⟨cols, -, h⟩
  · exact tableColumns_error h
  · split at h
    · cases h
    · exact mapError_error h

theorem messages_error {e : SignalError} (h : messages parse db = .error e) : ∃ q, e = .query q := by
  rcases bind_error h with h | ⟨ids, -, h⟩
  · exact messageIds_error h
  rcases bind_error h with h | ⟨cols, -, h⟩
  · exact tableColumns_error h
  rcases bind_error h with h | ⟨rows, -, h⟩
  · exact mapError_error h
  · cases h

theorem contacts_error_iff {e : SignalError} :
    contacts parse db = .error e ↔ conversations parse db = .error e := by
  rw [contacts]
  cases conversations parse db <;> simp [bind, Except.bind, pure, Except.pure]

theorem timeline_error_iff {e : SignalError} :
    timeline parse db = .error e ↔ messages parse db = .error e := by
  rw [timeline]
  cases messages parse db <;> simp [bind, Except.bind, pure, Except.pure]

/-- **Row fidelity.** `conversations` and `messages` succeed exactly on readable tables, a
condition that does not mention the json parser. They return one record per row, in
row order, with the row's values and its `type` text; `contacts` has the identity fields
of the ones whose type is `private`, in order. Every failure is a query error, and
`timeline` fails with `messages`. -/
theorem row_fidelity (parse : Parser) (db : Database) :
    ((∃ v, conversations parse db = .ok v) ↔ ConversationsReadable db) ∧
    ((∃ v, messages parse db = .ok v) ↔ MessagesReadable db) ∧
    (∀ v, conversations parse db = .ok v →
      List.Forall₂ ConversationFaithful (db.rows "conversations") v ∧
      ∃ ks, contacts parse db = .ok ks ∧
        List.Forall₂ ContactFaithful (privateConversations db v) ks) ∧
    (∀ v, messages parse db = .ok v → List.Forall₂ MessageFaithful (db.rows "messages") v) ∧
    (∀ e, conversations parse db = .error e → ∃ q, e = .query q) ∧
    (∀ e, messages parse db = .error e → ∃ q, e = .query q) ∧
    (∀ e, contacts parse db = .error e ↔ conversations parse db = .error e) ∧
    (∀ e, timeline parse db = .error e ↔ messages parse db = .error e) :=
  ⟨conversations_isOk_iff, messages_isOk_iff,
    fun _ h => ⟨conversations_faithful h, contacts_faithful h⟩, fun _ h => messages_faithful h,
    fun _ h => conversations_error h, fun _ h => messages_error h, fun _ => contacts_error_iff,
    fun _ => timeline_error_iff⟩

end SignalDesktop
