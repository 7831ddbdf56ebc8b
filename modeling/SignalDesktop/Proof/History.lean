import SignalDesktop.Lib.Edits
import SignalDesktop.Lib.References
import SignalDesktop.Proof.Audit

/-!
# What the findings say about the past

The app edits its database; the audit sees the database after the last edit. Any edits are
allowed that write rows a reader can read, keep the ids of conversations and write
references to existing conversations only (`Admissible`).

* `audit_history`: a message is found orphaned iff its conversation was deleted under it at
  some step, and neither came back nor took the message with it.
-/

namespace SignalDesktop

open Sqlite SerdeJson Overlay Pointwise References

variable {Finding : Type} {toFinding : Observation → Source → Finding} {parse : Parser}
  {db : Database} {es : List Edit} {e : Edit} {r : Row} {i c : String} {m n : ℕ}

/-! ## References -/

/-- A row of `messages` with the id `i` references the conversation `c`. -/
def Refers (db : Database) (i c : String) : Prop :=
  ∃ r ∈ db.rows "messages", r "id" = .text i ∧ r "conversationId" = .text c

/-- The conversations that exist and the references of messages to them. -/
def snapshot (db : Database) : Snapshot String String where
  parents := {c | HasConversation db c}
  refs := {x | Refers db x.1 x.2}

/-- **A message is found orphaned iff its reference dangles.** -/
theorem mem_orphans_iff :
    SignalAnomaly.orphanMessage i c ∈ orphans db ↔ (snapshot db).Dangling (i, c) := by
  have hat : ∀ r : Row, orphanAt db r = some (.orphanMessage i c) ↔
      (r "id" = .text i ∧ r "conversationId" = .text c) ∧ ¬ HasConversation db c := by
    intro r
    unfold orphanAt
    split
    · rename_i i' c' hi hc
      rw [hi, hc, Cell.text.injEq, Cell.text.injEq]
      by_cases hconv : HasConversation db c'
      · rw [if_pos hconv]
        constructor
        · intro h
          cases h
        · rintro ⟨⟨-, rfl⟩, hno⟩
          exact absurd hconv hno
      · rw [if_neg hconv, Option.some.injEq, SignalAnomaly.orphanMessage.injEq]
        constructor
        · rintro ⟨rfl, rfl⟩
          exact ⟨⟨rfl, rfl⟩, hconv⟩
        · exact And.left
    · rename_i hne
      constructor
      · intro h
        cases h
      · rintro ⟨⟨hi, hc⟩, -⟩
        exact absurd hc (hne _ _ hi)
  unfold orphans
  rw [List.mem_filterMap]
  simp only [hat]
  constructor
  · rintro ⟨r, hr, hrow, hno⟩
    exact ⟨⟨r, hr, hrow⟩, hno⟩
  · rintro ⟨⟨r, hr, hrow⟩, hno⟩
    exact ⟨r, hr, hrow, hno⟩

/-! ## Readable databases -/

/-- A reader can read the row, of a table with the columns `present`. -/
def RowReadable (name : String) (present : List String) (r : Row) : Prop :=
  if name = "conversations" then ConversationDecodes r
  else if name = "messages" then MessageDecodes present r
  else if name = messageAttachmentsTable then ∃ a, AttachmentRecorded present r a
  else True

/-- The tables can be read, and no statement fails. -/
structure Readable (db : Database) : Prop where
  fault : ∀ s, db.fault s = none
  conversationsSchema : ∀ c ∈ conversationColumns, c ∈ db.columns "conversations"
  messagesSchema : ∀ c ∈ messageColumns, c ∈ db.columns "messages"
  attachmentsSchema : ∀ t, db.table messageAttachmentsTable = some t → "messageId" ∈ t.columns
  rows : ∀ name, ∀ r ∈ db.rows name, RowReadable name (db.columns name) r

theorem Readable.conversations_ok (h : Readable db) : ∃ cs, conversations parse db = .ok cs := by
  obtain ⟨t, ht, hcols⟩ := exists_table (h.conversationsSchema "id" (by decide))
  refine conversations_isOk_iff.2 ⟨t, ht, ?_, h.fault _, fun r hr => ?_⟩
  · rw [hcols]
    exact h.conversationsSchema
  · rw [← rows_eq ht] at hr
    exact h.rows _ r hr

theorem Readable.attachmentRow (h : Readable db) (hr : r ∈ attachmentRows db) :
    ∃ a, AttachmentRecorded (db.columns messageAttachmentsTable) r a := h.rows _ r hr

theorem Readable.messages_ok (h : Readable db) : ∃ ms, messages parse db = .ok ms := by
  obtain ⟨t, ht, hcols⟩ := exists_table (h.messagesSchema "id" (by decide))
  refine messages_isOk_iff.2 ⟨⟨h.fault _, h.attachmentsSchema, fun _ _ => h.fault _, fun r hr => ?_⟩,
    t, ht, ?_, h.fault _, h.fault _, fun r hr => ?_⟩
  · obtain ⟨a, ha⟩ := h.attachmentRow hr
    exact ⟨a.messageId, ha.messageId⟩
  · rw [hcols]
    exact h.messagesSchema
  · rw [← rows_eq ht] at hr
    rw [hcols]
    exact h.rows _ r hr

/-- The records of the attachment table. -/
theorem Readable.readsTable (h : Readable db) : ∃ l, ReadsTable db l := by
  cases ht : db.table messageAttachmentsTable with
  | none => exact ⟨[], .absent (h.fault _) ht⟩
  | some t =>
    have hall : ∀ r ∈ t.rows, ∃ a, AttachmentRecorded t.columns r a := by
      intro r hr
      rw [← attachmentRows_eq ht] at hr
      rw [← columns_eq ht]
      exact h.attachmentRow hr
    obtain ⟨l, hl⟩ := exists_forall₂ hall
    exact ⟨l, .present t l (h.fault _) ht (h.attachmentsSchema t ht) (h.fault _) hl⟩

theorem Readable.attachments_ok (h : Readable db) : ∃ as, attachments parse db = .ok as := by
  obtain ⟨l, hl⟩ := h.readsTable
  obtain ⟨tbl, htbl, -⟩ := exists_tableAttachments hl
  obtain ⟨t, ht, hcols⟩ := exists_table (h.messagesSchema "id" (by decide))
  have hall : ∀ r ∈ t.rows, ∃ p, IdJsonRecorded r p := by
    intro r hr
    rw [← rows_eq ht] at hr
    have hrow : MessageDecodes (db.columns "messages") r := h.rows _ r hr
    obtain ⟨m, hm⟩ := messageDecodes_iff.1 hrow
    exact ⟨(m.id, m.json), hm.id, hm.json⟩
  obtain ⟨ps, hps⟩ := exists_forall₂ hall
  refine ⟨_, attachments_ok_iff.2 ⟨tbl, t, ps, htbl, ⟨ht, ?_, ?_, h.fault _, hps⟩, rfl⟩⟩
  · rw [hcols]
    exact h.messagesSchema "id" (by decide)
  · rw [hcols]
    exact h.messagesSchema "json" (by decide)

variable (toFinding parse) in
/-- **A readable database can be audited.** -/
theorem Readable.auditStore_ok (h : Readable db) : ∃ as, attachments parse db = .ok as ∧
    auditStore toFinding parse db = .ok ((orphans db ++ residue as).map (·.finding toFinding)) := by
  obtain ⟨cs, hc⟩ := h.conversations_ok
  obtain ⟨ms, hm⟩ := h.messages_ok
  obtain ⟨as, ha⟩ := h.attachments_ok
  exact ⟨as, ha, auditStore_eq hc hm ha⟩

/-- **And what can be audited is readable**, where no statement fails. -/
theorem readable_of_auditStore {fs : List Finding} (hf : ∀ s, db.fault s = none)
    (h : auditStore toFinding parse db = .ok fs) : Readable db := by
  obtain ⟨cs, ms, as, hc, hm, ha, -⟩ := auditStore_ok_iff.1 h
  obtain ⟨tc, htc, hcols, -, hconv⟩ := conversations_isOk_iff.1 ⟨cs, hc⟩
  obtain ⟨hids, tm, htm, hmcols, -, -, hmess⟩ := messages_isOk_iff.1 ⟨ms, hm⟩
  obtain ⟨tbl, t, l, htbl, hl, -⟩ := attachments_ok_iff.1 ha
  obtain ⟨recs, hrecs, -⟩ := exists_readsTable htbl
  refine ⟨hf, ?_, ?_, hids.column, fun name r hr => ?_⟩
  · rwa [columns_eq htc]
  · rwa [columns_eq htm]
  · unfold RowReadable
    split
    · rename_i hname
      rw [hname, rows_eq htc] at hr
      exact hconv r hr
    · split
      · rename_i hname
        rw [hname, rows_eq htm] at hr
        rw [hname, columns_eq htm]
        exact hmess r hr
      · split
        · rename_i hname
          rw [hname] at hr ⊢
          obtain ⟨a, -, har⟩ := mem_of_forall₂_left hrecs.forall₂ hr
          exact ⟨a, har⟩
        · trivial

/-! ## One edit -/

/-- What the app may do to a database: any edit that writes readable rows, keeps the ids of
conversations, and writes a reference to a conversation only while it exists, or where it
was. Rows may be deleted at will. -/
structure Admissible (db : Database) (e : Edit) : Prop where
  readable : ∀ r ∈ e.written (db.rows e.target), RowReadable e.target (db.columns e.target) r
  keepsId : ∀ cond set, e = .update "conversations" cond set → ∀ r, cond r = true → set r "id" = r "id"
  refers : e.target = "messages" → ∀ r ∈ e.written (db.rows e.target), ∀ i c,
    r "id" = .text i → r "conversationId" = .text c → HasConversation db c ∨ Refers db i c

/-- **The step**: an admissible edit keeps a database readable. -/
theorem Readable.apply (h : Readable db) (ha : Admissible db e) : Readable (e.apply db) := by
  refine ⟨h.fault, ?_, ?_, fun t ht => ?_, fun name r hr => ?_⟩
  · rw [Edit.apply_columns]
    exact h.conversationsSchema
  · rw [Edit.apply_columns]
    exact h.messagesSchema
  · have hcols := columns_eq ht
    rw [Edit.apply_columns] at hcols
    -- the table has columns, so it existed before
    obtain ⟨c, hc⟩ := List.exists_mem_of_ne_nil _ t.columns_ne
    rw [← hcols] at hc
    obtain ⟨t₀, ht₀, hcols₀⟩ := exists_table hc
    rw [← hcols, ← hcols₀]
    exact h.attachmentsSchema t₀ ht₀
  · rw [Edit.apply_columns]
    rcases Edit.mem_apply_rows hr with hr | ⟨rfl, hr⟩
    · exact h.rows name r hr
    · exact ha.readable r hr

theorem hasConversation_of_target (h : e.target ≠ "conversations") :
    HasConversation (e.apply db) c ↔ HasConversation db c := by
  unfold HasConversation
  rw [Edit.apply_rows_of_ne (Ne.symm h)]

theorem refers_of_target (h : e.target ≠ "messages") : Refers (e.apply db) i c ↔ Refers db i c := by
  unfold Refers
  rw [Edit.apply_rows_of_ne (Ne.symm h)]

/-- **The step**: the snapshots of a database before and after an admissible edit. -/
theorem Admissible.next (ha : Admissible db e) : (snapshot db).Next (snapshot (e.apply db)) := by
  rintro ⟨i, c⟩ hnew hold
  by_cases ht : e.target = "messages"
  · have hne : e.target ≠ "conversations" := by
      rw [ht]
      decide
    obtain ⟨r, hr, hi, hc⟩ := hnew
    rcases Edit.mem_apply_rows hr with hr | ⟨hname, hr⟩
    · exact absurd ⟨r, hr, hi, hc⟩ hold
    · rw [hname] at hr
      rcases ha.refers ht r hr i c hi hc with hconv | hrefers
      · exact (hasConversation_of_target hne).2 hconv
      · exact absurd hrefers hold
  · exact absurd ((refers_of_target ht).1 hnew) hold

/-- A conversation that disappears is deleted, with all its rows. -/
theorem Admissible.deleted (ha : Admissible db e) (hc : HasConversation db c)
    (hgone : ¬ HasConversation (e.apply db) c) :
    ∃ cond, e = .delete "conversations" cond ∧
      ∀ r ∈ db.rows "conversations", r "id" = .text c → cond r = true := by
  obtain ⟨r, hr, hid⟩ := hc
  rcases Edit.apply_rows_cases e db "conversations" with hrows | ⟨ht, hrows⟩
  · exact absurd ⟨r, by rwa [hrows], hid⟩ hgone
  unfold HasConversation at hgone
  rw [hrows] at hgone
  cases e with
  | insert table row => exact absurd ⟨r, List.mem_append_left _ hr, hid⟩ hgone
  | delete table cond =>
    cases ht
    refine ⟨cond, rfl, fun r₁ hr₁ hid₁ => ?_⟩
    by_contra hcond
    exact hgone ⟨r₁, List.mem_filter.2 ⟨hr₁, by simpa using hcond⟩, hid₁⟩
  | update table cond set =>
    cases ht
    refine absurd ⟨if cond r then set r else r, List.mem_map_of_mem hr, ?_⟩ hgone
    by_cases hcond : cond r = true
    · rw [if_pos hcond, ha.keepsId cond set rfl r hcond]
      exact hid
    · rw [if_neg hcond]
      exact hid

/-! ## The history of a store -/

/-- The edits of a store that starts readable, without dangling references. -/
structure History (db : Database) (es : List Edit) : Prop where
  readable : Readable db
  intact : orphans db = []
  admissible : ∀ m e, es[m]? = some e → Admissible (stateAt db es m) e

/-- At step `m` the conversation `c` was deleted under the message `i`, and up to `n` neither
came back nor took the message with it. -/
structure DeletedAt (db : Database) (es : List Edit) (i c : String) (m n : ℕ) : Prop where
  lt : m < n
  deleted : ∃ cond, es[m]? = some (.delete "conversations" cond) ∧
    ∀ r ∈ (stateAt db es m).rows "conversations", r "id" = .text c → cond r = true
  conversation : HasConversation (stateAt db es m) c
  message : Refers (stateAt db es m) i c
  since : ∀ j, m < j → j ≤ n → Refers (stateAt db es j) i c ∧ ¬ HasConversation (stateAt db es j) c

theorem History.readable_at (h : History db es) (n : ℕ) : Readable (stateAt db es n) :=
  stateAt_induction h.readable (fun m e he hr => hr.apply (h.admissible m e he)) n

theorem History.next (h : History db es) (m : ℕ) :
    (snapshot (stateAt db es m)).Next (snapshot (stateAt db es (m + 1))) := by
  cases he : es[m]? with
  | none =>
    rw [stateAt_succ_of_none he]
    exact fun x hx hno => absurd hx hno
  | some e =>
    rw [stateAt_succ he]
    exact (h.admissible m e he).next

/-- The step at which a parent disappears is a deletion. -/
theorem History.deletedAt_iff (h : History db es) :
    DeletedAt db es i c m n ↔ LeftAt (fun k => snapshot (stateAt db es k)) (i, c) m n := by
  constructor
  · intro hd
    exact ⟨hd.lt, hd.message, hd.conversation, hd.since⟩
  · intro hl
    have hlt := hl.lt
    have hgone : ¬ HasConversation (stateAt db es (m + 1)) c := (hl.since (m + 1) (by omega) (by omega)).2
    have hconv : HasConversation (stateAt db es m) c := hl.parent
    refine ⟨hlt, ?_, hconv, hl.refers, hl.since⟩
    cases he : es[m]? with
    | none =>
      rw [stateAt_succ_of_none he] at hgone
      exact absurd hconv hgone
    | some e =>
      rw [stateAt_succ he] at hgone
      obtain ⟨cond, rfl, hcond⟩ := (h.admissible m e he).deleted hconv hgone
      exact ⟨cond, rfl, hcond⟩

variable (toFinding parse) in
/-- **What an orphan finding says about the past.** After any edits of the app the store can
be audited, and a message is found orphaned iff at some step its conversation was deleted
under it and neither came back nor took the message with it: no deletion that left a message
behind is missed, and no message is reported for another reason. -/
theorem audit_history (h : History db es) (n : ℕ) :
    ∃ as, attachments parse (stateAt db es n) = .ok as ∧
      auditStore toFinding parse (stateAt db es n) =
        .ok ((orphans (stateAt db es n) ++ residue as).map (·.finding toFinding)) ∧
      ∀ i c, SignalAnomaly.orphanMessage i c ∈ orphans (stateAt db es n) ↔
        ∃ m, DeletedAt db es i c m n := by
  obtain ⟨as, ha, haudit⟩ := (h.readable_at n).auditStore_ok toFinding parse
  refine ⟨as, ha, haudit, fun i c => ?_⟩
  have hstart : ∀ x, ¬ (snapshot (stateAt db es 0)).Dangling x := by
    rintro ⟨i, c⟩ hx
    have hmem := mem_orphans_iff.2 hx
    rw [stateAt_zero, h.intact] at hmem
    cases hmem
  rw [mem_orphans_iff, dangling_iff (s := fun k => snapshot (stateAt db es k)) hstart fun m _ => h.next m]
  exact exists_congr fun m => h.deletedAt_iff.symm

/-! The app deletes the conversation of `m2`, and then `m2`. -/

def sampleEdits : List Edit :=
  [.delete "conversations" fun r => r "id" = .text "c1", .delete "messages" fun r => r "id" = .text "m2"]

theorem sampleEdits_history : History (auditDb [sampleConversation]) sampleEdits := by
  have haudit : auditStore Prod.mk sampleParse (auditDb [sampleConversation]) =
      .ok (sampleResidue.map (SignalAnomaly.finding Prod.mk)) := rfl
  refine ⟨readable_of_auditStore (fun _ => rfl) haudit, by decide +kernel, fun m e he => ?_⟩
  have hdelete : ∃ table cond, e = .delete table cond := by
    rcases List.mem_cons.1 (List.mem_of_getElem? he) with rfl | he
    · exact ⟨_, _, rfl⟩
    · exact ⟨_, _, List.mem_singleton.1 he⟩
  obtain ⟨table, cond, rfl⟩ := hdelete
  refine ⟨fun r hr => ?_, fun _ _ h => ?_, fun _ r hr => ?_⟩
  · cases hr
  · cases h
  · cases hr

theorem audit_history_sample :
    ∃ m, DeletedAt (auditDb [sampleConversation]) sampleEdits "m2" "c1" m 1 := by
  obtain ⟨as, -, -, h⟩ := audit_history Prod.mk sampleParse sampleEdits_history 1
  exact (h "m2" "c1").1 (by decide +kernel)

/-! ## Residue -/

/-- The attachment table has a record with the path `p` for the message `i`. -/
def HasRecord (db : Database) (i p : String) : Prop :=
  ∃ r ∈ attachmentRows db, r "messageId" = .text i ∧
    optionalCell (db.columns messageAttachmentsTable) r "path" = .text p

/-- The json of the message `i` lists an attachment with the path `p`. -/
def ListsPath (parse : Parser) (db : Database) (i p : String) : Prop :=
  ∃ r ∈ db.rows "messages", r "id" = .text i ∧
    ∃ a ∈ objectElements parse (r "json").asText, strField a "path" = some p

theorem mem_residue_iff {as : List Attachment} {p : String} :
    SignalAnomaly.attachmentResidue i p ∈ residue as ↔ ∃ a ∈ as, a.messageId = i ∧ a.path = some p := by
  have hat : ∀ a : Attachment, attachmentResidueOf a = some (.attachmentResidue i p) ↔
      a.messageId = i ∧ a.path = some p := by
    intro a
    unfold attachmentResidueOf
    cases a.path with
    | none => simp
    | some q => simp
  simp only [residue_eq]
  simp only [List.mem_filterMap, hat]

/-- **What a residue finding says**: the table has a record with the path, or it has none for
the message and the message's json lists the path. -/
theorem mem_residue_attachments {as : List Attachment} {p : String}
    (h : attachments parse db = .ok as) :
    SignalAnomaly.attachmentResidue i p ∈ residue as ↔
      HasRecord db i p ∨ ¬ InTable db i ∧ ListsPath parse db i p := by
  obtain ⟨tbl, t, l, htbl, hl, rfl⟩ := attachments_ok_iff.1 h
  obtain ⟨recs, hrecs, hperm⟩ := exists_readsTable htbl
  -- the records of the table
  have hfront : (∃ a ∈ tbl, a.messageId = i ∧ a.path = some p) ↔ HasRecord db i p := by
    have hrow : ∀ r a, AttachmentRecorded (db.columns messageAttachmentsTable) r a →
        (a.messageId = i ∧ a.path = some p ↔ r "messageId" = .text i ∧
          optionalCell (db.columns messageAttachmentsTable) r "path" = .text p) := by
      intro r a hra
      have hpath : Cell.ofOption a.path = .text p ↔ a.path = some p :=
        ofOption_injective.eq_iff (b := some p)
      rw [hra.messageId, hra.path, hpath, Cell.text.injEq]
    unfold HasRecord
    constructor
    · rintro ⟨a, ha, hap⟩
      obtain ⟨r, hr, hra⟩ := mem_of_forall₂_right hrecs.forall₂ (hperm.mem_iff.1 ha)
      exact ⟨r, hr, (hrow r a hra).1 hap⟩
    · rintro ⟨r, hr, hrp⟩
      obtain ⟨a, ha, hra⟩ := mem_of_forall₂_left hrecs.forall₂ hr
      exact ⟨a, hperm.mem_iff.2 ha, (hrow r a hra).2 hrp⟩
  -- the records of the json texts
  have hback : (∃ e ∈ l.map (jsonEntry parse), e.1 = i ∧ ∃ a ∈ e.2, a.path = some p) ↔
      ListsPath parse db i p := by
    have hentry : ∀ q : String × Option String, (∃ a ∈ (jsonEntry parse q).2, a.path = some p) ↔
        ∃ v ∈ objectElements parse q.2, strField v "path" = some p := by
      intro q
      rw [jsonEntry_eq]
      simp only [List.mem_map, exists_exists_and_eq_and]
      rfl
    unfold ListsPath
    rw [rows_eq hl.table]
    constructor
    · rintro ⟨e, he, hi, hp⟩
      obtain ⟨q, hq, rfl⟩ := List.mem_map.1 he
      obtain ⟨r, hr, hid, hjson⟩ := mem_of_forall₂_right hl.rows hq
      refine ⟨r, hr, ?_, ?_⟩
      · rw [hid, ← hi]
        rfl
      · rw [hjson, asText_ofOption]
        exact (hentry q).1 hp
    · rintro ⟨r, hr, hi, hp⟩
      obtain ⟨q, hq, hid, hjson⟩ := mem_of_forall₂_left hl.rows hr
      rw [hid, Cell.text.injEq] at hi
      rw [hjson, asText_ofOption] at hp
      exact ⟨_, List.mem_map_of_mem hq, hi, (hentry q).2 hp⟩
  have hmem := fun k => mem_tableAttachments_iff htbl (i := k)
  have hstamped := stamped_jsonEntry parse l
  rw [mem_residue_iff, ← hfront, ← hback, ← hmem]
  unfold overlay
  simp only [List.mem_append, List.mem_flatMap, List.mem_filter, decide_eq_true_eq]
  constructor
  · rintro ⟨a, ha | ⟨e, ⟨he, hno⟩, ha⟩, hi, hp⟩
    · exact Or.inl ⟨a, ha, hi, hp⟩
    · have hkey := hstamped e he a ha
      rw [hi] at hkey
      rw [← hkey] at hno
      exact Or.inr ⟨hno, e, he, hkey.symm, a, ha, hp⟩
  · rintro (⟨a, ha, hi, hp⟩ | ⟨hno, e, he, hi, a, ha, hp⟩)
    · exact ⟨a, Or.inl ha, hi, hp⟩
    · rw [← hi] at hno
      exact ⟨a, Or.inr ⟨e, ⟨he, hno⟩, ha⟩, (hstamped e he a ha).trans hi, hp⟩

variable (toFinding parse) in
/-- **What a residue finding says about the past.** After any edits of the app a path is
found as residue iff the attachment table has a record with it, or has none for the message
and the message's json lists it. While the attachment table is only inserted into, no edit
removes the finding of a record, whatever is deleted from the other tables; once a message is
deleted, the records of the table are all that is found for it. -/
theorem residue_history (h : History db es) (n : ℕ) :
    ∃ as, attachments parse (stateAt db es n) = .ok as ∧
      auditStore toFinding parse (stateAt db es n) =
        .ok ((orphans (stateAt db es n) ++ residue as).map (·.finding toFinding)) ∧
      (∀ i p, SignalAnomaly.attachmentResidue i p ∈ residue as ↔
        HasRecord (stateAt db es n) i p ∨
          ¬ InTable (stateAt db es n) i ∧ ListsPath parse (stateAt db es n) i p) ∧
      (∀ m ≤ n, (∀ j, m ≤ j → j < n → ∀ e : Edit, es[j]? = some e →
          e.target = messageAttachmentsTable → ∃ r, e = .insert messageAttachmentsTable r) →
        ∀ i p, HasRecord (stateAt db es m) i p → SignalAnomaly.attachmentResidue i p ∈ residue as) ∧
      ∀ i p, (¬ ∃ r ∈ (stateAt db es n).rows "messages", r "id" = .text i) →
        SignalAnomaly.attachmentResidue i p ∈ residue as → HasRecord (stateAt db es n) i p := by
  obtain ⟨as, ha, haudit⟩ := (h.readable_at n).auditStore_ok toFinding parse
  have hiff := fun i p => mem_residue_attachments (i := i) (p := p) ha
  refine ⟨as, ha, haudit, hiff, fun m hmn hins i p hrec => ?_, fun i p hgone hfound => ?_⟩
  · obtain ⟨r, hr, hid, hpath⟩ := hrec
    refine (hiff i p).2 (Or.inl ⟨r, rows_subset_of_insert hmn hins hr, hid, ?_⟩)
    rw [stateAt_columns] at hpath ⊢
    exact hpath
  · rcases (hiff i p).1 hfound with hrec | ⟨-, r, hr, hid, -⟩
    · exact hrec
    · exact absurd ⟨r, hr, hid⟩ hgone

/-- The record of `m2` is found after `m2` is deleted. -/
theorem residue_history_sample :
    ∃ as, attachments sampleParse (stateAt (auditDb [sampleConversation]) sampleEdits 2) = .ok as ∧
      SignalAnomaly.attachmentResidue "m2" "ef/01" ∈ residue as := by
  obtain ⟨as, ha, -, -, hkept, -⟩ := residue_history Prod.mk sampleParse sampleEdits_history 2
  refine ⟨as, ha, hkept 0 (by omega) (fun j _ _ e he ht => ?_) "m2" "ef/01" ?_⟩
  · rcases List.mem_cons.1 (List.mem_of_getElem? he) with rfl | he
    · exact absurd ht (by decide)
    · rw [List.mem_singleton.1 he] at ht
      exact absurd ht (by decide)
  · exact ⟨_, List.mem_singleton_self _, rfl, rfl⟩

end SignalDesktop
