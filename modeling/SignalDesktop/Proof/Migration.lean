import Mathlib.Data.Finset.Basic
import SignalDesktop.Proof.Transport

/-!
# A partial migration does not change the reading

Signal moves the attachments of a message from its json to the attachment table, a
message at a time. `Migrates parse S db db'`: the messages of any set `S` have been moved.

* `migration_invariant`: the messages and the timeline of `db'` are those of `db`, and its
  attachments a permutation of them.
-/

namespace SignalDesktop

open Sqlite SerdeJson Overlay Pointwise

variable {parse : Parser} {db db' : Database} {t t' : Table} {r r' : Row} {S : Finset String}

/-! ## What a migration does -/

/-- `r` is the row of a message of `S`. -/
def Moved (S : Finset String) (r : Row) : Prop := ∃ i ∈ S, r "id" = .text i

instance : DecidablePred (Moved S) := fun r => inferInstanceAs (Decidable (∃ i ∈ S, r "id" = .text i))

/-- A message that can be moved: nothing of it is in the table yet, and its json is an
object whose `attachments` are an array of objects. -/
structure Movable (parse : Parser) (db : Database) (r : Row) : Prop where
  notInTable : ¬ HasTableRow db r
  json : ∃ s m es, r "json" = .text s ∧ parse s = some (.object m) ∧
    (Value.object m).get "attachments" = some (.array es) ∧ ∀ v ∈ es, v.isObject = true

/-- The table row for the element `v` of the array of the message row `r`. -/
structure MovedTo (r : Row) (v : Value) (row : Row) : Prop where
  messageId : row "messageId" = r "id"
  contentType : row "contentType" = .ofOption (strField v "contentType")
  path : row "path" = .ofOption (strField v "path")
  fileName : row "fileName" = .ofOption (strField v "fileName")
  size : row "size" = .ofOption ((v.get "size").bind Value.asI64)
  plaintextHash : row "plaintextHash" = .null

/-- `s'` is the json object `s` without its member `key`. -/
def KeyRemoved (parse : Parser) (key s s' : String) : Prop :=
  ∃ m m', parse s = some (.object m) ∧ parse s' = some (.object m') ∧
    (Value.object m').get key = none ∧ ∀ k ≠ key, (Value.object m').get k = (Value.object m).get k

/-- A message row keeps its cells. Its json may lose its attachments if they are moved. -/
structure MessageMigrates (parse : Parser) (S : Finset String) (present : List String) (r r' : Row) :
    Prop where
  cells : ∀ c ∈ present, c ≠ "json" → r' c = r c
  json : r' "json" = r "json" ∨ Moved S r ∧ ∃ s s', r "json" = .text s ∧ r' "json" = .text s' ∧
    KeyRemoved parse "attachments" s s'

/-- A row of the table keeps its cells, with NULL under a new optional column. -/
def Widened (present : List String) (r r' : Row) : Prop :=
  (∀ c ∈ present, r' c = r c) ∧ ∀ c ∈ optionalAttachmentColumns, c ∉ present → r' c = .null

/-- **A partial migration.** The messages of `S` are moved to the attachment table, which
is created or widened if need be. Its new rows may stand anywhere. -/
structure Migrates (parse : Parser) (S : Finset String) (db db' : Database) : Prop where
  undamaged : ∀ s, db'.fault s = none
  others : ∀ name, name ≠ "messages" → name ≠ messageAttachmentsTable →
    db'.table name = db.table name
  movable : ∀ i ∈ S, ∃ r ∈ db.rows "messages", r "id" = .text i ∧ Movable parse db r
  messageSchema : db'.columns "messages" = db.columns "messages"
  messageRows : List.Forall₂ (MessageMigrates parse S (db.columns "messages")) (db.rows "messages")
    (db'.rows "messages")
  columns : ∀ c, c = "messageId" ∨ c ∈ optionalAttachmentColumns ∨
    c ∈ db.columns messageAttachmentsTable → c ∈ db'.columns messageAttachmentsTable
  rows : ∃ old moved, List.Forall₂ (Widened (db.columns messageAttachmentsTable)) (attachmentRows db) old ∧
    List.Forall₂ (fun r rows => List.Forall₂ (MovedTo r) (attachmentElements parse (r "json").asText) rows)
      ((db.rows "messages").filter (Moved S)) moved ∧
    (attachmentRows db').Perm (old ++ moved.flatten)

/-! ## The table after it -/

theorem Movable.elements (h : Movable parse db r) :
    ∀ v ∈ attachmentElements parse (r "json").asText, v.isObject = true := by
  obtain ⟨s, m, es, hs, hp, hes, hobj⟩ := h.json
  have he : attachmentElements parse (r "json").asText = es := by
    simp [attachmentElements, hs, Cell.asText, hp, hes, Value.asArray]
  rw [he]
  exact hobj

theorem Widened.optionalCell_eq {present present' : List String} (h : Widened present r r') {c : String}
    (hc : c ∈ optionalAttachmentColumns) (hc' : c ∈ present') :
    optionalCell present' r' c = optionalCell present r c := by
  unfold optionalCell
  rw [if_pos hc']
  by_cases hp : c ∈ present
  · rw [if_pos hp, h.1 c hp]
  · rw [if_neg hp, h.2 c hc hp]

theorem Widened.recorded {present present' : List String} {a : Attachment} (h : Widened present r r')
    (hid : "messageId" ∈ present) (hc : ∀ c ∈ optionalAttachmentColumns, c ∈ present')
    (ha : AttachmentRecorded present r a) : AttachmentRecorded present' r' a := by
  have hcell : ∀ c ∈ optionalAttachmentColumns, optionalCell present' r' c = optionalCell present r c :=
    fun c hm => h.optionalCell_eq hm (hc c hm)
  exact ⟨(h.1 _ hid).trans ha.messageId, (hcell _ (by decide)).trans ha.contentType,
    (hcell _ (by decide)).trans ha.path, (hcell _ (by decide)).trans ha.size,
    (hcell _ (by decide)).trans ha.fileName, (hcell _ (by decide)).trans ha.plaintextHash⟩

/-- **A moved element is recorded as it was in the json.** -/
theorem MovedTo.recorded {present' : List String} {v : Value} {row : Row} {i : String}
    (h : MovedTo r v row) (hi : r "id" = .text i)
    (hc : ∀ c ∈ optionalAttachmentColumns, c ∈ present') :
    AttachmentRecorded present' row (jsonAttachment i v) := by
  have hcell : ∀ c ∈ optionalAttachmentColumns, optionalCell present' row c = row c :=
    fun c hm => if_pos (hc c hm)
  exact ⟨h.messageId.trans hi, (hcell _ (by decide)).trans h.contentType,
    (hcell _ (by decide)).trans h.path, (hcell _ (by decide)).trans h.size,
    (hcell _ (by decide)).trans h.fileName, (hcell _ (by decide)).trans h.plaintextHash⟩

/-- Distinct message ids identify the rows. -/
theorem row_of_id {present : List String} {rows : List Row} {l : List MessageRow}
    (h : List.Forall₂ (MessageRecorded present) rows l) (hnd : (l.map MessageRow.id).Nodup)
    {r r' : Row} (hr : r ∈ rows) (hr' : r' ∈ rows) (hid : r "id" = r' "id") : r = r' := by
  have hids : rows.map (fun r => r "id") = (l.map MessageRow.id).map Cell.text := by
    rw [← List.forall₂_eq_eq_eq, List.map_map, List.forall₂_map_left_iff, List.forall₂_map_right_iff]
    exact h.imp fun _ _ hm => hm.id
  have hrows : (rows.map fun r => r "id").Nodup := by
    rw [hids]
    exact hnd.map fun a b hab => by cases hab; rfl
  exact List.inj_on_of_nodup_map hrows hr hr' hid

/-- A row of the attachment table shows that the table has the id column. -/
theorem IdsReadable.messageId_mem (hids : IdsReadable db) (hr : r ∈ attachmentRows db) :
    "messageId" ∈ db.columns messageAttachmentsTable := by
  cases ht : db.table messageAttachmentsTable with
  | none => rw [attachmentRows_nil ht] at hr; cases hr
  | some t =>
    rw [columns_eq ht]
    exact hids.column t ht

/-- **Where a row of the migrated table comes from**: a row of the old table, or an element
of the array of a moved message. -/
theorem Migrates.row_cases (h : Migrates parse S db db') {x : Row} (hx : x ∈ attachmentRows db') :
    (∃ r ∈ attachmentRows db, Widened (db.columns messageAttachmentsTable) r x) ∨
      ∃ r ∈ db.rows "messages", Moved S r ∧
        ∃ v ∈ attachmentElements parse (r "json").asText, MovedTo r v x := by
  obtain ⟨old, moved, hold, hmoved, hperm⟩ := h.rows
  rcases List.mem_append.1 (hperm.mem_iff.1 hx) with hx | hx
  · exact Or.inl (mem_of_forall₂_right hold hx)
  · obtain ⟨g, hg, hxg⟩ := List.mem_flatten.1 hx
    obtain ⟨r, hr, hmv⟩ := mem_of_forall₂_right hmoved hg
    obtain ⟨hr, hS⟩ := List.mem_filter.1 hr
    exact Or.inr ⟨r, hr, of_decide_eq_true hS, mem_of_forall₂_right hmv hxg⟩

/-- No row of the old table is lost. -/
theorem Migrates.exists_widened (h : Migrates parse S db db') (hr : r ∈ attachmentRows db) :
    ∃ x ∈ attachmentRows db', Widened (db.columns messageAttachmentsTable) r x := by
  obtain ⟨old, moved, hold, -, hperm⟩ := h.rows
  obtain ⟨x, hx, hw⟩ := mem_of_forall₂_left hold hr
  exact ⟨x, hperm.mem_iff.2 (List.mem_append_left _ hx), hw⟩

/-- No element of a moved message is lost. -/
theorem Migrates.exists_movedTo (h : Migrates parse S db db') (hr : r ∈ db.rows "messages")
    (hS : Moved S r) {v : Value} (hv : v ∈ attachmentElements parse (r "json").asText) :
    ∃ x ∈ attachmentRows db', MovedTo r v x := by
  obtain ⟨old, moved, -, hmoved, hperm⟩ := h.rows
  obtain ⟨g, hg, hmv⟩ := mem_of_forall₂_left hmoved (List.mem_filter.2 ⟨hr, decide_eq_true hS⟩)
  obtain ⟨x, hx, hto⟩ := mem_of_forall₂_left hmv hv
  exact ⟨x, hperm.mem_iff.2 (List.mem_append_right _ (List.mem_flatten.2 ⟨g, hg, hx⟩)), hto⟩

/-- **Who has a row after the migration**: who had one, and the moved messages with
attachments. -/
theorem Migrates.inTable_iff (h : Migrates parse S db db') {rows : List Row}
    (hrows : db.rows "messages" = rows)
    (hinj : ∀ r₁ ∈ rows, ∀ r₂ ∈ rows, r₁ "id" = r₂ "id" → r₁ = r₂) (hids : IdsReadable db)
    (hr : r ∈ rows) {i : String} (hi : r "id" = .text i) :
    InTable db' i ↔ InTable db i ∨ Moved S r ∧ attachmentElements parse (r "json").asText ≠ [] := by
  rw [← hrows] at hinj hr
  constructor
  · rintro ⟨x, hx, hxi⟩
    rcases h.row_cases hx with ⟨r₁, hr₁, hw⟩ | ⟨r₁, hr₁, hS, v, hv, hto⟩
    · exact Or.inl ⟨r₁, hr₁, (hw.1 _ (hids.messageId_mem hr₁)).symm.trans hxi⟩
    · -- a new row names its message, which is `r` as ids are distinct
      have hr₁r : r₁ = r := hinj r₁ hr₁ r hr (by rw [← hto.messageId, hxi, hi])
      rw [hr₁r] at hv hS
      exact Or.inr ⟨hS, List.ne_nil_of_mem hv⟩
  · rintro (⟨r₁, hr₁, hri⟩ | ⟨hS, hne⟩)
    · obtain ⟨x, hx, hw⟩ := h.exists_widened hr₁
      exact ⟨x, hx, (hw.1 _ (hids.messageId_mem hr₁)).trans hri⟩
    · obtain ⟨v, hv⟩ := List.exists_mem_of_ne_nil _ hne
      obtain ⟨x, hx, hto⟩ := h.exists_movedTo hr hS hv
      exact ⟨x, hx, hto.messageId.trans hi⟩

theorem Migrates.idsReadable (h : Migrates parse S db db') (hids : IdsReadable db) : IdsReadable db' := by
  refine ⟨h.undamaged _, fun t ht => ?_, fun _ _ => h.undamaged _, fun x hx => ?_⟩
  · rw [← columns_eq ht]
    exact h.columns _ (Or.inl rfl)
  · rcases h.row_cases hx with ⟨r, hr, hw⟩ | ⟨r, -, ⟨i, -, hi⟩, v, -, hto⟩
    · obtain ⟨i, hi⟩ := hids.ids r hr
      exact ⟨i, (hw.1 _ (hids.messageId_mem hr)).trans hi⟩
    · exact ⟨i, hto.messageId.trans hi⟩

/-! ## The json after it -/

/-- The json of a migrated row: the same under every key but `attachments`, and the same
array unless its elements are in the table. -/
theorem MessageMigrates.json_cases {present : List String} {json : Option String}
    (h : MessageMigrates parse S present r r') (hj : r "json" = .ofOption json) :
    ∃ json', r' "json" = .ofOption json' ∧ AgreeOn messageKeys (json.bind parse) (json'.bind parse) ∧
      (attachmentElements parse json' = attachmentElements parse json ∨
        Moved S r ∧ attachmentElements parse json' = []) := by
  rcases h.json with heq | ⟨hS, s, s', hs, hs', m, m', hm, hm', hgone, hkept⟩
  · exact ⟨json, heq.trans hj, fun _ _ => rfl, Or.inl rfl⟩
  · have hjs : json = some s := ofOption_injective (hj.symm.trans hs)
    subst hjs
    refine ⟨some s', hs', fun k hk => ?_, Or.inr ⟨hS, ?_⟩⟩
    · have hne : k ≠ "attachments" := by
        rintro rfl
        exact absurd hk (by decide)
      rw [Option.bind_some, Option.bind_some, hm, hm']
      exact hkept k hne
    · simp [attachmentElements, hm', hgone]

/-! ## The reading after it -/

theorem Migrates.messagesOpen (h : Migrates parse S db db') {l : List MessageRow}
    (hr : ReadsMessages db t l) : ∃ t', MessagesOpen db' t' ∧ t'.columns = t.columns := by
  obtain ⟨t', ht', hcols⟩ := exists_table_of_schema h.messageSchema hr.table
  exact ⟨t', ⟨ht', by rw [hcols]; exact hr.columns, h.undamaged _, h.undamaged _⟩, hcols⟩

theorem Migrates.forall₂_rows (h : Migrates parse S db db') {l : List MessageRow}
    (hr : ReadsMessages db t l) (ho : MessagesOpen db' t') :
    List.Forall₂ (MessageMigrates parse S t.columns) t.rows t'.rows := by
  have := h.messageRows
  rwa [rows_eq hr.table, rows_eq ho.table, columns_eq hr.table] at this

/-- **A message is read as before.** Its json may have lost its attachments, but then the
table has them. -/
theorem MessageMigrates.message_step {present ids ids' : List String} {m : MessageRow}
    (h : MessageMigrates parse S present r r') (hids : messageIdsWithTableAttachments db = .ok ids)
    (hids' : messageIdsWithTableAttachments db' = .ok ids') (hrec : MessageRecorded present r m)
    (hc : ∀ c ∈ messageColumns, c ∈ present)
    (htab : InTable db' m.id ↔ InTable db m.id ∨ Moved S r ∧ attachmentElements parse m.json ≠ []) :
    ∃ m', MessageRecorded present r' m' ∧ messageOf parse ids m = messageOf parse ids' m' := by
  obtain ⟨json', hj', hagree, hel⟩ := h.json_cases hrec.json
  refine ⟨{ m with json := json' }, hrec.withJson hc h.cells hj', (messageOf_json_congr hagree ?_).symm⟩
  rw [Bool.eq_iff_iff, hasAttachments_iff hids', hasAttachments_iff hids, htab]
  rcases hel with hel | ⟨hS, hel⟩
  · -- the json has kept its attachments
    rw [hel]
    exact ⟨fun hx => hx.elim Or.inl fun hx => hx.elim Or.inr fun hx => Or.inl hx.2,
      fun hx => hx.elim Or.inl fun hx => Or.inr (Or.inl hx)⟩
  · -- the json has lost them, to the table
    rw [hel]
    exact ⟨fun hx => hx.elim (fun hx => absurd rfl hx) fun hx => hx.elim Or.inr fun hx => Or.inl hx.2,
      fun hx => Or.inr (hx.elim (fun hx => Or.inr ⟨hS, hx⟩) Or.inl)⟩

theorem Migrates.messages_eq (h : Migrates parse S db db') {ms : List Message}
    (hm : messages parse db = .ok ms) (hnd : (ms.map Message.id).Nodup) :
    messages parse db' = .ok ms := by
  obtain ⟨ids, t, l, hids, hr, rfl⟩ := messages_ok_iff.1 hm
  have hread : IdsReadable db := exists_ids_iff.1 ⟨ids, hids⟩
  obtain ⟨ids', hids'⟩ := exists_ids_iff.2 (h.idsReadable hread)
  obtain ⟨t', ho, hcols⟩ := h.messagesOpen hr
  have hnd' : (l.map MessageRow.id).Nodup := map_id_messageOf ids l ▸ hnd
  have step : ∀ r ∈ t.rows, ∀ r' m, MessageMigrates parse S t.columns r r' →
      MessageRecorded t.columns r m → ∃ m', MessageRecorded t'.columns r' m' ∧
        messageOf parse ids m = messageOf parse ids' m' := by
    intro r hrt r' m hmig hrec
    have htab := h.inTable_iff (rows_eq hr.table)
      (fun r₁ h₁ r₂ h₂ hid => row_of_id hr.rows hnd' h₁ h₂ hid) hread hrt hrec.id
    rw [hrec.json, asText_ofOption] at htab
    rw [hcols]
    exact hmig.message_step hids hids' hrec hr.columns htab
  obtain ⟨ms', hms', heq⟩ := messages_transport hids' hr ho (h.forall₂_rows hr ho) step
  rw [List.forall₂_eq_eq_eq] at heq
  rwa [heq]

/-- The records of the table after the migration: those before it and the moved ones. -/
theorem Migrates.readsTable (h : Migrates parse S db db') (hids : IdsReadable db)
    {tbl : List Attachment} {l : List (String × Option String)} (htbl : ReadsTable db tbl)
    (hl : List.Forall₂ IdJsonRecorded (db.rows "messages") l)
    (hobj : ∀ r ∈ db.rows "messages", Moved S r → Movable parse db r) :
    ∃ tbl', ReadsTable db' tbl' ∧
      tbl'.Perm (tbl ++ ((l.map (jsonEntry parse)).filter fun e => e.1 ∈ S).flatMap Prod.snd) := by
  obtain ⟨old, moved, hold, hmoved, hperm⟩ := h.rows
  set cols' := db'.columns messageAttachmentsTable with hcols'
  have hopt : ∀ c ∈ optionalAttachmentColumns, c ∈ cols' := fun c hc => h.columns c (Or.inr (Or.inl hc))
  have hold' : List.Forall₂ (AttachmentRecorded cols') old tbl := by
    refine forall₂_join (fun r hr r' a hw ha => ?_) hold htbl.forall₂
    exact hw.recorded (hids.messageId_mem hr) hopt ha
  have hsel : List.Forall₂ IdJsonRecorded ((db.rows "messages").filter (Moved S))
      (l.filter fun p => p.1 ∈ S) := by
    refine List.rel_filter (fun r p hp => ?_) hl
    simp [Moved, hp.1]
  have hmoved' : List.Forall₂ (List.Forall₂ (AttachmentRecorded cols')) moved
      ((l.filter fun p => p.1 ∈ S).map fun p => (jsonEntry parse p).2) := by
    rw [List.forall₂_map_right_iff]
    refine forall₂_join (fun r hr g p hg hp => ?_) hmoved hsel
    obtain ⟨hr, hS⟩ := List.mem_filter.1 hr
    -- every element is an object, so none is dropped
    have hall := (hobj r hr (of_decide_eq_true hS)).elements
    rw [hp.2, asText_ofOption] at hall hg
    rw [jsonEntry_eq, objectElements, List.filter_eq_self.2 hall, List.forall₂_map_right_iff]
    exact hg.flip.imp fun v row hto => hto.recorded hp.1 hopt
  have hflat : ((l.map (jsonEntry parse)).filter fun e => e.1 ∈ S).flatMap Prod.snd =
      ((l.filter fun p => p.1 ∈ S).map fun p => (jsonEntry parse p).2).flatten := by
    rw [List.filter_map, List.flatMap_map, List.flatMap_def]
    rfl
  obtain ⟨tbl', htbl', hp⟩ := List.perm_comp_forall₂ hperm
    (List.rel_append hold' (List.rel_flatten hmoved'))
  have hid : "messageId" ∈ cols' := h.columns _ (Or.inl rfl)
  obtain ⟨t', ht', hc⟩ := exists_table hid
  refine ⟨tbl', ?_, hflat ▸ hp⟩
  rw [attachmentRows_eq ht'] at htbl'
  refine .present t' tbl' (h.undamaged _) ht' (hc ▸ hid) (h.undamaged _) ?_
  rwa [hc]

/-- Distinct ids make every row of `S` one that can be moved. -/
theorem Migrates.movable_of_moved (h : Migrates parse S db db') {l : List MessageRow}
    (hr : ReadsMessages db t l) (hnd : (l.map MessageRow.id).Nodup) (hrt : r ∈ db.rows "messages")
    (hS : Moved S r) : Movable parse db r := by
  obtain ⟨i, hi, hri⟩ := hS
  obtain ⟨r₁, hr₁, hr₁i, hmov⟩ := h.movable i hi
  rw [rows_eq hr.table] at hrt hr₁
  have : r₁ = r := row_of_id hr.rows hnd hr₁ hrt (hr₁i.trans hri.symm)
  rwa [← this]

/-- The attachments in the json of a message are kept, or given up if it is moved. -/
theorem MessageMigrates.jsonEntry_step {present : List String} {p : String × Option String}
    (h : MessageMigrates parse S present r r') (hid : "id" ∈ present) (hp : IdJsonRecorded r p) :
    ∃ p', IdJsonRecorded r' p' ∧ (jsonEntry parse p').1 = (jsonEntry parse p).1 ∧
      ((jsonEntry parse p').2 = (jsonEntry parse p).2 ∨
        (jsonEntry parse p).1 ∈ S ∧ (jsonEntry parse p').2 = []) := by
  obtain ⟨json', hj', -, hel⟩ := h.json_cases hp.2
  refine ⟨(p.1, json'), ⟨(h.cells _ hid (by decide)).trans hp.1, hj'⟩, ?_⟩
  simp only [jsonEntry_eq, objectElements]
  refine ⟨trivial, ?_⟩
  rcases hel with hel | ⟨⟨i, hi, hri⟩, hel⟩
  · exact Or.inl (by rw [hel])
  · rw [hp.1, Cell.text.injEq] at hri
    refine Or.inr ⟨?_, ?_⟩
    · rw [hri]
      exact hi
    · rw [hel, List.filter_nil, List.map_nil]

theorem Migrates.attachments_perm (h : Migrates parse S db db') {ms : List Message}
    {out : List Attachment} (hm : messages parse db = .ok ms)
    (ha : attachments parse db = .ok out) (hnd : (ms.map Message.id).Nodup) :
    ∃ out', attachments parse db' = .ok out' ∧ out'.Perm out := by
  obtain ⟨ids, t, lm, hids, hr, rfl⟩ := messages_ok_iff.1 hm
  obtain ⟨tbl, t₁, l, htbl, hl, rfl⟩ := attachments_ok_iff.1 ha
  obtain ⟨tbl₀, h₀, hperm₀⟩ := exists_readsTable htbl
  have hnd' : (lm.map MessageRow.id).Nodup := map_id_messageOf ids lm ▸ hnd
  have hread : IdsReadable db := exists_ids_iff.1 ⟨ids, hids⟩
  have htt : t₁ = t := hr.table_eq hl
  subst htt
  -- the table of `db'`
  obtain ⟨tbl₁, h₁, hperm₁⟩ := h.readsTable hread h₀ (by rw [rows_eq hr.table]; exact hl.rows)
    fun r hrt hS => h.movable_of_moved hr hnd' hrt hS
  obtain ⟨tbl', htbl', hperm'⟩ := exists_tableAttachments h₁
  have hfront : tbl'.Perm (tbl ++ ((l.map (jsonEntry parse)).filter fun e => e.1 ∈ S).flatMap Prod.snd) :=
    (hperm'.trans hperm₁).trans (hperm₀.symm.append_right _)
  -- the json of `db'`
  obtain ⟨t', ho, hcols⟩ := h.messagesOpen hr
  obtain ⟨l', hQ, hout'⟩ := attachments_transport htbl' hl ho.table (hcols ▸ hl.id) (hcols ▸ hl.json)
    (h.undamaged _) (h.forall₂_rows hr ho) fun r _ r' p hmig hp => hmig.jsonEntry_step hl.id hp
  refine ⟨_, hout', ?_⟩
  have hback : Emptied (fun k => k ∈ S) (l.map (jsonEntry parse)) (l'.map (jsonEntry parse)) := by
    rw [Emptied, List.forall₂_map_left_iff, List.forall₂_map_right_iff]
    exact hQ
  refine overlay_migrate (stamped_jsonEntry parse l) hback (by convert hfront) ?_
  intro k hk hmem
  obtain ⟨r₁, -, hr₁, hmov⟩ := h.movable k hk
  exact hmov.notInTable ((hasTableRow_iff hr₁).2 ((mem_tableAttachments_iff htbl).1 hmem))

/-- **Reading is invariant under any partial migration.** With distinct message ids, the
migrated database gives the same messages, the same timeline and the same attachments, up
to their order. -/
theorem migration_invariant {ms : List Message} {out : List Attachment} (h : Migrates parse S db db')
    (hm : messages parse db = .ok ms) (ha : attachments parse db = .ok out)
    (hnd : (ms.map Message.id).Nodup) :
    (∃ out', attachments parse db' = .ok out' ∧ out'.Perm out) ∧
      messages parse db' = messages parse db ∧ timeline parse db' = timeline parse db ∧
      ∀ cs, conversations parse db = .ok cs → conversations parse db' = .ok cs := by
  have hm' : messages parse db' = .ok ms := h.messages_eq hm hnd
  have hf : NoNewFaults db db' := fun s _ => h.undamaged s
  refine ⟨h.attachments_perm hm ha hnd, hm'.trans hm.symm, ?_, fun cs hcs => ?_⟩
  · rw [timeline, timeline, hm', hm]
  · exact conversations_of_same (h.others _ (by decide) (by decide)) hf hcs

/-- The sample after `m1` has moved too: its json is emptied, and the table is wider. -/
def migratedDb : Database where
  table
    | "messages" => some
      { columns := messageColumns
        rows := [
          fun
            | "id" => .text "m1"
            | "type" => .text "outgoing"
            | "sent_at" => .integer 200
            | "body" => .text "photo"
            | "json" => .text "\x7b\x7d"
            | _ => .null,
          fun
            | "id" => .text "m2"
            | "type" => .text "incoming"
            | "conversationId" => .text "c1"
            | "sent_at" => .integer 100
            | _ => .null]
        columns_ne := messageColumns_ne }
    | "message_attachments" => some
      { columns := ["messageId", "path", "contentType", "size", "fileName", "plaintextHash"]
        rows := [
          fun
            | "messageId" => .text "m1"
            | "path" => .text "ab/cd"
            | _ => .null,
          fun
            | "messageId" => .text "m2"
            | "path" => .text "ef/01"
            | _ => .null]
        columns_ne := by decide }
    | _ => none
  fault _ := none

theorem migratedDb_migrates : Migrates sampleParse {"m1"} sampleDb migratedDb where
  undamaged _ := rfl
  others name h₁ h₂ := by
    have hm : migratedDb.table name = none := by
      simp only [migratedDb]
      split
      · exact absurd rfl h₁
      · exact absurd rfl h₂
      · rfl
    have hs : sampleDb.table name = none := by
      simp only [sampleDb]
      split
      · exact absurd rfl h₁
      · exact absurd rfl h₂
      · rfl
    rw [hm, hs]
  movable i hi := by
    rw [Finset.mem_singleton] at hi
    subst hi
    refine ⟨_, List.mem_cons_self, rfl, by decide, ?_⟩
    exact ⟨sampleJson, _, _, rfl, rfl, rfl, by simp [Value.isObject]⟩
  messageSchema := rfl
  messageRows := by
    refine .cons ⟨by decide, Or.inr ⟨⟨"m1", by decide, rfl⟩, ?_⟩⟩ (.cons ⟨by decide, Or.inl rfl⟩ .nil)
    refine ⟨sampleJson, _, rfl, rfl, _, _, rfl, rfl, rfl, fun k hk => ?_⟩
    have hb : (k == "attachments") = false := beq_false_of_ne hk
    simp only [Value.get, List.lookup_cons, List.lookup_nil, hb]
  columns c hc := by
    have hall : ∀ c ∈ "messageId" :: optionalAttachmentColumns ++ sampleAttachments.columns,
        c ∈ migratedDb.columns messageAttachmentsTable := by decide
    refine hall c ?_
    rw [List.mem_append, List.mem_cons, or_assoc]
    exact hc
  rows := by
    refine ⟨sampleAttachments.rows, [[_]], .cons ⟨fun _ _ => rfl, by decide⟩ .nil, .cons (.cons ?_ .nil) .nil,
      List.Perm.swap _ _ []⟩
    exact ⟨rfl, rfl, rfl, rfl, rfl, rfl⟩

theorem migration_invariant_sample :
    (∃ out', attachments sampleParse migratedDb = .ok out' ∧ out'.Perm
      [⟨"m2", none, none, none, some "ef/01", none⟩, ⟨"m1", none, none, none, some "ab/cd", none⟩]) ∧
    messages sampleParse migratedDb = messages sampleParse sampleDb ∧
    timeline sampleParse migratedDb = timeline sampleParse sampleDb ∧
    ∀ cs, conversations sampleParse sampleDb = .ok cs → conversations sampleParse migratedDb = .ok cs := by
  have hm : messages sampleParse sampleDb = .ok
      [⟨"m1", none, .outgoing, some "photo", some 200, none, none, none, none, none, none, true⟩,
        ⟨"m2", some "c1", .incoming, none, some 100, none, none, none, none, none, none, true⟩] := rfl
  exact migration_invariant migratedDb_migrates hm rfl (by decide)

end SignalDesktop
