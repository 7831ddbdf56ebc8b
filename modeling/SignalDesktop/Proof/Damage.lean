import SignalDesktop.Proof.Audit

/-!
# Damage to one json cell stays with its record

Two databases that differ in the json cell of one row (`JsonDamaged`), each cell NULL or
any text.

* `damage_confined`: every reader succeeds on one iff it succeeds on the other, and what
  they return differs at most in the json-backed fields of the row's own records.
-/

namespace SignalDesktop

open Sqlite SerdeJson Overlay Pointwise StableSort

variable {Finding : Type} {toFinding : Observation → Source → Finding} {parse : Parser}
  {db db' : Database} {t t' : Table} {r r' : Row} {n : ℕ} {i : String}

/-! ## Two databases -/

/-- The rows differ in their json at most, which is NULL or a text in both. -/
structure JsonDiffers (present : List String) (r r' : Row) : Prop where
  cells : ∀ c ∈ present, c ≠ "json" → r' c = r c
  json : IsTextOrNull (r "json")
  json' : IsTextOrNull <| r' "json"

/-- The databases differ at most in the json cell of the row at index `n` of `table`. -/
structure JsonDamaged (table : String) (n : ℕ) (db db' : Database) : Prop where
  faults : db'.fault = db.fault
  others : ∀ name, name ≠ table → db'.table name = db.table name
  schema : db'.columns table = db.columns table
  row : OneReplaced n (JsonDiffers (db.columns table)) (db.rows table) (db'.rows table)

/-- Of a message, only what is read from json differs. -/
def OnlyJsonFields (m m' : Message) : Prop :=
  m' = { m with
    receivedAtMs := m'.receivedAtMs
    serverTimestamp := m'.serverTimestamp
    isViewOnce := m'.isViewOnce
    isErased := m'.isErased
    sourceServiceId := m'.sourceServiceId
    hasAttachments := m'.hasAttachments }

/-- Of a conversation, only what is read from json differs. -/
def OnlyIdentityFields (c c' : Conversation) : Prop :=
  c' = { c with
    serviceId := c'.serviceId
    e164 := c'.e164
    name := c'.name }

/-- The message an anomaly is about. -/
def SignalAnomaly.messageId : SignalAnomaly → String
  | orphanMessage messageId _ => messageId
  | attachmentResidue messageId _ => messageId

theorem JsonDiffers.symm {present present' : List String} (hp : present' = present)
    (h : JsonDiffers present r r') : JsonDiffers present' r' r := by
  subst hp
  exact ⟨fun c hc hne => (h.cells c hc hne).symm, h.json', h.json⟩

theorem JsonDamaged.symm {table : String} (h : JsonDamaged table n db db') :
    JsonDamaged table n db' db :=
  ⟨h.faults.symm, fun name hne => (h.others name hne).symm, h.schema.symm,
    h.row.symm fun _ _ hd => hd.symm h.schema⟩

theorem JsonDamaged.noNewFaults {table : String} (h : JsonDamaged table n db db') :
    NoNewFaults db db' := by
  intro s hs
  rw [h.faults, hs]

/-- The damaged table, if it exists. -/
theorem JsonDamaged.exists_table {table : String} (h : JsonDamaged table n db db')
    (ht : db.table table = some t) : ∃ t', db'.table table = some t' ∧ t'.columns = t.columns ∧
      OneReplaced n (JsonDiffers t.columns) t.rows t'.rows := by
  obtain ⟨t', ht', hcols⟩ := exists_table_of_schema h.schema ht
  refine ⟨t', ht', hcols, ?_⟩
  have hrow := h.row
  rwa [columns_eq ht, rows_eq ht, rows_eq ht'] at hrow

/-! ## Damage to a message -/

theorem JsonDamaged.messages_ok (h : JsonDamaged "messages" n db db') {ms : List Message}
    (hm : messages parse db = .ok ms) :
    ∃ ms', messages parse db' = .ok ms' ∧ OneReplaced n OnlyJsonFields ms ms' := by
  obtain ⟨ids, t, l, hids, hr, rfl⟩ := messages_ok_iff.1 hm
  have hids' := messageIds_of_same (h.others _ (by decide)) h.noNewFaults hids
  obtain ⟨t', ht', hcols, hrow⟩ := h.exists_table hr.table
  have step : ∀ r ∈ t.rows, ∀ r' m, JsonDiffers t.columns r r' → MessageRecorded t.columns r m →
      ∃ m', MessageRecorded t.columns r' m' ∧
        OnlyJsonFields (messageOf parse ids m) (messageOf parse ids m') := by
    intro r _ r' m hd hrec
    obtain ⟨json', hj'⟩ := isTextOrNull_iff.1 hd.json'
    exact ⟨{ m with json := json' }, hrec.withJson hr.columns hd.cells hj', rfl⟩
  obtain ⟨l', hl', hone⟩ := hrow.transport step hr.rows
  refine ⟨_, messages_ok_iff.2 ⟨ids, t', l', hids', ?_, rfl⟩, hone.map fun _ _ hq => hq⟩
  refine ⟨ht', ?_, ?_, ?_, ?_⟩
  · rw [hcols]
    exact hr.columns
  · rw [h.faults]
    exact hr.probe
  · rw [h.faults, hcols]
    exact hr.fault
  · rwa [hcols]

/-- The rows differ only at the row of message `i`. -/
theorem forall₂_jsonDiffers {rows rows' : List Row} {present : List String}
    (h : OneReplaced n (JsonDiffers present) rows rows')
    (hid : rows[n]?.map (fun r => r "id") = some (.text i)) :
    List.Forall₂ (fun r r' => r' = r ∨ r "id" = .text i ∧ JsonDiffers present r r') rows rows' := by
  obtain ⟨before, r, r', after, rfl, rfl, rfl, hd⟩ := h
  rw [List.getElem?_append_right le_rfl, Nat.sub_self] at hid
  have hr : r "id" = .text i := Option.some.inj hid
  have hone : OneReplaced before.length (fun r r' => r "id" = .text i ∧ JsonDiffers present r r')
      (before ++ r :: after) (before ++ r' :: after) := ⟨before, r, r', after, rfl, rfl, rfl, hr, hd⟩
  exact hone.forall₂ (fun _ _ hx => Or.inr hx) fun _ => Or.inl rfl

theorem JsonDamaged.attachments_ok (h : JsonDamaged "messages" n db db')
    (hid : (db.rows "messages")[n]?.map (fun r => r "id") = some (.text i)) {out : List Attachment}
    (ha : attachments parse db = .ok out) :
    ∃ out', attachments parse db' = .ok out' ∧
      out'.filter (fun a => a.messageId ≠ i) = out.filter (fun a => a.messageId ≠ i) ∧
      (InTable db i → out' = out) := by
  obtain ⟨tbl, t, l, htbl, hl, rfl⟩ := attachments_ok_iff.1 ha
  have htbl' := tableAttachments_of_same (h.others _ (by decide)) h.noNewFaults htbl
  obtain ⟨t', ht', hcols, hrow⟩ := h.exists_table hl.table
  rw [rows_eq hl.table] at hid
  have step : ∀ r ∈ t.rows, ∀ r' p, (r' = r ∨ r "id" = .text i ∧ JsonDiffers t.columns r r') →
      IdJsonRecorded r p → ∃ p', IdJsonRecorded r' p' ∧ (p'.1 = p.1 ∧ (p.1 ≠ i → p' = p)) := by
    intro r _ r' p hd hp
    rcases hd with rfl | ⟨hi, hd⟩
    · exact ⟨p, hp, rfl, fun _ => rfl⟩
    · obtain ⟨json', hj'⟩ := isTextOrNull_iff.1 hd.json'
      refine ⟨(p.1, json'), ⟨(hd.cells _ hl.id (by decide)).trans hp.1, hj'⟩, rfl, fun hne => ?_⟩
      rw [hp.1, Cell.text.injEq] at hi
      exact absurd hi hne
  obtain ⟨l', hQ, hout'⟩ := attachments_transport htbl' hl ht' (hcols ▸ hl.id) (hcols ▸ hl.json)
    (by rw [h.faults]; exact hl.fault) (forall₂_jsonDiffers hrow hid) step
  have hback : ReplacedAt i (l.map (jsonEntry parse)) (l'.map (jsonEntry parse)) := by
    rw [ReplacedAt, List.forall₂_map_left_iff, List.forall₂_map_right_iff]
    refine hQ.imp ?_
    rintro p p' ⟨hid, hsame⟩
    exact ⟨hid, fun hne => by rw [hsame hne]⟩
  refine ⟨_, hout', ?_, fun hi => ?_⟩
  · exact filter_overlay_congr (stamped_jsonEntry parse l) (stamped_jsonEntry parse l') hback
  · obtain ⟨tbl₀, h₀, hperm⟩ := exists_readsTable htbl
    refine overlay_congr_of_mem hback ?_
    rw [(hperm.map Attachment.messageId).mem_iff]
    exact h₀.mem_iff.2 hi

/-- The damaged row has an id if its attachments can be read at all. -/
theorem JsonDamaged.attachments_isOk (h : JsonDamaged "messages" n db db') {out : List Attachment}
    (ha : attachments parse db = .ok out) : ∃ out', attachments parse db' = .ok out' := by
  obtain ⟨tbl, t, l, -, hl, -⟩ := attachments_ok_iff.1 ha
  obtain ⟨before, r, r', after, hrows, -, hn, -⟩ := h.row
  have hr : r ∈ t.rows := by
    rw [← rows_eq hl.table, hrows]
    exact List.mem_append_right _ List.mem_cons_self
  obtain ⟨p, -, hp⟩ := mem_of_forall₂_left hl.rows hr
  have hid : (db.rows "messages")[n]?.map (fun r => r "id") = some (.text p.1) := by
    rw [hrows, ← hn, List.getElem?_append_right le_rfl, Nat.sub_self]
    exact congrArg some hp.1
  obtain ⟨out', hout', -⟩ := h.attachments_ok hid ha
  exact ⟨out', hout'⟩

/-- The messages are in the order of their rows. -/
theorem message_id_at {ms : List Message} (hm : messages parse db = .ok ms)
    (hid : (db.rows "messages")[n]?.map (fun r => r "id") = some (.text i)) :
    ms[n]?.map Message.id = some i := by
  have hids : (db.rows "messages").map (fun r => r "id") = ms.map fun m => Cell.text m.id := by
    rw [← List.forall₂_eq_eq_eq, List.forall₂_map_left_iff, List.forall₂_map_right_iff]
    exact (messages_faithful hm).imp fun _ _ hf => hf.id
  rw [← List.getElem?_map, hids, List.getElem?_map] at hid
  cases hms : ms[n]? with
  | none => rw [hms] at hid; cases hid
  | some m =>
    rw [hms] at hid
    cases hid
    rfl

/-- **The other entries keep their order**, wherever the damaged one goes. -/
theorem timeline_filter_eq {ms ms' : List Message} (h : OneReplaced n OnlyJsonFields ms ms')
    (hid : ms[n]?.map Message.id = some i) :
    (buildTimeline ms').filter (fun e => e.messageId ≠ i) =
      (buildTimeline ms).filter (fun e => e.messageId ≠ i) := by
  obtain ⟨before, m, m', after, rfl, rfl, rfl, honly⟩ := h
  rw [List.getElem?_append_right le_rfl, Nat.sub_self] at hid
  have hm : m.id = i := Option.some.inj hid
  have hm' : m'.id = i := by rw [honly]; exact hm
  -- both entries belong to `i`, so the filter drops either
  have hone : OneReplaced before.length (fun e e' : TimelineEntry => e.messageId = i ∧ e'.messageId = i)
      ((before ++ m :: after).map timelineEntry) ((before ++ m' :: after).map timelineEntry) := by
    refine ⟨before.map timelineEntry, timelineEntry m, timelineEntry m', after.map timelineEntry,
      ?_, ?_, List.length_map .., hm, hm'⟩
    · rw [List.map_append, List.map_cons]
    · rw [List.map_append, List.map_cons]
  unfold buildTimeline
  rw [filter_sortByKey, filter_sortByKey, hone.filter_eq]
  rintro e e' ⟨he, he'⟩
  simp [he, he']

theorem JsonDamaged.orphans_eq (h : JsonDamaged "messages" n db db') {ms : List Message}
    (hm : messages parse db = .ok ms) : orphans db' = orphans db := by
  obtain ⟨ids, t, l, -, hr, -⟩ := messages_ok_iff.1 hm
  obtain ⟨t', ht', -, hrow⟩ := h.exists_table hr.table
  have hconv : ∀ c, HasConversation db' c ↔ HasConversation db c := by
    intro c
    unfold HasConversation
    rw [rows_of_same (h.others "conversations" (by decide))]
  have hrows : List.Forall₂ (fun r r' => orphanAt db r = orphanAt db' r') t.rows t'.rows := by
    rw [orphanAt_congr hconv]
    -- the damaged row keeps the two cells it is graded by
    refine hrow.forall₂ (fun r r' hd => ?_) fun r => rfl
    rw [orphanAt, orphanAt, hd.cells "id" (hr.columns _ (by decide)) (by decide),
      hd.cells "conversationId" (hr.columns _ (by decide)) (by decide)]
  rw [orphans, orphans, rows_eq hr.table, rows_eq ht', filterMap_eq_of_forall₂ hrows]

theorem residue_filter (as : List Attachment) :
    (residue as).filter (fun a => a.messageId ≠ i) = residue (as.filter fun a => a.messageId ≠ i) := by
  simp only [residue_eq]
  induction as with
  | nil => rfl
  | cons a as ih =>
    cases hp : a.path with
    | none =>
      have hnone : attachmentResidueOf a = none := by rw [attachmentResidueOf, hp]; rfl
      rw [List.filterMap_cons_none hnone, ih, List.filter_cons]
      split
      · rw [List.filterMap_cons_none hnone]
      · rfl
    | some path =>
      have hsome : attachmentResidueOf a = some (.attachmentResidue a.messageId path) := by
        rw [attachmentResidueOf, hp]; rfl
      rw [List.filterMap_cons_some hsome, List.filter_cons, List.filter_cons, ih]
      by_cases hi : a.messageId = i
      · simp [SignalAnomaly.messageId, hi]
      · simp [SignalAnomaly.messageId, hi, hsome]

/-! ## Damage to a conversation -/

theorem JsonDamaged.conversations_ok (h : JsonDamaged "conversations" n db db') {cs : List Conversation}
    (hc : conversations parse db = .ok cs) :
    ∃ cs', conversations parse db' = .ok cs' ∧ OneReplaced n OnlyIdentityFields cs cs' := by
  obtain ⟨t, l, hr, rfl⟩ := conversations_ok_iff.1 hc
  obtain ⟨t', ht', hcols, hrow⟩ := h.exists_table hr.table
  have step : ∀ r ∈ t.rows, ∀ r' c, JsonDiffers t.columns r r' → ConversationRecorded r c →
      ∃ c', ConversationRecorded r' c' ∧
        OnlyIdentityFields (conversationOf parse c) (conversationOf parse c') := by
    intro r _ r' c hd hrec
    obtain ⟨json', hj'⟩ := isTextOrNull_iff.1 hd.json'
    exact ⟨{ c with json := json' }, hrec.withJson hr.columns hd.cells hj', rfl⟩
  obtain ⟨l', hl', hone⟩ := hrow.transport step hr.rows
  refine ⟨_, conversations_ok_iff.2 ⟨t', l', ⟨ht', ?_, ?_, hl'⟩, rfl⟩, hone.map fun _ _ hq => hq⟩
  · rw [hcols]
    exact hr.columns
  · rw [h.faults]
    exact hr.fault

/-- The damage is a rewriting of a column other than the id. -/
theorem JsonDamaged.rewrites (h : JsonDamaged "conversations" n db db') {cs : List Conversation}
    (hc : conversations parse db = .ok cs) : Rewrites db db' := by
  obtain ⟨t, l, hr, -⟩ := conversations_ok_iff.1 hc
  obtain ⟨cs', hc', -⟩ := h.conversations_ok hc
  refine ⟨h.noNewFaults, conversations_isOk_iff.1 ⟨cs', hc'⟩, h.others, ?_⟩
  have hid : OneReplaced n (fun x y => y = x) ((db.rows "conversations").map fun r => r "id")
      ((db'.rows "conversations").map fun r => r "id") := by
    refine h.row.map fun r r' hd => hd.cells "id" ?_ (by decide)
    rw [columns_eq hr.table]
    exact hr.columns _ (by decide)
  have heq := hid.forall₂ (P := fun x y => x = y) (fun _ _ hxy => hxy.symm) fun _ => rfl
  rw [List.forall₂_eq_eq_eq] at heq
  rw [heq]

theorem contacts_oneReplaced {cs cs' : List Conversation} (h : OneReplaced n OnlyIdentityFields cs cs') :
    (cs'.filter fun c => c.kind = .«private»).map contactOf =
        (cs.filter fun c => c.kind = .«private»).map contactOf ∨
      ∃ k, OneReplaced k (fun a b => b.conversationId = a.conversationId)
        ((cs.filter fun c => c.kind = .«private»).map contactOf)
        ((cs'.filter fun c => c.kind = .«private»).map contactOf) := by
  obtain ⟨before, c, c', after, rfl, rfl, -, honly⟩ := h
  have hkind : c'.kind = c.kind := by rw [honly]
  have hid : c'.id = c.id := by rw [honly]
  rw [List.filter_append, List.filter_append, List.filter_cons, List.filter_cons, hkind]
  split
  · refine Or.inr ⟨_, (before.filter fun c => c.kind = .«private»).map contactOf, contactOf c,
      contactOf c', (after.filter fun c => c.kind = .«private»).map contactOf, ?_, ?_, rfl, hid⟩
    · rw [List.map_append, List.map_cons]
    · rw [List.map_append, List.map_cons]
  · exact Or.inl rfl

theorem JsonDamaged.audit_ok (h : JsonDamaged "conversations" n db db') {fs : List Finding}
    (hf : auditStore toFinding parse db = .ok fs) : auditStore toFinding parse db' = .ok fs := by
  obtain ⟨cs, ms, as, hc, hm, ha, rfl⟩ := auditStore_ok_iff.1 hf
  obtain ⟨cs', hc', -⟩ := h.conversations_ok hc
  have ht := h.others "messages" (by decide)
  have hta := h.others messageAttachmentsTable (by decide)
  rw [auditStore_eq hc' (messages_of_same ht hta h.noNewFaults hm)
    (attachments_of_same ht hta h.noNewFaults ha), (h.rewrites hc).orphans_eq]

/-! ## What the readers return -/

/-- Both reads succeed or both fail. -/
def SameSuccess {α : Type} (x y : Result α) : Prop := (∃ v, x = .ok v) ↔ ∃ v, y = .ok v

/-- What damage to the json of message `i`, the row at index `n`, can change. -/
structure MessageDamageConfined (parse : Parser) (toFinding : Observation → Source → Finding) (n : ℕ)
    (i : String) (db db' : Database) : Prop where
  messages_succeed : SameSuccess (messages parse db) (messages parse db')
  attachments_succeed : SameSuccess (attachments parse db) (attachments parse db')
  timeline_succeed : SameSuccess (timeline parse db) (timeline parse db')
  audit_succeed : SameSuccess (auditStore toFinding parse db) (auditStore toFinding parse db')
  message : ∀ ms ms', messages parse db = .ok ms → messages parse db' = .ok ms' →
    OneReplaced n OnlyJsonFields ms ms'
  attachment : ∀ out out', attachments parse db = .ok out → attachments parse db' = .ok out' →
    out'.filter (fun a => a.messageId ≠ i) = out.filter (fun a => a.messageId ≠ i) ∧
      (InTable db i → out' = out)
  entry : ∀ tl tl', timeline parse db = .ok tl → timeline parse db' = .ok tl' →
    tl'.filter (fun e => e.messageId ≠ i) = tl.filter (fun e => e.messageId ≠ i)
  finding : ∀ fs fs', auditStore toFinding parse db = .ok fs → auditStore toFinding parse db' = .ok fs' →
    ∃ as as', attachments parse db = .ok as ∧ attachments parse db' = .ok as' ∧
      fs = (orphans db ++ residue as).map (·.finding toFinding) ∧
      fs' = (orphans db ++ residue as').map (·.finding toFinding) ∧
      (residue as').filter (fun a => a.messageId ≠ i) = (residue as).filter fun a => a.messageId ≠ i

/-- What damage to the json of the conversation at index `n` can change. -/
structure ConversationDamageConfined (parse : Parser) (toFinding : Observation → Source → Finding)
    (n : ℕ) (db db' : Database) : Prop where
  conversations_succeed : SameSuccess (conversations parse db) (conversations parse db')
  contacts_succeed : SameSuccess (contacts parse db) (contacts parse db')
  conversation : ∀ cs cs', conversations parse db = .ok cs → conversations parse db' = .ok cs' →
    OneReplaced n OnlyIdentityFields cs cs'
  contact : ∀ ks ks', contacts parse db = .ok ks → contacts parse db' = .ok ks' →
    ks' = ks ∨ ∃ k, OneReplaced k (fun a b => b.conversationId = a.conversationId) ks ks'
  message : ∀ ms, messages parse db' = .ok ms ↔ messages parse db = .ok ms
  attachment : ∀ out, attachments parse db' = .ok out ↔ attachments parse db = .ok out
  entry : ∀ tl, timeline parse db' = .ok tl ↔ timeline parse db = .ok tl
  finding : ∀ fs, auditStore toFinding parse db' = .ok fs ↔ auditStore toFinding parse db = .ok fs

/-- Damage can be reversed, so it is enough that success carries over. -/
theorem JsonDamaged.sameSuccess {α : Type} {table : String} {x : Database → Result α}
    (hx : ∀ d d', JsonDamaged table n d d' → ∀ v, x d = .ok v → ∃ v', x d' = .ok v')
    (h : JsonDamaged table n db db') : SameSuccess (x db) (x db') := by
  constructor
  · rintro ⟨v, hv⟩
    exact hx db db' h v hv
  · rintro ⟨v, hv⟩
    exact hx db' db h.symm v hv

theorem JsonDamaged.timeline_isOk (h : JsonDamaged "messages" n db db') {tl : List TimelineEntry}
    (ht : timeline parse db = .ok tl) : ∃ tl', timeline parse db' = .ok tl' := by
  obtain ⟨ms, hms, -⟩ := timeline_ok_iff.1 ht
  obtain ⟨ms', hms', -⟩ := h.messages_ok hms
  exact ⟨_, timeline_ok_iff.2 ⟨ms', hms', rfl⟩⟩

theorem JsonDamaged.audit_isOk (h : JsonDamaged "messages" n db db') {fs : List Finding}
    (hf : auditStore toFinding parse db = .ok fs) : ∃ fs', auditStore toFinding parse db' = .ok fs' := by
  obtain ⟨cs, ms, as, hc, hm, ha, -⟩ := auditStore_ok_iff.1 hf
  obtain ⟨ms', hms', -⟩ := h.messages_ok hm
  obtain ⟨as', has'⟩ := h.attachments_isOk ha
  have hc' := conversations_of_same (h.others "conversations" (by decide)) h.noNewFaults hc
  exact ⟨_, auditStore_eq hc' hms' has'⟩

theorem JsonDamaged.contacts_isOk (h : JsonDamaged "conversations" n db db') {ks : List Contact}
    (hk : contacts parse db = .ok ks) : ∃ ks', contacts parse db' = .ok ks' := by
  obtain ⟨cs, hcs, -⟩ := contacts_ok_iff.1 hk
  obtain ⟨cs', hcs', -⟩ := h.conversations_ok hcs
  exact ⟨_, contacts_ok_iff.2 ⟨cs', hcs', rfl⟩⟩

/-- A result is read once. -/
theorem ok_inj {α : Type} {x : Result α} {a b : α} (ha : x = .ok a) (hb : x = .ok b) : a = b :=
  Except.ok.inj (ha.symm.trans hb)

theorem JsonDamaged.messageConfined (h : JsonDamaged "messages" n db db')
    (hid : (db.rows "messages")[n]?.map (fun r => r "id") = some (.text i)) :
    MessageDamageConfined parse toFinding n i db db' where
  messages_succeed := by
    refine JsonDamaged.sameSuccess (fun d d' hd v hv => ?_) h
    obtain ⟨v', hv', -⟩ := hd.messages_ok hv
    exact ⟨v', hv'⟩
  attachments_succeed := JsonDamaged.sameSuccess (fun _ _ hd _ hv => hd.attachments_isOk hv) h
  timeline_succeed := JsonDamaged.sameSuccess (fun _ _ hd _ hv => hd.timeline_isOk hv) h
  audit_succeed := JsonDamaged.sameSuccess (fun _ _ hd _ hv => hd.audit_isOk hv) h
  message ms ms' hms hms' := by
    obtain ⟨ms₁, h₁, hone⟩ := h.messages_ok hms
    rwa [ok_inj hms' h₁]
  attachment out out' hout hout' := by
    obtain ⟨out₁, h₁, hrest⟩ := h.attachments_ok hid hout
    rwa [ok_inj hout' h₁]
  entry tl tl' ht ht' := by
    obtain ⟨ms, hms, rfl⟩ := timeline_ok_iff.1 ht
    obtain ⟨ms', hms', rfl⟩ := timeline_ok_iff.1 ht'
    obtain ⟨ms₁, h₁, hone⟩ := h.messages_ok hms
    rw [ok_inj hms' h₁]
    exact timeline_filter_eq hone (message_id_at hms hid)
  finding fs fs' hfs hfs' := by
    obtain ⟨cs, ms, as, -, hm, ha, rfl⟩ := auditStore_ok_iff.1 hfs
    obtain ⟨cs', ms', as', -, -, ha', rfl⟩ := auditStore_ok_iff.1 hfs'
    obtain ⟨as₁, h₁, hfilter, -⟩ := h.attachments_ok hid ha
    rw [← ok_inj ha' h₁] at hfilter
    refine ⟨as, as', ha, ha', rfl, by rw [h.orphans_eq hm], ?_⟩
    rw [residue_filter, residue_filter, hfilter]

theorem JsonDamaged.conversationConfined (h : JsonDamaged "conversations" n db db') :
    ConversationDamageConfined parse toFinding n db db' := by
  -- the other readers read the tables that are the same
  have hmsg : ∀ d d', JsonDamaged "conversations" n d d' → ∀ v, messages parse d = .ok v →
      messages parse d' = .ok v := fun d d' hd v hv =>
    messages_of_same (hd.others _ (by decide)) (hd.others _ (by decide)) hd.noNewFaults hv
  have hatt : ∀ d d', JsonDamaged "conversations" n d d' → ∀ v, attachments parse d = .ok v →
      attachments parse d' = .ok v := fun d d' hd v hv =>
    attachments_of_same (hd.others _ (by decide)) (hd.others _ (by decide)) hd.noNewFaults hv
  have htl : ∀ d d', JsonDamaged "conversations" n d d' → ∀ v, timeline parse d = .ok v →
      timeline parse d' = .ok v := by
    intro d d' hd v hv
    obtain ⟨ms, hms, rfl⟩ := timeline_ok_iff.1 hv
    exact timeline_ok_iff.2 ⟨ms, hmsg d d' hd ms hms, rfl⟩
  refine ⟨JsonDamaged.sameSuccess (fun d d' hd v hv => ?_) h,
    JsonDamaged.sameSuccess (fun _ _ hd _ hv => hd.contacts_isOk hv) h, ?_, ?_, ?_, ?_, ?_, ?_⟩
  · obtain ⟨v', hv', -⟩ := hd.conversations_ok hv
    exact ⟨v', hv'⟩
  · intro cs cs' hcs hcs'
    obtain ⟨cs₁, h₁, hone⟩ := h.conversations_ok hcs
    rwa [ok_inj hcs' h₁]
  · intro ks ks' hks hks'
    obtain ⟨cs, hcs, rfl⟩ := contacts_ok_iff.1 hks
    obtain ⟨cs', hcs', rfl⟩ := contacts_ok_iff.1 hks'
    obtain ⟨cs₁, h₁, hone⟩ := h.conversations_ok hcs
    rw [ok_inj hcs' h₁]
    exact contacts_oneReplaced hone
  · exact fun ms => ⟨hmsg db' db h.symm ms, hmsg db db' h ms⟩
  · exact fun out => ⟨hatt db' db h.symm out, hatt db db' h out⟩
  · exact fun tl => ⟨htl db' db h.symm tl, htl db db' h tl⟩
  · exact fun fs => ⟨h.symm.audit_ok, h.audit_ok⟩

/-- **Damage is confined.** Two databases that differ in the json cell of one message give
the same reading of everything else: the same messages elsewhere, and of its own record
the same other fields; the same attachments, timeline entries (in the same order) and
residue of the other messages, and the same orphans. Damage to a conversation changes its
identity fields only. -/
theorem damage_confined (parse : Parser) (toFinding : Observation → Source → Finding) :
    (∀ n i db db', JsonDamaged "messages" n db db' →
      (db.rows "messages")[n]?.map (fun r => r "id") = some (.text i) →
      MessageDamageConfined parse toFinding n i db db') ∧
    (∀ n db db', JsonDamaged "conversations" n db db' →
      ConversationDamageConfined parse toFinding n db db') :=
  ⟨fun _ _ _ _ h hid => h.messageConfined hid, fun _ _ _ h => h.conversationConfined⟩

/-- The sample with the json of `m1` cut short. -/
def cutDb : Database where
  table
    | "messages" => some
      { columns := messageColumns
        rows := (fun
            | "id" => .text "m1"
            | "type" => .text "outgoing"
            | "sent_at" => .integer 200
            | "body" => .text "photo"
            | "json" => .text "\x7b\"attachments\":["
            | _ => .null) :: sampleMessages.rows.tail
        columns_ne := messageColumns_ne }
    | name => sampleDb.table name
  fault _ := none

theorem cutDb_damaged : JsonDamaged "messages" 0 sampleDb cutDb where
  faults := rfl
  others name h := by simp only [cutDb]
  schema := rfl
  row := ⟨[], _, _, _, rfl, rfl, rfl, by decide, Or.inr ⟨_, rfl⟩, Or.inr ⟨_, rfl⟩⟩

theorem damage_confined_sample : MessageDamageConfined sampleParse Prod.mk 0 "m1" sampleDb cutDb :=
  (damage_confined sampleParse Prod.mk).1 _ _ _ _ cutDb_damaged rfl

end SignalDesktop
