import SignalDesktop.Proof.Audit
import SignalDesktop.Proof.Related
import SignalDesktop.Proof.Timeline

/-!
# The order of the rows

A SELECT without ORDER BY visits the rows in no order to rely on. `readers_reordered`:
reordering the rows of any tables reorders what is read of them. The same reads succeed
(`SameOutcome`), with the same records; a timeline keeps its timestamps and, under each of
them, its entries.
-/

namespace SignalDesktop

open Sqlite SerdeJson Overlay Pointwise

variable {Finding : Type} {toFinding : Observation → Source → Finding} {parse : Parser}
  {db db' : Database} {t t' : Table}

/-- The databases have the same tables, the rows of each in any order. -/
structure Reordered (db db' : Database) : Prop where
  fault : db'.fault = db.fault
  table : ∀ name, Option.Rel (fun t t' : Table => t'.columns = t.columns ∧ t'.rows.Perm t.rows)
    (db.table name) (db'.table name)

/-- Both reads fail, or their results are related by `R`. -/
def SameOutcome {α : Type} (R : α → α → Prop) : Result α → Result α → Prop
  | .ok a, .ok b => R b a
  | .error _, .error _ => True
  | _, _ => False

theorem sameOutcome_of_ok {α : Type} {R : α → α → Prop} {x y : Result α}
    (h : ∀ a, x = .ok a → ∃ b, y = .ok b ∧ R b a) (h' : ∀ b, y = .ok b → ∃ a, x = .ok a) :
    SameOutcome R x y := by
  cases x with
  | ok a =>
    obtain ⟨b, rfl, hab⟩ := h a rfl
    exact hab
  | error e =>
    cases y with
    | ok b =>
      obtain ⟨a, ha⟩ := h' b rfl
      cases ha
    | error e' => exact trivial

/-! ## Two tables -/

theorem Reordered.symm (h : Reordered db db') : Reordered db' db := by
  refine ⟨h.fault.symm, fun name => ?_⟩
  have hrel := h.table name
  generalize db.table name = x at hrel
  generalize db'.table name = y at hrel
  cases hrel with
  | none => exact .none
  | some ht => exact .some ⟨ht.1.symm, ht.2.symm⟩

theorem Reordered.table_none (h : Reordered db db') {name : String} (ht : db.table name = none) :
    db'.table name = none := by
  have hrel := h.table name
  rw [ht] at hrel
  cases hy : db'.table name with
  | none => rfl
  | some t' =>
    rw [hy] at hrel
    cases hrel

theorem Reordered.exists_table (h : Reordered db db') {name : String} (ht : db.table name = some t) :
    ∃ t', db'.table name = some t' ∧ t'.columns = t.columns ∧ t'.rows.Perm t.rows := by
  have hrel := h.table name
  rw [ht] at hrel
  cases hy : db'.table name with
  | none =>
    rw [hy] at hrel
    cases hrel
  | some t' =>
    rw [hy, Option.rel_some_some] at hrel
    exact ⟨t', rfl, hrel⟩

theorem Reordered.noNewFaults (h : Reordered db db') : NoNewFaults db db' := by
  intro s hs
  rwa [h.fault]

theorem Reordered.tableRelated (h : Reordered db db') (name : String) :
    TableRelated List.Perm db db' name := fun _ ht => h.exists_table ht

theorem Reordered.rows_perm (h : Reordered db db') (name : String) :
    (db'.rows name).Perm (db.rows name) := by
  cases ht : db.table name with
  | none =>
    unfold Database.rows
    rw [ht, h.table_none ht]
  | some t =>
    obtain ⟨t', ht', -, hrows⟩ := h.exists_table ht
    rwa [rows_eq ht, rows_eq ht']

/-! ## The readers -/

theorem Reordered.conversations_ok (h : Reordered db db') {cs : List Conversation}
    (hc : conversations parse db = .ok cs) :
    ∃ cs', conversations parse db' = .ok cs' ∧ cs'.Perm cs :=
  conversations_related inherited_perm (h.tableRelated _) h.noNewFaults hc

/-- The attachment table has rows for the same messages. -/
theorem Reordered.inTable_iff (h : Reordered db db') (i : String) : InTable db' i ↔ InTable db i := by
  have hmem := fun r => (h.rows_perm messageAttachmentsTable).mem_iff (a := r)
  unfold InTable attachmentRows
  simp only [hmem]

theorem Reordered.idsReadable (h : Reordered db db') (hr : IdsReadable db) : IdsReadable db' := by
  have hcolumns : ∀ t', db'.table messageAttachmentsTable = some t' →
      ∃ t, db.table messageAttachmentsTable = some t ∧ t.columns = t'.columns := by
    intro t' ht'
    obtain ⟨t, ht, hcols, -⟩ := h.symm.exists_table ht'
    exact ⟨t, ht, hcols⟩
  refine ⟨h.noNewFaults _ hr.probe, fun t' ht' => ?_, fun t' ht' => ?_, fun r hmem => ?_⟩
  · obtain ⟨t, ht, hcols⟩ := hcolumns t' ht'
    rw [← hcols]
    exact hr.column t ht
  · obtain ⟨t, ht, -⟩ := hcolumns t' ht'
    exact h.noNewFaults _ (hr.fault t ht)
  · exact hr.ids r ((h.rows_perm messageAttachmentsTable).mem_iff.1 hmem)

theorem Reordered.messages_ok (h : Reordered db db') {ms : List Message}
    (hm : messages parse db = .ok ms) : ∃ ms', messages parse db' = .ok ms' ∧ ms'.Perm ms :=
  messages_related inherited_perm (h.tableRelated _) h.noNewFaults h.idsReadable h.inTable_iff hm

theorem Reordered.readsTable (h : Reordered db db') {l : List Attachment} (hr : ReadsTable db l) :
    ∃ l', ReadsTable db' l' ∧ l'.Perm l := by
  cases hr with
  | absent hp hn => exact ⟨[], .absent (h.noNewFaults _ hp) (h.table_none hn), List.Perm.refl _⟩
  | present t l hp ht hc hf hl =>
    obtain ⟨t', ht', hcols, hrows⟩ := h.exists_table ht
    obtain ⟨l', hl', hperm⟩ := List.perm_comp_forall₂ hrows hl
    refine ⟨l', .present t' l' (h.noNewFaults _ hp) ht' ?_ ?_ ?_, hperm⟩
    · rwa [hcols]
    · rw [hcols]
      exact h.noNewFaults _ hf
    · rwa [hcols]

theorem Reordered.attachments_ok (h : Reordered db db') {as : List Attachment}
    (ha : attachments parse db = .ok as) : ∃ as', attachments parse db' = .ok as' ∧ as'.Perm as := by
  obtain ⟨tbl, t, l, htbl, hr, rfl⟩ := attachments_ok_iff.1 ha
  obtain ⟨recs, hrecs, hperm⟩ := exists_readsTable htbl
  obtain ⟨recs', hrecs', hperm'⟩ := h.readsTable hrecs
  obtain ⟨tbl', htbl', hperm''⟩ := exists_tableAttachments hrecs'
  obtain ⟨t', l', hr', hl⟩ := idJson_related inherited_perm (h.tableRelated _) h.noNewFaults hr
  have hfront : tbl'.Perm tbl := hperm''.trans (hperm'.trans hperm.symm)
  exact ⟨_, attachments_ok_iff.2 ⟨tbl', t', l', htbl', hr', rfl⟩, overlay_perm hfront (hl.map _)⟩

theorem Reordered.orphans_perm (h : Reordered db db') : (orphans db').Perm (orphans db) := by
  have hconv : ∀ c, HasConversation db' c ↔ HasConversation db c := by
    intro c
    have hmem := fun r => (h.rows_perm "conversations").mem_iff (a := r)
    unfold HasConversation
    simp only [hmem]
  unfold orphans
  rw [orphanAt_congr hconv]
  exact (h.rows_perm "messages").filterMap _

theorem Reordered.auditStore_ok (h : Reordered db db') {fs : List Finding}
    (hf : auditStore toFinding parse db = .ok fs) :
    ∃ fs', auditStore toFinding parse db' = .ok fs' ∧ fs'.Perm fs := by
  obtain ⟨cs, ms, as, hc, hm, ha, rfl⟩ := auditStore_ok_iff.1 hf
  obtain ⟨cs', hc', -⟩ := h.conversations_ok hc
  obtain ⟨ms', hm', -⟩ := h.messages_ok hm
  obtain ⟨as', ha', hperm⟩ := h.attachments_ok ha
  refine ⟨_, auditStore_eq hc' hm' ha', ?_⟩
  exact (h.orphans_perm.append (hperm.filterMap _)).map _

/-- The timelines have the same timestamps, and the same entries under each. -/
def SameTimes (tl' tl : List TimelineEntry) : Prop :=
  tl'.map TimelineEntry.timestamp = tl.map TimelineEntry.timestamp ∧
    ∀ t, (tl'.filter fun e => e.timestamp = t).Perm (tl.filter fun e => e.timestamp = t)

theorem sameTimes_of_perm {ms ms' : List Message} (h : ms'.Perm ms) :
    SameTimes (buildTimeline ms') (buildTimeline ms) := by
  have hentries : (ms'.map timelineEntry).Perm (ms.map timelineEntry) := h.map _
  have hsort : (buildTimeline ms').Perm (buildTimeline ms) :=
    (StableSort.sortByKey_perm _ _).trans (hentries.trans (StableSort.sortByKey_perm _ _).symm)
  refine ⟨?_, fun t => hsort.filter _⟩
  have hkeys := StableSort.map_key_sortByKey_of_perm (fun e : TimelineEntry => e.timestamp.toInt) hentries
  have hinj : Function.Injective Int64.toInt := fun _ _ hab => Int64.toInt_inj.1 hab
  refine hinj.list_map ?_
  rw [List.map_map, List.map_map]
  exact hkeys

theorem Reordered.timeline_ok (h : Reordered db db') {tl : List TimelineEntry}
    (ht : timeline parse db = .ok tl) : ∃ tl', timeline parse db' = .ok tl' ∧ SameTimes tl' tl := by
  obtain ⟨ms, hm, rfl⟩ := timeline_ok_iff.1 ht
  obtain ⟨ms', hm', hperm⟩ := h.messages_ok hm
  exact ⟨_, timeline_ok_iff.2 ⟨ms', hm', rfl⟩, sameTimes_of_perm hperm⟩

theorem Reordered.contacts_ok (h : Reordered db db') {cs : List Contact}
    (hc : contacts parse db = .ok cs) : ∃ cs', contacts parse db' = .ok cs' ∧ cs'.Perm cs := by
  obtain ⟨v, hv, rfl⟩ := contacts_ok_iff.1 hc
  obtain ⟨v', hv', hperm⟩ := h.conversations_ok hv
  exact ⟨_, contacts_ok_iff.2 ⟨v', hv', rfl⟩, (hperm.filter _).map _⟩

/-- A read that succeeds on every reordering, with related results, has the same outcome. -/
theorem Reordered.sameOutcome {α : Type} {R : α → α → Prop} {read : Database → Result α}
    (hread : ∀ {db db' a}, Reordered db db' → read db = .ok a → ∃ b, read db' = .ok b ∧ R b a)
    (h : Reordered db db') : SameOutcome R (read db) (read db') := by
  refine sameOutcome_of_ok (fun a ha => hread h ha) fun b hb => ?_
  obtain ⟨a, ha, -⟩ := hread h.symm hb
  exact ⟨a, ha⟩

/-- **The order of the rows shows in the order of the records only.** If the rows of any
tables are reordered, the same reads succeed, with the same records in some order, and the
audit has the same findings. The timeline has the same timestamps in the same order and the
same entries under each, so that only ties can move. -/
theorem readers_reordered (h : Reordered db db') :
    SameOutcome List.Perm (conversations parse db) (conversations parse db') ∧
    SameOutcome List.Perm (contacts parse db) (contacts parse db') ∧
    SameOutcome List.Perm (messages parse db) (messages parse db') ∧
    SameOutcome List.Perm (attachments parse db) (attachments parse db') ∧
    SameOutcome SameTimes (timeline parse db) (timeline parse db') ∧
    SameOutcome List.Perm (auditStore toFinding parse db) (auditStore toFinding parse db') := by
  exact ⟨h.sameOutcome fun h hc => Reordered.conversations_ok h hc,
    h.sameOutcome fun h hc => Reordered.contacts_ok h hc,
    h.sameOutcome fun h hm => Reordered.messages_ok h hm,
    h.sameOutcome fun h ha => Reordered.attachments_ok h ha,
    h.sameOutcome fun h ht => Reordered.timeline_ok h ht,
    h.sameOutcome fun h hf => Reordered.auditStore_ok h hf⟩

/-- The sample with the rows of each table in reverse. -/
def reversedDb : Database where
  table name := (auditDb [sampleConversation]).table name |>.map fun t =>
    ⟨t.columns, t.rows.reverse, t.columns_ne⟩
  fault _ := none

theorem reversedDb_reordered : Reordered (auditDb [sampleConversation]) reversedDb := by
  refine ⟨rfl, fun name => ?_⟩
  show Option.Rel _ _ (Option.map _ ((auditDb [sampleConversation]).table name))
  cases (auditDb [sampleConversation]).table name with
  | none => exact .none
  | some t => exact .some ⟨rfl, List.reverse_perm _⟩

theorem readers_reordered_sample :
    SameOutcome SameTimes (timeline sampleParse (auditDb [sampleConversation]))
      (timeline sampleParse reversedDb) ∧
    SameOutcome List.Perm (auditStore Prod.mk sampleParse (auditDb [sampleConversation]))
      (auditStore Prod.mk sampleParse reversedDb) :=
  (readers_reordered reversedDb_reordered).2.2.2.2

end SignalDesktop
