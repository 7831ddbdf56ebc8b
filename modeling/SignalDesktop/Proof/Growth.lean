import SignalDesktop.Lib.Edits
import SignalDesktop.Proof.Related

/-!
# Stores that grow and shrink

`Extends db db'`: the second database has the rows of the first, in their order, and more.
What is read of the first is then a part of what is read of the second, in its order
(`Extends.part`); the timeline is no exception, as the sort is stable.

`reads_monotone`: while an app only inserts conversations and messages nothing that was read
is lost or moved, and while it only deletes them nothing new is read.
-/

namespace SignalDesktop

open Sqlite SerdeJson Overlay Pointwise

variable {parse : Parser} {db db' db'' : Database} {es : List Edit} {e : Edit}

/-- `db'` has the rows of `db` in their order, and more of them, in tables other than the
attachment table. -/
structure Extends (db db' : Database) : Prop where
  fault : db'.fault = db.fault
  columns : ∀ name, db'.columns name = db.columns name
  rows : ∀ name, (db.rows name).Sublist (db'.rows name)
  attachments : db'.table messageAttachmentsTable = db.table messageAttachmentsTable

theorem Extends.refl (db : Database) : Extends db db :=
  ⟨rfl, fun _ => rfl, fun _ => List.Sublist.refl _, rfl⟩

theorem Extends.trans (h : Extends db db') (h' : Extends db' db'') : Extends db db'' := by
  refine ⟨h'.fault.trans h.fault, fun name => ?_, fun name => ?_, h'.attachments.trans h.attachments⟩
  · exact (h'.columns name).trans (h.columns name)
  · exact (h.rows name).trans (h'.rows name)

theorem Extends.noNewFaults (h : Extends db db') : NoNewFaults db' db := by
  intro s hs
  rwa [← h.fault]

theorem Extends.tableRelated (h : Extends db db') (name : String) :
    TableRelated List.Sublist db' db name := by
  intro t' ht'
  obtain ⟨t, ht, hcols⟩ := exists_table_of_schema (h.columns name).symm ht'
  have hrows := h.rows name
  rw [rows_eq ht, rows_eq ht'] at hrows
  exact ⟨t, ht, hcols, hrows⟩

theorem Extends.inTable_iff (h : Extends db db') (i : String) : InTable db i ↔ InTable db' i := by
  unfold InTable attachmentRows
  rw [rows_of_same h.attachments]

theorem Extends.idsReadable (h : Extends db db') (hr : IdsReadable db') : IdsReadable db := by
  obtain ⟨ids, hids⟩ := exists_ids_iff.2 hr
  exact exists_ids_iff.1 ⟨ids, messageIds_of_same h.attachments.symm h.noNewFaults hids⟩

/-! ## The readers -/

theorem Extends.conversations_ok (h : Extends db db') {cs' : List Conversation}
    (hc : conversations parse db' = .ok cs') :
    ∃ cs, conversations parse db = .ok cs ∧ cs.Sublist cs' :=
  conversations_related inherited_sublist (h.tableRelated _) h.noNewFaults hc

theorem Extends.contacts_ok (h : Extends db db') {cs' : List Contact}
    (hc : contacts parse db' = .ok cs') : ∃ cs, contacts parse db = .ok cs ∧ cs.Sublist cs' := by
  obtain ⟨v', hv', rfl⟩ := contacts_ok_iff.1 hc
  obtain ⟨v, hv, hsub⟩ := h.conversations_ok hv'
  exact ⟨_, contacts_ok_iff.2 ⟨v, hv, rfl⟩, (hsub.filter _).map _⟩

theorem Extends.messages_ok (h : Extends db db') {ms' : List Message}
    (hm : messages parse db' = .ok ms') : ∃ ms, messages parse db = .ok ms ∧ ms.Sublist ms' :=
  messages_related inherited_sublist (h.tableRelated _) h.noNewFaults h.idsReadable h.inTable_iff hm

theorem Extends.timeline_ok (h : Extends db db') {tl' : List TimelineEntry}
    (ht : timeline parse db' = .ok tl') : ∃ tl, timeline parse db = .ok tl ∧ tl.Sublist tl' := by
  obtain ⟨ms', hm', rfl⟩ := timeline_ok_iff.1 ht
  obtain ⟨ms, hm, hsub⟩ := h.messages_ok hm'
  exact ⟨_, timeline_ok_iff.2 ⟨ms, hm, rfl⟩, StableSort.sortByKey_sublist (hsub.map _)⟩

theorem Extends.attachments_ok (h : Extends db db') {as' : List Attachment}
    (ha : SignalDesktop.attachments parse db' = .ok as') :
    ∃ as, SignalDesktop.attachments parse db = .ok as ∧ as.Sublist as' := by
  obtain ⟨tbl, t', l', htbl, hr, rfl⟩ := attachments_ok_iff.1 ha
  obtain ⟨t, l, hr', hsub⟩ := idJson_related inherited_sublist (h.tableRelated _) h.noNewFaults hr
  have htbl' := tableAttachments_of_same h.attachments.symm h.noNewFaults htbl
  exact ⟨_, attachments_ok_iff.2 ⟨tbl, t, l, htbl', hr', rfl⟩, overlay_sublist (hsub.map _)⟩

/-- What can be read of `db'` can be read of `db`, and gives a part of it in its order. -/
structure Part (parse : Parser) (db db' : Database) : Prop where
  conversations : ∀ cs', conversations parse db' = .ok cs' →
    ∃ cs, SignalDesktop.conversations parse db = .ok cs ∧ cs.Sublist cs'
  contacts : ∀ cs', contacts parse db' = .ok cs' →
    ∃ cs, SignalDesktop.contacts parse db = .ok cs ∧ cs.Sublist cs'
  messages : ∀ ms', messages parse db' = .ok ms' →
    ∃ ms, SignalDesktop.messages parse db = .ok ms ∧ ms.Sublist ms'
  timeline : ∀ tl', timeline parse db' = .ok tl' →
    ∃ tl, SignalDesktop.timeline parse db = .ok tl ∧ tl.Sublist tl'
  attachments : ∀ as', attachments parse db' = .ok as' →
    ∃ as, SignalDesktop.attachments parse db = .ok as ∧ as.Sublist as'

/-- **A smaller store reads as a part of the larger one.** -/
theorem Extends.part (h : Extends db db') : Part parse db db' :=
  ⟨fun _ => h.conversations_ok, fun _ => h.contacts_ok, fun _ => h.messages_ok,
    fun _ => h.timeline_ok, fun _ => h.attachments_ok⟩

/-! ## Runs -/

/-- An edit that adds rows. -/
theorem extends_apply (ht : e.target ≠ messageAttachmentsTable)
    (hrows : ∀ l : List Row, l.Sublist (e.rows l)) : Extends db (e.apply db) := by
  refine ⟨rfl, fun name => Edit.apply_columns e db name, fun name => ?_,
    Edit.apply_table_of_ne (Ne.symm ht)⟩
  rcases Edit.apply_rows_cases e db name with h | ⟨-, h⟩
  · rw [h]
  · rw [h]
    exact hrows _

/-- An edit that removes rows. -/
theorem extends_of_apply (ht : e.target ≠ messageAttachmentsTable)
    (hrows : ∀ l : List Row, (e.rows l).Sublist l) : Extends (e.apply db) db := by
  refine ⟨rfl, fun name => (Edit.apply_columns e db name).symm, fun name => ?_,
    (Edit.apply_table_of_ne (Ne.symm ht)).symm⟩
  rcases Edit.apply_rows_cases e db name with h | ⟨-, h⟩
  · rw [h]
  · rw [h]
    exact hrows _

/-- A row is inserted into a table other than the attachment table. -/
def Inserts (e : Edit) : Prop := ∃ name r, e = .insert name r ∧ name ≠ messageAttachmentsTable

/-- Rows of a table other than the attachment table are deleted. -/
def Erases (e : Edit) : Prop := ∃ name cond, e = .delete name cond ∧ name ≠ messageAttachmentsTable

/-- **Growing and shrinking.** Between two steps of a run of edits with only insertions into
tables other than the attachment table, everything read before is read after, in its order,
in the timeline too. With only deletions, everything read after was read before. -/
theorem reads_monotone (parse : Parser) (db : Database) (es : List Edit) :
    (∀ m n, m ≤ n → (∀ j e, m ≤ j → j < n → es[j]? = some e → Inserts e) →
      Part parse (stateAt db es m) (stateAt db es n)) ∧
    ∀ m n, m ≤ n → (∀ j e, m ≤ j → j < n → es[j]? = some e → Erases e) →
      Part parse (stateAt db es n) (stateAt db es m) := by
  refine ⟨fun m n hmn hins => ?_, fun m n hmn hdel => ?_⟩
  · have hext : Extends (stateAt db es m) (stateAt db es n) := by
      refine stateAt_relates Extends.refl (fun h h' => h.trans h') hmn fun j e hj hn he => ?_
      obtain ⟨name, r, rfl, hne⟩ := hins j e hj hn he
      exact extends_apply hne fun l => List.sublist_append_left l [r]
    exact hext.part
  · have hext : Extends (stateAt db es n) (stateAt db es m) := by
      refine stateAt_relates (R := fun a b => Extends b a) Extends.refl (fun h h' => h'.trans h) hmn
        fun j e hj hn he => ?_
      obtain ⟨name, cond, rfl, hne⟩ := hdel j e hj hn he
      exact extends_of_apply hne fun l => List.filter_sublist
    exact hext.part

end SignalDesktop
