import SignalDesktop.Proof.Transport

/-!
# Two databases with related rows

Where the rows of a table are related by `ρ` to those of another, as by reordering or by
leaving some out (`Inherited`), so are the records read of them.
-/

namespace SignalDesktop

open Sqlite SerdeJson Overlay Pointwise

variable {parse : Parser} {db db' : Database} {t : Table}
  {ρ : ∀ {α : Type}, List α → List α → Prop}

/-- A table of `db` is there in `db'` too, with the same columns and related rows. -/
def TableRelated (ρ : ∀ {α : Type}, List α → List α → Prop) (db db' : Database) (name : String) : Prop :=
  ∀ t, db.table name = some t → ∃ t', db'.table name = some t' ∧ t'.columns = t.columns ∧ ρ t'.rows t.rows

theorem conversations_related (hρ : Inherited ρ) (ht : TableRelated ρ db db' "conversations")
    (hf : NoNewFaults db db') {cs : List Conversation} (h : conversations parse db = .ok cs) :
    ∃ cs', conversations parse db' = .ok cs' ∧ ρ cs' cs := by
  obtain ⟨t, l, hr, rfl⟩ := conversations_ok_iff.1 h
  obtain ⟨t', ht', hcols, hrows⟩ := ht t hr.table
  obtain ⟨l', hl', hrel⟩ := hρ.record hrows hr.rows
  refine ⟨_, conversations_ok_iff.2 ⟨t', l', ⟨ht', ?_, hf _ hr.fault, hl'⟩, rfl⟩, hρ.map _ hrel⟩
  rw [hcols]
  exact hr.columns

/-- Besides related rows, the messages need the same ids in the attachment table. -/
theorem messages_related (hρ : Inherited ρ) (ht : TableRelated ρ db db' "messages")
    (hf : NoNewFaults db db') (hids : IdsReadable db → IdsReadable db')
    (htable : ∀ i, InTable db' i ↔ InTable db i) {ms : List Message}
    (h : messages parse db = .ok ms) : ∃ ms', messages parse db' = .ok ms' ∧ ρ ms' ms := by
  obtain ⟨ids, t, l, hread, hr, rfl⟩ := messages_ok_iff.1 h
  obtain ⟨ids', hread'⟩ := exists_ids_iff.2 (hids (exists_ids_iff.1 ⟨ids, hread⟩))
  obtain ⟨t', ht', hcols, hrows⟩ := ht t hr.table
  obtain ⟨l', hl', hrel⟩ := hρ.record hrows hr.rows
  -- the ids may be read in another order
  have hof : messageOf parse ids' = messageOf parse ids := by
    have hcontains : ∀ i, ids'.contains i = ids.contains i := by
      intro i
      rw [Bool.eq_iff_iff, List.contains_iff_mem, List.contains_iff_mem, mem_ids_iff hread',
        mem_ids_iff hread, htable]
    funext m
    unfold messageOf
    rw [hcontains]
  have hreads : ReadsMessages db' t' l' := by
    refine ⟨ht', ?_, hf _ hr.probe, ?_, ?_⟩
    · rw [hcols]
      exact hr.columns
    · rw [hcols]
      exact hf _ hr.fault
    · rw [hcols]
      exact hl'
  refine ⟨_, messages_ok_iff.2 ⟨ids', t', l', hread', hreads, rfl⟩, ?_⟩
  rw [hof]
  exact hρ.map _ hrel

theorem idJson_related (hρ : Inherited ρ) (ht : TableRelated ρ db db' "messages")
    (hf : NoNewFaults db db') {l : List (String × Option String)} (h : ReadsIdJson db t l) :
    ∃ t' l', ReadsIdJson db' t' l' ∧ ρ l' l := by
  obtain ⟨t', ht', hcols, hrows⟩ := ht t h.table
  obtain ⟨l', hl', hrel⟩ := hρ.record hrows h.rows
  refine ⟨t', l', ⟨ht', ?_, ?_, hf _ h.fault, hl'⟩, hrel⟩
  · rw [hcols]
    exact h.id
  · rw [hcols]
    exact h.json

end SignalDesktop
