import SignalDesktop.Lib.Sqlite

/-!
# Editing a database

`Edit` are the three statements that change rows. `stateAt db es n` is the database after
the first `n` edits of `es`. Edits keep the schema (`stateAt_columns`), and what each edit of a
run keeps the run keeps (`stateAt_induction`, `stateAt_relates`).
-/

namespace Sqlite

inductive Edit
  /-- `INSERT INTO table`, a row that is visited last. -/
  | insert (table : String) (row : Row)
  /-- `DELETE FROM table WHERE cond` -/
  | delete (table : String) (cond : Row → Bool)
  /-- `UPDATE table SET … WHERE cond`, with the row that a row becomes. -/
  | update (table : String) (cond : Row → Bool) (set : Row → Row)

namespace Edit

def target : Edit → String
  | insert table _ | delete table _ | update table _ _ => table

/-- The rows of the target after the edit. -/
def rows : Edit → List Row → List Row
  | insert _ r, l => l ++ [r]
  | delete _ cond, l => l.filter fun r => !cond r
  | update _ cond set, l => l.map fun r => if cond r then set r else r

/-- The rows the edit writes. -/
def written : Edit → List Row → List Row
  | insert _ r, _ => [r]
  | delete _ _, _ => []
  | update _ cond set, l => (l.filter cond).map set

def apply (e : Edit) (db : Database) : Database where
  table name :=
    if name = e.target then (db.table name).map fun t => { t with rows := e.rows t.rows }
    else db.table name
  fault := db.fault

variable {e : Edit} {db : Database} {name : String} {l : List Row} {r : Row}

/-- A row after the edit was there before, or is written by it. -/
theorem mem_rows (h : r ∈ e.rows l) : r ∈ l ∨ r ∈ e.written l := by
  cases e with
  | insert table row => exact List.mem_append.1 h
  | delete table cond => exact Or.inl (List.mem_of_mem_filter h)
  | update table cond set =>
    obtain ⟨x, hx, rfl⟩ := List.mem_map.1 h
    by_cases hc : cond x = true
    · rw [if_pos hc]
      exact Or.inr (List.mem_map_of_mem (List.mem_filter.2 ⟨hx, hc⟩))
    · rw [if_neg hc]
      exact Or.inl hx

@[simp] theorem apply_fault (e : Edit) (db : Database) : (e.apply db).fault = db.fault := rfl

theorem apply_table_of_ne (h : name ≠ e.target) : (e.apply db).table name = db.table name := if_neg h

theorem apply_table_target :
    (e.apply db).table e.target = (db.table e.target).map fun t => { t with rows := e.rows t.rows } :=
  if_pos rfl

theorem apply_rows_of_ne (h : name ≠ e.target) : (e.apply db).rows name = db.rows name := by
  unfold Database.rows
  rw [apply_table_of_ne h]

theorem apply_columns (e : Edit) (db : Database) (name : String) :
    (e.apply db).columns name = db.columns name := by
  unfold Database.columns
  by_cases h : name = e.target
  · rw [h, apply_table_target]
    cases db.table e.target <;> rfl
  · rw [apply_table_of_ne h]

/-- The rows of a table after an edit: as before, or what the edit makes of them. -/
theorem apply_rows_cases (e : Edit) (db : Database) (name : String) :
    (e.apply db).rows name = db.rows name ∨
      name = e.target ∧ (e.apply db).rows name = e.rows (db.rows name) := by
  by_cases hname : name = e.target
  · subst hname
    unfold Database.rows
    rw [apply_table_target]
    cases db.table e.target with
    | none => exact Or.inl rfl
    | some t => exact Or.inr ⟨rfl, rfl⟩
  · exact Or.inl (apply_rows_of_ne hname)

theorem mem_apply_rows (h : r ∈ (e.apply db).rows name) :
    r ∈ db.rows name ∨ name = e.target ∧ r ∈ e.written (db.rows name) := by
  rcases apply_rows_cases e db name with hrows | ⟨hname, hrows⟩
  · rw [hrows] at h
    exact Or.inl h
  · rw [hrows] at h
    exact (mem_rows h).imp_right fun hw => ⟨hname, hw⟩

end Edit

/-! ## Runs -/

/-- The database after the first `n` edits. -/
def stateAt (db : Database) (es : List Edit) (n : ℕ) : Database :=
  (es.take n).foldl (fun d e => e.apply d) db

variable {db : Database} {es : List Edit} {n : ℕ} {e : Edit}

theorem stateAt_zero (db : Database) (es : List Edit) : stateAt db es 0 = db := rfl

theorem stateAt_succ (h : es[n]? = some e) : stateAt db es (n + 1) = e.apply (stateAt db es n) := by
  unfold stateAt
  rw [List.take_add_one, h, List.foldl_append]
  rfl

/-- After the last edit nothing changes. -/
theorem stateAt_succ_of_none (h : es[n]? = none) : stateAt db es (n + 1) = stateAt db es n := by
  unfold stateAt
  rw [List.take_add_one, h, Option.toList_none, List.append_nil]

/-- **The run**: what an edit keeps, every run of such edits keeps. -/
theorem stateAt_induction {P : Database → Prop} (h₀ : P db)
    (step : ∀ m (e : Edit), es[m]? = some e → P (stateAt db es m) → P (e.apply (stateAt db es m))) (n : ℕ) :
    P (stateAt db es n) := by
  induction n with
  | zero => exact h₀
  | succ n ih =>
    cases he : es[n]? with
    | none =>
      rw [stateAt_succ_of_none he]
      exact ih
    | some e =>
      rw [stateAt_succ he]
      exact step n e he ih

theorem stateAt_columns (db : Database) (es : List Edit) (n : ℕ) (name : String) :
    (stateAt db es n).columns name = db.columns name := by
  refine stateAt_induction (P := fun d => d.columns name = db.columns name) rfl (fun m e _ h => ?_) n
  rw [Edit.apply_columns, h]

/-- **The run**, for a relation: what holds between the databases before and after each edit
from `m` to `n` holds between the two ends. -/
theorem stateAt_relates {R : Database → Database → Prop} {m : ℕ} (hrefl : ∀ d, R d d)
    (htrans : ∀ {a b c}, R a b → R b c → R a c) (hmn : m ≤ n)
    (step : ∀ j (e : Edit), m ≤ j → j < n → es[j]? = some e →
      R (stateAt db es j) (e.apply (stateAt db es j))) : R (stateAt db es m) (stateAt db es n) := by
  induction n with
  | zero =>
    have hm : m = 0 := by omega
    rw [hm]
    exact hrefl _
  | succ n ih =>
    rcases Nat.eq_or_lt_of_le hmn with hm | hm
    · rw [hm]
      exact hrefl _
    have hprev := ih (by omega) fun j e hj hn he => step j e hj (by omega) he
    cases he : es[n]? with
    | none =>
      rw [stateAt_succ_of_none he]
      exact hprev
    | some e =>
      rw [stateAt_succ he]
      exact htrans hprev (step n e (by omega) (by omega) he)

/-- **What is only inserted into is only added to.** -/
theorem rows_subset_of_insert {name : String} {m : ℕ} (hmn : m ≤ n)
    (hins : ∀ j, m ≤ j → j < n → ∀ e : Edit, es[j]? = some e → e.target = name →
      ∃ r, e = .insert name r) :
    (stateAt db es m).rows name ⊆ (stateAt db es n).rows name := by
  refine stateAt_relates (R := fun a b => a.rows name ⊆ b.rows name) (fun d => List.Subset.refl _)
    (fun h h' => List.Subset.trans h h') hmn fun j e hj hn he => ?_
  rcases Edit.apply_rows_cases e (stateAt db es j) name with hrows | ⟨hname, hrows⟩
  · rw [hrows]
    exact List.Subset.refl _
  · obtain ⟨r, rfl⟩ := hins j hj hn e he hname.symm
    rw [hrows]
    exact List.subset_append_left _ _

end Sqlite
