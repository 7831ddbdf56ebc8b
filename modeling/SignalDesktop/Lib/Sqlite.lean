import Mathlib.Data.List.Forall2
import Mathlib.Data.Prod.Lex
import Mathlib.Data.List.Lex
import SignalDesktop.Lib.StableSort

/-!
# A read-only SQLite connection

Stored values with their storage class (`Cell`), tables, the two kinds of statement
a reader runs (`PRAGMA table_info` and a one-table `SELECT`), and the typed access to
a result row (`get`). Preparing a statement fails if a name does not resolve; stepping
it may fail at any row (`Database.fault`); decoding a value fails on a wrong class.

`Database.readAll` is the idiom of every reader: prepare, map each row, stop at the
first failure. `readAll_select_ok_iff` says when it succeeds and with what.
-/

namespace Sqlite

/-- A stored value. TEXT holds a string (`text`) or bytes that are not UTF-8 (`rawText`). -/
inductive Cell
  | null
  | integer (i : Int64)
  | real (bits : UInt64)
  | text (s : String)
  | rawText (bytes : List UInt8)
  | blob (bytes : List UInt8)
  deriving DecidableEq

inductive StorageClass
  | null | integer | real | text | blob
  deriving DecidableEq

def Cell.storageClass : Cell → StorageClass
  | .null => .null
  | .integer _ => .integer
  | .real _ => .real
  | .text _ | .rawText _ => .text
  | .blob _ => .blob

/-- The position of a value under ORDER BY: NULL, then numbers, then TEXT and then BLOB,
both byte by byte. Numbers share one position: no statement modelled here sorts by one. -/
def Cell.sortKey : Cell → ℕ ×ₗ List ℕ
  | .null => toLex (0, [])
  | .integer _ | .real _ => toLex (1, [])
  | .text s => toLex (2, s.toByteArray.data.toList.map UInt8.toNat)
  | .rawText b => toLex (2, b.map UInt8.toNat)
  | .blob b => toLex (3, b.map UInt8.toNat)

/-- Why a statement failed. -/
inductive Error
  | noSuchTable (table : String)
  | noSuchColumn (column : String)
  /-- A step failed with a result code. -/
  | failure (code : ℕ)
  | invalidColumnIndex (idx : ℕ)
  | invalidColumnType (idx : ℕ) (type : StorageClass)
  | fromSqlConversionFailure (idx : ℕ) (type : StorageClass)
  deriving DecidableEq

/-! ## Results -/

section Except

variable {ε ε' α β : Type}

theorem bind_ok_iff {x : Except ε α} {f : α → Except ε β} {b : β} :
    x >>= f = .ok b ↔ ∃ a, x = .ok a ∧ f a = .ok b := by
  cases x <;> simp [bind, Except.bind]

theorem bind_error {x : Except ε α} {f : α → Except ε β} {e : ε} (h : x >>= f = .error e) :
    x = .error e ∨ ∃ a, x = .ok a ∧ f a = .error e := by
  cases x with
  | error e' => cases h; exact Or.inl rfl
  | ok a => exact Or.inr ⟨a, rfl, h⟩

theorem pure_ok_iff {a b : α} : (pure a : Except ε α) = .ok b ↔ a = b := by
  simp [pure, Except.pure]

theorem mapError_ok_iff {x : Except ε α} {f : ε → ε'} {a : α} :
    x.mapError f = .ok a ↔ x = .ok a := by
  cases x <;> simp [Except.mapError]

theorem mapError_error {x : Except ε α} {f : ε → ε'} {e : ε'} (h : x.mapError f = .error e) :
    ∃ e₀, e = f e₀ := by
  cases x with
  | ok a => cases h
  | error e₀ => cases h; exact ⟨e₀, rfl⟩

end Except

/-! ## Typed values -/

inductive FromSqlError
  | invalidType
  | other

/-- Types a stored value converts to. -/
class FromSql (α : Type) where
  columnResult : Cell → Except FromSqlError α

instance : FromSql String where
  columnResult
    | .text s => .ok s
    | .rawText _ => .error .other
    | _ => .error .invalidType

instance : FromSql Int64 where
  columnResult
    | .integer i => .ok i
    | _ => .error .invalidType

instance {α : Type} [FromSql α] : FromSql (Option α) where
  columnResult
    | .null => .ok none
    | c => some <$> FromSql.columnResult c

/-- The value at index `idx` of a result row, as an `α`. -/
def get (row : List Cell) (α : Type) [FromSql α] (idx : ℕ) : Except Error α :=
  match row[idx]? with
  | none => .error (.invalidColumnIndex idx)
  | some c =>
    match FromSql.columnResult c with
    | .ok v => .ok v
    | .error .invalidType => .error (.invalidColumnType idx c.storageClass)
    | .error .other => .error (.fromSqlConversionFailure idx c.storageClass)

/-- Types whose values are stored in exactly one way, never as NULL. -/
class Stored (α : Type) extends FromSql α where
  cell : α → Cell
  columnResult_iff : ∀ {c : Cell} {v : α}, columnResult c = .ok v ↔ c = cell v
  cell_ne_null : ∀ v : α, cell v ≠ .null

instance : Stored String where
  cell := .text
  columnResult_iff {c v} := by cases c <;> simp [FromSql.columnResult]
  cell_ne_null _ := by simp

instance : Stored Int64 where
  cell := .integer
  columnResult_iff {c v} := by cases c <;> simp [FromSql.columnResult]
  cell_ne_null _ := by simp

/-- The stored form of an optional value: NULL for none. -/
def Cell.ofOption {α : Type} [Stored α] : Option α → Cell
  | none => .null
  | some v => Stored.cell v

@[simp] theorem cell_string (s : String) : Stored.cell s = Cell.text s := rfl

@[simp] theorem cell_int64 (i : Int64) : Stored.cell i = Cell.integer i := rfl

@[simp] theorem ofOption_none {α : Type} [Stored α] : Cell.ofOption (none : Option α) = .null := rfl

@[simp] theorem ofOption_some {α : Type} [Stored α] (v : α) :
    Cell.ofOption (some v) = Stored.cell v := rfl

/-- The string of a TEXT value. -/
def Cell.asText : Cell → Option String
  | .text s => some s
  | _ => none

@[simp] theorem asText_ofOption (v : Option String) : (Cell.ofOption v).asText = v := by
  cases v <;> rfl

/-- The integer of an INTEGER value. -/
def Cell.asInteger : Cell → Option Int64
  | .integer i => some i
  | _ => none

@[simp] theorem asInteger_ofOption (v : Option Int64) : (Cell.ofOption v).asInteger = v := by
  cases v <;> rfl

theorem ofOption_injective {α : Type} [Stored α] : Function.Injective (Cell.ofOption (α := α)) := by
  intro a b h
  cases a <;> cases b
  · rfl
  · exact absurd h.symm (Stored.cell_ne_null _)
  · exact absurd h (Stored.cell_ne_null _)
  · rename_i v w
    have := Stored.columnResult_iff.2 (show Stored.cell v = Stored.cell w from h)
    rw [Stored.columnResult_iff.2 rfl] at this
    cases this
    rfl

/-- **Decoding inverts storing**, for optional values too. -/
theorem columnResult_option_iff {α : Type} [Stored α] {c : Cell} {v : Option α} :
    FromSql.columnResult c = .ok v ↔ c = Cell.ofOption v := by
  by_cases hc : c = .null
  · subst hc
    cases v with
    | none => simp [FromSql.columnResult]
    | some v => simpa [FromSql.columnResult] using (Stored.cell_ne_null v).symm
  · -- a value that is not NULL is decoded at `α`
    have hd : FromSql.columnResult (α := Option α) c = some <$> FromSql.columnResult c := by
      cases c <;> first | rfl | exact absurd rfl hc
    rw [hd]
    cases hr : FromSql.columnResult (α := α) c with
    | error e =>
      cases v with
      | none => simpa using hc
      | some v =>
        have : c ≠ Stored.cell v := fun h => by
          rw [Stored.columnResult_iff.2 h] at hr; cases hr
        simpa using this
    | ok w =>
      have hw := Stored.columnResult_iff.1 hr
      subst hw
      cases v with
      | none => simpa using hc
      | some v =>
        show (.ok (some w) : Except FromSqlError (Option α)) = _ ↔ _
        have := (ofOption_injective (α := α)).eq_iff (a := some w) (b := some v)
        simpa using this.symm

theorem get_ok_iff_columnResult {α : Type} [FromSql α] {row : List Cell} {idx : ℕ} {v : α} :
    get row α idx = .ok v ↔ ∃ c, row[idx]? = some c ∧ FromSql.columnResult c = .ok v := by
  unfold get
  cases row[idx]? with
  | none => simp
  | some c =>
    simp only [Option.some.injEq, exists_eq_left']
    cases FromSql.columnResult (α := α) c with
    | ok w => simp
    | error e => cases e <;> simp

theorem get_ok_iff {α : Type} [Stored α] {row : List Cell} {idx : ℕ} {v : α} :
    get row α idx = .ok v ↔ row[idx]? = some (Stored.cell v) := by
  rw [get_ok_iff_columnResult]
  simp [Stored.columnResult_iff]

theorem get_option_ok_iff {α : Type} [Stored α] {row : List Cell} {idx : ℕ} {v : Option α} :
    get row (Option α) idx = .ok v ↔ row[idx]? = some (Cell.ofOption v) := by
  rw [get_ok_iff_columnResult]
  simp [columnResult_option_iff]

/-! ## Tables and statements -/

/-- A row: the value under each column name. Only the table's own columns are ever read. -/
abbrev Row := String → Cell

/-- A table: its columns, as `PRAGMA table_info` lists them, and its rows in the order in
which a statement visits them, one order for all statements. Column names are compared
exactly. -/
structure Table where
  columns : List String
  rows : List Row
  columns_ne : columns ≠ []

/-- A result column of a SELECT. -/
inductive ResultColumn
  | column (name : String)
  /-- `NULL AS name` -/
  | nullAs (name : String)
  deriving DecidableEq

/-- `SELECT [DISTINCT] columns FROM table [ORDER BY column]`. -/
structure Select where
  columns : List ResultColumn
  table : String
  distinct : Bool := false
  orderBy : Option String := none
  deriving DecidableEq

inductive Statement
  /-- `PRAGMA table_info(table)` -/
  | tableInfo (table : String)
  | select (q : Select)
  deriving DecidableEq

/-- The content of an opened database. `fault s` is the failure that stepping the
statement `s` runs into, after that many result rows (a damaged page, an I/O error). -/
structure Database where
  table : String → Option Table
  fault : Statement → Option (ℕ × Error)

def ResultColumn.eval (row : Row) : ResultColumn → Cell
  | .column c => row c
  | .nullAs _ => .null

/-- The table column a result column names. -/
def ResultColumn.source : ResultColumn → Option String
  | .column c => some c
  | .nullAs _ => none

/-- The table columns a SELECT names. -/
def Select.names (q : Select) : List String :=
  q.columns.filterMap ResultColumn.source ++ q.orderBy.toList

/-- The rows in the order the SELECT visits them. -/
def Select.scan (q : Select) (t : Table) : List Row :=
  match q.orderBy with
  | none => t.rows
  | some c => StableSort.sortByKey (fun r => (r c).sortKey) t.rows

def Select.run (q : Select) (t : Table) : List (List Cell) :=
  let out := (q.scan t).map fun r => q.columns.map (·.eval r)
  if q.distinct then out.eraseDups else out

/-- What stepping a statement yields: rows, then the end or a failure. -/
structure Rows where
  rows : List (List Cell)
  fault : Option Error

def Rows.cut (rows : List (List Cell)) : Option (ℕ × Error) → Rows
  | none => ⟨rows, none⟩
  | some (n, e) => ⟨rows.take n, some e⟩

/-- The columns of a table: none if it does not exist. -/
def Database.columns (db : Database) (table : String) : List String :=
  (db.table table).elim [] Table.columns

/-- The rows of a table: none if it does not exist. -/
def Database.rows (db : Database) (table : String) : List Row :=
  (db.table table).elim [] Table.rows

/-- The result rows of `PRAGMA table_info`. -/
def Database.tableInfo (db : Database) (table : String) : List (List Cell) :=
  (db.columns table).zipIdx.map fun (name, cid) => [.integer (Int64.ofNat cid), .text name]

/-- Prepare a statement and start stepping it. -/
def Database.query (db : Database) : Statement → Except Error Rows
  | .tableInfo table => .ok (.cut (db.tableInfo table) (db.fault (.tableInfo table)))
  | .select q =>
    match db.table q.table with
    | none => .error (.noSuchTable q.table)
    | some t =>
      match q.names.find? fun c => c ∉ t.columns with
      | some c => .error (.noSuchColumn c)
      | none => .ok (.cut (q.run t) (db.fault (.select q)))

/-- Decode row after row, up to the first failure. -/
def Rows.collect {α : Type} (decode : List Cell → Except Error α) (r : Rows) :
    Except Error (List α) := do
  let out ← r.rows.mapM decode
  match r.fault with
  | none => return out
  | some e => throw e

def Database.readAll {α : Type} (db : Database) (s : Statement)
    (decode : List Cell → Except Error α) : Except Error (List α) := do
  (← db.query s).collect decode

variable {α : Type} {decode : List Cell → Except Error α} {db : Database} {l : List α}

theorem mapM_ok_iff {β : Type} {f : β → Except Error α} {xs : List β} {ys : List α} :
    xs.mapM f = .ok ys ↔ List.Forall₂ (fun x y => f x = .ok y) xs ys := by
  induction xs generalizing ys with
  | nil => cases ys <;> simp [pure, Except.pure]
  | cons x xs ih =>
    rw [List.mapM_cons]
    cases hx : f x with
    | error e => cases ys <;> simp [bind, Except.bind, hx]
    | ok y =>
      cases hxs : xs.mapM f with
      | error e => cases ys <;> simp [bind, Except.bind, hx, ← ih, hxs]
      | ok zs => cases ys <;> simp [bind, Except.bind, pure, Except.pure, hx, ← ih, hxs]

theorem collect_cut_ok_iff {rows : List (List Cell)} {f : Option (ℕ × Error)} :
    (Rows.cut rows f).collect decode = .ok l ↔
      f = none ∧ List.Forall₂ (fun r a => decode r = .ok a) rows l := by
  rw [← mapM_ok_iff]
  cases f with
  | none =>
    simp only [Rows.cut, Rows.collect]
    cases rows.mapM decode <;> simp [bind, Except.bind, pure, Except.pure]
  | some p =>
    simp only [Rows.cut, Rows.collect]
    cases (rows.take p.1).mapM decode <;> simp [bind, Except.bind, throw, throwThe, MonadExceptOf.throw]

/-- **When a SELECT reads.** The table and every named column exist, no step fails and
every result row decodes. -/
theorem readAll_select_ok_iff {q : Select} :
    db.readAll (.select q) decode = .ok l ↔
      ∃ t, db.table q.table = some t ∧ (∀ c ∈ q.names, c ∈ t.columns) ∧
        db.fault (.select q) = none ∧
        List.Forall₂ (fun r a => decode r = .ok a) (q.run t) l := by
  simp only [Database.readAll, Database.query, bind, Except.bind]
  cases db.table q.table with
  | none => simp
  | some t =>
    simp only [Option.some.injEq, exists_eq_left']
    cases hf : q.names.find? fun c => c ∉ t.columns with
    | some c =>
      -- the statement cannot be prepared
      have h1 := List.mem_of_find?_eq_some hf
      have h2 := List.find?_some hf
      rw [decide_eq_true_eq] at h2
      simp only [reduceCtorEq, false_iff, not_and]
      exact fun h => absurd (h c h1) h2
    | none =>
      have hc := List.find?_eq_none.1 hf
      simp only [decide_eq_true_eq, not_not] at hc
      simp only [collect_cut_ok_iff]
      exact ⟨fun h => ⟨hc, h⟩, And.right⟩

theorem readAll_tableInfo_ok_iff {table : String} :
    db.readAll (.tableInfo table) decode = .ok l ↔
      db.fault (.tableInfo table) = none ∧
        List.Forall₂ (fun r a => decode r = .ok a) (db.tableInfo table) l := by
  simp only [Database.readAll, Database.query, bind, Except.bind, collect_cut_ok_iff]

/-- A statement reads the same from a second database with the same table and no fault. -/
theorem readAll_select_of_same {db' : Database} {q : Select} (ht : db'.table q.table = db.table q.table)
    (hf : db.fault (.select q) = none → db'.fault (.select q) = none)
    (h : db.readAll (.select q) decode = .ok l) : db'.readAll (.select q) decode = .ok l := by
  rw [readAll_select_ok_iff] at h ⊢
  obtain ⟨t, htab, hnames, hfault, hrows⟩ := h
  exact ⟨t, ht.trans htab, hnames, hf hfault, hrows⟩

/-- Without DISTINCT the result is the visited rows, column by column. -/
theorem forall₂_run_iff {q : Select} {t : Table} {R : List Cell → α → Prop} (h : q.distinct = false) :
    List.Forall₂ R (q.run t) l ↔
      List.Forall₂ (fun r a => R (q.columns.map (·.eval r)) a) (q.scan t) l := by
  unfold Select.run
  rw [h]
  exact List.forall₂_map_left_iff

theorem scan_perm (q : Select) (t : Table) : (q.scan t).Perm t.rows := by
  unfold Select.scan
  cases q.orderBy with
  | none => exact List.Perm.refl _
  | some c => exact StableSort.sortByKey_perm _ _

end Sqlite
