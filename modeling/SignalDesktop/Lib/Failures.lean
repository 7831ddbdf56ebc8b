import SignalDesktop.Lib.Sqlite

/-!
# Why a read fails

A reader stops at the first failure. `Kind` says which values a result column takes, `BadCell`
which cell of a row is the first of another kind, and `SelectFails` why a SELECT fails: its table
or a column does not exist, a reached row has a bad cell, or a step fails after rows that decode.

* `failureOf_bind`, `failureOf_mapM`: the failure of a computation is the first of its parts'.
* `readAll_select_error_iff`: **a SELECT fails for the reasons of `SelectFails`** and no other.
-/

namespace Sqlite

section Except

variable {ε ε' α β : Type}

/-- The failure of a computation, if it fails. -/
def failureOf : Except ε α → Option ε
  | .ok _ => none
  | .error e => some e

@[simp] theorem failureOf_ok (a : α) : failureOf (.ok a : Except ε α) = none := rfl

@[simp] theorem failureOf_error (e : ε) : failureOf (.error e : Except ε α) = some e := rfl

theorem failureOf_eq_some_iff {x : Except ε α} {e : ε} : failureOf x = some e ↔ x = .error e := by
  cases x <;> simp

theorem failureOf_eq_none_iff {x : Except ε α} : failureOf x = none ↔ ∃ a, x = .ok a := by
  cases x <;> simp

/-- A second part that fails in the same way whatever the first returns. -/
theorem failureOf_bind {x : Except ε α} {f : α → Except ε β} {r : Option ε}
    (h : ∀ a, failureOf (f a) = r) : failureOf (x >>= f) = (failureOf x).or r := by
  cases x with
  | ok a => exact h a
  | error e => rfl

theorem bind_error_iff {x : Except ε α} {f : α → Except ε β} {e : ε} :
    x >>= f = .error e ↔ x = .error e ∨ ∃ a, x = .ok a ∧ f a = .error e := by
  cases x <;> simp [bind, Except.bind]

/-- The failures of two parts in turn, `A` those of the first and `B` of the second. -/
def InTurn (A B : ε → Prop) (e : ε) : Prop := A e ∨ (∀ e', ¬ A e') ∧ B e

theorem bind_error_iff_inTurn {x : Except ε α} {f : α → Except ε β} {A B : ε → Prop}
    (hx : ∀ e, x = .error e ↔ A e) (hf : ∀ a, x = .ok a → ∀ e, f a = .error e ↔ B e) (e : ε) :
    x >>= f = .error e ↔ InTurn A B e := by
  unfold InTurn
  rw [bind_error_iff, hx e]
  refine or_congr_right ?_
  cases x with
  | error e₀ =>
    have hA : A e₀ := (hx e₀).1 rfl
    constructor
    · rintro ⟨a, ⟨⟩, -⟩
    · rintro ⟨hn, -⟩
      exact absurd hA (hn e₀)
  | ok a =>
    have hn : ∀ e', ¬ A e' := fun e' h => by cases (hx e').2 h
    rw [← hf a rfl e]
    exact ⟨fun ⟨b, hb, h⟩ => ⟨hn, by cases hb; exact h⟩, fun h => ⟨a, rfl, h.2⟩⟩

/-- A last part that does not fail. -/
theorem bind_pure_error_iff {x : Except ε α} {g : α → β} {e : ε} :
    (x >>= fun a => pure (g a)) = .error e ↔ x = .error e := by
  cases x <;> simp [bind, Except.bind, pure, Except.pure]

theorem mapError_error_iff {x : Except ε α} {f : ε → ε'} {e : ε'} :
    x.mapError f = .error e ↔ ∃ e₀, e = f e₀ ∧ x = .error e₀ := by
  cases x with
  | ok a => simp [Except.mapError]
  | error e₀ => simp [Except.mapError, eq_comm]

theorem failureOf_mapM {f : β → Except ε α} (xs : List β) :
    failureOf (xs.mapM f) = xs.findSome? fun x => failureOf (f x) := by
  induction xs with
  | nil => rfl
  | cons x xs ih =>
    rw [List.mapM_cons, List.findSome?_cons]
    cases hx : f x with
    | error e => rfl
    | ok y =>
      have hrest : failureOf ((xs.mapM f) >>= fun ys => pure (y :: ys)) = (failureOf (xs.mapM f)).or none :=
        failureOf_bind fun _ => rfl
      rw [Option.or_none, ih] at hrest
      exact hrest

end Except

/-! ## Cells -/

/-- The values of a result column. -/
inductive Kind
  | text
  | optText
  | optInteger
  deriving DecidableEq

def Kind.Holds : Kind → Cell → Prop
  | .text, c => ∃ s, c = .text s
  | .optText, c => c = .null ∨ ∃ s, c = .text s
  | .optInteger, c => c = .null ∨ ∃ i, c = .integer i

/-- What is reported of a value of another kind: TEXT that is not UTF-8 where TEXT is expected
does not convert, all other values have the wrong type. -/
def Kind.error (idx : ℕ) : Kind → Cell → Error
  | .text, .rawText _ | .optText, .rawText _ => .fromSqlConversionFailure idx .text
  | _, c => .invalidColumnType idx c.storageClass

/-- The typed access to a column, its value dropped. -/
def Kind.check (row : List Cell) (idx : ℕ) : Kind → Option Error
  | .text => failureOf (get row String idx)
  | .optText => failureOf (get row (Option String) idx)
  | .optInteger => failureOf (get row (Option Int64) idx)

theorem Kind.check_eq_none {row : List Cell} {idx : ℕ} {k : Kind} {c : Cell} (hc : row[idx]? = some c)
    (h : k.Holds c) : k.check row idx = none := by
  cases k with
  | text =>
    obtain ⟨s, rfl⟩ := h
    exact failureOf_eq_none_iff.2 ⟨s, get_ok_iff.2 hc⟩
  | optText =>
    rcases h with rfl | ⟨s, rfl⟩
    · exact failureOf_eq_none_iff.2 ⟨none, get_option_ok_iff.2 hc⟩
    · exact failureOf_eq_none_iff.2 ⟨some s, get_option_ok_iff.2 hc⟩
  | optInteger =>
    rcases h with rfl | ⟨i, rfl⟩
    · exact failureOf_eq_none_iff.2 ⟨none, get_option_ok_iff.2 hc⟩
    · exact failureOf_eq_none_iff.2 ⟨some i, get_option_ok_iff.2 hc⟩

theorem Kind.check_eq_error {row : List Cell} {idx : ℕ} {k : Kind} {c : Cell} (hc : row[idx]? = some c)
    (h : ¬ k.Holds c) : k.check row idx = some (k.error idx c) := by
  cases k <;> cases c <;>
    simp_all [Kind.Holds, Kind.check, Kind.error, get, FromSql.columnResult, Cell.storageClass]

/-! ## Rows -/

/-- The first cell of a row, from column `idx` on, that is of another kind than it should be. -/
inductive BadCell : List Kind → List Cell → ℕ → Error → Prop
  | here {k : Kind} {ks : List Kind} {c : Cell} {cs : List Cell} {idx : ℕ} (h : ¬ k.Holds c) :
      BadCell (k :: ks) (c :: cs) idx (k.error idx c)
  | later {k : Kind} {ks : List Kind} {c : Cell} {cs : List Cell} {idx : ℕ} {e : Error}
      (h : k.Holds c) (hbad : BadCell ks cs (idx + 1) e) : BadCell (k :: ks) (c :: cs) idx e

/-- Access to the columns from `idx` on, up to the first failure. -/
def checkRow (row : List Cell) : ℕ → List Kind → Option Error
  | _, [] => none
  | idx, k :: ks => (k.check row idx).or (checkRow row (idx + 1) ks)

variable {kinds : List Kind} {row : List Cell} {e : Error}

theorem checkRow_eq_some_iff (start : List Cell) (hlen : row.length = kinds.length) :
    checkRow (start ++ row) start.length kinds = some e ↔ BadCell kinds row start.length e := by
  induction kinds generalizing start row with
  | nil => exact ⟨fun h => (by cases h), fun h => (by cases h)⟩
  | cons k ks ih =>
    cases row with
    | nil => cases hlen
    | cons c cs =>
      have hc : (start ++ c :: cs)[start.length]? = some c := by simp
      have hlen' : cs.length = ks.length := by simpa using hlen
      have hrest := ih (start ++ [c]) hlen'
      rw [List.append_assoc, List.length_append] at hrest
      by_cases h : k.Holds c
      · rw [checkRow, Kind.check_eq_none hc h, Option.none_or]
        refine hrest.trans ⟨.later h, fun hb => ?_⟩
        cases hb with
        | here hn => exact absurd h hn
        | later _ hb => exact hb
      · rw [checkRow, Kind.check_eq_error hc h, Option.some_or]
        constructor
        · rintro ⟨⟩
          exact .here h
        · intro hb
          cases hb with
          | here _ => rfl
          | later hk _ => exact absurd hk h

theorem checkRow_eq_none_iff (start : List Cell) (hlen : row.length = kinds.length) :
    checkRow (start ++ row) start.length kinds = none ↔ List.Forall₂ Kind.Holds kinds row := by
  induction kinds generalizing start row with
  | nil =>
    cases row with
    | nil => exact ⟨fun _ => .nil, fun _ => rfl⟩
    | cons c cs => cases hlen
  | cons k ks ih =>
    cases row with
    | nil => cases hlen
    | cons c cs =>
      have hc : (start ++ c :: cs)[start.length]? = some c := by simp
      have hlen' : cs.length = ks.length := by simpa using hlen
      have hrest := ih (start ++ [c]) hlen'
      rw [List.append_assoc, List.length_append] at hrest
      rw [List.forall₂_cons]
      by_cases h : k.Holds c
      · rw [checkRow, Kind.check_eq_none hc h, Option.none_or]
        exact hrest.trans ⟨fun hr => ⟨h, hr⟩, And.right⟩
      · rw [checkRow, Kind.check_eq_error hc h, Option.some_or]
        exact ⟨fun hn => (by cases hn), fun hr => absurd hr.1 h⟩

/-- The decoder reads columns of these kinds, from the first on, and nothing else fails. -/
def Reads {α : Type} (decode : List Cell → Except Error α) (kinds : List Kind) : Prop :=
  ∀ row, failureOf (decode row) = checkRow row 0 kinds

variable {α : Type} {decode : List Cell → Except Error α} {db : Database} {q : Select} {rows : List (List Cell)}

theorem Reads.error_iff (h : Reads decode kinds) (hlen : row.length = kinds.length) :
    failureOf (decode row) = some e ↔ BadCell kinds row 0 e := by
  rw [h row]
  exact checkRow_eq_some_iff [] hlen

theorem Reads.ok_iff (h : Reads decode kinds) (hlen : row.length = kinds.length) :
    failureOf (decode row) = none ↔ List.Forall₂ Kind.Holds kinds row := by
  rw [h row]
  exact checkRow_eq_none_iff [] hlen

/-- Rows that decode, then one that does not. -/
def BadRow (kinds : List Kind) (rows : List (List Cell)) (e : Error) : Prop :=
  ∃ before row after, rows = before ++ row :: after ∧
    (∀ r ∈ before, List.Forall₂ Kind.Holds kinds r) ∧ BadCell kinds row 0 e

theorem Reads.mapM_error_iff (h : Reads decode kinds) (hlen : ∀ r ∈ rows, r.length = kinds.length) :
    failureOf (rows.mapM decode) = some e ↔ BadRow kinds rows e := by
  rw [failureOf_mapM, List.findSome?_eq_some_iff]
  refine exists_congr fun before => exists_congr fun row => exists_congr fun after => ?_
  refine and_congr_right fun hrows => ?_
  subst hrows
  have hrow := h.error_iff (e := e) (hlen row (by simp))
  have hbefore : ∀ r ∈ before, failureOf (decode r) = none ↔ List.Forall₂ Kind.Holds kinds r :=
    fun r hr => h.ok_iff (hlen r (List.mem_append_left _ hr))
  rw [hrow, forall₂_congr hbefore, and_comm]

theorem Reads.mapM_ok_iff (h : Reads decode kinds) (hlen : ∀ r ∈ rows, r.length = kinds.length) :
    failureOf (rows.mapM decode) = none ↔ ∀ r ∈ rows, List.Forall₂ Kind.Holds kinds r := by
  rw [failureOf_mapM, List.findSome?_eq_none_iff]
  exact forall₂_congr fun r hr => h.ok_iff (hlen r hr)

/-! ## Statements -/

/-- Why a SELECT whose result columns have these kinds fails. -/
inductive SelectFails (db : Database) (q : Select) (kinds : List Kind) : Error → Prop
  | noTable (h : db.table q.table = none) : SelectFails db q kinds (.noSuchTable q.table)
  /-- The first name that is no column. -/
  | noColumn {t : Table} (ht : db.table q.table = some t) {before after : List String} {c : String}
      (hn : q.names = before ++ c :: after) (hb : ∀ x ∈ before, x ∈ t.columns) (hc : c ∉ t.columns) :
      SelectFails db q kinds (.noSuchColumn c)
  /-- A row before the failing step, if there is one, does not decode. -/
  | badRow {t : Table} (ht : db.table q.table = some t) (hn : ∀ c ∈ q.names, c ∈ t.columns) {e : Error}
      (hr : BadRow kinds (Rows.cut (q.run t) (db.fault (.select q))).rows e) : SelectFails db q kinds e
  /-- A step fails, and the rows before it decode. -/
  | step {t : Table} (ht : db.table q.table = some t) (hn : ∀ c ∈ q.names, c ∈ t.columns) {n : ℕ}
      {e : Error} (hf : db.fault (.select q) = some (n, e))
      (hr : ∀ r ∈ (q.run t).take n, List.Forall₂ Kind.Holds kinds r) : SelectFails db q kinds e

theorem length_of_mem_run {t : Table} (h : row ∈ q.run t) : row.length = q.columns.length := by
  unfold Select.run at h
  have hmem : row ∈ (q.scan t).map fun r => q.columns.map (·.eval r) := by
    split at h
    · exact List.mem_eraseDups.1 h
    · exact h
  obtain ⟨r, -, rfl⟩ := List.mem_map.1 hmem
  exact List.length_map ..

theorem mem_of_mem_cut {f : Option (ℕ × Error)} (h : row ∈ (Rows.cut rows f).rows) : row ∈ rows := by
  cases f with
  | none => exact h
  | some p => exact List.mem_of_mem_take h

theorem failureOf_collect (rows : List (List Cell)) (f : Option (ℕ × Error)) :
    failureOf ((Rows.cut rows f).collect decode) =
      (failureOf ((Rows.cut rows f).rows.mapM decode)).or (f.map Prod.snd) := by
  unfold Rows.collect
  refine failureOf_bind fun out => ?_
  cases f <;> rfl

theorem readAll_noTable (ht : db.table q.table = none) :
    db.readAll (.select q) decode = .error (.noSuchTable q.table) := by
  unfold Database.readAll Database.query
  simp only [ht]
  rfl

theorem readAll_noColumn {t : Table} {c : String} (ht : db.table q.table = some t)
    (hc : q.names.find? (fun c => c ∉ t.columns) = some c) :
    db.readAll (.select q) decode = .error (.noSuchColumn c) := by
  unfold Database.readAll Database.query
  simp only [ht, hc]
  rfl

theorem readAll_prepared {t : Table} (ht : db.table q.table = some t)
    (hn : ∀ c ∈ q.names, c ∈ t.columns) :
    db.readAll (.select q) decode = (Rows.cut (q.run t) (db.fault (.select q))).collect decode := by
  have hc : q.names.find? (fun c => c ∉ t.columns) = none := by simpa using hn
  unfold Database.readAll Database.query
  simp only [ht, hc]
  rfl

theorem find_missing_iff {t : Table} {c : String} :
    q.names.find? (fun c => c ∉ t.columns) = some c ↔
      ∃ before after, q.names = before ++ c :: after ∧ (∀ x ∈ before, x ∈ t.columns) ∧ c ∉ t.columns := by
  rw [List.find?_eq_some_iff_append]
  simp only [decide_not, Bool.not_eq_true', decide_eq_false_iff_not, Bool.not_not, decide_eq_true_eq]
  constructor
  · rintro ⟨hc, before, after, hn, hb⟩
    exact ⟨before, after, hn, hb, hc⟩
  · rintro ⟨before, after, hn, hb, hc⟩
    exact ⟨hc, before, after, hn, hb⟩

/-- The rows of a SELECT that can be prepared. -/
theorem collect_error_iff {t : Table} (h : Reads decode kinds) (hk : q.columns.length = kinds.length) :
    (Rows.cut (q.run t) (db.fault (.select q))).collect decode = .error e ↔
      BadRow kinds (Rows.cut (q.run t) (db.fault (.select q))).rows e ∨
        ∃ n, db.fault (.select q) = some (n, e) ∧
          ∀ r ∈ (q.run t).take n, List.Forall₂ Kind.Holds kinds r := by
  have hlen : ∀ r ∈ (Rows.cut (q.run t) (db.fault (.select q))).rows, r.length = kinds.length :=
    fun r hr => (length_of_mem_run (mem_of_mem_cut hr)).trans hk
  rw [← failureOf_eq_some_iff, failureOf_collect, Option.or_eq_some_iff, h.mapM_error_iff hlen,
    h.mapM_ok_iff hlen]
  refine or_congr_right ?_
  cases db.fault (.select q) with
  | none => simp
  | some p =>
    constructor
    · rintro ⟨hr, ⟨⟩⟩
      exact ⟨p.1, rfl, hr⟩
    · rintro ⟨n, ⟨⟩, hr⟩
      exact ⟨hr, rfl⟩

/-- **Why a SELECT fails.** -/
theorem readAll_select_error_iff (h : Reads decode kinds) (hk : q.columns.length = kinds.length) :
    db.readAll (.select q) decode = .error e ↔ SelectFails db q kinds e := by
  constructor
  · intro hr
    cases ht : db.table q.table with
    | none =>
      rw [readAll_noTable ht] at hr
      cases hr
      exact .noTable ht
    | some t =>
      cases hc : q.names.find? fun c => c ∉ t.columns with
      | some c =>
        rw [readAll_noColumn ht hc] at hr
        cases hr
        obtain ⟨before, after, hn, hb, hc⟩ := find_missing_iff.1 hc
        exact .noColumn ht hn hb hc
      | none =>
        have hn : ∀ c ∈ q.names, c ∈ t.columns := by simpa using hc
        rw [readAll_prepared ht hn, collect_error_iff h hk] at hr
        rcases hr with hr | ⟨n, hf, hr⟩
        · exact .badRow ht hn hr
        · exact .step ht hn hf hr
  · intro hf
    cases hf with
    | noTable ht => exact readAll_noTable ht
    | noColumn ht hn hb hc => exact readAll_noColumn ht (find_missing_iff.2 ⟨_, _, hn, hb, hc⟩)
    | badRow ht hn hr =>
      rw [readAll_prepared ht hn, collect_error_iff h hk]
      exact Or.inl hr
    | step ht hn hfault hr =>
      rw [readAll_prepared ht hn, collect_error_iff h hk]
      exact Or.inr ⟨_, hfault, hr⟩

/-- **Why a schema probe fails**: a step does. Every row of it decodes. -/
theorem readAll_tableInfo_error_iff {table : String} :
    db.readAll (.tableInfo table) (fun row => get row String 1) = .error e ↔
      ∃ n, db.fault (.tableInfo table) = some (n, e) := by
  have hrows : ∀ r ∈ db.tableInfo table, failureOf (get r String 1) = none := by
    intro r hr
    obtain ⟨⟨name, cid⟩, -, rfl⟩ := List.mem_map.1 hr
    rfl
  have hcut : failureOf ((Rows.cut (db.tableInfo table) (db.fault (.tableInfo table))).rows.mapM
      fun row => get row String 1) = none := by
    rw [failureOf_mapM, List.findSome?_eq_none_iff]
    exact fun r hr => hrows r (mem_of_mem_cut hr)
  have hread : db.readAll (.tableInfo table) (fun row => get row String 1) =
      (Rows.cut (db.tableInfo table) (db.fault (.tableInfo table))).collect fun row => get row String 1 :=
    rfl
  rw [hread, ← failureOf_eq_some_iff, failureOf_collect, hcut, Option.none_or, Option.map_eq_some_iff]
  constructor
  · rintro ⟨⟨n, e'⟩, hf, rfl⟩
    exact ⟨n, hf⟩
  · rintro ⟨n, hf⟩
    exact ⟨(n, e), hf, rfl⟩

end Sqlite
