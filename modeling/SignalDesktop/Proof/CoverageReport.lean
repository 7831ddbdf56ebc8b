import SignalDesktop.Spec.CoverageGate

/-!
# The hit counts of a report

A report is a list of records of a file, a line and a count. A line is mapped if it has a
record, and its hits are the highest count among them. `loadLines_eq` and
`hitsOf_perFile_iff`: the gate reads exactly these, in any order of the records.
-/

namespace SignalDesktop.CoverageGate

open PyStr

/-- A `DA:` record, with the file of the `SF:` line before it. -/
structure Record where
  file : Str
  line : ℤ
  count : ℤ
  deriving DecidableEq

/-- The records of the lines of a report, below the current file. -/
def readRecords (toInt : ToInt) : Option Str → List Str → Except GateError (List Record)
  | _, [] => .ok []
  | current, raw :: raws =>
    if "SF:".toList.isPrefixOf raw then readRecords toInt (some (strip (raw.drop 3))) raws
    else
      match current with
      | none => readRecords toInt none raws
      | some file =>
        if "DA:".toList.isPrefixOf raw then do
          let (line, count) ← dataFields toInt raw
          let records ← readRecords toInt (some file) raws
          return ⟨file, line, count⟩ :: records
        else readRecords toInt (some file) raws

/-- The line has a record. -/
def Mapped (records : List Record) (file : Str) (line : ℤ) : Prop :=
  ∃ r ∈ records, r.file = file ∧ r.line = line

def counts (records : List Record) (file : Str) (line : ℤ) : List ℤ :=
  (records.filter fun r => r.file = file ∧ r.line = line).map Record.count

/-- The highest count of a line. -/
def hits (records : List Record) (file : Str) (line : ℤ) : ℤ := (counts records file line).foldl max 0

variable {toInt : ToInt} {records : List Record} {d : Dict Str Hits} {file file' : Str}
  {line line' count : ℤ}

/-! ## From lines to records -/

def addRecord (d : Dict Str Hits) (r : Record) : Dict Str Hits := addCount d r.file r.line r.count

/-- What the gate has after these records. -/
def perFile (records : List Record) : Dict Str Hits := records.foldl addRecord .empty

theorem foldlM_loadLine (raws : List Str) : ∀ (d : Dict Str Hits) (current : Option Str),
    Prod.fst <$> raws.foldlM (loadLine toInt) (d, current) =
      (fun records => records.foldl addRecord d) <$> readRecords toInt current raws := by
  induction raws with
  | nil =>
    intro d current
    rfl
  | cons raw raws ih =>
    intro d current
    rw [List.foldlM_cons]
    unfold loadLine readRecords
    by_cases hSF : "SF:".toList.isPrefixOf raw = true
    · rw [if_pos hSF, if_pos hSF]
      exact ih d _
    · rw [if_neg hSF, if_neg hSF]
      cases current with
      | none => exact ih d none
      | some file =>
        by_cases hDA : "DA:".toList.isPrefixOf raw = true
        · simp only [if_pos hDA]
          cases dataFields toInt raw with
          | error e => rfl
          | ok fields =>
            obtain ⟨line, count⟩ := fields
            refine (ih (addCount d file line count) (some file)).trans ?_
            cases readRecords toInt (some file) raws <;> rfl
        · simp only [if_neg hDA]
          exact ih d (some file)

/-- **The counts are those of the records.** -/
theorem loadLines_eq (report : Str) :
    loadLines toInt report = perFile <$> readRecords toInt none (fileLines report) :=
  foldlM_loadLine (fileLines report) .empty none

/-! ## From records to counts -/

/-- The count held for a line. -/
def hitsOf (d : Dict Str Hits) (file : Str) (line : ℤ) : Option ℤ := (d.get? file).bind (·.get? line)

theorem hitsOf_addCount :
    hitsOf (addCount d file line count) file' line' =
      if file = file' ∧ line = line' then some (max ((hitsOf d file line).getD 0) count)
      else hitsOf d file' line' := by
  unfold hitsOf addCount
  rw [Dict.get?_set]
  by_cases hfile : file = file'
  · subst hfile
    rw [if_pos rfl, Option.bind_some, Dict.get?_set]
    by_cases hline : line = line'
    · rw [if_pos hline, if_pos ⟨rfl, hline⟩]
      cases d.get? file <;> rfl
    · rw [if_neg hline, if_neg fun h => hline h.2]
      cases d.get? file <;> rfl
  · rw [if_neg hfile, if_neg fun h => hfile h.1]

theorem hitsOf_perFile :
    hitsOf (perFile records) file line =
      if counts records file line = [] then none else some (hits records file line) := by
  -- the last record is the one added last
  induction records using List.reverseRecOn with
  | nil => rfl
  | append_singleton records r ih =>
    have hadd : perFile (records ++ [r]) = addRecord (perFile records) r := by
      rw [perFile, List.foldl_append]
      rfl
    have hcounts : counts (records ++ [r]) file line =
        counts records file line ++ if r.file = file ∧ r.line = line then [r.count] else [] := by
      unfold counts
      rw [List.filter_append, List.map_append]
      by_cases h : r.file = file ∧ r.line = line <;> simp [h]
    unfold hits
    rw [hadd, addRecord, hitsOf_addCount, hcounts]
    by_cases h : r.file = file ∧ r.line = line
    · rw [if_pos h, if_pos h, if_neg (by simp), List.foldl_append, h.1, h.2, ih]
      by_cases hnil : counts records file line = []
      · rw [if_pos hnil, hnil]
        rfl
      · rw [if_neg hnil]
        rfl
    · rw [if_neg h, if_neg h, List.append_nil, ih]
      rfl

theorem counts_ne_nil_iff : counts records file line ≠ [] ↔ Mapped records file line := by
  unfold counts Mapped
  simp

/-- **A line has a count iff it is mapped, and the count is its hits.** -/
theorem hitsOf_perFile_iff :
    hitsOf (perFile records) file line = some count ↔
      Mapped records file line ∧ hits records file line = count := by
  rw [hitsOf_perFile, ← counts_ne_nil_iff]
  by_cases hnil : counts records file line = []
  · rw [if_pos hnil]
    constructor
    · intro h
      cases h
    · intro h
      exact absurd hnil h.1
  · rw [if_neg hnil, Option.some.injEq]
    exact ⟨fun h => ⟨hnil, h⟩, fun h => h.2⟩

end SignalDesktop.CoverageGate
