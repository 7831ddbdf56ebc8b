import SignalDesktop.Lib.Dict
import SignalDesktop.Lib.PyStr
import SignalDesktop.Lib.Regex
import SignalDesktop.Lib.StableSort
import Mathlib.Data.Int.Order.Basic

/-!
# The coverage gate, for lines

`scripts/coverage-gate.py` fails on an uncovered line without a `cov:unreachable` marker in
its dead region. `loadLines` reads the hit counts from an LCOV report, `gateLines` looks
for a marker above each uncovered line.

`SourceTree` gives what reading a source file returns, `ToInt` is `int` on a text (none
stands for a `ValueError`).
-/

namespace SignalDesktop.CoverageGate

open PyStr StableSort

abbrev Str := List Char

def marker : Str := "cov:unreachable".toList

/-- A keyword with white space after it, or nothing. -/
def keyword (k : String) : Regex := .opt (.seqs [.word k.toList, .many1 isSpace])

/-- A function signature bounds the upward marker search. -/
def fnSig : Regex :=
  .seqs [.many isSpace,
    .opt (.seqs [.word "pub".toList, .many isSpace,
      .opt (.seqs [.word "(".toList, .many (· != ')'), .word ")".toList, .many isSpace])]),
    keyword "default", keyword "const", keyword "async", keyword "unsafe",
    .opt (.seqs [.word "extern".toList, .many1 isSpace, .word "\"".toList, .many (· != '"'),
      .word "\"".toList, .many1 isSpace]),
    .word "fn".toList, .cls isSpace]

/-- Gate the crate's own library sources only. -/
def inScope (file : Str) : Bool :=
  contains "/src/".toList file && !contains "/tests/".toList file && !"/main.rs".toList.isSuffixOf file

/-! ## Source lines -/

/-- The text of a file; none if it cannot be opened. -/
abbrev SourceTree := Str → Option Str

def lines (tree : SourceTree) (file : Str) : List Str :=
  match tree file with
  | some text => splitlines text
  | none => []

def text (tree : SourceTree) (file : Str) (line : ℤ) : Str :=
  if 0 ≤ line - 1 ∧ line - 1 < (lines tree file).length then
    (lines tree file).getD (line - 1).toNat []
  else []

def markedAt (tree : SourceTree) (file : Str) (line : ℤ) : Bool := contains marker (text tree file line)

/-! ## The report -/

/-- What stops the gate on a malformed report. -/
inductive GateError
  | valueError
  | indexError
  deriving DecidableEq

abbrev ToInt := Str → Option ℤ

/-- The hit count of each mapped line. -/
abbrev Hits := Dict ℤ ℤ

def int (toInt : ToInt) (s : Str) : Except GateError ℤ :=
  match toInt s with
  | some n => .ok n
  | none => .error .valueError

def item (fields : List Str) (i : ℕ) : Except GateError Str :=
  match fields[i]? with
  | some s => .ok s
  | none => .error .indexError

/-- The line and the count of a `DA:` record. -/
def dataFields (toInt : ToInt) (raw : Str) : Except GateError (ℤ × ℤ) := do
  let fields := split ",".toList (strip (raw.drop 3))
  let line ← int toInt (← item fields 0)
  let count ← int toInt (← item fields 1)
  return (line, count)

/-- Keep the highest count: there is one record per instantiation. -/
def addCount (perFile : Dict Str Hits) (file : Str) (line count : ℤ) : Dict Str Hits :=
  let hits := (perFile.get? file).getD .empty
  perFile.set file (hits.set line (max ((hits.get? line).getD 0) count))

/-- One line of the report: the counts so far and the current file. -/
def loadLine (toInt : ToInt) (s : Dict Str Hits × Option Str) (raw : Str) :
    Except GateError (Dict Str Hits × Option Str) :=
  if "SF:".toList.isPrefixOf raw then .ok (s.1, some (strip (raw.drop 3)))
  else
    match s.2 with
    | none => .ok s
    | some current =>
      if "DA:".toList.isPrefixOf raw then do
        let (line, count) ← dataFields toInt raw
        return (addCount s.1 current line count, some current)
      else .ok s

/-- The hit counts of each file, from the text of an LCOV report. -/
def loadLines (toInt : ToInt) (report : Str) : Except GateError (Dict Str Hits) :=
  Prod.fst <$> (fileLines report).foldlM (loadLine toInt) (.empty, none)

/-! ## The gate -/

def mapped (hits : Hits) (line : ℤ) : Bool := (hits.get? line).isSome

def covered (hits : Hits) (line : ℤ) : Bool :=
  match hits.get? line with
  | some count => 0 < count
  | none => false

/-- The upward search, at line `n` and then above it. -/
def search (tree : SourceTree) (file : Str) (hits : Hits) : ℕ → Bool
  | 0 => false
  | n + 1 =>
    let probe : ℤ := (n : ℤ) + 1
    if markedAt tree file probe then true
    else
      let stripped := strip (text tree file probe)
      -- reached this function's signature
      if fnSig.isMatch stripped then false
      else
        let inRegion := mapped hits probe && !covered hits probe
        let filler := !mapped hits probe && (stripped.isEmpty || "//".toList.isPrefixOf stripped)
        -- a covered line, or unmapped code: not the same dead block
        if !(inRegion || filler) then false
        else search tree file hits n

def zeroLines (hits : Hits) : List ℤ :=
  sortByKey id ((hits.entries.filter fun e => e.2 = 0).map Prod.fst)

/-- How a line is reported. -/
def short (file : Str) (line : ℤ) : Str :=
  (split "/src/".toList file).getLastD [] ++ ":".toList ++ (toString line).toList

/-- One uncovered line, after the failing and the exempted ones so far. -/
def gateLine (tree : SourceTree) (file : Str) (hits : Hits) (acc : List Str × List Str) (line : ℤ) :
    List Str × List Str :=
  if search tree file hits line.toNat then (acc.1, acc.2 ++ [short file line])
  else (acc.1 ++ [short file line], acc.2)

def gateFile (tree : SourceTree) (acc : List Str × List Str) (e : Str × Hits) : List Str × List Str :=
  if inScope e.1 then (zeroLines e.2).foldl (gateLine tree e.1 e.2) acc else acc

/-- The failing and the exempted lines. -/
def gateLines (toInt : ToInt) (tree : SourceTree) (report : Str) :
    Except GateError (List Str × List Str) := do
  let perFile ← loadLines toInt report
  return perFile.entries.foldl (gateFile tree) ([], [])

end SignalDesktop.CoverageGate
