import SignalDesktop.Spec.CoverageGate
import Mathlib.Data.Char
import Mathlib.Data.List.Lex

/-!
# The coverage gate, for functions, and its run

`gateFunctions` reads the function counts of an llvm-cov export and looks for a marker at
each function that never ran. `main` runs both gates on the files named by its arguments.

`Python` gives what the script uses of its library.
-/

namespace SignalDesktop.CoverageGate

open PyStr StableSort

/-! ## The export -/

/-- An instantiation of a function. A value that is absent, or null where the script asks
for a default, is none. -/
structure Function where
  regions : Option (List (List ℤ))
  filenames : Option (List Str)
  count : Option ℤ
  deriving DecidableEq

structure Export where
  /-- The keys but `functions`. -/
  keys : List Str
  functions : Option (List Function)

structure Coverage where
  data : Option (List Export)

/-- What stops a run, other than a return. -/
inductive Abort
  | gate (error : GateError)
  | keyError (key : Str)
  | systemExit (message : Str)
  deriving DecidableEq

structure Python where
  /-- `json.load`; none for a `ValueError`. -/
  loadJson : Str → Option Coverage
  toInt : ToInt
  repr : Str → Str
  /-- The text of the `OSError` for a path. -/
  osError : Str → Str

def index {α : Type} (l : List α) (i : ℕ) : Except Abort α :=
  match l[i]? with
  | some a => .ok a
  | none => .error (.gate .indexError)

def key {α : Type} (o : Option α) (name : String) : Except Abort α :=
  match o with
  | some a => .ok a
  | none => .error (.keyError name.toList)

/-! ## Merging instantiations -/

/-- A file, a line and a column. -/
abbrev Location := Str × ℤ × ℤ

/-- Where a region starts. -/
def regionStart (region : List ℤ) : Except Abort (ℤ × ℤ) := do
  return (← index region 0, ← index region 1)

def before (a b : ℤ × ℤ) : Bool := a.1 < b.1 || (a.1 = b.1 && a.2 < b.2)

/-- `min` over the regions: the first of the least ones. -/
def start (region : List ℤ) (regions : List (List ℤ)) : Except Abort (ℤ × ℤ) := do
  regions.foldlM
    (fun least r => do
      let s ← regionStart r
      return if before s least then s else least)
    (← regionStart region)

/-- Merge by source location, not by name: the same function compiled into different test
binaries has different names. -/
def mergeFunction (merged : Dict Location ℤ) (f : Function) : Except Abort (Dict Location ℤ) :=
  match f.regions.getD [] with
  | [] => .ok merged
  | region :: regions => do
    let file := (f.filenames.getD []).headD "?".toList
    let (line, col) ← start region regions
    let count ← key f.count "count"
    return merged.set (file, line, col) ((merged.get? (file, line, col)).getD 0 + count)

/-! ## The function gate -/

/-- A marker on the function's line or up to two lines above it. -/
def markedNear (tree : SourceTree) (file : Str) (line : ℤ) : Bool :=
  [line - 2, line - 1, line].any (markedAt tree file)

/-- One location, after the failing and the exempted ones so far. -/
def gateFunction (tree : SourceTree) (acc : List Str × List Str) (e : Location × ℤ) :
    List Str × List Str :=
  if 0 < e.2 || !inScope e.1.1 then acc
  else if markedNear tree e.1.1 e.1.2.1 then (acc.1, acc.2 ++ [short e.1.1 e.1.2.1])
  else (acc.1 ++ [short e.1.1 e.1.2.1], acc.2)

/-- `str` of a list of texts. -/
def reprList (repr : Str → Str) (l : List Str) : Str :=
  "[".toList ++ List.intercalate ", ".toList (l.map repr) ++ "]".toList

def noFunctions (py : Python) (covPath : Str) (keys : List Str) : Str :=
  "FAIL: ".toList ++ py.repr covPath ++ " has no per-function data (keys: ".toList ++
    reprList py.repr (sortByKey id keys) ++
    "). Generate it WITHOUT `--summary-only`.".toList

/-- The failing and the exempted functions, from the text of an llvm-cov export. -/
def gateFunctions (py : Python) (tree : SourceTree) (covPath cov : Str) :
    Except Abort (List Str × List Str) := do
  let coverage ←
    match py.loadJson cov with
    | some coverage => .ok coverage
    | none => .error (.gate .valueError)
  let coverageExport ← index (← key coverage.data "data") 0
  let funcs ←
    match coverageExport.functions with
    | some funcs => .ok funcs
    -- without the functions the gate would measure nothing
    | none => .error (.systemExit (noFunctions py covPath coverageExport.keys))
  let merged ← funcs.foldlM mergeFunction .empty
  return merged.entries.foldl (gateFunction tree) ([], [])

/-! ## The run -/

def print (s : Str) : Str := s ++ "\n".toList

def report (kind : String) (failing exempted : List Str) : Str :=
  (if exempted.isEmpty then [] else
    print ("cov:unreachable ".toList ++ kind.toList ++ " exemptions (".toList ++
      (toString exempted.length).toList ++ "):".toList) ++
    (sortByKey id exempted).flatMap fun e => print ("  - ".toList ++ e)) ++
  (if failing.isEmpty then [] else
    print ("\nUNCOVERED ".toList ++ kind.toList ++ " without a `// cov:unreachable` marker (".toList ++
      (toString failing.length).toList ++ "):".toList) ++
    (sortByKey id failing).flatMap fun x => print ("  x ".toList ++ x))

def failText : String :=
  "\nFAIL: cover these, or annotate provably-dead defensive arms with " ++
    "`// cov:unreachable: <the dominating invariant>`.\n" ++
    "Never delete or restructure a defensive guard to turn a line green (ADR-0008)."

def okText : String :=
  "\nOK: 100% line + function coverage, modulo annotated provably-unreachable arms."

def cannotRead (py : Python) (what : String) (path : Str) : Str :=
  print ("FAIL: cannot read the ".toList ++ what.toList ++ " at ".toList ++ py.repr path ++
    ": ".toList ++ py.osError path)

/-- Both gates on readable inputs: what is printed, and the exit code. -/
def runGates (py : Python) (tree : SourceTree) (covPath cov lcov : Str) : Except Abort (Str × ℕ) := do
  let (fnFail, fnExempt) ← gateFunctions py tree covPath cov
  let (lnFail, lnExempt) ← (gateLines py.toInt tree lcov).mapError .gate
  let out := report "functions" fnFail fnExempt ++ print [] ++ report "lines" lnFail lnExempt
  if !fnFail.isEmpty || !lnFail.isEmpty then
    return (out ++ print failText.toList, 1)
  return (out ++ print okText.toList, 0)

def covPath (argv : List Str) : Str := argv.getD 1 "cov.json".toList

def lcovPath (argv : List Str) : Str := argv.getD 2 "lcov.info".toList

/-- A missing input is a failure, not nothing to gate. -/
def main (py : Python) (tree : SourceTree) (argv : List Str) : Except Abort (Str × ℕ) :=
  match tree (covPath argv) with
  | none => .ok (cannotRead py "llvm-cov JSON" (covPath argv), 2)
  | some cov =>
    match tree (lcovPath argv) with
    | none => .ok (cannotRead py "LCOV report" (lcovPath argv), 2)
    | some lcov => runGates py tree (covPath argv) cov lcov

/-- The exit status: an exception and an exit with a message give 1. -/
def exitStatus : Except Abort (Str × ℕ) → ℕ
  | .ok (_, code) => code
  | .error _ => 1

end SignalDesktop.CoverageGate
