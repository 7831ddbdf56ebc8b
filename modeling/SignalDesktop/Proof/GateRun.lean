import SignalDesktop.Proof.FunctionGate

/-!
# What a run of the gate decides

A run reads two files: the instantiations of the functions and the records of the lines
(`Inputs`).

* `main_exitStatus`: the run passes iff both can be read and each function and each line in
  scope that is not covered has its marker; it gives 2 iff a file is missing.
* `main_congr`: what is printed and the exit code depend on the inputs only through what they
  merge to, and on the sources in scope.
* `gateLines_more_coverage`: a run with more hits exempts no line that was not exempted, so
  a line that fails keeps failing until it is covered itself.
-/

namespace SignalDesktop.CoverageGate

open PyStr StableSort

variable {py : Python} {tree tree' : SourceTree} {argv argv' : List Str} {is is' : List Instance}
  {records records' : List Record} {file : Str} {line : ℤ} {loc : Location}

/-! ## The lists of the line gate -/

def failingLines (tree : SourceTree) (records : List Record) : List (Str × ℤ) :=
  (items (perFile records)).filter fun x => !found tree (perFile records) x

def exemptLines (tree : SourceTree) (records : List Record) : List (Str × ℤ) :=
  (items (perFile records)).filter (found tree (perFile records))

theorem mem_failingLines : (file, line) ∈ failingLines tree records ↔
    inScope file = true ∧ Uncovered records file line ∧ ¬ Reached tree records file line := by
  unfold failingLines
  rw [List.mem_filter, mem_items_perFile, ← found_iff, Bool.not_eq_true', Bool.not_eq_true, and_assoc]

theorem mem_exemptLines : (file, line) ∈ exemptLines tree records ↔
    inScope file = true ∧ Uncovered records file line ∧ Reached tree records file line := by
  unfold exemptLines
  rw [List.mem_filter, mem_items_perFile, ← found_iff, and_assoc]

/-- **What the line gate returns**, and that it returns only on what it can read. -/
theorem gateLines_ok_iff {toInt : ToInt} {lcov : Str} {r : List Str × List Str} :
    gateLines toInt tree lcov = .ok r ↔
      ∃ records, readRecords toInt none (fileLines lcov) = .ok records ∧
        r = ((failingLines tree records).map shortOf, (exemptLines tree records).map shortOf) := by
  constructor
  · intro h
    cases hrec : readRecords toInt none (fileLines lcov) with
    | error e =>
      unfold gateLines at h
      rw [loadLines_eq, hrec] at h
      cases h
    | ok records =>
      rw [gateLines_eq hrec] at h
      cases h
      exact ⟨records, rfl, rfl⟩
  · rintro ⟨records, hrec, rfl⟩
    exact gateLines_eq hrec

/-! ## The exit status -/

/-- What a run reads from its two files. -/
def Inputs (py : Python) (tree : SourceTree) (argv : List Str) (is : List Instance)
    (records : List Record) : Prop :=
  ∃ cov lcov, tree (covPath argv) = some cov ∧ tree (lcovPath argv) = some lcov ∧
    ReadsInstances py cov is ∧ readRecords py.toInt none (fileLines lcov) = .ok records

/-- What a run prints and returns on its inputs. -/
def verdict (tree : SourceTree) (is : List Instance) (records : List Record) : Str × ℕ :=
  let fnFail := (failingFunctions tree is).map shortLoc
  let lnFail := (failingLines tree records).map shortOf
  let out := report "functions" fnFail ((exemptFunctions tree is).map shortLoc) ++ print [] ++
    report "lines" lnFail ((exemptLines tree records).map shortOf)
  if !fnFail.isEmpty || !lnFail.isEmpty then (out ++ print failText.toList, 1)
  else (out ++ print okText.toList, 0)

theorem runGates_ok_iff {path cov lcov : Str} {r : Str × ℕ} :
    runGates py tree path cov lcov = .ok r ↔ ∃ is records, ReadsInstances py cov is ∧
      readRecords py.toInt none (fileLines lcov) = .ok records ∧ r = verdict tree is records := by
  unfold runGates
  constructor
  · intro h
    cases hfn : gateFunctions py tree path cov with
    | error e =>
      rw [hfn] at h
      cases h
    | ok fns =>
      cases hln : gateLines py.toInt tree lcov with
      | error e =>
        rw [hfn, hln] at h
        cases h
      | ok lns =>
        rw [hfn, hln] at h
        obtain ⟨is, his, rfl⟩ := gateFunctions_ok_iff.1 hfn
        obtain ⟨records, hrec, rfl⟩ := gateLines_ok_iff.1 hln
        refine ⟨is, records, his, hrec, ?_⟩
        unfold verdict
        replace h : (if _ then _ else _) = _ := h
        split at h
        · rename_i hfail
          cases h
          rw [if_pos hfail]
        · rename_i hfail
          cases h
          rw [if_neg hfail]
  · rintro ⟨is, records, his, hrec, rfl⟩
    rw [gateFunctions_ok_iff.2 ⟨is, his, rfl⟩, gateLines_ok_iff.2 ⟨records, hrec, rfl⟩]
    unfold verdict
    show (if _ then _ else _) = _
    split
    · rename_i hfail
      rw [if_pos hfail]
      rfl
    · rename_i hfail
      rw [if_neg hfail]
      rfl

theorem main_of_inputs (h : Inputs py tree argv is records) : main py tree argv = .ok (verdict tree is records) := by
  obtain ⟨cov, lcov, hcov, hlcov, his, hrec⟩ := h
  unfold main
  rw [hcov, hlcov]
  exact runGates_ok_iff.2 ⟨is, records, his, hrec, rfl⟩

theorem verdict_code : (verdict tree is records).2 = 0 ↔
    failingFunctions tree is = [] ∧ failingLines tree records = [] := by
  unfold verdict
  simp only
  split
  · rename_i hfail
    rw [Bool.or_eq_true, Bool.not_eq_true', Bool.not_eq_true', List.isEmpty_eq_false_iff,
      List.isEmpty_eq_false_iff, ne_eq, ne_eq, List.map_eq_nil_iff, List.map_eq_nil_iff] at hfail
    refine iff_of_false (by simp) ?_
    rintro ⟨hF, hL⟩
    rcases hfail with h | h
    · exact h hF
    · exact h hL
  · rename_i hpass
    rw [Bool.not_eq_true, Bool.or_eq_false_iff, Bool.not_eq_false', Bool.not_eq_false',
      List.isEmpty_iff, List.isEmpty_iff, List.map_eq_nil_iff, List.map_eq_nil_iff] at hpass
    exact iff_of_true rfl hpass

theorem verdict_code_le (tree : SourceTree) (is : List Instance) (records : List Record) :
    (verdict tree is records).2 ≤ 1 := by
  unfold verdict
  simp only
  split <;> simp

theorem failingFunctions_eq_nil : failingFunctions tree is = [] ↔
    ∀ loc, inScope loc.1 = true → Unrun is loc → MarkedNear tree loc.1 loc.2.1 := by
  rw [List.eq_nil_iff_forall_not_mem]
  refine forall_congr' fun loc => ?_
  rw [mem_failingFunctions]
  tauto

theorem failingLines_eq_nil : failingLines tree records = [] ↔
    ∀ file line, inScope file = true → Uncovered records file line → Reached tree records file line := by
  rw [List.eq_nil_iff_forall_not_mem, Prod.forall]
  refine forall_congr' fun file => forall_congr' fun line => ?_
  rw [mem_failingLines]
  tauto

/-- A run on two readable files is the run of both gates. -/
theorem main_cases (py : Python) (tree : SourceTree) (argv : List Str) :
    (tree (covPath argv) = none ∨ tree (lcovPath argv) = none) ∧ exitStatus (main py tree argv) = 2 ∨
    (∃ is records, Inputs py tree argv is records ∧ main py tree argv = .ok (verdict tree is records)) ∨
    (∀ is records, ¬ Inputs py tree argv is records) ∧
      ¬ (tree (covPath argv) = none ∨ tree (lcovPath argv) = none) ∧ exitStatus (main py tree argv) = 1 := by
  unfold main
  cases hcov : tree (covPath argv) with
  | none => exact Or.inl ⟨Or.inl rfl, rfl⟩
  | some cov =>
    cases hlcov : tree (lcovPath argv) with
    | none => exact Or.inl ⟨Or.inr rfl, rfl⟩
    | some lcov =>
      simp only
      cases hrun : runGates py tree (covPath argv) cov lcov with
      | ok r =>
        obtain ⟨is, records, his, hrec, rfl⟩ := runGates_ok_iff.1 hrun
        exact Or.inr (Or.inl ⟨is, records, ⟨cov, lcov, hcov, hlcov, his, hrec⟩, rfl⟩)
      | error e =>
        refine Or.inr (Or.inr ⟨?_, by simp, rfl⟩)
        intro is records hin
        have hmain := main_of_inputs hin
        unfold main at hmain
        rw [hcov, hlcov] at hmain
        simp only [hrun] at hmain
        cases hmain

/-- **The exit status of a run.** It is 2 iff an input is missing, and 0 iff the inputs can be
read, each function in scope that has not run has a marker on its line or up to two lines
above it, and each uncovered line in scope is reached from a marker. In every other case,
with malformed inputs or an export without functions among them, it is 1. -/
theorem main_exitStatus (py : Python) (tree : SourceTree) (argv : List Str) :
    (exitStatus (main py tree argv) = 2 ↔ tree (covPath argv) = none ∨ tree (lcovPath argv) = none) ∧
    (exitStatus (main py tree argv) = 0 ↔ ∃ is records, Inputs py tree argv is records ∧
      (∀ loc, inScope loc.1 = true → Unrun is loc → MarkedNear tree loc.1 loc.2.1) ∧
      ∀ file line, inScope file = true → Uncovered records file line →
        Reached tree records file line) ∧
    exitStatus (main py tree argv) ≤ 2 := by
  have hpass : exitStatus (main py tree argv) = 0 ↔ ∃ is records, Inputs py tree argv is records ∧
      (verdict tree is records).2 = 0 := by
    constructor
    · intro h
      rcases main_cases py tree argv with ⟨-, hcode⟩ | ⟨is, records, hin, hmain⟩ | ⟨-, -, hcode⟩
      · omega
      · rw [hmain] at h
        exact ⟨is, records, hin, h⟩
      · omega
    · rintro ⟨is, records, hin, hcode⟩
      rw [main_of_inputs hin]
      exact hcode
  simp only [verdict_code, failingFunctions_eq_nil, failingLines_eq_nil] at hpass
  refine ⟨?_, hpass, ?_⟩
  · rcases main_cases py tree argv with ⟨hmissing, hcode⟩ | ⟨is, records, hin, hmain⟩ | ⟨-, hnot, hcode⟩
    · exact iff_of_true hcode hmissing
    · have hle := verdict_code_le tree is records
      obtain ⟨cov, lcov, hcov, hlcov, -⟩ := hin
      rw [hmain, hcov, hlcov]
      refine iff_of_false ?_ (by simp)
      show (verdict tree is records).2 ≠ 2
      omega
    · exact iff_of_false (by omega) hnot
  · rcases main_cases py tree argv with ⟨-, hcode⟩ | ⟨is, records, -, hmain⟩ | ⟨-, -, hcode⟩
    · omega
    · have hle := verdict_code_le tree is records
      rw [hmain]
      show (verdict tree is records).2 ≤ 2
      omega
    · omega

/-! ## The same coverage -/

/-- The inputs merge to the same counts: the same functions ran equally often, and the same
lines have the same hits. -/
structure SameCoverage (is is' : List Instance) (records records' : List Record) : Prop where
  compiled : ∀ loc, Compiled is' loc ↔ Compiled is loc
  total : ∀ loc, total is' loc = total is loc
  mapped : ∀ file line, Mapped records' file line ↔ Mapped records file line
  hits : ∀ file line, hits records' file line = hits records file line

/-- The sources in scope are the same. -/
def SameSources (tree tree' : SourceTree) : Prop := ∀ file, inScope file = true → tree' file = tree file

theorem text_congr (h : tree' file = tree file) : text tree' file line = text tree file line := by
  unfold text lines
  rw [h]

theorem marked_congr (h : tree' file = tree file) : Marked tree' file line ↔ Marked tree file line := by
  unfold Marked
  rw [text_congr h]

theorem markedNear_congr (h : tree' file = tree file) :
    MarkedNear tree' file line ↔ MarkedNear tree file line := by
  unfold MarkedNear
  simp only [marked_congr h]

theorem signature_congr (h : tree' file = tree file) :
    Signature tree' file line ↔ Signature tree file line := by
  unfold Signature
  rw [text_congr h]

theorem SameCoverage.uncovered_iff (hs : SameCoverage is is' records records') :
    Uncovered records' file line ↔ Uncovered records file line := by
  unfold Uncovered
  rw [hs.mapped, hs.hits]

theorem SameCoverage.reached_iff (hs : SameCoverage is is' records records') (h : tree' file = tree file) :
    Reached tree' records' file line ↔ Reached tree records file line := by
  have hdead : ∀ q, Dead tree' records' file q ↔ Dead tree records file q := by
    intro q
    unfold Dead Filler
    rw [hs.uncovered_iff, hs.mapped, text_congr h]
  unfold Reached
  simp only [marked_congr h, signature_congr h, hdead]

theorem SameCoverage.unrun_iff (hs : SameCoverage is is' records records') :
    Unrun is' loc ↔ Unrun is loc := by
  unfold Unrun
  rw [hs.compiled, hs.total]

theorem nodup_failingFunctions : (failingFunctions tree is).Nodup := nodup_unrun.filter _

theorem nodup_exemptFunctions : (exemptFunctions tree is).Nodup := nodup_unrun.filter _

theorem nodup_failingLines : (failingLines tree records).Nodup := nodup_items.filter _

theorem nodup_exemptLines : (exemptLines tree records).Nodup := nodup_items.filter _

theorem isEmpty_of_perm {l l' : List Str} (h : l'.Perm l) : l'.isEmpty = l.isEmpty := by
  rw [Bool.eq_iff_iff, List.isEmpty_iff, List.isEmpty_iff]
  constructor
  · rintro rfl
    exact h.nil_eq.symm
  · rintro rfl
    exact h.eq_nil

/-- A report is printed from the sorted lists. -/
theorem report_congr {kind : String} {F F' E E' : List Str} (hF : F'.Perm F) (hE : E'.Perm E) :
    report kind F' E' = report kind F E := by
  have hsorted : ∀ {l l' : List Str}, l'.Perm l → sortByKey id l' = sortByKey id l := by
    intro l l' h
    have hmap := map_key_sortByKey_of_perm id h
    rwa [List.map_id, List.map_id] at hmap
  unfold report
  rw [isEmpty_of_perm hF, isEmpty_of_perm hE, hsorted hF, hsorted hE, hF.length_eq, hE.length_eq]

theorem verdict_congr (hs : SameCoverage is is' records records') (hsrc : SameSources tree tree') :
    verdict tree' is' records' = verdict tree is records := by
  have hFf : (failingFunctions tree' is').Perm (failingFunctions tree is) := by
    refine (List.perm_ext_iff_of_nodup nodup_failingFunctions nodup_failingFunctions).2 fun loc => ?_
    rw [mem_failingFunctions, mem_failingFunctions]
    refine and_congr_right fun hscope => ?_
    rw [hs.unrun_iff, markedNear_congr (hsrc _ hscope)]
  have hEf : (exemptFunctions tree' is').Perm (exemptFunctions tree is) := by
    refine (List.perm_ext_iff_of_nodup nodup_exemptFunctions nodup_exemptFunctions).2 fun loc => ?_
    rw [mem_exemptFunctions, mem_exemptFunctions]
    refine and_congr_right fun hscope => ?_
    rw [hs.unrun_iff, markedNear_congr (hsrc _ hscope)]
  have hFl : (failingLines tree' records').Perm (failingLines tree records) := by
    refine (List.perm_ext_iff_of_nodup nodup_failingLines nodup_failingLines).2 ?_
    rintro ⟨file, line⟩
    rw [mem_failingLines, mem_failingLines]
    refine and_congr_right fun hscope => ?_
    rw [hs.uncovered_iff, hs.reached_iff (hsrc _ hscope)]
  have hEl : (exemptLines tree' records').Perm (exemptLines tree records) := by
    refine (List.perm_ext_iff_of_nodup nodup_exemptLines nodup_exemptLines).2 ?_
    rintro ⟨file, line⟩
    rw [mem_exemptLines, mem_exemptLines]
    refine and_congr_right fun hscope => ?_
    rw [hs.uncovered_iff, hs.reached_iff (hsrc _ hscope)]
  unfold verdict
  simp only
  rw [report_congr (hFf.map shortLoc) (hEf.map shortLoc), report_congr (hFl.map shortOf) (hEl.map shortOf),
    isEmpty_of_perm (hFf.map shortLoc), isEmpty_of_perm (hFl.map shortOf)]

/-- **A run depends on the merged coverage only.** Two runs whose inputs merge to the same
counts, on sources that are the same in scope, print the same text and return the same code:
neither the order of the functions, files, sections and records nor how a count is split over
instantiations and records matters. -/
theorem main_congr (h : Inputs py tree argv is records) (h' : Inputs py tree' argv' is' records')
    (hs : SameCoverage is is' records records') (hsrc : SameSources tree tree') :
    main py tree' argv' = main py tree argv := by
  rw [main_of_inputs h, main_of_inputs h', verdict_congr hs hsrc]

/-- Reordered inputs merge to the same counts. -/
theorem sameCoverage_of_perm (his : is'.Perm is) (hrec : records'.Perm records) :
    SameCoverage is is' records records' where
  compiled loc := by
    unfold Compiled
    simp only [his.mem_iff]
  total loc := by
    unfold total
    refine (his.filter _).foldr_eq' ?_ 0
    intro i _ j _ n
    omega
  mapped file line := by
    unfold Mapped
    simp only [hrec.mem_iff]
  hits file line := by
    unfold hits counts
    refine ((hrec.filter _).map _).foldl_eq' ?_ 0
    intro x _ y _ n
    omega

/-! Two runs on the sample: the second has its sections split and its records reordered. -/

def sampleLcov : Str := "SF:/w/core/src/lib.rs\nDA:1,2\nDA:2,0\nDA:3,0\nDA:4,0\nend_of_record\n".toList

def splitLcov : Str := ("SF:/w/core/src/lib.rs\nDA:4,0\nend_of_record\n" ++
  "SF:/w/core/src/lib.rs\nDA:3,0\nDA:1,2\nDA:2,0\nend_of_record\n").toList

def sampleRecords : List Record :=
  [⟨sampleFile, 1, 2⟩, ⟨sampleFile, 2, 0⟩, ⟨sampleFile, 3, 0⟩, ⟨sampleFile, 4, 0⟩]

def splitRecords : List Record :=
  [⟨sampleFile, 4, 0⟩, ⟨sampleFile, 3, 0⟩, ⟨sampleFile, 1, 2⟩, ⟨sampleFile, 2, 0⟩]

/-- The sample's sources, with the two inputs beside them. -/
def runTree (lcov : Str) : SourceTree := fun file =>
  if file = "cov.json".toList then some sampleCov
  else if file = "lcov.info".toList then some lcov
  else sampleTree file

theorem runTree_inputs {lcov : Str} (records : List Record)
    (h : readRecords decimal none (fileLines lcov) = .ok records) :
    Inputs samplePython (runTree lcov) ["coverage-gate.py".toList] sampleInstances records := by
  refine ⟨sampleCov, lcov, if_pos rfl, ?_, ?_, h⟩
  · unfold runTree
    rw [if_neg (by decide), if_pos (by decide)]
  · exact ⟨_, [], _, loadJson_sampleCov, rfl, readInstances_sample⟩

theorem main_congr_sample :
    main samplePython (runTree splitLcov) ["coverage-gate.py".toList] =
      main samplePython (runTree sampleLcov) ["coverage-gate.py".toList] := by
  refine main_congr (runTree_inputs sampleRecords (by decide +kernel))
    (runTree_inputs splitRecords (by decide +kernel))
    (sameCoverage_of_perm (List.Perm.refl _) (by decide +kernel)) ?_
  intro file hscope
  unfold runTree
  have hne : file ≠ "lcov.info".toList := by
    rintro rfl
    exact absurd hscope (by decide +kernel)
  rw [if_neg hne, if_neg hne]

/-! ## More coverage -/

/-- The same lines, each with at least as many hits. -/
structure Covers (records records' : List Record) : Prop where
  mapped : ∀ file line, Mapped records' file line ↔ Mapped records file line
  hits : ∀ file line, hits records file line ≤ hits records' file line

theorem hits_nonneg (records : List Record) (file : Str) (line : ℤ) : 0 ≤ hits records file line :=
  le_foldl_max _ 0

theorem Covers.uncovered (hc : Covers records records') (h : Uncovered records' file line) :
    Uncovered records file line := by
  obtain ⟨hm, hzero⟩ := h
  have hle := hc.hits file line
  have hge := hits_nonneg records file line
  exact ⟨(hc.mapped file line).1 hm, by omega⟩

theorem Covers.reached (hc : Covers records records') (h : Reached tree records' file line) :
    Reached tree records file line := by
  obtain ⟨p, hp, hm, hq⟩ := h
  refine ⟨p, hp, hm, fun q h₁ h₂ => ?_⟩
  obtain ⟨hdead, hsig⟩ := hq q h₁ h₂
  refine ⟨?_, hsig⟩
  rcases hdead with hunc | ⟨hnot, hfill⟩
  · exact Or.inl (hc.uncovered hunc)
  · exact Or.inr ⟨fun hmapped => hnot ((hc.mapped _ _).2 hmapped), hfill⟩

/-- The record with more hits. -/
def Raised (r r' : Record) : Prop := r'.file = r.file ∧ r'.line = r.line ∧ r.count ≤ r'.count

theorem foldl_max_mono {l l' : List ℤ} (h : List.Forall₂ (· ≤ ·) l l') :
    ∀ {a b : ℤ}, a ≤ b → l.foldl max a ≤ l'.foldl max b := by
  induction h with
  | nil => exact id
  | cons hxy _ ih =>
    intro a b hab
    exact ih (by omega)

/-- Raising counts covers more. -/
theorem covers_of_raised (h : List.Forall₂ Raised records records') : Covers records records' := by
  have hcounts : ∀ file line,
      List.Forall₂ (· ≤ ·) (counts records file line) (counts records' file line) := by
    intro file line
    unfold counts
    induction h with
    | nil => exact List.Forall₂.nil
    | cons hr _ ih =>
      obtain ⟨hfile, hline, hle⟩ := hr
      rw [List.filter_cons, List.filter_cons, hfile, hline]
      split
      · exact List.Forall₂.cons hle ih
      · exact ih
  refine ⟨fun file line => ?_, fun file line => foldl_max_mono (hcounts file line) le_rfl⟩
  rw [← counts_ne_nil_iff, ← counts_ne_nil_iff, not_iff_not, ← List.length_eq_zero_iff,
    ← List.length_eq_zero_iff, (hcounts file line).length_eq]

/-- **More coverage exempts nothing new.** Given the same lines with at least as many hits,
the gate exempts only lines that it exempted before, a line that failed keeps failing until
it is covered itself, and a line that fails failed before or was exempted before. -/
theorem gateLines_more_coverage {toInt : ToInt} (tree : SourceTree) (lcov lcov' : Str)
    (hlcov : readRecords toInt none (fileLines lcov) = .ok records)
    (hlcov' : readRecords toInt none (fileLines lcov') = .ok records') (hc : Covers records records') :
    gateLines toInt tree lcov =
      .ok ((failingLines tree records).map shortOf, (exemptLines tree records).map shortOf) ∧
    gateLines toInt tree lcov' =
      .ok ((failingLines tree records').map shortOf, (exemptLines tree records').map shortOf) ∧
    (∀ x ∈ exemptLines tree records', x ∈ exemptLines tree records) ∧
    (∀ x ∈ failingLines tree records, x ∈ failingLines tree records' ∨ 0 < hits records' x.1 x.2) ∧
    ∀ x ∈ failingLines tree records', x ∈ failingLines tree records ∨ x ∈ exemptLines tree records := by
  refine ⟨gateLines_eq hlcov, gateLines_eq hlcov', ?_, ?_, ?_⟩
  · rintro ⟨file, line⟩ hx
    obtain ⟨hscope, hunc, hreach⟩ := mem_exemptLines.1 hx
    exact mem_exemptLines.2 ⟨hscope, hc.uncovered hunc, hc.reached hreach⟩
  · rintro ⟨file, line⟩ hx
    obtain ⟨hscope, ⟨hmapped, -⟩, hnot⟩ := mem_failingLines.1 hx
    have hge := hits_nonneg records' file line
    rcases eq_or_lt_of_le hge with hzero | hpos
    · refine Or.inl (mem_failingLines.2 ⟨hscope, ⟨(hc.mapped _ _).2 hmapped, hzero.symm⟩, ?_⟩)
      exact fun hreach => hnot (hc.reached hreach)
    · exact Or.inr hpos
  · rintro ⟨file, line⟩ hx
    obtain ⟨hscope, hunc, -⟩ := mem_failingLines.1 hx
    by_cases hreach : Reached tree records file line
    · exact Or.inr (mem_exemptLines.2 ⟨hscope, hc.uncovered hunc, hreach⟩)
    · exact Or.inl (mem_failingLines.2 ⟨hscope, hc.uncovered hunc, hreach⟩)

/-! Covering line 3 of the sample: the marker on line 2 no longer exempts line 4. -/

def coveredLcov : Str := "SF:/w/core/src/lib.rs\nDA:1,2\nDA:2,0\nDA:3,1\nDA:4,0\nend_of_record\n".toList

def coveredRecords : List Record :=
  [⟨sampleFile, 1, 2⟩, ⟨sampleFile, 2, 0⟩, ⟨sampleFile, 3, 1⟩, ⟨sampleFile, 4, 0⟩]

theorem coveredRecords_covers : Covers sampleRecords coveredRecords :=
  covers_of_raised (.cons ⟨rfl, rfl, by decide⟩ (.cons ⟨rfl, rfl, by decide⟩
    (.cons ⟨rfl, rfl, by decide⟩ (.cons ⟨rfl, rfl, by decide⟩ .nil))))

theorem gateLines_more_coverage_sample :
    gateLines decimal sampleTree sampleLcov =
      .ok ([], ["lib.rs:2".toList, "lib.rs:3".toList, "lib.rs:4".toList]) ∧
    gateLines decimal sampleTree coveredLcov = .ok (["lib.rs:4".toList], ["lib.rs:2".toList]) ∧
    ∀ x ∈ exemptLines sampleTree coveredRecords, x ∈ exemptLines sampleTree sampleRecords := by
  obtain ⟨-, -, hexempt, -⟩ := @gateLines_more_coverage _ _ decimal sampleTree sampleLcov coveredLcov
    (by decide +kernel) (by decide +kernel) coveredRecords_covers
  exact ⟨by decide +kernel, by decide +kernel, hexempt⟩

end SignalDesktop.CoverageGate
