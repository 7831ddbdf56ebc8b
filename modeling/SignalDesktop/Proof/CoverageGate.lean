import SignalDesktop.Proof.CoverageReport

/-!
# Which lines the gate exempts

A marker exempts the lines of its **dead region**: from the marker to the line there are
only dead lines, the marker's own included, and no further signature (`Exempt`). The
upward search asks for the marker before it asks whether the line is dead, so it also finds
a marker on a live line (`Reached`).

* `search_iff`: the search decides `Reached`.
* `gateLines_sorts_iff`: the gate exempts the lines of the dead regions and no others iff no
  marker on a live line is reached before another one.
* `gateLines_leaks`: such a marker exempts a line.
-/

namespace SignalDesktop.CoverageGate

open PyStr

variable {toInt : ToInt} {tree : SourceTree} {records : List Record} {d : Dict Str Hits} {h : Hits}
  {file : Str} {line p q count : ℤ}

/-! ## Regions -/

def Marked (tree : SourceTree) (file : Str) (line : ℤ) : Prop := marker <:+: text tree file line

/-- The line starts with a `fn` signature. -/
def Signature (tree : SourceTree) (file : Str) (line : ℤ) : Prop :=
  ∃ w, w <+: strip (text tree file line) ∧ fnSig.Matches w

/-- A blank line or a `//` comment. -/
def Filler (tree : SourceTree) (file : Str) (line : ℤ) : Prop :=
  strip (text tree file line) = [] ∨ "//".toList <+: strip (text tree file line)

/-- Mapped with zero hits. -/
def Uncovered (records : List Record) (file : Str) (line : ℤ) : Prop :=
  Mapped records file line ∧ hits records file line = 0

def Dead (tree : SourceTree) (records : List Record) (file : Str) (line : ℤ) : Prop :=
  Uncovered records file line ∨ ¬ Mapped records file line ∧ Filler tree file line

/-- **The line is in the dead region of a marker.** -/
def Exempt (tree : SourceTree) (records : List Record) (file : Str) (line : ℤ) : Prop :=
  ∃ p ≤ line, Marked tree file p ∧ (∀ q, p ≤ q → q ≤ line → Dead tree records file q) ∧
    ∀ q, p < q → q ≤ line → ¬ Signature tree file q

/-- A marker is reached from the line: its own line may be live. -/
def Reached (tree : SourceTree) (records : List Record) (file : Str) (line : ℤ) : Prop :=
  ∃ p ≤ line, Marked tree file p ∧
    ∀ q, p < q → q ≤ line → Dead tree records file q ∧ ¬ Signature tree file q

/-- **No marker leaks**: from a marker on a live line down to an uncovered line, that line
included, there is another marker, a live line or a signature. -/
def NoLeak (tree : SourceTree) (records : List Record) : Prop :=
  ∀ file p line, inScope file = true → Marked tree file p → ¬ Dead tree records file p →
    Uncovered records file line → p < line →
    ∃ q, p < q ∧ q ≤ line ∧
      (Marked tree file q ∨ ¬ Dead tree records file q ∨ Signature tree file q)

theorem Exempt.reached (he : Exempt tree records file line) : Reached tree records file line := by
  obtain ⟨p, hp, hm, hdead, hsig⟩ := he
  exact ⟨p, hp, hm, fun q h₁ h₂ => ⟨hdead q (by omega) h₂, hsig q h₁ h₂⟩⟩

/-- A line without a text has no marker. -/
theorem Marked.pos (hm : Marked tree file p) : 1 ≤ p := by
  unfold Marked text at hm
  split at hm
  · omega
  · have hnil : marker = [] := List.infix_nil.1 hm
    cases hnil

theorem reached_iff :
    Reached tree records file line ↔
      Marked tree file line ∨
        Dead tree records file line ∧ ¬ Signature tree file line ∧
          Reached tree records file (line - 1) := by
  constructor
  · rintro ⟨p, hp, hm, hq⟩
    rcases eq_or_lt_of_le hp with rfl | hlt
    · exact Or.inl hm
    · obtain ⟨hdead, hsig⟩ := hq line hlt le_rfl
      exact Or.inr ⟨hdead, hsig, p, by omega, hm, fun q h₁ h₂ => hq q h₁ (by omega)⟩
  · rintro (hm | ⟨hdead, hsig, p, hp, hm, hq⟩)
    · exact ⟨line, le_rfl, hm, fun q h₁ h₂ => by omega⟩
    · refine ⟨p, by omega, hm, fun q h₁ h₂ => ?_⟩
      rcases eq_or_lt_of_le h₂ with rfl | hlt
      · exact ⟨hdead, hsig⟩
      · exact hq q h₁ (by omega)

/-- **Leaks are the lines reached from outside their dead region.** -/
theorem noLeak_iff :
    NoLeak tree records ↔
      ∀ file line, inScope file = true → Uncovered records file line →
        Reached tree records file line → Exempt tree records file line := by
  constructor
  · intro hno file line hscope hunc hreach
    obtain ⟨p, hp, hm, hq⟩ := hreach
    have hexempt : ∀ p', p ≤ p' → p' ≤ line → Marked tree file p' → Dead tree records file p' →
        Exempt tree records file line := by
      intro p' hle hle' hm' hdead
      refine ⟨p', hle', hm', fun q h₁ h₂ => ?_, fun q h₁ h₂ => (hq q (by omega) h₂).2⟩
      rcases eq_or_lt_of_le h₁ with rfl | hlt
      · exact hdead
      · exact (hq q (by omega) h₂).1
    by_cases hdead : Dead tree records file p
    · exact hexempt p le_rfl hp hm hdead
    · -- the line itself is dead, so it is not the marker's
      have hne : p ≠ line := by
        rintro rfl
        exact hdead (Or.inl hunc)
      obtain ⟨q, h₁, h₂, hstop⟩ := hno file p line hscope hm hdead hunc (by omega)
      obtain ⟨hqdead, hqsig⟩ := hq q h₁ h₂
      rcases hstop with hqm | hlive | hsig
      · exact hexempt q (by omega) h₂ hqm hqdead
      · exact absurd hqdead hlive
      · exact absurd hsig hqsig
  · intro hall file p line hscope hm hlive hunc hlt
    by_contra hnone
    have hbelow : ∀ q, p < q → q ≤ line →
        ¬ Marked tree file q ∧ Dead tree records file q ∧ ¬ Signature tree file q := by
      intro q h₁ h₂
      refine ⟨fun hqm => hnone ⟨q, h₁, h₂, Or.inl hqm⟩, ?_, fun hsig => hnone ⟨q, h₁, h₂, Or.inr (Or.inr hsig)⟩⟩
      by_contra hqlive
      exact hnone ⟨q, h₁, h₂, Or.inr (Or.inl hqlive)⟩
    obtain ⟨p', hp', hm', hdead, -⟩ :=
      hall file line hscope hunc ⟨p, by omega, hm, fun q h₁ h₂ => (hbelow q h₁ h₂).2⟩
    -- a marker of the region is neither below `p` nor at or above it
    by_cases hle : p' ≤ p
    · exact hlive (hdead p hle (by omega))
    · exact (hbelow p' (by omega) hp').1 hm'

/-! ## The search -/

theorem le_foldl_max (l : List ℤ) : ∀ a : ℤ, a ≤ l.foldl max a := by
  induction l with
  | nil =>
    intro a
    exact le_rfl
  | cons x l ih =>
    intro a
    exact le_trans (le_max_left a x) (ih (max a x))

/-- The counts the search is given are those of the file. -/
def CountsOf (h : Hits) (records : List Record) (file : Str) : Prop :=
  ∀ line count, h.get? line = some count ↔ Mapped records file line ∧ hits records file line = count

theorem CountsOf.mapped_iff (hh : CountsOf h records file) :
    mapped h line = true ↔ Mapped records file line := by
  unfold mapped
  rw [Option.isSome_iff_exists]
  constructor
  · rintro ⟨count, hcount⟩
    exact ((hh line count).1 hcount).1
  · intro hm
    exact ⟨_, (hh line _).2 ⟨hm, rfl⟩⟩

/-- The search's test of a mapped line. -/
theorem CountsOf.inRegion_iff (hh : CountsOf h records file) :
    (mapped h line && !covered h line) = true ↔ Uncovered records file line := by
  rw [Bool.and_eq_true, hh.mapped_iff]
  refine and_congr_right fun hm => ?_
  have hget : h.get? line = some (hits records file line) := (hh line _).2 ⟨hm, rfl⟩
  have hnonneg : 0 ≤ hits records file line := le_foldl_max _ 0
  unfold covered
  simp only [hget, Bool.not_eq_true', decide_eq_false_iff_not]
  omega

theorem CountsOf.dead_iff (hh : CountsOf h records file) :
    ((mapped h line && !covered h line) ||
        (!mapped h line && ((strip (text tree file line)).isEmpty ||
          "//".toList.isPrefixOf (strip (text tree file line))))) = true ↔
      Dead tree records file line := by
  have hunmapped : (!mapped h line) = true ↔ ¬ Mapped records file line := by
    rw [← hh.mapped_iff, Bool.not_eq_true', Bool.not_eq_true]
  rw [Bool.or_eq_true, hh.inRegion_iff, Bool.and_eq_true, hunmapped, Bool.or_eq_true,
    List.isEmpty_iff, List.isPrefixOf_iff_prefix]
  rfl

/-- **One step of the search**, its tests in the order they are made. -/
theorem search_succ_iff (hh : CountsOf h records file) (n : ℕ) :
    search tree file h (n + 1) = true ↔
      Marked tree file (n + 1) ∨
        Dead tree records file (n + 1) ∧ ¬ Signature tree file (n + 1) ∧
          search tree file h n = true := by
  have hmark : markedAt tree file (n + 1) = true ↔ Marked tree file (n + 1) := contains_iff
  have hsig : fnSig.isMatch (strip (text tree file (n + 1))) = true ↔ Signature tree file (n + 1) :=
    Regex.isMatch_iff
  rw [← hmark, ← hsig, ← hh.dead_iff]
  simp only [search]
  by_cases hm : markedAt tree file (n + 1) = true
  · rw [if_pos hm]
    exact iff_of_true rfl (Or.inl hm)
  rw [if_neg hm]
  by_cases hs : fnSig.isMatch (strip (text tree file (n + 1))) = true
  · rw [if_pos hs]
    refine iff_of_false (by simp) ?_
    rintro (hmarked | ⟨-, hno, -⟩)
    · exact hm hmarked
    · exact hno hs
  rw [if_neg hs]
  split
  · rename_i hlive
    rw [Bool.not_eq_true'] at hlive
    refine iff_of_false (by simp) ?_
    rintro (hmarked | ⟨hdead, -⟩)
    · exact hm hmarked
    · rw [hlive] at hdead
      cases hdead
  · rename_i hdead
    rw [Bool.not_eq_true', Bool.not_eq_false] at hdead
    constructor
    · intro hsearch
      exact Or.inr ⟨hdead, hs, hsearch⟩
    · rintro (hmarked | ⟨-, -, hsearch⟩)
      · exact absurd hmarked hm
      · exact hsearch

/-- **The search finds the markers that are reached.** -/
theorem search_iff (hh : CountsOf h records file) (n : ℕ) :
    search tree file h n = true ↔ Reached tree records file n := by
  induction n with
  | zero =>
    have hnot : ¬ Reached tree records file (0 : ℕ) := by
      rintro ⟨p, hp, hm, -⟩
      have := hm.pos
      omega
    unfold search
    exact iff_of_false (by simp) hnot
  | succ n ih =>
    have hn : ((n + 1 : ℕ) : ℤ) = (n : ℤ) + 1 := by omega
    have hpred : (n : ℤ) + 1 - 1 = n := by omega
    rw [search_succ_iff hh, reached_iff, hn, hpred, ih]

/-! ## The lists -/

/-- A line of a file, as it is reported. -/
def shortOf (x : Str × ℤ) : Str := short x.1 x.2

/-- The uncovered lines in scope, in the order the gate takes them. -/
def items (d : Dict Str Hits) : List (Str × ℤ) :=
  (d.entries.filter fun e => inScope e.1).flatMap fun e => (zeroLines e.2).map fun line => (e.1, line)

/-- The search from a line, with the counts of its file. -/
def found (tree : SourceTree) (d : Dict Str Hits) (x : Str × ℤ) : Bool :=
  search tree x.1 ((d.get? x.1).getD .empty) x.2.toNat

/-- A loop that sorts elements into two lists. -/
theorem foldl_sort {α β : Type} (p : α → Bool) (f : α → β) (l : List α) : ∀ acc : List β × List β,
    l.foldl (fun acc a => if p a then (acc.1, acc.2 ++ [f a]) else (acc.1 ++ [f a], acc.2)) acc =
      (acc.1 ++ (l.filter fun a => !p a).map f, acc.2 ++ (l.filter p).map f) := by
  induction l with
  | nil =>
    intro acc
    simp
  | cons a l ih =>
    intro acc
    rw [List.foldl_cons, ih]
    by_cases hp : p a = true
    · simp [hp]
    · simp [hp]

/-- **The gate sorts the uncovered lines by the search.** -/
theorem foldl_gateFile :
    d.entries.foldl (gateFile tree) ([], []) =
      (((items d).filter fun x => !found tree d x).map shortOf,
        ((items d).filter (found tree d)).map shortOf) := by
  have hsort := foldl_sort (found tree d) shortOf (items d) ([], [])
  simp only [List.nil_append] at hsort
  rw [← hsort, items, List.foldl_flatMap, List.foldl_filter]
  refine List.foldl_ext _ _ _ fun acc e he => ?_
  obtain ⟨file, h⟩ := e
  have hget : d.get? file = some h := Dict.mem_entries_iff.1 he
  unfold gateFile
  split
  · rw [List.foldl_map]
    refine List.foldl_ext _ _ _ fun acc line _ => ?_
    simp only [gateLine, found, hget, Option.getD_some, shortOf]
  · rfl

theorem mem_zeroLines : line ∈ zeroLines h ↔ h.get? line = some 0 := by
  unfold zeroLines
  rw [(StableSort.sortByKey_perm id _).mem_iff, List.mem_map, ← Dict.mem_entries_iff]
  constructor
  · rintro ⟨⟨line', count⟩, he, rfl⟩
    obtain ⟨hmem, hzero⟩ := List.mem_filter.1 he
    rw [decide_eq_true_eq] at hzero
    have hcount : count = 0 := hzero
    rwa [hcount] at hmem
  · intro hmem
    exact ⟨(line, 0), List.mem_filter.2 ⟨hmem, by simp⟩, rfl⟩

theorem nodup_zeroLines : (zeroLines h).Nodup := by
  unfold zeroLines
  rw [(StableSort.sortByKey_perm id _).nodup_iff]
  exact h.nodup.sublist (List.filter_sublist.map Prod.fst)

theorem mem_items : (file, line) ∈ items d ↔ inScope file = true ∧ hitsOf d file line = some 0 := by
  unfold items hitsOf
  rw [List.mem_flatMap]
  constructor
  · rintro ⟨⟨file', h⟩, he, hx⟩
    obtain ⟨hmem, hscope⟩ := List.mem_filter.1 he
    obtain ⟨line', hline, heq⟩ := List.mem_map.1 hx
    obtain ⟨rfl, rfl⟩ := Prod.mk.inj heq
    rw [Dict.mem_entries_iff.1 hmem]
    exact ⟨hscope, mem_zeroLines.1 hline⟩
  · rintro ⟨hscope, hzero⟩
    obtain ⟨h, hget, hline⟩ := Option.bind_eq_some_iff.1 hzero
    refine ⟨(file, h), List.mem_filter.2 ⟨Dict.mem_entries_iff.2 hget, hscope⟩, ?_⟩
    exact List.mem_map.2 ⟨line, mem_zeroLines.2 hline, rfl⟩

theorem nodup_items : (items d).Nodup := by
  unfold items
  rw [List.nodup_flatMap]
  constructor
  · intro e _
    exact nodup_zeroLines.map fun a b hab => (Prod.mk.inj hab).2
  · -- lines of different entries are of different files
    have hne : d.entries.Pairwise fun e e' => e.1 ≠ e'.1 := List.pairwise_map.1 d.nodup
    refine (hne.sublist List.filter_sublist).imp fun {e e'} hfile x hx hx' => ?_
    obtain ⟨line, -, rfl⟩ := List.mem_map.1 hx
    obtain ⟨line', -, heq⟩ := List.mem_map.1 hx'
    exact hfile (Prod.mk.inj heq).1.symm

/-! ## The gate -/

/-- **The lists are right**: they name lines that are different, the exempted ones are the
uncovered lines in scope that are in a dead region, and the failing ones are the others. -/
def Sorts (tree : SourceTree) (records : List Record) (failing exempted : List Str) : Prop :=
  ∃ F E : List (Str × ℤ), failing = F.map shortOf ∧ exempted = E.map shortOf ∧ (F ++ E).Nodup ∧
    (∀ file line, (file, line) ∈ E ↔
      inScope file = true ∧ Uncovered records file line ∧ Exempt tree records file line) ∧
    ∀ file line, (file, line) ∈ F ↔
      inScope file = true ∧ Uncovered records file line ∧ ¬ Exempt tree records file line

theorem countsOf_perFile (records : List Record) (file : Str) :
    CountsOf (((perFile records).get? file).getD .empty) records file := by
  intro line count
  rw [← hitsOf_perFile_iff]
  unfold hitsOf
  cases (perFile records).get? file <;> rfl

theorem found_iff : found tree (perFile records) (file, line) = true ↔ Reached tree records file line := by
  unfold found
  rw [search_iff (countsOf_perFile records file)]
  rcases lt_or_ge line 0 with hneg | hnonneg
  · -- there is no marker at or above such a line
    have hnot : ∀ n : ℤ, n ≤ 0 → ¬ Reached tree records file n := by
      rintro n hn ⟨p, hp, hm, -⟩
      have := hm.pos
      omega
    exact iff_of_false (hnot _ (by omega)) (hnot line (by omega))
  · rw [Int.toNat_of_nonneg hnonneg]

theorem mem_items_perFile :
    (file, line) ∈ items (perFile records) ↔ inScope file = true ∧ Uncovered records file line := by
  rw [mem_items, hitsOf_perFile_iff, Uncovered]

theorem gateLines_eq {report : Str}
    (hreport : readRecords toInt none (fileLines report) = .ok records) :
    gateLines toInt tree report =
      .ok (((items (perFile records)).filter fun x => !found tree (perFile records) x).map shortOf,
        ((items (perFile records)).filter (found tree (perFile records))).map shortOf) := by
  unfold gateLines
  rw [loadLines_eq, hreport, ← foldl_gateFile]
  rfl

/-- Two filters, one within the other, that keep equally many elements. -/
theorem filter_eq_of_length {α : Type} {l : List α} {P Q : α → Bool} (hsub : ∀ a, P a → Q a)
    (hlen : (l.filter P).length = (l.filter Q).length) : ∀ a ∈ l, Q a → P a := by
  intro a ha hQ
  have heq := (List.monotone_filter_right l hsub).eq_of_length hlen
  have hmem : a ∈ l.filter P := by
    rw [heq]
    exact List.mem_filter.2 ⟨ha, hQ⟩
  exact (List.mem_filter.1 hmem).2

/-- If the lists are right, each line reached is in a dead region: as many lines are reached
as the exempted list names. -/
theorem Sorts.exempt (hs : Sorts tree records
      (((items (perFile records)).filter fun x => !found tree (perFile records) x).map shortOf)
      (((items (perFile records)).filter (found tree (perFile records))).map shortOf))
    (hscope : inScope file = true) (hunc : Uncovered records file line)
    (hreach : Reached tree records file line) : Exempt tree records file line := by
  classical
  set l := items (perFile records)
  have hl : l.Nodup := nodup_items
  obtain ⟨F, E, -, hE, hnodup, hmemE, -⟩ := hs
  have hperm : E.Perm (l.filter fun x => Exempt tree records x.1 x.2) := by
    refine (List.perm_ext_iff_of_nodup (List.nodup_append.1 hnodup).2.1 (hl.filter _)).2 ?_
    rintro ⟨file, line⟩
    rw [hmemE, List.mem_filter, mem_items_perFile, decide_eq_true_eq, and_assoc]
  have hlen : (l.filter fun x => Exempt tree records x.1 x.2).length =
      (l.filter (found tree (perFile records))).length := by
    have hmap := congrArg List.length hE
    rw [List.length_map, List.length_map] at hmap
    rw [← hperm.length_eq, hmap]
  have hsub : ∀ x : Str × ℤ, decide (Exempt tree records x.1 x.2) = true →
      found tree (perFile records) x = true := by
    rintro ⟨file, line⟩ hx
    exact found_iff.2 (of_decide_eq_true hx).reached
  have hmem : (file, line) ∈ l := mem_items_perFile.2 ⟨hscope, hunc⟩
  exact of_decide_eq_true (filter_eq_of_length hsub hlen (file, line) hmem (found_iff.2 hreach))

/-- If each line reached is in a dead region, the lists are right. -/
theorem sorts_of_forall (hall : ∀ file line, inScope file = true → Uncovered records file line →
      Reached tree records file line → Exempt tree records file line) :
    Sorts tree records
      (((items (perFile records)).filter fun x => !found tree (perFile records) x).map shortOf)
      (((items (perFile records)).filter (found tree (perFile records))).map shortOf) := by
  have hl : (items (perFile records)).Nodup := nodup_items
  have hfound : ∀ file line, inScope file = true → Uncovered records file line →
      (found tree (perFile records) (file, line) = true ↔ Exempt tree records file line) := by
    intro file line hscope hunc
    rw [found_iff]
    exact ⟨hall file line hscope hunc, Exempt.reached⟩
  refine ⟨_, _, rfl, rfl, ?_, ?_, ?_⟩
  · refine List.nodup_append.2 ⟨hl.filter _, hl.filter _, ?_⟩
    rintro x hx y hy rfl
    have hno := (List.mem_filter.1 hx).2
    rw [(List.mem_filter.1 hy).2] at hno
    cases hno
  · intro file line
    rw [List.mem_filter, mem_items_perFile, and_assoc]
    exact and_congr_right fun hscope => and_congr_right fun hunc => hfound file line hscope hunc
  · intro file line
    rw [List.mem_filter, mem_items_perFile, and_assoc]
    refine and_congr_right fun hscope => and_congr_right fun hunc => ?_
    rw [← hfound file line hscope hunc, Bool.not_eq_true', Bool.not_eq_true]

/-- **The gate exempts the lines of the dead regions and no others iff no marker leaks**, for
any sources and any report that can be read. -/
theorem gateLines_sorts_iff (toInt : ToInt) (tree : SourceTree) (report : Str) (records : List Record)
    (hreport : readRecords toInt none (fileLines report) = .ok records) :
    (∃ failing exempted, gateLines toInt tree report = .ok (failing, exempted) ∧
        Sorts tree records failing exempted) ↔ NoLeak tree records := by
  rw [gateLines_eq hreport, noLeak_iff]
  constructor
  · rintro ⟨failing, exempted, hgate, hs⟩ file line hscope hunc hreach
    obtain ⟨rfl, rfl⟩ := Prod.mk.inj (Except.ok.inj hgate)
    exact hs.exempt hscope hunc hreach
  · intro hall
    exact ⟨_, _, rfl, sorts_of_forall hall⟩

/-! A report of one file, with a marker on line 2 and line 3 uncovered. Line 2 is dead in the
first report and covered in the second. -/

/-- `int` on decimal digits. -/
def decimal (s : Str) : Option ℤ :=
  if s ≠ [] ∧ s.all (fun c => c.isDigit) then some (s.foldl (fun n c => 10 * n + (c.toNat - 48 : ℤ)) 0)
  else none

def sampleFile : Str := "/w/core/src/lib.rs".toList

def sampleTree : SourceTree := fun file =>
  if file = sampleFile then
    some "fn f() \x7b\n    g(); // cov:unreachable: never called\n    h();\n\x7d\n".toList
  else none

def deadReport : Str := "SF:/w/core/src/lib.rs\nDA:1,1\nDA:2,0\nDA:3,0\nend_of_record\n".toList

def liveReport : Str := "SF:/w/core/src/lib.rs\nDA:1,1\nDA:2,1\nDA:3,0\nend_of_record\n".toList

def deadRecords : List Record := [⟨sampleFile, 1, 1⟩, ⟨sampleFile, 2, 0⟩, ⟨sampleFile, 3, 0⟩]

def liveRecords : List Record := [⟨sampleFile, 1, 1⟩, ⟨sampleFile, 2, 1⟩, ⟨sampleFile, 3, 0⟩]

/-- The only marker is on line 2. -/
theorem marked_sampleTree (hm : Marked sampleTree file p) : file = sampleFile ∧ p = 2 := by
  have hpos := hm.pos
  by_cases hfile : file = sampleFile
  · subst hfile
    refine ⟨rfl, ?_⟩
    have hlen : (lines sampleTree sampleFile).length = 4 := by decide +kernel
    have hle : p ≤ 4 := by
      by_contra hgt
      unfold Marked text at hm
      rw [if_neg (by omega)] at hm
      cases List.infix_nil.1 hm
    have hall : ∀ n < 5, markedAt sampleTree sampleFile (n : ℕ) = true → n = 2 := by decide +kernel
    have := hall p.toNat (by omega)
    rw [Int.toNat_of_nonneg (by omega)] at this
    have := this (contains_iff.2 hm)
    omega
  · unfold Marked text lines sampleTree at hm
    simp only [if_neg hfile, List.length_nil] at hm
    rw [if_neg (by omega)] at hm
    cases List.infix_nil.1 hm

theorem gateLines_sorts_iff_sample :
    ∃ failing exempted, gateLines decimal sampleTree deadReport = .ok (failing, exempted) ∧
      Sorts sampleTree deadRecords failing exempted := by
  refine (gateLines_sorts_iff decimal sampleTree deadReport deadRecords (by decide +kernel)).2 ?_
  intro file p line _ hm hlive _ _
  obtain ⟨rfl, rfl⟩ := marked_sampleTree hm
  have hunc : Uncovered deadRecords sampleFile 2 :=
    ⟨⟨⟨sampleFile, 2, 0⟩, by simp [deadRecords], rfl, rfl⟩, by decide +kernel⟩
  exact absurd (Or.inl hunc) hlive

/-- **A marker on a covered line leaks**: the line below it is exempted. -/
theorem gateLines_leaks :
    readRecords decimal none (fileLines liveReport) = .ok liveRecords ∧
    gateLines decimal sampleTree liveReport = .ok ([], ["lib.rs:3".toList]) ∧
    ¬ ∃ failing exempted, gateLines decimal sampleTree liveReport = .ok (failing, exempted) ∧
        Sorts sampleTree liveRecords failing exempted := by
  have hreport : readRecords decimal none (fileLines liveReport) = .ok liveRecords := by decide +kernel
  refine ⟨hreport, by decide +kernel, ?_⟩
  rintro ⟨failing, exempted, hgate, hs⟩
  rw [gateLines_eq hreport] at hgate
  obtain ⟨rfl, rfl⟩ := Prod.mk.inj (Except.ok.inj hgate)
  have hunc : Uncovered liveRecords sampleFile 3 :=
    ⟨⟨⟨sampleFile, 3, 0⟩, by simp [liveRecords], rfl, rfl⟩, by decide +kernel⟩
  have hreach : Reached sampleTree liveRecords sampleFile 3 := found_iff.1 (by decide +kernel)
  obtain ⟨p, hp, hm, hdead, -⟩ := hs.exempt (by decide +kernel) hunc hreach
  obtain ⟨-, rfl⟩ := marked_sampleTree hm
  -- the marker is on line 2, which has a hit
  rcases hdead 2 le_rfl hp with ⟨-, hzero⟩ | ⟨hunmapped, -⟩
  · have hone : hits liveRecords sampleFile 2 = 1 := by decide +kernel
    omega
  · exact hunmapped ⟨⟨sampleFile, 2, 1⟩, by simp [liveRecords], rfl, rfl⟩

end SignalDesktop.CoverageGate
