import SignalDesktop.Spec.FunctionGate
import SignalDesktop.Proof.CoverageGate

/-!
# Which functions the gate exempts

An export is a list of instantiations, each at the least start of its regions
(`instanceOf_ok_iff`). A function is a source location with an instantiation, and has not
run if the counts of all its instantiations add up to nothing (`Unrun`).

* `gateFunctions_sorts`: the gate sorts the functions in scope that have not run into those
  with a marker on their line or up to two lines above it, and the others.
-/

namespace SignalDesktop.CoverageGate

open PyStr

variable {py : Python} {tree : SourceTree} {fs : List Function} {f : Function} {a b s : ℤ × ℤ}
  {region : List ℤ} {regions : List (List ℤ)}

/-! ## Where a function starts -/

/-- A region starts at a line and a column. -/
def StartsAt (region : List ℤ) (s : ℤ × ℤ) : Prop := region[0]? = some s.1 ∧ region[1]? = some s.2

/-- `s` comes no later than `p`. -/
def NoLater (s p : ℤ × ℤ) : Prop := s.1 < p.1 ∨ s.1 = p.1 ∧ s.2 ≤ p.2

theorem before_iff : before a b = true ↔ ¬ NoLater b a := by
  unfold before NoLater
  simp only [Bool.or_eq_true, Bool.and_eq_true, decide_eq_true_eq]
  omega

theorem NoLater.trans {p : ℤ × ℤ} (h₁ : NoLater a b) (h₂ : NoLater b p) : NoLater a p := by
  unfold NoLater at *
  omega

theorem StartsAt.unique (ha : StartsAt region a) (hb : StartsAt region b) : a = b := by
  obtain ⟨h₁, h₂⟩ := ha
  obtain ⟨h₃, h₄⟩ := hb
  rw [h₁, Option.some.injEq] at h₃
  rw [h₂, Option.some.injEq] at h₄
  exact Prod.ext h₃ h₄

theorem index_ok_iff {α : Type} {l : List α} {i : ℕ} {x : α} : index l i = .ok x ↔ l[i]? = some x := by
  unfold index
  cases l[i]? with
  | none => simp
  | some y => simp

theorem regionStart_ok_iff : regionStart region = .ok s ↔ StartsAt region s := by
  unfold regionStart StartsAt
  rw [← index_ok_iff, ← index_ok_iff]
  obtain ⟨line, col⟩ := s
  cases index region 0 with
  | error e =>
    constructor
    · intro h
      cases h
    · rintro ⟨h, -⟩
      cases h
  | ok x =>
    cases index region 1 with
    | error e =>
      constructor
      · intro h
        cases h
      · rintro ⟨-, h⟩
        cases h
    | ok y =>
      show Except.ok (x, y) = Except.ok (line, col) ↔ _
      simp only [Except.ok.injEq, Prod.mk.injEq]

theorem NoLater.refl (a : ℤ × ℤ) : NoLater a a := Or.inr ⟨rfl, le_rfl⟩

theorem NoLater.antisymm (hab : NoLater a b) (hba : NoLater b a) : a = b := by
  unfold NoLater at *
  exact Prod.ext (by omega) (by omega)

/-- The start of a function: the least one of its regions, each of which has one. -/
def IsStart (regions : List (List ℤ)) (s : ℤ × ℤ) : Prop :=
  (∃ r ∈ regions, StartsAt r s) ∧ ∀ r ∈ regions, ∃ p, StartsAt r p ∧ NoLater s p

theorem IsStart.unique (ha : IsStart regions a) (hb : IsStart regions b) : a = b := by
  have hle : ∀ {a b}, IsStart regions a → IsStart regions b → NoLater a b := by
    rintro a b ⟨-, hleast⟩ ⟨⟨r, hr, hs⟩, -⟩
    obtain ⟨p, hp, hap⟩ := hleast r hr
    rwa [hp.unique hs] at hap
  exact (hle ha hb).antisymm (hle hb ha)

/-- The loop of `min`. -/
theorem foldlM_regionStart (regions : List (List ℤ)) (hall : ∀ r ∈ regions, ∃ p, StartsAt r p) :
    ∀ least, ∃ s, regions.foldlM
        (fun least r => do
          let s ← regionStart r
          return if before s least then s else least) least = .ok s ∧
      NoLater s least ∧ (s = least ∨ ∃ r ∈ regions, StartsAt r s) ∧
      ∀ r ∈ regions, ∀ p, StartsAt r p → NoLater s p := by
  induction regions with
  | nil =>
    intro least
    exact ⟨least, rfl, NoLater.refl least, Or.inl rfl, by simp⟩
  | cons r regions ih =>
    intro least
    obtain ⟨p, hp⟩ := hall r List.mem_cons_self
    rw [List.foldlM_cons, regionStart_ok_iff.2 hp]
    -- the smaller of the two is carried on
    have hnext : NoLater (if before p least then p else least) least ∧
        NoLater (if before p least then p else least) p := by
      by_cases hb : before p least = true
      · rw [if_pos hb]
        rw [before_iff] at hb
        unfold NoLater at *
        omega
      · rw [if_neg hb]
        rw [before_iff, not_not] at hb
        exact ⟨NoLater.refl _, hb⟩
    obtain ⟨s, hs, hle, hmem, hleast⟩ :=
      ih (fun r hr => hall r (List.mem_cons_of_mem _ hr)) (if before p least then p else least)
    refine ⟨s, hs, hle.trans hnext.1, ?_, ?_⟩
    · rcases hmem with heq | ⟨r', hr', hs'⟩
      · by_cases hb : before p least = true
        · rw [if_pos hb] at heq
          subst heq
          exact Or.inr ⟨r, List.mem_cons_self, hp⟩
        · rw [if_neg hb] at heq
          exact Or.inl heq
      · exact Or.inr ⟨r', List.mem_cons_of_mem _ hr', hs'⟩
    · intro r' hr' q hq
      rcases List.mem_cons.1 hr' with rfl | hr'
      · rw [hq.unique hp]
        exact hle.trans hnext.2
      · exact hleast r' hr' q hq

theorem exists_start (hall : ∀ r ∈ region :: regions, ∃ p, StartsAt r p) :
    ∃ s, start region regions = .ok s ∧ IsStart (region :: regions) s := by
  obtain ⟨p, hp⟩ := hall region List.mem_cons_self
  obtain ⟨s, hs, hle, hmem, hleast⟩ :=
    foldlM_regionStart regions (fun r hr => hall r (List.mem_cons_of_mem _ hr)) p
  refine ⟨s, ?_, ?_, ?_⟩
  · unfold start
    rw [regionStart_ok_iff.2 hp]
    exact hs
  · rcases hmem with rfl | ⟨r, hr, hs'⟩
    · exact ⟨region, List.mem_cons_self, hp⟩
    · exact ⟨r, List.mem_cons_of_mem _ hr, hs'⟩
  · intro r hr
    obtain ⟨q, hq⟩ := hall r hr
    refine ⟨q, hq, ?_⟩
    rcases List.mem_cons.1 hr with rfl | hr
    · rwa [hq.unique hp]
    · exact hleast r hr q hq

theorem startsAt_of_foldlM (regions : List (List ℤ)) : ∀ least, regions.foldlM
      (fun least r => do
        let s ← regionStart r
        return if before s least then s else least) least = .ok s →
    ∀ r ∈ regions, ∃ p, StartsAt r p := by
  induction regions with
  | nil => simp
  | cons r regions ih =>
    intro least h
    rw [List.foldlM_cons] at h
    cases hr : regionStart r with
    | error e =>
      rw [hr] at h
      cases h
    | ok p =>
      rw [hr] at h
      intro r' hr'
      rcases List.mem_cons.1 hr' with rfl | hr'
      · exact ⟨p, regionStart_ok_iff.1 hr⟩
      · exact ih _ h r' hr'

theorem start_ok_iff : start region regions = .ok s ↔ IsStart (region :: regions) s := by
  constructor
  · intro h
    have hall : ∀ r ∈ region :: regions, ∃ p, StartsAt r p := by
      unfold start at h
      cases hr : regionStart region with
      | error e =>
        rw [hr] at h
        cases h
      | ok p =>
        rw [hr] at h
        intro r hmem
        rcases List.mem_cons.1 hmem with rfl | hmem
        · exact ⟨p, regionStart_ok_iff.1 hr⟩
        · exact startsAt_of_foldlM regions p h r hmem
    obtain ⟨s', hs', his⟩ := exists_start hall
    rw [hs'] at h
    cases h
    exact his
  · intro h
    obtain ⟨s', hs', his⟩ := exists_start fun r hr => (h.2 r hr).imp fun p hp => hp.1
    rw [hs', his.unique h]

/-! ## Instantiations -/

/-- An instantiation at its source location. -/
structure Instance where
  location : Location
  count : ℤ
  deriving DecidableEq

/-- What an entry of the export contributes: nothing without regions. -/
def instanceOf (f : Function) : Except Abort (Option Instance) :=
  match f.regions.getD [] with
  | [] => .ok none
  | region :: regions => do
    let (line, col) ← start region regions
    let count ← key f.count "count"
    return some ⟨((f.filenames.getD []).headD "?".toList, line, col), count⟩

def readInstances : List Function → Except Abort (List Instance)
  | [] => .ok []
  | f :: fs => do
    let i ← instanceOf f
    let is ← readInstances fs
    return i.toList ++ is

/-- The entry gives this instantiation: at the least start of its regions, in its first
file. -/
structure Instantiates (f : Function) (i : Instance) : Prop where
  file : i.location.1 = (f.filenames.getD []).headD "?".toList
  start : IsStart (f.regions.getD []) i.location.2
  count : f.count = some i.count

def HasRegions (f : Function) : Prop := f.regions.getD [] ≠ []

instance : DecidablePred HasRegions := fun f => inferInstanceAs (Decidable (f.regions.getD [] ≠ []))

theorem instanceOf_ok_iff {i : Instance} :
    instanceOf f = .ok (some i) ↔ HasRegions f ∧ Instantiates f i := by
  unfold instanceOf HasRegions
  obtain ⟨⟨file, line, col⟩, count⟩ := i
  cases hregions : f.regions.getD [] with
  | nil =>
    constructor
    · intro h
      cases h
    · rintro ⟨h, -⟩
      exact absurd rfl h
  | cons region regions =>
    have hstart : ∀ s, start region regions = .ok s ↔ IsStart (f.regions.getD []) s := by
      intro s
      rw [hregions]
      exact start_ok_iff
    show (start region regions >>= _) = _ ↔ _
    cases hs : start region regions with
    | error e =>
      constructor
      · intro h
        cases h
      · rintro ⟨-, h⟩
        rw [(hstart _).2 h.start] at hs
        cases hs
    | ok s =>
      cases hc : f.count with
      | none =>
        constructor
        · intro h
          cases h
        · rintro ⟨-, h⟩
          have hcount := h.count
          rw [hc] at hcount
          cases hcount
      | some c =>
        show Except.ok (some (Instance.mk (_, s.1, s.2) c)) = Except.ok (some _) ↔ _
        simp only [Except.ok.injEq, Option.some.injEq, Instance.mk.injEq, Prod.mk.injEq]
        constructor
        · rintro ⟨⟨hfile, hline, hcol⟩, hcount⟩
          have hpos : s = (line, col) := Prod.ext hline hcol
          exact ⟨by simp, hfile.symm, (hstart _).1 (hs.trans (congrArg _ hpos)), hc.trans (congrArg _ hcount)⟩
        · rintro ⟨-, h⟩
          have hpos := (hstart _).2 h.start
          rw [hs, Except.ok.injEq] at hpos
          have hcount := h.count
          rw [hc, Option.some.injEq] at hcount
          exact ⟨⟨h.file.symm, congrArg Prod.fst hpos, congrArg Prod.snd hpos⟩, hcount⟩

theorem instanceOf_none_iff : instanceOf f = .ok none ↔ ¬ HasRegions f := by
  unfold instanceOf HasRegions
  cases f.regions.getD [] with
  | nil => simp
  | cons region regions =>
    refine iff_of_false ?_ (by simp)
    show ¬ (start region regions >>= _) = _
    cases start region regions with
    | error e =>
      intro h
      cases h
    | ok s =>
      cases f.count with
      | none =>
        intro h
        cases h
      | some c =>
        intro h
        cases h

/-- **The instantiations read are those of the entries with regions**, one for each. -/
theorem readInstances_ok_iff : ∀ {fs : List Function} {is : List Instance},
    readInstances fs = .ok is ↔ List.Forall₂ Instantiates (fs.filter HasRegions) is := by
  intro fs
  induction fs with
  | nil =>
    intro is
    rw [List.filter_nil, List.forall₂_nil_left_iff]
    constructor
    · intro h
      cases h
      rfl
    · rintro rfl
      rfl
  | cons f fs ih =>
    intro is
    unfold readInstances
    by_cases hr : HasRegions f
    · rw [List.filter_cons_of_pos (by simpa using hr), List.forall₂_cons_left_iff]
      constructor
      · intro h
        cases ho : instanceOf f with
        | error e =>
          rw [ho] at h
          cases h
        | ok o =>
          cases his : readInstances fs with
          | error e =>
            rw [ho, his] at h
            cases h
          | ok is' =>
            rw [ho, his] at h
            cases h
            cases o with
            | none => exact absurd hr (instanceOf_none_iff.1 ho)
            | some i => exact ⟨i, is', (instanceOf_ok_iff.1 ho).2, ih.1 his, rfl⟩
      · rintro ⟨i, is', hi, his, rfl⟩
        rw [instanceOf_ok_iff.2 ⟨hr, hi⟩, ih.2 his]
        rfl
    · rw [List.filter_cons_of_neg (by simpa using hr), ← ih, instanceOf_none_iff.2 hr]
      show (readInstances fs >>= _) = _ ↔ _
      cases readInstances fs <;> rfl

/-! ## From instantiations to counts -/

def addInstance (v : Option ℤ) (i : Instance) : ℤ := v.getD 0 + i.count

/-- The counts of the instantiations, added up at each location. -/
def merged (is : List Instance) : Dict Location ℤ := Dict.merge Instance.location addInstance is

variable {is : List Instance} {loc : Location} {n : ℤ}

/-- The location has an instantiation. -/
def Compiled (is : List Instance) (loc : Location) : Prop := ∃ i ∈ is, i.location = loc

/-- How often the function at the location ran. -/
def total (is : List Instance) (loc : Location) : ℤ :=
  (is.filter fun i => i.location = loc).foldr (fun i n => i.count + n) 0

theorem foldl_addInstance (l : List Instance) : ∀ n : ℤ,
    l.foldl (fun v i => some (addInstance v i)) (some n) = some (n + l.foldr (fun i n => i.count + n) 0) := by
  induction l with
  | nil =>
    intro n
    simp
  | cons i l ih =>
    intro n
    rw [List.foldl_cons, addInstance, Option.getD_some, ih, List.foldr_cons, Int.add_assoc]

/-- **Each location holds the sum of its counts.** -/
theorem get?_merged_iff : (merged is).get? loc = some n ↔ Compiled is loc ∧ total is loc = n := by
  unfold merged total
  rw [Dict.get?_merge]
  have hmem : Compiled is loc ↔ is.filter (fun i => i.location = loc) ≠ [] := by
    unfold Compiled
    simp
  rw [hmem]
  cases is.filter fun i => i.location = loc with
  | nil => simp
  | cons i l =>
    rw [List.foldl_cons, foldl_addInstance, addInstance, Option.getD_none, List.foldr_cons,
      Option.some.injEq, Int.zero_add]
    simp

theorem mergeFunction_eq (d : Dict Location ℤ) :
    mergeFunction d f =
      (fun i => i.toList.foldl (Dict.mergeOne Instance.location addInstance) d) <$> instanceOf f := by
  unfold mergeFunction instanceOf
  cases f.regions.getD [] with
  | nil => rfl
  | cons region regions =>
    show (start region regions >>= _) = _ <$> (start region regions >>= _)
    cases start region regions with
    | error e => rfl
    | ok s =>
      cases f.count <;> rfl

/-- **The gate merges the instantiations read.** -/
theorem foldlM_mergeFunction (fs : List Function) : ∀ d : Dict Location ℤ,
    fs.foldlM mergeFunction d =
      (fun is => is.foldl (Dict.mergeOne Instance.location addInstance) d) <$> readInstances fs := by
  induction fs with
  | nil =>
    intro d
    rfl
  | cons f fs ih =>
    intro d
    rw [List.foldlM_cons, mergeFunction_eq]
    unfold readInstances
    cases instanceOf f with
    | error e => rfl
    | ok i =>
      refine (ih _).trans ?_
      show _ = _ <$> (readInstances fs >>= _)
      cases readInstances fs with
      | error e => rfl
      | ok is =>
        show Except.ok (is.foldl _ (i.toList.foldl _ d)) = Except.ok ((i.toList ++ is).foldl _ d)
        rw [List.foldl_append]

/-! ## The lists -/

/-- The function has not run in any instantiation. -/
def Unrun (is : List Instance) (loc : Location) : Prop := Compiled is loc ∧ total is loc ≤ 0

/-- A marker stands on the line or up to two lines above it. -/
def MarkedNear (tree : SourceTree) (file : Str) (line : ℤ) : Prop :=
  ∃ p, line - 2 ≤ p ∧ p ≤ line ∧ Marked tree file p

theorem markedNear_iff {file : Str} {line : ℤ} :
    markedNear tree file line = true ↔ MarkedNear tree file line := by
  have hmark : ∀ p, markedAt tree file p = true ↔ Marked tree file p := fun p => contains_iff
  unfold markedNear MarkedNear
  simp only [List.any_cons, List.any_nil, Bool.or_false, Bool.or_eq_true, hmark]
  constructor
  · rintro (h | h | h)
    · exact ⟨line - 2, le_rfl, by omega, h⟩
    · exact ⟨line - 1, by omega, by omega, h⟩
    · exact ⟨line, by omega, le_rfl, h⟩
  · rintro ⟨p, h₁, h₂, hm⟩
    have hp : p = line - 2 ∨ p = line - 1 ∨ p = line := by omega
    rcases hp with rfl | rfl | rfl
    · exact Or.inl hm
    · exact Or.inr (Or.inl hm)
    · exact Or.inr (Or.inr hm)

def shortLoc (loc : Location) : Str := short loc.1 loc.2.1

def nearLoc (tree : SourceTree) (loc : Location) : Bool := markedNear tree loc.1 loc.2.1

/-- The functions in scope that have not run, in the order the gate takes them. -/
def unrun (is : List Instance) : List Location :=
  ((merged is).entries.filter fun e => !(decide (0 < e.2) || !inScope e.1.1)).map Prod.fst

theorem mem_unrun : loc ∈ unrun is ↔ inScope loc.1 = true ∧ Unrun is loc := by
  unfold unrun Unrun
  rw [List.mem_map]
  constructor
  · rintro ⟨⟨loc', n⟩, he, rfl⟩
    obtain ⟨hmem, hkept⟩ := List.mem_filter.1 he
    obtain ⟨hcomp, htotal⟩ := get?_merged_iff.1 (Dict.mem_entries_iff.1 hmem)
    simp only [Bool.not_eq_true', Bool.or_eq_false_iff, decide_eq_false_iff_not, Bool.not_eq_false'] at hkept
    have hn : ¬ 0 < n := hkept.1
    have hsum : total is loc' = n := htotal
    refine ⟨hkept.2, hcomp, ?_⟩
    show total is loc' ≤ 0
    omega
  · rintro ⟨hscope, hcomp, htotal⟩
    refine ⟨(loc, total is loc), List.mem_filter.2 ⟨?_, ?_⟩, rfl⟩
    · exact Dict.mem_entries_iff.2 (get?_merged_iff.2 ⟨hcomp, rfl⟩)
    · simp only [hscope, Bool.not_true, Bool.or_false, Bool.not_eq_true', decide_eq_false_iff_not]
      omega

theorem nodup_unrun : (unrun is).Nodup := (merged is).nodup.sublist (List.filter_sublist.map Prod.fst)

theorem foldl_gateFunction :
    (merged is).entries.foldl (gateFunction tree) ([], []) =
      (((unrun is).filter fun loc => !nearLoc tree loc).map shortLoc,
        ((unrun is).filter (nearLoc tree)).map shortLoc) := by
  have hsort := foldl_sort (nearLoc tree) shortLoc (unrun is) ([], [])
  simp only [List.nil_append] at hsort
  rw [← hsort, unrun, List.foldl_map, List.foldl_filter]
  refine List.foldl_ext _ _ _ fun acc e _ => ?_
  unfold gateFunction
  by_cases hskip : (decide (0 < e.2) || !inScope e.1.1) = true
  · rw [if_pos hskip, hskip]
    rfl
  · rw [if_neg hskip, Bool.eq_false_iff.2 hskip]
    rfl

/-! ## The gate -/

def failingFunctions (tree : SourceTree) (is : List Instance) : List Location :=
  (unrun is).filter fun loc => !nearLoc tree loc

def exemptFunctions (tree : SourceTree) (is : List Instance) : List Location :=
  (unrun is).filter (nearLoc tree)

theorem mem_failingFunctions : loc ∈ failingFunctions tree is ↔
    inScope loc.1 = true ∧ Unrun is loc ∧ ¬ MarkedNear tree loc.1 loc.2.1 := by
  unfold failingFunctions nearLoc
  rw [List.mem_filter, mem_unrun, ← markedNear_iff, Bool.not_eq_true', Bool.not_eq_true, and_assoc]

theorem mem_exemptFunctions : loc ∈ exemptFunctions tree is ↔
    inScope loc.1 = true ∧ Unrun is loc ∧ MarkedNear tree loc.1 loc.2.1 := by
  unfold exemptFunctions nearLoc
  rw [List.mem_filter, mem_unrun, ← markedNear_iff, and_assoc]

/-- The instantiations of an export that can be read. -/
def ReadsInstances (py : Python) (cov : Str) (is : List Instance) : Prop :=
  ∃ e es fs, py.loadJson cov = some ⟨some (e :: es)⟩ ∧ e.functions = some fs ∧ readInstances fs = .ok is

/-- **What the function gate returns**, and that it returns only on what it can read. -/
theorem gateFunctions_ok_iff {covPath cov : Str} {r : List Str × List Str} :
    gateFunctions py tree covPath cov = .ok r ↔ ∃ is, ReadsInstances py cov is ∧
      r = ((failingFunctions tree is).map shortLoc, (exemptFunctions tree is).map shortLoc) := by
  unfold gateFunctions ReadsInstances
  cases hload : py.loadJson cov with
  | none =>
    constructor
    · intro h
      cases h
    · rintro ⟨is, ⟨e, es, fs, h, -⟩, -⟩
      cases h
  | some coverage =>
    obtain ⟨data⟩ := coverage
    cases data with
    | none =>
      constructor
      · intro h
        cases h
      · rintro ⟨is, ⟨e, es, fs, h, -⟩, -⟩
        cases h
    | some exports =>
      cases exports with
      | nil =>
        constructor
        · intro h
          cases h
        · rintro ⟨is, ⟨e, es, fs, h, -⟩, -⟩
          cases h
      | cons e es =>
        obtain ⟨keys, functions⟩ := e
        cases functions with
        | none =>
          constructor
          · intro h
            cases h
          · rintro ⟨is, ⟨e, es, fs, h, hfs, -⟩, -⟩
            cases h
            cases hfs
        | some fs =>
          show (fs.foldlM mergeFunction .empty >>= _) = _ ↔ _
          rw [foldlM_mergeFunction]
          constructor
          · intro h
            cases his : readInstances fs with
            | error err =>
              rw [his] at h
              cases h
            | ok is =>
              rw [his] at h
              refine ⟨is, ⟨_, es, fs, rfl, rfl, his⟩, ?_⟩
              cases h
              exact foldl_gateFunction
          · rintro ⟨is, ⟨e, es, fs, h, hfs, his⟩, rfl⟩
            cases h
            cases hfs
            rw [his]
            exact congrArg Except.ok foldl_gateFunction

/-- Counts add up to nothing iff each of them is. -/
theorem foldr_count_le_zero_iff {l : List Instance} (h : ∀ i ∈ l, 0 ≤ i.count) :
    0 ≤ l.foldr (fun i n => i.count + n) 0 ∧
      (l.foldr (fun i n => i.count + n) 0 ≤ 0 ↔ ∀ i ∈ l, i.count = 0) := by
  induction l with
  | nil => simp
  | cons i l ih =>
    obtain ⟨hnonneg, hzero⟩ := ih fun j hj => h j (List.mem_cons_of_mem _ hj)
    have hi := h i List.mem_cons_self
    rw [List.foldr_cons, List.forall_mem_cons, ← hzero]
    omega

/-- With counts, a function has not run iff no instantiation of it has. -/
theorem unrun_iff (hcounts : ∀ i ∈ is, 0 ≤ i.count) :
    Unrun is loc ↔ Compiled is loc ∧ ∀ i ∈ is, i.location = loc → i.count = 0 := by
  unfold Unrun total
  refine and_congr_right fun _ => ?_
  have hl : ∀ i ∈ is.filter (fun i => i.location = loc), 0 ≤ i.count := fun i hi =>
    hcounts i (List.mem_of_mem_filter hi)
  rw [(foldr_count_le_zero_iff hl).2]
  simp only [List.mem_filter, decide_eq_true_eq, and_imp]

/-- **The function gate, exactly.** An export whose functions can be read gives two lists of
different locations: the functions in scope that have not run, with and without a marker on
their line or up to two lines above it. If no count is negative, a function has run iff one
of its instantiations has. -/
theorem gateFunctions_sorts (tree : SourceTree) (covPath : Str) {cov : Str} {keys : List Str}
    {es : List Export}
    (hcov : py.loadJson cov = some ⟨some (⟨keys, some fs⟩ :: es)⟩)
    (hread : List.Forall₂ Instantiates (fs.filter HasRegions) is) :
    ∃ F E : List Location,
      gateFunctions py tree covPath cov = .ok (F.map shortLoc, E.map shortLoc) ∧ (F ++ E).Nodup ∧
      (∀ loc, loc ∈ F ↔ inScope loc.1 = true ∧ Unrun is loc ∧ ¬ MarkedNear tree loc.1 loc.2.1) ∧
      (∀ loc, loc ∈ E ↔ inScope loc.1 = true ∧ Unrun is loc ∧ MarkedNear tree loc.1 loc.2.1) ∧
      ((∀ i ∈ is, 0 ≤ i.count) → ∀ loc,
        Unrun is loc ↔ Compiled is loc ∧ ∀ i ∈ is, i.location = loc → i.count = 0) := by
  refine ⟨failingFunctions tree is, exemptFunctions tree is, ?_, ?_,
    fun loc => mem_failingFunctions, fun loc => mem_exemptFunctions,
    fun hcounts loc => unrun_iff hcounts⟩
  · exact gateFunctions_ok_iff.2 ⟨is, ⟨_, es, fs, hcov, rfl, readInstances_ok_iff.2 hread⟩, rfl⟩
  · refine List.nodup_append.2 ⟨nodup_unrun.filter _, nodup_unrun.filter _, ?_⟩
    rintro loc hF _ hE rfl
    exact (mem_failingFunctions.1 hF).2.2 (mem_exemptFunctions.1 hE).2.2

/-! An export with two functions: one ran in its second instantiation, the other, two lines
below a marker, never did. -/

def sampleFunctions : List Function :=
  [⟨some [[1, 1, 4, 2]], some [sampleFile], some 0⟩, ⟨some [[4, 5, 4, 6], [4, 1, 4, 6]], some [sampleFile], some 0⟩,
    ⟨some [[1, 1, 4, 2]], some [sampleFile], some 2⟩, ⟨some [], none, none⟩]

def sampleCov : Str :=
  ("\x7b\"data\":[\x7b\"functions\":[" ++
    "\x7b\"count\":0,\"filenames\":[\"/w/core/src/lib.rs\"],\"regions\":[[1,1,4,2]]\x7d," ++
    "\x7b\"count\":0,\"filenames\":[\"/w/core/src/lib.rs\"],\"regions\":[[4,5,4,6],[4,1,4,6]]\x7d," ++
    "\x7b\"count\":2,\"filenames\":[\"/w/core/src/lib.rs\"],\"regions\":[[1,1,4,2]]\x7d," ++
    "\x7b\"regions\":[]\x7d]\x7d]\x7d").toList

def sampleLoad (s : Str) : Option Coverage :=
  if s = sampleCov then some ⟨some [⟨[], some sampleFunctions⟩]⟩ else none

def samplePython : Python where
  loadJson := sampleLoad
  toInt := decimal
  repr s := "'".toList ++ s ++ "'".toList
  osError _ := "[Errno 2] No such file or directory".toList

def sampleInstances : List Instance :=
  [⟨(sampleFile, 1, 1), 0⟩, ⟨(sampleFile, 4, 1), 0⟩, ⟨(sampleFile, 1, 1), 2⟩]

theorem readInstances_sample : readInstances sampleFunctions = .ok sampleInstances := by decide +kernel

theorem sampleLoad_sampleCov : sampleLoad sampleCov = some ⟨some [⟨[], some sampleFunctions⟩]⟩ :=
  if_pos rfl

theorem loadJson_sampleCov :
    samplePython.loadJson sampleCov = some ⟨some [⟨[], some sampleFunctions⟩]⟩ := by
  dsimp only [samplePython]
  exact sampleLoad_sampleCov

theorem gateFunctions_sorts_sample :
    ∃ F E : List Location,
      gateFunctions samplePython sampleTree "cov.json".toList sampleCov =
        .ok (F.map shortLoc, E.map shortLoc) ∧
      (sampleFile, 4, 1) ∈ E ∧ (sampleFile, 1, 1) ∉ F := by
  obtain ⟨F, E, hgate, -, hF, hE, -⟩ :=
    gateFunctions_sorts sampleTree "cov.json".toList loadJson_sampleCov
      (readInstances_ok_iff.1 readInstances_sample)
  refine ⟨F, E, hgate, (hE _).2 ⟨by decide +kernel, ⟨⟨⟨(sampleFile, 4, 1), 0⟩, by simp [sampleInstances], rfl⟩, by decide +kernel⟩, ?_⟩, ?_⟩
  · exact markedNear_iff.1 (by decide +kernel)
  · intro hmem
    have hran : ¬ total sampleInstances (sampleFile, 1, 1) ≤ 0 := by decide +kernel
    exact hran ((hF _).1 hmem).2.1.2

end SignalDesktop.CoverageGate
