import Mathlib.Data.List.Induction
import Mathlib.Data.List.Perm.Basic
import Mathlib.Logic.Function.Basic
import SignalDesktop.Lib.SerdeJson

/-!
# Derived deserializers

How a struct with named fields is read from a JSON value, in the way it is derived for a
struct whose fields all have a default: from an object, where a field may occur once and
other members are ignored, or from an array, in declaration order.

* `ofValue_ok_iff`: a struct is read iff each field is given nothing, or one value that
  decodes.
* `gives_congr`, `visitMap_known`: neither the order of the members nor the ignored ones
  matter.
* `visitMap_error_iff`: an error is the one of the first member at fault.
-/

namespace Derive

open SerdeJson

/-- The fields of a struct and how each is decoded. -/
structure Schema (F : Type) where
  /-- In declaration order. -/
  fields : List F
  nodup : fields.Nodup
  complete : ∀ f, f ∈ fields
  name : F → String
  name_injective : Function.Injective name
  Val : F → Type
  /-- The value of a field that is not given. -/
  default : (f : F) → Val f
  decode : (f : F) → Value → Except JsonError (Val f)

variable {F : Type} (S : Schema F)

/-! ## Fields -/

/-- The values of the fields found. -/
abbrev Found := (f : F) → Option (S.Val f)

def noneFound : Found S := fun _ => none

/-- The field of a member. -/
def fieldOf (n : String) : Option F := S.fields.find? fun f => S.name f = n

/-- The values of the members of a field. -/
def valuesOf (members : List (String × Value)) (f : F) : List Value :=
  (members.filter fun m => m.1 = S.name f).map Prod.snd

variable {S} {f g : F} {n : String} {v : Value} {members members' : List (String × Value)}
  {found found' : Found S} {e : JsonError}

theorem fieldOf_eq_some_iff : fieldOf S n = some f ↔ S.name f = n := by
  unfold fieldOf
  constructor
  · intro h
    simpa using List.find?_some h
  · rintro rfl
    cases hf : S.fields.find? fun g => S.name g = S.name f with
    | none =>
      have hne := List.find?_eq_none.1 hf f (S.complete f)
      simp at hne
    | some g =>
      have hname : S.name g = S.name f := by simpa using List.find?_some hf
      rw [S.name_injective hname]

theorem valuesOf_cons_self (h : fieldOf S n = some f) :
    valuesOf S ((n, v) :: members) f = v :: valuesOf S members f := by
  unfold valuesOf
  rw [List.filter_cons_of_pos (by simp [fieldOf_eq_some_iff.1 h]), List.map_cons]

theorem valuesOf_cons_ne (h : fieldOf S n ≠ some f) :
    valuesOf S ((n, v) :: members) f = valuesOf S members f := by
  unfold valuesOf
  rw [List.filter_cons_of_neg]
  rintro hn
  exact h (fieldOf_eq_some_iff.2 (by simpa using hn : n = S.name f).symm)

/-! ## Reading -/

variable [DecidableEq F]

def put (found : Found S) (f : F) (x : S.Val f) : Found S := Function.update found f (some x)

variable (S) in
/-- The members of an object, with the fields found so far. -/
def visitMap : List (String × Value) → Found S → Except JsonError (Found S)
  | [], found => .ok found
  | (n, v) :: members, found =>
    match fieldOf S n with
    | none => visitMap members found
    | some f =>
      match found f with
      | some _ => .error (.duplicateField n)
      | none => do visitMap members (put found f (← S.decode f v))

variable (S) in
/-- The elements of an array, for the fields left. -/
def visitSeq : List F → List Value → Found S → Except JsonError (Found S)
  | _, [], found => .ok found
  | [], _ :: _, _ => .error .trailingElements
  | f :: fs, v :: a, found => do visitSeq fs a (put found f (← S.decode f v))

variable (S) in
def visit : Value → Except JsonError (Found S)
  | .object members => visitMap S members (noneFound S)
  | .array a => visitSeq S S.fields a (noneFound S)
  | _ => .error .invalidType

/-- The values of a struct. -/
abbrev Values (S : Schema F) := (f : F) → S.Val f

def fill (found : Found S) : Values S := fun f => (found f).getD (S.default f)

variable (S) in
/-- Read a struct from a document. -/
def ofValue (v : Value) : Except JsonError (Values S) := fill <$> visit S v

theorem put_self {x : S.Val f} : put found f x f = some x := Function.update_self ..

theorem put_ne {x : S.Val f} (h : g ≠ f) : put found f x g = found g := Function.update_of_ne h ..

/-! ## What is read from an object -/

/-- A field gets its value from what was found so far, or from its one member among those
left. -/
def Reads (S : Schema F) (members : List (String × Value)) (f : F) (before after : Option (S.Val f)) :
    Prop :=
  valuesOf S members f = [] ∧ after = before ∨
    before = none ∧ ∃ v x, valuesOf S members f = [v] ∧ S.decode f v = .ok x ∧ after = some x

omit [DecidableEq F] in
/-- A member of the field `f` that decodes to `x`. -/
theorem reads_cons_self {x : S.Val f} (h : fieldOf S n = some f) (hx : S.decode f v = .ok x)
    (hnone : found f = none) {after : Option (S.Val f)} :
    Reads S ((n, v) :: members) f (found f) after ↔ Reads S members f (some x) after := by
  unfold Reads
  rw [valuesOf_cons_self h, hnone]
  constructor
  · rintro (⟨hnil, -⟩ | ⟨-, w, y, hw, hy, rfl⟩)
    · cases hnil
    · obtain ⟨rfl, hnil⟩ := List.cons.inj hw
      rw [hx, Except.ok.injEq] at hy
      subst hy
      exact Or.inl ⟨hnil, rfl⟩
  · rintro (⟨hnil, rfl⟩ | ⟨hsome, -⟩)
    · exact Or.inr ⟨rfl, v, x, by rw [hnil], hx, rfl⟩
    · cases hsome

/-- **An object is read field by field.** -/
theorem visitMap_iff : ∀ {found : Found S},
    visitMap S members found = .ok found' ↔ ∀ f, Reads S members f (found f) (found' f) := by
  -- the induction carries what the members before have given
  induction members with
  | nil =>
    intro found
    unfold visitMap Reads
    rw [Except.ok.injEq, funext_iff]
    refine forall_congr' fun f => ?_
    constructor
    · intro h
      exact Or.inl ⟨rfl, h.symm⟩
    · rintro (⟨-, h⟩ | ⟨-, v, x, h, -⟩)
      · exact h.symm
      · cases h
  | cons m members ih =>
    obtain ⟨n, v⟩ := m
    intro found
    unfold visitMap
    cases hn : fieldOf S n with
    | none =>
      refine ih.trans (forall_congr' fun f => ?_)
      unfold Reads
      rw [valuesOf_cons_ne (by simp [hn])]
    | some f =>
      simp only
      cases hf : found f with
      | some y =>
        refine iff_of_false (by simp) fun h => ?_
        rcases h f with ⟨hnil, -⟩ | ⟨hnone, -⟩
        · rw [valuesOf_cons_self hn] at hnil
          cases hnil
        · rw [hf] at hnone
          cases hnone
      | none =>
        cases hx : S.decode f v with
        | error err =>
          refine iff_of_false (fun h => by cases h) fun h => ?_
          rcases h f with ⟨hnil, -⟩ | ⟨-, w, y, hw, hy, -⟩
          · rw [valuesOf_cons_self hn] at hnil
            cases hnil
          · rw [valuesOf_cons_self hn] at hw
            obtain ⟨rfl, -⟩ := List.cons.inj hw
            rw [hx] at hy
            cases hy
        | ok x =>
          refine ih.trans (forall_congr' fun g => ?_)
          by_cases hg : g = f
          · subst hg
            rw [put_self, reads_cons_self hn hx hf]
          · unfold Reads
            rw [put_ne hg, valuesOf_cons_ne (by rw [hn]; exact fun h => hg (Option.some.inj h).symm)]

/-- **An object is read iff each field has no member, or one that decodes.** -/
theorem visitMap_ok_iff :
    visitMap S members (noneFound S) = .ok found ↔ ∀ f,
      valuesOf S members f = [] ∧ found f = none ∨
        ∃ v x, valuesOf S members f = [v] ∧ S.decode f v = .ok x ∧ found f = some x := by
  rw [visitMap_iff]
  refine forall_congr' fun f => ?_
  unfold Reads noneFound
  simp only [true_and]

/-! ## What is read from an array -/

/-- The element for a field. -/
def elementOf : List F → List Value → F → Option Value
  | f :: fs, v :: a, g => if f = g then some v else elementOf fs a g
  | _, _, _ => none

theorem elementOf_of_notMem {fs : List F} {a : List Value} (h : f ∉ fs) : elementOf fs a f = none := by
  induction fs generalizing a with
  | nil => rfl
  | cons g fs ih =>
    rw [List.mem_cons, not_or] at h
    cases a with
    | nil => rfl
    | cons v a =>
      unfold elementOf
      rw [if_neg (Ne.symm h.1)]
      exact ih h.2

/-- **An array is read field by field**, and may be too short but not too long. -/
theorem visitSeq_iff {fs : List F} (hnd : fs.Nodup) : ∀ {a : List Value} {found : Found S},
    visitSeq S fs a found = .ok found' ↔ a.length ≤ fs.length ∧ ∀ f,
      elementOf fs a f = none ∧ found' f = found f ∨
        ∃ v x, elementOf fs a f = some v ∧ S.decode f v = .ok x ∧ found' f = some x := by
  have hnil : ∀ {fs : List F} {found : Found S},
      visitSeq S fs [] found = .ok found' ↔ 0 ≤ fs.length ∧ ∀ f,
        elementOf fs [] f = none ∧ found' f = found f ∨
          ∃ v x, elementOf fs [] f = some v ∧ S.decode f v = .ok x ∧ found' f = some x := by
    intro fs found
    have hnone : ∀ f, elementOf fs [] f = none := by
      intro f
      cases fs <;> rfl
    have hread : visitSeq S fs [] found = .ok found := by cases fs <;> rfl
    rw [hread, Except.ok.injEq, funext_iff]
    constructor
    · intro h
      exact ⟨Nat.zero_le _, fun f => Or.inl ⟨hnone f, (h f).symm⟩⟩
    · rintro ⟨-, h⟩ f
      rcases h f with ⟨-, heq⟩ | ⟨v, x, hsome, -⟩
      · exact heq.symm
      · rw [hnone] at hsome
        cases hsome
  induction fs with
  | nil =>
    intro a found
    cases a with
    | nil => exact hnil
    | cons v a => exact iff_of_false (fun h => by cases h) (by simp)
  | cons f fs ih =>
    intro a found
    cases a with
    | nil => exact hnil
    | cons v a =>
      obtain ⟨hf, hnd⟩ := List.nodup_cons.1 hnd
      unfold visitSeq
      cases hx : S.decode f v with
      | error err =>
        refine iff_of_false (fun h => by cases h) fun h => ?_
        rcases h.2 f with ⟨hnone, -⟩ | ⟨w, y, hw, hy, -⟩
        · rw [elementOf, if_pos rfl] at hnone
          cases hnone
        · rw [elementOf, if_pos rfl, Option.some.injEq] at hw
          rw [← hw, hx] at hy
          cases hy
      | ok x =>
        refine (ih hnd).trans (and_congr (by simp) (forall_congr' fun g => ?_))
        by_cases hg : g = f
        · subst hg
          rw [elementOf_of_notMem hf, elementOf, if_pos rfl, put_self]
          simp [hx]
        · rw [put_ne hg, elementOf, if_neg (Ne.symm hg)]

/-- What a document gives a field. -/
def given (S : Schema F) : Value → F → List Value
  | .object members, f => valuesOf S members f
  | .array a, f => (elementOf S.fields a f).toList
  | _, _ => []

/-- The document has the shape of a struct. -/
def Shaped (S : Schema F) : Value → Prop
  | .object _ => True
  | .array a => a.length ≤ S.fields.length
  | _ => False

theorem visit_ok_iff :
    visit S v = .ok found ↔ Shaped S v ∧ ∀ f,
      given S v f = [] ∧ found f = none ∨
        ∃ w x, given S v f = [w] ∧ S.decode f w = .ok x ∧ found f = some x := by
  cases v with
  | object members => exact visitMap_ok_iff.trans (and_iff_right trivial).symm
  | array a =>
    refine (visitSeq_iff S.nodup).trans (and_congr_right fun _ => forall_congr' fun f => ?_)
    unfold given noneFound
    cases hf : elementOf S.fields a f with
    | none => simp [hf]
    | some w => simp [hf]
  | null => exact iff_of_false (fun h => by cases h) (fun h => h.1)
  | bool b => exact iff_of_false (fun h => by cases h) (fun h => h.1)
  | number n => exact iff_of_false (fun h => by cases h) (fun h => h.1)
  | string s => exact iff_of_false (fun h => by cases h) (fun h => h.1)

/-- A field is given nothing, or one value that decodes. -/
def Gives (S : Schema F) (v : Value) (f : F) (x : S.Val f) : Prop :=
  given S v f = [] ∧ x = S.default f ∨ ∃ w, given S v f = [w] ∧ S.decode f w = .ok x

/-- **A struct is read iff the document has its shape and gives each field its value.** -/
theorem ofValue_ok_iff {x : Values S} : ofValue S v = .ok x ↔ Shaped S v ∧ ∀ f, Gives S v f (x f) := by
  have hmap : ofValue S v = .ok x ↔ ∃ found, visit S v = .ok found ∧ fill found = x := by
    unfold ofValue
    cases visit S v with
    | error err => simp
    | ok found => simp
  rw [hmap]
  simp only [visit_ok_iff]
  constructor
  · rintro ⟨found, ⟨hshape, hall⟩, rfl⟩
    refine ⟨hshape, fun f => ?_⟩
    unfold Gives fill
    rcases hall f with ⟨hnil, hnone⟩ | ⟨w, y, hone, hy, hsome⟩
    · exact Or.inl ⟨hnil, by rw [hnone, Option.getD_none]⟩
    · exact Or.inr ⟨w, hone, by rw [hy, hsome, Option.getD_some]⟩
  · rintro ⟨hshape, hall⟩
    -- what was found is what is given
    refine ⟨fun f => if given S v f = [] then none else some (x f), ⟨hshape, fun f => ?_⟩, ?_⟩
    · rcases hall f with ⟨hnil, -⟩ | ⟨w, hone, hy⟩
      · exact Or.inl ⟨hnil, if_pos hnil⟩
      · exact Or.inr ⟨w, x f, hone, hy, if_neg (by simp [hone])⟩
    · funext f
      unfold fill
      simp only
      rcases hall f with ⟨hnil, hdefault⟩ | ⟨w, hone, -⟩
      · rw [if_pos hnil, Option.getD_none, hdefault]
      · rw [if_neg (by simp [hone]), Option.getD_some]

/-! ## What does not matter -/

/-- Documents that give each field the same are read alike. -/
theorem ofValue_congr {v' : Value} (hshape : Shaped S v' ↔ Shaped S v)
    (h : ∀ f x, Gives S v' f x ↔ Gives S v f x) {x : Values S} :
    ofValue S v' = .ok x ↔ ofValue S v = .ok x := by
  rw [ofValue_ok_iff, ofValue_ok_iff, hshape]
  simp only [h]

/-- The two values decode alike for a field. -/
def Alike (S : Schema F) (f : F) (w w' : Value) : Prop := ∀ x, S.decode f w' = .ok x ↔ S.decode f w = .ok x

/-- **Neither the order of what is given matters, nor what decodes alike.** -/
theorem gives_congr {v' : Value} {l : List Value} (h : List.Forall₂ (Alike S f) (given S v f) l)
    (hp : l.Perm (given S v' f)) {x : S.Val f} : Gives S v' f x ↔ Gives S v f x := by
  unfold Gives
  constructor
  · rintro (⟨hnil, hx⟩ | ⟨w', hone, hx⟩)
    · rw [hnil] at hp
      rw [hp.eq_nil, List.forall₂_nil_right_iff] at h
      exact Or.inl ⟨h, hx⟩
    · rw [hone] at hp
      rw [hp.eq_singleton] at h
      obtain ⟨w, l', hw, hl', heq⟩ := List.forall₂_cons_right_iff.1 h
      rw [List.forall₂_nil_right_iff.1 hl'] at heq
      exact Or.inr ⟨w, heq, (hw x).1 hx⟩
  · rintro (⟨hnil, hx⟩ | ⟨w, hone, hx⟩)
    · rw [hnil, List.forall₂_nil_left_iff] at h
      rw [h] at hp
      exact Or.inl ⟨hp.nil_eq.symm, hx⟩
    · rw [hone] at h
      obtain ⟨w', l', hw, hl', heq⟩ := List.forall₂_cons_left_iff.1 h
      rw [List.forall₂_nil_left_iff.1 hl'] at heq
      rw [heq] at hp
      exact Or.inr ⟨w', hp.symm.eq_singleton, (hw x).2 hx⟩

/-- The members stand under the same names, and their values are related field by field. -/
def MembersRelated (S : Schema F) (R : F → Value → Value → Prop) (members members' : List (String × Value)) :
    Prop :=
  List.Forall₂ (fun m m' => m'.1 = m.1 ∧ ∀ f, fieldOf S m.1 = some f → R f m.2 m'.2) members members'

omit [DecidableEq F] in
theorem MembersRelated.valuesOf {R : F → Value → Value → Prop} (h : MembersRelated S R members members') :
    List.Forall₂ (R f) (valuesOf S members f) (valuesOf S members' f) := by
  unfold Derive.valuesOf
  induction h with
  | nil => exact List.Forall₂.nil
  | cons hm _ ih =>
    obtain ⟨hname, hvalue⟩ := hm
    rw [List.filter_cons, List.filter_cons, hname]
    split
    · rename_i hn
      exact List.Forall₂.cons (hvalue f (fieldOf_eq_some_iff.2 (of_decide_eq_true hn).symm)) ih
    · exact ih

/-- The members that have a field. -/
def known (S : Schema F) (members : List (String × Value)) : List (String × Value) :=
  members.filter fun m => (fieldOf S m.1).isSome

omit [DecidableEq F] in
theorem valuesOf_known : valuesOf S (known S members) f = valuesOf S members f := by
  unfold valuesOf known
  rw [List.filter_filter]
  congr 1
  refine List.filter_congr fun m _ => ?_
  by_cases hm : m.1 = S.name f
  · simp [hm, fieldOf_eq_some_iff.2 (rfl : S.name f = S.name f)]
  · simp [hm]

/-- **Members without a field do not matter**, neither for what is read nor for the error. -/
theorem visitMap_known : ∀ {found : Found S}, visitMap S (known S members) found = visitMap S members found := by
  induction members with
  | nil =>
    intro found
    rfl
  | cons m members ih =>
    obtain ⟨n, v⟩ := m
    intro found
    unfold known at ih ⊢
    cases hn : fieldOf S n with
    | none =>
      rw [List.filter_cons_of_neg (by simp [hn]), ih]
      simp only [visitMap, hn]
    | some f =>
      rw [List.filter_cons_of_pos (by simp [hn])]
      simp only [visitMap, hn, ih]

/-- Two objects whose members with a field are, up to their order, related by what decodes
alike. -/
def Rearranged (S : Schema F) (members members' : List (String × Value)) : Prop :=
  ∃ l, MembersRelated S (Alike S) (known S members) l ∧ l.Perm (known S members')

/-- **A rearranged object is read alike.** -/
theorem Rearranged.ofValue_iff (h : Rearranged S members members') {x : Values S} :
    ofValue S (.object members') = .ok x ↔ ofValue S (.object members) = .ok x := by
  obtain ⟨l, hl, hp⟩ := h
  have hgives : ∀ f x, Gives S (.object members') f x ↔ Gives S (.object members) f x := by
    intro f x
    have halike : List.Forall₂ (Alike S f) (valuesOf S (known S members) f) (valuesOf S l f) := hl.valuesOf
    have hperm : (valuesOf S l f).Perm (valuesOf S (known S members') f) := (hp.filter _).map _
    rw [valuesOf_known] at halike hperm
    exact gives_congr halike hperm
  have hshape : Shaped S (.object members') ↔ Shaped S (.object members) := Iff.rfl
  exact ofValue_congr hshape hgives

omit [DecidableEq F] in
/-- Members in another order, and other members that have no field. -/
theorem rearranged_of_perm (h : (known S members').Perm (known S members)) :
    Rearranged S members members' := by
  refine ⟨known S members, ?_, h.symm⟩
  refine List.forall₂_same.2 fun m _ => ⟨rfl, fun f _ x => Iff.rfl⟩

/-! ## Errors -/

/-- Why the members cannot be read: the first one at fault is a second member of its field,
or does not decode. -/
inductive Fault (S : Schema F) (members : List (String × Value)) : JsonError → Prop
  | duplicate {before after : List (String × Value)} {n : String} {v : Value} {f : F} {found : Found S}
    (hm : members = before ++ (n, v) :: after) (hb : visitMap S before (noneFound S) = .ok found)
    (hf : fieldOf S n = some f) (hd : valuesOf S before f ≠ []) :
    Fault S members (.duplicateField n)
  | decode {before after : List (String × Value)} {n : String} {v : Value} {f : F} {found : Found S}
    {e : JsonError} (hm : members = before ++ (n, v) :: after)
    (hb : visitMap S before (noneFound S) = .ok found) (hf : fieldOf S n = some f)
    (hd : valuesOf S before f = []) (he : S.decode f v = .error e) :
    Fault S members e

theorem visitMap_append {before after : List (String × Value)} : ∀ {found : Found S},
    visitMap S (before ++ after) found = visitMap S before found >>= visitMap S after := by
  induction before with
  | nil =>
    intro found
    rfl
  | cons m before ih =>
    obtain ⟨n, v⟩ := m
    intro found
    rw [List.cons_append]
    unfold visitMap
    cases fieldOf S n with
    | none => exact ih
    | some f =>
      simp only
      cases found f with
      | some y => rfl
      | none =>
        cases S.decode f v with
        | error err => rfl
        | ok x => exact ih

/-- A field is found iff it had a member. -/
theorem found_eq_none_iff (h : visitMap S members (noneFound S) = .ok found) :
    found f = none ↔ valuesOf S members f = [] := by
  rcases visitMap_ok_iff.1 h f with ⟨hnil, hnone⟩ | ⟨v, x, hone, -, hsome⟩
  · exact iff_of_true hnone hnil
  · exact iff_of_false (by simp [hsome]) (by simp [hone])

theorem visitMap_error (h : visitMap S members (noneFound S) = .error e) : Fault S members e := by
  -- induction on the end: the members before the last are read, or have the error
  induction members using List.reverseRecOn with
  | nil => cases h
  | append_singleton members m ih =>
    obtain ⟨n, v⟩ := m
    rw [visitMap_append] at h
    cases hread : visitMap S members (noneFound S) with
    | error err =>
      rw [hread] at h
      cases h
      cases ih hread with
      | duplicate hm hb hf hd => exact Fault.duplicate (by rw [hm, List.append_assoc, List.cons_append]) hb hf hd
      | decode hm hb hf hd he => exact Fault.decode (by rw [hm, List.append_assoc, List.cons_append]) hb hf hd he
    | ok found =>
      rw [hread] at h
      replace h : visitMap S [(n, v)] found = .error e := h
      unfold visitMap at h
      cases hn : fieldOf S n with
      | none =>
        rw [hn] at h
        cases h
      | some f =>
        rw [hn] at h
        simp only at h
        cases hf : found f with
        | some y =>
          rw [hf] at h
          cases h
          exact Fault.duplicate rfl hread hn (mt (found_eq_none_iff hread).2 (by simp [hf]))
        | none =>
          rw [hf] at h
          cases hx : S.decode f v with
          | ok x =>
            rw [hx] at h
            cases h
          | error err =>
            rw [hx] at h
            cases h
            exact Fault.decode rfl hread hn ((found_eq_none_iff hread).1 hf) hx

/-- **An error is the one of the first member at fault.** -/
theorem visitMap_error_iff : visitMap S members (noneFound S) = .error e ↔ Fault S members e := by
  constructor
  · exact visitMap_error
  · intro h
    cases h with
    | @duplicate before after n v f found hm hb hf hd =>
      rw [hm, visitMap_append, hb]
      show visitMap S _ found = _
      unfold visitMap
      rw [hf]
      simp only
      cases hfound : found f with
      | none => exact absurd ((found_eq_none_iff hb).1 hfound) hd
      | some y => rfl
    | @decode before after n v f found e hm hb hf hd he =>
      rw [hm, visitMap_append, hb]
      show visitMap S _ found = _
      unfold visitMap
      rw [hf]
      simp only
      rw [(found_eq_none_iff hb).2 hd, he]
      rfl

end Derive
