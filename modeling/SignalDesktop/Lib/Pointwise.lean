import Mathlib.Data.List.Forall2
import Mathlib.Data.List.Perm.Basic

/-!
# Pointwise images of a list

`List.Forall₂ R as bs` says that `bs` records `as` element by element.

* `forall_exists_iff`: a list has a record iff each of its elements has one.
* `forall₂_iff_eq_map`: a second, finer record of the same list is a map of the first.
* `forall₂_join`: two records of the same list are related to each other.
* `forall₂_transport`: the simulation. If changing an element changes its record in a
  known way, changing a list changes its record in that way, element by element.
* `Inherited`: a relation between lists that passes to their records, as reordering and
  leaving out elements do.
* `OneReplaced`: the same for a change of one element, which no selection that leaves the
  element out can see (`OneReplaced.filter_eq`).
-/

namespace Pointwise

variable {α α' β β' γ : Type*}

theorem mem_of_forall₂_left {R : α → β → Prop} {as : List α} {bs : List β}
    (h : List.Forall₂ R as bs) {a : α} (ha : a ∈ as) : ∃ b ∈ bs, R a b := by
  induction h with
  | nil => cases ha
  | cons h₁ _ ih =>
    rcases List.mem_cons.1 ha with rfl | ha
    · exact ⟨_, List.mem_cons_self, h₁⟩
    · obtain ⟨b, hb, hab⟩ := ih ha
      exact ⟨b, List.mem_cons_of_mem _ hb, hab⟩

theorem mem_of_forall₂_right {R : α → β → Prop} {as : List α} {bs : List β}
    (h : List.Forall₂ R as bs) {b : β} (hb : b ∈ bs) : ∃ a ∈ as, R a b :=
  mem_of_forall₂_left h.flip hb

/-- A list all of whose elements have an image under `R` has a pointwise image. -/
theorem exists_forall₂ {R : α → β → Prop} {as : List α} (h : ∀ a ∈ as, ∃ b, R a b) :
    ∃ bs, List.Forall₂ R as bs := by
  induction as with
  | nil => exact ⟨[], .nil⟩
  | cons a as ih =>
    obtain ⟨b, hb⟩ := h a List.mem_cons_self
    obtain ⟨bs, hbs⟩ := ih fun x hx => h x (List.mem_cons_of_mem a hx)
    exact ⟨b :: bs, .cons hb hbs⟩

theorem forall_exists_iff {R : α → β → Prop} {as : List α} :
    (∀ a ∈ as, ∃ b, R a b) ↔ ∃ bs, List.Forall₂ R as bs := by
  refine ⟨exists_forall₂, ?_⟩
  rintro ⟨bs, h⟩ a ha
  obtain ⟨b, -, hab⟩ := mem_of_forall₂_left h ha
  exact ⟨b, hab⟩

/-- If `R` relates every element to what `S` maps it to, the image under `S` is a map of
the image under `R`. -/
theorem forall₂_iff_eq_map {R : α → β → Prop} {S : α → γ → Prop} {f : β → γ}
    (hf : ∀ a b, R a b → ∀ c, S a c ↔ c = f b) {as : List α} {bs : List β} {cs : List γ}
    (hb : List.Forall₂ R as bs) : List.Forall₂ S as cs ↔ cs = bs.map f := by
  induction hb generalizing cs with
  | nil => simp
  | cons hab _ ih =>
    cases cs with
    | nil => simp
    | cons c cs => rw [List.forall₂_cons, ih, hf _ _ hab, List.map_cons, List.cons.injEq]

theorem forall₂_join {R : α → β → Prop} {S : α → γ → Prop} {T : β → γ → Prop} {as : List α}
    {bs : List β} {cs : List γ} (h : ∀ a ∈ as, ∀ b c, R a b → S a c → T b c)
    (hb : List.Forall₂ R as bs) (hc : List.Forall₂ S as cs) : List.Forall₂ T bs cs := by
  induction hb generalizing cs with
  | nil => cases hc; exact .nil
  | cons hab _ ih =>
    cases hc with
    | cons hac hc =>
      exact .cons (h _ List.mem_cons_self _ _ hab hac)
        (ih (fun a ha => h a (List.mem_cons_of_mem _ ha)) hc)

theorem filterMap_eq_of_forall₂ {f : α → Option γ} {g : β → Option γ} {as : List α} {bs : List β}
    (h : List.Forall₂ (fun a b => f a = g b) as bs) : as.filterMap f = bs.filterMap g := by
  induction h with
  | nil => rfl
  | cons hab _ ih => rw [List.filterMap_cons, List.filterMap_cons, hab, ih]

/-- **The simulation.** The step: the image `b` of an element `a` that is changed to `a'`
has a counterpart `b'`, related to it by `Q`. The run: so has the image of a list. -/
theorem forall₂_transport {R : α → β → Prop} {R' : α' → β' → Prop} {P : α → α' → Prop}
    {Q : β → β' → Prop} {as : List α} {as' : List α'} {bs : List β}
    (step : ∀ a ∈ as, ∀ a' b, P a a' → R a b → ∃ b', R' a' b' ∧ Q b b')
    (hP : List.Forall₂ P as as') (hR : List.Forall₂ R as bs) :
    ∃ bs', List.Forall₂ R' as' bs' ∧ List.Forall₂ Q bs bs' := by
  induction hP generalizing bs with
  | nil => cases hR; exact ⟨[], .nil, .nil⟩
  | cons hp _ ih =>
    cases hR with
    | cons hr hR =>
      obtain ⟨b', h₁, h₂⟩ := step _ List.mem_cons_self _ _ hp hr
      obtain ⟨bs', hs₁, hs₂⟩ := ih (fun a ha => step a (List.mem_cons_of_mem _ ha)) hR
      exact ⟨b' :: bs', .cons h₁ hs₁, .cons h₂ hs₂⟩

/-! ## Relations that records inherit -/

/-- If the elements of two lists are recorded, the records of lists related by `ρ` are
related by `ρ`. -/
structure Inherited (ρ : ∀ {α : Type}, List α → List α → Prop) : Prop where
  map : ∀ {α β : Type} {l l' : List α} (f : α → β), ρ l l' → ρ (l.map f) (l'.map f)
  record : ∀ {α β : Type} {R : α → β → Prop} {as as' : List α} {bs : List β}, ρ as' as →
    List.Forall₂ R as bs → ∃ bs', List.Forall₂ R as' bs' ∧ ρ bs' bs

theorem inherited_perm : Inherited List.Perm :=
  ⟨fun f h => h.map f, fun hp h => List.perm_comp_forall₂ hp h⟩

theorem forall₂_sublist {α β : Type} {R : α → β → Prop} {as as' : List α} {bs : List β}
    (hs : as'.Sublist as) (h : List.Forall₂ R as bs) :
    ∃ bs', List.Forall₂ R as' bs' ∧ bs'.Sublist bs := by
  induction hs generalizing bs with
  | slnil => exact ⟨[], .nil, List.nil_sublist _⟩
  | cons a _ ih =>
    cases h with
    | cons _ h =>
      obtain ⟨bs', hbs', hsub⟩ := ih h
      exact ⟨bs', hbs', hsub.cons _⟩
  | cons_cons a _ ih =>
    cases h with
    | cons hab h =>
      obtain ⟨bs', hbs', hsub⟩ := ih h
      exact ⟨_ :: bs', .cons hab hbs', hsub.cons_cons _⟩

theorem inherited_sublist : Inherited List.Sublist :=
  ⟨fun f h => h.map f, fun hs h => forall₂_sublist hs h⟩

/-! ## One element -/

/-- `l'` is `l` with the element at index `n` replaced by one related to it by `Q`. -/
def OneReplaced (n : ℕ) (Q : α → α → Prop) (l l' : List α) : Prop :=
  ∃ before a a' after, l = before ++ a :: after ∧ l' = before ++ a' :: after ∧
    before.length = n ∧ Q a a'

variable {n : ℕ} {Q : α → α → Prop} {l l' : List α}

theorem OneReplaced.symm {P : α → α → Prop} (hP : ∀ a a', Q a a' → P a' a) (h : OneReplaced n Q l l') :
    OneReplaced n P l' l := by
  obtain ⟨before, a, a', after, hl, hl', hn, hq⟩ := h
  exact ⟨before, a', a, after, hl', hl, hn, hP a a' hq⟩

theorem OneReplaced.map {P : β → β → Prop} {f : α → β} (hf : ∀ a a', Q a a' → P (f a) (f a'))
    (h : OneReplaced n Q l l') : OneReplaced n P (l.map f) (l'.map f) := by
  obtain ⟨before, a, a', after, rfl, rfl, hn, hq⟩ := h
  refine ⟨before.map f, f a, f a', after.map f, ?_, ?_, ?_, hf a a' hq⟩
  · rw [List.map_append, List.map_cons]
  · rw [List.map_append, List.map_cons]
  · rw [List.length_map, hn]

theorem OneReplaced.forall₂ {P : α → α → Prop} (hP : ∀ a a', Q a a' → P a a') (hr : ∀ a, P a a)
    (h : OneReplaced n Q l l') : List.Forall₂ P l l' := by
  obtain ⟨before, a, a', after, rfl, rfl, -, hq⟩ := h
  exact List.rel_append (List.forall₂_same.2 fun x _ => hr x)
    (.cons (hP a a' hq) (List.forall₂_same.2 fun x _ => hr x))

/-- **What leaves the replaced element out does not see the change.** -/
theorem OneReplaced.filter_eq {p : α → Bool} (hp : ∀ a a', Q a a' → p a = false ∧ p a' = false)
    (h : OneReplaced n Q l l') : l'.filter p = l.filter p := by
  obtain ⟨before, a, a', after, rfl, rfl, -, hq⟩ := h
  obtain ⟨ha, ha'⟩ := hp a a' hq
  rw [List.filter_append, List.filter_append, List.filter_cons_of_neg (by simp [ha']),
    List.filter_cons_of_neg (by simp [ha])]

theorem OneReplaced.transport {R : α → β → Prop} {P : β → β → Prop} {bs : List β}
    (step : ∀ a ∈ l, ∀ a' b, Q a a' → R a b → ∃ b', R a' b' ∧ P b b') (h : OneReplaced n Q l l')
    (hR : List.Forall₂ R l bs) : ∃ bs', List.Forall₂ R l' bs' ∧ OneReplaced n P bs bs' := by
  obtain ⟨before, a, a', after, rfl, rfl, hn, hq⟩ := h
  induction before generalizing bs n with
  | nil =>
    cases hR with
    | @cons _ b _ bs hr hR =>
      obtain ⟨b', hb', hp⟩ := step a (by simp) a' b hq hr
      exact ⟨b' :: bs, .cons hb' hR, [], b, b', bs, rfl, rfl, hn, hp⟩
  | cons x before ih =>
    cases hR with
    | @cons _ y _ bs hr hR =>
      obtain ⟨bs', hbs', pre, b, b', post, rfl, rfl, hlen, hp⟩ :=
        ih (fun a ha => step a (List.mem_cons_of_mem x ha)) hR rfl
      refine ⟨y :: (pre ++ b' :: post), .cons hr hbs', y :: pre, b, b', post, rfl, rfl, ?_, hp⟩
      rw [List.length_cons, hlen, ← hn, List.length_cons]

end Pointwise
