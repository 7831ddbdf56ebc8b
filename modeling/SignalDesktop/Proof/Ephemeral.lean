import SignalDesktop.Proof.Config

/-!
# What `ephemeral.json` says

* `ephemeral_exact`: which files give an app state, which one, and which error each of the
  others gives.
* `ephemeral_rearranged`: neither the order of the members nor other members matter, inside
  the window and outside.
-/

namespace SignalDesktop

open SerdeJson Derive

variable {fromSlice : SliceParser} {bytes bytes' : List UInt8} {v : Value}
  {members members' : List (String × Value)}

/-! ## The fields -/

def WindowState.values (c : WindowState) : Values windowSchema
  | .width => c.width
  | .height => c.height
  | .x => c.x
  | .y => c.y
  | .maximized => c.maximized
  | .fullscreen => c.fullscreen

def EphemeralConfig.values (c : EphemeralConfig) : Values ephemeralSchema
  | .theme => c.theme
  | .spellCheck => c.spellCheck
  | .localeOverride => c.localeOverride
  | .window => c.window

theorem WindowState.ofValue_ok_iff {c : WindowState} :
    WindowState.ofValue v = .ok c ↔ Shaped windowSchema v ∧
      Holds Value.asI64 (given windowSchema v .width) c.width ∧
      Holds Value.asI64 (given windowSchema v .height) c.height ∧
      Holds Value.asI64 (given windowSchema v .x) c.x ∧
      Holds Value.asI64 (given windowSchema v .y) c.y ∧
      Holds Value.asBool (given windowSchema v .maximized) c.maximized ∧
      Holds Value.asBool (given windowSchema v .fullscreen) c.fullscreen := by
  have hint : ∀ vals x, (vals = [] ∧ x = none ∨ ∃ w, vals = [w] ∧ option (accessor Value.asI64) w = .ok x) ↔
      Holds Value.asI64 vals x := fun vals x => holds_iff (fun w a => accessor_ok_iff) rfl
  have hbool : ∀ vals x, (vals = [] ∧ x = none ∨ ∃ w, vals = [w] ∧ option (accessor Value.asBool) w = .ok x) ↔
      Holds Value.asBool vals x := fun vals x => holds_iff (fun w a => accessor_ok_iff) rfl
  unfold WindowState.ofValue
  rw [map_ok_iff]
  simp only [Derive.ofValue_ok_iff, ← hint, ← hbool]
  constructor
  · rintro ⟨x, ⟨hshape, hall⟩, rfl⟩
    exact ⟨hshape, hall .width, hall .height, hall .x, hall .y, hall .maximized, hall .fullscreen⟩
  · rintro ⟨hshape, h₁, h₂, h₃, h₄, h₅, h₆⟩
    refine ⟨c.values, ⟨hshape, fun f => ?_⟩, rfl⟩
    cases f <;> assumption

/-- The window state a value gives, if any. -/
def windowOf (v : Value) : Option WindowState := (WindowState.ofValue v).toOption

theorem EphemeralConfig.ofValue_ok_iff {c : EphemeralConfig} :
    EphemeralConfig.ofValue v = .ok c ↔ Shaped ephemeralSchema v ∧
      Holds Value.asStr (given ephemeralSchema v .theme) c.theme ∧
      Holds Value.asBool (given ephemeralSchema v .spellCheck) c.spellCheck ∧
      Holds Value.asStr (given ephemeralSchema v .localeOverride) c.localeOverride ∧
      Holds windowOf (given ephemeralSchema v .window) c.window := by
  have hstr : ∀ vals x, (vals = [] ∧ x = none ∨ ∃ w, vals = [w] ∧ option (accessor Value.asStr) w = .ok x) ↔
      Holds Value.asStr vals x := fun vals x => holds_iff (fun w a => accessor_ok_iff) rfl
  have hbool : ∀ vals x, (vals = [] ∧ x = none ∨ ∃ w, vals = [w] ∧ option (accessor Value.asBool) w = .ok x) ↔
      Holds Value.asBool vals x := fun vals x => holds_iff (fun w a => accessor_ok_iff) rfl
  have hwindow : ∀ vals x, (vals = [] ∧ x = none ∨ ∃ w, vals = [w] ∧ option WindowState.ofValue w = .ok x) ↔
      Holds windowOf vals x := fun vals x => holds_iff (fun w a => toOption_eq_some_iff.symm) rfl
  unfold EphemeralConfig.ofValue
  rw [map_ok_iff]
  simp only [Derive.ofValue_ok_iff, ← hstr, ← hbool, ← hwindow]
  constructor
  · rintro ⟨x, ⟨hshape, hall⟩, rfl⟩
    exact ⟨hshape, hall .theme, hall .spellCheck, hall .localeOverride, hall .window⟩
  · rintro ⟨hshape, h₁, h₂, h₃, h₄⟩
    refine ⟨c.values, ⟨hshape, fun f => ?_⟩, rfl⟩
    cases f <;> assumption

theorem EphemeralConfig.fromBytes_ok_iff {c : EphemeralConfig} :
    EphemeralConfig.fromBytes fromSlice bytes = .ok c ↔
      ∃ doc, fromSlice bytes = .ok doc ∧ EphemeralConfig.ofValue doc = .ok c := by
  unfold EphemeralConfig.fromBytes
  cases fromSlice bytes with
  | error message => exact iff_of_false (fun h => by cases h) (by simp)
  | ok doc =>
    simp only [Except.ok.injEq, exists_eq_left']
    show (EphemeralConfig.ofValue doc).mapError _ = _ ↔ _
    cases EphemeralConfig.ofValue doc <;> simp [Except.mapError]

theorem EphemeralConfig.fromBytes_error_iff {err : ProfileError} :
    EphemeralConfig.fromBytes fromSlice bytes = .error err ↔ ∃ e, err = .ephemeralJson e ∧
      ((∃ message, fromSlice bytes = .error message ∧ e = .malformed message) ∨
        ∃ doc, fromSlice bytes = .ok doc ∧ EphemeralConfig.ofValue doc = .error e) := by
  unfold EphemeralConfig.fromBytes
  cases fromSlice bytes with
  | error message =>
    show Except.error (ProfileError.ephemeralJson (.malformed message)) = _ ↔ _
    simp [eq_comm]
  | ok doc =>
    simp only [Except.ok.injEq, exists_eq_left', reduceCtorEq, false_and, exists_false, false_or]
    show (EphemeralConfig.ofValue doc).mapError _ = _ ↔ _
    cases EphemeralConfig.ofValue doc <;> simp [Except.mapError, eq_comm]

/-- **What `ephemeral.json` says, exactly.** A config is returned iff the file is a JSON
object, or an array that is not too long, that gives each field nothing, a null or one value
of its type, and the window likewise. Every other file is an error about the JSON; for an
object it is the one of the first member at fault, in the window as outside. -/
theorem ephemeral_exact (fromSlice : SliceParser) (bytes : List UInt8) :
    (∀ c, EphemeralConfig.fromBytes fromSlice bytes = .ok c ↔ ∃ doc, fromSlice bytes = .ok doc ∧
      Shaped ephemeralSchema doc ∧ Holds Value.asStr (given ephemeralSchema doc .theme) c.theme ∧
      Holds Value.asBool (given ephemeralSchema doc .spellCheck) c.spellCheck ∧
      Holds Value.asStr (given ephemeralSchema doc .localeOverride) c.localeOverride ∧
      Holds windowOf (given ephemeralSchema doc .window) c.window) ∧
    (∀ v w, windowOf v = some w ↔ Shaped windowSchema v ∧
      Holds Value.asI64 (given windowSchema v .width) w.width ∧
      Holds Value.asI64 (given windowSchema v .height) w.height ∧
      Holds Value.asI64 (given windowSchema v .x) w.x ∧
      Holds Value.asI64 (given windowSchema v .y) w.y ∧
      Holds Value.asBool (given windowSchema v .maximized) w.maximized ∧
      Holds Value.asBool (given windowSchema v .fullscreen) w.fullscreen) ∧
    (∀ err, EphemeralConfig.fromBytes fromSlice bytes = .error err ↔ ∃ e, err = .ephemeralJson e ∧
      ((∃ message, fromSlice bytes = .error message ∧ e = .malformed message) ∨
        ∃ doc, fromSlice bytes = .ok doc ∧ EphemeralConfig.ofValue doc = .error e)) ∧
    (∀ members e, EphemeralConfig.ofValue (.object members) = .error e ↔ Fault ephemeralSchema members e) ∧
    ∀ members e, WindowState.ofValue (.object members) = .error e ↔ Fault windowSchema members e := by
  refine ⟨fun c => ?_, fun v w => toOption_eq_some_iff.trans WindowState.ofValue_ok_iff,
    fun err => EphemeralConfig.fromBytes_error_iff, fun members e => ?_, fun members e => ?_⟩
  · rw [EphemeralConfig.fromBytes_ok_iff]
    simp only [EphemeralConfig.ofValue_ok_iff]
  · rw [← visitMap_error_iff]
    exact map_error_iff.trans map_error_iff
  · rw [← visitMap_error_iff]
    exact map_error_iff.trans map_error_iff

/-! ## The order of the members -/

/-- The values of a member: the same, or two windows whose members are rearranged. -/
def WindowRearranged (f : EphemeralField) (w w' : Value) : Prop :=
  w' = w ∨ f = .window ∧ ∃ ms ms', w = .object ms ∧ w' = .object ms' ∧
    (known windowSchema ms').Perm (known windowSchema ms)

theorem WindowRearranged.alike {f : EphemeralField} {w w' : Value} (h : WindowRearranged f w w') :
    Alike ephemeralSchema f w w' := by
  rcases h with rfl | ⟨rfl, ms, ms', rfl, rfl, hp⟩
  · exact fun x => Iff.rfl
  · have hread : ∀ a, WindowState.ofValue (.object ms') = .ok a ↔ WindowState.ofValue (.object ms) = .ok a := by
      intro a
      unfold WindowState.ofValue
      rw [map_ok_iff, map_ok_iff]
      simp only [(rearranged_of_perm hp).ofValue_iff]
    have hwindow : ∀ w (x : Option WindowState), option WindowState.ofValue w = .ok x ↔
        w = .null ∧ x = none ∨ ∃ a, windowOf w = some a ∧ x = some a := fun w x =>
      option_ok_iff (fun w a => toOption_eq_some_iff.symm) rfl
    have hoption : ∀ x : Option WindowState, option WindowState.ofValue (.object ms') = .ok x ↔
        option WindowState.ofValue (.object ms) = .ok x := by
      intro x
      rw [hwindow, hwindow]
      unfold windowOf
      simp only [toOption_eq_some_iff, hread, reduceCtorEq, false_and]
    exact hoption

/-- **Neither does the order in `ephemeral.json`**, outside the window and inside it. -/
theorem ephemeral_rearranged {l : List (String × Value)} (hdoc : fromSlice bytes = .ok (.object members))
    (hdoc' : fromSlice bytes' = .ok (.object members'))
    (hl : MembersRelated ephemeralSchema WindowRearranged (known ephemeralSchema members) l)
    (hp : l.Perm (known ephemeralSchema members')) (c : EphemeralConfig) :
    EphemeralConfig.fromBytes fromSlice bytes' = .ok c ↔
      EphemeralConfig.fromBytes fromSlice bytes = .ok c := by
  have halike : Rearranged ephemeralSchema members members' := by
    refine ⟨l, hl.imp fun m m' hm => ⟨hm.1, fun f hf => (hm.2 f hf).alike⟩, hp⟩
  rw [EphemeralConfig.fromBytes_ok_iff, EphemeralConfig.fromBytes_ok_iff, hdoc, hdoc']
  simp only [Except.ok.injEq, exists_eq_left']
  unfold EphemeralConfig.ofValue
  rw [map_ok_iff, map_ok_iff]
  simp only [halike.ofValue_iff]

/-! Two spellings of an app state: other orders, and a member of the window that no field
reads. -/

def width : Value := .number (.posInt 640)

def height : Value := .number (.posInt 480)

def darkMembers : List (String × Value) :=
  [("theme-setting", .string "dark"), ("window", .object [("width", width), ("height", height)])]

def zoomedMembers : List (String × Value) :=
  [("window", .object [("height", height), ("zoom", .null), ("width", width)]), ("theme-setting", .string "dark")]

def darkText : List UInt8 := ("\x7b\"theme-setting\":\"dark\"," ++
  "\"window\":\x7b\"width\":640,\"height\":480\x7d\x7d").toUTF8.data.toList

def zoomedText : List UInt8 := ("\x7b\"window\":\x7b\"height\":480,\"zoom\":null,\"width\":640\x7d," ++
  "\"theme-setting\":\"dark\"\x7d").toUTF8.data.toList

def stateSpellings : SliceParser := fun bytes =>
  if bytes = darkText then .ok (.object darkMembers)
  else if bytes = zoomedText then .ok (.object zoomedMembers)
  else .error "expected value at line 1 column 1"

theorem stateSpellings_dark : stateSpellings darkText = .ok (.object darkMembers) := if_pos rfl

theorem stateSpellings_zoomed : stateSpellings zoomedText = .ok (.object zoomedMembers) := by
  have hne : zoomedText ≠ darkText := by decide +kernel
  rw [stateSpellings, if_neg hne, if_pos rfl]

theorem ephemeral_rearranged_sample :
    EphemeralConfig.fromBytes stateSpellings zoomedText =
      .ok ⟨some "dark", none, none, some ⟨some 640, some 480, none, none, none, none⟩⟩ := by
  refine (ephemeral_rearranged stateSpellings_dark stateSpellings_zoomed (l := [("theme-setting", .string "dark"),
    ("window", .object [("height", height), ("zoom", .null), ("width", width)])]) ?_
    (List.Perm.swap _ _ _) _).2 ?_
  · refine .cons ⟨rfl, fun f _ => Or.inl rfl⟩ (.cons ⟨rfl, fun f hf => Or.inr ?_⟩ .nil)
    cases f with
    | window => exact ⟨rfl, _, _, rfl, rfl, List.Perm.swap _ _ _⟩
    | theme => exact absurd hf (by decide)
    | spellCheck => exact absurd hf (by decide)
    | localeOverride => exact absurd hf (by decide)
  · unfold EphemeralConfig.fromBytes
    rw [stateSpellings_dark]
    rfl

end SignalDesktop
