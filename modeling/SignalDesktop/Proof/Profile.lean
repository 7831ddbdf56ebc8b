import SignalDesktop.Proof.Ephemeral

/-!
# From a profile to its database

`openRecovered` recovers the key of a profile and opens its database.

* `openAt_eq`: an open makes its calls one after the other, until one fails
  (`performAll_spec`).
* `openRecovered_exact`: what is returned and which calls are made, for every profile.
-/

namespace SignalDesktop

open Hex

variable {fromSlice : SliceParser} {D : Decoder} {bytes : List UInt8} {RecoveredKey : Type}
  {decryptCookie : RecoveredKey → List UInt8 → Except String (List UInt8)} {catalog : Catalog}
  {files : Files} {profile : String} {recovered : RecoveredKey} {lib : Library}

/-- The key of a profile. -/
def profileKey (catalog : Catalog) (files : Files) (fromSlice : SliceParser) (D : Decoder)
    (decryptCookie : RecoveredKey → List UInt8 → Except String (List UInt8)) (profile : String)
    (recovered : RecoveredKey) : Except ProfileError SqlcipherKey := do
  let config ← SignalConfig.fromProfile catalog files fromSlice D profile
  (unwrapSqlcipherKey D decryptCookie recovered config).mapError .signal

/-- Recover the key of a profile and open its database with it: the result, and the calls
made to the database library. -/
def openRecovered (catalog : Catalog) (files : Files) (fromSlice : SliceParser) (D : Decoder)
    (decryptCookie : RecoveredKey → List UInt8 → Except String (List UInt8)) (lib : Library)
    (profile : String) (recovered : RecoveredKey) : Except ProfileError Unit × List Call :=
  match profileKey catalog files fromSlice D decryptCookie profile recovered with
  | .error e => (.error e, [])
  | .ok key =>
    let r := (openProfile catalog files lib profile key).run.run []
    (r.1.mapError .signal, r.2)

def configPath (catalog : Catalog) (files : Files) (profile : String) : String :=
  files.join profile ((configRelpath catalog).getD "config.json")

def databasePath (catalog : Catalog) (files : Files) (profile : String) : String :=
  files.join profile ((messagesDbRelpath catalog).getD "sql/db.sqlite")

theorem profileKey_of_error {source : String}
    (hread : files.read (configPath catalog files profile) = .error source) :
    profileKey catalog files fromSlice D decryptCookie profile recovered =
      .error (.configRead (configPath catalog files profile) source) := by
  unfold profileKey SignalConfig.fromProfile readFile
  show (((files.read (configPath catalog files profile)).mapError _ >>= _) >>= _) = _
  rw [hread]
  rfl

/-- A profile's key is that of its `config.json`. -/
theorem profileKey_of_bytes (hread : files.read (configPath catalog files profile) = .ok bytes) :
    profileKey catalog files fromSlice D decryptCookie profile recovered =
      (recoverKey fromSlice D decryptCookie bytes recovered).mapError .signal := by
  unfold profileKey SignalConfig.fromProfile readFile recoverKey
  show (((files.read (configPath catalog files profile)).mapError _ >>= _) >>= _) = _
  rw [hread]
  show ((SignalConfig.fromBytes fromSlice D bytes).mapError _ >>= _) = _
  cases SignalConfig.fromBytes fromSlice D bytes <;> rfl

/-- The calls of an open: to the file, with the key, and to read from it. -/
def openCalls (path : String) (key : SqlcipherKey) : List Call :=
  [.openReadOnly path, .executeBatch (keyBatch key), .queryRow "SELECT count(*) FROM sqlite_master"]

/-- Make calls one after the other, until one fails. -/
def performAll (lib : Library) : List Call → List Call → Except SignalError Unit × List Call
  | made, [] => (.ok (), made)
  | made, call :: calls =>
    match lib made call with
    | some e => (.error (.dbOpen e), made ++ [call])
    | none => performAll lib (made ++ [call]) calls

theorem openAt_eq (lib : Library) (path : String) (key : SqlcipherKey) :
    (openAt lib path key).run.run [] = performAll lib [] (openCalls path key) := by
  rw [openAt_run]
  unfold openCalls
  simp only [performAll, List.nil_append, List.singleton_append]
  cases lib [] (.openReadOnly path) with
  | some e => rfl
  | none =>
    simp only
    cases lib [.openReadOnly path] (.executeBatch (keyBatch key)) with
    | some e => rfl
    | none =>
      simp only [List.cons_append, List.nil_append]
      cases lib [.openReadOnly path, .executeBatch (keyBatch key)]
          (.queryRow "SELECT count(*) FROM sqlite_master") <;> rfl

/-- The library answers each of the calls without an error. -/
def Accepts (lib : Library) (made calls : List Call) : Prop :=
  ∀ before call after, calls = before ++ call :: after → lib (made ++ before) call = none

theorem accepts_cons_iff {made calls : List Call} {call : Call} :
    Accepts lib made (call :: calls) ↔ lib made call = none ∧ Accepts lib (made ++ [call]) calls := by
  unfold Accepts
  constructor
  · intro h
    refine ⟨?_, fun before c after hcalls => ?_⟩
    · have hfirst := h [] call calls rfl
      rwa [List.append_nil] at hfirst
    · have hlater := h (call :: before) c after (by rw [hcalls, List.cons_append])
      rw [List.append_assoc]
      exact hlater
  · rintro ⟨hfirst, hlater⟩ before c after hcalls
    cases before with
    | nil =>
      cases hcalls
      rwa [List.append_nil]
    | cons b before =>
      rw [List.cons_append, List.cons.injEq] at hcalls
      obtain ⟨rfl, hcalls⟩ := hcalls
      have hc := hlater before c after hcalls
      rwa [List.append_assoc] at hc

/-- **Calls stop at the first one that fails**, with its error. -/
theorem performAll_spec (lib : Library) (calls : List Call) : ∀ made,
    Accepts lib made calls ∧ performAll lib made calls = (.ok (), made ++ calls) ∨
    ∃ before call after e, calls = before ++ call :: after ∧ Accepts lib made before ∧
      lib (made ++ before) call = some e ∧
      performAll lib made calls = (.error (.dbOpen e), made ++ (before ++ [call])) := by
  induction calls with
  | nil =>
    intro made
    refine Or.inl ⟨?_, by rw [performAll, List.append_nil]⟩
    intro before call after h
    simp at h
  | cons call calls ih =>
    intro made
    unfold performAll
    cases hcall : lib made call with
    | some e =>
      refine Or.inr ⟨[], call, calls, e, rfl, ?_, by rw [List.append_nil, hcall], rfl⟩
      intro before c after h
      simp at h
    | none =>
      rcases ih (made ++ [call]) with ⟨hall, hrun⟩ | ⟨before, c, after, e, rfl, hbefore, hc, hrun⟩
      · refine Or.inl ⟨accepts_cons_iff.2 ⟨hcall, hall⟩, ?_⟩
        simp only
        rw [hrun, List.append_assoc]
        rfl
      · refine Or.inr ⟨call :: before, c, after, e, rfl, accepts_cons_iff.2 ⟨hcall, hbefore⟩, ?_, ?_⟩
        · rwa [List.append_assoc] at hc
        · simp only
          rw [hrun, List.append_assoc]
          rfl

/-- **From a profile to its database.** A `config.json` that cannot be read is an error with
its path, and a key that is not recovered is the error of the recovery; in both cases the
database library is not called. With a key the database of the profile is opened, by the
first calls of the open up to the one that fails, whose error is returned. -/
theorem openRecovered_exact (catalog : Catalog) (files : Files) (fromSlice : SliceParser) (D : Decoder)
    (decryptCookie : RecoveredKey → List UInt8 → Except String (List UInt8)) (lib : Library)
    (profile : String) (recovered : RecoveredKey) :
    (∀ source, files.read (configPath catalog files profile) = .error source →
      openRecovered catalog files fromSlice D decryptCookie lib profile recovered =
        (.error (.configRead (configPath catalog files profile) source), [])) ∧
    (∀ bytes, files.read (configPath catalog files profile) = .ok bytes →
      (∀ err, recoverKey fromSlice D decryptCookie bytes recovered = .error err →
        openRecovered catalog files fromSlice D decryptCookie lib profile recovered =
          (.error (.signal err), [])) ∧
      ∀ key, recoverKey fromSlice D decryptCookie bytes recovered = .ok key →
        Accepts lib [] (openCalls (databasePath catalog files profile) key) ∧
          openRecovered catalog files fromSlice D decryptCookie lib profile recovered =
            (.ok (), openCalls (databasePath catalog files profile) key) ∨
        ∃ before call after e, openCalls (databasePath catalog files profile) key = before ++ call :: after ∧
          Accepts lib [] before ∧ lib before call = some e ∧
          openRecovered catalog files fromSlice D decryptCookie lib profile recovered =
            (.error (.signal (.dbOpen e)), before ++ [call])) := by
  refine ⟨fun source hread => ?_, fun bytes hread => ⟨fun err hkey => ?_, fun key hkey => ?_⟩⟩
  · unfold openRecovered
    rw [profileKey_of_error hread]
  · unfold openRecovered
    rw [profileKey_of_bytes hread, hkey]
    rfl
  · have hopen : openRecovered catalog files fromSlice D decryptCookie lib profile recovered =
        ((performAll lib [] (openCalls (databasePath catalog files profile) key)).1.mapError .signal,
          (performAll lib [] (openCalls (databasePath catalog files profile) key)).2) := by
      unfold openRecovered
      rw [profileKey_of_bytes hread, hkey, ← openAt_eq]
      rfl
    rw [hopen]
    rcases performAll_spec lib (openCalls (databasePath catalog files profile) key) [] with
      ⟨hall, hrun⟩ | ⟨before, call, after, e, hcalls, hbefore, hcall, hrun⟩
    · rw [hrun]
      exact Or.inl ⟨hall, rfl⟩
    · rw [hrun]
      exact Or.inr ⟨before, call, after, e, hcalls, hbefore, hcall, rfl⟩

end SignalDesktop
