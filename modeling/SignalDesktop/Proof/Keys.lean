import SignalDesktop.Spec.Keys

/-!
# The key pipeline runs one raw-key PRAGMA

* `fromHex_ok_iff`: the accepted texts are 64 hex digits in any mix of cases.
* `key_pipeline`: whatever the config and the decryption return, a recovered key is 64
  lower-case hex digits, and opening a database with it runs one batch, with no quote or
  semicolon besides those of the template.
-/

namespace SignalDesktop

open Hex

variable {D : Decoder} {s s' : String} {k k' : SqlcipherKey}

/-! ## Accepted texts -/

/-- 64 hex digits, in any mix of cases. -/
def IsHexKey (s : String) : Prop := s.length = 64 ∧ ∀ c ∈ s.toList, IsDigit c

instance : DecidablePred IsHexKey := fun s =>
  have : Decidable (∀ c ∈ s.toList, IsDigit c) := List.decidableBAll _ _
  inferInstanceAs (Decidable (s.length = 64 ∧ ∀ c ∈ s.toList, IsDigit c))

theorem SqlcipherKey.ext_iff : k = k' ↔ k.hex = k'.hex := by
  cases k
  cases k'
  simp

theorem toList_toAsciiLowercase (s : String) :
    (toAsciiLowercase s).toList = s.toList.map Char.toLower := String.toList_ofList

/-- Lower-casing does not change whether a text can be decoded, or to what. -/
theorem decode_toAsciiLowercase {b : List UInt8} :
    D.decode (toAsciiLowercase s) = some b ↔ D.decode s = some b := by
  rw [D.decode_eq_some_iff, D.decode_eq_some_iff, toList_toAsciiLowercase, spells_map_toLower]

theorem IsHexKey.exists_decode (h : IsHexKey s) : ∃ b, D.decode s = some b := by
  refine Decoder.isSome_iff.2 ⟨?_, h.2⟩
  rw [h.1]

/-- **What `from_hex` accepts**, and the key it returns. The length check counts bytes: a
text of 64 bytes that is not 64 characters has a character that is no digit. -/
theorem fromHex_ok_iff :
    SqlcipherKey.fromHex D s = .ok k ↔ IsHexKey s ∧ k.hex = toAsciiLowercase s := by
  unfold SqlcipherKey.fromHex
  constructor
  · intro h
    split at h
    · rename_i hlen
      split at h
      · cases h
      · rename_i b hb
        cases h
        have hdec : ∃ b, D.decode s = some b := ⟨b, decode_toAsciiLowercase.1 hb⟩
        have hdig := (Decoder.isSome_iff.1 hdec).2
        -- digits take one byte each, so the byte count is the character count
        rw [utf8ByteSize_eq hdig] at hlen
        exact ⟨⟨hlen, hdig⟩, rfl⟩
    · cases h
  · rintro ⟨hkey, hhex⟩
    have hlen : s.utf8ByteSize = 64 := (utf8ByteSize_eq hkey.2).trans hkey.1
    rw [dif_pos hlen]
    obtain ⟨b, hb⟩ := hkey.exists_decode (D := D)
    split
    · rename_i hnone
      rw [decode_toAsciiLowercase.2 hb] at hnone
      cases hnone
    · exact congrArg Except.ok (SqlcipherKey.ext_iff.2 hhex.symm)

theorem fromHex_isOk_iff : (∃ k, SqlcipherKey.fromHex D s = .ok k) ↔ IsHexKey s := by
  constructor
  · rintro ⟨k, h⟩
    exact (fromHex_ok_iff.1 h).1
  · intro h
    have hraw : IsRawKey (toAsciiLowercase s) := by
      obtain ⟨b, hb⟩ := h.exists_decode (D := pairDecoder)
      exact isRawKey_of_decode ((utf8ByteSize_eq h.2).trans h.1) (decode_toAsciiLowercase.2 hb)
    exact ⟨⟨_, hraw⟩, fromHex_ok_iff.2 ⟨h, rfl⟩⟩

/-- A lower-case digit is a digit that lower-casing keeps. -/
theorem IsRawKey.isHexKey {hex : String} (h : IsRawKey hex) :
    IsHexKey hex ∧ toAsciiLowercase hex = hex := by
  refine ⟨⟨h.1, fun c hc => ?_⟩, ?_⟩
  · rw [isDigit_iff, (h.2 c hc).toLower_eq]
    exact h.2 c hc
  · have hmap : hex.toList.map Char.toLower = hex.toList := by
      refine (List.map_congr_left fun c hc => ?_).trans (List.map_id _)
      exact (h.2 c hc).toLower_eq
    rw [toAsciiLowercase, hmap, String.ofList_toList]

/-- A key is accepted as itself. -/
theorem fromHex_hex (k : SqlcipherKey) : SqlcipherKey.fromHex D k.hex = .ok k := by
  obtain ⟨hkey, hlower⟩ := k.isRawKey.isHexKey
  exact fromHex_ok_iff.2 ⟨hkey, hlower.symm⟩

/-- **Two texts give the same key iff they decode to the same 32 bytes.** -/
theorem key_eq_iff (h : SqlcipherKey.fromHex D s = .ok k) (h' : SqlcipherKey.fromHex D s' = .ok k') :
    k = k' ↔ ∃ b : List UInt8, b.length = 32 ∧ D.decode s = some b ∧ D.decode s' = some b := by
  obtain ⟨hkey, hhex⟩ := fromHex_ok_iff.1 h
  obtain ⟨-, hhex'⟩ := fromHex_ok_iff.1 h'
  rw [SqlcipherKey.ext_iff, hhex, hhex']
  constructor
  · intro heq
    obtain ⟨b, hb⟩ := hkey.exists_decode (D := D)
    have hlen := (D.decode_eq_some_iff.1 hb).length_eq
    rw [String.length_toList, hkey.1] at hlen
    refine ⟨b, by omega, hb, ?_⟩
    rwa [← decode_toAsciiLowercase, ← heq, decode_toAsciiLowercase]
  · rintro ⟨b, -, hb, hb'⟩
    rw [D.decode_eq_some_iff] at hb hb'
    rw [toAsciiLowercase, toAsciiLowercase, hb, hb']

/-! ## The batch -/

/-- The batch that sets a key. -/
def keyBatch (k : SqlcipherKey) : String := "PRAGMA key = \"x'" ++ k.hex ++ "'\";"

theorem filter_toList_append {p : Char → Bool} {h : String} (hp : h.toList.filter p = []) (a z : String) :
    (a ++ h ++ z).toList.filter p = a.toList.filter p ++ z.toList.filter p := by
  rw [String.toList_append, String.toList_append, List.filter_append, List.filter_append, hp,
    List.append_nil]

/-- **Only the template quotes.** -/
theorem keyBatch_special (k : SqlcipherKey) :
    (keyBatch k).toList.filter (fun c => c ∈ "'\";".toList) = "\"''\";".toList := by
  have hhex : k.hex.toList.filter (fun c => c ∈ "'\";".toList) = [] := by
    rw [List.filter_eq_nil_iff]
    intro c hc
    have hall : ∀ c ∈ "0123456789abcdef".toList, ¬ c ∈ "'\";".toList := forall_mem_of_all (by decide)
    simpa using hall c (k.isRawKey.2 c hc)
  exact (filter_toList_append hhex _ _).trans (by decide)

theorem batch_eq (k : SqlcipherKey) : "PRAGMA key = \"" ++ k.asPragma ++ "\";" = keyBatch k := by
  have hassoc : ∀ a x h q z : String, a ++ (x ++ h ++ q) ++ z = a ++ x ++ h ++ (q ++ z) := by
    intro a x h q z
    simp only [String.append_assoc]
  have hopen : "PRAGMA key = \"" ++ "x'" = "PRAGMA key = \"x'" := by decide
  have hclose : "'" ++ "\";" = "'\";" := by decide
  calc "PRAGMA key = \"" ++ k.asPragma ++ "\";"
      = "PRAGMA key = \"" ++ "x'" ++ k.hex ++ ("'" ++ "\";") := hassoc _ "x'" k.hex "'" _
    _ = keyBatch k := congrArg₂ (fun x y : String => x ++ k.hex ++ y) hopen hclose

/-- The calls a computation adds, from any calls before it. -/
theorem perform_run (lib : Library) (call : Call) (calls : List Call) :
    (perform lib call).run.run calls =
      ((lib calls call).elim (.ok ()) fun e => .error (.dbOpen e), calls ++ [call]) := by
  unfold perform
  rw [ExceptT.run_bind, StateT.run_bind]
  show ((_ : OpenM Unit).run.run calls) = _
  rw [ExceptT.run_bind, StateT.run_bind]
  -- the call is on record before it is answered
  show ((_ : OpenM Unit).run.run (calls ++ [call])) = _
  cases lib calls call <;> rfl

theorem andThen_run (x y : OpenM Unit) (calls : List Call) :
    (x >>= fun _ => y).run.run calls = match x.run.run calls with
      | (.ok _, calls') => y.run.run calls'
      | (.error e, calls') => (.error e, calls') := by
  cases h : x.run.run calls with
  | mk result calls' =>
    rw [ExceptT.run_bind, StateT.run_bind, h]
    cases result <;> rfl

/-- **An open, call by call**: each call runs if the ones before it succeed. -/
theorem openAt_run (lib : Library) (path : String) (k : SqlcipherKey) :
    (openAt lib path k).run.run [] =
      match lib [] (.openReadOnly path) with
      | some e => (.error (.dbOpen e), [.openReadOnly path])
      | none =>
        match lib [.openReadOnly path] (.executeBatch (keyBatch k)) with
        | some e => (.error (.dbOpen e), [.openReadOnly path, .executeBatch (keyBatch k)])
        | none =>
          ((lib [.openReadOnly path, .executeBatch (keyBatch k)]
              (.queryRow "SELECT count(*) FROM sqlite_master")).elim (.ok ()) fun e => .error (.dbOpen e),
            [.openReadOnly path, .executeBatch (keyBatch k),
              .queryRow "SELECT count(*) FROM sqlite_master"]) := by
  unfold openAt
  rw [batch_eq, andThen_run, perform_run, List.nil_append]
  cases lib [] (.openReadOnly path) with
  | some e => rfl
  | none =>
    simp only [Option.elim_none]
    rw [andThen_run, perform_run]
    simp only [List.singleton_append]
    cases lib [.openReadOnly path] (.executeBatch (keyBatch k)) with
    | some e => rfl
    | none =>
      simp only [Option.elim_none]
      rw [perform_run]
      rfl

/-- The calls made are the first ones of these three. -/
theorem openAt_calls (lib : Library) (path : String) (k : SqlcipherKey) :
    ((openAt lib path k).run.run []).2 <+: [.openReadOnly path, .executeBatch (keyBatch k),
      .queryRow "SELECT count(*) FROM sqlite_master"] := by
  rw [openAt_run]
  cases lib [] (.openReadOnly path) with
  | some e => exact ⟨_, rfl⟩
  | none =>
    cases lib [.openReadOnly path] (.executeBatch (keyBatch k)) with
    | some e => exact ⟨_, rfl⟩
    | none => exact ⟨_, rfl⟩

/-- A library that accepts every call gets all three. -/
theorem openAt_accepted {lib : Library} (hlib : ∀ calls call, lib calls call = none) (path : String)
    (k : SqlcipherKey) : (openAt lib path k).run.run [] =
      (.ok (), [.openReadOnly path, .executeBatch (keyBatch k),
        .queryRow "SELECT count(*) FROM sqlite_master"]) := by
  rw [openAt_run]
  simp only [hlib, Option.elim_none]

/-! ## The pipeline -/

/-- **The key pipeline runs one raw-key PRAGMA.** Whatever the config and the decryption
say, a recovered key is 64 lower-case hex digits; opening a database with it runs at most
one batch, which only the template quotes and ends, and exactly the one where the library
accepts every call. A text is accepted iff it is 64 hex
digits, in any mix of cases; its key is the text in lower case, and is its own text; and
two accepted texts give the same key iff they decode to the same 32 bytes. -/
theorem key_pipeline (D : Decoder) :
    (∀ (RecoveredKey : Type) (decryptCookie : RecoveredKey → List UInt8 → Except String (List UInt8))
      (recovered : RecoveredKey) (config : SignalConfig) (k : SqlcipherKey),
      unwrapSqlcipherKey D decryptCookie recovered config = .ok k →
      k.hex.length = 64 ∧ (∀ c ∈ k.hex.toList, c ∈ "0123456789abcdef".toList) ∧
      (∀ lib path, ((openAt lib path k).run.run []).2 <+: [.openReadOnly path,
        .executeBatch ("PRAGMA key = \"x'" ++ k.hex ++ "'\";"),
        .queryRow "SELECT count(*) FROM sqlite_master"]) ∧
      (∀ lib path, (∀ calls call, lib calls call = none) → (openAt lib path k).run.run [] =
        (.ok (), [.openReadOnly path, .executeBatch ("PRAGMA key = \"x'" ++ k.hex ++ "'\";"),
          .queryRow "SELECT count(*) FROM sqlite_master"])) ∧
      ("PRAGMA key = \"x'" ++ k.hex ++ "'\";").toList.filter (fun c => c ∈ "'\";".toList) =
        "\"''\";".toList) ∧
    (∀ s, (∃ k, SqlcipherKey.fromHex D s = .ok k) ↔
      s.length = 64 ∧ ∀ c ∈ s.toList, c ∈ "0123456789abcdefABCDEF".toList) ∧
    (∀ s k, SqlcipherKey.fromHex D s = .ok k →
      k.hex = toAsciiLowercase s ∧ SqlcipherKey.fromHex D k.hex = .ok k) ∧
    (∀ s s' k k', SqlcipherKey.fromHex D s = .ok k → SqlcipherKey.fromHex D s' = .ok k' →
      (k = k' ↔ ∃ b : List UInt8, b.length = 32 ∧ D.decode s = some b ∧ D.decode s' = some b)) := by
  refine ⟨?_, fun s => fromHex_isOk_iff, ?_, fun s s' k k' h h' => key_eq_iff h h'⟩
  · intro RecoveredKey decryptCookie recovered config k _
    exact ⟨k.isRawKey.1, k.isRawKey.2, fun lib path => openAt_calls lib path k,
      fun lib path hlib => openAt_accepted hlib path k, keyBatch_special k⟩
  · intro s k h
    exact ⟨(fromHex_ok_iff.1 h).2, fromHex_hex k⟩

/-- A key in mixed case. -/
def sampleKey : String := "00112233445566778899AABBCCDDEEFF00112233445566778899aabbccddeeff"

theorem isHexKey_sampleKey : IsHexKey sampleKey := by decide

/-- A config that holds the key unprotected. -/
def sampleLegacyConfig : SignalConfig where
  encryptedKey := none
  legacyKeyHex := some sampleKey

/-- The key of the config is the accepted text, and opening a database with it makes all
three calls. -/
theorem key_pipeline_sample : ∃ k,
    unwrapSqlcipherKey pairDecoder (fun (_ : Unit) _ => .error "") () sampleLegacyConfig = .ok k ∧
      (openAt (fun _ _ => none) "db.sqlite" k).run.run [] =
        (.ok (), [.openReadOnly "db.sqlite", .executeBatch ("PRAGMA key = \"x'" ++ k.hex ++ "'\";"),
          .queryRow "SELECT count(*) FROM sqlite_master"]) := by
  obtain ⟨k, hk⟩ := ((key_pipeline pairDecoder).2.1 sampleKey).2 isHexKey_sampleKey
  have hunwrap : unwrapSqlcipherKey pairDecoder (fun (_ : Unit) _ => .error "") () sampleLegacyConfig =
      .ok k := hk
  exact ⟨k, hunwrap, ((key_pipeline pairDecoder).1 _ _ _ _ k hunwrap).2.2.2.1 _ _ fun _ _ => rfl⟩

end SignalDesktop
