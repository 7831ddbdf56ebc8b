import Mathlib.Data.Finset.Basic
import Mathlib.Data.Option.Basic
import SignalDesktop.Proof.Transport

/-!
# A schema revision does not change the reading

Later revisions store some json fields in columns of their own. `Drifts parse A db db'`:
`db'` has the columns `A`, filled in from each row's json, and its json objects may have
lost the keys of `A` and have a renamed service id.

* `drift_invariant`: every reader returns on `db'` exactly what it returns on `db`.
-/

namespace SignalDesktop

open Sqlite SerdeJson Overlay Pointwise

variable {parse : Parser} {db db' : Database} {t t' : Table} {r r' : Row} {A : Finset String}
  {old new : String}

/-! ## What a revision does -/

/-- The string under `old` is moved to `new`, which held no string. -/
def StringMoved (old new : String) (v v' : Value) : Prop :=
  ∃ s, v.get old = some (.string s) ∧ strField v new = none ∧
    v'.get new = some (.string s) ∧ v'.get old = none

/-- A json object keeps its members. Those under `A` may be removed, and the string under
`old` moved to `new`. -/
structure ObjectDrifts (A : Finset String) (old new : String) (v v' : Value) : Prop where
  kept : ∀ k, k ∉ A → k ≠ old → k ≠ new → v'.get k = v.get k
  removed : ∀ k ∈ A, v'.get k = v.get k ∨ v'.get k = none
  moved : v'.get old = v.get old ∧ v'.get new = v.get new ∨ StringMoved old new v v'

/-- A json cell is kept, or is rewritten as one json object for another. -/
def JsonDrifts (parse : Parser) (A : Finset String) (old new : String) (c c' : Cell) : Prop :=
  c' = c ∨ ∃ s s' m m', c = .text s ∧ c' = .text s' ∧ parse s = some (.object m) ∧
    parse s' = some (.object m') ∧ ObjectDrifts A old new (.object m) (.object m')

/-- The columns of `optionalMessageColumns` that record a time. The others record a flag. -/
def timestampColumns : List String := ["received_at_ms", "serverTimestamp"]

/-- The value a new column is filled in with, from the row's json: the integer under its
name, or 1 or 0 for a flag, and NULL if there is none. -/
def backfill (json : Option Value) (c : String) : Cell :=
  if c ∈ timestampColumns then .ofOption ((json.bind (·.get c)).bind Value.asI64)
  else .ofOption (((json.bind (·.get c)).bind Value.asBool).map fun b => if b then (1 : Int64) else 0)

structure MessageDrifts (parse : Parser) (A : Finset String) (present : List String) (r r' : Row) :
    Prop where
  cells : ∀ c ∈ present, c ≠ "json" → r' c = r c
  added : ∀ c ∈ A, r' c = backfill ((r "json").asText.bind parse) c
  json : JsonDrifts parse A "source" "sourceServiceId" (r "json") <| r' "json"

structure ConversationDrifts (parse : Parser) (present : List String) (r r' : Row) : Prop where
  cells : ∀ c ∈ present, c ≠ "json" → r' c = r c
  json : JsonDrifts parse ∅ "uuid" "serviceId" (r "json") <| r' "json"

/-- **A schema revision.** The columns `A`, which `messages` lacked, are added and filled in. -/
structure Drifts (parse : Parser) (A : Finset String) (db db' : Database) : Prop where
  undamaged : ∀ s, db'.fault s = none
  others : ∀ name, name ≠ "messages" → name ≠ "conversations" → db'.table name = db.table name
  missing : ∀ c ∈ A, c ∈ optionalMessageColumns ∧ c ∉ db.columns "messages"
  messageSchema : ∀ c, c ∈ db'.columns "messages" ↔ c ∈ db.columns "messages" ∨ c ∈ A
  messageRows : List.Forall₂ (MessageDrifts parse A (db.columns "messages")) (db.rows "messages")
    (db'.rows "messages")
  conversationSchema : db'.columns "conversations" = db.columns "conversations"
  conversationRows : List.Forall₂ (ConversationDrifts parse (db.columns "conversations"))
    (db.rows "conversations") (db'.rows "conversations")

/-! ## The fields of a drifted object -/

theorem ObjectDrifts.refl (v : Value) : ObjectDrifts A old new v v :=
  ⟨fun _ _ _ _ => rfl, fun _ _ => Or.inl rfl, Or.inl ⟨rfl, rfl⟩⟩

/-- The parsed json of a drifted cell: still none, or a drifted object. -/
theorem JsonDrifts.parsed {c c' : Cell} {json : Option String} (h : JsonDrifts parse A old new c c')
    (hj : c = .ofOption json) : ∃ json', c' = .ofOption json' ∧
      Option.Rel (ObjectDrifts A old new) (json.bind parse) (json'.bind parse) := by
  rcases h with heq | ⟨s, s', m, m', hs, hs', hm, hm', hd⟩
  · refine ⟨json, heq.trans hj, ?_⟩
    cases json.bind parse with
    | none => exact .none
    | some v => exact .some (ObjectDrifts.refl v)
  · have hjs : json = some s := ofOption_injective (hj.symm.trans hs)
    subst hjs
    refine ⟨some s', hs', ?_⟩
    rw [Option.bind_some, Option.bind_some, hm, hm']
    exact .some hd

variable {v v' : Option Value}

theorem get_kept (h : Option.Rel (ObjectDrifts A old new) v v') {k : String} (hA : k ∉ A)
    (ho : k ≠ old) (hn : k ≠ new) : v'.bind (·.get k) = v.bind (·.get k) := by
  cases h with
  | none => rfl
  | some hd => exact hd.kept k hA ho hn

/-- A field the json did not give is not given after the revision either. -/
theorem field_removed {α : Type} {f : Value → Option α} (h : Option.Rel (ObjectDrifts A old new) v v')
    {k : String} (hk : k ∈ A) (hnone : (v.bind (·.get k)).bind f = none) :
    (v'.bind (·.get k)).bind f = none := by
  cases h with
  | none => exact hnone
  | @some x x' hd =>
    show (x'.get k).bind f = none
    rcases hd.removed k hk with hg | hg
    · rw [hg]
      exact hnone
    · rw [hg]
      rfl

/-- **A backfilled time is the one the json gave.** Where the json gave none, the column is
NULL and the json still gives none. -/
theorem ts_backfill (h : Option.Rel (ObjectDrifts A old new) v v') {k : String} (hk : k ∈ A) :
    ts ((v.bind (·.get k)).bind Value.asI64) v' k = ts none v k := by
  show ts ((v.bind (·.get k)).bind Value.asI64) v' k = (v.bind (·.get k)).bind Value.asI64
  cases hi : (v.bind (·.get k)).bind Value.asI64 with
  | some i => rfl
  | none => exact field_removed h hk hi

/-- **A backfilled flag is the one the json gave.** -/
theorem flag_backfill (h : Option.Rel (ObjectDrifts A old new) v v') {k : String} (hk : k ∈ A) :
    flag (((v.bind (·.get k)).bind Value.asBool).map fun b => if b then (1 : Int64) else 0) v' k =
      flag none v k := by
  show flag (((v.bind (·.get k)).bind Value.asBool).map fun b => if b then (1 : Int64) else 0) v' k =
    (v.bind (·.get k)).bind Value.asBool
  cases hi : (v.bind (·.get k)).bind Value.asBool with
  | some b => cases b <;> rfl
  | none => exact field_removed h hk hi

/-- **A moved service id is found under its new key.** -/
theorem firstStr_moved (h : Option.Rel (ObjectDrifts A old new) v v') :
    v'.bind (firstStr · [new, old]) = v.bind (firstStr · [new, old]) := by
  cases h with
  | none => rfl
  | @some x x' hd =>
    show firstStr x' [new, old] = firstStr x [new, old]
    have hstr : ∀ y : Value, firstStr y [new, old] = (strField y new).or (strField y old) := by
      intro y
      simp only [firstStr, List.findSome?_cons, List.findSome?_nil]
      cases strField y new <;> cases strField y old <;> rfl
    rw [hstr, hstr]
    -- the new key is asked first, and it held no string before the move
    rcases hd.moved with ⟨ho, hn⟩ | ⟨s, ho, hn, hn', -⟩
    · rw [strField, strField, ho, hn]
      rfl
    · rw [hn, strField, hn', strField, strField, ho]
      rfl

/-! ## The messages of a revision -/

/-- The typed message row after the revision. -/
def MessageRow.drift (A : Finset String) (v : Option Value) (json' : Option String) (m : MessageRow) :
    MessageRow :=
  { m with
    json := json'
    receivedAtMs := if "received_at_ms" ∈ A then (v.bind (·.get "received_at_ms")).bind Value.asI64
      else m.receivedAtMs
    serverTimestamp := if "serverTimestamp" ∈ A then (v.bind (·.get "serverTimestamp")).bind Value.asI64
      else m.serverTimestamp
    viewOnceCol := if "isViewOnce" ∈ A then
        ((v.bind (·.get "isViewOnce")).bind Value.asBool).map fun b => if b then (1 : Int64) else 0
      else m.viewOnceCol
    erasedCol := if "isErased" ∈ A then
        ((v.bind (·.get "isErased")).bind Value.asBool).map fun b => if b then (1 : Int64) else 0
      else m.erasedCol }

/-- An optional column after the revision: backfilled, or as it was. -/
theorem optionalCell_drift {present present' : List String} {json : Option String}
    (h : MessageDrifts parse A present r r') (hj : r "json" = .ofOption json)
    (hcols : ∀ c, c ∈ present' ↔ c ∈ present ∨ c ∈ A) {c : String} (hne : c ≠ "json") {x y : Option Int64}
    (hx : optionalCell present r c = .ofOption x) (hy : backfill (json.bind parse) c = .ofOption y) :
    optionalCell present' r' c = .ofOption (if c ∈ A then y else x) := by
  by_cases hA : c ∈ A
  · rw [if_pos hA, optionalCell, if_pos ((hcols c).2 (Or.inr hA)), h.added c hA, hj, asText_ofOption, hy]
  · rw [if_neg hA, ← hx, optionalCell, optionalCell]
    by_cases hp : c ∈ present
    · rw [if_pos hp, if_pos ((hcols c).2 (Or.inl hp)), h.cells c hp hne]
    · rw [if_neg hp, if_neg fun hc => ((hcols c).1 hc).elim hp hA]

theorem MessageDrifts.recorded {present present' : List String} {m : MessageRow} {json' : Option String}
    (h : MessageDrifts parse A present r r') (hm : MessageRecorded present r m)
    (hc : ∀ c ∈ messageColumns, c ∈ present) (hcols : ∀ c, c ∈ present' ↔ c ∈ present ∨ c ∈ A)
    (hj : r' "json" = .ofOption json') :
    MessageRecorded present' r' (m.drift A (m.json.bind parse) json') := by
  have hcell : ∀ c ∈ messageColumns, c ≠ "json" → r' c = r c := fun c hm => h.cells c (hc c hm)
  exact ⟨(hcell _ (by decide) (by decide)).trans hm.id,
    (hcell _ (by decide) (by decide)).trans hm.conversationId,
    (hcell _ (by decide) (by decide)).trans hm.sentAt,
    (hcell _ (by decide) (by decide)).trans hm.receivedAt,
    (hcell _ (by decide) (by decide)).trans hm.type, (hcell _ (by decide) (by decide)).trans hm.body, hj,
    optionalCell_drift h hm.json hcols (by decide) hm.receivedAtMs (if_pos (by decide)),
    optionalCell_drift h hm.json hcols (by decide) hm.serverTimestamp (if_pos (by decide)),
    optionalCell_drift h hm.json hcols (by decide) hm.viewOnceCol (if_neg (by decide)),
    optionalCell_drift h hm.json hcols (by decide) hm.erasedCol (if_neg (by decide))⟩

/-- A column that is not present decodes to none. -/
theorem absent_column {present : List String} {c : String} {x : Option Int64} (hc : c ∉ present)
    (hx : optionalCell present r c = .ofOption x) : x = none := by
  rw [optionalCell, if_neg hc] at hx
  exact (ofOption_injective hx.symm : x = none)

theorem ts_drift (h : Option.Rel (ObjectDrifts A old new) v v') {k : String} (ho : k ≠ old)
    (hn : k ≠ new) {x : Option Int64} (hx : k ∈ A → x = none) :
    ts (if k ∈ A then (v.bind (·.get k)).bind Value.asI64 else x) v' k = ts x v k := by
  by_cases hA : k ∈ A
  · rw [if_pos hA, ts_backfill h hA, hx hA]
  · rw [if_neg hA]
    cases x with
    | some i => rfl
    | none => exact congrArg (Option.bind · Value.asI64) (get_kept h hA ho hn)

theorem flag_drift (h : Option.Rel (ObjectDrifts A old new) v v') {k : String} (ho : k ≠ old)
    (hn : k ≠ new) {x : Option Int64} (hx : k ∈ A → x = none) :
    flag (if k ∈ A then ((v.bind (·.get k)).bind Value.asBool).map fun b => if b then (1 : Int64) else 0
      else x) v' k = flag x v k := by
  by_cases hA : k ∈ A
  · rw [if_pos hA, flag_backfill h hA, hx hA]
  · rw [if_neg hA]
    cases x with
    | some i => rfl
    | none => exact congrArg (Option.bind · Value.asBool) (get_kept h hA ho hn)

/-- **A message is read as before the revision.** -/
theorem messageOf_drift {ids present : List String} {m : MessageRow} {json' : Option String}
    (hm : MessageRecorded present r m) (hA : ∀ c ∈ A, c ∈ optionalMessageColumns ∧ c ∉ present)
    (h : Option.Rel (ObjectDrifts A "source" "sourceServiceId") (m.json.bind parse) (json'.bind parse)) :
    messageOf parse ids (m.drift A (m.json.bind parse) json') = messageOf parse ids m := by
  have hatt : (json'.bind parse).bind (·.get "attachments") =
      (m.json.bind parse).bind (·.get "attachments") :=
    get_kept h (fun hc => absurd (hA _ hc).1 (by decide)) (by decide) (by decide)
  -- a column of `A` was absent, so what it is filled in with was read from the json
  have h₁ := ts_drift h (by decide) (by decide) fun hc => absent_column (hA _ hc).2 hm.receivedAtMs
  have h₂ := ts_drift h (by decide) (by decide) fun hc => absent_column (hA _ hc).2 hm.serverTimestamp
  have h₃ := flag_drift h (by decide) (by decide) fun hc => absent_column (hA _ hc).2 hm.viewOnceCol
  have h₄ := flag_drift h (by decide) (by decide) fun hc => absent_column (hA _ hc).2 hm.erasedCol
  simp only [messageOf, MessageRow.drift, hasJsonAttachments]
  rw [h₁, h₂, h₃, h₄, firstStr_moved h, hatt]

/-- The rows of the messages table, which exists on both revisions. -/
theorem Drifts.exists_messages (h : Drifts parse A db db') (ht : db.table "messages" = some t)
    (hid : "id" ∈ t.columns) :
    ∃ t', db'.table "messages" = some t' ∧ (∀ c, c ∈ t'.columns ↔ c ∈ t.columns ∨ c ∈ A) ∧
      List.Forall₂ (MessageDrifts parse A t.columns) t.rows t'.rows := by
  have hcols : ∀ c, c ∈ db'.columns "messages" ↔ c ∈ t.columns ∨ c ∈ A := by
    intro c
    rw [h.messageSchema, columns_eq ht]
  obtain ⟨t', ht', heq⟩ := exists_table ((hcols "id").2 (Or.inl hid))
  rw [← heq] at hcols
  have hrows := h.messageRows
  rw [rows_eq ht, rows_eq ht', columns_eq ht] at hrows
  exact ⟨t', ht', hcols, hrows⟩

theorem Drifts.messages_eq (h : Drifts parse A db db') {ms : List Message}
    (hm : messages parse db = .ok ms) : messages parse db' = .ok ms := by
  obtain ⟨ids, t, l, hids, hr, rfl⟩ := messages_ok_iff.1 hm
  have hf : NoNewFaults db db' := fun s _ => h.undamaged s
  have hids' := messageIds_of_same (h.others _ (by decide) (by decide)) hf hids
  obtain ⟨t', ht', hcols, hrows⟩ := h.exists_messages hr.table (hr.columns _ (by decide))
  have ho : MessagesOpen db' t' :=
    ⟨ht', fun c hc => (hcols c).2 (Or.inl (hr.columns c hc)), h.undamaged _, h.undamaged _⟩
  have step : ∀ r ∈ t.rows, ∀ r' m, MessageDrifts parse A t.columns r r' →
      MessageRecorded t.columns r m → ∃ m', MessageRecorded t'.columns r' m' ∧
        messageOf parse ids m = messageOf parse ids m' := by
    intro r _ r' m hd hrec
    obtain ⟨json', hj', hrel⟩ := hd.json.parsed hrec.json
    have hA : ∀ c ∈ A, c ∈ optionalMessageColumns ∧ c ∉ t.columns := by
      intro c hc
      rw [← columns_eq hr.table]
      exact h.missing c hc
    exact ⟨_, hd.recorded hrec hr.columns hcols hj', (messageOf_drift hrec hA hrel).symm⟩
  obtain ⟨ms', hms', hms⟩ := messages_transport hids' hr ho hrows step
  rw [List.forall₂_eq_eq_eq] at hms
  rwa [hms]

/-! ## The conversations and the attachments of a revision -/

theorem conversationOf_drift {c : ConversationRow} {json' : Option String}
    (h : Option.Rel (ObjectDrifts ∅ "uuid" "serviceId") (c.json.bind parse) (json'.bind parse)) :
    conversationOf parse { c with json := json' } = conversationOf parse c := by
  have hkept : ∀ k, k ≠ "uuid" → k ≠ "serviceId" →
      (json'.bind parse).bind (·.get k) = (c.json.bind parse).bind (·.get k) :=
    fun k ho hn => get_kept h (Finset.notMem_empty k) ho hn
  have hagree : AgreeOn ["e164", "name", "profileName", "profileFullName"] (c.json.bind parse)
      (json'.bind parse) := by
    intro k hk
    exact hkept k (by rintro rfl; exact absurd hk (by decide)) (by rintro rfl; exact absurd hk (by decide))
  have he164 : (json'.bind parse).bind (strField · "e164") = (c.json.bind parse).bind (strField · "e164") := by
    have hstr : ∀ v : Option Value, v.bind (strField · "e164") = (v.bind (·.get "e164")).bind Value.asStr := by
      intro v
      cases v <;> rfl
    rw [hstr, hstr, hagree "e164" (by decide)]
  simp only [conversationOf]
  rw [firstStr_moved h, he164, firstStr_congr hagree (by decide)]

theorem Drifts.conversations_eq (h : Drifts parse A db db') {cs : List Conversation}
    (hc : conversations parse db = .ok cs) :
    conversations parse db' = .ok cs := by
  obtain ⟨t, l, hr, rfl⟩ := conversations_ok_iff.1 hc
  obtain ⟨t', ht', hcols⟩ := exists_table_of_schema h.conversationSchema hr.table
  have hrows : List.Forall₂ (ConversationDrifts parse t.columns) t.rows t'.rows := by
    have := h.conversationRows
    rwa [rows_eq hr.table, rows_eq ht', columns_eq hr.table] at this
  have step : ∀ r ∈ t.rows, ∀ r' c, ConversationDrifts parse t.columns r r' → ConversationRecorded r c →
      ∃ c', ConversationRecorded r' c' ∧ conversationOf parse c = conversationOf parse c' := by
    intro r _ r' c hd hrec
    obtain ⟨json', hj', hrel⟩ := hd.json.parsed hrec.json
    exact ⟨{ c with json := json' }, hrec.withJson hr.columns hd.cells hj', (conversationOf_drift hrel).symm⟩
  obtain ⟨cs', hcs', hcs⟩ := conversations_transport hr ht' (by rw [hcols]; exact hr.columns)
    (h.undamaged _) hrows step
  rw [List.forall₂_eq_eq_eq] at hcs
  rwa [hcs]

theorem Drifts.attachments_eq (h : Drifts parse A db db') {out : List Attachment}
    (ha : attachments parse db = .ok out) : attachments parse db' = .ok out := by
  obtain ⟨tbl, t, l, htbl, hl, rfl⟩ := attachments_ok_iff.1 ha
  have hf : NoNewFaults db db' := fun s _ => h.undamaged s
  have htbl' := tableAttachments_of_same (h.others _ (by decide) (by decide)) hf htbl
  obtain ⟨t', ht', hcols, hrows⟩ := h.exists_messages hl.table hl.id
  have step : ∀ r ∈ t.rows, ∀ r' p, MessageDrifts parse A t.columns r r' → IdJsonRecorded r p →
      ∃ p', IdJsonRecorded r' p' ∧ jsonEntry parse p = jsonEntry parse p' := by
    intro r _ r' p hd hp
    obtain ⟨json', hj', hrel⟩ := hd.json.parsed hp.2
    -- the attachments are not under a key of `A`
    have hatt := get_kept hrel (fun hc => absurd (h.missing _ hc).1 (by decide))
      (show "attachments" ≠ "source" by decide) (by decide)
    refine ⟨(p.1, json'), ⟨(hd.cells _ hl.id (by decide)).trans hp.1, hj'⟩, ?_⟩
    simp only [jsonEntry_eq, objectElements, attachmentElements]
    rw [hatt]
  obtain ⟨l', hQ, hout⟩ := attachments_transport htbl' hl ht' ((hcols _).2 (Or.inl hl.id))
    ((hcols _).2 (Or.inl hl.json)) (h.undamaged _) hrows step
  have heq' : l.map (jsonEntry parse) = l'.map (jsonEntry parse) := by
    rw [← List.forall₂_eq_eq_eq, List.forall₂_map_left_iff, List.forall₂_map_right_iff]
    exact hQ
  rw [heq']
  exact hout

/-- **Reading is invariant under schema drift.** On the later revision every reader returns
exactly the list it returned on the earlier one. -/
theorem drift_invariant {cs : List Conversation} {ms : List Message} {out : List Attachment}
    (h : Drifts parse A db db') (hc : conversations parse db = .ok cs)
    (hm : messages parse db = .ok ms) (ha : attachments parse db = .ok out) :
    conversations parse db' = conversations parse db ∧ contacts parse db' = contacts parse db ∧
      messages parse db' = messages parse db ∧ timeline parse db' = timeline parse db ∧
      attachments parse db' = attachments parse db := by
  have hc' : conversations parse db' = conversations parse db := (h.conversations_eq hc).trans hc.symm
  have hm' : messages parse db' = messages parse db := (h.messages_eq hm).trans hm.symm
  have ha' : attachments parse db' = attachments parse db := (h.attachments_eq ha).trans ha.symm
  refine ⟨hc', ?_, hm', ?_, ha'⟩
  · rw [contacts, contacts, hc']
  · rw [timeline, timeline, hm']

/-! One message before and after `received_at_ms` and `isErased` became columns, next to one
whose json does not parse, and a conversation before and after its `uuid` was renamed. -/

def earlierMessage : String := "\x7b\"received_at_ms\":5,\"isErased\":true,\"source\":\"u1\"\x7d"

def laterMessage : String := "\x7b\"received_at_ms\":5,\"sourceServiceId\":\"u1\"\x7d"

def earlierConversation : String := "\x7b\"uuid\":\"u1\"\x7d"

def laterConversation : String := "\x7b\"serviceId\":\"u1\"\x7d"

def revisionParse : Parser := fun s =>
  if s = earlierMessage then some (.object [("received_at_ms", .number (.posInt 5)),
    ("isErased", .bool true), ("source", .string "u1")])
  else if s = laterMessage then some (.object [("received_at_ms", .number (.posInt 5)),
    ("sourceServiceId", .string "u1")])
  else if s = earlierConversation then some (.object [("uuid", .string "u1")])
  else if s = laterConversation then some (.object [("serviceId", .string "u1")])
  else none

def conversationTable (json : String) : Table where
  columns := conversationColumns
  rows := [fun
    | "id" => .text "c1"
    | "type" => .text "private"
    | "json" => .text json
    | _ => .null]
  columns_ne := conversationColumns_ne

def brokenRow : Row
  | "id" => .text "m2"
  | "json" => .text "broken"
  | _ => .null

def earlierDb : Database where
  table
    | "conversations" => some (conversationTable earlierConversation)
    | "messages" => some
      { columns := messageColumns
        rows := [
          fun
            | "id" => .text "m1"
            | "json" => .text earlierMessage
            | _ => .null,
          brokenRow]
        columns_ne := messageColumns_ne }
    | _ => none
  fault _ := none

def laterDb : Database where
  table
    | "conversations" => some (conversationTable laterConversation)
    | "messages" => some
      { columns := messageColumns ++ ["isErased", "received_at_ms"]
        rows := [
          fun
            | "id" => .text "m1"
            | "json" => .text laterMessage
            | "received_at_ms" => .integer 5
            | "isErased" => .integer 1
            | _ => .null,
          brokenRow]
        columns_ne := by decide }
    | _ => none
  fault _ := none

theorem laterDb_drifts : Drifts revisionParse {"received_at_ms", "isErased"} earlierDb laterDb where
  undamaged _ := rfl
  others name h₁ h₂ := by
    simp only [laterDb, earlierDb]
  missing := by decide
  messageSchema c := by
    rw [Finset.mem_insert, Finset.mem_singleton]
    show c ∈ messageColumns ++ ["isErased", "received_at_ms"] ↔ c ∈ messageColumns ∨ _
    rw [List.mem_append, List.mem_cons, List.mem_singleton, or_comm (a := c = "isErased")]
  messageRows := by
    refine .cons ⟨by decide, by decide, Or.inr ?_⟩ (.cons ⟨by decide, by decide, Or.inl rfl⟩ .nil)
    refine ⟨earlierMessage, laterMessage, _, _, rfl, rfl, rfl, rfl, fun k hA ho hn => ?_, fun k hk => ?_,
      Or.inr ⟨"u1", rfl, rfl, rfl, rfl⟩⟩
    · rw [Finset.mem_insert, Finset.mem_singleton, not_or] at hA
      have h₁ : (k == "received_at_ms") = false := beq_false_of_ne hA.1
      have h₂ : (k == "isErased") = false := beq_false_of_ne hA.2
      have h₃ : (k == "source") = false := beq_false_of_ne ho
      have h₄ : (k == "sourceServiceId") = false := beq_false_of_ne hn
      simp only [Value.get, List.lookup_cons, List.lookup_nil, h₁, h₂, h₃, h₄]
    · rw [Finset.mem_insert, Finset.mem_singleton] at hk
      rcases hk with rfl | rfl
      · exact Or.inl rfl
      · exact Or.inr rfl
  conversationSchema := rfl
  conversationRows := by
    refine .cons ⟨by decide, Or.inr ?_⟩ .nil
    refine ⟨earlierConversation, laterConversation, _, _, rfl, rfl, rfl, rfl, fun k _ ho hn => ?_, by simp,
      Or.inr ⟨"u1", rfl, rfl, rfl, rfl⟩⟩
    have h₁ : (k == "uuid") = false := beq_false_of_ne ho
    have h₂ : (k == "serviceId") = false := beq_false_of_ne hn
    simp only [Value.get, List.lookup_cons, List.lookup_nil, h₁, h₂]

theorem drift_invariant_sample :
    conversations revisionParse laterDb = conversations revisionParse earlierDb ∧
      contacts revisionParse laterDb = contacts revisionParse earlierDb ∧
      messages revisionParse laterDb = messages revisionParse earlierDb ∧
      timeline revisionParse laterDb = timeline revisionParse earlierDb ∧
      attachments revisionParse laterDb = attachments revisionParse earlierDb :=
  drift_invariant laterDb_drifts rfl rfl rfl

end SignalDesktop
