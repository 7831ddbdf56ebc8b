import SignalDesktop.Proof.Reads

/-!
# Attachment records, once each

* `attachments_exactly_once`: for every message id the table's rows are the record, else
  the objects of the json arrays; nothing is lost and nothing counted twice.
* `hasAttachments_agree_iff`: the flag on a message and the records reported for it agree
  exactly when no array of a message without a table row consists of non-objects only.
-/

namespace SignalDesktop

open Sqlite SerdeJson Overlay Pointwise

variable {parse : Parser} {db : Database} {t : Table} {r : Row}

/-! ## Elements of the json arrays -/

/-- The elements of the `attachments` array of a json text, none without such an array. -/
def attachmentElements (parse : Parser) (json : Option String) : List Value :=
  (((json.bind parse).bind (·.get "attachments")).bind Value.asArray).getD []

/-- The elements that are objects. -/
def objectElements (parse : Parser) (json : Option String) : List Value :=
  (attachmentElements parse json).filter Value.isObject

/-- **A json record for each object of the array, under the id of the row.** -/
theorem jsonEntry_eq (p : String × Option String) :
    jsonEntry parse p = (p.1, (objectElements parse p.2).map (jsonAttachment p.1)) := by
  obtain ⟨i, json⟩ := p
  cases json with
  | none => rfl
  | some s =>
    simp only [jsonEntry, objectElements, attachmentElements, parseAttachmentsJson, Option.elim,
      Option.bind_some]
    cases parse s with
    | none => rfl
    | some v =>
      simp only [Option.bind_some]
      cases (v.get "attachments").bind Value.asArray <;> rfl

theorem hasJsonAttachments_iff (json : Option String) :
    hasJsonAttachments (json.bind parse) = true ↔ attachmentElements parse json ≠ [] := by
  unfold hasJsonAttachments attachmentElements
  cases ((json.bind parse).bind (·.get "attachments")).bind Value.asArray with
  | none => simp
  | some a => simp

/-- `messages` and `attachments` read one table. -/
theorem ReadsMessages.table_eq {l : List MessageRow} {l' : List (String × Option String)} {t' : Table}
    (h : ReadsMessages db t l) (h' : ReadsIdJson db t' l') : t' = t := by
  have hsome : some t' = some t := h'.table.symm.trans h.table
  exact Option.some.inj hsome

/-- The ids and json texts read for `attachments` are those of the message rows. -/
theorem ReadsMessages.idJson {l : List MessageRow} {l' : List (String × Option String)} {t' : Table}
    (h : ReadsMessages db t l) (h' : ReadsIdJson db t' l') : l' = l.map fun m => (m.id, m.json) := by
  have htt : t' = t := h.table_eq h'
  subst htt
  refine (forall₂_iff_eq_map (fun r m hm p => ?_) h.rows).1 h'.rows
  rw [IdJsonRecorded, hm.id, hm.json, Cell.text.injEq, ofOption_injective.eq_iff, Prod.ext_iff]
  exact and_congr eq_comm eq_comm

/-! ## Once each -/

/-- The attachment table has a row for the message of row `r`. -/
def HasTableRow (db : Database) (r : Row) : Prop := ∃ r' ∈ attachmentRows db, r' "messageId" = r "id"

instance : DecidablePred (HasTableRow db) := fun r =>
  inferInstanceAs (Decidable (∃ r' ∈ attachmentRows db, r' "messageId" = r "id"))

theorem hasTableRow_iff {i : String} (h : r "id" = .text i) : HasTableRow db r ↔ InTable db i := by
  rw [HasTableRow, InTable, h]

/-- The rows of the attachment table and the records read from them. -/
theorem ReadsTable.forall₂ {l : List Attachment} (h : ReadsTable db l) :
    List.Forall₂ (AttachmentRecorded (db.columns messageAttachmentsTable)) (attachmentRows db) l := by
  cases h with
  | absent _ hn => rw [attachmentRows_nil hn]; exact .nil
  | present t l _ ht _ _ hr => rwa [attachmentRows_eq ht, columns_eq ht]

/-- The table's records, by message. -/
theorem ReadsTable.forall₂_filter {l : List Attachment} (h : ReadsTable db l) (i : String) :
    List.Forall₂ (AttachmentRecorded (db.columns messageAttachmentsTable))
      ((attachmentRows db).filter fun r => r "messageId" = .text i)
      (l.filter fun a => a.messageId = i) := by
  refine List.rel_filter ?_ h.forall₂
  intro r a hra
  simp [hra.messageId]

theorem flatMap_jsonEntry {l : List (String × Option String)} {rows : List Row}
    (h : List.Forall₂ IdJsonRecorded rows l) (i : String) :
    ((l.map (jsonEntry parse)).filter fun e => e.1 = i).flatMap Prod.snd =
      (rows.filter fun r => r "id" = .text i).flatMap fun r =>
        (objectElements parse (r "json").asText).map (jsonAttachment i) := by
  induction h with
  | nil => rfl
  | @cons r p rows l hp _ ih =>
    rw [List.map_cons, jsonEntry_eq]
    by_cases hi : p.1 = i
    · rw [List.filter_cons_of_pos (by simpa using hi), List.filter_cons_of_pos (by simp [hp.1, hi]),
        List.flatMap_cons, List.flatMap_cons, ih, hp.2, asText_ofOption, hi]
    · rw [List.filter_cons_of_neg (by simpa using hi), List.filter_cons_of_neg (by simp [hp.1, hi]), ih]

theorem sum_jsonEntry {l : List (String × Option String)} {rows : List Row} {keys : List String}
    (h : List.Forall₂ IdJsonRecorded rows l) (hk : ∀ i, i ∈ keys ↔ InTable db i) :
    (((l.map (jsonEntry parse)).filter fun e => e.1 ∉ keys).map fun e => e.2.length).sum =
      ((rows.filter fun r => ¬ HasTableRow db r).map fun r =>
        (objectElements parse (r "json").asText).length).sum := by
  induction h with
  | nil => rfl
  | @cons r p rows l hp _ ih =>
    have hr : p.1 ∈ keys ↔ HasTableRow db r := (hk p.1).trans (hasTableRow_iff hp.1).symm
    rw [List.map_cons, jsonEntry_eq]
    by_cases hi : p.1 ∈ keys
    · rw [List.filter_cons_of_neg (by simpa using hi),
        List.filter_cons_of_neg (by simpa using hr.1 hi), ih]
    · rw [List.filter_cons_of_pos (by simpa using hi),
        List.filter_cons_of_pos (by simpa using mt hr.2 hi), List.map_cons, List.map_cons,
        List.sum_cons, List.sum_cons, ih, hp.2, asText_ofOption, List.length_map]

/-- **Every attachment record exactly once.** For each message id the reported records are
those of the table's rows for it, if there are any, and otherwise those of the objects in
the json arrays of the messages with that id, in order and without a hash. Rows of the
table are reported whether or not their message exists. -/
theorem attachments_exactly_once {out : List Attachment} (h : attachments parse db = .ok out) :
    (∀ i, InTable db i → ∃ l,
      List.Forall₂ (AttachmentRecorded (db.columns messageAttachmentsTable))
        ((attachmentRows db).filter fun r => r "messageId" = .text i) l ∧
      (out.filter fun a => a.messageId = i).Perm l) ∧
    (∀ i, ¬ InTable db i → (out.filter fun a => a.messageId = i) =
      ((db.rows "messages").filter fun r => r "id" = .text i).flatMap fun r =>
        (objectElements parse (r "json").asText).map fun a => ({
          messageId := i
          contentType := (a.get "contentType").bind Value.asStr
          fileName := (a.get "fileName").bind Value.asStr
          size := (a.get "size").bind Value.asI64
          path := (a.get "path").bind Value.asStr
          plaintextHash := none } : Attachment)) ∧
    (∀ a ∈ out, ¬ InTable db a.messageId → a.plaintextHash = none) ∧
    (∀ r ∈ attachmentRows db, ∃ a ∈ out,
      AttachmentRecorded (db.columns messageAttachmentsTable) r a) ∧
    out.length = (attachmentRows db).length +
      (((db.rows "messages").filter fun r => ¬ HasTableRow db r).map fun r =>
        (objectElements parse (r "json").asText).length).sum := by
  obtain ⟨tbl, t, l, htbl, hl, rfl⟩ := attachments_ok_iff.1 h
  obtain ⟨tbl₀, h₀, hperm⟩ := exists_readsTable htbl
  have hs := stamped_jsonEntry parse l
  have hmem : ∀ i, i ∈ tbl.map Attachment.messageId ↔ InTable db i :=
    fun i => mem_tableAttachments_iff htbl
  have hjson : ∀ i, ¬ InTable db i →
      ((overlay Attachment.messageId tbl (l.map (jsonEntry parse))).filter fun a => a.messageId = i) =
        ((db.rows "messages").filter fun r => r "id" = .text i).flatMap fun r =>
          (objectElements parse (r "json").asText).map (jsonAttachment i) := by
    intro i hi
    rw [filter_overlay_of_notMem hs (mt (hmem i).1 hi), rows_eq hl.table, flatMap_jsonEntry hl.rows]
  refine ⟨?_, hjson, ?_, ?_, ?_⟩
  · -- the table wins
    intro i hi
    refine ⟨_, h₀.forall₂_filter i, ?_⟩
    rw [filter_overlay_of_mem hs ((hmem i).2 hi)]
    exact hperm.filter _
  · -- a record from the json has no hash
    intro a ha hi
    have hf := (List.mem_filter (p := fun b => decide (b.messageId = a.messageId))).2 ⟨ha, by simp⟩
    rw [hjson a.messageId hi] at hf
    obtain ⟨r, -, hr⟩ := List.mem_flatMap.1 hf
    obtain ⟨v, -, hv⟩ := List.mem_map.1 hr
    rw [← hv]
    rfl
  · -- an orphaned table row is read like any other
    intro r hr
    obtain ⟨a, ha, hra⟩ := mem_of_forall₂_left h₀.forall₂ hr
    exact ⟨a, List.mem_append_left _ (hperm.mem_iff.2 ha), hra⟩
  · rw [length_overlay, sum_jsonEntry hl.rows hmem, hperm.length_eq, h₀.forall₂.length_eq,
      rows_eq hl.table]

/-! A small database part-way through the migration: `m1` keeps its attachment in the json,
`m2` has a row in the table. -/

def sampleJson : String := "\x7b\"attachments\":[\x7b\"path\":\"ab/cd\"\x7d]\x7d"

def sampleParse : Parser := fun s =>
  if s = sampleJson then
    some (.object [("attachments", .array [.object [("path", .string "ab/cd")]])])
  else if s = "\x7b\x7d" then some (.object [])
  else none

def sampleMessages : Table where
  columns := messageColumns
  rows := [
    fun
      | "id" => .text "m1"
      | "type" => .text "outgoing"
      | "sent_at" => .integer 200
      | "body" => .text "photo"
      | "json" => .text sampleJson
      | _ => .null,
    fun
      | "id" => .text "m2"
      | "type" => .text "incoming"
      | "conversationId" => .text "c1"
      | "sent_at" => .integer 100
      | _ => .null]
  columns_ne := messageColumns_ne

def sampleAttachments : Table where
  columns := ["messageId", "path"]
  rows := [
    fun
      | "messageId" => .text "m2"
      | "path" => .text "ef/01"
      | _ => .null]
  columns_ne := by decide

def sampleDb : Database where
  table
    | "messages" => some sampleMessages
    | "message_attachments" => some sampleAttachments
    | _ => none
  fault _ := none

/-- The sample's two records: the table's for `m2`, the json's for `m1`. -/
theorem attachments_exactly_once_sample :
    (∃ l, List.Forall₂ (AttachmentRecorded ["messageId", "path"]) sampleAttachments.rows l ∧
      List.Perm [⟨"m2", none, none, none, some "ef/01", none⟩] l) ∧
    [⟨"m1", none, none, none, some "ab/cd", none⟩] =
      (sampleMessages.rows.filter fun r => r "id" = .text "m1").flatMap fun r =>
        (objectElements sampleParse (r "json").asText).map (jsonAttachment "m1") := by
  have h : attachments sampleParse sampleDb = .ok
      [⟨"m2", none, none, none, some "ef/01", none⟩, ⟨"m1", none, none, none, some "ab/cd", none⟩] := rfl
  have hno : ¬ InTable sampleDb "m1" := by
    rintro ⟨r, hr, hid⟩
    cases List.mem_singleton.1 hr
    exact absurd hid (by decide)
  exact ⟨(attachments_exactly_once h).1 "m2" ⟨_, List.mem_singleton_self _, rfl⟩,
    (attachments_exactly_once h).2.1 "m1" hno⟩

/-! ## The flag and the records -/

/-- The flag of each message says whether a record is reported for it, and so does the
summary of each message without a text. -/
structure PathsAgree (parse : Parser) (db : Database) (ms : List Message) (out : List Attachment) :
    Prop where
  flag : ∀ m ∈ ms, m.hasAttachments = true ↔ ∃ a ∈ out, a.messageId = m.id
  summary : ∀ tl, timeline parse db = .ok tl → ∀ m ∈ ms, m.body.getD "" = "" →
    ∀ e ∈ tl, e.messageId = m.id →
      e.summary = if ∃ a ∈ out, a.messageId = m.id then "[attachment]" else "[no body]"

/-- Every non-empty `attachments` array of a message without a table row holds an object. -/
def ArraysHoldObjects (parse : Parser) (db : Database) : Prop :=
  ∀ r ∈ db.rows "messages", attachmentElements parse (r "json").asText ≠ [] →
    HasTableRow db r ∨ ∃ v ∈ attachmentElements parse (r "json").asText, v.isObject = true

theorem objectElements_ne_nil_iff {json : Option String} :
    objectElements parse json ≠ [] ↔ ∃ v ∈ attachmentElements parse json, v.isObject = true := by
  simp [objectElements, List.filter_eq_nil_iff]

theorem preview_of_empty {body : Option String} (h : body.getD "" = "") (b : Bool) :
    preview body b = if b then "[attachment]" else "[no body]" := by
  cases body with
  | none => rfl
  | some s => simp only [Option.getD_some] at h; subst h; rfl

/-- A timeline entry is that of a message. -/
theorem mem_buildTimeline {ms : List Message} {e : TimelineEntry} (h : e ∈ buildTimeline ms) :
    ∃ m ∈ ms, timelineEntry m = e :=
  List.mem_map.1 ((StableSort.sortByKey_perm _ _).mem_iff.1 h)

theorem hasAttachments_iff {m : MessageRow} {ids : List String}
    (hids : messageIdsWithTableAttachments db = .ok ids) :
    (messageOf parse ids m).hasAttachments = true ↔
      attachmentElements parse m.json ≠ [] ∨ InTable db m.id := by
  rw [messageOf, Bool.or_eq_true, hasJsonAttachments_iff, List.contains_iff_mem, mem_ids_iff hids]

/-- What is reported for a message whose id is unique. -/
theorem exists_record_iff {tbl : List Attachment} {l : List MessageRow} {m : MessageRow}
    (hmem : ∀ i, i ∈ tbl.map Attachment.messageId ↔ InTable db i)
    (hnd : (l.map MessageRow.id).Nodup) (hm : m ∈ l) :
    (∃ a ∈ overlay Attachment.messageId tbl ((l.map fun m => (m.id, m.json)).map (jsonEntry parse)),
        a.messageId = m.id) ↔ InTable db m.id ∨ objectElements parse m.json ≠ [] := by
  rw [exists_key_iff (stamped_jsonEntry parse _), hmem, List.map_map]
  refine or_congr_right ⟨?_, ?_⟩
  · rintro ⟨e, he, hid, hne⟩
    obtain ⟨m', hm', rfl⟩ := List.mem_map.1 he
    simp only [Function.comp, jsonEntry_eq] at hid hne
    have : m' = m := List.inj_on_of_nodup_map hnd hm' hm hid
    rw [this] at hne
    exact fun h0 => hne (by rw [h0, List.map_nil])
  · intro hne
    refine ⟨_, List.mem_map_of_mem hm, rfl, ?_⟩
    simpa [Function.comp, jsonEntry_eq] using hne

/-- **When the two attachment paths agree.** With distinct message ids they agree exactly
if every non-empty array of a message without a table row holds an object: the flag
counts any element, the records only objects. -/
theorem hasAttachments_agree_iff {ms : List Message} {out : List Attachment}
    (hm : messages parse db = .ok ms) (ha : attachments parse db = .ok out)
    (hnd : (ms.map Message.id).Nodup) : PathsAgree parse db ms out ↔ ArraysHoldObjects parse db := by
  obtain ⟨ids, t, l, hids, hr, rfl⟩ := messages_ok_iff.1 hm
  obtain ⟨tbl, t', l', htbl, hl', rfl⟩ := attachments_ok_iff.1 ha
  have hl := hr.idJson hl'
  subst hl
  have hmem : ∀ i, i ∈ tbl.map Attachment.messageId ↔ InTable db i :=
    fun i => mem_tableAttachments_iff htbl
  have hnd' : (l.map MessageRow.id).Nodup := map_id_messageOf ids l ▸ hnd
  have hflag : ∀ m ∈ l, (messageOf parse ids m).hasAttachments = true ↔
      attachmentElements parse m.json ≠ [] ∨ InTable db m.id := fun m _ => hasAttachments_iff hids
  have hrec : ∀ m ∈ l, (∃ a ∈ overlay Attachment.messageId tbl
      ((l.map fun m => (m.id, m.json)).map (jsonEntry parse)), a.messageId = m.id) ↔
        InTable db m.id ∨ objectElements parse m.json ≠ [] := fun m hm =>
    exists_record_iff hmem hnd' hm
  -- the flags agree iff the arrays of the rows hold objects
  have hiff : (∀ m ∈ l.map (messageOf parse ids), m.hasAttachments = true ↔
      ∃ a ∈ overlay Attachment.messageId tbl
        ((l.map fun m => (m.id, m.json)).map (jsonEntry parse)), a.messageId = m.id) ↔
      ArraysHoldObjects parse db := by
    rw [List.forall_mem_map, ArraysHoldObjects, rows_eq hr.table]
    constructor
    · intro h r hrt hne
      obtain ⟨m, hml, hrm⟩ := mem_of_forall₂_left hr.rows hrt
      rw [hrm.json, asText_ofOption] at hne ⊢
      have := (hrec m hml).1 ((h m hml).1 ((hflag m hml).2 (Or.inl hne)))
      rwa [hasTableRow_iff hrm.id, ← objectElements_ne_nil_iff]
    · intro h m hml
      obtain ⟨r, hrt, hrm⟩ := mem_of_forall₂_right hr.rows hml
      have hobj : objectElements parse m.json ≠ [] → attachmentElements parse m.json ≠ [] := by
        intro h1 h2
        exact h1 (by rw [objectElements, h2, List.filter_nil])
      have hrow := h r hrt
      rw [hrm.json, asText_ofOption, hasTableRow_iff hrm.id, ← objectElements_ne_nil_iff] at hrow
      refine (hflag m hml).trans (Iff.trans ?_ (hrec m hml).symm)
      exact ⟨fun h1 => h1.elim hrow Or.inl, fun h1 => h1.elim Or.inr fun h2 => Or.inl (hobj h2)⟩
  refine ⟨fun h => hiff.1 h.flag, fun h => ⟨hiff.2 h, ?_⟩⟩
  intro tl htl m hmm hbody e he hid
  obtain ⟨ms, hms, rfl⟩ := timeline_ok_iff.1 htl
  rw [hm] at hms
  cases hms
  obtain ⟨m', hm', rfl⟩ := mem_buildTimeline he
  have : m' = m := List.inj_on_of_nodup_map hnd hm' hmm hid
  subst this
  rw [timelineEntry, preview_of_empty hbody]
  exact if_congr (hiff.2 h m' hm') rfl rfl

theorem hasAttachments_agree_iff_sample :
    PathsAgree sampleParse sampleDb
        [⟨"m1", none, .outgoing, some "photo", some 200, none, none, none, none, none, none, true⟩,
          ⟨"m2", some "c1", .incoming, none, some 100, none, none, none, none, none, none, true⟩]
        [⟨"m2", none, none, none, some "ef/01", none⟩, ⟨"m1", none, none, none, some "ab/cd", none⟩] ↔
      ArraysHoldObjects sampleParse sampleDb :=
  hasAttachments_agree_iff rfl rfl (by decide)

/-- A message whose `attachments` array holds a null and nothing else. -/
def nullElementJson : String := "\x7b\"attachments\":[null]\x7d"

def nullElementParse : Parser := fun s =>
  if s = nullElementJson then some (.object [("attachments", .array [.null])]) else none

def nullElementDb : Database where
  table
    | "messages" => some
      { columns := messageColumns
        rows := [fun
          | "id" => .text "m1"
          | "json" => .text nullElementJson
          | _ => .null]
        columns_ne := messageColumns_ne }
    | _ => none
  fault _ := none

/-- **The paths can disagree**: the message is flagged, and no record is reported for it. -/
theorem hasAttachments_disagree :
    ∃ ms out, messages nullElementParse nullElementDb = .ok ms ∧
      attachments nullElementParse nullElementDb = .ok out ∧ (ms.map Message.id).Nodup ∧
      ¬ PathsAgree nullElementParse nullElementDb ms out := by
  refine ⟨[⟨"m1", none, .other "", none, none, none, none, none, none, none, none, true⟩], [],
    rfl, rfl, by decide, fun h => ?_⟩
  obtain ⟨a, ha, -⟩ := (h.flag _ (List.mem_singleton_self _)).1 rfl
  exact absurd ha List.not_mem_nil

end SignalDesktop
