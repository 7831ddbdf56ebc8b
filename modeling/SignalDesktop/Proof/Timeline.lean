import SignalDesktop.Proof.Attachments

/-!
# The timeline is the dated image of the table

`IsTimeline` says what a timeline is, from the cells of the rows alone: one entry per
row, dated by the first recorded of five values, sorted, ties in row order.

* `timeline_iff`: whenever the messages can be read there is exactly one such list, and
  `timeline` returns it.
* `buildTimeline_of_perm`: the order of the rows and the `received_at` counter decide
  nothing but the order of ties.
-/

namespace SignalDesktop

open Sqlite SerdeJson StableSort Pointwise

variable {parse : Parser} {db : Database} {t : Table} {r : Row}

/-! ## Summaries -/

/-- `p` is the longest prefix of `s` of at most `n` characters. -/
structure IsLongestPrefix (n : ℕ) (s p : String) : Prop where
  isPrefix : p.toList <+: s.toList
  length_le : p.length ≤ n
  longest : ∀ q : String, q.toList <+: s.toList → q.length ≤ n → q.length ≤ p.length

theorem isLongestPrefix_iff {n : ℕ} {s p : String} :
    IsLongestPrefix n s p ↔ p = String.ofList (s.toList.take n) := by
  constructor
  · intro h
    have htake : (s.toList.take n).length ≤ p.toList.length := by
      have := h.longest (String.ofList (s.toList.take n))
        (by rw [String.toList_ofList]; exact List.take_prefix n _)
        (by rw [String.length_ofList]; exact List.length_take_le n _)
      rwa [String.length_ofList, ← String.length_toList] at this
    have hle : p.toList.length ≤ n := by rw [String.length_toList]; exact h.length_le
    -- a prefix is determined by its length, and `p` is as long as `take n`
    have hp : p.toList = s.toList.take p.toList.length := List.prefix_iff_eq_take.1 h.isPrefix
    have hlen : s.toList.take p.toList.length = s.toList.take n := by
      rw [List.length_take] at htake
      rw [List.take_eq_take_iff]
      have := h.isPrefix.length_le
      omega
    rw [← hlen, ← hp, String.ofList_toList]
  · rintro rfl
    refine ⟨?_, ?_, ?_⟩
    · rw [String.toList_ofList]; exact List.take_prefix n _
    · rw [String.length_ofList]; exact List.length_take_le n _
    · intro q hq hn
      rw [← String.length_toList] at hn ⊢
      have := hq.length_le
      rw [String.length_ofList, List.length_take]
      omega

/-- The summary of a message with the text `body`, which may carry attachments. -/
structure IsSummary (body : Option String) (carries : Prop) (s : String) : Prop where
  text : body.getD "" ≠ "" → IsLongestPrefix 80 (body.getD "") s
  attachment : body.getD "" = "" → carries → s = "[attachment]"
  noBody : body.getD "" = "" → ¬ carries → s = "[no body]"

theorem isSummary_iff {body : Option String} {b : Bool} {s : String} :
    IsSummary body (b = true) s ↔ s = preview body b := by
  by_cases hb : body.getD "" = ""
  · rw [preview_of_empty hb]
    constructor
    · intro h
      cases b with
      | true => exact h.attachment hb rfl
      | false => exact h.noBody hb (by simp)
    · intro h
      refine ⟨fun hne => absurd hb hne, fun _ hc => ?_, fun _ hc => ?_⟩
      · rw [h, if_pos hc]
      · rw [h, if_neg hc]
  · obtain ⟨x, rfl⟩ : ∃ x, body = some x := by
      cases body with
      | none => exact absurd rfl hb
      | some x => exact ⟨x, rfl⟩
    have hx : x ≠ "" := hb
    have hp : preview (some x) b = String.ofList (x.toList.take 80) := by
      unfold preview
      exact if_pos hx
    rw [hp, ← isLongestPrefix_iff]
    exact ⟨fun h => h.text hb, fun h => ⟨fun _ => h, fun h0 => absurd h0 hb, fun h0 => absurd h0 hb⟩⟩

/-! ## Entries -/

/-- The times a row may record, in order of authority. The `received_at` counter is not
one of them. -/
def recordedTimes (parse : Parser) (present : List String) (r : Row) : List (Option Int64) :=
  let json := (r "json").asText.bind parse
  [(r "sent_at").asInteger,
    (optionalCell present r "received_at_ms").asInteger,
    (json.bind (·.get "received_at_ms")).bind Value.asI64,
    (optionalCell present r "serverTimestamp").asInteger,
    (json.bind (·.get "serverTimestamp")).bind Value.asI64]

/-- `e` is the entry of the row `r` of `messages`. Its direction displays the row's `type`, and
is one of the two named directions where that is their text. -/
structure EntryOf (parse : Parser) (db : Database) (r : Row) (e : TimelineEntry) : Prop where
  messageId : r "id" = .text e.messageId
  conversationId : r "conversationId" = .ofOption e.conversationId
  direction : e.direction.display = (r "type").asText.getD ""
  classified : ∀ s, e.direction = .other s → s ≠ "incoming" ∧ s ≠ "outgoing"
  timestamp : e.timestamp = ((recordedTimes parse (db.columns "messages") r).findSome? id).getD 0
  summary : IsSummary (r "body").asText
    (attachmentElements parse (r "json").asText ≠ [] ∨ HasTableRow db r) e.summary

/-- `L` has one entry per row of `messages`, sorted by timestamp, ties in row order. -/
def IsTimeline (parse : Parser) (db : Database) (L : List TimelineEntry) : Prop :=
  ∃ es, List.Forall₂ (EntryOf parse db) (db.rows "messages") es ∧
    IsStableSort (fun e => e.timestamp.toInt) es L

theorem findSome?_five (a b c d e : Option Int64) :
    [a, b, c, d, e].findSome? id = (a.or (b.or c)).or (d.or e) := by
  cases a <;> cases b <;> cases c <;> cases d <;> cases e <;> rfl

theorem ts_eq_or (column : Option Int64) (json : Option Value) (key : String) :
    ts column json key = column.or ((json.bind (·.get key)).bind Value.asI64) := by
  cases column <;> rfl

/-- The entry of a row is the one the timeline makes of its message. -/
theorem entryOf_iff {ids : List String} {m : MessageRow}
    (hids : messageIdsWithTableAttachments db = .ok ids) (hcol : db.columns "messages" = t.columns)
    (hr : MessageRecorded t.columns r m) (e : TimelineEntry) :
    EntryOf parse db r e ↔ e = timelineEntry (messageOf parse ids m) := by
  have htime : ((recordedTimes parse (db.columns "messages") r).findSome? id).getD 0 =
      (timelineEntry (messageOf parse ids m)).timestamp := by
    simp only [recordedTimes, findSome?_five, hcol, hr.sentAt, hr.receivedAtMs, hr.serverTimestamp,
      hr.json, asInteger_ofOption, asText_ofOption, timelineEntry, messageOf, ts_eq_or]
  -- the placeholder goes by the flag of the message
  have hcarries : (attachmentElements parse (r "json").asText ≠ [] ∨ HasTableRow db r) ↔
      (messageOf parse ids m).hasAttachments = true := by
    rw [hasAttachments_iff hids, hr.json, asText_ofOption, hasTableRow_iff hr.id]
  have hsum : IsSummary (r "body").asText
      (attachmentElements parse (r "json").asText ≠ [] ∨ HasTableRow db r) e.summary ↔
        e.summary = (timelineEntry (messageOf parse ids m)).summary := by
    rw [propext hcarries, isSummary_iff, hr.body, asText_ofOption]
    rfl
  constructor
  · intro h
    have hid : e.messageId = m.id := by
      have := h.messageId
      rw [hr.id, Cell.text.injEq] at this
      exact this.symm
    have hconv : e.conversationId = m.conversationId := by
      have := h.conversationId
      rw [hr.conversationId] at this
      exact (ofOption_injective this).symm
    have hdir : e.direction = .fromType (m.type.getD "") := by
      have hdisplay := h.direction
      rw [hr.type, asText_ofOption] at hdisplay
      exact Direction.eq_fromType_iff.2 ⟨hdisplay, h.classified⟩
    have hts := h.timestamp.trans htime
    have hsm := hsum.1 h.summary
    cases e
    simp only at hid hconv hdir hts hsm
    subst hid hconv hdir hts hsm
    rfl
  · rintro rfl
    obtain ⟨hdisplay, hclass⟩ := Direction.eq_fromType_iff.1 (rfl : Direction.fromType (m.type.getD "") = _)
    refine ⟨hr.id, hr.conversationId, ?_, hclass, htime.symm, hsum.2 rfl⟩
    rw [hr.type, asText_ofOption]
    exact hdisplay

/-- **The timeline.** Whenever the messages can be read, on any revision of the schema,
exactly one list is a timeline of the table, and `timeline` returns it. -/
theorem timeline_iff {ms : List Message} (h : messages parse db = .ok ms) :
    ∃ tl, timeline parse db = .ok tl ∧ ∀ L, IsTimeline parse db L ↔ L = tl := by
  refine ⟨buildTimeline ms, timeline_ok_iff.2 ⟨ms, h, rfl⟩, fun L => ?_⟩
  obtain ⟨ids, t, l, hids, hr, rfl⟩ := messages_ok_iff.1 h
  have hes : ∀ es, List.Forall₂ (EntryOf parse db) (db.rows "messages") es ↔
      es = l.map fun m => timelineEntry (messageOf parse ids m) := by
    intro es
    rw [rows_eq hr.table]
    exact forall₂_iff_eq_map (R := MessageRecorded t.columns)
      (fun r m hm => entryOf_iff hids (columns_eq hr.table) hm) hr.rows
  simp only [IsTimeline, hes, exists_eq_left, isStableSort_iff]
  rw [buildTimeline, List.map_map]
  rfl

theorem timeline_iff_sample :
    IsTimeline sampleParse sampleDb
      [⟨100, some "c1", "m2", .incoming, "[attachment]"⟩, ⟨200, none, "m1", .outgoing, "photo"⟩] := by
  have hms : messages sampleParse sampleDb = .ok
      [⟨"m1", none, .outgoing, some "photo", some 200, none, none, none, none, none, none, true⟩,
        ⟨"m2", some "c1", .incoming, none, some 100, none, none, none, none, none, none, true⟩] := rfl
  obtain ⟨tl, htl, h⟩ := timeline_iff hms
  refine (h _).2 ?_
  cases htl
  rfl

/-! ## Rows in any order -/

/-- A message without its ordering counter. -/
def Message.eraseReceivedAt (m : Message) : Message := { m with receivedAt := none }

/-- The counter does not enter the timeline. -/
theorem timelineEntry_eraseReceivedAt (m : Message) :
    timelineEntry m.eraseReceivedAt = timelineEntry m := rfl

/-- Messages that are the same up to their counters and their order have the same entries. -/
theorem map_timelineEntry_perm {ms ms' : List Message}
    (h : (ms'.map Message.eraseReceivedAt).Perm (ms.map Message.eraseReceivedAt)) :
    (ms'.map timelineEntry).Perm (ms.map timelineEntry) := by
  have hmap := h.map timelineEntry
  simp only [List.map_map, Function.comp_def, timelineEntry_eraseReceivedAt] at hmap
  exact hmap

/-- **The timeline depends on wall-clock data only.** For messages that are the same up to
their counters and their order, the timelines have the same sequence of timestamps and,
for every timestamp, the same entries; if no two messages share a timestamp they are the
same list. -/
theorem buildTimeline_of_perm {ms ms' : List Message}
    (h : (ms'.map Message.eraseReceivedAt).Perm (ms.map Message.eraseReceivedAt)) :
    (buildTimeline ms').map TimelineEntry.timestamp = (buildTimeline ms).map TimelineEntry.timestamp ∧
    (∀ t, ((buildTimeline ms').filter fun e => e.timestamp = t).Perm
      ((buildTimeline ms).filter fun e => e.timestamp = t)) ∧
    ((ms.map fun m => (timelineEntry m).timestamp).Nodup → buildTimeline ms' = buildTimeline ms) := by
  have hent := map_timelineEntry_perm h
  have hinj : Function.Injective Int64.toInt := fun _ _ hab => Int64.toInt_inj.1 hab
  refine ⟨?_, fun t => ?_, fun hnd => ?_⟩
  · have hkeys := map_key_sortByKey_of_perm (fun e : TimelineEntry => e.timestamp.toInt) hent
    refine hinj.list_map ?_
    rw [List.map_map, List.map_map]
    exact hkeys
  · refine List.Perm.filter _ ?_
    exact (sortByKey_perm _ _).trans (hent.trans (sortByKey_perm _ _).symm)
  · refine sortByKey_eq_of_perm hent ?_
    have hnd' := hnd.map hinj
    rw [List.map_map] at hnd' ⊢
    exact hnd'

/-- Two messages in both orders, with their counters exchanged. -/
theorem buildTimeline_of_perm_sample :
    buildTimeline
        [⟨"m2", none, .incoming, some "b", some 2, some 1, none, none, none, none, none, false⟩,
          ⟨"m1", none, .outgoing, some "a", some 1, some 2, none, none, none, none, none, false⟩] =
      buildTimeline
        [⟨"m1", none, .outgoing, some "a", some 1, some 1, none, none, none, none, none, false⟩,
          ⟨"m2", none, .incoming, some "b", some 2, some 2, none, none, none, none, none, false⟩] := by
  refine (buildTimeline_of_perm ?_).2.2 (by decide)
  exact List.Perm.swap _ _ []

end SignalDesktop
