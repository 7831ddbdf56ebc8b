import SignalDesktop.Spec.Analyze
import SignalDesktop.Proof.Fidelity
import SignalDesktop.Proof.Transport

/-!
# The audit finds exactly the dangling references

`orphans db` are the dangling references of a database, read off its rows.

* `audit_exact`: the findings of a store are its orphans and the attachments with a path,
  in order. Deleting conversations adds one finding for each message that references a
  deleted one, at its place, and reordering or rewriting them changes nothing.
* `observation_injective`: what the report is told of an anomaly names its message and its
  conversation or path.
-/

namespace SignalDesktop

open Sqlite SerdeJson Overlay Pointwise

variable {Finding : Type} {toFinding : Observation → Source → Finding} {parse : Parser}
  {db db' : Database} {t t' : Table} {r r' : Row} {C : Row → Bool}

/-! ## What a finding tells -/

namespace SignalAnomaly

/-- The message of an anomaly, and the conversation or the path that it is about. -/
def about : SignalAnomaly → String × String
  | orphanMessage messageId conversationId => (messageId, conversationId)
  | attachmentResidue messageId path => (messageId, path)

theorem isInfix_append (a b c : String) : b.toList <:+: (a ++ b ++ c).toList := by
  rw [String.toList_append, String.toList_append]
  exact List.infix_append _ _ _

/-- The note names what the anomaly is about, and the subject is its message. -/
theorem observation_names (a : SignalAnomaly) :
    a.observation.subjects.map SubjectRef.id = [a.about.1] ∧
    a.about.1.toList <:+: a.observation.note.toList ∧
    a.about.2.toList <:+: a.observation.note.toList := by
  -- what stands after a name in the note is gathered into one text
  cases a with
  | orphanMessage i c =>
    refine ⟨rfl, ?_, ?_⟩
    · show i.toList <:+: (_ ++ i ++ _ ++ c ++ _ ++ _ : String).toList
      rw [String.append_assoc, String.append_assoc, String.append_assoc]
      exact isInfix_append _ _ _
    · show c.toList <:+: (_ ++ i ++ _ ++ c ++ _ ++ _ : String).toList
      rw [String.append_assoc]
      exact isInfix_append _ _ _
  | attachmentResidue i p =>
    refine ⟨rfl, ?_, ?_⟩
    · show i.toList <:+: (_ ++ i ++ _ ++ p ++ _ : String).toList
      rw [String.append_assoc, String.append_assoc]
      exact isInfix_append _ _ _
    · exact isInfix_append _ _ _

/-- **A finding tells its anomaly**: different anomalies are observed differently. -/
theorem observation_injective : Function.Injective observation := by
  intro a b h
  have hcode : a.code = b.code := congrArg Observation.code h
  have hcodes : "SIGNAL-ORPHAN-MESSAGE" ≠ "SIGNAL-ATTACHMENT-RESIDUE" := by decide
  have hnote : a.note = b.note := congrArg Observation.note h
  have hmessage : a.about.1 = b.about.1 := by
    have hids := congrArg (fun o => o.subjects.map SubjectRef.id) h
    simp only [(observation_names _).1] at hids
    exact List.head_eq_of_cons_eq hids
  -- the code tells the kind, and past the message the note tells the rest
  cases a with
  | orphanMessage i c =>
    cases b with
    | attachmentResidue i' p' => exact absurd hcode hcodes
    | orphanMessage i' c' =>
      obtain rfl : i = i' := hmessage
      simp only [note, String.append_left_inj, String.append_right_inj] at hnote
      rw [hnote]
  | attachmentResidue i p =>
    cases b with
    | orphanMessage i' c' => exact absurd hcode.symm hcodes
    | attachmentResidue i' p' =>
      obtain rfl : i = i' := hmessage
      simp only [note, String.append_left_inj, String.append_right_inj] at hnote
      rw [hnote]

/-- Where the report keeps what it is told, the findings tell the anomalies. -/
theorem finding_injective (h : Function.Injective fun o => toFinding o source) :
    Function.Injective (SignalAnomaly.finding toFinding) :=
  h.comp observation_injective

end SignalAnomaly

/-! ## Dangling references -/

/-- The conversations table has a row with the id `c`. -/
def HasConversation (db : Database) (c : String) : Prop :=
  ∃ r ∈ db.rows "conversations", r "id" = .text c

instance : DecidablePred (HasConversation db) := fun c =>
  inferInstanceAs (Decidable (∃ r ∈ db.rows "conversations", r "id" = .text c))

/-- The anomaly of a message row: a conversation id that is not NULL and not in the table. -/
def orphanAt (db : Database) (r : Row) : Option SignalAnomaly :=
  match r "id", r "conversationId" with
  | .text i, .text c => if HasConversation db c then none else some (.orphanMessage i c)
  | _, _ => none

/-- The dangling references, in message order. -/
def orphans (db : Database) : List SignalAnomaly := (db.rows "messages").filterMap (orphanAt db)

/-- The attachments with a path, in order. -/
def residue (as : List Attachment) : List SignalAnomaly :=
  as.filterMap fun a => a.path.map fun path => .attachmentResidue a.messageId path

theorem residue_eq (as : List Attachment) : residue as = as.filterMap attachmentResidueOf := rfl

/-- The row of a message references a conversation that is deleted. -/
def References (C : Row → Bool) (db : Database) (r : Row) : Prop :=
  ∃ r' ∈ db.rows "conversations", C r' = true ∧ r "conversationId" = r' "id"

instance : DecidablePred (References C db) := fun r =>
  inferInstanceAs (Decidable (∃ r' ∈ db.rows "conversations", C r' = true ∧ r "conversationId" = r' "id"))

/-- The conversation rows `C` are deleted, and nothing else changes. -/
structure Deletes (C : Row → Bool) (db db' : Database) : Prop where
  faults : NoNewFaults db db'
  others : ∀ name, name ≠ "conversations" → db'.table name = db.table name
  schema : db'.columns "conversations" = db.columns "conversations"
  rows : db'.rows "conversations" = (db.rows "conversations").filter fun r => !C r

/-- The conversation rows are reordered, and their other columns rewritten to values that
can be read. -/
structure Rewrites (db db' : Database) : Prop where
  faults : NoNewFaults db db'
  readable : ConversationsReadable db'
  others : ∀ name, name ≠ "conversations" → db'.table name = db.table name
  ids : ((db'.rows "conversations").map fun r => r "id").Perm
    ((db.rows "conversations").map fun r => r "id")

/-- A message is graded by the conversations that exist. -/
theorem orphanAt_congr (h : ∀ c, HasConversation db' c ↔ HasConversation db c) :
    orphanAt db' = orphanAt db := by
  funext r
  unfold orphanAt
  simp only [h]

/-- The ids of the conversations read are those of the rows. -/
theorem mem_conversation_ids {cs : List Conversation} (h : conversations parse db = .ok cs) {c : String} :
    c ∈ cs.map Conversation.id ↔ HasConversation db c := by
  have hrows := conversations_faithful h
  rw [List.mem_map, HasConversation]
  constructor
  · rintro ⟨x, hx, rfl⟩
    obtain ⟨r, hr, hrx⟩ := mem_of_forall₂_right hrows hx
    exact ⟨r, hr, hrx.id⟩
  · rintro ⟨r, hr, hc⟩
    obtain ⟨x, hx, hrx⟩ := mem_of_forall₂_left hrows hr
    have hid := hrx.id
    rw [hc, Cell.text.injEq] at hid
    exact ⟨x, hx, hid.symm⟩

/-- A message is graded as its row. -/
theorem orphanMessageOf_eq {cs : List Conversation} {m : Message}
    (hc : conversations parse db = .ok cs) (h : MessageFaithful r m) :
    orphanAt db r = orphanMessageOf (cs.map Conversation.id) m := by
  unfold orphanAt orphanMessageOf
  rw [h.id, h.conversationId]
  cases m.conversationId with
  | none => rfl
  | some c =>
    show (if HasConversation db c then none else some (SignalAnomaly.orphanMessage m.id c)) = _
    by_cases hd : HasConversation db c
    · have hmem := (mem_conversation_ids hc).2 hd
      simp [hd, hmem]
    · have hmem := mt (mem_conversation_ids hc).1 hd
      simp [hd, hmem]

/-- **What a store's findings are.** -/
theorem auditStore_eq {cs : List Conversation} {ms : List Message} {as : List Attachment}
    (hc : conversations parse db = .ok cs) (hm : messages parse db = .ok ms)
    (ha : attachments parse db = .ok as) :
    auditStore toFinding parse db = .ok ((orphans db ++ residue as).map (·.finding toFinding)) := by
  have horph : orphans db = ms.filterMap (orphanMessageOf (cs.map Conversation.id)) :=
    filterMap_eq_of_forall₂ ((messages_faithful hm).imp fun _ _ h => orphanMessageOf_eq hc h)
  rw [auditStore, hc, hm, ha, horph]
  rfl

theorem auditStore_ok_iff {fs : List Finding} :
    auditStore toFinding parse db = .ok fs ↔ ∃ cs ms as, conversations parse db = .ok cs ∧
      messages parse db = .ok ms ∧ attachments parse db = .ok as ∧
      fs = (orphans db ++ residue as).map (·.finding toFinding) := by
  constructor
  · intro h
    have h' := h
    simp only [auditStore, bind_ok_iff] at h'
    obtain ⟨cs, hc, ms, hm, as, ha, -⟩ := h'
    rw [auditStore_eq hc hm ha] at h
    cases h
    exact ⟨cs, ms, as, hc, hm, ha, rfl⟩
  · rintro ⟨cs, ms, as, hc, hm, ha, rfl⟩
    exact auditStore_eq hc hm ha

/-! ## Deleting conversations -/

/-- With distinct ids, a deleted conversation is gone. -/
theorem Deletes.hasConversation_iff (h : Deletes C db db')
    (hnd : ((db.rows "conversations").map fun r => r "id").Nodup) {c : String} :
    HasConversation db' c ↔
      HasConversation db c ∧ ¬ ∃ r ∈ db.rows "conversations", C r = true ∧ r "id" = .text c := by
  unfold HasConversation
  rw [h.rows]
  constructor
  · rintro ⟨r, hr, hc⟩
    obtain ⟨hr, hC⟩ := List.mem_filter.1 hr
    refine ⟨⟨r, hr, hc⟩, ?_⟩
    rintro ⟨r₁, hr₁, hC₁, hc₁⟩
    have : r₁ = r := List.inj_on_of_nodup_map hnd hr₁ hr (hc₁.trans hc.symm)
    rw [this] at hC₁
    simp [hC₁] at hC
  · rintro ⟨⟨r, hr, hc⟩, hno⟩
    refine ⟨r, List.mem_filter.2 ⟨hr, ?_⟩, hc⟩
    by_contra hC
    exact hno ⟨r, hr, by simpa using hC, hc⟩

/-- **What a deletion does to one message.** A message that references a deleted
conversation had no finding and now has one; every other finding stays. -/
theorem Deletes.orphanAt_eq (h : Deletes C db db') {cs : List Conversation} {m : Message}
    (hnd : ((db.rows "conversations").map fun r => r "id").Nodup)
    (hc : conversations parse db = .ok cs) (hm : MessageFaithful r m) :
    if References C db r then
      orphanAt db r = none ∧ ∃ i c, r "id" = .text i ∧ r "conversationId" = .text c ∧
        orphanAt db' r = some (.orphanMessage i c)
    else orphanAt db' r = orphanAt db r := by
  have hconv := fun c => h.hasConversation_iff hnd (c := c)
  cases hcid : m.conversationId with
  | none =>
    have hnull : r "conversationId" = .null := by rw [hm.conversationId, hcid]; rfl
    have hnone : ∀ d : Database, orphanAt d r = none := by
      intro d
      rw [orphanAt, hm.id, hnull]
    -- a NULL reference dangles on neither database
    have hno : ¬ References C db r := by
      rintro ⟨r₁, hr₁, -, hid⟩
      obtain ⟨x, -, hx⟩ := mem_of_forall₂_left (conversations_faithful hc) hr₁
      rw [hnull, hx.id] at hid
      cases hid
    rw [if_neg hno, hnone, hnone]
  | some c =>
    have htext : r "conversationId" = .text c := by rw [hm.conversationId, hcid]; rfl
    have hat : ∀ d : Database, orphanAt d r =
        if HasConversation d c then none else some (.orphanMessage m.id c) := by
      intro d
      rw [orphanAt, hm.id, htext]
    have href : References C db r ↔ ∃ r ∈ db.rows "conversations", C r = true ∧ r "id" = .text c := by
      unfold References
      rw [htext]
      simp only [eq_comm]
    by_cases hR : References C db r
    · obtain ⟨r₁, hr₁, -, hid⟩ := href.1 hR
      have hgone : ¬ HasConversation db' c := fun hx => ((hconv c).1 hx).2 (href.1 hR)
      rw [if_pos hR, hat, hat, if_pos ⟨r₁, hr₁, hid⟩, if_neg hgone]
      exact ⟨rfl, m.id, c, hm.id, htext, rfl⟩
    · have hsame : HasConversation db' c ↔ HasConversation db c := by
        rw [hconv c]
        exact and_iff_left fun hx => hR (href.2 hx)
      rw [if_neg hR, hat, hat, if_congr hsame rfl rfl]

theorem Deletes.conversations_ok (h : Deletes C db db') {cs : List Conversation}
    (hc : conversations parse db = .ok cs) : ∃ cs', conversations parse db' = .ok cs' := by
  obtain ⟨t, l, hr, -⟩ := conversations_ok_iff.1 hc
  obtain ⟨t', ht', hcols⟩ := exists_table_of_schema h.schema hr.table
  have hrows : t'.rows = t.rows.filter fun r => !C r := by
    rw [← rows_eq ht', h.rows, rows_eq hr.table]
  have hrec : ∀ r ∈ t'.rows, ∃ c, ConversationRecorded r c := by
    intro r hr'
    rw [hrows] at hr'
    obtain ⟨c, -, hc⟩ := mem_of_forall₂_left hr.rows (List.mem_of_mem_filter hr')
    exact ⟨c, hc⟩
  obtain ⟨l', hl'⟩ := exists_forall₂ hrec
  refine ⟨_, conversations_ok_iff.2 ⟨t', l', ⟨ht', ?_, h.faults _ hr.fault, hl'⟩, rfl⟩⟩
  rw [hcols]
  exact hr.columns

/-- Where `g` adds one element for each element with `p`, its image is longer by as many. -/
theorem filterMap_insert {α β : Type} {f g : α → Option β} {p : α → Prop} [DecidablePred p] {l : List α}
    (h : ∀ a ∈ l, if p a then f a = none ∧ ∃ b, g a = some b else g a = f a) :
    (l.filterMap f).Sublist (l.filterMap g) ∧
      (l.filterMap g).length = (l.filterMap f).length + (l.filter p).length := by
  induction l with
  | nil => exact ⟨List.Sublist.refl _, rfl⟩
  | cons a l ih =>
    obtain ⟨hsub, hlen⟩ := ih fun x hx => h x (List.mem_cons_of_mem a hx)
    have ha := h a List.mem_cons_self
    by_cases hp : p a
    · rw [if_pos hp] at ha
      obtain ⟨hf, b, hg⟩ := ha
      rw [List.filterMap_cons_none hf, List.filterMap_cons_some hg,
        List.filter_cons_of_pos (by simpa using hp)]
      refine ⟨hsub.cons b, ?_⟩
      simp only [List.length_cons]
      omega
    · rw [if_neg hp] at ha
      rw [List.filter_cons_of_neg (by simpa using hp)]
      cases hf : f a with
      | none =>
        rw [List.filterMap_cons_none hf, List.filterMap_cons_none (ha.trans hf)]
        exact ⟨hsub, hlen⟩
      | some b =>
        rw [List.filterMap_cons_some hf, List.filterMap_cons_some (ha.trans hf)]
        refine ⟨hsub.cons_cons b, ?_⟩
        simp only [List.length_cons]
        omega

/-- Forgetting what the added findings are. -/
theorem added_of_graded {rows : List Row}
    (h : ∀ r ∈ rows, if References C db r then
        orphanAt db r = none ∧ ∃ i c, r "id" = .text i ∧ r "conversationId" = .text c ∧
          orphanAt db' r = some (.orphanMessage i c)
      else orphanAt db' r = orphanAt db r) :
    ∀ r ∈ rows, if References C db r then orphanAt db r = none ∧ ∃ a, orphanAt db' r = some a
      else orphanAt db' r = orphanAt db r := by
  intro r hr
  have hx := h r hr
  by_cases hR : References C db r
  · rw [if_pos hR] at hx ⊢
    obtain ⟨hnone, i, c, -, -, hsome⟩ := hx
    exact ⟨hnone, _, hsome⟩
  · rw [if_neg hR] at hx ⊢
    exact hx

/-! ## The audit -/

/-- **A deletion shows in the audit.** The residue findings stay, and each message that
references a deleted conversation adds one orphan finding at its place. -/
theorem Deletes.auditStore_eq (h : Deletes C db db') {cs : List Conversation} {ms : List Message}
    {as : List Attachment} (hc : conversations parse db = .ok cs) (hm : messages parse db = .ok ms)
    (ha : attachments parse db = .ok as) :
    auditStore toFinding parse db' = .ok ((orphans db' ++ residue as).map (·.finding toFinding)) := by
  obtain ⟨cs', hc'⟩ := h.conversations_ok hc
  have ht := h.others "messages" (by decide)
  have hta := h.others messageAttachmentsTable (by decide)
  exact SignalDesktop.auditStore_eq hc' (messages_of_same ht hta h.faults hm)
    (attachments_of_same ht hta h.faults ha)

theorem Rewrites.orphans_eq (h : Rewrites db db') : orphans db' = orphans db := by
  have hconv : ∀ c, HasConversation db' c ↔ HasConversation db c := by
    intro c
    have hmem : ∀ d : Database, HasConversation d c ↔
        Cell.text c ∈ (d.rows "conversations").map fun r => r "id" := by
      intro d
      simp only [HasConversation, List.mem_map]
    rw [hmem, hmem, h.ids.mem_iff]
  rw [orphans, orphans, rows_of_same (h.others _ (by decide)), orphanAt_congr hconv]

/-- **The audit, exactly.** The findings of a store are one per dangling reference, in
message order, and one per attachment with a path. Deleting conversations (with distinct
ids) changes the finding of a message iff it references a deleted one, and then from none
to one. Reordering conversations, or rewriting columns other than their id, changes no
finding. -/
theorem audit_exact {cs : List Conversation} {ms : List Message} {as : List Attachment}
    (hc : conversations parse db = .ok cs) (hm : messages parse db = .ok ms)
    (ha : attachments parse db = .ok as) :
    auditStore toFinding parse db = .ok ((orphans db ++ residue as).map (·.finding toFinding)) ∧
    (∀ C db', Deletes C db db' → ((db.rows "conversations").map fun r => r "id").Nodup →
      auditStore toFinding parse db' = .ok ((orphans db' ++ residue as).map (·.finding toFinding)) ∧
      orphans db' = (db.rows "messages").filterMap (orphanAt db') ∧
      (∀ r ∈ db.rows "messages", if References C db r then
          orphanAt db r = none ∧ ∃ i c, r "id" = .text i ∧ r "conversationId" = .text c ∧
            orphanAt db' r = some (.orphanMessage i c)
        else orphanAt db' r = orphanAt db r) ∧
      (orphans db).Sublist (orphans db') ∧
      (orphans db').length =
        (orphans db).length + ((db.rows "messages").filter (References C db)).length) ∧
    (∀ db', Rewrites db db' → auditStore toFinding parse db' = auditStore toFinding parse db) := by
  refine ⟨auditStore_eq hc hm ha, fun C db' h hnd => ?_, fun db' h => ?_⟩
  · have horph : orphans db' = (db.rows "messages").filterMap (orphanAt db') := by
      rw [orphans, rows_of_same (h.others _ (by decide))]
    have hrow : ∀ r ∈ db.rows "messages", if References C db r then
          orphanAt db r = none ∧ ∃ i c, r "id" = .text i ∧ r "conversationId" = .text c ∧
            orphanAt db' r = some (.orphanMessage i c)
        else orphanAt db' r = orphanAt db r := by
      intro r hr
      obtain ⟨m, -, hrm⟩ := mem_of_forall₂_left (messages_faithful hm) hr
      exact h.orphanAt_eq hnd hc hrm
    obtain ⟨hsub, hlen⟩ := filterMap_insert (added_of_graded hrow)
    rw [← horph] at hsub hlen
    exact ⟨h.auditStore_eq hc hm ha, horph, hrow, hsub, hlen⟩
  · obtain ⟨cs', hc'⟩ := conversations_isOk_iff.2 h.readable
    have ht := h.others "messages" (by decide)
    have hta := h.others messageAttachmentsTable (by decide)
    rw [auditStore_eq hc' (messages_of_same ht hta h.faults hm) (attachments_of_same ht hta h.faults ha),
      auditStore_eq hc hm ha, h.orphans_eq]

/-- The sample with a conversation, which `m2` references. -/
def auditDb (conversations : List Row) : Database where
  table
    | "conversations" => some ⟨conversationColumns, conversations, conversationColumns_ne⟩
    | name => sampleDb.table name
  fault _ := none

def sampleConversation : Row
  | "id" => .text "c1"
  | "type" => .text "private"
  | _ => .null

theorem auditDb_deletes : Deletes (fun _ => true) (auditDb [sampleConversation]) (auditDb []) where
  faults _ _ := rfl
  others name h := by simp only [auditDb]
  schema := rfl
  rows := rfl

def sampleResidue : List SignalAnomaly :=
  [.attachmentResidue "m2" "ef/01", .attachmentResidue "m1" "ab/cd"]

/-- Deleting the sample's conversation adds the finding for `m2`. -/
theorem audit_exact_sample :
    auditStore Prod.mk sampleParse (auditDb [sampleConversation]) =
      .ok (sampleResidue.map (SignalAnomaly.finding Prod.mk)) ∧
    auditStore Prod.mk sampleParse (auditDb []) =
      .ok ((.orphanMessage "m2" "c1" :: sampleResidue).map (SignalAnomaly.finding Prod.mk)) := by
  have hm : messages sampleParse (auditDb [sampleConversation]) = .ok
      [⟨"m1", none, .outgoing, some "photo", some 200, none, none, none, none, none, none, true⟩,
        ⟨"m2", some "c1", .incoming, none, some 100, none, none, none, none, none, none, true⟩] := rfl
  have ha : attachments sampleParse (auditDb [sampleConversation]) = .ok
      [⟨"m2", none, none, none, some "ef/01", none⟩, ⟨"m1", none, none, none, some "ab/cd", none⟩] := rfl
  have hc : conversations sampleParse (auditDb [sampleConversation]) = .ok
      [⟨"c1", .«private», none, none, none, none⟩] := rfl
  exact ⟨(audit_exact hc hm ha).1, ((audit_exact hc hm ha).2.1 _ _ auditDb_deletes (by decide)).1⟩

end SignalDesktop
