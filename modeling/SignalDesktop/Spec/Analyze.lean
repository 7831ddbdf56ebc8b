import SignalDesktop.Spec.Store

/-!
# Grading records into findings

`audit` grades parsed records: a message that references a missing conversation, and an
attachment with a path on disk. An anomaly is turned into a finding of the report by
`toFinding`, which sees of it what it observes and the producing source.
-/

namespace SignalDesktop

open Sqlite

/-! ## The report -/

/-- The severities given to an anomaly. -/
inductive Severity
  | info
  | medium
  deriving DecidableEq

/-- The category given to an anomaly. -/
inductive Category
  | residue
  deriving DecidableEq

structure SubjectRef where
  scheme : String
  kind : String
  id : String
  label : Option String
  deriving DecidableEq

structure Source where
  analyzer : String
  scope : String
  version : Option String
  deriving DecidableEq

/-- What an anomaly tells the report. -/
structure Observation where
  severity : Option Severity
  code : String
  category : Category
  note : String
  subjects : List SubjectRef
  deriving DecidableEq

/-! ## Anomalies -/

inductive SignalAnomaly
  | orphanMessage (messageId conversationId : String)
  | attachmentResidue (messageId path : String)
  deriving DecidableEq

namespace SignalAnomaly

def severity : SignalAnomaly → Option Severity
  | orphanMessage .. => some .medium
  | attachmentResidue .. => some .info

def code : SignalAnomaly → String
  | orphanMessage .. => "SIGNAL-ORPHAN-MESSAGE"
  | attachmentResidue .. => "SIGNAL-ATTACHMENT-RESIDUE"

def category (_ : SignalAnomaly) : Category := .residue

def note : SignalAnomaly → String
  | orphanMessage messageId conversationId =>
    "message " ++ messageId ++ " references conversation " ++ conversationId ++
      ", which has no row in the conversations table — consistent with a deleted conversation " ++
      "whose messages remain"
  | attachmentResidue messageId path =>
    "message " ++ messageId ++ " carries attachment metadata for '" ++ path ++
      "' under attachments.noindex — residue that can survive message-body deletion"

def subjects : SignalAnomaly → List SubjectRef
  | orphanMessage messageId _ => [⟨"signal", "message", messageId, none⟩]
  | attachmentResidue messageId _ => [⟨"signal", "attachment", messageId, none⟩]

def observation (a : SignalAnomaly) : Observation where
  severity := a.severity
  code := a.code
  category := a.category
  note := a.note
  subjects := a.subjects

end SignalAnomaly

/-! ## The audit -/

def analyzer : String := "signal-desktop-forensic"

/-- The producing source stamped on every finding. -/
def source : Source where
  analyzer := analyzer
  scope := "signal profile"
  version := some "0.1.1"

/-- A message whose conversation is not among the known ones. -/
def orphanMessageOf (known : List String) (m : Message) : Option SignalAnomaly :=
  match m.conversationId with
  | some cid => if !known.contains cid then some (.orphanMessage m.id cid) else none
  | none => none

/-- An attachment with a path. -/
def attachmentResidueOf (a : Attachment) : Option SignalAnomaly :=
  a.path.map (.attachmentResidue a.messageId)

variable {Finding : Type} (toFinding : Observation → Source → Finding)

def SignalAnomaly.finding (a : SignalAnomaly) : Finding := toFinding a.observation source

/-- Grade the parsed records. -/
def audit (conversations : List Conversation) (messages : List Message)
    (attachments : List Attachment) : List Finding :=
  let known := conversations.map Conversation.id
  (messages.filterMap (orphanMessageOf known) ++ attachments.filterMap attachmentResidueOf).map
    (·.finding toFinding)

variable (parse : Parser)

/-- Read the store's records and grade them. -/
def auditStore (db : Database) : Result (List Finding) := do
  return audit toFinding (← conversations parse db) (← messages parse db) (← attachments parse db)

end SignalDesktop
