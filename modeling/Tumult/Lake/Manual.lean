import Tumult.Core.Text
import Tumult.Lib.Db
import Tumult.Lib.Json

/-!
# Manual evidence

Hand-entered records of resilience tests: a draft is submitted with an attestation and then verified or rejected by a reviewer. Every
mutation runs in a transaction and appends a row to the audit trail, with the content hash of the record before and after it. The
table of records has no key; the audit and attachment tables have one.
-/

namespace Tumult.Manual

open Db (Tx Env)

inductive ExerciseType where
  | gameDay
  | tabletop
  | failover
  | pentest
  | drill
  | other
  deriving DecidableEq, Repr

def ExerciseType.asStr : ExerciseType → String
  | .gameDay => "gameday"
  | .tabletop => "tabletop"
  | .failover => "failover"
  | .pentest => "pentest"
  | .drill => "drill"
  | .other => "other"

inductive ManualOutcome where
  | passed
  | failed
  | partially
  | inconclusive
  deriving DecidableEq, Repr

def ManualOutcome.asStr : ManualOutcome → String
  | .passed => "passed"
  | .failed => "failed"
  | .partially => "partial"
  | .inconclusive => "inconclusive"

inductive AttachmentKind where
  | file
  | url
  | logExcerpt
  | ticket
  deriving DecidableEq, Repr

/-- What a record's status says. -/
inductive Status where
  | draft
  | submitted
  | verified
  | rejected
  deriving DecidableEq, Repr

def Status.asStr : Status → String
  | .draft => "draft"
  | .submitted => "submitted"
  | .verified => "verified"
  | .rejected => "rejected"

inductive ManualError where
  | invalid (msg : String)
  | notFound (id : String)
  | wrongStatus (status action : String)
  | selfReview
  | store
  deriving DecidableEq, Repr

/-- The fields of a record that its author gives; `F64` are the floating-point numbers. -/
structure ManualContent (F64 : Type) where
  experimentName : String
  exerciseType : ExerciseType
  executedAtNs : Int
  hypothesis : String
  method : String
  outcome : ManualOutcome
  hypothesisMet : Option Bool
  findings : Option String
  actionItems : List String
  targetSystem : Option String
  targetEnvironment : Option String
  blastRadius : Option String
  recoveryTimeS : Option F64
  durationS : Option F64
  attestation : String
  renewalDueNs : Option Int
  frameworkRefs : List String

/-- Content of a new or replaced record. -/
structure NewManualExperiment (F64 : Type) extends ManualContent F64 where
  enteredBy : String

/-- The required texts, then the time. -/
def NewManualExperiment.validate {F64 : Type} (new : NewManualExperiment F64) : Except ManualError Unit :=
  match [("experiment_name", new.experimentName), ("hypothesis", new.hypothesis), ("method", new.method),
      ("entered_by", new.enteredBy), ("attestation", new.attestation)].find? fun field => Text.trim field.2 = "" with
  | some field => .error (.invalid ("'" ++ field.1 ++ "' must not be empty"))
  | none =>
    if new.executedAtNs ≤ 0 then .error (.invalid "'executed_at_ns' must be a positive unix-nanos timestamp") else .ok ()

/-- What is hashed: the content, by whom, and the status. -/
structure CanonicalContent (F64 : Type) extends ManualContent F64 where
  enteredBy : String
  status : Status

/-- A row of `manual_experiments`. -/
structure ManualRow (F64 : Type) extends CanonicalContent F64 where
  id : String
  origin : String
  enteredAtNs : Int
  reviewedBy : Option String
  reviewedAtNs : Option Int
  reviewNote : Option String
  batchId : Option String
  contentHash : String

inductive AuditAction where
  | create
  | edit
  | submit
  | verify
  | reject
  | attach
  deriving DecidableEq, Repr

def AuditAction.asStr : AuditAction → String
  | .create => "create"
  | .edit => "edit"
  | .submit => "submit"
  | .verify => "verify"
  | .reject => "reject"
  | .attach => "attach"

/-- What an audit row says of the change. -/
inductive AuditDiff where
  | created (experimentName : String) (exerciseType : ExerciseType) (outcome : ManualOutcome)
  | imported (experimentName batchId : String)
  | edited (replacedBy : String)
  | moved (fromStatus toStatus : Status)
  | reviewed (toStatus : Status) (note : Option String)
  | attached (attachmentId : String) (kind : AttachmentKind) (uri : String) (label : Option String)
  deriving DecidableEq, Repr

/-- A row of `manual_experiment_audit`. -/
structure ManualAuditRow where
  id : String
  experimentId : String
  changedBy : String
  changedAtNs : Int
  action : AuditAction
  diff : AuditDiff
  prevHash : Option String
  newHash : String
  deriving DecidableEq, Repr

/-- A row of `evidence_attachments`. -/
structure AttachmentRow where
  id : String
  experimentId : String
  kind : AttachmentKind
  uri : String
  label : Option String
  fileHash : Option String
  addedBy : String
  addedAtNs : Int
  deriving DecidableEq, Repr

/-- A row of `import_batches`. -/
structure ImportBatchRow where
  id : String
  source : String
  importedAtNs : Int
  rows : Int
  label : Option String
  deriving DecidableEq, Repr

structure ManualDb (F64 : Type) where
  experiments : List (ManualRow F64)
  audit : List ManualAuditRow
  attachments : List AttachmentRow
  importBatches : List ImportBatchRow

/-- What the writer takes from outside: identifiers, the digest, the text of a number, and what reading a row back gives for its
content. -/
structure ManualCtx extends Env where
  F64 : Type
  f64Json : F64 → String
  ulid : Nat → String
  sha256Hex : String → String
  readBack : ManualContent F64 → ManualContent F64

/-! ## The hash of a record -/

section Json

open JsonText

/-- A field of JSON that may be absent, and a comma. -/
def orNull {α : Type} (text : α → String) (x : Option α) : List Char := (x.elim "null" text).toList ++ [',']

/-- A list of strings, each closed by a comma or by the bracket. -/
def stringList : List String → List Char
  | [] => ['[', ']']
  | s :: ss => '[' :: (quote s ++ (ss.flatMap (fun t => ',' :: quote t) ++ [']']))

/-- The canonical JSON of a record: its fields in the order of the declaration. -/
def CanonicalContent.toJson {F64 : Type} (f64Json : F64 → String) (c : CanonicalContent F64) : List Char :=
  field "\x7b\"experiment_name\":" (quote c.experimentName) ++ (field ",\"exercise_type\":" (quote c.exerciseType.asStr) ++
    (field ",\"executed_at_ns\":" (intComma c.executedAtNs) ++ (field "\"hypothesis\":" (quote c.hypothesis) ++
    (field ",\"method\":" (quote c.method) ++ (field ",\"outcome_status\":" (quote c.outcome.asStr) ++
    (field ",\"hypothesis_met\":" (orNull (fun b => if b then "true" else "false") c.hypothesisMet) ++
    (field "\"findings\":" (quoteOrNull c.findings) ++ (field ",\"action_items\":" (stringList c.actionItems) ++
    (field ",\"target_system\":" (quoteOrNull c.targetSystem) ++ (field ",\"target_environment\":" (quoteOrNull c.targetEnvironment) ++
    (field ",\"blast_radius\":" (quoteOrNull c.blastRadius) ++ (field ",\"recovery_time_s\":" (orNull f64Json c.recoveryTimeS) ++
    (field "\"duration_s\":" (orNull f64Json c.durationS) ++ (field "\"entered_by\":" (quote c.enteredBy) ++
    (field ",\"attestation\":" (quote c.attestation) ++ (field ",\"renewal_due_ns\":" (orNull toString c.renewalDueNs) ++
    (field "\"framework_refs\":" (stringList c.frameworkRefs) ++ (field ",\"status\":" (quote c.status.asStr) ++
    ['\x7d']))))))))))))))))))

end Json

section

variable (Γ : ManualCtx)

def contentHash (c : CanonicalContent Γ.F64) : String := Γ.sha256Hex (String.ofList (c.toJson Γ.f64Json))

/-- The writer's programs. -/
abbrev ManualTx (α : Type) : Type := Tx ManualError (ManualDb Γ.F64) α

/-- The record of an id. -/
def ManualDb.row? (db : ManualDb Γ.F64) (id : String) : Option (ManualRow Γ.F64) := db.experiments.find? (·.id = id)

def fetchRow (id : String) : ManualTx Γ (Option (ManualRow Γ.F64)) := Db.query Γ.toEnv .store (·.row? Γ id)

/-- The hash of the content that reading a record back gives. -/
def rereadHash (row : ManualRow Γ.F64) : String :=
  contentHash Γ { row.toCanonicalContent with toManualContent := Γ.readBack row.toManualContent }

/-- Recompute the content hash by reading the row back. -/
def rehash (id : String) : ManualTx Γ String := do
  match ← fetchRow Γ id with
  | none => Db.throw (.notFound id)
  | some row => pure (rereadHash Γ row)

/-- Insert the experiment row. -/
def insertDraft (new : NewManualExperiment Γ.F64) (batchId : Option String) : ManualTx Γ (String × String) := do
  let id ← Db.observe Γ.ulid
  let canonical : CanonicalContent Γ.F64 := { new with status := .draft }
  let hash := contentHash Γ canonical
  let enteredAtNs ← Db.now Γ.toEnv
  Db.execute Γ.toEnv .store .store fun db => some { db with
    experiments := db.experiments ++ [{ canonical with
      id, origin := "manual", enteredAtNs, reviewedBy := none, reviewedAtNs := none, reviewNote := none, batchId, contentHash := hash }] }
  pure (id, hash)

/-- Append one audit row. -/
def appendAudit (experimentId changedBy : String) (action : AuditAction) (diff : AuditDiff) (prevHash : Option String)
    (newHash : String) : ManualTx Γ Unit := do
  let id ← Db.observe Γ.ulid
  let changedAtNs ← Db.now Γ.toEnv
  Db.execute Γ.toEnv .store .store fun db =>
    if db.audit.any (·.id = id) then none
    else some { db with audit := db.audit ++ [⟨id, experimentId, changedBy, changedAtNs, action, diff, prevHash, newHash⟩] }

/-- Create a manual test record as a draft. -/
def createManualDraft (new : NewManualExperiment Γ.F64) : ManualTx Γ String := do
  Db.ofExcept new.validate
  Db.withTx Γ.toEnv .store do
    let (id, hash) ← insertDraft Γ new none
    appendAudit Γ id new.enteredBy .create (.created new.experimentName new.exerciseType new.outcome) none hash
    pure id

/-- The record of an id, if its status allows the action. -/
def fetchFor (id action : String) (allowed : Status → Bool) : ManualTx Γ (ManualRow Γ.F64) := do
  match ← fetchRow Γ id with
  | none => Db.throw (.notFound id)
  | some row => if allowed row.status then pure row else Db.throw (.wrongStatus row.status.asStr action)

/-- Update a record, recompute its hash, and append the audit row. -/
def amend (row : ManualRow Γ.F64) (change : ManualRow Γ.F64 → ManualRow Γ.F64) (by_ : String) (action : AuditAction)
    (diff : AuditDiff) : ManualTx Γ Unit := do
  Db.execute Γ.toEnv .store .store fun db => some { db with
    experiments := Db.updateWhere (·.id = row.id) change db.experiments }
  let hash ← rehash Γ row.id
  Db.execute Γ.toEnv .store .store fun db => some { db with
    experiments := Db.updateWhere (·.id = row.id) (fun r => { r with contentHash := hash }) db.experiments }
  appendAudit Γ row.id by_ action diff (some row.contentHash) hash

/-- Replace the content of a draft; `entered_by` and `entered_at_ns` are kept. -/
def updateManualDraft (id : String) (new : NewManualExperiment Γ.F64) (changedBy : String) : ManualTx Γ Unit := do
  Db.ofExcept new.validate
  Db.withTx Γ.toEnv .store do
    let row ← fetchFor Γ id "edit" (· = .draft)
    amend Γ row (fun r => { r with toManualContent := new.toManualContent }) changedBy .edit (.edited row.enteredBy)

/-- Move a draft to `submitted`, with a fresh attestation or the one it has. -/
def submitManual (id : String) (attestation : Option String) (by_ : String) : ManualTx Γ Unit :=
  Db.withTx Γ.toEnv .store do
    let row ← fetchFor Γ id "submit" (· = .draft)
    let effective := attestation.getD row.attestation
    if Text.trim effective = "" then Db.throw (.invalid "submit requires a non-empty attestation")
    amend Γ row (fun r => { r with status := .submitted, attestation := effective }) by_ .submit (.moved .draft .submitted)

/-- How often an actor has contributed to a record. -/
def ManualDb.contributed {F64 : Type} (db : ManualDb F64) (id actor : String) : Nat :=
  db.audit.countP fun a => a.experimentId = id && a.changedBy = actor &&
    (a.action = .create || a.action = .edit || a.action = .submit || a.action = .attach)

def review (id reviewer : String) (note : Option String) (approve : Bool) : ManualTx Γ Unit :=
  let action : AuditAction := if approve then .verify else .reject
  let toStatus : Status := if approve then .verified else .rejected
  Db.withTx Γ.toEnv .store do
    let row ← fetchFor Γ id action.asStr (· = .submitted)
    if Text.trim reviewer = "" then Db.throw (.invalid "reviewer must not be empty")
    let contributed ← Db.query Γ.toEnv .store (·.contributed id reviewer)
    if reviewer = row.enteredBy ∨ 0 < contributed then Db.throw .selfReview
    let reviewedAtNs ← Db.now Γ.toEnv
    amend Γ row (fun r => { r with
      status := toStatus, reviewedBy := some reviewer, reviewedAtNs := some reviewedAtNs, reviewNote := note }) reviewer action
      (.reviewed toStatus note)

/-- Verify a submitted record. -/
def verifyManual (id reviewer : String) (note : Option String) : ManualTx Γ Unit := review Γ id reviewer note true

/-- Reject a submitted record; a note is mandatory. -/
def rejectManual (id reviewer note : String) : ManualTx Γ Unit := do
  if Text.trim note = "" then Db.throw (.invalid "reject requires a non-empty review note")
  review Γ id reviewer (some note) false

/-- Attach an external evidence link to a draft or submitted record. -/
def addManualAttachment (experimentId : String) (kind : AttachmentKind) (uri : String) (label fileHash : Option String)
    (addedBy : String) : ManualTx Γ String := do
  if Text.trim uri = "" then Db.throw (.invalid "attachment uri must not be empty")
  Db.withTx Γ.toEnv .store do
    let row ← fetchFor Γ experimentId "attach" fun status => status = .draft || status = .submitted
    let attachmentId ← Db.observe Γ.ulid
    let addedAtNs ← Db.now Γ.toEnv
    Db.execute Γ.toEnv .store .store fun db =>
      if db.attachments.any (·.id = attachmentId) then none
      else some { db with
        attachments := db.attachments ++ [⟨attachmentId, experimentId, kind, uri, label, fileHash, addedBy, addedAtNs⟩] }
    appendAudit Γ experimentId addedBy .attach (.attached attachmentId kind uri label) (some row.contentHash) row.contentHash
    pure attachmentId

/-- The records of an import, one after the other. -/
def importItems (batchId : String) : List (NewManualExperiment Γ.F64) → ManualTx Γ (List String)
  | [] => pure []
  | item :: items => do
    let (id, hash) ← insertDraft Γ item (some batchId)
    appendAudit Γ id item.enteredBy .create (.imported item.experimentName batchId) none hash
    let ids ← importItems batchId items
    pure (id :: ids)

/-- Bulk-import records as drafts in one transaction. -/
def importManualDrafts (items : List (NewManualExperiment Γ.F64)) (label : Option String) : ManualTx Γ (String × List String) := do
  if items.isEmpty then Db.throw (.invalid "import requires at least one record")
  Db.ofExcept (items.forM fun item => item.validate)
  Db.withTx Γ.toEnv .store do
    let ulid ← Db.observe Γ.ulid
    let batchId := "manual-import-" ++ ulid
    let importedAtNs ← Db.now Γ.toEnv
    Db.execute Γ.toEnv .store .store fun db => some { db with
      importBatches := db.importBatches ++ [⟨batchId, "manual-api", importedAtNs, min (items.length : Int) (2 ^ 31 - 1), label⟩] }
    let ids ← importItems Γ batchId items
    pure (batchId, ids)

/-- The mutations. -/
inductive ManualOp where
  | create (new : NewManualExperiment Γ.F64)
  | update (id : String) (new : NewManualExperiment Γ.F64) (changedBy : String)
  | submit (id : String) (attestation : Option String) (by_ : String)
  | verify (id reviewer : String) (note : Option String)
  | reject (id reviewer note : String)
  | attach (experimentId : String) (kind : AttachmentKind) (uri : String) (label fileHash : Option String) (addedBy : String)
  | importDrafts (items : List (NewManualExperiment Γ.F64)) (label : Option String)

def ManualOp.run : ManualOp Γ → ManualTx Γ Unit
  | .create new => createManualDraft Γ new >>= fun _ => pure ()
  | .update id new changedBy => updateManualDraft Γ id new changedBy
  | .submit id attestation by_ => submitManual Γ id attestation by_
  | .verify id reviewer note => verifyManual Γ id reviewer note
  | .reject id reviewer note => rejectManual Γ id reviewer note
  | .attach experimentId kind uri label fileHash addedBy =>
    addManualAttachment Γ experimentId kind uri label fileHash addedBy >>= fun _ => pure ()
  | .importDrafts items label => importManualDrafts Γ items label >>= fun _ => pure ()

/-- Mutations one after the other on the one writer, whatever they return. -/
def runOps (ops : List (ManualOp Γ)) (s : Db.Session (ManualDb Γ.F64)) : Db.Session (ManualDb Γ.F64) :=
  ops.foldl (fun s op => Db.after (op.run Γ) s) s

end

end Tumult.Manual
