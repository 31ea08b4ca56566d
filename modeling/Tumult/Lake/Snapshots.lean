import Tumult.Lib.Db
import Tumult.Lib.OrdMap

/-!
# Portable snapshots

An export writes each portable table as a content-addressed file and then publishes a manifest that names them. Files are written
under a temporary name and renamed; so is the manifest. A session's tick numbers the file operations and the reads of the database,
each of which may fail; a crash is a failure from which the process does not come back, and leaves the same files. An export reads
one snapshot of the database. A row and a column are what the database's `row_to_json` says of them. Directories, permissions, the
lock and the syncs are steps that only fail or succeed; the archive's status and retention are left out.
-/

namespace Tumult.Lake

open Db (Tx Env)

abbrev Bytes := List UInt8

/-- What a table holds: its columns in order, and its rows. -/
structure TableContent where
  columns : List String
  rows : List String
  deriving DecidableEq, Repr

/-- A snapshot of the database, table by table. -/
abbrev Snapshot := String → TableContent

/-- What the database and the file system compute: SHA-256 of a text and of a file, the file that `COPY` writes, and what a `COPY`
that did not finish leaves. -/
structure LakeCtx where
  sha256Hex : String → String
  checksum : Bytes → String
  copy : Nat → TableContent → Bytes
  partialCopy : Nat → Bytes

inductive StoreError where
  | io
  | internal (message : String)
  deriving DecidableEq, Repr

/-- The portable tables. -/
def tables : List String :=
  ["spans", "logs", "metric_sums", "metric_gauges", "metric_histograms", "manual_experiment_audit", "manual_experiments",
    "evidence_attachments", "import_batches", "experiments", "activity_results", "load_results", "autopilot_decisions",
    "autopilot_events", "autopilot_change_events", "graph_nodes", "graph_edges", "agentic_runs", "agentic_contract_outcomes",
    "agentic_fault_applications", "agentic_replay_outcomes", "runs", "run_registry", "run_audit", "run_schedules",
    "approval_requests", "approval_decisions", "webhook_cursors", "webhook_dead_letters"]

theorem slash_not_mem_tables {table : String} (h : table ∈ tables) : '/' ∉ table.toList := by
  revert table
  decide +kernel

def excluded : List String :=
  ["users", "sessions", "tokens", "user_env_scopes", "webhooks", "run_recovery_plans", "run_execution_pins", "schema_meta"]

/-- The text whose digest is a table's fingerprint: the digests of its columns in order, and the digests of its rows sorted. -/
def fingerprintText (ctx : LakeCtx) (c : TableContent) : String :=
  ",".intercalate (c.columns.map ctx.sha256Hex) ++ ":" ++
    ",".intercalate ((c.rows.map ctx.sha256Hex).insertionSort (· ≤ ·))

def fingerprint (ctx : LakeCtx) (c : TableContent) : String := ctx.sha256Hex (fingerprintText ctx c)

/-! ## The manifest -/

structure TableExport where
  name : String
  rows : Nat
  watermarkNs : Int
  files : List String
  deriving DecidableEq, Repr

structure ExportReport where
  ranAtNs : Int
  tables : List TableExport
  deriving DecidableEq, Repr

structure LakeMeta where
  formatVersion : Nat := 0
  lastExportNs : Option Int := none
  tables : OrdMap String Int := OrdMap.empty
  fingerprints : OrdMap String String := OrdMap.empty
  snapshots : OrdMap String String := OrdMap.empty
  fileChecksums : OrdMap String String := OrdMap.empty
  excludedTables : List String := []

/-- The lake directory: the files below it, the manifest, and the manifest's temporary file, which may be incomplete. -/
structure LakeFs where
  files : String → Option Bytes
  manifest : Option LakeMeta
  manifestTmp : Option (Option LakeMeta)

/-- A directory with nothing in it. -/
def LakeFs.empty : LakeFs := ⟨fun _ => none, none, none⟩

/-- The directory with a file changed. -/
def LakeFs.setFile (fs : LakeFs) (path : String) (bytes : Option Bytes) : LakeFs :=
  { fs with files := Function.update fs.files path bytes }

def snapshotPath (table fp : String) : String := "snapshots/" ++ table ++ "/" ++ fp ++ ".parquet"

/-- The snapshot's path with the extension `parquet.tmp`. -/
def tempPath (path : String) : String := path ++ ".tmp"

section Export

variable (Γ : Env) (ctx : LakeCtx)

/-- One operation on the directory, which fails when the environment or the file system says so. -/
def fileOp (f : LakeFs → Option LakeFs) : Tx StoreError LakeFs Unit := Db.execute Γ .io .io f

/-- An operation that leaves the files: a directory made or synced, a lock taken, a transaction begun or committed. -/
def pass : Tx StoreError LakeFs Unit := fileOp Γ some

def readMeta : Tx StoreError LakeFs LakeMeta := Db.query Γ .io fun fs => fs.manifest.getD {}

def writeMeta (manifest : LakeMeta) : Tx StoreError LakeFs Unit := do
  fileOp Γ fun fs => some { fs with manifestTmp := none }
  fileOp Γ fun fs => some { fs with manifestTmp := some none }
  fileOp Γ fun fs => some { fs with manifestTmp := some (some manifest) }
  pass Γ
  fileOp Γ fun fs => fs.manifestTmp.map fun written => { fs with manifest := written, manifestTmp := none }
  pass Γ

/-- The checksum of a file that should be there. -/
def checksumOf (path : String) : Tx StoreError LakeFs String := do
  match ← Db.query Γ .io fun fs => (fs.files path).map ctx.checksum with
  | some digest => pure digest
  | none => Db.throw .io

/-- Write a table's file under its temporary name, and rename it. -/
def writeTable (content : TableContent) (path : String) : Tx StoreError LakeFs Unit := do
  pass Γ
  fileOp Γ fun fs => some (fs.setFile (tempPath path) none)
  let started ← Db.observe id
  fileOp Γ fun fs => some (fs.setFile (tempPath path) (some (ctx.partialCopy started)))
  let finished ← Db.observe id
  fileOp Γ fun fs => some (fs.setFile (tempPath path) (some (ctx.copy finished content)))
  pass Γ
  fileOp Γ fun fs => (fs.files (tempPath path)).map fun bytes => (fs.setFile (tempPath path) none).setFile path (some bytes)
  pass Γ

/-- A committed file whose bytes are still those that were published is used again. -/
def unchangedSince (previous : LakeMeta) (table path : String) (existing : Option String) : Bool :=
  previous.formatVersion == 2 && previous.snapshots.get? table == some path && existing.isSome &&
    previous.fileChecksums.get? table == existing

/-- The manifest with a table's entries. -/
def LakeMeta.record (manifest : LakeMeta) (table fp digest : String) (published : Int) : LakeMeta :=
  { manifest with
    fileChecksums := manifest.fileChecksums.alter table fun _ => digest
    snapshots := manifest.snapshots.alter table fun _ => snapshotPath table fp
    fingerprints := manifest.fingerprints.alter table fun _ => fp
    tables := manifest.tables.alter table fun _ => published }

/-- Export one table of the snapshot. -/
def exportTable (db : Snapshot) (previous : LakeMeta) (runNs : Int) (table : String) (acc : LakeMeta × List TableExport) :
    Tx StoreError LakeFs (LakeMeta × List TableExport) := do
  let fp ← Db.query Γ .io fun _ => fingerprint ctx (db table)
  let path := snapshotPath table fp
  let existing ← Db.query Γ .io fun fs => (fs.files path).map ctx.checksum
  let unchanged := unchangedSince previous table path existing
  let rows ← Db.query Γ .io fun _ => (db table).rows.length
  if unchanged then
    let published := (previous.tables.get? table).getD runNs
    pure (acc.1.record table fp (existing.getD "") published, acc.2 ++ [⟨table, 0, published, []⟩])
  else do
    writeTable Γ ctx (db table) path
    let digest ← checksumOf Γ ctx path
    pure (acc.1.record table fp digest runNs, acc.2 ++ [⟨table, rows, runNs, [path]⟩])

def exportTables (db : Snapshot) (previous : LakeMeta) (runNs : Int) :
    List String → LakeMeta × List TableExport → Tx StoreError LakeFs (LakeMeta × List TableExport)
  | [], acc => pure acc
  | table :: rest, acc => do
    let acc ← exportTable Γ ctx db previous runNs table acc
    exportTables db previous runNs rest acc

/-- Export complete table versions and commit their manifest. -/
def lakeExport (db : Snapshot) : Tx StoreError LakeFs ExportReport := do
  pass Γ
  pass Γ
  pass Γ
  pass Γ
  let previous ← readMeta Γ
  if previous.formatVersion ≠ 2 ∧ (previous.lastExportNs.isSome ∨ previous.tables.entries ≠ []) then
    Db.throw (.internal "legacy lake archive: preserve its files and set KRONIKA_LAKE_DIR to a new empty directory for manifest v2; previously purged rows require separate reconciliation")
  else if previous.formatVersion > 2 then
    Db.throw (.internal "unsupported lake manifest version")
  else do
    let runNs ← Db.now Γ
    pass Γ
    let acc ← exportTables Γ ctx db previous runNs tables ({ formatVersion := 2, excludedTables := excluded }, [])
    pass Γ
    writeMeta Γ { acc.1 with lastExportNs := some runNs }
    pure ⟨runNs, acc.2⟩

/-- The single committed version of a portable table. -/
def committedFile (fs : LakeFs) (table : String) : Except StoreError String :=
  let manifest := fs.manifest.getD {}
  if manifest.formatVersion ≠ 2 then .error (.internal "archive requires a v2 snapshot export")
  else
    match manifest.snapshots.get? table with
    | none => .error (.internal "table is not in the portable export")
    | some relative =>
      match manifest.fingerprints.get? table with
      | none => .error (.internal "missing fingerprint")
      | some fp =>
        if table ∉ tables ∨ fp.utf8ByteSize ≠ 64 ∨ !fp.toList.all Char.isHexDigit ∨ relative ≠ snapshotPath table fp then
          .error (.internal "invalid snapshot manifest path")
        else
          match fs.files relative with
          | none => .error (.internal "committed snapshot file is missing")
          | some bytes =>
            match manifest.fileChecksums.get? table with
            | none => .error (.internal "snapshot integrity metadata missing; export again before reading")
            | some expected =>
              if ctx.checksum bytes ≠ expected then
                .error (.internal "committed snapshot checksum mismatch; export again to repair from retained rows")
              else .ok relative

/-! ## Histories -/

/-- What happens around the lake: a mutation of the tables, an export, and a file of the directory damaged or lost. -/
inductive LakeOp where
  | mutate (db : Snapshot)
  | doExport
  | damage (path : String) (bytes : Option Bytes)

structure LakeState where
  db : Snapshot
  session : Db.Session LakeFs

def LakeOp.run : LakeOp → LakeState → LakeState
  | .mutate db, st => { st with db := db }
  | .doExport, st => { st with session := Db.after (lakeExport Γ ctx st.db) st.session }
  | .damage path bytes, st => { st with session := st.session.withStore (st.session.store.setFile path bytes) }

/-- A history from an empty directory. -/
def history (db : Snapshot) (ops : List LakeOp) : LakeState := ops.foldl (fun st op => op.run Γ ctx st) ⟨db, ⟨LakeFs.empty, 0⟩⟩

end Export

end Tumult.Lake
