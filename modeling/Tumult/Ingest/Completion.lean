import Tumult.Daemon.State
import Tumult.Lake.Runs
import Tumult.Runner.Experiment

/-!
# The completion of a run

What a worker does with the journal of a run that ended: evidence first, then the run's state, in one closure on the writer; and
where that fails after a stop, cleanup and one retry with the journal altered. The two writes may be refused one by one, and the
token may be cancelled between any two steps.
-/

namespace Tumult.Completion

/-- What a completion shows. -/
inductive Event where
  /-- The declared rollbacks are attempted. -/
  | rollbacks
  /-- A state derived from the journal is recorded, by a closure that met a cancelled token or not. -/
  | finished (journal : Journal) (state : RunState) (stopped : Bool)

/-- What the writer holds: the run tables, the journals in the order they were ingested, and what was shown. -/
structure Evidence where
  store : Store
  journals : List Journal
  history : List Event

/-- A program on the whole of it. -/
abbrev Write (α : Type) : Type := Db.Tx StoreError Evidence α

/-- How a closure sent to the writer fares. -/
structure WriteOutcome where
  /-- The write task runs it. -/
  reaches : Bool
  /-- The writes of the journal are accepted. -/
  ingests : Bool
  /-- The writes of the run's state are accepted. -/
  finishes : Bool
  deriving DecidableEq, Repr

/-- The database, when it accepts every write or refuses every write. -/
def accepting (Γ : Ctx) (accepts : Bool) : Ctx := { Γ with fails := fun _ => !accepts }

/-- A program on the run tables. -/
def onRuns {α : Type} (x : Writer α) : Write α := fun s =>
  ((x ⟨s.store.store, s.tick⟩).1, ⟨{ s.store with store := (x ⟨s.store.store, s.tick⟩).2.store }, (x ⟨s.store.store, s.tick⟩).2.tick⟩)

/-- Ingest a journal, unless one of the same experiment is there; whether it was ingested. -/
def ingestJournal (Γ : Ctx) (journal : Journal) : Write Bool := do
  let duplicate ← Db.query Γ.toEnv .database fun ev => ev.journals.any fun stored => stored.experimentId = journal.experimentId
  if duplicate then
    return false
  Db.withTx Γ.toEnv .database do
    -- the rows of the experiment, its activities, its load result and its part of the graph
    Db.statement Γ.toEnv .database fun ev => ((), { ev with journals := ev.journals ++ [journal] })
    return true

/-- The state that a journal leaves a run in. -/
def stateOf (journal : Journal) : RunState :=
  if 0 < journal.rollbackFailures then .rollbackPending else terminalState journal.status

def rollbackStatusOf (journal : Journal) : String :=
  if journal.rollbackResults = [] then "not_needed" else if journal.rollbackFailures = 0 then "completed" else "failed"

/-- Terminal state and journal of a finished run; `cancelled` is the token as the closure meets it. -/
def recordCompletion (Γ : Ctx) (w : WriteOutcome) (cancelled : Bool) (runId : String) (journal : Journal) : Write Unit := do
  if !w.reaches then
    Db.throw (.internal "writer task stopped")
  if cancelled && journal.status ≠ .interrupted then
    Db.throw (.internal "stop accepted before completion; cleanup required")
  -- Evidence must commit before a terminal state excludes this run from recovery.
  let _ ← ingestJournal (accepting Γ w.ingests) journal
  onRuns (finishRun (accepting Γ w.finishes) runId (stateOf journal) (some journal.experimentId) (some (rollbackStatusOf journal)) none)
  Db.note fun ev => { ev with history := ev.history ++ [.finished journal (stateOf journal) cancelled] }

/-- What a completion cannot foresee. -/
structure Outcomes where
  first : WriteOutcome
  second : WriteOutcome
  /-- When the token is cancelled: before the first closure meets it (0), before the worker reads it again (1), or before the second
  closure meets it (2). -/
  cancelAt : Option Nat
  /-- The stop requests that the writer serves after the first closure, by who made them, and whether each is accepted. -/
  stops : List (Option String × Bool)
  /-- What the rollbacks of a late cleanup return; an error if their task panics. -/
  cleanup : Except String (List ActivityResult)
  /-- The failure of a late cleanup can be recorded. -/
  failureRecorded : Bool
  /-- The wall clock at the retry. -/
  nowNs : Int

/-- The token is cancelled by then. -/
def Outcomes.cancelled (o : Outcomes) (moment : Nat) : Bool := o.cancelAt.any fun n => decide (n ≤ moment)

/-- The journal of a run that a stop reached after its runner returned, with the results of a late cleanup if there was one. -/
def interruptedJournal (journal : Journal) (late : Option (List ActivityResult)) (nowNs : Int) : Journal :=
  { journal with
    status := .interrupted
    analysis := none
    rollbackFailures := late.elim journal.rollbackFailures fun results => results.countP fun r => decide (r.status ≠ .succeeded)
    rollbackResults := late.getD journal.rollbackResults
    endedAtNs := nowNs
    durationMs := (Int.tdiv (nowNs - journal.startedAtNs) 1000000).toNat }

/-- The stop requests of other tasks. -/
def serveStops (Γ : Ctx) (runId : String) : List (Option String × Bool) → Db.Session Evidence → Db.Session Evidence
  | [], s => s
  | (actor, accepted) :: stops, s => serveStops Γ runId stops (Db.after (onRuns (requestRunStop (accepting Γ accepted) runId actor)) s)

/-- The retry, with the altered journal. -/
def retry (Γ : Ctx) (o : Outcomes) (runId : String) (journal : Journal) (s : Db.Session Evidence) : Db.Session Evidence :=
  Db.after (recordCompletion Γ o.second (o.cancelled 2) runId journal) s

/-- The rollbacks are attempted: what is shown. -/
def attemptRollbacks (s : Db.Session Evidence) : Db.Session Evidence :=
  s.withStore { s.store with history := s.store.history ++ [.rollbacks] }

/-- The completion of a run: what the writer holds after each step. -/
def completeOrCleanup (Γ : Ctx) (o : Outcomes) (runId : String) (journal : Journal) (s : Db.Session Evidence) :
    List (Db.Session Evidence) :=
  match recordCompletion Γ o.first (o.cancelled 0) runId journal s with
  | (.ok _, s₁) => [s₁]
  | (.error _, s₁) =>
    let s₂ := serveStops Γ runId o.stops s₁
    -- A stop can arrive after the runner returns but before its terminal write.
    if o.cancelled 1 && journal.status ≠ .interrupted then
      if journal.rollbackResults = [] then
        let s₃ := attemptRollbacks s₂
        match o.cleanup with
        | .error e =>
          [s₁, s₂, s₃, Db.after (onRuns (failRun (accepting Γ o.failureRecorded) runId ("late-stop cleanup: " ++ e))) s₃]
        | .ok results => [s₁, s₂, s₃, retry Γ o runId (interruptedJournal journal (some results) o.nowNs) s₃]
      else [s₁, s₂, retry Γ o runId (interruptedJournal journal none o.nowNs) s₂]
    else [s₁, s₂]

end Tumult.Completion
