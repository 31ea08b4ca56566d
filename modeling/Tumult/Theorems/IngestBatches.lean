import Tumult.Ingest.Writer

/-!
# Telemetry batches and refused inserts

Each kind of row is stored in one transaction, so a batch of spans or of logs is stored whole or not at all. A metrics batch is
three transactions, and a refusal in a later one leaves the earlier ones committed.
-/

namespace Tumult

open Db (Env)

/-- The rows of a batch, table by table; an arbitrary write is not telemetry. -/
def Batch.rows : Batch → Option TelemetryDb
  | .spans rows => some { spans := rows.map SpanRow.normalized }
  | .logs rows => some { logs := rows }
  | .metrics rows => some { metricSums := rows.sums, metricGauges := rows.gauges, metricHistograms := rows.histograms }
  | .exec _ => none

/-- The store with more rows at the end of each table. -/
def TelemetryDb.append (db rows : TelemetryDb) : TelemetryDb where
  spans := db.spans ++ rows.spans
  logs := db.logs ++ rows.logs
  metricSums := db.metricSums ++ rows.metricSums
  metricGauges := db.metricGauges ++ rows.metricGauges
  metricHistograms := db.metricHistograms ++ rows.metricHistograms

/-- A telemetry batch that was acknowledged is stored whole, and one whose write failed left nothing behind. -/
structure Served.AllOrNothing (served : Served) (rows : TelemetryDb) : Prop where
  stored : served.ack = .ok () → served.after.store = served.before.store.append rows
  unchanged : ∀ error, served.ack = .error error → served.after.store = served.before.store

/-- Nothing is refused in `n` statements from a tick on. -/
def Calm (Γ : Env) (tick n : Nat) : Prop := ∀ i < n, Γ.fails (tick + i) = false

/-- The statements of a group of `n` rows: begin, prepare, the rows, commit. -/
def groupStatements (n : Nat) : Nat := n + 3

/-- A metrics batch meets its first refusal after a group with rows in it was committed. -/
def MetricRows.LateRefusal (Γ : Env) (rows : MetricRows) (tick : Nat) : Prop :=
  let a := rows.sums.length
  let b := rows.gauges.length
  let gauges := tick + groupStatements a
  let histograms := gauges + groupStatements b
  Calm Γ tick (groupStatements a) ∧
    (0 < a ∧ ¬ Calm Γ gauges (groupStatements b) ∨
      0 < a + b ∧ Calm Γ gauges (groupStatements b) ∧ ¬ Calm Γ histograms (groupStatements rows.histograms.length))

def Batch.LateRefusal (Γ : Env) (tick : Nat) : Batch → Prop
  | .metrics rows => rows.LateRefusal Γ tick
  | _ => False

/-- Rows put at the end of a table one by one. -/
theorem foldl_append_singleton {σ ρ α : Type} (get : σ → List α) (set : σ → List α → σ) (hget : ∀ st x, get (set st x) = x)
    (hset : ∀ st x y, set (set st x) y = set st y) (hself : ∀ st, set st (get st) = st) (f : ρ → α) (rows : List ρ) (st : σ) :
    rows.foldl (fun st r => set st (get st ++ [f r])) st = set st (get st ++ rows.map f) := by
  induction rows generalizing st with
  | nil => simp [hself]
  | cons r rows ih => simp [ih, hget, hset]

/-- The insert of a group of `n` rows: it stores them all when nothing is refused, and nothing otherwise. -/
structure StoresGroup (Γ : Env) (x : Db.Tx Unit TelemetryDb Unit) (n : Nat) (rows : TelemetryDb) : Prop where
  calm : ∀ s, Calm Γ s.tick (groupStatements n) → x s = (.ok (), ⟨s.store.append rows, s.tick + groupStatements n⟩)
  refused : ∀ s, ¬ Calm Γ s.tick (groupStatements n) → ∃ s', x s = (.error (), s') ∧ s'.store = s.store

section Inserts

variable {Γ : Env} {ρ : Type} {insert : ρ → TelemetryDb → TelemetryDb} {rows : List ρ} {s : Db.Session TelemetryDb}

/-- A group in which nothing is refused is stored. -/
theorem insertRows_calm (h : Calm Γ s.tick (groupStatements rows.length)) :
    insertRows Γ insert rows s = (.ok (), ⟨rows.foldl (fun db r => insert r db) s.store, s.tick + groupStatements rows.length⟩) := by
  have hrun : Db.runAll (some :: rows.map fun r db => some (insert r db)) s.store =
      some (rows.foldl (fun db r => insert r db) s.store) := by
    rw [Db.runAll_cons, Option.bind_some]
    exact Db.runAll_field id (fun _ db => db) (fun _ _ => rfl) (fun _ _ _ => rfl) (fun _ => rfl) (fun db r => insert r db) rows s.store
  have hlength : (some :: rows.map fun r db => some (insert r db)).length + 2 = groupStatements rows.length := by
    simp [groupStatements]
  unfold insertRows
  rw [Db.withTx_executeAll hrun (by rwa [hlength]), hlength]

/-- A group in which something is refused leaves nothing. -/
theorem insertRows_refused (h : ¬ Calm Γ s.tick (groupStatements rows.length)) :
    ∃ s', insertRows Γ insert rows s = (.error (), s') ∧ s'.store = s.store := by
  rcases hrun : insertRows Γ insert rows s with ⟨_ | _, s'⟩
  · exact ⟨s', rfl, Db.withTx_error hrun⟩
  · obtain ⟨-, -, hnone⟩ := Db.withTx_executeAll_ok hrun
    refine absurd (fun i hi => hnone i ?_) h
    simpa [groupStatements] using hi

/-- Rows that each go to the end of one table are a group. -/
theorem insertRows_group {α : Type} (get : TelemetryDb → List α) (set : TelemetryDb → List α → TelemetryDb)
    (hget : ∀ st x, get (set st x) = x) (hset : ∀ st x y, set (set st x) y = set st y) (hself : ∀ st, set st (get st) = st)
    (f : ρ → α) {added : TelemetryDb} (hadd : ∀ db, set db (get db ++ rows.map f) = db.append added) :
    StoresGroup Γ (insertRows Γ (fun r db => set db (get db ++ [f r])) rows) rows.length added where
  calm s h := by rw [insertRows_calm h, foldl_append_singleton get set hget hset hself, hadd]
  refused _ h := insertRows_refused h

theorem insertSpans_group (rows : List SpanRow) :
    StoresGroup Γ (insertSpans Γ rows) rows.length { spans := rows.map SpanRow.normalized } :=
  insertRows_group TelemetryDb.spans (fun db x => { db with spans := x }) (fun _ _ => rfl) (fun _ _ _ => rfl) (fun _ => rfl)
    SpanRow.normalized fun db => by simp [TelemetryDb.append]

theorem insertLogs_group (rows : List LogRow) : StoresGroup Γ (insertLogs Γ rows) rows.length { logs := rows } :=
  insertRows_group TelemetryDb.logs (fun db x => { db with logs := x }) (fun _ _ => rfl) (fun _ _ _ => rfl) (fun _ => rfl) id
    fun db => by simp [TelemetryDb.append]

theorem insertMetricSums_group (rows : List MetricSumRow) :
    StoresGroup Γ (insertMetricSums Γ rows) rows.length { metricSums := rows } :=
  insertRows_group TelemetryDb.metricSums (fun db x => { db with metricSums := x }) (fun _ _ => rfl) (fun _ _ _ => rfl)
    (fun _ => rfl) id fun db => by simp [TelemetryDb.append]

theorem insertMetricGauges_group (rows : List MetricGaugeRow) :
    StoresGroup Γ (insertMetricGauges Γ rows) rows.length { metricGauges := rows } :=
  insertRows_group TelemetryDb.metricGauges (fun db x => { db with metricGauges := x }) (fun _ _ => rfl) (fun _ _ _ => rfl)
    (fun _ => rfl) id fun db => by simp [TelemetryDb.append]

theorem insertMetricHistograms_group (rows : List MetricHistogramRow) :
    StoresGroup Γ (insertMetricHistograms Γ rows) rows.length { metricHistograms := rows } :=
  insertRows_group TelemetryDb.metricHistograms (fun db x => { db with metricHistograms := x }) (fun _ _ => rfl)
    (fun _ _ _ => rfl) (fun _ => rfl) id fun db => by simp [TelemetryDb.append]

end Inserts

section Apply

variable {Γ : Env} {s : Db.Session TelemetryDb}

/-- Appending puts a row somewhere unless there is none. -/
theorem TelemetryDb.append_eq_self {db rows : TelemetryDb} : db.append rows = db ↔ rows = {} := by
  cases rows
  cases db
  simp [append]

/-- Rebuilding the connection does not touch the store. -/
theorem reconnect_store (n : Nat) (s : Db.Session TelemetryDb) : (Db.after (reconnect Γ n) s).store = s.store := by
  induction n generalizing s with
  | zero => rfl
  | succ n ih =>
    unfold Db.after reconnect
    split
    · exact ih s.next
    · rfl

variable {texts : Nat → String} {dbPath : Bool} {batch : Batch}

@[simp] theorem serve_batch : (serve Γ texts dbPath batch s).batch = batch := by
  unfold serve
  split <;> rfl

@[simp] theorem serve_before : (serve Γ texts dbPath batch s).before = s := by
  unfold serve
  split <;> rfl

theorem serve_ok {s' : Db.Session TelemetryDb} (h : apply Γ batch s = (.ok (), s')) :
    serve Γ texts dbPath batch s = ⟨s, batch, .ok (), s'⟩ := by
  unfold serve
  rw [h]

/-- The store after a failed batch is the one the batch left, also when the connection was rebuilt. -/
theorem serve_error {s' : Db.Session TelemetryDb} (h : apply Γ batch s = (.error (), s')) :
    ∃ error, (serve Γ texts dbPath batch s).ack = .error error ∧ (serve Γ texts dbPath batch s).after.store = s'.store := by
  unfold serve
  rw [h]
  refine ⟨_, rfl, ?_⟩
  dsimp only
  split
  · exact reconnect_store 3 s'
  · rfl

theorem serve_allOrNothing_of_ok {s' : Db.Session TelemetryDb} {rows : TelemetryDb} (h : apply Γ batch s = (.ok (), s')) :
    (serve Γ texts dbPath batch s).AllOrNothing rows ↔ s'.store = s.store.append rows := by
  rw [serve_ok h]
  exact ⟨fun hall => hall.stored rfl, fun hstore => ⟨fun _ => hstore, fun _ hack => nomatch hack⟩⟩

theorem serve_allOrNothing_of_error {s' : Db.Session TelemetryDb} {rows : TelemetryDb} (h : apply Γ batch s = (.error (), s')) :
    (serve Γ texts dbPath batch s).AllOrNothing rows ↔ s'.store = s.store := by
  obtain ⟨error, hack, hafter⟩ : ∃ error, (serve Γ texts dbPath batch s).ack = .error error ∧
      (serve Γ texts dbPath batch s).after.store = s'.store := serve_error h
  constructor
  · intro hall
    rw [← hafter, hall.unchanged error hack, serve_before]
  · intro hstore
    refine ⟨fun hok => ?_, fun _ _ => by rw [hafter, hstore, serve_before]⟩
    rw [hack] at hok
    cases hok

/-- A batch that is one group is stored whole or not at all. -/
theorem StoresGroup.allOrNothing {n : Nat} {rows : TelemetryDb} (h : StoresGroup Γ (apply Γ batch) n rows) :
    (serve Γ texts dbPath batch s).AllOrNothing rows := by
  by_cases hcalm : Calm Γ s.tick (groupStatements n)
  · exact (serve_allOrNothing_of_ok (h.calm s hcalm)).mpr rfl
  · obtain ⟨s', herror, hstore⟩ := h.refused s hcalm
    exact (serve_allOrNothing_of_error herror).mpr hstore

/-- A metrics batch, by where its first refusal falls. -/
theorem applyMetrics_cases (rows : MetricRows) (s : Db.Session TelemetryDb) :
    let gauges := s.tick + groupStatements rows.sums.length
    let histograms := gauges + groupStatements rows.gauges.length
    ¬ Calm Γ s.tick (groupStatements rows.sums.length) ∧
        (∃ s', apply Γ (.metrics rows) s = (.error (), s') ∧ s'.store = s.store) ∨
      Calm Γ s.tick (groupStatements rows.sums.length) ∧ ¬ Calm Γ gauges (groupStatements rows.gauges.length) ∧
        (∃ s', apply Γ (.metrics rows) s = (.error (), s') ∧ s'.store = s.store.append { metricSums := rows.sums }) ∨
      Calm Γ s.tick (groupStatements rows.sums.length) ∧ Calm Γ gauges (groupStatements rows.gauges.length) ∧
        ¬ Calm Γ histograms (groupStatements rows.histograms.length) ∧
        (∃ s', apply Γ (.metrics rows) s = (.error (), s') ∧
          s'.store = s.store.append { metricSums := rows.sums, metricGauges := rows.gauges }) ∨
      Calm Γ s.tick (groupStatements rows.sums.length) ∧ Calm Γ gauges (groupStatements rows.gauges.length) ∧
        Calm Γ histograms (groupStatements rows.histograms.length) ∧
        (∃ s', apply Γ (.metrics rows) s = (.ok (), s') ∧ s'.store = s.store.append
          { metricSums := rows.sums, metricGauges := rows.gauges, metricHistograms := rows.histograms }) := by
  intro gauges histograms
  by_cases hsums : Calm Γ s.tick (groupStatements rows.sums.length)
  · have h1 := (insertMetricSums_group rows.sums).calm s hsums
    by_cases hgauges : Calm Γ gauges (groupStatements rows.gauges.length)
    · have h2 := (insertMetricGauges_group rows.gauges).calm ⟨s.store.append { metricSums := rows.sums }, gauges⟩ hgauges
      by_cases hhist : Calm Γ histograms (groupStatements rows.histograms.length)
      · have h3 := (insertMetricHistograms_group rows.histograms).calm
          ⟨(s.store.append { metricSums := rows.sums }).append { metricGauges := rows.gauges }, histograms⟩ hhist
        refine .inr (.inr (.inr ⟨hsums, hgauges, hhist, _, (Db.bind_of_ok h1).trans ((Db.bind_of_ok h2).trans h3), ?_⟩))
        simp [TelemetryDb.append]
      · obtain ⟨s', h3, hstore⟩ := (insertMetricHistograms_group rows.histograms).refused
          ⟨(s.store.append { metricSums := rows.sums }).append { metricGauges := rows.gauges }, histograms⟩ hhist
        refine .inr (.inr (.inl ⟨hsums, hgauges, hhist, s', (Db.bind_of_ok h1).trans ((Db.bind_of_ok h2).trans h3), ?_⟩))
        simp [hstore, TelemetryDb.append]
    · obtain ⟨s', h2, hstore⟩ := (insertMetricGauges_group rows.gauges).refused
        ⟨s.store.append { metricSums := rows.sums }, gauges⟩ hgauges
      exact .inr (.inl ⟨hsums, hgauges, s', (Db.bind_of_ok h1).trans (Db.bind_of_error h2), hstore⟩)
  · obtain ⟨s', h1, hstore⟩ := (insertMetricSums_group rows.sums).refused s hsums
    exact .inl ⟨hsums, s', Db.bind_of_error h1, hstore⟩

/-- A metrics batch is all or nothing unless its first refusal is a late one. -/
theorem serveMetrics_allOrNothing_iff (rows : MetricRows) (s : Db.Session TelemetryDb) :
    (serve Γ texts dbPath (.metrics rows) s).AllOrNothing
        { metricSums := rows.sums, metricGauges := rows.gauges, metricHistograms := rows.histograms } ↔
      ¬ rows.LateRefusal Γ s.tick := by
  simp only [MetricRows.LateRefusal]
  rcases applyMetrics_cases (Γ := Γ) rows s with ⟨hsums, s', hrun, hstore⟩ | ⟨hsums, hgauges, s', hrun, hstore⟩ |
    ⟨hsums, hgauges, hhist, s', hrun, hstore⟩ | ⟨hsums, hgauges, hhist, s', hrun, hstore⟩
  · rw [serve_allOrNothing_of_error hrun]
    simp [hsums, hstore]
  · rw [serve_allOrNothing_of_error hrun, hstore, TelemetryDb.append_eq_self]
    simp [hsums, hgauges]
  · rw [serve_allOrNothing_of_error hrun, hstore, TelemetryDb.append_eq_self]
    simp [hsums, hgauges, hhist]
  · rw [serve_allOrNothing_of_ok hrun]
    simp [hsums, hgauges, hhist, hstore]

/-- One batch is all or nothing unless its first refusal is a late one. -/
theorem serve_allOrNothing_iff (batch : Batch) (s : Db.Session TelemetryDb) :
    (∀ rows, batch.rows = some rows → (serve Γ texts dbPath batch s).AllOrNothing rows) ↔ ¬ batch.LateRefusal Γ s.tick := by
  cases batch with
  | spans rows => simpa [Batch.rows, Batch.LateRefusal] using StoresGroup.allOrNothing (insertSpans_group rows)
  | logs rows => simpa [Batch.rows, Batch.LateRefusal] using StoresGroup.allOrNothing (insertLogs_group rows)
  | metrics rows => simpa [Batch.rows, Batch.LateRefusal] using serveMetrics_allOrNothing_iff rows s
  | exec f => simp [Batch.rows, Batch.LateRefusal]

end Apply

/-- A batch whose write failed and which its client sends again is stored once. -/
theorem Served.AllOrNothing.retry {failed retried : Served} {rows : TelemetryDb} {error : String}
    (hfailed : failed.AllOrNothing rows) (hretried : retried.AllOrNothing rows) (herror : failed.ack = .error error)
    (hnext : retried.before = failed.after) (hok : retried.ack = .ok ()) :
    retried.after.store = failed.before.store.append rows := by
  rw [hretried.stored hok, hnext, hfailed.unchanged error herror]

/-- Whatever is queued and whatever is refused, every telemetry batch that the writer serves is stored whole or not at all exactly
when none of them meets its first refusal late. -/
theorem ingest_batches_allOrNothing_iff (Γ : Env) (texts : Nat → String) (dbPath : Bool) (queue : List Batch)
    (s : Db.Session TelemetryDb) :
    (∀ served ∈ runLoop Γ texts dbPath queue s, ∀ rows, served.batch.rows = some rows → served.AllOrNothing rows) ↔
      ∀ served ∈ runLoop Γ texts dbPath queue s, ¬ served.batch.LateRefusal Γ served.before.tick := by
  induction queue generalizing s with
  | nil => simp [runLoop]
  | cons batch queue ih =>
    simp only [runLoop, List.forall_mem_cons, ih, serve_batch, serve_before]
    rw [serve_allOrNothing_iff]

/-- A sum, then a gauge whose insert is refused. -/
def oneOfEach : Batch :=
  .metrics { sums := [{ tsNs := 1, metricName := "requests", value := .finite 1 }]
             gauges := [{ tsNs := 1, metricName := "queue.depth", value := .finite 2 }] }

/-- A client exports a sum and a gauge; the gauge's insert is refused, the export fails, and the client sends it again. The sum is
in the store after the failure, and twice after the second export. -/
theorem ingest_batches_allOrNothing_false :
    ¬ (∀ served ∈ runLoop (Db.crashAt 6) (fun _ => "IO Error: disk full") true [oneOfEach, oneOfEach] ⟨{}, 0⟩,
        ∀ rows, served.batch.rows = some rows → served.AllOrNothing rows) ∧
      ((runLoop (Db.crashAt 6) (fun _ => "IO Error: disk full") true [oneOfEach, oneOfEach] ⟨{}, 0⟩).map fun served =>
        (served.ack.toOption, served.after.store.metricSums.length, served.after.store.metricGauges.length)) =
          [(none, 1, 0), (some (), 2, 1)] := by
  refine ⟨?_, by decide⟩
  intro h
  have hfirst := h _ List.mem_cons_self
  rw [serve_batch, serve_allOrNothing_iff] at hfirst
  have hsums : Calm (Db.crashAt 6) 0 (groupStatements 1) := by
    unfold Calm
    decide
  have hgauges : ¬ Calm (Db.crashAt 6) (0 + groupStatements 1) (groupStatements 1) := by
    unfold Calm
    decide
  exact hfirst ⟨hsums, .inl ⟨Nat.one_pos, hgauges⟩⟩

end Tumult
