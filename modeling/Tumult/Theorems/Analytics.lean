import Tumult.Lake.Analytics

/-!
# What ingestion and maintenance leave in the analytics store

A journal is ingested whole or not at all, whatever statement is refused. An agentic run is, exactly when no insert behind its
header row is refused: the header is committed by then, and a retry skips the run.

The experiments have distinct identifiers, and every activity row and every load row belongs to one of them, in every state of a run
of ingestion, retention and import, exactly as long as no purge removes an experiment that has a load row.
-/

namespace Tumult

open Db (Tx Env executeAll runAll)

/-! ## Ingestion -/

/-- What is ingested. -/
inductive RunInput where
  | ofJournal (journal : Journal) (experiment : Option Experiment)
  | ofAgenticRun (run : AgenticRunAnalytics)

namespace RunInput

variable (Γ : Env) (ctx : IngestCtx)

def ingest : RunInput → Tx AnalyticsError AnalyticsDb Bool
  | .ofJournal journal experiment => ingestJournalWithExperiment Γ ctx journal experiment
  | .ofAgenticRun run => ingestAgenticRun Γ run

/-- Whether it counts as a duplicate. -/
def present (db : AnalyticsDb) : RunInput → Bool
  | .ofJournal journal _ => db.hasExperiment journal.experimentId
  | .ofAgenticRun run => db.hasAgenticRun run.runId

/-- The store with every row of the run, once. -/
def add (db : AnalyticsDb) : RunInput → AnalyticsDb
  | .ofJournal journal experiment =>
    let delta := journalToGraph ctx.map journal experiment
    { db with
      experiments := db.experiments ++ [journalToExperimentRow journal]
      activityResults := db.activityResults ++ journalToActivityRows journal
      loadResults := db.loadResults ++ journal.loadResult.toList.map (journalToLoadRow journal.experimentId)
      graphNodes := delta.nodes.foldl (mergeNode ctx) db.graphNodes
      graphEdges := db.graphEdges.filter (·.runId ≠ journal.experimentId) ++ edgeRows journal delta.edges }
  | .ofAgenticRun run =>
    { db with
      agenticRuns := db.agenticRuns ++ [run.header]
      agenticContractOutcomes := db.agenticContractOutcomes ++ run.contracts.map (⟨run.runId, ·⟩)
      agenticFaultApplications := db.agenticFaultApplications ++ run.faults.map (⟨run.runId, ·⟩)
      agenticReplayOutcomes := db.agenticReplayOutcomes ++ run.replays.map (⟨run.runId, ·⟩) }

/-- What is asked of an ingestion: it adds the whole run or nothing, it returns only if nothing was refused, and after an error the
next ingestion in which nothing is refused adds the whole run. -/
structure AllOrNothing (s : Db.Session AnalyticsDb) (input : RunInput) : Prop where
  added : ∀ s', input.ingest Γ ctx s = (.ok true, s') → input.present s.store = false ∧ s'.store = input.add ctx s.store
  skipped : ∀ s', input.ingest Γ ctx s = (.ok false, s') → input.present s.store = true ∧ s'.store = s.store
  unrefused : ∀ b s', input.ingest Γ ctx s = (.ok b, s') → ∀ i, s.tick ≤ i → i < s'.tick → Γ.fails i = false
  unwound : ∀ e s', input.ingest Γ ctx s = (.error e, s') → s'.store = s.store
  retried : ∀ e s', input.ingest Γ ctx s = (.error e, s') → input.present s.store = false →
    ∀ tick, ∃ s'', input.ingest Db.calm ctx ⟨s'.store, tick⟩ = (.ok true, s'') ∧ s''.store = input.add ctx s.store

end RunInput

variable {Γ : Env} {ctx : IngestCtx} {db : AnalyticsDb} {s s' : Db.Session AnalyticsDb}

theorem runAll_populateGraph (journal : Journal) (experiment : Option Experiment) (db : AnalyticsDb) :
    runAll (populateGraph ctx journal experiment) db = some { db with
      graphNodes := (journalToGraph ctx.map journal experiment).nodes.foldl (mergeNode ctx) db.graphNodes
      graphEdges := db.graphEdges.filter (·.runId ≠ journal.experimentId) ++
        edgeRows journal (journalToGraph ctx.map journal experiment).edges } := by
  have hnodes (nodes : List Node) (db : AnalyticsDb) : runAll (nodes.map (upsertNodeMergeAttrs ctx)) db =
      some { db with graphNodes := nodes.foldl (mergeNode ctx) db.graphNodes } :=
    Db.runAll_field AnalyticsDb.graphNodes (fun db nodes => { db with graphNodes := nodes }) (fun _ _ => rfl) (fun _ _ _ => rfl)
      (fun _ => rfl) (mergeNode ctx) nodes db
  have hedges (edges : List GraphEdgeRow) (db : AnalyticsDb) : runAll (edges.map insertEdge) db =
      some { db with graphEdges := db.graphEdges ++ edges } :=
    Db.runAll_insert AnalyticsDb.graphEdges (fun db edges => { db with graphEdges := edges }) (fun _ _ => rfl) (fun _ _ _ => rfl)
      (fun _ => rfl) edges db
  rw [populateGraph, Db.runAll_append, hnodes, Option.bind_some, Db.runAll_cons, deleteEdgesForRun, Option.bind_some, hedges]

/-- What the inserts of a journal do to a store that does not have the experiment. -/
theorem runAll_ingestJournalInner {journal : Journal} {experiment : Option Experiment}
    (h : db.hasExperiment journal.experimentId = false) :
    runAll (ingestJournalInner ctx journal experiment) db = some ((RunInput.ofJournal journal experiment).add ctx db) := by
  have hnew : ∀ old ∈ db.experiments, old.experimentId ≠ journal.experimentId := by
    simpa [AnalyticsDb.hasExperiment] using h
  have hheader : insertExperiments [journalToExperimentRow journal] db =
      some { db with experiments := db.experiments ++ [journalToExperimentRow journal] } := by
    rw [insertExperiments, if_pos]
    refine ⟨by simp, fun row hrow => ?_⟩
    rw [List.mem_singleton.mp hrow]
    exact hnew
  have hactivities (db : AnalyticsDb) : runAll (if journalToActivityRows journal = [] then []
      else [insertActivities (journalToActivityRows journal)]) db =
        some { db with activityResults := db.activityResults ++ journalToActivityRows journal } := by
    split
    · next hnil => simp [hnil]
    · rfl
  have hloads (db : AnalyticsDb) : runAll (journal.loadResult.toList.map fun load =>
      insertLoads [journalToLoadRow journal.experimentId load]) db =
        some { db with loadResults := db.loadResults ++ journal.loadResult.toList.map (journalToLoadRow journal.experimentId) } := by
    cases journal.loadResult <;> simp [insertLoads]
  rw [ingestJournalInner, Db.runAll_cons, hheader, Option.bind_some, Db.runAll_append, Db.runAll_append, hactivities, Option.bind_some,
    hloads, Option.bind_some, runAll_populateGraph]
  rfl

/-- What the inserts behind the header of an agentic run do. -/
theorem runAll_dependents (run : AgenticRunAnalytics) (db : AnalyticsDb) : runAll run.dependents db = some { db with
    agenticContractOutcomes := db.agenticContractOutcomes ++ run.contracts.map (⟨run.runId, ·⟩)
    agenticFaultApplications := db.agenticFaultApplications ++ run.faults.map (⟨run.runId, ·⟩)
    agenticReplayOutcomes := db.agenticReplayOutcomes ++ run.replays.map (⟨run.runId, ·⟩) } := by
  have hcontracts (rows : List (OfRun AgenticContractAnalytics)) (db : AnalyticsDb) : runAll (rows.map insertContract) db =
      some { db with agenticContractOutcomes := db.agenticContractOutcomes ++ rows } :=
    Db.runAll_insert AnalyticsDb.agenticContractOutcomes (fun db rows => { db with agenticContractOutcomes := rows }) (fun _ _ => rfl)
      (fun _ _ _ => rfl) (fun _ => rfl) rows db
  have hfaults (rows : List (OfRun AgenticFaultAnalytics)) (db : AnalyticsDb) : runAll (rows.map insertFault) db =
      some { db with agenticFaultApplications := db.agenticFaultApplications ++ rows } :=
    Db.runAll_insert AnalyticsDb.agenticFaultApplications (fun db rows => { db with agenticFaultApplications := rows })
      (fun _ _ => rfl) (fun _ _ _ => rfl) (fun _ => rfl) rows db
  have hreplays (rows : List (OfRun ReplayOutcome)) (db : AnalyticsDb) : runAll (rows.map insertReplay) db =
      some { db with agenticReplayOutcomes := db.agenticReplayOutcomes ++ rows } :=
    Db.runAll_insert AnalyticsDb.agenticReplayOutcomes (fun db rows => { db with agenticReplayOutcomes := rows }) (fun _ _ => rfl)
      (fun _ _ _ => rfl) (fun _ => rfl) rows db
  have hdependents : run.dependents = (run.contracts.map (⟨run.runId, ·⟩)).map insertContract ++
      (run.faults.map (⟨run.runId, ·⟩)).map insertFault ++ (run.replays.map (⟨run.runId, ·⟩)).map insertReplay := by
    simp [AgenticRunAnalytics.dependents, Function.comp_def]
  rw [hdependents, Db.runAll_append, Db.runAll_append, hcontracts, Option.bind_some, hfaults, Option.bind_some, hreplays]

theorem insertAgenticRun_new {run : AgenticRunAnalytics} (h : db.hasAgenticRun run.runId = false) :
    insertAgenticRun run.header db = some { db with agenticRuns := db.agenticRuns ++ [run.header] } := by
  have hnew : db.hasAgenticRun run.header.runId = false := h
  simp [insertAgenticRun, hnew]

theorem runAll_agenticRun {run : AgenticRunAnalytics} (h : db.hasAgenticRun run.runId = false) :
    runAll (insertAgenticRun run.header :: run.dependents) db = some ((RunInput.ofAgenticRun run).add ctx db) := by
  rw [Db.runAll_cons, insertAgenticRun_new h, Option.bind_some, runAll_dependents]
  rfl

/-- A duplicate check, then the inserts. -/
def guarded (Γ : Env) (q : AnalyticsDb → Bool) (body : Tx AnalyticsError AnalyticsDb Unit) : Tx AnalyticsError AnalyticsDb Bool :=
  Db.query Γ .db q >>= fun present => if present then pure false else body >>= fun _ => pure true

section Guarded

variable {q : AnalyticsDb → Bool} {body : Tx AnalyticsError AnalyticsDb Unit}

theorem guarded_ok {b : Bool} (h : guarded Γ q body s = (.ok b, s')) : Γ.fails s.tick = false ∧
    (b = false ∧ q s.store = true ∧ s' = s.next ∨ b = true ∧ q s.store = false ∧ body s.next = (.ok (), s')) := by
  obtain ⟨present, s₁, hquery, hrest⟩ := Db.bind_ok.mp h
  obtain ⟨hfails, rfl, rfl⟩ := Db.query_ok.mp hquery
  refine ⟨hfails, ?_⟩
  cases hpresent : q s.store with
  | true =>
    rw [hpresent, if_pos rfl, Db.pure_ok] at hrest
    exact .inl ⟨hrest.1, rfl, hrest.2⟩
  | false =>
    rw [hpresent, if_neg (by simp)] at hrest
    obtain ⟨_, s₂, hbody, hend⟩ := Db.bind_ok.mp hrest
    obtain ⟨rfl, rfl⟩ := Db.pure_ok.mp hend
    exact .inr ⟨rfl, rfl, hbody⟩

theorem guarded_error {e : AnalyticsError} (h : guarded Γ q body s = (.error e, s')) :
    Γ.fails s.tick = true ∧ s' = s.next ∨ Γ.fails s.tick = false ∧ q s.store = false ∧ body s.next = (.error e, s') := by
  cases hfails : Γ.fails s.tick with
  | true =>
    have hquery : Db.query Γ AnalyticsError.db q s = (.error .db, s.next) := by simp [Db.query, Db.statement, hfails]
    rw [guarded, Db.bind_of_error hquery] at h
    exact .inl ⟨rfl, (Prod.mk.inj h).2.symm⟩
  | false =>
    rw [guarded, Db.bind_of_ok (Db.query_ok.mpr ⟨hfails, rfl, rfl⟩)] at h
    cases hpresent : q s.store with
    | true =>
      rw [hpresent, if_pos rfl] at h
      cases (Prod.mk.inj h).1
    | false =>
      rw [hpresent, if_neg (by simp)] at h
      rcases Db.bind_error.mp h with hbody | ⟨_, _, _, hend⟩
      · exact .inr ⟨rfl, rfl, hbody⟩
      · cases (Prod.mk.inj hend).1

/-- Without a refusal, what is not there is inserted. -/
theorem guarded_calm {tick : Nat} {st : AnalyticsDb} (hnew : q db = false)
    (hbody : ∃ s', body ⟨db, tick + 1⟩ = (.ok (), s') ∧ s'.store = st) :
    ∃ s', guarded Db.calm q body ⟨db, tick⟩ = (.ok true, s') ∧ s'.store = st := by
  obtain ⟨s', hbody, hstore⟩ := hbody
  have hquery : Db.query Db.calm AnalyticsError.db q ⟨db, tick⟩ = (.ok false, ⟨db, tick + 1⟩) := Db.query_ok.mpr ⟨rfl, hnew.symm, rfl⟩
  refine ⟨s', ?_, hstore⟩
  rw [guarded, Db.bind_of_ok hquery, if_neg (by simp), Db.bind_of_ok hbody]
  rfl

end Guarded

theorem ingestJournal_eq (journal : Journal) (experiment : Option Experiment) :
    ingestJournalWithExperiment Γ ctx journal experiment = guarded Γ (·.hasExperiment journal.experimentId)
      (Db.withTx Γ .db (executeAll Γ .db .constraint (ingestJournalInner ctx journal experiment))) := rfl

theorem ingestAgenticRun_eq (run : AgenticRunAnalytics) : ingestAgenticRun Γ run = guarded Γ (·.hasAgenticRun run.runId)
    (executeAll Γ .db .constraint (insertAgenticRun run.header :: run.dependents)) := rfl

/-- From the check on, no statement was refused. -/
theorem unrefused_of_next {t n : Nat} (hcheck : Γ.fails s.tick = false) (ht : t = s.next.tick + n)
    (h : ∀ i < n, Γ.fails (s.next.tick + i) = false) : ∀ i, s.tick ≤ i → i < t → Γ.fails i = false := by
  intro i hle hlt
  simp only [Db.Session.next] at ht h
  rcases Nat.eq_or_lt_of_le hle with rfl | hgt
  · exact hcheck
  · have hi := h (i - (s.tick + 1)) (by omega)
    rwa [show s.tick + 1 + (i - (s.tick + 1)) = i by omega] at hi

/-- A journal is ingested whole or not at all. -/
theorem allOrNothing_ofJournal (journal : Journal) (experiment : Option Experiment) (s : Db.Session AnalyticsDb) :
    RunInput.AllOrNothing Γ ctx s (.ofJournal journal experiment) := by
  have hunwound : ∀ e s', (RunInput.ofJournal journal experiment).ingest Γ ctx s = (.error e, s') → s'.store = s.store := by
    intro e s' h
    rcases guarded_error h with ⟨-, rfl⟩ | ⟨-, -, hbody⟩
    · rfl
    · exact (Db.withTx_error hbody :)
  refine ⟨fun s' h => ?_, fun s' h => ?_, fun b s' h => ?_, hunwound, fun e s' h hnew tick => ?_⟩
  · obtain ⟨-, ⟨hfalse, -⟩ | ⟨-, hnew, hbody⟩⟩ := guarded_ok h
    · cases hfalse
    · obtain ⟨hrun, -⟩ := Db.withTx_executeAll_ok hbody
      exact ⟨hnew, (Option.some.inj ((runAll_ingestJournalInner hnew).symm.trans hrun)).symm⟩
  · obtain ⟨-, ⟨-, hpresent, rfl⟩ | ⟨htrue, -⟩⟩ := guarded_ok h
    · exact ⟨hpresent, rfl⟩
    · cases htrue
  · obtain ⟨hcheck, ⟨-, -, rfl⟩ | ⟨-, -, hbody⟩⟩ := guarded_ok h
    · exact unrefused_of_next hcheck (Nat.add_zero _).symm fun i hi => absurd hi (Nat.not_lt_zero i)
    · obtain ⟨-, htick, hnone⟩ := Db.withTx_executeAll_ok hbody
      exact unrefused_of_next hcheck htick hnone
  · rw [hunwound e s' h]
    exact guarded_calm hnew ⟨_, Db.withTx_executeAll (runAll_ingestJournalInner hnew) fun _ _ => rfl, rfl⟩

/-! ### Agentic runs -/

/-- When an agentic run is ingested whole or not at all: it is there, or the check or the header is refused, or nothing behind it
is. -/
def HeaderOrNothing (Γ : Env) (s : Db.Session AnalyticsDb) (run : AgenticRunAnalytics) : Prop :=
  s.store.hasAgenticRun run.runId = true ∨ Γ.fails s.tick = true ∨ Γ.fails (s.tick + 1) = true ∨
    ∀ i < run.dependents.length, Γ.fails (s.tick + 2 + i) = false

/-- What the inserts behind the header of an agentic run do: none is rejected, and none touches the header rows. -/
theorem dependents_step {run : AgenticRunAnalytics} {f : AnalyticsStatement} (hf : f ∈ run.dependents) (db : AnalyticsDb) :
    ∃ db', f db = some db' ∧ db'.agenticRuns = db.agenticRuns := by
  rcases List.mem_append.mp hf with hf | hf
  · rcases List.mem_append.mp hf with hf | hf
    · obtain ⟨_, -, rfl⟩ := List.mem_map.mp hf
      exact ⟨_, rfl, rfl⟩
    · obtain ⟨_, -, rfl⟩ := List.mem_map.mp hf
      exact ⟨_, rfl, rfl⟩
  · obtain ⟨_, -, rfl⟩ := List.mem_map.mp hf
    exact ⟨_, rfl, rfl⟩

theorem hasAgenticRun_header (run : AgenticRunAnalytics) (db : AnalyticsDb) :
    { db with agenticRuns := db.agenticRuns ++ [run.header] }.hasAgenticRun run.runId = true := by
  simp [AnalyticsDb.hasAgenticRun, AgenticRunAnalytics.header]

/-- The inserts behind the header leave the header. -/
theorem runAll_dependents_keep {run : AgenticRunAnalytics} {n : Nat} {db' : AnalyticsDb}
    (hrun : runAll (run.dependents.take n) db = some db') (h : db.hasAgenticRun run.runId = true) :
    db'.hasAgenticRun run.runId = true := by
  refine Db.runAll_keeps (P := fun db => db.hasAgenticRun run.runId = true) (fun f hf st st' hst hstep => ?_) hrun h
  obtain ⟨_, hstep', hsame⟩ := dependents_step (List.mem_of_mem_take hf) st
  obtain rfl := Option.some.inj (hstep'.symm.trans hstep)
  rwa [AnalyticsDb.hasAgenticRun, hsame]

/-- An ingestion of an agentic run that reports an error was refused at some statement; behind the header, the header stays. -/
theorem ingestAgenticRun_error {run : AgenticRunAnalytics} {e : AnalyticsError} (h : ingestAgenticRun Γ run s = (.error e, s')) :
    (Γ.fails s.tick = true ∨ Γ.fails (s.tick + 1) = true) ∧ s'.store = s.store ∨
      s.store.hasAgenticRun run.runId = false ∧ Γ.fails s.tick = false ∧ Γ.fails (s.tick + 1) = false ∧
        (∃ i < run.dependents.length, Γ.fails (s.tick + 2 + i) = true) ∧ s'.store.hasAgenticRun run.runId = true := by
  rcases guarded_error h with ⟨hcheck, rfl⟩ | ⟨hcheck, hnew, hbody⟩
  · exact .inl ⟨.inl hcheck, rfl⟩
  obtain ⟨k, hk, hrun, hbefore, hwhy⟩ := Db.executeAll_stopped hbody
  cases k with
  | zero =>
    have hsame : s.store = s'.store := by simpa using hrun
    rcases hwhy with hrefused | hrejected
    · exact .inl ⟨.inr hrefused, hsame.symm⟩
    · rw [List.getElem_cons_zero, ← hsame, insertAgenticRun_new hnew] at hrejected
      cases hrejected
  | succ k =>
    have hk' : k < run.dependents.length := by simpa using hk
    rw [List.take_succ_cons, Db.runAll_cons, Db.Session.next_store, insertAgenticRun_new hnew, Option.bind_some] at hrun
    have hheader : s'.store.hasAgenticRun run.runId = true := runAll_dependents_keep hrun (hasAgenticRun_header run _)
    have hrefused : Γ.fails (s.tick + 2 + k) = true := by
      rcases hwhy with hrefused | hrejected
      · rwa [show s.tick + 2 + k = s.next.tick + (k + 1) by simp only [Db.Session.next]; omega]
      · obtain ⟨_, haccepted, -⟩ := dependents_step (List.getElem_mem hk') s'.store
        rw [List.getElem_cons_succ, haccepted] at hrejected
        cases hrejected
    exact .inr ⟨hnew, hcheck, hbefore 0 (Nat.succ_pos k), ⟨k, hk', hrefused⟩, hheader⟩

/-- An agentic run that is ingested behind a header that stays, or not at all, is ingested whole or not at all. -/
theorem allOrNothing_ofAgenticRun {run : AgenticRunAnalytics} (h : HeaderOrNothing Γ s run) :
    RunInput.AllOrNothing Γ ctx s (.ofAgenticRun run) := by
  have hunwound : ∀ e s', (RunInput.ofAgenticRun run).ingest Γ ctx s = (.error e, s') → s'.store = s.store := by
    intro e s' herror
    rcases ingestAgenticRun_error herror with ⟨-, hsame⟩ | ⟨hnew, hcheck, hheader, ⟨i, hi, hrefused⟩, -⟩
    · exact hsame
    · rcases h with hpresent | hcheck' | hheader' | hdependents
      · simp [hnew] at hpresent
      · simp [hcheck] at hcheck'
      · simp [hheader] at hheader'
      · simp [hdependents i hi] at hrefused
  refine ⟨fun s' hok => ?_, fun s' hok => ?_, fun b s' hok => ?_, hunwound, fun e s' herror hnew tick => ?_⟩
  · obtain ⟨-, ⟨hfalse, -⟩ | ⟨-, hnew, hbody⟩⟩ := guarded_ok hok
    · cases hfalse
    · have hrun : runAll (insertAgenticRun run.header :: run.dependents) s.store = some s'.store := by
        simpa only [Db.Session.next_store] using Db.executeAll_run hbody
      exact ⟨hnew, (Option.some.inj ((runAll_agenticRun hnew).symm.trans hrun)).symm⟩
  · obtain ⟨-, ⟨-, hpresent, rfl⟩ | ⟨htrue, -⟩⟩ := guarded_ok hok
    · exact ⟨hpresent, rfl⟩
    · cases htrue
  · obtain ⟨hcheck, ⟨-, -, rfl⟩ | ⟨-, -, hbody⟩⟩ := guarded_ok hok
    · exact unrefused_of_next hcheck (Nat.add_zero _).symm fun i hi => absurd hi (Nat.not_lt_zero i)
    · obtain ⟨htick, hnone⟩ := Db.executeAll_not_refused hbody
      exact unrefused_of_next hcheck htick hnone
  · rw [hunwound e s' herror]
    exact guarded_calm hnew ⟨_, Db.executeAll_ok (@runAll_agenticRun ctx _ _ hnew) fun _ _ _ => rfl, rfl⟩

/-- A refused insert behind the header is reported, with the header in the store. -/
theorem ingestAgenticRun_refused {run : AgenticRunAnalytics} {i : Nat} (hnew : s.store.hasAgenticRun run.runId = false)
    (hcheck : Γ.fails s.tick = false) (hheader : Γ.fails (s.tick + 1) = false) (hi : i < run.dependents.length)
    (hrefused : Γ.fails (s.tick + 2 + i) = true) :
    ∃ e s', ingestAgenticRun Γ run s = (.error e, s') ∧ s'.store.hasAgenticRun run.runId = true := by
  rcases hresult : ingestAgenticRun Γ run s with ⟨e | b, s'⟩
  · rcases ingestAgenticRun_error hresult with ⟨hcheck' | hheader', -⟩ | ⟨-, -, -, -, hstays⟩
    · simp [hcheck] at hcheck'
    · simp [hheader] at hheader'
    · exact ⟨e, s', rfl, hstays⟩
  · obtain ⟨-, ⟨-, hpresent, -⟩ | ⟨-, -, hbody⟩⟩ := guarded_ok hresult
    · simp [hnew] at hpresent
    · obtain ⟨-, hnone⟩ := Db.executeAll_not_refused hbody
      have hsame := hnone (i + 1) (by simpa using hi)
      rw [show s.next.tick + (i + 1) = s.tick + 2 + i by simp only [Db.Session.next]; omega, hrefused] at hsame
      cases hsame

/-- When the ingestion of a run is all or nothing. -/
def RunInput.Guarded (Γ : Env) (s : Db.Session AnalyticsDb) : RunInput → Prop
  | .ofJournal _ _ => True
  | .ofAgenticRun run => HeaderOrNothing Γ s run

theorem ingestion_allOrNothing_iff (Γ : Env) (ctx : IngestCtx) (s : Db.Session AnalyticsDb) (input : RunInput) :
    input.AllOrNothing Γ ctx s ↔ input.Guarded Γ s := by
  refine ⟨fun h => ?_, fun h => ?_⟩
  · cases input with
    | ofJournal journal experiment => trivial
    | ofAgenticRun run =>
      by_contra hnot
      obtain ⟨hnew, hcheck, hheader, hdependents⟩ : ¬ s.store.hasAgenticRun run.runId = true ∧ ¬ Γ.fails s.tick = true ∧
          ¬ Γ.fails (s.tick + 1) = true ∧ ¬ ∀ i < run.dependents.length, Γ.fails (s.tick + 2 + i) = false := by
        simpa only [RunInput.Guarded, HeaderOrNothing, not_or] using hnot
      simp only [Bool.not_eq_true] at hnew hcheck hheader
      obtain ⟨i, hi, hrefused⟩ : ∃ i < run.dependents.length, Γ.fails (s.tick + 2 + i) = true := by
        simpa using hdependents
      obtain ⟨e, s', herror, hstays⟩ := ingestAgenticRun_refused hnew hcheck hheader hi hrefused
      rw [h.unwound e s' herror, hnew] at hstays
      cases hstays
  · cases input with
    | ofJournal journal experiment => exact allOrNothing_ofJournal journal experiment s
    | ofAgenticRun run => exact allOrNothing_ofAgenticRun h

/-- A mapping that resolves nothing, and attributes that are overwritten. -/
def bareIngestCtx : IngestCtx where
  map := ⟨fun _ => none, fun _ _ => none, fun _ _ => none⟩
  jsonMergePatch := fun _ new => new

/-- A run of an agent with one contract outcome. -/
def promptInjectionRun : AgenticRunAnalytics where
  runId := "agentic-1"
  experimentId := "experiment-1"
  targetType := "chat"
  scenario := "prompt-injection"
  resilienceScore := .finite 0
  traceId := none
  replayId := none
  contracts := [⟨"refusal", "prompt-injection", true, none, .finite 0⟩]
  faults := []

/-- The insert of the contract outcome is refused: the header stays, and the retry counts the run as a duplicate. -/
theorem ingestion_allOrNothing_false :
    ¬ (RunInput.ofAgenticRun promptInjectionRun).AllOrNothing (Db.crashAt 2) bareIngestCtx ⟨{}, 0⟩ := by
  intro h
  have herror : (RunInput.ofAgenticRun promptInjectionRun).ingest (Db.crashAt 2) bareIngestCtx ⟨{}, 0⟩ =
      (.error .db, ⟨{ agenticRuns := [promptInjectionRun.header] }, 3⟩) := rfl
  obtain ⟨s', hretry, -⟩ := h.retried _ _ herror rfl 3
  have hskipped : (RunInput.ofAgenticRun promptInjectionRun).ingest Db.calm bareIngestCtx
      ⟨{ agenticRuns := [promptInjectionRun.header] }, 3⟩ = (.ok false, ⟨{ agenticRuns := [promptInjectionRun.header] }, 4⟩) := rfl
  cases (Prod.mk.inj (hskipped.symm.trans hretry)).1

/-! ## Referential integrity -/

/-- Every activity row and every load row belongs to an experiment, and no two experiments share an identifier. -/
structure AnalyticsDb.Integral (db : AnalyticsDb) : Prop where
  unique : (db.experiments.map (·.experimentId)).Nodup
  activities : ∀ row ∈ db.activityResults, db.hasExperiment row.experimentId = true
  loads : ∀ row ∈ db.loadResults, db.hasExperiment row.experimentId = true

/-- Tables that were exported from a store with referential integrity. -/
structure Backup where
  tables : ExportedTables
  exported : ∃ Γ s s', exportTables Γ s = (.ok tables, s') ∧ s.store.Integral

/-- What is done to the analytics store. -/
inductive MaintenanceOp where
  | ingestJournal (journal : Journal)
  | ingestJournals (journals : List Journal)
  | purgeOlderThanDays (days : Nat)
  | importTables (backup : Backup)

/-- The store after an operation, whatever it returned. -/
def MaintenanceOp.apply (Γ : Env) (ctx : IngestCtx) (s : Db.Session AnalyticsDb) : MaintenanceOp → Db.Session AnalyticsDb
  | .ingestJournal journal => Db.after (Tumult.ingestJournal Γ ctx journal) s
  | .ingestJournals journals => Db.after (Tumult.ingestJournals Γ ctx journals) s
  | .purgeOlderThanDays days => Db.after (Tumult.purgeOlderThanDays Γ days) s
  | .importTables backup => Db.after (Tumult.importTables Γ backup.tables) s

/-- The rows of a journal's experiment are those of the journal, once. -/
structure OneSet (journal : Journal) (db : AnalyticsDb) : Prop where
  experiment : db.experiments.filter (·.experimentId = journal.experimentId) = [journalToExperimentRow journal]
  activities : db.activityResults.filter (·.experimentId = journal.experimentId) = journalToActivityRows journal
  loads : db.loadResults.filter (·.experimentId = journal.experimentId) =
    journal.loadResult.toList.map (journalToLoadRow journal.experimentId)

/-- What is asked of a store: its references are whole, and a journal ingested into it, purged before or not, has its rows once. -/
structure AnalyticsDb.Consistent (ctx : IngestCtx) (db : AnalyticsDb) : Prop where
  integral : db.Integral
  reingested : ∀ Γ tick journal experiment s', ingestJournalWithExperiment Γ ctx journal experiment ⟨db, tick⟩ = (.ok true, s') →
    OneSet journal s'.store

/-- The store is consistent before and after every operation. -/
def StaysConsistent (Γ : Env) (ctx : IngestCtx) : List MaintenanceOp → Db.Session AnalyticsDb → Prop
  | [], s => s.store.Consistent ctx
  | op :: ops, s => s.store.Consistent ctx ∧ StaysConsistent Γ ctx ops (op.apply Γ ctx s)

/-- A purge that deletes from both tables finds no load row of an experiment that it removes. -/
def PurgeClean (Γ : Env) (s : Db.Session AnalyticsDb) (days : Nat) : Prop :=
  ∀ cutoffNs, purgeCutoff (Γ.clock s.tick) days = .ok cutoffNs → Γ.fails (s.tick + 1) = false → Γ.fails (s.tick + 2) = false →
    ∀ row ∈ s.store.experiments, row.startedAtNs < cutoffNs → ∀ load ∈ s.store.loadResults, load.experimentId ≠ row.experimentId

def MaintenanceOp.Clean (Γ : Env) (s : Db.Session AnalyticsDb) : MaintenanceOp → Prop
  | .purgeOlderThanDays days => PurgeClean Γ s days
  | _ => True

/-- Every operation of the run is clean in the store it meets. -/
def CleanRun (Γ : Env) (ctx : IngestCtx) : List MaintenanceOp → Db.Session AnalyticsDb → Prop
  | [], _ => True
  | op :: ops, s => op.Clean Γ s ∧ CleanRun Γ ctx ops (op.apply Γ ctx s)

theorem AnalyticsDb.hasExperiment_iff {id : String} : db.hasExperiment id = true ↔ ∃ row ∈ db.experiments, row.experimentId = id := by
  simp [AnalyticsDb.hasExperiment]

theorem AnalyticsDb.not_hasExperiment {id : String} (h : db.hasExperiment id = false) :
    ∀ row ∈ db.experiments, row.experimentId ≠ id := by
  simpa [AnalyticsDb.hasExperiment] using h

/-- Every activity row of a journal has its identifier. -/
theorem journalToActivityRows_id {journal : Journal} {row : ActivityRow} (h : row ∈ journalToActivityRows journal) :
    row.experimentId = journal.experimentId := by
  simp only [journalToActivityRows, activityRows, List.mem_append, List.mem_map] at h
  rcases h with ((⟨_, -, rfl⟩ | ⟨_, -, rfl⟩) | ⟨_, -, rfl⟩) | ⟨_, -, rfl⟩ <;> rfl

theorem AnalyticsDb.Integral.empty : ({} : AnalyticsDb).Integral := ⟨List.nodup_nil, by simp, by simp⟩

/-- Experiments under new identifiers, and activity rows that belong to them, are a whole addition. -/
theorem AnalyticsDb.Integral.append {db' : AnalyticsDb} {experiments : List ExperimentRow} {activities : List ActivityRow}
    {loads : List LoadRow} (h : db.Integral) (hexperiments : db'.experiments = db.experiments ++ experiments)
    (hactivities : db'.activityResults = db.activityResults ++ activities) (hloads : db'.loadResults = db.loadResults ++ loads)
    (hunique : (experiments.map (·.experimentId)).Nodup)
    (hnew : ∀ row ∈ experiments, ∀ old ∈ db.experiments, old.experimentId ≠ row.experimentId)
    (hbelong : ∀ row ∈ activities, ∃ e ∈ experiments, e.experimentId = row.experimentId)
    (hbelong' : ∀ row ∈ loads, ∃ e ∈ experiments, e.experimentId = row.experimentId) : db'.Integral := by
  have hold {id : String} (hid : db.hasExperiment id = true) : db'.hasExperiment id = true := by
    obtain ⟨row, hrow, rfl⟩ := AnalyticsDb.hasExperiment_iff.mp hid
    exact AnalyticsDb.hasExperiment_iff.mpr ⟨row, by rw [hexperiments]; exact List.mem_append_left _ hrow, rfl⟩
  have hadded {id : String} (hid : ∃ e ∈ experiments, e.experimentId = id) : db'.hasExperiment id = true := by
    obtain ⟨row, hrow, rfl⟩ := hid
    exact AnalyticsDb.hasExperiment_iff.mpr ⟨row, by rw [hexperiments]; exact List.mem_append_right _ hrow, rfl⟩
  refine ⟨?_, fun row hrow => ?_, fun row hrow => ?_⟩
  · rw [hexperiments, List.map_append, List.nodup_append]
    refine ⟨h.unique, hunique, fun id hid id' hid' => ?_⟩
    obtain ⟨old, hmem, rfl⟩ := List.mem_map.mp hid
    obtain ⟨row, hrow, rfl⟩ := List.mem_map.mp hid'
    exact hnew row hrow old hmem
  · rw [hactivities] at hrow
    rcases List.mem_append.mp hrow with hrow | hrow
    · exact hold (h.activities row hrow)
    · exact hadded (hbelong row hrow)
  · rw [hloads] at hrow
    rcases List.mem_append.mp hrow with hrow | hrow
    · exact hold (h.loads row hrow)
    · exact hadded (hbelong' row hrow)

theorem AnalyticsDb.Integral.add {journal : Journal} {experiment : Option Experiment} (h : db.Integral)
    (hnew : db.hasExperiment journal.experimentId = false) : ((RunInput.ofJournal journal experiment).add ctx db).Integral := by
  have hexperiments : ((RunInput.ofJournal journal experiment).add ctx db).experiments =
      db.experiments ++ [journalToExperimentRow journal] := rfl
  refine h.append hexperiments rfl rfl (by simp) (fun row hrow => ?_) (fun row hrow => ?_) fun row hrow => ?_
  · rw [List.mem_singleton.mp hrow]
    exact AnalyticsDb.not_hasExperiment hnew
  · exact ⟨_, List.mem_singleton_self _, (journalToActivityRows_id hrow).symm⟩
  · obtain ⟨load, -, rfl⟩ := List.mem_map.mp hrow
    exact ⟨_, List.mem_singleton_self _, rfl⟩

/-- In a store with referential integrity, a journal that is not there leaves one set of rows. -/
theorem AnalyticsDb.Integral.oneSet {journal : Journal} {experiment : Option Experiment} (h : db.Integral)
    (hnew : db.hasExperiment journal.experimentId = false) : OneSet journal ((RunInput.ofJournal journal experiment).add ctx db) := by
  have hother {id : String} (hid : db.hasExperiment id = true) : id ≠ journal.experimentId := by
    rintro rfl
    simp [hnew] at hid
  have hexperiments : db.experiments.filter (·.experimentId = journal.experimentId) = [] := by
    rw [List.filter_eq_nil_iff]
    exact fun row hrow => by simpa using AnalyticsDb.not_hasExperiment hnew row hrow
  have hactivities : db.activityResults.filter (·.experimentId = journal.experimentId) = [] := by
    rw [List.filter_eq_nil_iff]
    exact fun row hrow => by simpa using hother (h.activities row hrow)
  have hloads : db.loadResults.filter (·.experimentId = journal.experimentId) = [] := by
    rw [List.filter_eq_nil_iff]
    exact fun row hrow => by simpa using hother (h.loads row hrow)
  have hown : (journalToActivityRows journal).filter (·.experimentId = journal.experimentId) = journalToActivityRows journal := by
    rw [List.filter_eq_self]
    exact fun row hrow => by simpa using journalToActivityRows_id hrow
  refine ⟨?_, ?_, ?_⟩
  · simp [RunInput.add, List.filter_append, hexperiments, journalToExperimentRow]
  · simp [RunInput.add, List.filter_append, hactivities, hown]
  · simp only [RunInput.add, List.filter_append, hloads, List.nil_append]
    rw [List.filter_eq_self]
    intro row hrow
    obtain ⟨load, -, rfl⟩ := List.mem_map.mp hrow
    simp [journalToLoadRow]

theorem AnalyticsDb.Integral.consistent (h : db.Integral) : db.Consistent ctx := by
  refine ⟨h, fun Γ tick journal experiment s' hok => ?_⟩
  have hall : RunInput.AllOrNothing Γ ctx ⟨db, tick⟩ (.ofJournal journal experiment) := allOrNothing_ofJournal journal experiment _
  obtain ⟨hnew, hadd⟩ := hall.added s' hok
  rw [hadd]
  exact h.oneSet hnew

/-! ### One operation -/

theorem ingestJournal_integral (journal : Journal) (h : s.store.Integral) : (Db.after (ingestJournal Γ ctx journal) s).store.Integral := by
  have hall : RunInput.AllOrNothing Γ ctx s (.ofJournal journal none) := allOrNothing_ofJournal journal none s
  unfold Db.after
  rcases hresult : ingestJournal Γ ctx journal s with ⟨e | added, s'⟩
  · rw [hall.unwound e s' hresult]
    exact h
  · cases added with
    | true =>
      obtain ⟨hnew, hadd⟩ := hall.added s' hresult
      rw [hadd]
      exact h.add hnew
    | false =>
      rw [(hall.skipped s' hresult).2]
      exact h

theorem ingestJournals_integral (journals : List Journal) (h : s.store.Integral) :
    (Db.after (ingestJournals Γ ctx journals) s).store.Integral := by
  induction journals generalizing s with
  | nil => exact h
  | cons journal journals ih =>
    have hfirst : (Db.after (ingestJournal Γ ctx journal) s).store.Integral := ingestJournal_integral journal h
    rcases hresult : ingestJournal Γ ctx journal s with ⟨e | added, s₁⟩
    · rw [Db.after, hresult] at hfirst
      rw [Db.after, ingestJournals, Db.bind_of_error hresult]
      exact hfirst
    · rw [Db.after, hresult] at hfirst
      rw [Db.after, ingestJournals, Db.bind_of_ok hresult]
      have hothers : (Db.after (ingestJournals Γ ctx journals) s₁).store.Integral := ih hfirst
      rcases hrest : ingestJournals Γ ctx journals s₁ with ⟨e | count, s₂⟩
      · rw [Db.after, hrest] at hothers
        rw [Db.bind_of_error hrest]
        exact hothers
      · rw [Db.after, hrest] at hothers
        rw [Db.bind_of_ok hrest]
        exact hothers

/-- Exported tables are those of the store they come from. -/
theorem Backup.integral (backup : Backup) : (backup.tables.experiments.map (·.experimentId)).Nodup ∧
    ∀ row ∈ backup.tables.activityResults, ∃ e ∈ backup.tables.experiments, e.experimentId = row.experimentId := by
  obtain ⟨Γ, s, s', hexport, h⟩ := backup.exported
  obtain ⟨experiments, s₁, hexperiments, hrest⟩ := Db.bind_ok.mp hexport
  obtain ⟨-, rfl, rfl⟩ := Db.query_ok.mp hexperiments
  obtain ⟨activities, s₂, hactivities, hend⟩ := Db.bind_ok.mp hrest
  obtain ⟨-, rfl, rfl⟩ := Db.query_ok.mp hactivities
  rw [(Db.pure_ok.mp hend).1]
  exact ⟨h.unique, fun row hrow => AnalyticsDb.hasExperiment_iff.mp (h.activities row hrow)⟩

theorem importTables_integral (backup : Backup) (h : s.store.Integral) :
    (Db.after (importTables Γ backup.tables) s).store.Integral := by
  unfold Db.after
  rcases hresult : importTables Γ backup.tables s with ⟨e | _, s'⟩
  · rw [(Db.withTx_error hresult :)]
    exact h
  · have hrun := (Db.withTx_executeAll_ok hresult).1
    rw [Db.runAll_cons, insertExperiments] at hrun
    split at hrun
    · next hkeys =>
      have hstore := Option.some.inj hrun
      exact h.append (by rw [← hstore]) (by rw [← hstore]) (by rw [← hstore, List.append_nil]) hkeys.1 hkeys.2 backup.integral.2
        (by simp)
    · cases hrun

/-- The store after a purge: as it was, without the activities, or without the experiments as well. -/
theorem purgeOlderThanDays_cases (Γ : Env) (s : Db.Session AnalyticsDb) (days : Nat) :
    (Db.after (purgeOlderThanDays Γ days) s).store = s.store ∧ ((∀ cutoffNs, purgeCutoff (Γ.clock s.tick) days ≠ .ok cutoffNs) ∨
      Γ.fails (s.tick + 1) = true) ∨
    ∃ cutoffNs, purgeCutoff (Γ.clock s.tick) days = .ok cutoffNs ∧ Γ.fails (s.tick + 1) = false ∧
      (Γ.fails (s.tick + 2) = true ∧ (Db.after (purgeOlderThanDays Γ days) s).store = { s.store with
          activityResults := s.store.activityResults.filter fun row =>
            !(s.store.startedBefore cutoffNs).any (·.experimentId = row.experimentId) } ∨
        Γ.fails (s.tick + 2) = false ∧ (Db.after (purgeOlderThanDays Γ days) s).store = { s.store with
          activityResults := s.store.activityResults.filter fun row =>
            !(s.store.startedBefore cutoffNs).any (·.experimentId = row.experimentId)
          experiments := s.store.experiments.filter fun row => !(row.startedAtNs < cutoffNs) }) := by
  have hnow : (Db.now Γ : Tx AnalyticsError AnalyticsDb Int) s = (.ok (Γ.clock s.tick), s.next) := rfl
  rw [Db.after, purgeOlderThanDays, Db.bind_of_ok hnow]
  rcases hcutoff : purgeCutoff (Γ.clock s.tick) days with e | cutoffNs
  · exact .inl ⟨rfl, .inl (by simp)⟩
  · rw [Db.bind_of_ok (show Db.ofExcept (.ok cutoffNs) s.next = (.ok cutoffNs, s.next) from rfl)]
    cases hfirst : Γ.fails (s.tick + 1) with
    | true =>
      rw [Db.bind_of_error (Db.execute_refused hfirst)]
      exact .inl ⟨rfl, .inr rfl⟩
    | false =>
      have hdelete : Db.execute Γ AnalyticsError.db .constraint (fun db : AnalyticsDb => some { db with
          activityResults := db.activityResults.filter fun row =>
            !(db.startedBefore cutoffNs).any (·.experimentId = row.experimentId) }) s.next = (.ok (), _) :=
        Db.execute_done hfirst rfl
      rw [Db.bind_of_ok hdelete]
      refine .inr ⟨cutoffNs, rfl, rfl, ?_⟩
      cases hsecond : Γ.fails (s.tick + 2) with
      | true => exact .inl ⟨rfl, by simp [Db.statement, Db.Session.next, hsecond]⟩
      | false => exact .inr ⟨rfl, by simp [Db.statement, Db.Session.next, Db.Session.withStore, hsecond]⟩

/-- Whether a purge keeps referential integrity. -/
theorem purgeOlderThanDays_integral_iff (days : Nat) (h : s.store.Integral) :
    (Db.after (purgeOlderThanDays Γ days) s).store.Integral ↔ PurgeClean Γ s days := by
  rcases purgeOlderThanDays_cases Γ s days with ⟨hsame, hwhy⟩ | ⟨cutoffNs, hcutoff, hfirst, ⟨hsecond, hstore⟩ | ⟨hsecond, hstore⟩⟩
  · rw [hsame]
    refine iff_of_true h fun cutoffNs hcutoff hfirst => ?_
    rcases hwhy with hnone | hrefused
    · exact absurd hcutoff (hnone cutoffNs)
    · simp [hfirst] at hrefused
  · rw [hstore]
    exact iff_of_true ⟨h.unique, fun row hrow => h.activities row (List.mem_filter.mp hrow).1, h.loads⟩
      fun _ _ _ hdone => by simp [hsecond] at hdone
  · rw [hstore]
    constructor
    · intro hafter cutoffNs' hcutoff' _ _ row hrow hold load hload hid
      obtain rfl : cutoffNs = cutoffNs' := Except.ok.inj (hcutoff.symm.trans hcutoff')
      obtain ⟨kept, hkept, hsame⟩ := AnalyticsDb.hasExperiment_iff.mp (hafter.loads load hload)
      obtain ⟨hmem, hyoung⟩ := List.mem_filter.mp hkept
      -- identifiers are unique, so the experiment that is still there is the one that was purged
      obtain rfl : kept = row := List.inj_on_of_nodup_map h.unique hmem hrow (hsame.trans hid)
      simp [hold] at hyoung
    · intro hclean
      have hyoung {e : ExperimentRow} {id : String} (he : e ∈ s.store.experiments) (hid : e.experimentId = id)
          (hlate : ¬ e.startedAtNs < cutoffNs) : ∃ e ∈ s.store.experiments.filter fun row => !(row.startedAtNs < cutoffNs),
            e.experimentId = id := ⟨e, List.mem_filter.mpr ⟨he, by simpa using hlate⟩, hid⟩
      refine ⟨h.unique.sublist (List.filter_sublist.map _), fun row hrow => ?_, fun row hrow => ?_⟩
      · obtain ⟨hrow, hkept⟩ := List.mem_filter.mp hrow
        obtain ⟨e, he, hid⟩ := AnalyticsDb.hasExperiment_iff.mp (h.activities row hrow)
        refine AnalyticsDb.hasExperiment_iff.mpr (hyoung he hid fun hold => ?_)
        have hany : (s.store.startedBefore cutoffNs).any (·.experimentId = row.experimentId) = true :=
          List.any_eq_true.mpr ⟨e, List.mem_filter.mpr ⟨he, by simpa using hold⟩, by simpa using hid⟩
        simp [hany] at hkept
      · obtain ⟨e, he, hid⟩ := AnalyticsDb.hasExperiment_iff.mp (h.loads row hrow)
        refine AnalyticsDb.hasExperiment_iff.mpr (hyoung he hid fun hold => ?_)
        exact hclean cutoffNs hcutoff hfirst hsecond e he hold row hrow hid.symm

/-- Whether an operation keeps referential integrity. -/
theorem MaintenanceOp.apply_integral_iff (op : MaintenanceOp) (h : s.store.Integral) :
    (op.apply Γ ctx s).store.Integral ↔ op.Clean Γ s := by
  cases op with
  | ingestJournal journal => exact iff_of_true (ingestJournal_integral journal h) trivial
  | ingestJournals journals => exact iff_of_true (ingestJournals_integral journals h) trivial
  | purgeOlderThanDays days =>
    rw [MaintenanceOp.apply, MaintenanceOp.Clean]
    exact purgeOlderThanDays_integral_iff days h
  | importTables backup => exact iff_of_true (importTables_integral backup h) trivial

theorem analytics_consistent_iff (Γ : Env) (ctx : IngestCtx) (ops : List MaintenanceOp) (s : Db.Session AnalyticsDb)
    (h : s.store.Integral) : StaysConsistent Γ ctx ops s ↔ CleanRun Γ ctx ops s := by
  induction ops generalizing s with
  | nil => exact iff_of_true h.consistent trivial
  | cons op ops ih =>
    have hstep : (op.apply Γ ctx s).store.Integral ↔ op.Clean Γ s := op.apply_integral_iff h
    constructor
    · rintro ⟨-, hrest⟩
      have hafter : (op.apply Γ ctx s).store.Integral := by
        cases ops with
        | nil => exact hrest.integral
        | cons op' ops => exact hrest.1.integral
      exact ⟨hstep.mp hafter, (ih _ hafter).mp hrest⟩
    · rintro ⟨hclean, hrest⟩
      exact ⟨h.consistent, (ih _ (hstep.mpr hclean)).mpr hrest⟩

/-- A journal of a run at the start of time, with or without a load. -/
def epochJournal (loadResult : Option LoadResult) : Journal where
  experimentTitle := "latency"
  experimentId := "experiment-1"
  status := .completed
  startedAtNs := 0
  endedAtNs := 1
  estimate := none
  regulatory := none
  loadResult := loadResult

/-- Nothing is refused, two days after the start of time. -/
def dayTwo : Env := ⟨fun _ => 172800000000000, fun _ => false⟩

/-- Without a load, a journal is purged and ingested again. -/
theorem analytics_consistent_reingested : StaysConsistent dayTwo bareIngestCtx
    [.ingestJournal (epochJournal none), .purgeOlderThanDays 1, .ingestJournal (epochJournal none)] ⟨{}, 0⟩ := by
  refine (analytics_consistent_iff _ _ _ _ AnalyticsDb.Integral.empty).mpr ⟨trivial, ?_, trivial, trivial⟩
  have hloads : (MaintenanceOp.apply dayTwo bareIngestCtx ⟨{}, 0⟩ (.ingestJournal (epochJournal none))).store.loadResults = [] := by
    decide +kernel
  intro cutoffNs _ _ _ row _ _ load hload
  simp [hloads] at hload

/-- The purge removes the experiment and forgets its load row. -/
theorem analytics_consistent_false : ¬ StaysConsistent dayTwo bareIngestCtx
    [.ingestJournal (epochJournal (some ⟨10, 1000, true⟩)), .purgeOlderThanDays 1] ⟨{}, 0⟩ := by
  intro h
  have hafter := h.2.2.integral.loads ⟨"experiment-1", 10, 1000, true⟩ (by decide +kernel)
  revert hafter
  decide +kernel

end Tumult
