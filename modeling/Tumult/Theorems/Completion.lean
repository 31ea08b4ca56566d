import Tumult.Ingest.Completion
import Tumult.Runner.Steps

/-!
# A stop that lands at completion

A completion is two writes: the journal, and then the run's state. What is recorded after a stop is what the stop calls for, and a
terminal run has the journal behind its state, unless the first closure stored the journal and lost its second write: the retry's
journal is then a duplicate, and the state is derived from one journal while the other is stored.
-/

namespace Tumult.Completion

open Traced

variable {Γ : Ctx}

/-! ## What a completion owes -/

/-- What the writer holds honours a stop; `due` says that the rollbacks must come before a terminal state. -/
structure Honoured (due : Prop) (runId : String) (ev : Evidence) : Prop where
  /-- A closure after the cancellation records no outcome of a journal that is not interrupted. -/
  status : ∀ journal state, .finished journal state true ∈ ev.history → journal.status ≠ .interrupted →
    state ∉ [.passed, .deviated, .failed]
  /-- The rollbacks are attempted before a terminal state is there. -/
  cleaned : due → ∀ row ∈ ev.store.runs, row.id = runId → row.state.isTerminal = true → ∃ later, ev.history = .rollbacks :: later
  /-- A failed rollback leaves the run for cleanup. -/
  pending : ∀ journal state stopped, .finished journal state stopped ∈ ev.history →
    (∃ r ∈ journal.rollbackResults, r.status = .failed) → state = .rollbackPending
  /-- The journal stored for a terminal run has the status that the state was derived from. -/
  evidence : ∀ row ∈ ev.store.runs, row.id = runId → row.state.isTerminal = true → ∃ journal stopped,
    ev.history.getLast? = some (.finished journal row.state stopped) ∧ row.experimentId = some journal.experimentId ∧
      (ev.journals.find? fun stored => stored.experimentId = journal.experimentId).map (·.status) = some journal.status

/-- The journal is not interrupted and has no rollback results, and the token is cancelled when the first closure meets it. -/
def RollbacksDue (journal : Journal) (o : Outcomes) : Prop :=
  o.cancelled 0 = true ∧ journal.status ≠ .interrupted ∧ journal.rollbackResults = []

/-- A stop at completion is honoured after every step. -/
def StopHonoured (runId : String) (journal : Journal) (o : Outcomes) (states : List (Db.Session Evidence)) : Prop :=
  ∀ s ∈ states, Honoured (RollbacksDue journal o) runId s.store

/-- The run that a worker completes: its row is there once, it started, and it has not ended. -/
structure Unfinished (runId : String) (st : Store) : Prop where
  one : st.runs.countP (fun r => r.id = runId) = 1
  started : ∀ r ∈ st.runs, r.id = runId → r.startedAtNs ≠ none
  running : ∀ r ∈ st.runs, r.id = runId → r.state.isTerminal = false

/-- The journal counts its failed rollbacks. -/
def CountsFailures (journal : Journal) : Prop := journal.rollbackFailures = rollbackFailures journal.rollbackResults

/-- What the late cleanup adds to the journal: nothing where there are results already. -/
def LateResults (journal : Journal) (o : Outcomes) (late : Option (List ActivityResult)) : Prop :=
  if journal.rollbackResults = [] then ∃ results, o.cleanup = .ok results ∧ late = some results else late = none

/-- The evidence and the state of the run come apart. -/
structure Split (journal : Journal) (o : Outcomes) : Prop where
  /-- The run ended by itself. -/
  ended : journal.status ≠ .interrupted
  /-- The first closure stores the journal, and its second write is refused. -/
  stored : o.first.reaches = true ∧ o.first.ingests = true ∧ o.first.finishes = false
  /-- The token is cancelled between the first closure's check and the worker's. -/
  stopped : o.cancelled 0 = false ∧ o.cancelled 1 = true
  /-- No rollback failed. -/
  clean : ∃ late, LateResults journal o late ∧ (interruptedJournal journal late o.nowNs).rollbackFailures = 0
  /-- The second closure is accepted. -/
  retried : o.second.reaches = true ∧ o.second.ingests = true ∧ o.second.finishes = true

/-! ## The journals of the runner -/

section Runner

variable {Γ : RunnerCtx} {executor : ActivityExecutor} {controls : ControlRegistry} {experiment : Experiment} {config : RunConfig}

theorem endRun_countsFailures (m : MethodOutcome) (halt : Option HaltRecord) :
    Yields (endRun Γ executor controls experiment config m halt) CountsFailures := by
  unfold endRun
  cases halt with
  | some halt => exact Yields.after fun load => Yields.after fun results => Yields.after fun _ => Yields.pure rfl
  | none =>
    refine Yields.after fun interrupted => ?_
    cases interrupted with
    | true => exact Yields.after fun load => Yields.after fun results => Yields.after fun _ => Yields.pure rfl
    | false =>
      refine Yields.after fun post => Yields.after fun load => Yields.after fun after => Yields.after fun interrupted => ?_
      exact Yields.after fun results => Yields.after fun late => Yields.after fun _ => Yields.pure rfl

/-- Every journal that a run returns counts its failed rollbacks. -/
theorem runExperiment_countsFailures :
    Yields (runExperiment Γ executor controls experiment config) fun r => ∀ journal, r = .ok journal → CountsFailures journal := by
  have hok : ∀ j : Journal, CountsFailures j → ∀ journal, (.ok j : Except RunnerError Journal) = .ok journal → CountsFailures journal := by
    rintro j hj journal ⟨⟩
    exact hj
  have hmethod : ∀ before, Yields (runMethod Γ executor controls experiment config before) fun r =>
      ∀ journal, r = .ok journal → CountsFailures journal := by
    intro before
    refine Yields.after fun started => ?_
    cases started with
    | error e => exact Yields.pure (by rintro journal ⟨⟩)
    | ok handle =>
      refine Yields.after fun left => ?_
      exact Yields.bind (endRun_countsFailures left.1 left.2) fun j hj => Yields.pure (hok j hj)
  unfold runExperiment
  split
  · unfold runProbeOnly
    split
    · exact Yields.pure (by rintro journal ⟨⟩)
    · refine Yields.after fun cancelled => ?_
      cases cancelled with
      | true => exact Yields.pure (hok _ rfl)
      | false => exact Yields.after fun result => Yields.after fun interrupted => Yields.pure (hok _ rfl)
  · split
    · exact Yields.pure (by rintro journal ⟨⟩)
    · split
      · exact Yields.pure (by rintro journal ⟨⟩)
      · refine Yields.after fun cancelled => ?_
        cases cancelled with
        | true => exact Yields.pure (hok _ rfl)
        | false =>
          refine Yields.after fun _ => Yields.after fun before => ?_
          split
          · exact Yields.bind (P := CountsFailures) (Yields.after fun results => Yields.after fun _ => Yields.pure rfl) fun j hj =>
              Yields.pure (hok j hj)
          · refine Yields.after fun cancelled => ?_
            cases cancelled with
            | true => exact Yields.after fun _ => Yields.pure (hok _ rfl)
            | false => exact hmethod before

end Runner

/-! ## The two writes -/

/-- The journals after an accepted ingest. -/
def ingested (journals : List Journal) (journal : Journal) : List Journal :=
  if journals.any fun stored => stored.experimentId = journal.experimentId then journals else journals ++ [journal]

theorem ingestJournal_accepted (journal : Journal) (s : Db.Session Evidence) :
    ∃ b s', ingestJournal (accepting Γ true) journal s = (.ok b, s') ∧
      s'.store = { s.store with journals := ingested s.store.journals journal } := by
  cases hdup : s.store.journals.any fun stored => stored.experimentId = journal.experimentId with
  | true =>
    refine ⟨false, s.next, ?_, by simp [ingested, hdup]⟩
    simp only [ingestJournal, Db.query, Db.statement, bind, pure, hdup]
    rfl
  | false =>
    refine ⟨true, s.next.next.next.next.withStore { s.store with journals := s.store.journals ++ [journal] }, ?_, by simp [ingested, hdup]⟩
    simp only [ingestJournal, Db.query, Db.statement, bind, pure, hdup]
    rfl

theorem ingestJournal_refused (journal : Journal) (s : Db.Session Evidence) :
    ∃ e s', ingestJournal (accepting Γ false) journal s = (.error e, s') ∧ s'.store = s.store := by
  exact ⟨.database, s.next, rfl, rfl⟩

theorem finishRun_refused (runId : String) (state : RunState) (e rb err : Option String) (s : Session) :
    finishRun (accepting Γ false) runId state e rb err s = (.error .database, s.next) := rfl

theorem finishRun_accepted {runId : String} {state : RunState} (e rb err : Option String) {s : Session}
    (h : s.store.runs.countP (finishable runId state) = 1) :
    ∃ s', finishRun (accepting Γ true) runId state e rb err s = (.ok (), s') := by
  rcases hres : finishRun (accepting Γ true) runId state e rb err s with ⟨r, s'⟩
  cases r with
  | ok u => exact ⟨s', rfl⟩
  | error e =>
    simp [finishRun, withTx, Db.withTx, accepting, nowNs, Db.now, transitionRun, execute, Db.statement, updateRuns, requireTransition, h,
      insertRunAudit, query, Db.query, bind, pure] at hres
/-- The update of a finished row. -/
def finishedRow (journal : Journal) (now : Int) (r : RunRow) : RunRow :=
  { r with state := stateOf journal, endedAtNs := some now, experimentId := some journal.experimentId,
           rollbackStatus := some (rollbackStatusOf journal), error := none }

theorem stateOf_cases (journal : Journal) :
    (0 < journal.rollbackFailures ∧ stateOf journal = .rollbackPending) ∨
      (journal.rollbackFailures = 0 ∧ stateOf journal = terminalState journal.status) := by
  unfold stateOf
  split
  · exact Or.inl ⟨‹_›, rfl⟩
  · exact Or.inr ⟨by omega, rfl⟩

/-- No journal leaves a run rejected or expired. -/
theorem finishable_stateOf (runId : String) (journal : Journal) :
    finishable runId (stateOf journal) = fun r => decide (r.id = runId) := by
  have hstate : stateOf journal ≠ .rejected ∧ stateOf journal ≠ .expired := by
    rcases stateOf_cases journal with ⟨-, h⟩ | ⟨-, h⟩
    · rw [h]
      exact ⟨by decide, by decide⟩
    · rw [h]
      cases journal.status <;> exact ⟨by decide, by decide⟩
  funext r
  simp [finishable, hstate]

/-! ## One closure -/

/-- The closure stores the journal. -/
def stores (w : WriteOutcome) (cancelled : Bool) (journal : Journal) : Bool :=
  w.reaches && !(cancelled && journal.status ≠ .interrupted) && w.ingests

/-- What a closure that is refused leaves: the journal, if it got that far. -/
theorem recordCompletion_refused {w : WriteOutcome} {cancelled : Bool} {journal : Journal}
    (h : (stores w cancelled journal && w.finishes) = false) (runId : String) (s : Db.Session Evidence) :
    ∃ e s', recordCompletion Γ w cancelled runId journal s = (.error e, s') ∧
      s'.store = { s.store with journals := if stores w cancelled journal then ingested s.store.journals journal else s.store.journals } := by
  unfold stores at h ⊢
  cases hreach : w.reaches with
  | false => exact ⟨.internal "writer task stopped", s, by simp [recordCompletion, hreach, bind, Db.throw], by simp⟩
  | true =>
    cases hstop : (cancelled && decide (journal.status ≠ .interrupted)) with
    | true =>
      refine ⟨.internal "stop accepted before completion; cleanup required", s, ?_, by simp⟩
      simp only [recordCompletion, hreach, hstop]
      rfl
    | false =>
      cases hingest : w.ingests with
      | false =>
        obtain ⟨e, s', hrun, hstore⟩ := ingestJournal_refused (Γ := Γ) journal s
        refine ⟨e, s', ?_, by simpa using hstore⟩
        simp only [recordCompletion, hreach, hstop, hingest, Bool.not_true, Bool.false_eq_true, ↓reduceIte, bind, hrun]
      | true =>
        have hfinish : w.finishes = false := by simpa only [hreach, hstop, hingest, Bool.not_false, Bool.true_and] using h
        obtain ⟨b, s', hrun, hstore⟩ := ingestJournal_accepted (Γ := Γ) journal s
        refine ⟨.database, ⟨s'.store, s'.tick + 1⟩, ?_, by simp [hstore]⟩
        simp only [recordCompletion, hreach, hstop, hingest, Bool.not_true, Bool.false_eq_true, ↓reduceIte, bind, hrun, hfinish,
          onRuns, finishRun_refused]
        rfl

/-- What a closure that is accepted leaves: the journal, and the row it finished. -/
theorem recordCompletion_accepted {w : WriteOutcome} {cancelled : Bool} {journal : Journal} {runId : String}
    {s : Db.Session Evidence} (h : (stores w cancelled journal && w.finishes) = true)
    (hone : s.store.store.runs.countP (fun r => decide (r.id = runId)) = 1) :
    ∃ s' now audit', recordCompletion Γ w cancelled runId journal s = (.ok (), s') ∧
      s'.store = { store := { s.store.store with
                     runs := Db.updateWhere (fun r => decide (r.id = runId)) (finishedRow journal now) s.store.store.runs
                     audit := audit' }
                   journals := ingested s.store.journals journal
                   history := s.store.history ++ [.finished journal (stateOf journal) cancelled] } := by
  obtain ⟨⟨⟨hreach, hstop⟩, hingest⟩, hfinish⟩ : ((w.reaches = true ∧ (cancelled && decide (journal.status ≠ .interrupted)) = false) ∧
      w.ingests = true) ∧ w.finishes = true := by simpa only [stores, Bool.and_eq_true, Bool.not_eq_true'] using h
  obtain ⟨b, s₁, hrun, hstore⟩ := ingestJournal_accepted (Γ := Γ) journal s
  have hcount : s₁.store.store.runs.countP (finishable runId (stateOf journal)) = 1 := by
    rw [hstore, finishable_stateOf]
    exact hone
  obtain ⟨s₂, hfin⟩ := finishRun_accepted (Γ := Γ) (some journal.experimentId) (some (rollbackStatusOf journal)) none
    (s := ⟨s₁.store.store, s₁.tick⟩) hcount
  obtain ⟨-, now, audit', -, hruns⟩ := finishRun_ok hfin
  refine ⟨⟨{ s₁.store with
      store := s₂.store, history := s₁.store.history ++ [.finished journal (stateOf journal) cancelled] }, s₂.tick⟩, now, audit', ?_, ?_⟩
  · simp only [recordCompletion, hreach, hstop, hingest, Bool.not_true, Bool.false_eq_true, ↓reduceIte, bind, hrun, hfinish, onRuns,
      hfin]
    rfl
  · simp only [hruns, hstore, finishable_stateOf]
    rfl

/-! ## The states on the way -/

/-- The row stays where it was and unfinished under an update that keeps the ids and leaves no started row terminal. -/
theorem Unfinished.updateWhere {runId : String} {st : Store} (h : Unfinished runId st) {p : RunRow → Bool} {f : RunRow → RunRow}
    (hid : ∀ r, (f r).id = r.id) (hstarted : ∀ r, (f r).startedAtNs = r.startedAtNs)
    (hrunning : ∀ r, r.startedAtNs ≠ none → (f r).state.isTerminal = false) (audit : List AuditRow) :
    Unfinished runId { st with runs := Db.updateWhere p f st.runs, audit := audit } := by
  have hrow : ∀ r ∈ Db.updateWhere p f st.runs, r.id = runId → ∃ o ∈ st.runs, o.id = runId ∧ r.startedAtNs = o.startedAtNs ∧
      (r = o ∨ r = f o) := by
    intro r hr hrun
    obtain ⟨o, ho, rfl⟩ := Db.mem_updateWhere.mp hr
    split at hrun
    · rw [if_pos ‹_›]
      exact ⟨o, ho, by rw [← hrun, hid], hstarted o, Or.inr rfl⟩
    · rw [if_neg ‹_›]
      exact ⟨o, ho, hrun, rfl, Or.inl rfl⟩
  refine ⟨?_, ?_, ?_⟩
  · have hids : (Db.updateWhere p f st.runs).map RunRow.id = st.runs.map RunRow.id := Db.map_updateWhere hid st.runs
    have hcount := congrArg (List.countP fun id => decide (id = runId)) hids
    rw [List.countP_map, List.countP_map] at hcount
    exact hcount.trans h.one
  · intro r hr hrun
    obtain ⟨o, ho, hoid, hstart, -⟩ := hrow r hr hrun
    rw [hstart]
    exact h.started o ho hoid
  · intro r hr hrun
    obtain ⟨o, ho, hoid, -, rfl | rfl⟩ := hrow r hr hrun
    · exact h.running _ ho hoid
    · exact hrunning o (h.started o ho hoid)

/-- A stop request leaves the run unfinished, and the journals and what was shown alone. -/
theorem requestStop_keeps {runId : String} {s : Db.Session Evidence} (h : Unfinished runId s.store.store) (actor : Option String) :
    ∃ st, (Db.after (onRuns (requestRunStop Γ runId actor)) s).store = { s.store with store := st } ∧ Unfinished runId st := by
  simp only [Db.after, onRuns]
  rcases hrun : requestRunStop Γ runId actor ⟨s.store.store, s.tick⟩ with ⟨r, s'⟩
  refine ⟨s'.store, rfl, ?_⟩
  cases r with
  | error e =>
    rw [Db.withTx_error hrun]
    exact h
  | ok u =>
    obtain ⟨-, now, audit', -, hst⟩ := requestRunStop_ok hrun
    rw [hst]
    refine h.updateWhere ?_ (stopRow_startedAtNs now) ?_ audit'
    · intro r
      unfold stopRow
      split <;> rfl
    · intro r hr
      rw [stopRow_state, if_neg hr]
      rfl

theorem serveStops_keeps {runId : String} (stops : List (Option String × Bool)) :
    ∀ {s : Db.Session Evidence}, Unfinished runId s.store.store →
      ∃ st, (serveStops Γ runId stops s).store = { s.store with store := st } ∧ Unfinished runId st := by
  induction stops with
  | nil =>
    intro s h
    exact ⟨s.store.store, rfl, h⟩
  | cons stop stops ih =>
    intro s h
    obtain ⟨st₁, hst₁, h₁⟩ := requestStop_keeps (Γ := accepting Γ stop.2) h stop.1
    obtain ⟨st₂, hst₂, h₂⟩ := ih (s := Db.after (onRuns (requestRunStop (accepting Γ stop.2) runId stop.1)) s) (by rw [hst₁]; exact h₁)
    refine ⟨st₂, ?_, h₂⟩
    rw [serveStops, hst₂, hst₁]

/-- The failure of a late cleanup leaves the run for cleanup. -/
theorem failRun_keeps {runId : String} {s : Db.Session Evidence} (h : Unfinished runId s.store.store) (error : String) :
    ∃ st, (Db.after (onRuns (failRun Γ runId error)) s).store = { s.store with store := st } ∧ Unfinished runId st := by
  simp only [Db.after, onRuns]
  rcases hrun : failRun Γ runId error ⟨s.store.store, s.tick⟩ with ⟨r, s'⟩
  refine ⟨s'.store, rfl, ?_⟩
  cases r with
  | error e =>
    rw [Db.withTx_error hrun]
    exact h
  | ok u =>
    obtain ⟨now, audit', -, hst⟩ := failRun_ok hrun
    rw [hst]
    refine h.updateWhere ?_ (failRow_startedAtNs error now) ?_ audit'
    · intro r
      unfold failRow
      split <;> rfl
    · intro r hr
      rw [failRow_state, if_neg hr]
      rfl

/-- Nothing is owed while the run is unfinished and no outcome was recorded. -/
theorem honoured_unfinished {due : Prop} {runId : String} {ev : Evidence} (h : Unfinished runId ev.store)
    (hshown : ∀ e ∈ ev.history, e = .rollbacks) : Honoured due runId ev := by
  refine ⟨?_, ?_, ?_, ?_⟩
  · intro journal state he
    cases hshown _ he
  · intro _ row hrow hid hterm
    rw [h.running row hrow hid] at hterm
    cases hterm
  · intro journal state stopped he
    cases hshown _ he
  · intro row hrow hid hterm
    rw [h.running row hrow hid] at hterm
    cases hterm

/-! ## The recorded outcome -/

theorem find?_ingested_fresh {journals : List Journal} {journal : Journal}
    (h : ∀ stored ∈ journals, stored.experimentId ≠ journal.experimentId) :
    (ingested journals journal).find? (fun stored => stored.experimentId = journal.experimentId) = some journal := by
  have hnone : journals.find? (fun stored => decide (stored.experimentId = journal.experimentId)) = none := by
    simpa [List.find?_eq_none] using h
  have hany : (journals.any fun stored => decide (stored.experimentId = journal.experimentId)) = false := by
    simpa [List.any_eq_false] using h
  simp [ingested, hany, List.find?_append, hnone]

theorem ingested_duplicate {journals : List Journal} {stored journal : Journal}
    (h : journals.find? (fun j => j.experimentId = journal.experimentId) = some stored) : ingested journals journal = journals := by
  have hany : (journals.any fun j => decide (j.experimentId = journal.experimentId)) = true := by
    have hid := List.find?_some h
    exact List.any_eq_true.mpr ⟨stored, List.mem_of_find?_eq_some h, hid⟩
  simp [ingested, hany]

/-- A journal counts its failed rollbacks, or more. -/
theorem stateOf_pending {journal : Journal} (h : rollbackFailures journal.rollbackResults ≤ journal.rollbackFailures)
    (hfailed : ∃ r ∈ journal.rollbackResults, r.status = .failed) : stateOf journal = .rollbackPending := by
  have hpos : 0 < rollbackFailures journal.rollbackResults := by
    rw [rollbackFailures, List.countP_pos_iff]
    simpa using hfailed
  exact if_pos (by omega)

/-- What the writer holds after an accepted completion is honoured exactly when a state that is terminal has its journal behind it.
-/
theorem honoured_finished {due : Prop} {runId : String} {journal stored : Journal} {cancelled : Bool} {before : List Event}
    {journals : List Journal} {st : Store} {now : Int} {audit : List AuditRow} (hone : st.runs.countP (fun r => r.id = runId) = 1)
    (hshown : ∀ e ∈ before, e = .rollbacks) (hstopped : cancelled = true → journal.status = .interrupted)
    (hdue : due → ∃ later, before = .rollbacks :: later)
    (hcounts : rollbackFailures journal.rollbackResults ≤ journal.rollbackFailures)
    (hstored : journals.find? (fun j => j.experimentId = journal.experimentId) = some stored) :
    Honoured due runId ⟨{ st with runs := Db.updateWhere (fun r => decide (r.id = runId)) (finishedRow journal now) st.runs, audit },
      journals, before ++ [.finished journal (stateOf journal) cancelled]⟩ ↔
      (stateOf journal ≠ .rollbackPending → stored.status = journal.status) := by
  have hfinal : (stateOf journal).isTerminal = true ↔ stateOf journal ≠ .rollbackPending := by
    rcases stateOf_cases journal with ⟨-, hs⟩ | ⟨-, hs⟩
    · simp [hs, RunState.isTerminal]
    · rw [hs]
      cases journal.status <;> simp [terminalState, RunState.isTerminal]
  have hrow : ∀ row ∈ Db.updateWhere (fun r => decide (r.id = runId)) (finishedRow journal now) st.runs, row.id = runId →
      row.state = stateOf journal ∧ row.experimentId = some journal.experimentId := by
    intro row hmem hid
    obtain ⟨o, ho, rfl⟩ := Db.mem_updateWhere.mp hmem
    by_cases hrun : o.id = runId
    · simp [hrun, finishedRow]
    · simp [hrun] at hid
  have hshow : ∀ j state stopped, .finished j state stopped ∈ before ++ [.finished journal (stateOf journal) cancelled] →
      j = journal ∧ state = stateOf journal ∧ stopped = cancelled := by
    intro j state stopped he
    rcases List.mem_append.mp he with he | he
    · cases hshown _ he
    · simpa using he
  constructor
  · intro h hpending
    obtain ⟨o, ho, hoid⟩ := List.countP_pos_iff.mp (by rw [hone]; exact Nat.one_pos)
    have hmem : finishedRow journal now o ∈ Db.updateWhere (fun r => decide (r.id = runId)) (finishedRow journal now) st.runs :=
      Db.mem_updateWhere.mpr ⟨o, ho, by rw [if_pos hoid]⟩
    obtain ⟨j, stopped, hlast, -, hfind⟩ := h.evidence _ hmem (of_decide_eq_true hoid) (hfinal.mpr hpending)
    rw [List.getLast?_concat] at hlast
    obtain ⟨rfl, -, -⟩ : journal = j ∧ _ ∧ _ := by simpa using hlast
    rw [hstored] at hfind
    simpa using hfind
  · intro h
    refine ⟨?_, ?_, ?_, ?_⟩
    · intro j state he hj
      obtain ⟨rfl, -, hc⟩ := hshow _ _ _ he
      exact absurd (hstopped hc.symm) hj
    · intro hd row hmem hid hterm
      obtain ⟨later, hlater⟩ := hdue hd
      exact ⟨_, by rw [hlater, List.cons_append]⟩
    · intro j state stopped he hfailed
      obtain ⟨rfl, rfl, -⟩ := hshow _ _ _ he
      exact stateOf_pending hcounts hfailed
    · intro row hmem hid hterm
      obtain ⟨hstate, hexp⟩ := hrow row hmem hid
      rw [hstate] at hterm ⊢
      exact ⟨journal, cancelled, List.getLast?_concat, hexp, by rw [hstored, Option.map_some, h (hfinal.mp hterm)]⟩

/-! ## Retries -/

/-- The retry: honoured unless the journal it meets is another's and the run ends by it. -/
theorem retry_honoured {due : Prop} {runId : String} {j : Journal} {o : Outcomes} {s : Db.Session Evidence}
    (hrow : Unfinished runId s.store.store) (hshown : ∀ e ∈ s.store.history, e = .rollbacks) (hstatus : j.status = .interrupted)
    (hdue : due → ∃ later, s.store.history = .rollbacks :: later)
    (hcounts : rollbackFailures j.rollbackResults ≤ j.rollbackFailures) :
    Honoured due runId (retry Γ o runId j s).store ↔
      ¬ ((o.second.reaches = true ∧ o.second.ingests = true ∧ o.second.finishes = true) ∧ j.rollbackFailures = 0 ∧
        ∃ stored, s.store.journals.find? (fun stored => stored.experimentId = j.experimentId) = some stored ∧
          stored.status ≠ .interrupted) := by
  have hstores : (stores o.second (o.cancelled 2) j && o.second.finishes) = true ↔
      o.second.reaches = true ∧ o.second.ingests = true ∧ o.second.finishes = true := by
    simp [stores, hstatus, and_assoc]
  cases hw : stores o.second (o.cancelled 2) j && o.second.finishes with
  | false =>
    obtain ⟨e, s', hrun, hst⟩ := recordCompletion_refused (Γ := Γ) hw runId s
    have hnot : ¬ (o.second.reaches = true ∧ o.second.ingests = true ∧ o.second.finishes = true) := by
      rw [← hstores, hw]
      exact Bool.false_ne_true
    refine iff_of_true ?_ fun h => hnot h.1
    rw [retry, Db.after, hrun]
    simp only [hst]
    exact honoured_unfinished hrow hshown
  | true =>
    obtain ⟨s', now, audit', hrun, hst⟩ := recordCompletion_accepted (Γ := Γ) hw hrow.one
    rw [retry, Db.after, hrun]
    simp only [hst, hstores.mp hw, and_self, true_and]
    have hended : stateOf j ≠ .rollbackPending ↔ j.rollbackFailures = 0 := by
      rcases stateOf_cases j with ⟨hpos, hs⟩ | ⟨hzero, hs⟩
      · simp [hs, Nat.pos_iff_ne_zero.mp hpos]
      · simp [hs, hzero, hstatus, terminalState]
    cases hfind : s.store.journals.find? (fun stored => decide (stored.experimentId = j.experimentId)) with
    | none =>
      have hfresh : ∀ stored ∈ s.store.journals, stored.experimentId ≠ j.experimentId := by
        simpa [List.find?_eq_none] using hfind
      rw [honoured_finished hrow.one hshown (fun _ => hstatus) hdue hcounts (find?_ingested_fresh hfresh)]
      simp
    | some stored =>
      rw [ingested_duplicate hfind, honoured_finished hrow.one hshown (fun _ => hstatus) hdue hcounts hfind, hended, hstatus]
      simp

/-- What the late cleanup adds is determined. -/
theorem LateResults.unique {journal : Journal} {o : Outcomes} {a b : Option (List ActivityResult)} (ha : LateResults journal o a)
    (hb : LateResults journal o b) : a = b := by
  unfold LateResults at ha hb
  split at ha
  · rw [if_pos ‹_›] at hb
    obtain ⟨ra, hra, rfl⟩ := ha
    obtain ⟨rb, hrb, rfl⟩ := hb
    rw [Except.ok.inj (hra.symm.trans hrb)]
  · rw [if_neg ‹_›] at hb
    rw [ha, hb]

/-- The split, for a worker that found its token cancelled after a first closure that was refused. -/
theorem split_iff {journal : Journal} {o : Outcomes} {late : Option (List ActivityResult)} (hlate : LateResults journal o late)
    (hw : (stores o.first (o.cancelled 0) journal && o.first.finishes) = false) (hstop : o.cancelled 1 = true)
    (hended : journal.status ≠ .interrupted) :
    Split journal o ↔ (o.second.reaches = true ∧ o.second.ingests = true ∧ o.second.finishes = true) ∧
      (interruptedJournal journal late o.nowNs).rollbackFailures = 0 ∧ stores o.first (o.cancelled 0) journal = true := by
  constructor
  · intro h
    obtain ⟨late', hlate', hclean⟩ := h.clean
    rw [hlate.unique hlate']
    exact ⟨h.retried, hclean, by simp [stores, h.stored.1, h.stored.2.1, h.stopped.1]⟩
  · rintro ⟨hretried, hclean, hstores⟩
    rw [hstores, Bool.true_and] at hw
    obtain ⟨⟨hreach, hcheck⟩, hingest⟩ : (o.first.reaches = true ∧ (o.cancelled 0 && decide (journal.status ≠ .interrupted)) = false) ∧
      o.first.ingests = true := by simpa only [stores, Bool.and_eq_true, Bool.not_eq_true'] using hstores
    have hrunning : o.cancelled 0 = false := by simpa [hended] using hcheck
    exact ⟨hended, ⟨hreach, hingest, hw⟩, ⟨hrunning, hstop⟩, ⟨late, hlate, hclean⟩, hretried⟩

/-- A retry with the altered journal is honoured unless evidence and state come apart. -/
theorem retry_interrupted {due : Prop} {runId : String} {journal : Journal} {o : Outcomes} {late : Option (List ActivityResult)}
    {s : Db.Session Evidence} (hlate : LateResults journal o late) (hran : CountsFailures journal)
    (hw : (stores o.first (o.cancelled 0) journal && o.first.finishes) = false) (hstop : o.cancelled 1 = true)
    (hended : journal.status ≠ .interrupted) (hrow : Unfinished runId s.store.store) (hshown : ∀ e ∈ s.store.history, e = .rollbacks)
    (hdue : due → ∃ later, s.store.history = .rollbacks :: later)
    (hmet : (∃ stored, s.store.journals.find? (fun stored => stored.experimentId = journal.experimentId) = some stored ∧
      stored.status ≠ .interrupted) ↔ stores o.first (o.cancelled 0) journal = true) :
    Honoured due runId (retry Γ o runId (interruptedJournal journal late o.nowNs) s).store ↔ ¬ Split journal o := by
  have hcounts : rollbackFailures (interruptedJournal journal late o.nowNs).rollbackResults ≤
      (interruptedJournal journal late o.nowNs).rollbackFailures := by
    cases late with
    | none => exact hran.ge
    | some results =>
      refine List.countP_mono_left fun r _ hr => ?_
      have hfailed : r.status = .failed := of_decide_eq_true hr
      simp [hfailed]
  rw [retry_honoured hrow hshown rfl hdue hcounts, split_iff hlate hw hstop hended, ← hmet]
  rfl

/-- A first closure that is accepted settles the run. -/
theorem accepted_honoured {runId : String} {journal : Journal} {s : Db.Session Evidence} {o : Outcomes}
    (hrow : Unfinished runId s.store.store) (hfresh : ∀ stored ∈ s.store.journals, stored.experimentId ≠ journal.experimentId)
    (hshown : s.store.history = []) (hran : CountsFailures journal)
    (hw : (stores o.first (o.cancelled 0) journal && o.first.finishes) = true) :
    StopHonoured runId journal o (completeOrCleanup Γ o runId journal s) := by
  obtain ⟨s₁, now, audit', hrun, hst⟩ := recordCompletion_accepted (Γ := Γ) hw hrow.one
  obtain ⟨⟨⟨-, hstop⟩, -⟩, -⟩ : ((o.first.reaches = true ∧ (o.cancelled 0 && decide (journal.status ≠ .interrupted)) = false) ∧
    o.first.ingests = true) ∧ o.first.finishes = true := by simpa only [stores, Bool.and_eq_true, Bool.not_eq_true'] using hw
  have hchecked : o.cancelled 0 = true → journal.status = .interrupted := by
    intro hc
    by_contra hne
    simp [hc, hne] at hstop
  unfold StopHonoured completeOrCleanup
  rw [hrun]
  intro t ht
  rw [List.mem_singleton.mp ht, hst]
  exact (honoured_finished hrow.one (by simp [hshown]) hchecked (fun hd => absurd (hchecked hd.1) hd.2.1) hran.ge
    (find?_ingested_fresh hfresh)).mpr fun _ => rfl

/-- A first closure that is refused: what the worker does next is honoured, unless evidence and state come apart. -/
theorem refused_honoured {runId : String} {journal : Journal} {s : Db.Session Evidence} {o : Outcomes}
    (hrow : Unfinished runId s.store.store) (hfresh : ∀ stored ∈ s.store.journals, stored.experimentId ≠ journal.experimentId)
    (hshown : s.store.history = []) (hran : CountsFailures journal)
    (hw : (stores o.first (o.cancelled 0) journal && o.first.finishes) = false) :
    StopHonoured runId journal o (completeOrCleanup Γ o runId journal s) ↔ ¬ Split journal o := by
  unfold StopHonoured completeOrCleanup
  obtain ⟨e, s₁, hrun, hst₁⟩ := recordCompletion_refused (Γ := Γ) hw runId s
  have h₁ : Unfinished runId s₁.store.store := by
    rw [hst₁]
    exact hrow
  obtain ⟨st₂, hst₂, h₂⟩ := serveStops_keeps (Γ := Γ) o.stops h₁
  have hshown₁ : s₁.store.history = [] := by
    rw [hst₁]
    exact hshown
  have hshown₂ : (serveStops Γ runId o.stops s₁).store.history = [] := by
    rw [hst₂]
    exact hshown₁
  have hrow₂ : Unfinished runId (serveStops Γ runId o.stops s₁).store.store := by
    rw [hst₂]
    exact h₂
  have hon₁ : Honoured (RollbacksDue journal o) runId s₁.store := honoured_unfinished h₁ (by simp [hshown₁])
  have hon₂ : Honoured (RollbacksDue journal o) runId (serveStops Γ runId o.stops s₁).store :=
    honoured_unfinished hrow₂ (by simp [hshown₂])
  have hjournals : (serveStops Γ runId o.stops s₁).store.journals =
      if stores o.first (o.cancelled 0) journal then ingested s.store.journals journal else s.store.journals := by
    rw [hst₂, hst₁]
  -- The journal that the retry meets is the first closure's, if it was stored.
  have hmet : (∃ stored, (serveStops Γ runId o.stops s₁).store.journals.find?
        (fun stored => stored.experimentId = journal.experimentId) = some stored ∧ stored.status ≠ .interrupted) ↔
      stores o.first (o.cancelled 0) journal = true ∧ journal.status ≠ .interrupted := by
    rw [hjournals]
    cases hs : stores o.first (o.cancelled 0) journal with
    | true =>
      rw [if_pos rfl, find?_ingested_fresh hfresh]
      simp
    | false =>
      have hnone : s.store.journals.find? (fun stored => decide (stored.experimentId = journal.experimentId)) = none := by
        simpa [List.find?_eq_none] using hfresh
      simp [hnone]
  simp only [hrun]
  by_cases hlate : (o.cancelled 1 && decide (journal.status ≠ .interrupted)) = true
  · obtain ⟨hstop, hended⟩ : o.cancelled 1 = true ∧ journal.status ≠ .interrupted := by simpa using hlate
    rw [if_pos hlate]
    simp only [hended, ne_eq, not_false_eq_true, and_true] at hmet
    by_cases hresults : journal.rollbackResults = []
    · rw [if_pos hresults]
      have hrow₃ : Unfinished runId (attemptRollbacks (serveStops Γ runId o.stops s₁)).store.store := hrow₂
      have hshown₃ : (attemptRollbacks (serveStops Γ runId o.stops s₁)).store.history = [.rollbacks] := by
        simp [attemptRollbacks, hshown₂]
      have hon₃ : Honoured (RollbacksDue journal o) runId (attemptRollbacks (serveStops Γ runId o.stops s₁)).store :=
        honoured_unfinished hrow₃ (by simp [hshown₃])
      cases hcleanup : o.cleanup with
      | error e =>
        obtain ⟨st₄, hst₄, h₄⟩ := failRun_keeps (Γ := accepting Γ o.failureRecorded) hrow₃ ("late-stop cleanup: " ++ e)
        have hon₄ : Honoured (RollbacksDue journal o) runId
            { (attemptRollbacks (serveStops Γ runId o.stops s₁)).store with store := st₄ } := honoured_unfinished h₄ (by simp [hshown₃])
        refine iff_of_true ?_ fun h => ?_
        · simp only [List.forall_mem_cons]
          exact ⟨hon₁, hon₂, hon₃, by rw [hst₄]; exact hon₄, by simp⟩
        · obtain ⟨late, hl, -⟩ := h.clean
          rw [LateResults, if_pos hresults, hcleanup] at hl
          obtain ⟨results, hok, -⟩ := hl
          cases hok
      | ok results =>
        have hl : LateResults journal o (some results) := by
          rw [LateResults, if_pos hresults]
          exact ⟨results, hcleanup, rfl⟩
        simp only [List.forall_mem_cons, hon₁, hon₂, hon₃, true_and, List.not_mem_nil, false_implies, implies_true, and_true]
        exact retry_interrupted hl hran hw hstop hended hrow₃ (by simp [hshown₃]) (fun _ => ⟨[], hshown₃⟩) hmet
    · rw [if_neg hresults]
      have hl : LateResults journal o none := by
        rw [LateResults, if_neg hresults]
      simp only [List.forall_mem_cons, hon₁, hon₂, true_and, List.not_mem_nil, false_implies, implies_true, and_true]
      exact retry_interrupted hl hran hw hstop hended hrow₂ (by simp [hshown₂]) (fun hd => absurd hd.2.2 hresults) hmet
  · rw [if_neg hlate]
    refine iff_of_true ?_ fun h => hlate ?_
    · simp only [List.forall_mem_cons]
      exact ⟨hon₁, hon₂, by simp⟩
    · simp [h.stopped.2, h.ended]

/-- A run that started, and its writer. -/
def runningRun : Db.Session Evidence :=
  ⟨⟨{ Store.empty with runs := [⟨"run-1", "reg-1", .running, none, none, none, none, 1, some 2, none, none⟩] }, [], []⟩, 0⟩

theorem runningRun_unfinished : Unfinished "run-1" runningRun.store.store := by
  refine ⟨rfl, ?_, ?_⟩
  · simp [runningRun]
  · simp [runningRun, RunState.isTerminal]

/-- The journal of a run that completed by itself. -/
def completedJournal : Journal := Journal.forExperiment { method := [nativeAction "inject latency"] } "exp-1" .completed 2

/-- The first closure fares as given, and the token is cancelled before the worker reads it again. -/
def stoppedAfter (first : WriteOutcome) : Outcomes where
  first := first
  second := ⟨true, true, true⟩
  cancelAt := some 1
  stops := [(some "alice", true)]
  cleanup := .ok [⟨"restore latency", .action, .succeeded, 3, 1, none, none⟩]
  failureRecorded := true
  nowNs := 4

end Tumult.Completion
