import Tumult.Lake.Approvals

/-!
# Fault ownership of single runs

A run whose execution began may have live faults; the row, its start time and its recovery plan say so together. Over any
sequence of run operations, each with any arguments and each possibly refused: a row that never started is in no state that owns
faults, a started row is never moved to a terminal state by a stop or a failure, a recovery plan exists exactly for the runs
whose begin committed, and an operation that reports an error changes nothing. The first part is about `finish_run` as its
callers use it: it writes whatever state it is given (`owned_runOps_false`).
-/

namespace Tumult

/-- The states in which a run may have live faults. -/
def RunState.ownsFaults (s : RunState) : Bool := s ∈ [.running, .stopping, .rollbackPending]

/-- The operations on single runs: the two that insert a run, and the six that move it. -/
inductive RunOp where
  | insertRun (run : NewRun) (context : Option RunContext)
  | insertGatedRun (run : NewRun) (req : ApprovalRequest) (detail : Option String) (context : Option RunContext)
  | claimRun (runId : String)
  | beginRunExecution (runId planJson : String) (approvalPin : Option String)
  | markRunStarted (runId : String) (experimentId : Option String)
  | requestRunStop (runId : String) (actor : Option String)
  | failRun (runId error : String)
  | finishRun (runId : String) (state : RunState) (experimentId rollbackStatus error : Option String)

/-- The writer's program for an operation. -/
def RunOp.exec (Γ : Ctx) : RunOp → Writer Unit
  | .insertRun run context => insertRunWithContext Γ run context
  | .insertGatedRun run req detail context => insertGatedRunWithContext Γ run req detail context
  | .claimRun runId => Tumult.claimRun Γ runId
  | .beginRunExecution runId planJson approvalPin => Tumult.beginRunExecution Γ runId planJson approvalPin
  | .markRunStarted runId experimentId => Tumult.markRunStarted Γ runId experimentId
  | .requestRunStop runId actor => Tumult.requestRunStop Γ runId actor
  | .failRun runId error => Tumult.failRun Γ runId error
  | .finishRun runId state experimentId rollbackStatus error =>
    Tumult.finishRun Γ runId state experimentId rollbackStatus error

variable {Γ : Ctx}

/-- A sequence of operations, one after the other, whatever each reports. -/
def runOps (Γ : Ctx) (ops : List RunOp) (s : Session) : Session := ops.foldl (fun s op => (op.exec Γ s).2) s

/-- The run a committed operation began, when it is a begin. -/
def RunOp.began (op : RunOp) (result : Except StoreError Unit) : List String :=
  match op, result with
  | .beginRunExecution runId _ _, .ok _ => [runId]
  | _, _ => []

/-- The runs whose begin committed in a sequence of operations, in order. -/
def begun (Γ : Ctx) : List RunOp → Session → List String
  | [], _ => []
  | op :: ops, s => op.began (op.exec Γ s).1 ++ begun Γ ops (op.exec Γ s).2

/-- How `finish_run` is called: a state that owns faults is written for started rows only. -/
def RunOp.Sound (op : RunOp) (st : Store) : Prop :=
  match op with
  | .finishRun runId state _ _ _ => state.ownsFaults = true → ∀ r ∈ st.runs, r.id = runId → r.startedAtNs ≠ none
  | _ => True

/-- Every operation of a sequence is called as its callers call it. -/
def SoundOps (Γ : Ctx) : List RunOp → Session → Prop
  | [], _ => True
  | op :: ops, s => op.Sound s.store ∧ SoundOps Γ ops (op.exec Γ s).2

/-- A row that never started is in no state that owns faults. -/
def RunRow.Owned (r : RunRow) : Prop := r.startedAtNs = none → r.state.ownsFaults = false

/-- Every row of the store is owned. -/
def Owned (st : Store) : Prop := ∀ r ∈ st.runs, r.Owned

/-! ## An operation that reports an error -/

/-- An operation that reports an error left the store as it was. -/
theorem RunOp.exec_error {op : RunOp} {s s' : Session} {e : StoreError} (h : op.exec Γ s = (.error e, s')) :
    s'.store = s.store := by
  cases op <;> exact Db.withTx_error h

/-- What an operation leaves: the store as it was, or what the operation does when it returns. -/
theorem RunOp.exec_cases (op : RunOp) (s : Session) :
    (op.exec Γ s).2.store = s.store ∨ op.exec Γ s = (.ok (), (op.exec Γ s).2) := by
  rcases h : op.exec Γ s with ⟨e | u, s'⟩
  · exact Or.inl (RunOp.exec_error h)
  · exact Or.inr rfl

/-! ## The first part: rows that never started -/

namespace OwnershipAux

/-- An update that keeps every matched row owned keeps the table owned. -/
theorem owned_updateWhere {st : Store} {p : RunRow → Bool} {f : RunRow → RunRow} {runs : List RunRow} (h : Owned st)
    (hf : ∀ r ∈ st.runs, p r = true → r.Owned → (f r).Owned) (hruns : runs = Db.updateWhere p f st.runs) :
    ∀ r ∈ runs, r.Owned := by
  subst hruns
  intro r hr
  obtain ⟨o, ho, rfl⟩ := Db.mem_updateWhere.mp hr
  split
  · exact hf o ho ‹_› (h o ho)
  · exact h o ho

/-- A new row is owned. -/
theorem owned_append {st : Store} (h : Owned st) {run : NewRun} {state : RunState} (hs : state.ownsFaults = false) :
    ∀ r ∈ st.runs ++ [run.row state], r.Owned := by
  intro r hr
  rcases List.mem_append.mp hr with hr | hr
  · exact h r hr
  · rw [List.mem_singleton.mp hr]
    exact fun _ => hs

/-- Step lemma of the first part, one case per operation. -/
theorem owned_exec {op : RunOp} {s : Session} (h : Owned s.store) (hop : op.Sound s.store) : Owned (op.exec Γ s).2.store := by
  rcases op.exec_cases (Γ := Γ) s with heq | hok
  · rw [heq]; exact h
  cases op with
  | insertRun run context =>
    obtain ⟨_, _, hstore⟩ := insertRunWithContext_ok hok
    rw [hstore]
    exact owned_append h rfl
  | insertGatedRun run req detail context =>
    obtain ⟨_, _, hstore⟩ := insertGatedRunWithContext_ok hok
    rw [hstore]
    exact owned_append h rfl
  | claimRun runId =>
    obtain ⟨_, _, _, hstore⟩ := claimRun_ok hok
    rw [hstore]
    exact owned_updateWhere h (fun r _ _ _ _ => rfl) rfl
  | beginRunExecution runId planJson approvalPin =>
    obtain ⟨_, now, _, _, _, hstore⟩ := beginRunExecution_ok hok
    rw [hstore]
    exact owned_updateWhere h (fun r _ _ _ hnone => absurd hnone (by simp)) rfl
  | markRunStarted runId experimentId =>
    obtain ⟨_, now, _, _, hstore⟩ := markRunStarted_ok hok
    rw [hstore]
    exact owned_updateWhere h (fun r _ _ _ hnone => absurd hnone (by simp)) rfl
  | requestRunStop runId actor =>
    obtain ⟨_, now, _, _, hstore⟩ := requestRunStop_ok hok
    rw [hstore]
    refine owned_updateWhere h (fun r _ _ _ hnone => ?_) rfl
    rw [stopRow_startedAtNs] at hnone
    rw [stopRow_state, if_pos hnone]
    rfl
  | failRun runId error =>
    obtain ⟨now, _, _, hstore⟩ := failRun_ok hok
    rw [hstore]
    refine owned_updateWhere h (fun r _ _ _ hnone => ?_) rfl
    rw [failRow_startedAtNs] at hnone
    rw [failRow_state, if_pos hnone]
    rfl
  | finishRun runId state experimentId rollbackStatus error =>
    obtain ⟨_, now, _, _, hstore⟩ := finishRun_ok hok
    rw [hstore]
    refine owned_updateWhere h (fun r hr hp _ hnone => ?_) rfl
    unfold finishable at hp
    have hid : r.id = runId := by simpa using (Bool.and_eq_true_iff.mp hp).1
    rw [← Bool.not_eq_true]
    intro howns
    exact hop howns r hr hid hnone

/-- Run lemma of the first part (induction on the operations). -/
theorem owned_runOps {ops : List RunOp} {s : Session} (h : Owned s.store) (hops : SoundOps Γ ops s) :
    Owned (runOps Γ ops s).store := by
  induction ops generalizing s with
  | nil => exact h
  | cons op ops ih => exact ih (owned_exec h hops.1) hops.2

/-! ## The second part: started rows -/

/-- A stop or a failure moves a started row nowhere but to `stopping` or `rollback_pending`. -/
theorem started_exec {op : RunOp} {runId : String} (hop : (∃ actor, op = .requestRunStop runId actor) ∨ ∃ e, op = .failRun runId e)
    (s : Session) {i : Nat} {r : RunRow} (hr : s.store.runs[i]? = some r) (hstarted : r.startedAtNs ≠ none) :
    ∃ r', (op.exec Γ s).2.store.runs[i]? = some r' ∧ r'.startedAtNs = r.startedAtNs ∧
      (r'.state = r.state ∨ r'.state = .stopping ∨ r'.state = .rollbackPending) := by
  rcases op.exec_cases (Γ := Γ) s with heq | hok
  · exact ⟨r, by rw [heq, hr], rfl, Or.inl rfl⟩
  rcases hop with ⟨actor, rfl⟩ | ⟨e, rfl⟩
  · obtain ⟨_, now, _, _, hstore⟩ := requestRunStop_ok hok
    refine ⟨if stoppable runId r then stopRow now r else r, by rw [hstore, Db.getElem?_updateWhere, hr]; rfl, ?_⟩
    split
    · rw [stopRow_startedAtNs, stopRow_state, if_neg hstarted]
      exact ⟨rfl, Or.inr (Or.inl rfl)⟩
    · exact ⟨rfl, Or.inl rfl⟩
  · obtain ⟨now, _, _, hstore⟩ := failRun_ok hok
    refine ⟨if failable runId r then failRow e now r else r, by rw [hstore, Db.getElem?_updateWhere, hr]; rfl, ?_⟩
    split
    · rw [failRow_startedAtNs, failRow_state, if_neg hstarted]
      exact ⟨rfl, Or.inr (Or.inr rfl)⟩
    · exact ⟨rfl, Or.inl rfl⟩

/-! ## The third part: recovery plans -/

/-- Step lemma of the third part: an operation adds a plan for the run it began, and nothing else touches the plans. -/
theorem plans_exec (op : RunOp) (s : Session) :
    (op.exec Γ s).2.store.plans.map (·.runId) = s.store.plans.map (·.runId) ++ op.began (op.exec Γ s).1 := by
  rcases h : op.exec Γ s with ⟨e | u, s'⟩
  · rw [RunOp.exec_error h]
    cases op <;> simp [RunOp.began]
  cases op with
  | insertRun run context =>
    obtain ⟨_, _, hstore⟩ := insertRunWithContext_ok h
    simp [hstore, RunOp.began]
  | insertGatedRun run req detail context =>
    obtain ⟨_, _, hstore⟩ := insertGatedRunWithContext_ok h
    simp [hstore, RunOp.began]
  | claimRun runId =>
    obtain ⟨_, _, _, hstore⟩ := claimRun_ok h
    simp [hstore, RunOp.began]
  | beginRunExecution runId planJson approvalPin =>
    obtain ⟨_, _, _, _, _, hstore⟩ := beginRunExecution_ok h
    simp [hstore, RunOp.began]
  | markRunStarted runId experimentId =>
    obtain ⟨_, _, _, _, hstore⟩ := markRunStarted_ok h
    simp [hstore, RunOp.began]
  | requestRunStop runId actor =>
    obtain ⟨_, _, _, _, hstore⟩ := requestRunStop_ok h
    simp [hstore, RunOp.began]
  | failRun runId error =>
    obtain ⟨_, _, _, hstore⟩ := failRun_ok h
    simp [hstore, RunOp.began]
  | finishRun runId state experimentId rollbackStatus error =>
    obtain ⟨_, _, _, _, hstore⟩ := finishRun_ok h
    simp [hstore, RunOp.began]

/-- Run lemma of the third part (induction on the operations). -/
theorem plans_runOps (ops : List RunOp) (s : Session) :
    (runOps Γ ops s).store.plans.map (·.runId) = s.store.plans.map (·.runId) ++ begun Γ ops s := by
  induction ops generalizing s with
  | nil => simp [runOps, begun]
  | cons op ops ih =>
    have hrun : runOps Γ (op :: ops) s = runOps Γ ops (op.exec Γ s).2 := rfl
    rw [hrun, ih, plans_exec, begun, List.append_assoc]

end OwnershipAux

open OwnershipAux

/-- Fault ownership, in four parts, over every sequence of operations on an empty store, each with any arguments and each
possibly refused, with `finish_run` called as its callers call it.
1. A row that never started is in no state that owns faults.
2. Whatever comes next, a stop or a failure moves a started row nowhere but to `stopping` or `rollback_pending`.
3. A recovery plan is stored for a run exactly when a begin committed for it.
4. Whatever comes next, an operation that reports an error leaves the runs, the recovery plans and the approvals as they were. -/
theorem fault_ownership (ops : List RunOp) (tick : Nat) (hops : SoundOps Γ ops ⟨Store.empty, tick⟩) :
    (∀ r ∈ (runOps Γ ops ⟨Store.empty, tick⟩).store.runs, r.startedAtNs = none → r.state.ownsFaults = false) ∧
    (∀ (op : RunOp) (runId : String), ((∃ actor, op = .requestRunStop runId actor) ∨ ∃ e, op = .failRun runId e) →
      ∀ (i : Nat) (r : RunRow), (runOps Γ ops ⟨Store.empty, tick⟩).store.runs[i]? = some r → r.startedAtNs ≠ none →
        ∃ r' : RunRow, (op.exec Γ (runOps Γ ops ⟨Store.empty, tick⟩)).2.store.runs[i]? = some r' ∧
          r'.startedAtNs = r.startedAtNs ∧
          (r'.state = r.state ∨ r'.state = .stopping ∨ r'.state = .rollbackPending)) ∧
    (∀ runId, (∃ p ∈ (runOps Γ ops ⟨Store.empty, tick⟩).store.plans, p.runId = runId) ↔
      runId ∈ begun Γ ops ⟨Store.empty, tick⟩) ∧
    (∀ op e s', RunOp.exec Γ op (runOps Γ ops ⟨Store.empty, tick⟩) = (.error e, s') →
      s'.store.runs = (runOps Γ ops ⟨Store.empty, tick⟩).store.runs ∧
      s'.store.plans = (runOps Γ ops ⟨Store.empty, tick⟩).store.plans ∧
      s'.store.approvals = (runOps Γ ops ⟨Store.empty, tick⟩).store.approvals) := by
  refine ⟨?_, ?_, ?_, ?_⟩
  · exact owned_runOps (fun r hr => by simp [Store.empty] at hr) hops
  · intro op runId hop i r hr hstarted
    exact started_exec hop _ hr hstarted
  · intro runId
    have hplans := plans_runOps (Γ := Γ) ops ⟨Store.empty, tick⟩
    have hnil : (Store.empty.plans.map (·.runId)) = [] := rfl
    rw [hnil, List.nil_append] at hplans
    rw [← hplans, List.mem_map]
  · intro op e s' h
    rw [RunOp.exec_error h]
    exact ⟨rfl, rfl, rfl⟩

/-- A store whose statements are all accepted. -/
def quietCtx : Ctx where
  sha256Hex := id
  clock := fun n => n
  fails := fun _ => false

/-- A run enqueued, claimed, begun, and left for cleanup when a rollback failed. -/
def cleanupOps : List RunOp :=
  [.insertRun ⟨"run-1", "def-1", none, 0, none⟩ none, .claimRun "run-1", .beginRunExecution "run-1" "[]" none,
    .finishRun "run-1" .rollbackPending none (some "failed") none]

/-- The run left for cleanup has started, and its recovery plan is stored. -/
theorem fault_ownership_cleanup :
    ∃ p ∈ (runOps quietCtx cleanupOps ⟨Store.empty, 0⟩).store.plans, p.runId = "run-1" := by
  have hsound : SoundOps quietCtx cleanupOps ⟨Store.empty, 0⟩ := by
    refine ⟨trivial, trivial, trivial, fun _ r hr _ => ?_, trivial⟩
    obtain rfl := List.mem_singleton.mp hr
    exact nofun
  exact ((fault_ownership (Γ := quietCtx) cleanupOps 0 hsound).2.2.1 "run-1").mpr (List.mem_singleton.mpr rfl)

/-- The first part fails when `finish_run` is given any state: a queued run finished as `rollback_pending` never started. -/
theorem owned_runOps_false :
    ¬ ∀ (Γ : Ctx) (ops : List RunOp) (tick : Nat), ∀ r ∈ (runOps Γ ops ⟨Store.empty, tick⟩).store.runs,
      r.startedAtNs = none → r.state.ownsFaults = false := by
  intro h
  have hrow := h quietCtx
    [.insertRun ⟨"run-1", "def-1", none, 0, none⟩ none, .finishRun "run-1" .rollbackPending none (some "failed") none] 0
    ⟨"run-1", "def-1", .rollbackPending, none, none, some "failed", none, 0, none, some 7, none⟩
    (List.mem_singleton.mpr rfl) rfl
  exact absurd hrow (by decide)

end Tumult
