import Tumult.Lake.Runs

/-!
# The approval operations

An approval request pins one gated run to one content hash with a quorum and an expiry; a decision is one approver's. The rules
the tables cannot state (one decision per approver, the approver is not the requester, decisions only while the run waits) are
checked by the writer.
-/

namespace Tumult

variable (Γ : Ctx)

/-- An approval request at insert time. -/
structure ApprovalRequest where
  runId : String
  tier : String
  pinHash : String
  env : String
  target : Option String
  quorumRequired : Int
  requestedBy : String
  requestedAtNs : Int
  expiresAtNs : Int
  deriving DecidableEq, Repr

/-- The row of a request: not consumed, not overridden. -/
def ApprovalRequest.row (req : ApprovalRequest) : ApprovalRow where
  runId := req.runId
  tier := req.tier
  pinHash := req.pinHash
  env := req.env
  target := req.target
  quorumRequired := req.quorumRequired
  requestedBy := req.requestedBy
  requestedAtNs := req.requestedAtNs
  expiresAtNs := req.expiresAtNs
  consumedAtNs := none
  breakGlass := false
  breakGlassBy := none
  breakGlassJustification := none

/-- Record an approval request for a gated run. -/
def insertApprovalRequest (req : ApprovalRequest) : Writer Unit := do
  let _ ← execute Γ (fun st => (1, { st with approvals := st.approvals ++ [req.row] }))

/-- Persist a gated run: the run row, waiting for approval, its request, and the audit event, in one transaction. -/
def insertGatedRunWithContext (run : NewRun) (req : ApprovalRequest) (detail : Option String) (context : Option RunContext) :
    Writer Unit := withTx Γ do
  insertRunRow Γ (run.row .pendingApproval)
  insertApprovalRequest Γ req
  insertRunAudit Γ run.id "requested" detail run.actor
  insertContext? Γ run.id context run.actor

/-- Record one approver's decision: one per approver, and never the requester's own. -/
def insertApprovalDecision (dec : ApprovalDecision) : Writer Unit := do
  let request ← query Γ (fun st => st.approvals.find? (fun a => a.runId = dec.runId))
  match request with
  | none => Db.throw (.internal s!"no approval request for run {dec.runId}")
  | some request =>
    if request.requestedBy = dec.approver then
      Db.throw (.internal s!"approver {dec.approver} is the requester — self-approval is forbidden")
    else do
      let existing ← query Γ (fun st => st.decisions.filter (fun d => d.runId = dec.runId && d.approver = dec.approver))
      if existing.isEmpty = false then
        Db.throw (.internal s!"approver {dec.approver} already decided on run {dec.runId}")
      else do
        let _ ← execute Γ (fun st => (1, { st with decisions := st.decisions ++ [dec] }))

/-- Refuse unless exactly one row of the run waits for approval. -/
def requirePendingApproval (runId : String) : Writer Unit := do
  let pending ← query Γ (fun st => st.runs.countP (fun r => r.id = runId && r.state = .pendingApproval))
  if pending ≠ 1 then Db.throw (.internal "run not awaiting approval") else pure ()

/-- Record a decision only while its run still awaits approval. -/
def insertPendingApprovalDecision (dec : ApprovalDecision) : Writer Unit := withTx Γ do
  requirePendingApproval Γ dec.runId
  insertApprovalDecision Γ dec

/-- Mark the request overridden. -/
def markBreakGlass (runId by_ justification : String) : Writer Unit := do
  let _ ← execute Γ (updateApprovals (fun a => a.runId = runId)
    (fun a => { a with breakGlass := true, breakGlassBy := some by_, breakGlassJustification := some justification }))

/-- Override only while the run still awaits approval. -/
def markPendingBreakGlass (runId by_ justification : String) : Writer Unit := withTx Γ do
  requirePendingApproval Γ runId
  markBreakGlass Γ runId by_ justification

/-! ## Reads -/

/-- The approval request for a run. -/
def Store.approvalRequest (st : Store) (runId : String) : Option ApprovalRow :=
  st.approvals.find? (fun a => a.runId = runId)

/-- All decisions on a run, oldest first. -/
def Store.approvalDecisions (st : Store) (runId : String) : List ApprovalDecision :=
  (st.decisions.filter (fun d => d.runId = runId)).insertionSort (fun a b => a.decidedAtNs ≤ b.decidedAtNs)

/-- Gated runs still waiting whose approval has lapsed. -/
def Store.expiredPendingApprovals (st : Store) (nowNs : Int) : List String :=
  st.runs.flatMap fun r => (st.approvals.filter (fun a => a.runId = r.id)).filterMap fun a =>
    if r.state = .pendingApproval ∧ a.expiresAtNs < nowNs then some r.id else none

/-! ## What each operation leaves -/

variable {Γ}

theorem insertGatedRunWithContext_ok {run : NewRun} {req : ApprovalRequest} {detail : Option String}
    {context : Option RunContext} {u : Unit} {s s' : Session}
    (h : insertGatedRunWithContext Γ run req detail context s = (.ok u, s')) :
    ∃ audit', AuditGrows Γ s.store.audit audit' ∧ s'.store = { s.store with
      runs := s.store.runs ++ [run.row .pendingApproval],
      approvals := s.store.approvals ++ [req.row],
      pins := s.store.pins ++ ((context.bind (·.executionHash)).map (ExecutionPin.mk run.id)).toList,
      audit := audit' } := by
  obtain ⟨s1, h, hs⟩ := Db.withTx_body h
  rw [hs]
  obtain ⟨_, s2, h2, h⟩ := Db.bind_ok.mp h
  unfold insertRunRow execute at h2
  obtain ⟨_, s3, h3, h2⟩ := Db.bind_ok.mp h2
  obtain ⟨-, -, rfl⟩ := Db.statement_ok.mp h3
  obtain ⟨-, rfl⟩ := Db.pure_ok.mp h2
  obtain ⟨_, s4, h4, h⟩ := Db.bind_ok.mp h
  unfold insertApprovalRequest execute at h4
  obtain ⟨_, s5, h5, h4⟩ := Db.bind_ok.mp h4
  obtain ⟨-, -, rfl⟩ := Db.statement_ok.mp h5
  obtain ⟨-, rfl⟩ := Db.pure_ok.mp h4
  obtain ⟨_, s6, h6, h⟩ := Db.bind_ok.mp h
  obtain ⟨audit', hgrow, hstore⟩ := insertContext?_ok h
  rw [insertRunAudit_ok h6] at hgrow hstore
  exact ⟨audit', (AuditGrows.one _ _ _).trans hgrow, hstore⟩

theorem requirePendingApproval_ok {runId : String} {u : Unit} {s s' : Session}
    (h : requirePendingApproval Γ runId s = (.ok u, s')) :
    s.store.runs.countP (fun r => r.id = runId && r.state = .pendingApproval) = 1 ∧ s' = s.next := by
  unfold requirePendingApproval query at h
  obtain ⟨n, s1, h1, h⟩ := Db.bind_ok.mp h
  obtain ⟨-, rfl, rfl⟩ := Db.query_ok.mp h1
  split at h
  · exact absurd h Db.throw_ok
  · rename_i hn
    exact ⟨not_not.mp hn, (Db.pure_ok.mp h).2⟩

/-- A decision that was recorded is by an approver who is not the requester and had not decided yet. -/
theorem insertApprovalDecision_ok {dec : ApprovalDecision} {u : Unit} {s s' : Session}
    (h : insertApprovalDecision Γ dec s = (.ok u, s')) :
    (∃ a, s.store.approvalRequest dec.runId = some a ∧ a.requestedBy ≠ dec.approver) ∧
      (∀ d ∈ s.store.decisions, d.runId = dec.runId → d.approver ≠ dec.approver) ∧
      s'.store = { s.store with decisions := s.store.decisions ++ [dec] } := by
  unfold insertApprovalDecision query execute at h
  obtain ⟨request, s1, h1, h⟩ := Db.bind_ok.mp h
  obtain ⟨-, hreq, rfl⟩ := Db.query_ok.mp h1
  cases request with
  | none => exact absurd h Db.throw_ok
  | some a =>
    simp only at h
    split at h
    · exact absurd h Db.throw_ok
    · rename_i hself
      obtain ⟨existing, s2, h2, h⟩ := Db.bind_ok.mp h
      obtain ⟨-, rfl, rfl⟩ := Db.query_ok.mp h2
      split at h
      · exact absurd h Db.throw_ok
      · rename_i hnone
        obtain ⟨n, s3, h3, h⟩ := Db.bind_ok.mp h
        obtain ⟨-, -, rfl⟩ := Db.statement_ok.mp h3
        obtain ⟨-, rfl⟩ := Db.pure_ok.mp h
        refine ⟨⟨a, hreq.symm, hself⟩, ?_, rfl⟩
        simpa using hnone

theorem insertPendingApprovalDecision_ok {dec : ApprovalDecision} {u : Unit} {s s' : Session}
    (h : insertPendingApprovalDecision Γ dec s = (.ok u, s')) :
    s.store.runs.countP (fun r => r.id = dec.runId && r.state = .pendingApproval) = 1 ∧
      (∃ a, s.store.approvalRequest dec.runId = some a ∧ a.requestedBy ≠ dec.approver) ∧
      (∀ d ∈ s.store.decisions, d.runId = dec.runId → d.approver ≠ dec.approver) ∧
      s'.store = { s.store with decisions := s.store.decisions ++ [dec] } := by
  obtain ⟨s1, h, hs⟩ := Db.withTx_body h
  rw [hs]
  obtain ⟨_, s2, h2, h⟩ := Db.bind_ok.mp h
  obtain ⟨hn, rfl⟩ := requirePendingApproval_ok h2
  obtain ⟨hreq, hfresh, hstore⟩ := insertApprovalDecision_ok h
  exact ⟨hn, hreq, hfresh, hstore⟩

theorem markPendingBreakGlass_ok {runId by_ justification : String} {u : Unit} {s s' : Session}
    (h : markPendingBreakGlass Γ runId by_ justification s = (.ok u, s')) :
    s.store.runs.countP (fun r => r.id = runId && r.state = .pendingApproval) = 1 ∧
      s'.store = { s.store with
        approvals := Db.updateWhere (fun a => a.runId = runId)
          (fun a => { a with breakGlass := true, breakGlassBy := some by_, breakGlassJustification := some justification })
          s.store.approvals } := by
  obtain ⟨s1, h, hs⟩ := Db.withTx_body h
  rw [hs]
  obtain ⟨_, s2, h2, h⟩ := Db.bind_ok.mp h
  obtain ⟨hn, rfl⟩ := requirePendingApproval_ok h2
  unfold markBreakGlass execute at h
  obtain ⟨n, s3, h3, h⟩ := Db.bind_ok.mp h
  obtain ⟨-, -, rfl⟩ := Db.statement_ok.mp h3
  obtain ⟨-, rfl⟩ := Db.pure_ok.mp h
  exact ⟨hn, rfl⟩

end Tumult
