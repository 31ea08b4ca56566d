import Tumult.Daemon.Moves

/-!
# The approval gate

What the approval tables keep over every step of the daemon. `Store.Gated` is the invariant: one request a run and one decision an
approver, nobody approves a run they requested, a rejected run waits no more, and a run that is queued has a request that is
cleared, by an override or by its quorum. `Persists` is what never goes away: a request keeps what it pins and stays consumed or
overridden once it is, approvals and execution pins stay, a started run stays started.
-/

namespace Tumult

/-- Approvals recorded for a run. -/
def Store.approvedCount (st : Store) (runId : String) : Nat :=
  st.decisions.countP (fun dec => dec.runId = runId && dec.decision = .approved)

/-- The request clears its run: it is overridden, or its quorum has approved. -/
def Store.Cleared (st : Store) (a : ApprovalRow) : Prop :=
  a.breakGlass = true ∨ a.quorumRequired ≤ st.approvedCount a.runId

/-- The approval tables between two steps. -/
structure Store.Gated (st : Store) : Prop where
  ids : (st.runs.map RunRow.id).Nodup
  requests : (st.approvals.map (·.runId)).Nodup
  decisions : (st.decisions.map fun dec => (dec.runId, dec.approver)).Nodup
  others : ∀ dec ∈ st.decisions, ∀ a ∈ st.approvals, a.runId = dec.runId → a.requestedBy ≠ dec.approver
  rejected : ∀ dec ∈ st.decisions, dec.decision = .rejected → ∀ r ∈ st.runs, r.id = dec.runId → r.state.isWaiting = false
  cleared : ∀ r ∈ st.runs, r.state = .queued ∨ r.state = .validating → ∀ a ∈ st.approvals, a.runId = r.id → st.Cleared a
  started : ∀ r ∈ st.runs, r.state.isWaiting = true → r.startedAtNs = none

/-- What a request keeps. -/
structure ApprovalKeeps (a a' : ApprovalRow) : Prop where
  runId : a'.runId = a.runId
  tier : a'.tier = a.tier
  pinHash : a'.pinHash = a.pinHash
  env : a'.env = a.env
  target : a'.target = a.target
  quorumRequired : a'.quorumRequired = a.quorumRequired
  requestedBy : a'.requestedBy = a.requestedBy
  expiresAtNs : a'.expiresAtNs = a.expiresAtNs
  consumed : a.consumedAtNs ≠ none → a'.consumedAtNs ≠ none
  overridden : a.breakGlass = true → a'.breakGlass = true

theorem ApprovalKeeps.refl (a : ApprovalRow) : ApprovalKeeps a a :=
  ⟨rfl, rfl, rfl, rfl, rfl, rfl, rfl, rfl, fun h => h, fun h => h⟩

theorem ApprovalKeeps.trans {a b c : ApprovalRow} (h : ApprovalKeeps a b) (h' : ApprovalKeeps b c) : ApprovalKeeps a c :=
  ⟨h'.runId.trans h.runId, h'.tier.trans h.tier, h'.pinHash.trans h.pinHash, h'.env.trans h.env, h'.target.trans h.target,
    h'.quorumRequired.trans h.quorumRequired, h'.requestedBy.trans h.requestedBy, h'.expiresAtNs.trans h.expiresAtNs,
    fun hc => h'.consumed (h.consumed hc), fun ho => h'.overridden (h.overridden ho)⟩

/-- What never goes away. -/
structure Persists (st st' : Store) : Prop where
  request : ∀ x a, st.approvalRequest x = some a → ∃ a', st'.approvalRequest x = some a' ∧ ApprovalKeeps a a'
  approved : ∀ x, st.approvedCount x ≤ st'.approvedCount x
  pin : ∀ x hash, st.runExecutionHash x = some hash → st'.runExecutionHash x = some hash

/-- A request that is found is in the table, under its run. -/
theorem Store.approvalRequest_mem {st : Store} {x : String} {a : ApprovalRow} (h : st.approvalRequest x = some a) :
    a ∈ st.approvals ∧ a.runId = x :=
  ⟨List.mem_of_find?_eq_some h, by simpa using List.find?_some h⟩

/-- With one request a run, a request in the table is the one that is found. -/
theorem Store.Gated.request_unique {st : Store} (h : st.Gated) {x : String} {a b : ApprovalRow}
    (ha : st.approvalRequest x = some a) (hb : b ∈ st.approvals) (hid : b.runId = x) : b = a := by
  obtain ⟨hmem, hx⟩ := Store.approvalRequest_mem ha
  exact List.inj_on_of_nodup_map h.requests hb hmem (hid.trans hx.symm)

/-- The decisions a dispatch counts are those recorded. -/
theorem approvedCount_approvalDecisions (st : Store) (x : String) :
    approvedCount (st.approvalDecisions x) = st.approvedCount x := by
  unfold approvedCount Store.approvalDecisions Store.approvedCount
  rw [(List.perm_insertionSort _ _).countP_eq, List.countP_filter]
  refine List.countP_congr fun dec _ => ?_
  simp [and_comm]

/-! ## The invariant over a closure -/

variable {lv : Leave} {st st' : Store}

/-- The tables that are only added to. -/
theorem Moves.persists (h : Moves lv st st')
    (hrequest : ∀ x a, st.approvalRequest x = some a → ∃ a', st'.approvalRequest x = some a' ∧ ApprovalKeeps a a')
    (hdec : st.decisions <+: st'.decisions) : Persists st st' := by
  refine ⟨hrequest, fun x => hdec.sublist.countP_le, fun x hash hpin => ?_⟩
  obtain ⟨more, hmore⟩ := h.pins
  unfold Store.runExecutionHash at hpin ⊢
  obtain ⟨pin, hfind, hhash⟩ := Option.map_eq_some_iff.mp hpin
  rw [← hmore, List.find?_append, hfind]
  exact congrArg some hhash

/-- What a closure owes the gate: it opens a run that is cleared, a request it adds is of a run it adds, and a decision it adds is
the approver's first, by somebody else than the requester, of a run that waits no more when it is rejected. -/
theorem Store.Gated.step (hg : st.Gated) (hm : Moves lv st st')
    (hopen : ∀ x ∈ lv.opens, ∀ a ∈ st.approvals, a.runId = x → st.Cleared a)
    (hrequests : (st'.approvals.map (·.runId)).Nodup)
    (hold : ∀ a' ∈ st'.approvals, (∃ a ∈ st.approvals, ApprovalKeeps a a') ∨
      (st.Fresh a'.runId ∧ ∀ r ∈ st'.runs, r.id = a'.runId → r.state = .pendingApproval))
    {new : List ApprovalDecision} (hdec : st'.decisions = st.decisions ++ new)
    (hnew : (st'.decisions.map fun dec => (dec.runId, dec.approver)).Nodup)
    (hothers : ∀ dec ∈ new, ∀ a ∈ st'.approvals, a.runId = dec.runId → a.requestedBy ≠ dec.approver)
    (hrejected : ∀ dec ∈ new, dec.decision = .rejected → ∀ r ∈ st'.runs, r.id = dec.runId → r.state.isWaiting = false) :
    st'.Gated := by
  have hcount : ∀ x, st.approvedCount x ≤ st'.approvedCount x := by
    intro x
    unfold Store.approvedCount
    rw [hdec, List.countP_append]
    omega
  have hkeep : ∀ a a', ApprovalKeeps a a' → st.Cleared a → st'.Cleared a' := by
    intro a a' hk hc
    rcases hc with hc | hc
    · exact Or.inl (hk.overridden hc)
    · refine Or.inr ?_
      have := hcount a.runId
      rw [hk.quorumRequired, hk.runId]
      omega
  refine ⟨hm.uniq hg.ids, hrequests, hnew, ?_, ?_, ?_, ?_⟩
  · intro dec hmem a' ha' hid
    rw [hdec] at hmem
    rcases List.mem_append.mp hmem with hmem | hmem
    · rcases hold a' ha' with ⟨a, ha, hk⟩ | ⟨hfresh, -⟩
      · rw [hk.requestedBy]
        exact hg.others dec hmem a ha (by rw [← hk.runId]; exact hid)
      · exact absurd hid.symm (hfresh.decisions dec hmem)
    · exact hothers dec hmem a' ha' hid
  · intro dec hmem hrej r' hr' hid
    rw [hdec] at hmem
    rcases List.mem_append.mp hmem with hmem | hmem
    · rcases hm.origin hr' with ⟨r, hr, hk⟩ | ⟨hfresh, -⟩
      · by_contra hw
        have hwas := hk.waited (by simpa using hw)
        rw [hg.rejected dec hmem hrej r hr (by rw [← hk.id]; exact hid)] at hwas
        nomatch hwas
      · exact absurd hid.symm (hfresh.decisions dec hmem)
    · exact hrejected dec hmem hrej r' hr' hid
  · intro r' hr' hq a' ha' hid
    rcases hm.origin hr' with ⟨r, hr, hk⟩ | ⟨hfresh, -⟩
    · rcases hold a' ha' with ⟨a, ha, hka⟩ | ⟨hfresh, -⟩
      · have haid : a.runId = r.id := by rw [← hka.runId, ← hk.id]; exact hid
        rcases hk.queued hq with hq | ⟨-, ho⟩
        · exact hkeep a a' hka (hg.cleared r hr hq a ha haid)
        · exact hkeep a a' hka (hopen _ ho a ha haid)
      · exact absurd (hk.id.symm.trans hid.symm) (hfresh.runs r hr)
    · rcases hold a' ha' with ⟨a, ha, hka⟩ | ⟨-, hpend⟩
      · exact absurd (by rw [← hka.runId]; exact hid) (hfresh.approvals a ha)
      · rw [hpend r' hr' hid.symm] at hq
        rcases hq with hq | hq <;> nomatch hq
  · intro r' hr' hw
    rcases hm.origin hr' with ⟨r, hr, hk⟩ | ⟨-, hstart, -⟩
    · rw [hk.waiting hw]
      exact hg.started r hr (hk.waited hw)
    · exact hstart hw

/-- A closure that writes no approvals and no decisions. -/
theorem Store.Gated.step_ungated (hg : st.Gated) (hm : Moves lv st st') (hgates : lv.gates = false)
    (hopen : ∀ x ∈ lv.opens, ∀ a ∈ st.approvals, a.runId = x → st.Cleared a) : st'.Gated ∧ Persists st st' := by
  obtain ⟨ha, hd⟩ := hm.gates hgates
  have hnil : st'.decisions = st.decisions ++ [] := by rw [hd, List.append_nil]
  refine ⟨hg.step hm hopen (by rw [ha]; exact hg.requests) ?_ hnil (by rw [hd]; exact hg.decisions)
    (fun _ h => absurd h List.not_mem_nil) (fun _ h => absurd h List.not_mem_nil), hm.persists ?_ (by rw [hd])⟩
  · intro a' ha'
    rw [ha] at ha'
    exact Or.inl ⟨a', ha', ApprovalKeeps.refl a'⟩
  · intro x a hx
    refine ⟨a, ?_, ApprovalKeeps.refl a⟩
    unfold Store.approvalRequest at hx ⊢
    rw [ha]
    exact hx

/-- A closure that rewrites requests in place. -/
theorem Store.Gated.step_requests (hg : st.Gated) (hm : Moves lv st st') (hopens : lv.opens = none)
    {p : ApprovalRow → Bool} {f : ApprovalRow → ApprovalRow} (hf : ∀ a, ApprovalKeeps a (f a))
    (ha : st'.approvals = Db.updateWhere p f st.approvals) (hd : st'.decisions = st.decisions) : st'.Gated ∧ Persists st st' := by
  have hnil : st'.decisions = st.decisions ++ [] := by rw [hd, List.append_nil]
  have hkeys : st'.approvals.map (·.runId) = st.approvals.map (·.runId) := by
    rw [ha]
    exact Db.map_updateWhere (fun a => (hf a).runId) _
  refine ⟨hg.step hm (fun x hx => absurd hx (by simp [hopens])) (by rw [hkeys]; exact hg.requests) ?_ hnil
    (by rw [hd]; exact hg.decisions) (fun _ h => absurd h List.not_mem_nil) (fun _ h => absurd h List.not_mem_nil),
    hm.persists ?_ (by rw [hd])⟩
  · intro a' ha'
    rw [ha] at ha'
    obtain ⟨o, ho, rfl⟩ := Db.mem_updateWhere.mp ha'
    refine Or.inl ⟨o, ho, ?_⟩
    split
    · exact hf o
    · exact ApprovalKeeps.refl o
  · intro x a hx
    refine ⟨if p a then f a else a, ?_, ?_⟩
    · unfold Store.approvalRequest at hx ⊢
      rw [ha, Db.find?_updateWhere (fun r => by rw [(hf r).runId]), hx]
      rfl
    · split
      · exact hf a
      · exact ApprovalKeeps.refl a

/-- A closure that records a decision of a run that waits, and leaves the requests. -/
theorem Store.Gated.step_decision (hg : st.Gated) (dec : ApprovalDecision) (hm : Moves lv st st') (hopens : lv.opens = none)
    (ha : st'.approvals = st.approvals) (hd : st'.decisions = st.decisions ++ [dec])
    (hreq : ∃ a, st.approvalRequest dec.runId = some a ∧ a.requestedBy ≠ dec.approver)
    (hfirst : ∀ o ∈ st.decisions, o.runId = dec.runId → o.approver ≠ dec.approver)
    (hrejected : dec.decision = .rejected → ∀ r ∈ st'.runs, r.id = dec.runId → r.state.isWaiting = false) :
    st'.Gated ∧ Persists st st' := by
  refine ⟨hg.step hm (fun x hx => absurd hx (by simp [hopens])) (by rw [ha]; exact hg.requests) ?_ hd ?_ ?_ ?_, hm.persists ?_ ?_⟩
  · intro a' ha'
    rw [ha] at ha'
    exact Or.inl ⟨a', ha', ApprovalKeeps.refl a'⟩
  · rw [hd, List.map_append, List.map_singleton]
    refine List.nodup_append.mpr ⟨hg.decisions, List.nodup_singleton _, ?_⟩
    intro k hk k' hk' hkk
    obtain ⟨o, ho, rfl⟩ := List.mem_map.mp hk
    rw [List.mem_singleton.mp hk'] at hkk
    obtain ⟨hrun, happrover⟩ := Prod.mk.inj hkk
    exact hfirst o ho hrun happrover
  · intro o ho a ha' hid
    obtain rfl := List.mem_singleton.mp ho
    obtain ⟨b, hb, hne⟩ := hreq
    rw [ha] at ha'
    rw [hg.request_unique hb ha' hid]
    exact hne
  · intro o ho hrej
    obtain rfl := List.mem_singleton.mp ho
    exact hrejected hrej
  · intro x a hx
    refine ⟨a, ?_, ApprovalKeeps.refl a⟩
    unfold Store.approvalRequest at hx ⊢
    rw [ha]
    exact hx
  · rw [hd]
    exact List.prefix_append _ _

/-! ## The closures that write approvals and decisions -/

/-- What every closure of the daemon does to the gate. -/
def Store.GateKept (st st' : Store) : Prop := st.Gated → st'.Gated ∧ Persists st st'

theorem Persists.refl (st : Store) : Persists st st :=
  ⟨fun _ a h => ⟨a, h, ApprovalKeeps.refl a⟩, fun _ => Nat.le_refl _, fun _ _ h => h⟩

theorem Persists.trans {a b c : Store} (h : Persists a b) (h' : Persists b c) : Persists a c := by
  refine ⟨fun x r hr => ?_, fun x => Nat.le_trans (h.approved x) (h'.approved x), fun x hash hp => h'.pin x hash (h.pin x hash hp)⟩
  obtain ⟨r', hr', hk⟩ := h.request x r hr
  obtain ⟨r'', hr'', hk'⟩ := h'.request x r' hr'
  exact ⟨r'', hr'', hk.trans hk'⟩

theorem Store.GateKept.refl (st : Store) : st.GateKept st := fun hg => ⟨hg, Persists.refl st⟩

theorem Store.GateKept.trans (a b c : Store) (h : a.GateKept b) (h' : b.GateKept c) : a.GateKept c := by
  intro ha
  obtain ⟨hb, hab⟩ := h ha
  obtain ⟨hc, hbc⟩ := h' hb
  exact ⟨hc, hab.trans hbc⟩

/-- A closure that writes no approvals and no decisions, and opens no run. -/
theorem Moves.gateKept (hm : Moves lv st st') (hgates : lv.gates = false) (hopens : lv.opens = none) : st.GateKept st' :=
  fun hg => hg.step_ungated hm hgates (fun x hx => absurd hx (by simp [hopens]))

section Closures

variable {Γ : Ctx} {s : Session}

/-- A transaction keeps the gate when it does so where it returns. -/
theorem gateKept_of_tx {w body : Writer Unit} (hw : w = withTx Γ body) (hm : Moves lv s.store (w s).2.store)
    (h : ∀ s', w s = (.ok (), s') → Moves lv s.store s'.store → s.store.GateKept s'.store) :
    s.store.GateKept (w s).2.store := by
  rcases hr : w s with ⟨e | u, s'⟩
  · subst hw
    rw [Db.withTx_error hr]
    exact Store.GateKept.refl _
  · rw [hr] at hm
    exact h s' hr hm

theorem insertRunAudit_gateKept {runId event : String} {detail actor : Option String} :
    s.store.GateKept (insertRunAudit Γ runId event detail actor s).2.store := by
  have hm : Moves {} s.store (insertRunAudit Γ runId event detail actor s).2.store := insertRunAudit_moves
  exact hm.gateKept rfl rfl

theorem beginRunExecution_gateKept {runId planJson : String} {pin : Option String} :
    s.store.GateKept (beginRunExecution Γ runId planJson pin s).2.store := by
  have hm : Moves { gates := true } s.store (beginRunExecution Γ runId planJson pin s).2.store :=
    beginRunExecution_moves rfl
  refine gateKept_of_tx rfl hm fun s' h hm' => ?_
  obtain ⟨_, now, _, _, _, hstore⟩ := beginRunExecution_ok h
  intro hg
  refine hg.step_requests hm' rfl (f := fun a => { a with consumedAtNs := some now }) (fun a => ?_) (by rw [hstore]) (by rw [hstore])
  exact ⟨rfl, rfl, rfl, rfl, rfl, rfl, rfl, rfl, fun _ => by simp, fun h => h⟩

theorem markPendingBreakGlass_gateKept {runId username justification : String} :
    s.store.GateKept (markPendingBreakGlass Γ runId username justification s).2.store := by
  have hm : Moves { gates := true } s.store (markPendingBreakGlass Γ runId username justification s).2.store :=
    markPendingBreakGlass_moves rfl
  refine gateKept_of_tx rfl hm fun s' h hm' => ?_
  obtain ⟨_, hstore⟩ := markPendingBreakGlass_ok h
  intro hg
  refine hg.step_requests hm' rfl
    (f := fun a => { a with breakGlass := true, breakGlassBy := some username, breakGlassJustification := some justification })
    (fun a => ?_) (by rw [hstore]) (by rw [hstore])
  exact ⟨rfl, rfl, rfl, rfl, rfl, rfl, rfl, rfl, fun h => h, fun _ => rfl⟩

theorem breakGlassWrites_gateKept {runId username justification : String} {actor : Option String} :
    s.store.GateKept (breakGlassWrites Γ runId username justification actor s).2.store :=
  Db.bind_store Store.GateKept.trans markPendingBreakGlass_gateKept fun _ _ _ => insertRunAudit_gateKept

theorem approveWrites_gateKept {dec : ApprovalDecision} {detail actor : Option String} (hd : dec.decision = .approved) :
    s.store.GateKept (approveWrites Γ dec detail actor s).2.store := by
  refine Db.bind_store Store.GateKept.trans ?_ fun _ _ _ => insertRunAudit_gateKept
  have hm : Moves { gates := true } s.store (insertPendingApprovalDecision Γ dec s).2.store :=
    insertPendingApprovalDecision_moves rfl
  refine gateKept_of_tx rfl hm fun s' h hm' => ?_
  obtain ⟨_, hreq, hfirst, hstore⟩ := insertPendingApprovalDecision_ok h
  intro hg
  refine hg.step_decision dec hm' rfl (by rw [hstore]) (by rw [hstore]) hreq hfirst (fun hrej => ?_)
  rw [hd] at hrej
  nomatch hrej

/-- A rejection that returned recorded the decision, and left no row of the run waiting. -/
theorem rejectWrites_ok {dec : ApprovalDecision} {u : Unit} {s' : Session} (h : rejectWrites Γ dec s = (.ok u, s'))
    (hids : (s.store.runs.map RunRow.id).Nodup) :
    (∃ a, s.store.approvalRequest dec.runId = some a ∧ a.requestedBy ≠ dec.approver) ∧
      (∀ o ∈ s.store.decisions, o.runId = dec.runId → o.approver ≠ dec.approver) ∧
      s'.store.approvals = s.store.approvals ∧ s'.store.decisions = s.store.decisions ++ [dec] ∧
      ∀ r ∈ s'.store.runs, r.id = dec.runId → r.state.isWaiting = false := by
  obtain ⟨_, s1, h1, h2⟩ := Db.bind_ok.mp h
  obtain ⟨_, hreq, hfirst, hstore1⟩ := insertPendingApprovalDecision_ok h1
  obtain ⟨hn, now, audit', _, hstore⟩ := finishRun_ok h2
  refine ⟨hreq, hfirst, by rw [hstore, hstore1], by rw [hstore, hstore1], fun r' hr' hid => ?_⟩
  have hcount : s.store.runs.countP (finishable dec.runId .rejected) = 1 := by
    rw [hstore1] at hn
    exact hn
  rw [hstore, hstore1] at hr'
  have hpos : 0 < s.store.runs.countP (finishable dec.runId .rejected) := by omega
  obtain ⟨r, hr, hp⟩ := List.countP_pos_iff.mp hpos
  have hrid : r.id = dec.runId := by simpa using (Bool.and_eq_true_iff.mp hp).1
  obtain ⟨o, ho, rfl⟩ := Db.mem_updateWhere.mp hr'
  have hoid : o.id = dec.runId := by
    split at hid
    · exact hid
    · exact hid
  obtain rfl := List.inj_on_of_nodup_map hids ho hr (hoid.trans hrid.symm)
  rw [if_pos hp]
  rfl

theorem rejectWrites_gateKept {dec : ApprovalDecision} {u : Unit} {s' : Session} (h : rejectWrites Γ dec s = (.ok u, s')) :
    s.store.GateKept s'.store := by
  have hm : Moves { gates := true } s.store (rejectWrites Γ dec s).2.store := rejectWrites_moves rfl
  rw [h] at hm
  intro hg
  obtain ⟨hreq, hfirst, ha, hd, hrejected⟩ := rejectWrites_ok h hg.ids
  exact hg.step_decision dec hm rfl ha hd hreq hfirst (fun _ => hrejected)

theorem insertGatedRunWithContext_gateKept {run : NewRun} {req : ApprovalRequest} {detail : Option String}
    {context : Option RunContext} (hfresh : s.store.Fresh run.id) (hreq : req.runId = run.id) :
    s.store.GateKept (insertGatedRunWithContext Γ run req detail context s).2.store := by
  have hm : Moves { submits := some run.registryId, gates := true } s.store
      (insertGatedRunWithContext Γ run req detail context s).2.store := insertGatedRunWithContext_moves rfl rfl hfresh
  refine gateKept_of_tx rfl hm fun s' h hm' => ?_
  obtain ⟨_, _, hstore⟩ := insertGatedRunWithContext_ok h
  intro hg
  have hnil : s'.store.decisions = s.store.decisions ++ [] := by rw [hstore, List.append_nil]
  refine ⟨hg.step hm' (fun x hx => nomatch hx) ?_ ?_ hnil (by rw [hstore]; exact hg.decisions)
    (fun _ h => absurd h List.not_mem_nil) (fun _ h => absurd h List.not_mem_nil), hm'.persists ?_ (by rw [hstore])⟩
  · rw [hstore, List.map_append, List.map_singleton]
    refine List.nodup_append.mpr ⟨hg.requests, List.nodup_singleton _, ?_⟩
    intro k hk k' hk' hkk
    obtain ⟨a, ha, rfl⟩ := List.mem_map.mp hk
    rw [List.mem_singleton.mp hk'] at hkk
    exact hfresh.approvals a ha (hkk.trans hreq)
  · intro a' ha'
    rw [hstore] at ha'
    rcases List.mem_append.mp ha' with ha' | ha'
    · exact Or.inl ⟨a', ha', ApprovalKeeps.refl a'⟩
    · obtain rfl := List.mem_singleton.mp ha'
      have hid : req.row.runId = run.id := hreq
      rw [hid, hstore]
      refine Or.inr ⟨hfresh, fun r hr hrid => ?_⟩
      rcases List.mem_append.mp hr with hr | hr
      · exact absurd hrid (hfresh.runs r hr)
      · rw [List.mem_singleton.mp hr]
        rfl
  · intro x a hx
    refine ⟨a, ?_, ApprovalKeeps.refl a⟩
    unfold Store.approvalRequest at hx ⊢
    rw [hstore, List.find?_append, hx]
    rfl

end Closures

end Tumult
