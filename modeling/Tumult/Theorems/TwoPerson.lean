import Tumult.Daemon.Gate

/-!
# Two persons for a gated run

What holds when the execution of a gated run begins. The request was read when the run was dispatched, its pin was checked when a
worker took the run, its expiry and its single use are checked in the transaction that begins: the checks stand at different points,
and what a task relies on between them (`Task.Relies`) is only what never goes away (`Persists`), so that no order of approvals,
rejections, overrides, expiries and stops disturbs it.
-/

namespace Tumult

variable {Γ : DaemonCtx}

/-! ## What a task relies on -/

/-- The stored request is the one that was read, as far as it never changes. -/
def Store.ApprovalRead (st : Store) (runId : String) (a : ApprovalRow) : Prop :=
  ∃ b, st.approvalRequest runId = some b ∧ ApprovalKeeps a b

/-- The run has a request, and it is cleared. -/
def Store.ClearedRun (st : Store) (runId : String) : Prop := ∃ a, st.approvalRequest runId = some a ∧ st.Cleared a

/-- The pin of a gated item is the one its request stores, for the environment and the target it stores. -/
def WorkItem.Held (st : Store) (item : WorkItem) : Prop :=
  ∀ pin ∈ item.approvalPin, ∃ a, st.approvalRequest item.runId = some a ∧ a.pinHash = pin ∧ a.env = item.request.env ∧
    a.target = item.request.target

/-- The inputs of a gated item hash to its pin. -/
def WorkItem.Verified (Γ : Ctx) (item : WorkItem) : Prop := ∀ pin ∈ item.approvalPin, item.request.pin Γ = pin

/-- What a gated run resolved to has the fingerprint that was pinned at submission, and no higher tier than was approved. -/
structure Validated (Γ : DaemonCtx) (st : Store) (item : WorkItem) (p : Γ.Prepared) : Prop where
  hash : ∃ hash, st.runExecutionHash item.runId = some hash ∧ Γ.executionHash p = .ok hash
  tier : ∃ a n binding tier, st.approvalRequest item.runId = some a ∧
    Γ.classifyExecution n p item.request.env item.request.target binding = .ok tier ∧ ¬ a.tier < tier.asStr

/-- What a worker relies on. -/
def WorkerPoint.Relies (st : Store) : WorkerPoint Γ → Prop
  | .dequeued item | .registered item _ | .readQueued item _ => item.Held st
  | .verified item _ | .claimed item _ | .prepared item _ _ => item.Held st ∧ item.Verified Γ.toCtx
  | .planned item _ p _ | .starting item _ p _ =>
    item.Held st ∧ item.Verified Γ.toCtx ∧ (item.approvalPin ≠ none → Validated Γ st item p)
  | _ => True

/-- What a dispatch relies on. -/
def DispatchPoint.Relies (st : Store) : DispatchPoint → Prop
  | .run _ | .approval _ _ => True
  | .decisions runId _ a => st.ApprovalRead runId a
  | .definition runId _ a => st.ApprovalRead runId a ∧ st.ClearedRun runId
  | .permit item | .write item | .send item => item.Held st ∧ st.ClearedRun item.runId

/-- What a submission relies on. -/
def EnqueuePoint.Relies : EnqueuePoint → Prop
  | .start _ _ _ | .write _ _ _ => True
  | .writeGated run req _ => req.runId = run.id
  | .send item => item.approvalPin = none

/-- What a review relies on. -/
def ReviewPoint.Relies : ReviewPoint → Prop
  | .writeApproval dec _ _ => dec.decision = .approved
  | _ => True

/-- What the supervisor relies on. -/
def SupervisorPoint.Relies : SupervisorPoint → Prop
  | .finish _ outcome _ => outcome.isWaiting = false
  | .launching p _ _ => p.Relies
  | _ => True

/-- What a task relies on. -/
def Task.Relies (d : Daemon) : Task Γ → Prop
  | .worker p => p.Relies d.store
  | .dispatch p => p.Relies d.store
  | .enqueue p => p.Relies
  | .review p => p.Relies
  | .supervisor p => p.Relies
  | .boot _ | .stop _ _ _ | .sweep _ | .register _ | .launch _ | .outside => True

/-- The daemon between two steps: the gate, and the pins of the items in the queue. -/
structure Daemon.Gated (d : Daemon) : Prop where
  store : d.store.Gated
  queue : ∀ item ∈ d.queue, item.Held d.store

/-! ### What never goes away -/

section Persists

variable {st st' : Store}

theorem Persists.approvalRead (h : Persists st st') {x : String} {a : ApprovalRow} (ha : st.ApprovalRead x a) :
    st'.ApprovalRead x a := by
  obtain ⟨b, hb, hk⟩ := ha
  obtain ⟨b', hb', hk'⟩ := h.request x b hb
  exact ⟨b', hb', hk.trans hk'⟩

theorem Persists.cleared (h : Persists st st') {a a' : ApprovalRow} (hk : ApprovalKeeps a a') (ha : st.Cleared a) :
    st'.Cleared a' := by
  rcases ha with ha | ha
  · exact Or.inl (hk.overridden ha)
  · refine Or.inr ?_
    have hcount := h.approved a.runId
    rw [hk.quorumRequired, hk.runId]
    omega

theorem Persists.clearedRun (h : Persists st st') {x : String} (hx : st.ClearedRun x) : st'.ClearedRun x := by
  obtain ⟨a, ha, hc⟩ := hx
  obtain ⟨a', ha', hk⟩ := h.request x a ha
  exact ⟨a', ha', h.cleared hk hc⟩

theorem Persists.held (h : Persists st st') {item : WorkItem} (hi : item.Held st) : item.Held st' := by
  intro pin hpin
  obtain ⟨a, ha, hhash, henv, htarget⟩ := hi pin hpin
  obtain ⟨a', ha', hk⟩ := h.request _ a ha
  exact ⟨a', ha', hk.pinHash.trans hhash, hk.env.trans henv, hk.target.trans htarget⟩

theorem Persists.validated (h : Persists st st') {item : WorkItem} {p : Γ.Prepared} (hv : Validated Γ st item p) :
    Validated Γ st' item p := by
  obtain ⟨hash, hrecorded, hresolved⟩ := hv.hash
  obtain ⟨a, n, binding, tier, ha, hclass, hle⟩ := hv.tier
  obtain ⟨a', ha', hk⟩ := h.request _ a ha
  exact ⟨⟨hash, h.pin _ hash hrecorded, hresolved⟩, a', n, binding, tier, ha', hclass, by rw [hk.tier]; exact hle⟩

theorem Persists.worker (h : Persists st st') {p : WorkerPoint Γ} (hp : p.Relies st) : p.Relies st' := by
  cases p with
  | dequeued | registered | readQueued => exact h.held hp
  | verified | claimed | prepared => exact ⟨h.held hp.1, hp.2⟩
  | planned | starting => exact ⟨h.held hp.1, hp.2.1, fun hpin => h.validated (hp.2.2 hpin)⟩
  | _ => trivial

theorem Persists.dispatch (h : Persists st st') {p : DispatchPoint} (hp : p.Relies st) : p.Relies st' := by
  cases p with
  | run | approval => trivial
  | decisions => exact h.approvalRead hp
  | definition => exact ⟨h.approvalRead hp.1, h.clearedRun hp.2⟩
  | permit | write | send => exact ⟨h.held hp.1, h.clearedRun hp.2⟩

/-- What a task relies on is only what never goes away. -/
theorem Persists.task {d d' : Daemon} (h : Persists d.store d'.store) {t : Task Γ} (ht : t.Relies d) : t.Relies d' := by
  cases t with
  | worker p => exact h.worker ht
  | dispatch p => exact h.dispatch ht
  | enqueue | review | supervisor => exact ht
  | boot | stop | sweep | register | launch | outside => trivial

end Persists

/-! ## One step of each task -/

/-- What a verified item's hash is. -/
theorem verifyApproval_ok {Γ : Ctx} {d : Daemon} {item : WorkItem} (h : verifyApproval Γ d item = .ok ()) : item.Verified Γ := by
  intro pin hpin
  unfold verifyApproval at h
  rw [Option.mem_def.mp hpin] at h
  by_contra hne
  simp only [ne_eq, hne, not_false_eq_true, if_true] at h
  nomatch h

/-- A computation that may fail succeeds when its first part does and the rest of it does. -/
theorem exceptBind_ok {ε α β : Type} {x : Except ε α} {f : α → Except ε β} {b : β} (h : (x >>= f) = .ok b) :
    ∃ a, x = .ok a ∧ f a = .ok b := by
  cases x with
  | error e => nomatch h
  | ok a => exact ⟨a, rfl, h⟩

/-- A dispatch context that holds, of a run that has an approval request. -/
theorem validateDispatchContext_ok {d : Daemon} {item : WorkItem} {p : Γ.Prepared} {a : ApprovalRow}
    (h : validateDispatchContext Γ d item p = .ok ()) (ha : d.store.approvalRequest item.runId = some a) :
    Validated Γ d.store item p := by
  unfold validateDispatchContext at h
  obtain ⟨binding, -, hcontext⟩ := exceptBind_ok h
  simp only [ha, Option.isSome_some, Bool.or_true, if_true, Option.isNone_some, Bool.and_false] at hcontext
  cases hrecorded : d.store.runExecutionHash item.runId with
  | none =>
    rw [hrecorded] at hcontext
    nomatch hcontext
  | some recorded =>
    rw [hrecorded] at hcontext
    obtain ⟨current, hhash, hrest⟩ := exceptBind_ok hcontext
    by_cases hne : current ≠ recorded
    · rw [if_pos hne] at hrest
      nomatch hrest
    · rw [if_neg hne] at hrest
      obtain ⟨tier, hclass, hle⟩ := exceptBind_ok hrest
      obtain rfl : current = recorded := not_not.mp hne
      refine ⟨⟨current, hrecorded, hhash⟩, a, _, binding, tier, ha, hclass, fun hlt => ?_⟩
      rw [if_pos (show ((some a).map (·.tier)).getD "T0" < tier.asStr from hlt)] at hle
      nomatch hle

/-- What a step owes the gate: it keeps the tables, what it sends is held by its request, and the tasks it leaves may rely on what
they rely on. -/
structure Guards (d d' : Daemon) (ts : List (Task Γ)) : Prop where
  kept : d.store.GateKept d'.store
  queue : ∀ item ∈ d'.queue, item ∈ d.queue ∨ item.Held d'.store
  tasks : ∀ t ∈ ts, t.Relies d'

/-- A step that leaves the queue, and one task. -/
theorem Guards.one {d d' : Daemon} {t : Task Γ} (hk : d.store.GateKept d'.store) (hq : d'.queue = d.queue) (ht : t.Relies d') :
    Guards d d' [t] :=
  ⟨hk, fun _ hi => Or.inl (by rw [← hq]; exact hi), List.forall_mem_singleton.mpr ht⟩

/-- A step that leaves the queue, and no task. -/
theorem Guards.none {d d' : Daemon} (hk : d.store.GateKept d'.store) (hq : d'.queue = d.queue) : Guards (Γ := Γ) d d' [] :=
  ⟨hk, fun _ hi => Or.inl (by rw [← hq]; exact hi), fun _ ht => absurd ht List.not_mem_nil⟩

/-- A worker's step. -/
theorem WorkerStep.guards {d d' : Daemon} {p p' : WorkerPoint Γ} {l : Label Γ} (h : WorkerStep Γ d p l d' p') (hd : d.Gated)
    (hp : p.Relies d.store) : Guards d d' [.worker p'] := by
  have hm := h.moves
  cases h with
  | @take item rest hq =>
    refine ⟨Store.GateKept.refl _, fun i hi => Or.inl ?_, List.forall_mem_singleton.mpr ?_⟩
    · rw [hq]
      exact List.mem_cons_of_mem _ hi
    · exact hd.queue item (by rw [hq]; exact List.mem_cons_self)
  | register | readState => exact Guards.one (Store.GateKept.refl _) rfl hp
  | verify hverified => exact Guards.one (Store.GateKept.refl _) rfl ⟨hp, verifyApproval_ok hverified⟩
  | claim =>
    have hk := hm.gateKept rfl rfl
    exact Guards.one hk rfl ((hk hd.store).2.worker (p := .verified _ _) hp)
  | prepare => exact Guards.one (Store.GateKept.refl _) rfl hp
  | validate hcontext =>
    refine Guards.one (Store.GateKept.refl _) rfl ⟨hp.1, hp.2, fun hpin => ?_⟩
    obtain ⟨pin, hpin⟩ := Option.ne_none_iff_exists'.mp hpin
    obtain ⟨a, ha, -⟩ := hp.1 pin hpin
    exact validateDispatchContext_ok hcontext ha
  | checkToken => exact Guards.one (Store.GateKept.refl _) rfl hp
  | begin_ | beginRefused => exact Guards.one beginRunExecution_gateKept rfl trivial
  | _ => exact Guards.one (hm.gateKept rfl rfl) rfl trivial

/-- A dispatch's step. -/
theorem DispatchStep.guards {d d' : Daemon} {p : DispatchPoint} {p' : Option DispatchPoint} (h : DispatchStep Γ d p d' p')
    (hd : d.Gated) (hp : p.Relies d.store) : Guards (Γ := Γ) d d' (p'.map Task.dispatch).toList := by
  have hm := h.moves
  have hopen : ∀ item : WorkItem, d.store.ClearedRun item.runId → ∀ x ∈ (DispatchPoint.write item).leave.opens,
      ∀ a ∈ d.store.approvals, a.runId = x → d.store.Cleared a := by
    rintro item ⟨b, hb, hc⟩ x ⟨⟩ a ha hid
    rw [hd.store.request_unique hb ha hid]
    exact hc
  cases h with
  | run => exact Guards.one (Store.GateKept.refl _) rfl trivial
  | overridden ha _ hb => exact Guards.one (Store.GateKept.refl _) rfl ⟨⟨_, ha, .refl _⟩, _, ha, Or.inl hb⟩
  | approval ha => exact Guards.one (Store.GateKept.refl _) rfl ⟨_, ha, .refl _⟩
  | decisions _ hquorum =>
    obtain ⟨b, hb, hk⟩ := hp
    refine Guards.one (Store.GateKept.refl _) rfl ⟨⟨b, hb, hk⟩, b, hb, Or.inr ?_⟩
    rw [approvedCount_approvalDecisions] at hquorum
    rw [hk.quorumRequired, (Store.approvalRequest_mem hb).2]
    exact hquorum
  | definition =>
    obtain ⟨⟨b, hb, hk⟩, hc⟩ := hp
    refine Guards.one (Store.GateKept.refl _) rfl ⟨?_, hc⟩
    rintro pin ⟨⟩
    exact ⟨b, hb, hk.pinHash, hk.env, hk.target⟩
  | permit => exact Guards.one (Store.GateKept.refl _) rfl hp
  | write =>
    have hk : d.store.GateKept _ := fun hg => hg.step_ungated hm rfl (hopen _ hp.2)
    exact Guards.one hk rfl ((hk hd.store).2.dispatch (p := .write _) hp)
  | writeRefused =>
    exact Guards.none (fun hg => hg.step_ungated hm rfl (hopen _ hp.2)) rfl
  | @send item =>
    refine ⟨Store.GateKept.refl _, fun i hi => ?_, fun _ ht => absurd ht List.not_mem_nil⟩
    rcases List.mem_append.mp hi with hi | hi
    · exact Or.inl hi
    · rw [List.mem_singleton.mp hi]
      exact Or.inr hp.1
  | giveUp => exact Guards.none (Store.GateKept.refl _) rfl

/-- A submission's step. -/
theorem EnqueueStep.guards {d d' : Daemon} {p : EnqueuePoint} {out : EnqueueOut} (h : EnqueueStep Γ d p d' out) (hp : p.Relies) :
    Guards (Γ := Γ) d d' [] ∧ ∀ q, out = .next q → q.Relies := by
  have hm := h.moves
  cases h with
  | start => exact ⟨Guards.none (Store.GateKept.refl _) rfl, by rintro q ⟨⟩; trivial⟩
  | startGated => exact ⟨Guards.none (Store.GateKept.refl _) rfl, by rintro q ⟨⟩; rfl⟩
  | refused => exact ⟨Guards.none (Store.GateKept.refl _) rfl, by rintro q ⟨⟩⟩
  | write => exact ⟨Guards.none (hm.gateKept rfl rfl) rfl, by rintro q ⟨⟩; rfl⟩
  | writeRefused => exact ⟨Guards.none (hm.gateKept rfl rfl) rfl, by rintro q ⟨⟩⟩
  | writeGated hfresh => exact ⟨Guards.none (insertGatedRunWithContext_gateKept hfresh hp) rfl, by rintro q ⟨⟩⟩
  | @writeGatedRefused run req context detail hacc =>
    have hstore : (d.wrote (insertGatedRunWithContext Γ.toCtx run req detail (some context))).store = d.store :=
      Daemon.wrote_refused rfl hacc
    exact ⟨Guards.none (by rw [hstore]; exact Store.GateKept.refl _) rfl, by rintro q ⟨⟩⟩
  | @send item =>
    refine ⟨⟨Store.GateKept.refl _, fun i hi => ?_, fun _ ht => absurd ht List.not_mem_nil⟩, by rintro q ⟨⟩⟩
    rcases List.mem_append.mp hi with hi | hi
    · exact Or.inl hi
    · rw [List.mem_singleton.mp hi]
      refine Or.inr fun pin hpin => ?_
      rw [show item.approvalPin = none from hp] at hpin
      nomatch hpin

/-- A review's step. -/
theorem ReviewStep.guards {d d' : Daemon} {p : ReviewPoint} {ts : List (Task Γ)} (h : ReviewStep Γ d p d' ts) (hp : p.Relies) :
    Guards d d' ts := by
  have hm := h.moves
  cases h with
  | approve | gateExpired | gateVeto | reject | breakGlass => exact Guards.one (Store.GateKept.refl _) rfl trivial
  | gate => exact Guards.one (Store.GateKept.refl _) rfl rfl
  | writeApproval => exact Guards.one (approveWrites_gateKept hp) rfl trivial
  | writeApprovalRefused => exact Guards.none (approveWrites_gateKept hp) rfl
  | writeExpired | writeVeto => exact Guards.none (hm.gateKept rfl rfl) rfl
  | writeRejection hacc =>
    obtain ⟨u, hok⟩ := Daemon.accepts_ok hacc
    exact Guards.none ((rejectWrites_gateKept hok).trans _ _ _ insertRunAudit_gateKept) rfl
  | writeRejectionRefused _ hfault => exact Guards.none (by rw [hfault]; exact Store.GateKept.refl _) rfl
  | writeBreakGlass => exact Guards.one breakGlassWrites_gateKept rfl trivial
  | writeBreakGlassRefused => exact Guards.none breakGlassWrites_gateKept rfl
  | giveUpApprove | giveUpGate | giveUpReject | giveUpBreakGlass => exact Guards.none (Store.GateKept.refl _) rfl

/-- The outcome a supervisor relies on is one it has decided. -/
theorem SupervisorPoint.Relies.decided {p : SupervisorPoint} (h : p.Relies) : p.decided := by
  cases p with
  | finish => exact h
  | _ => trivial

/-- A supervisor's step. -/
theorem SupervisorStep.guards {d d' : Daemon} {p p' : SupervisorPoint} {l : Label Γ} (h : SupervisorStep Γ d p l d' p')
    (hp : p.Relies) : Guards d d' [.supervisor (Γ := Γ) p'] := by
  have hm := h.moves hp.decided
  cases h with
  | tick | done | wait | enqueue => exact Guards.one (Store.GateKept.refl _) rfl trivial
  | decide => exact Guards.one (Store.GateKept.refl _) rfl campaignOutcome_not_waiting
  | finish | link => exact Guards.one (hm.gateKept rfl rfl) rfl trivial
  | launching he =>
    obtain ⟨hg, hq⟩ := he.guards hp
    exact ⟨hg.kept, hg.queue, List.forall_mem_singleton.mpr (hq _ rfl)⟩
  | launched he | launchFailed he =>
    have hg := (he.guards hp).1
    exact ⟨hg.kept, hg.queue, List.forall_mem_singleton.mpr trivial⟩

/-- The tasks the daemon serves with rely on nothing. -/
theorem servingTasks_rely {t : Task Γ} (h : t ∈ servingTasks Γ) (d : Daemon) : t.Relies d := by
  unfold servingTasks at h
  rcases List.mem_append.mp h with h | h
  · rw [List.eq_of_mem_replicate h]
    trivial
  · simp only [List.mem_cons, List.not_mem_nil, or_false] at h
    rcases h with rfl | rfl | rfl <;> trivial

/-- A step of the orphan sweep. -/
theorem BootStep.guards {d d' : Daemon} {p : BootPoint} {l : Label Γ} {ts : List (Task Γ)} (h : BootStep Γ d p l d' ts) :
    Guards d d' ts := by
  have hm := h.moves
  cases h with
  | startError => exact Guards.none (Store.GateKept.refl _) rfl
  | serve => exact ⟨Store.GateKept.refl _, fun _ hi => Or.inl hi, fun t ht => servingTasks_rely ht d⟩
  | _ => exact Guards.one (hm.gateKept rfl rfl) rfl trivial

/-- Every step of the daemon pays what it owes the gate. -/
theorem TaskStep.guards {d d' : Daemon} {t : Task Γ} {l : Label Γ} {ts : List (Task Γ)} (h : TaskStep Γ d t l d' ts)
    (hd : d.Gated) (ht : t.Relies d) : Guards d d' ts := by
  cases h with
  | boot h => exact h.guards
  | worker h => exact h.guards hd ht
  | stop h =>
    have hm : Moves {} d.store d'.store := h.moves
    exact Guards.one (hm.gateKept rfl rfl) (by cases h <;> rfl) trivial
  | stopped h =>
    have hm : Moves {} d.store d'.store := h.moves
    exact Guards.none (hm.gateKept rfl rfl) (by cases h <;> rfl)
  | dispatch h | dispatched h => exact h.guards hd ht
  | review h => exact h.guards ht
  | enqueue h =>
    obtain ⟨hg, hq⟩ := h.guards (Γ := Γ) ht
    exact ⟨hg.kept, hg.queue, List.forall_mem_singleton.mpr (hq _ rfl)⟩
  | enqueued h | enqueueFailed h => exact (h.guards ht).1
  | sweep => exact Guards.one (Store.GateKept.refl _) rfl trivial
  | @expire runId =>
    have hm : Moves {} d.store (d.wrote (expireRun Γ.toCtx runId)).store := expireRun_moves
    exact Guards.one (hm.gateKept rfl rfl) rfl trivial
  | supervisor h => exact h.guards ht
  | @register def_ =>
    have hm : Moves { registers := some def_ } d.store (d.wrote (registerDefinition Γ.toCtx def_)).store := registerDefinition_moves rfl
    exact Guards.none (hm.gateKept rfl rfl) rfl
  | @launch run hfresh =>
    have hm : Moves {} d.store (d.wrote (launchCampaign Γ.toCtx run)).store := launchCampaign_moves hfresh
    exact Guards.none (hm.gateKept rfl rfl) rfl
  | outside harrives =>
    refine ⟨Store.GateKept.refl _, fun _ hi => Or.inl hi, fun t ht => ?_⟩
    rcases List.mem_cons.mp ht with rfl | ht
    · trivial
    · rw [List.mem_singleton.mp ht]
      cases harrives <;> trivial

/-! ## The pool -/

/-- The gate, and what every task relies on. -/
abbrev GatePool (Γ : DaemonCtx) : Interleave.Config Daemon (Task Γ) → Prop :=
  Interleave.Holds Daemon.Gated Task.Relies (fun _ _ => True)

/-- Step lemma: every step keeps the gate, and what every task relies on. -/
theorem TaskStep.gate {d d' : Daemon} {t : Task Γ} {l : Label Γ} {ts : List (Task Γ)} (h : TaskStep Γ d t l d' ts)
    (hd : d.Gated) (ht : t.Relies d) : Interleave.Keeps Daemon.Gated Task.Relies (fun _ _ => True) d t d' ts := by
  have hg := h.guards hd ht
  obtain ⟨hstore, hpersists⟩ := hg.kept hd.store
  refine Interleave.Keeps.of_stable ⟨hstore, fun item hi => ?_⟩ hg.tasks (fun u hu => hpersists.task hu)
  rcases hg.queue item hi with hi | hi
  · exact hpersists.held (hd.queue item hi)
  · exact hi

theorem daemon_step_gate {c c' : Interleave.Config Daemon (Task Γ)} {l : Label Γ} (hc : GatePool Γ c)
    (h : Interleave.Step (daemonSystem Γ) c l c') : GatePool Γ c' := by
  cases h with
  | task before after hstep => exact hc.task_step (fun _ _ _ => trivial) (TaskStep.gate hstep hc.shared (hc.task _ (by simp)))
  | reset hreset =>
    cases hreset
    exact ⟨⟨hc.shared.store, fun _ hx => absurd hx List.not_mem_nil⟩, fun t ht => by rw [List.mem_singleton.mp ht]; trivial,
      List.pairwise_singleton _ _⟩

theorem gatePool_init (Γ : DaemonCtx) : GatePool Γ (daemonInit Γ) := by
  have hnil : ∀ {α : Type} {P : α → Prop}, ∀ x ∈ ([] : List α), P x := fun _ hx => absurd hx List.not_mem_nil
  exact ⟨⟨⟨List.nodup_nil, List.nodup_nil, List.nodup_nil, hnil, hnil, hnil, hnil⟩, hnil⟩,
    fun t ht => by rw [List.mem_singleton.mp ht]; trivial, List.pairwise_singleton _ _⟩

/-! ## The begin of a gated run -/

/-- Who approved the run. -/
def Store.approvers (st : Store) (runId : String) : Finset String :=
  ((st.decisions.filter (fun dec => dec.runId = runId && dec.decision = .approved)).map (·.approver)).toFinset

/-- What holds when a gated run begins: `st` is the store its transaction finds, `st'` the store it leaves, `now` its clock. -/
structure Authorised (Γ : DaemonCtx) (st st' : Store) (item : WorkItem) (p : Γ.Prepared) (a : ApprovalRow) (now : Int) : Prop where
  validating : ∃ r ∈ st.runs, r.id = item.runId ∧ r.state = .validating
  request : st.approvalRequest item.runId = some a
  pinned : item.request.pin Γ.toCtx = a.pinHash ∧ item.request.env = a.env ∧ item.request.target = a.target
  resolved : Validated Γ st item p
  unused : a.consumedAtNs = none
  consumed : st'.approvalRequest item.runId = some { a with consumedAtNs := some now }
  cleared : a.breakGlass = true ∨ ((∀ dec ∈ st.decisions, dec.runId = item.runId → dec.decision ≠ .rejected) ∧
    now ≤ a.expiresAtNs ∧ a.quorumRequired ≤ ((st.approvers item.runId).erase a.requestedBy).card)

/-- The approvals counted are by as many approvers, none of them the requester. -/
theorem Store.Gated.approvers_card {st : Store} (h : st.Gated) {x : String} {a : ApprovalRow} (ha : st.approvalRequest x = some a) :
    ((st.approvers x).erase a.requestedBy).card = st.approvedCount x := by
  obtain ⟨hmem, hx⟩ := Store.approvalRequest_mem ha
  rw [Finset.erase_eq_of_notMem, Store.approvers, List.toFinset_card_of_nodup, List.length_map, Store.approvedCount,
    List.countP_eq_length_filter]
  · -- two approvals of one run by one approver are one decision
    refine List.Nodup.map_on ?_ ((List.Nodup.of_map _ h.decisions).filter _)
    intro dec hdec o ho happrover
    obtain ⟨hdec, hrun⟩ := List.mem_filter.mp hdec
    obtain ⟨ho, horun⟩ := List.mem_filter.mp ho
    simp only [Bool.and_eq_true, decide_eq_true_eq] at hrun horun
    exact List.inj_on_of_nodup_map h.decisions hdec ho (Prod.ext (hrun.1.trans horun.1.symm) happrover)
  · intro hself
    obtain ⟨dec, hdec, happrover⟩ := List.mem_map.mp (List.mem_toFinset.mp hself)
    obtain ⟨hdec, hrun⟩ := List.mem_filter.mp hdec
    simp only [Bool.and_eq_true, decide_eq_true_eq] at hrun
    exact h.others dec hdec a hmem (hx.trans hrun.1.symm) happrover.symm

/-- A worker begins a gated run only when it is authorised. -/
theorem WorkerStep.began_authorised {d d' : Daemon} {p p' : WorkerPoint Γ} {item : WorkItem} {q : Γ.Prepared} {token : Nat}
    {pin : String} (h : WorkerStep Γ d p (.began item q token) d' p') (hd : d.store.Gated) (hp : p.Relies d.store)
    (hpin : item.approvalPin = some pin) : ∃ a now, Authorised Γ d.store d'.store item q a now := by
  have hbegan := h.began_ok
  cases h with
  | begin_ hacc =>
    obtain ⟨hheld, hverified, hvalidated⟩ := hp
    obtain ⟨a, ha, hhash, henv, htarget⟩ := hheld pin hpin
    obtain ⟨hmem, hx⟩ := Store.approvalRequest_mem ha
    obtain ⟨u, hok⟩ := Daemon.accepts_ok hacc
    obtain ⟨-, now, audit', -, hconsumable, hstore⟩ := beginRunExecution_ok hok
    -- the one request the transaction consumed is the run's
    have hcount : d.store.approvals.countP (consumable item.runId pin now) = 1 := hconsumable pin hpin
    obtain ⟨b, hb, hcons⟩ := List.countP_pos_iff.mp (by omega : 0 < d.store.approvals.countP (consumable item.runId pin now))
    obtain ⟨⟨⟨hbx, -⟩, hunused⟩, hexpiry⟩ :
        ((b.runId = item.runId ∧ b.pinHash = pin) ∧ b.consumedAtNs = none) ∧ (b.breakGlass = true ∨ now ≤ b.expiresAtNs) := by
      simpa [consumable] using hcons
    obtain rfl := hd.request_unique ha hb hbx
    obtain ⟨r, hr, hid, hstate⟩ := hbegan.2.1
    refine ⟨b, now, ⟨r, hr, hid, hstate⟩, ha, ⟨(hverified pin hpin).trans hhash.symm, henv.symm, htarget.symm⟩,
      hvalidated (by simp [hpin]), hunused, ?_, ?_⟩
    · unfold Store.approvalRequest at ha ⊢
      rw [Daemon.store, hstore]
      refine (Db.find?_updateWhere (fun o => by rfl) _).trans ?_
      have hfound : d.session.store.approvals.find? (fun o => o.runId = item.runId) = some b := ha
      rw [hfound, Option.map_some, hpin, Option.any_some, hcons]
      rfl
    · cases hglass : b.breakGlass with
      | true => exact Or.inl rfl
      | false =>
        refine Or.inr ⟨fun dec hdec hrun hrej => ?_, hexpiry.resolve_left (by simp [hglass]), ?_⟩
        · have hwaits := hd.rejected dec hdec hrej r hr (hid.trans hrun.symm)
          rw [hstate] at hwaits
          exact absurd hwaits (by decide)
        · rw [hd.approvers_card ha, ← hx]
          refine (hd.cleared r hr (Or.inr hstate) b hb (hx.trans hid.symm)).resolve_left (by simp [hglass])

/-- Once a run has started, no begin of it commits: in a run of the daemon from there, every begin is of another run. -/
theorem no_second_begin {c c' : Interleave.Config Daemon (Task Γ)} {trace : List (Daemon × Label Γ)} {x : String}
    (hc : GatePool Γ c) (hx : ∃ r ∈ c.shared.store.runs, r.id = x ∧ r.startedAtNs ≠ none)
    (h : Interleave.Run (daemonSystem Γ) c trace c') :
    ∀ e ∈ trace, ∀ item p token, e.2 = .began item p token → item.runId ≠ x := by
  refine (h.shows (P := fun c => GatePool Γ c ∧ ∃ r ∈ c.shared.store.runs, r.id = x ∧ r.startedAtNs ≠ none)
    (Q := fun _ l => ∀ item p token, l = .began item p token → item.runId ≠ x) ?_ ⟨hc, hx⟩).2
  rintro c l c' ⟨hc, hx⟩ hs
  refine ⟨⟨daemon_step_gate hc hs, ?_⟩, ?_⟩
  · cases hs with
    | @task d d' t l ts before after hstep =>
      have hstep : TaskStep Γ d t l d' ts := hstep
      have ht : t.Relies d := hc.task t (by simp)
      refine (hstep.moves (fun p hp => ?_)).startedRun hx
      subst hp
      exact SupervisorPoint.Relies.decided ht
    | reset hreset =>
      cases hreset
      exact hx
  · rintro item p token rfl hid
    cases hs with
    | @task d d' t l ts before after hstep =>
      cases hstep with
      | worker hstep =>
        obtain ⟨-, ⟨r, hr, hrid, hstate⟩, -⟩ := hstep.began_ok
        obtain ⟨o, ho, hoid, hstarted⟩ := hx
        obtain rfl := List.inj_on_of_nodup_map hc.shared.store.ids hr ho (by rw [hrid, hid, hoid])
        exact hstarted (hc.shared.store.started r hr (by rw [hstate]; rfl))
      | boot hstep | stop hstep | stopped hstep | supervisor hstep => nomatch hstep
    | reset hreset => nomatch hreset

end Tumult
