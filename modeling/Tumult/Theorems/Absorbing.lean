import Tumult.Daemon.Moves

/-!
# Terminal runs

Whether a run that has ended can change again. The writer's operations that check the state cannot reach a terminal row; a finish
does not check it, and what protects the row is who calls it: a worker finishes only the run whose execution it started and whose
token it holds. The assertion of every task says what it knows of its run (`Task.Knows`), two workers never hold one run
(`Task.Apart`), and a step does not disturb what the others know (`Serves.knows`).

Two callers finish a run they read earlier: the campaign supervisor and the orphan sweep.
-/

namespace Tumult

variable {Γ : DaemonCtx}

/-! ## Runs of experiments, runs of campaigns -/

/-- A registry id of an experiment definition. -/
def Store.PlainDefinition (st : Store) (registryId : String) : Prop :=
  ∃ def_ ∈ st.registry, def_.id = registryId ∧ def_.isGameday = false

/-- A run of an experiment definition. -/
def Store.PlainRun (st : Store) (runId : String) : Prop :=
  ∃ r ∈ st.runs, r.id = runId ∧ st.PlainDefinition r.registryId

/-- A run of a campaign envelope. -/
def Store.ParentRun (st : Store) (runId : String) : Prop :=
  ∃ r ∈ st.runs, r.id = runId ∧ ∃ def_ ∈ st.registry, def_.id = r.registryId ∧ def_.isGameday = true

/-- The store between two steps: an id names one row, a definition is a campaign envelope when it does not parse as an experiment, a
registry id names one text, and only experiments wait for approval. -/
structure Store.Sound (parses : String → Bool) (st : Store) : Prop where
  ids : (st.runs.map RunRow.id).Nodup
  kinds : ∀ def_ ∈ st.registry, def_.isGameday = true ↔ parses def_.definitionToon = false
  texts : ∀ a ∈ st.registry, ∀ b ∈ st.registry, a.id = b.id → a.definitionToon = b.definitionToon
  pending : ∀ r ∈ st.runs, r.state = .pendingApproval → st.PlainDefinition r.registryId

variable {lv : Leave} {parses : String → Bool}

/-- A registered definition stays registered. -/
theorem Moves.plainDefinition {st st' : Store} (h : Moves lv st st') {x : String} (hx : st.PlainDefinition x) :
    st'.PlainDefinition x := by
  obtain ⟨def_, hd, hid, hk⟩ := hx
  exact ⟨def_, h.registry.subset hd, hid, hk⟩

/-- A run of a definition stays one. -/
theorem Moves.plainRun {st st' : Store} (h : Moves lv st st') {x : String} (hx : st.PlainRun x) : st'.PlainRun x := by
  obtain ⟨r, hr, rfl, hd⟩ := hx
  obtain ⟨r', hr', hk⟩ := h.row hr
  exact ⟨r', hr', hk.id, by rw [hk.registryId]; exact h.plainDefinition hd⟩

theorem Moves.parentRun {st st' : Store} (h : Moves lv st st') {x : String} (hx : st.ParentRun x) : st'.ParentRun x := by
  obtain ⟨r, hr, rfl, def_, hd, hdid, hk⟩ := hx
  obtain ⟨r', hr', hkeep⟩ := h.row hr
  exact ⟨r', hr', hkeep.id, def_, h.registry.subset hd, by rw [hkeep.registryId]; exact hdid, hk⟩

/-- What the leave of a closure may add to a sound store. -/
structure Leave.Sound (lv : Leave) (parses : String → Bool) (st : Store) : Prop where
  submits : ∀ x ∈ lv.submits, st.PlainDefinition x
  registers : ∀ def_ ∈ lv.registers, (def_.isGameday = true ↔ parses def_.definitionToon = false) ∧
    ∀ o ∈ st.registry, o.id = def_.id → o.definitionToon = def_.definitionToon

/-- A leave that submits and registers nothing adds nothing. -/
theorem Leave.Sound.nothing {st : Store} (hs : lv.submits = none) (hr : lv.registers = none) : lv.Sound parses st :=
  ⟨fun x hx => absurd hx (by simp [hs]), fun def_ hd => absurd hd (by simp [hr])⟩

theorem Moves.sound {st st' : Store} (h : Moves lv st st') (hl : lv.Sound parses st) (hs : st.Sound parses) :
    st'.Sound parses := by
  refine ⟨h.uniq hs.ids, ?_, ?_, ?_⟩
  · intro def_ hd
    rcases h.registered def_ hd with hd | hd
    · exact hs.kinds def_ hd
    · exact (hl.registers def_ hd).1
  · intro a ha b hb hid
    rcases h.registered a ha with ha | ha <;> rcases h.registered b hb with hb | hb
    · exact hs.texts a ha b hb hid
    · exact (hl.registers b hb).2 a ha hid
    · exact ((hl.registers a ha).2 b hb hid.symm).symm
    · rw [Option.some.inj (ha.symm.trans hb)]
  · intro r' hr' hpend
    rcases h.origin hr' with ⟨r, hr, hk⟩ | ⟨-, -, hsub⟩
    · rw [hk.registryId]
      exact h.plainDefinition (hs.pending r hr (hk.pending hpend))
    · exact h.plainDefinition (hl.submits _ (hsub hpend))

/-- A run of an experiment is no run of a campaign. -/
theorem Store.Sound.plain_ne_parent {st : Store} (h : st.Sound parses) {x y : String} (hx : st.PlainRun x)
    (hy : st.ParentRun y) : x ≠ y := by
  rintro rfl
  obtain ⟨r, hr, hrid, a, ha, haid, hak⟩ := hx
  obtain ⟨r', hr', hrid', b, hb, hbid, hbk⟩ := hy
  obtain rfl := List.inj_on_of_nodup_map h.ids hr hr' (hrid.trans hrid'.symm)
  have htext := h.texts a ha b hb (haid.trans hbid.symm)
  have hparse := (h.kinds b hb).mp hbk
  rw [← htext] at hparse
  rw [(h.kinds a ha).mpr hparse] at hak
  nomatch hak

/-! ## What a task knows of its run -/

/-- What a worker knows. -/
structure WorkerPoint.Knows (d : Daemon) (p : WorkerPoint Γ) : Prop where
  plain : ∀ x ∈ p.runId?, d.store.PlainRun x
  token : ∀ x ∈ p.holds, ∃ token, (x, token) ∈ d.tokens
  busy : ∀ x ∈ p.executes, d.store.BusyRun x

/-- The run a dispatch has read. -/
def DispatchPoint.runId? : DispatchPoint → Option String
  | .run _ => none
  | .approval runId _ | .decisions runId _ _ | .definition runId _ _ => some runId
  | .permit item | .write item | .send item => some item.runId

/-- What a submission knows. -/
def EnqueuePoint.Knows (st : Store) : EnqueuePoint → Prop
  | .start _ _ _ => True
  | .write run _ _ | .writeGated run _ _ => st.PlainDefinition run.registryId
  | .send item => st.PlainRun item.runId

/-- What the supervisor knows. -/
def SupervisorPoint.Knows (st : Store) : SupervisorPoint → Prop
  | .idle => True
  | .tick parents => ∀ c ∈ parents, st.ParentRun c.1.id
  | .finish parentId outcome parents =>
    st.ParentRun parentId ∧ outcome.isWaiting = false ∧ ∀ c ∈ parents, st.ParentRun c.1.id
  | .launching p _ parents => p.Knows st ∧ ∀ c ∈ parents, st.ParentRun c.1.id
  | .link _ _ parents => ∀ c ∈ parents, st.ParentRun c.1.id

/-- What a task knows. -/
def Task.Knows (d : Daemon) : Task Γ → Prop
  | .worker p => p.Knows d
  | .dispatch p => ∀ x ∈ p.runId?, d.store.PlainRun x
  | .enqueue p => p.Knows d.store
  | .supervisor p => p.Knows d.store
  | .register def_ => def_.isGameday = true ↔ Γ.parses def_.definitionToon = false
  | .boot _ | .stop _ _ _ | .review _ | .sweep _ | .launch _ | .outside => True

/-- The run a task holds. -/
def Task.holds : Task Γ → Option String
  | .worker p => p.holds
  | _ => none

/-- The task is the orphan sweep, which runs alone. -/
def Task.isBoot : Task Γ → Bool
  | .boot _ => true
  | _ => false

/-- Two tasks that run together: neither is the orphan sweep, and they do not hold one run. -/
structure Task.Apart (t u : Task Γ) : Prop where
  left : t.isBoot = false
  right : u.isBoot = false
  holds : ∀ x ∈ t.holds, x ∉ u.holds

theorem Task.Apart.symm {t u : Task Γ} (h : t.Apart u) : u.Apart t := ⟨h.right, h.left, fun x hx hx' => h.holds x hx' hx⟩

/-- A task that holds nothing runs together with any other. -/
theorem Task.Apart.of_holds_none {t u : Task Γ} (ht : t.isBoot = false) (hu : u.isBoot = false) (h : t.holds = none) :
    t.Apart u := ⟨ht, hu, fun x hx => by rw [h] at hx; nomatch hx⟩

/-- The daemon between two steps: a sound store, and only runs of experiments in the queue. -/
structure Daemon.Sound (Γ : DaemonCtx) (d : Daemon) : Prop where
  store : d.store.Sound Γ.parses
  queue : ∀ item ∈ d.queue, d.store.PlainRun item.runId

/-! ## What a step does to what the others know -/

/-- What a step with a leave keeps. -/
structure Serves (Γ : DaemonCtx) (lv : Leave) (d d' : Daemon) : Prop where
  moves : Moves lv d.store d'.store
  sound : lv.Sound Γ.parses d.store
  tokens : ∀ x token, (x, token) ∈ d.tokens → lv.executes ≠ some x → (x, token) ∈ d'.tokens
  queue : ∀ item ∈ d'.queue, item ∈ d.queue ∨ d'.store.PlainRun item.runId

/-- A step that leaves the registry of tokens and the queue. -/
theorem Serves.of_moves {d d' : Daemon} (hm : Moves lv d.store d'.store) (hl : lv.Sound Γ.parses d.store)
    (ht : d'.tokens = d.tokens) (hq : d'.queue = d.queue) : Serves Γ lv d d' :=
  ⟨hm, hl, fun _ _ h _ => by rw [ht]; exact h, fun _ h => Or.inl (by rw [← hq]; exact h)⟩

theorem Serves.daemon {d d' : Daemon} (h : Serves Γ lv d d') (hd : d.Sound Γ) : d'.Sound Γ := by
  refine ⟨h.moves.sound h.sound hd.store, fun item hi => ?_⟩
  rcases h.queue item hi with hi | hi
  · exact h.moves.plainRun (hd.queue item hi)
  · exact hi

theorem Moves.enqueueKnows {st st' : Store} (h : Moves lv st st') {p : EnqueuePoint} (hp : p.Knows st) : p.Knows st' := by
  cases p with
  | start => trivial
  | write => exact h.plainDefinition hp
  | writeGated => exact h.plainDefinition hp
  | send => exact h.plainRun hp

/-- A step does not disturb what a task knows that holds another run. -/
theorem Serves.knows {d d' : Daemon} (h : Serves Γ lv d d') {t : Task Γ} (ht : t.Knows d)
    (hw : ∀ x ∈ t.holds, lv.executes ≠ some x) : t.Knows d' := by
  have hparents : ∀ cs : List Campaign, (∀ c ∈ cs, d.store.ParentRun c.1.id) → ∀ c ∈ cs, d'.store.ParentRun c.1.id :=
    fun cs hcs c hc => h.moves.parentRun (hcs c hc)
  cases t with
  | worker p =>
    refine ⟨fun x hx => h.moves.plainRun (ht.plain x hx), fun x hx => ?_, fun x hx => ?_⟩
    · obtain ⟨token, htoken⟩ := ht.token x hx
      exact ⟨token, h.tokens x token htoken (hw x hx)⟩
    · exact h.moves.busyRun (hw x (WorkerPoint.holds_of_executes hx)) (ht.busy x hx)
  | dispatch p => exact fun x hx => h.moves.plainRun (ht x hx)
  | enqueue p => exact h.moves.enqueueKnows ht
  | supervisor p =>
    cases p with
    | idle => trivial
    | tick parents => exact hparents parents ht
    | finish parentId outcome parents => exact ⟨h.moves.parentRun ht.1, ht.2.1, hparents parents ht.2.2⟩
    | launching p parent parents => exact ⟨h.moves.enqueueKnows ht.1, hparents parents ht.2⟩
    | link child parent parents => exact hparents parents ht
  | register def_ => exact ht
  | boot | stop | review | sweep | launch | outside => trivial

/-! ## One step of each task -/

/-- A registered token is found. -/
theorem Daemon.token?_of_mem {d : Daemon} {x : String} {token : Nat} (h : (x, token) ∈ d.tokens) : d.token? x ≠ none := by
  unfold Daemon.token?
  simp only [ne_eq, Option.map_eq_none_iff, List.find?_eq_none, not_forall]
  exact ⟨(x, token), h, by simp⟩

/-- A worker's step serves the run the worker holds. -/
theorem WorkerStep.serves {d d' : Daemon} {p p' : WorkerPoint Γ} {l : Label Γ} (h : WorkerStep Γ d p l d' p')
    (hd : d.Sound Γ) (hp : p.Knows d) :
    Serves Γ p.leave d d' ∧ p'.Knows d' ∧ ∀ x ∈ p'.holds, x ∈ p.holds ∨ d.token? x = none := by
  have hm := h.moves
  have hl : p.leave.Sound Γ.parses d.store := Leave.Sound.nothing rfl rfl
  have hbusy := h.busy hp.busy
  -- the steps that go on with the run the worker holds, and leave the registry and the queue
  have hnext : d'.tokens = d.tokens → d'.queue = d.queue → p'.runId? = p.runId? → p'.holds = p.holds →
      Serves Γ p.leave d d' ∧ p'.Knows d' ∧ ∀ x ∈ p'.holds, x ∈ p.holds ∨ d.token? x = none := by
    intro htokens hqueue hrun hholds
    refine ⟨Serves.of_moves hm hl htokens hqueue, ⟨?_, ?_, hbusy⟩, ?_⟩
    · rw [hrun]
      exact fun x hx => hm.plainRun (hp.plain x hx)
    · rw [hholds, htokens]
      exact hp.token
    · rw [hholds]
      exact fun x hx => Or.inl hx
  cases h with
  | @take item rest hq =>
    refine ⟨⟨hm, hl, fun _ _ ht _ => ht, fun i hi => Or.inl ?_⟩, ⟨?_, nofun, hbusy⟩, nofun⟩
    · rw [hq]
      exact List.mem_cons_of_mem _ hi
    · rintro x ⟨⟩
      exact hd.queue item (by rw [hq]; exact List.mem_cons_self)
  | @register item hnone =>
    refine ⟨⟨hm, hl, fun _ _ ht _ => List.mem_cons_of_mem _ ht, fun _ hi => Or.inl hi⟩, ⟨hp.plain, ?_, hbusy⟩, ?_⟩
    · rintro x ⟨⟩
      exact ⟨d.nextToken, List.mem_cons_self⟩
    · rintro x ⟨⟩
      exact Or.inr hnone
  | duplicate => exact ⟨Serves.of_moves hm hl rfl rfl, ⟨nofun, nofun, hbusy⟩, nofun⟩
  | @deregister item token =>
    refine ⟨⟨hm, hl, fun x t ht hw => List.mem_filter.mpr ⟨ht, ?_⟩, fun _ hi => Or.inl hi⟩, ⟨nofun, nofun, hbusy⟩, nofun⟩
    simp only [ne_eq, decide_not, Bool.not_eq_eq_eq_not, Bool.not_true, decide_eq_false_iff_not]
    rintro rfl
    exact hw rfl
  | _ => exact hnext rfl rfl rfl rfl

/-- A definition whose text resolves is no campaign envelope. -/
theorem Store.Sound.plain_of_prepare {d : Daemon} (hd : d.Sound Γ) {request : RunRequest} {def_ : RegisteredDefinition}
    {p : Γ.Prepared} (hdef : d.store.registryDefinition request.registryId = some def_)
    (htoon : def_.definitionToon = request.definitionToon)
    (hp : Γ.prepare d.session.tick request.definitionToon request.vars = .ok p) :
    d.store.PlainDefinition request.registryId := by
  have hmem := List.mem_of_find?_eq_some hdef
  have hid : def_.id = request.registryId := by simpa using List.find?_some hdef
  refine ⟨def_, hmem, hid, ?_⟩
  have hparses := Γ.prepare_parses _ _ _ _ hp
  rw [← htoon] at hparses
  by_contra hk
  have hno := (hd.store.kinds def_ hmem).mp (by simpa using hk)
  rw [hparses] at hno
  nomatch hno

/-- A sent item joins the queue. -/
theorem Serves.send {d : Daemon} {item : WorkItem} (h : d.store.PlainRun item.runId) :
    Serves Γ {} d { d with queue := d.queue ++ [item] } := by
  refine ⟨Moves.refl _, Leave.Sound.nothing rfl rfl, fun _ _ ht _ => ht, fun i hi => ?_⟩
  rcases List.mem_append.mp hi with hi | hi
  · exact Or.inl hi
  · rw [List.mem_singleton.mp hi]
    exact Or.inr h

/-- A submission's step. -/
theorem EnqueueStep.serves {d d' : Daemon} {p : EnqueuePoint} {out : EnqueueOut} (h : EnqueueStep Γ d p d' out)
    (hd : d.Sound Γ) (hp : p.Knows d.store) : Serves Γ p.leave d d' ∧ ∀ q, out = .next q → q.Knows d'.store := by
  have hm := h.moves
  cases h with
  | start runId paramsJson publicJson hpermit hdef htoon hprep hhash =>
    refine ⟨Serves.of_moves hm (Leave.Sound.nothing rfl rfl) rfl rfl, ?_⟩
    rintro q ⟨⟩
    exact Store.Sound.plain_of_prepare hd hdef htoon hprep
  | startGated runId paramsJson publicJson htier hdef htoon hprep hclass hle hhash =>
    refine ⟨Serves.of_moves hm (Leave.Sound.nothing rfl rfl) rfl rfl, ?_⟩
    rintro q ⟨⟩
    exact Store.Sound.plain_of_prepare hd hdef htoon hprep
  | refused => exact ⟨Serves.of_moves hm (Leave.Sound.nothing rfl rfl) rfl rfl, by rintro q ⟨⟩⟩
  | @write run request context hfresh hacc =>
    refine ⟨Serves.of_moves hm (Leave.Sound.nothing rfl rfl) rfl rfl, ?_⟩
    rintro q ⟨⟩
    obtain ⟨u, hok⟩ := Daemon.accepts_ok hacc
    obtain ⟨audit', _, hstore⟩ := insertRunWithContext_ok hok
    refine ⟨run.row .queued, ?_, rfl, hm.plainDefinition hp⟩
    rw [Daemon.store, hstore]
    exact List.mem_append_right _ (List.mem_singleton_self _)
  | writeRefused => exact ⟨Serves.of_moves hm (Leave.Sound.nothing rfl rfl) rfl rfl, by rintro q ⟨⟩⟩
  | writeGated | writeGatedRefused =>
    refine ⟨Serves.of_moves hm ⟨?_, by rintro x ⟨⟩⟩ rfl rfl, by rintro q ⟨⟩⟩
    rintro x ⟨⟩
    exact hp
  | send => exact ⟨Serves.send hp, by rintro q ⟨⟩⟩

/-- A dispatch's step. -/
theorem DispatchStep.serves {d d' : Daemon} {p : DispatchPoint} {p' : Option DispatchPoint} (h : DispatchStep Γ d p d' p')
    (hd : d.Sound Γ) (hp : ∀ x ∈ p.runId?, d.store.PlainRun x) :
    Serves Γ p.leave d d' ∧ ∀ q ∈ p', ∀ x ∈ q.runId?, d'.store.PlainRun x := by
  have hm := h.moves
  have hl : p.leave.Sound Γ.parses d.store := Leave.Sound.nothing (by cases p <;> rfl) (by cases p <;> rfl)
  cases h with
  | @run runId row hrow hs =>
    refine ⟨Serves.of_moves hm hl rfl rfl, ?_⟩
    rintro q ⟨⟩ x ⟨⟩
    have hmem := List.mem_of_find?_eq_some hrow
    exact ⟨row, hmem, by simpa using List.find?_some hrow, hd.store.pending row hmem hs⟩
  | overridden | approval | decisions | definition | permit | write =>
    refine ⟨Serves.of_moves hm hl rfl rfl, ?_⟩
    rintro q ⟨⟩ x ⟨⟩
    exact hm.plainRun (hp _ rfl)
  | writeRefused => exact ⟨Serves.of_moves hm hl rfl rfl, by rintro q ⟨⟩⟩
  | send => exact ⟨Serves.send (hp _ rfl), by rintro q ⟨⟩⟩
  | giveUp => exact ⟨Serves.of_moves hm hl rfl rfl, by rintro q ⟨⟩⟩

/-- A review leaves tasks that know nothing yet. -/
theorem ReviewStep.tasks {d d' : Daemon} {p : ReviewPoint} {ts : List (Task Γ)} (h : ReviewStep Γ d p d' ts) :
    ts = [] ∨ (∃ q, ts = [.review q]) ∨ ∃ runId, ts = [.dispatch (.run runId)] := by
  cases h with
  | approve | gate | gateExpired | gateVeto | reject | breakGlass => exact Or.inr (Or.inl ⟨_, rfl⟩)
  | writeApproval | writeBreakGlass => exact Or.inr (Or.inr ⟨_, rfl⟩)
  | _ => exact Or.inl rfl

theorem ReviewStep.serves {d d' : Daemon} {p : ReviewPoint} {ts : List (Task Γ)} (h : ReviewStep Γ d p d' ts) :
    Serves Γ p.leave d d' := by
  have hm := h.moves
  have hl : p.leave.Sound Γ.parses d.store := Leave.Sound.nothing (by cases p <;> rfl) (by cases p <;> rfl)
  cases h <;> exact Serves.of_moves hm hl rfl rfl

/-- What a tick lists are campaign parents. -/
theorem Store.parentRun_of_activeCampaigns {st : Store} : ∀ c ∈ st.activeCampaigns, st.ParentRun c.1.id := by
  intro c hc
  unfold Store.activeCampaigns at hc
  obtain ⟨r, hr, hc⟩ := List.mem_flatMap.mp hc
  obtain ⟨def_, hdef, hc⟩ := List.mem_filterMap.mp hc
  obtain ⟨hmem, hid, hk⟩ : def_ ∈ st.registry ∧ def_.id = r.registryId ∧ def_.isGameday = true := by
    simpa using List.mem_filter.mp hdef
  split at hc
  · obtain rfl := Option.some.inj hc
    exact ⟨r, hr, rfl, def_, hmem, hid, hk⟩
  · nomatch hc

/-- The finish of a campaign parent or of an orphan meets no run that has ended. -/
def finishesLive (d : Daemon) : Label Γ → Prop
  | .finishParent runId | .finishOrphan runId => ∀ r ∈ d.store.runs, r.id = runId → r.state.isTerminal = false
  | _ => True

/-- What the supervisor knows, it knows after a step. -/
theorem SupervisorPoint.Knows.decided {st : Store} {p : SupervisorPoint} (h : p.Knows st) : p.decided := by
  cases p with
  | finish => exact h.2.1
  | _ => trivial

/-- A supervisor's step. -/
theorem SupervisorStep.serves {d d' : Daemon} {p p' : SupervisorPoint} {l : Label Γ} (h : SupervisorStep Γ d p l d' p')
    (hd : d.Sound Γ) (hp : p.Knows d.store) : Serves Γ p.leave d d' ∧ p'.Knows d'.store := by
  have hm := h.moves hp.decided
  have hparents : ∀ cs : List Campaign, (∀ c ∈ cs, d.store.ParentRun c.1.id) → ∀ c ∈ cs, d'.store.ParentRun c.1.id :=
    fun cs hcs c hc => hm.parentRun (hcs c hc)
  have hrefl : Serves Γ {} d d := Serves.of_moves (Moves.refl _) (Leave.Sound.nothing rfl rfl) rfl rfl
  cases h with
  | tick => exact ⟨hrefl, Store.parentRun_of_activeCampaigns⟩
  | done => exact ⟨hrefl, trivial⟩
  | decide hsteps hterminal =>
    exact ⟨hrefl, hp _ List.mem_cons_self, campaignOutcome_not_waiting, fun c hc => hp c (List.mem_cons_of_mem _ hc)⟩
  | wait => exact ⟨hrefl, fun c hc => hp c (List.mem_cons_of_mem _ hc)⟩
  | enqueue => exact ⟨hrefl, trivial, fun c hc => hp c (List.mem_cons_of_mem _ hc)⟩
  | finish => exact ⟨Serves.of_moves hm (Leave.Sound.nothing rfl rfl) rfl rfl, hparents _ hp.2.2⟩
  | launching he =>
    obtain ⟨hs, hq⟩ := he.serves hd hp.1
    exact ⟨hs, hq _ rfl, hparents _ hp.2⟩
  | launched he | launchFailed he => exact ⟨(he.serves hd hp.1).1, hparents _ hp.2⟩
  | link => exact ⟨Serves.of_moves hm (Leave.Sound.nothing rfl rfl) rfl rfl, hparents _ hp⟩

/-- The tasks the daemon serves with know nothing and hold nothing. -/
theorem servingTasks_idle {t : Task Γ} (h : t ∈ servingTasks Γ) (d : Daemon) :
    t.Knows d ∧ t.holds = none ∧ t.isBoot = false := by
  unfold servingTasks at h
  rcases List.mem_append.mp h with h | h
  · obtain rfl := List.eq_of_mem_replicate h
    exact ⟨⟨nofun, nofun, nofun⟩, rfl, rfl⟩
  · simp only [List.mem_cons, List.not_mem_nil, or_false] at h
    rcases h with rfl | rfl | rfl <;> exact ⟨trivial, rfl, rfl⟩

/-- The orphan sweep goes on alone, or hands over to the tasks that serve. -/
theorem BootStep.tasks {d d' : Daemon} {p : BootPoint} {l : Label Γ} {ts : List (Task Γ)} (h : BootStep Γ d p l d' ts) :
    ts = [] ∨ (∃ q, ts = [.boot q]) ∨ ts = servingTasks Γ := by
  cases h with
  | startError => exact Or.inl rfl
  | serve => exact Or.inr (Or.inr rfl)
  | _ => exact Or.inr (Or.inl ⟨_, rfl⟩)

theorem BootStep.serves {d d' : Daemon} {p : BootPoint} {l : Label Γ} {ts : List (Task Γ)} (h : BootStep Γ d p l d' ts) :
    Serves Γ p.leave d d' := by
  have hm := h.moves
  have hl : p.leave.Sound Γ.parses d.store := by
    rcases p with _ | ⟨_ | _⟩ | _ | _ | _ | _ <;> exact Leave.Sound.nothing rfl rfl
  cases h <;> exact Serves.of_moves hm hl rfl rfl

/-- A step of a stop. -/
theorem StopStep.serves {d d' : Daemon} {runId : String} {actor : Option String} {p : StopPoint} {p' : Option StopPoint}
    {l : Label Γ} (h : StopStep Γ runId actor d p l d' p') : Serves Γ {} d d' := by
  have hm : Moves {} d.store d'.store := h.moves
  cases h <;> exact Serves.of_moves hm (Leave.Sound.nothing rfl rfl) rfl rfl

/-! ## The pool -/

/-- The invariant of the pool. -/
abbrev Pool (Γ : DaemonCtx) : Interleave.Config Daemon (Task Γ) → Prop :=
  Interleave.Holds (Daemon.Sound Γ) Task.Knows Task.Apart

/-- A step that serves a run no other task holds keeps the pool. -/
theorem Serves.keeps {d d' : Daemon} {t : Task Γ} {ts : List (Task Γ)} (h : Serves Γ lv d d')
    (hd : d.Sound Γ) (hts : ∀ t' ∈ ts, t'.Knows d') (hpair : ts.Pairwise Task.Apart)
    (hwho : ∀ u : Task Γ, u.Knows d → t.Apart u → ∀ x ∈ u.holds, lv.executes ≠ some x)
    (hrel : ∀ u : Task Γ, u.Knows d → t.Apart u → ∀ t' ∈ ts, t'.Apart u) :
    Interleave.Keeps (Daemon.Sound Γ) Task.Knows Task.Apart d t d' ts :=
  ⟨h.daemon hd, hts, hpair, fun u hu htu => h.knows hu (hwho u hu htu), hrel⟩

/-- A step that leaves tasks that hold nothing keeps the pool. -/
theorem Serves.keeps_free {d d' : Daemon} {t : Task Γ} {ts : List (Task Γ)} (h : Serves Γ lv d d')
    (hd : d.Sound Γ) (hts : ∀ t' ∈ ts, t'.Knows d' ∧ t'.holds = none ∧ t'.isBoot = false)
    (hwho : ∀ u : Task Γ, u.Knows d → t.Apart u → ∀ x ∈ u.holds, lv.executes ≠ some x) :
    Interleave.Keeps (Daemon.Sound Γ) Task.Knows Task.Apart d t d' ts := by
  refine h.keeps hd (fun t' ht' => (hts t' ht').1) ?_ hwho ?_
  · refine List.pairwise_of_forall_mem_list fun a ha b hb => ?_
    exact Task.Apart.of_holds_none (hts a ha).2.2 (hts b hb).2.2 (hts a ha).2.1
  · intro u _ htu t' ht'
    exact Task.Apart.of_holds_none (hts t' ht').2.2 htu.right (hts t' ht').2.1

/-- A step that ends no execution and leaves one task that holds nothing keeps the pool. -/
theorem Serves.keeps_one {d d' : Daemon} {t t' : Task Γ} (h : Serves Γ lv d d') (hx : lv.executes = none) (hd : d.Sound Γ)
    (hk : t'.Knows d') (hh : t'.holds = none) (hb : t'.isBoot = false) :
    Interleave.Keeps (Daemon.Sound Γ) Task.Knows Task.Apart d t d' [t'] :=
  h.keeps_free hd (fun x hx => by rw [List.mem_singleton.mp hx]; exact ⟨hk, hh, hb⟩) (fun _ _ _ _ _ => by rw [hx]; simp)

/-- A step that ends no execution and leaves no task keeps the pool. -/
theorem Serves.keeps_none {d d' : Daemon} {t : Task Γ} (h : Serves Γ lv d d') (hx : lv.executes = none) (hd : d.Sound Γ) :
    Interleave.Keeps (Daemon.Sound Γ) Task.Knows Task.Apart d t d' [] :=
  h.keeps_free hd (fun _ hx => absurd hx List.not_mem_nil) (fun _ _ _ _ _ => by rw [hx]; simp)

theorem EnqueuePoint.leave_executes {p : EnqueuePoint} : p.leave.executes = none := by cases p <;> rfl

theorem DispatchPoint.leave_executes {p : DispatchPoint} : p.leave.executes = none := by cases p <;> rfl

theorem ReviewPoint.leave_executes {p : ReviewPoint} : p.leave.executes = none := by cases p <;> rfl

/-- What the supervisor may end and finish is the parent it has decided on. -/
theorem SupervisorPoint.leave_parent {st : Store} {p : SupervisorPoint} (hp : p.Knows st) {x : String}
    (hx : p.leave.executes = some x) : st.ParentRun x := by
  cases p with
  | finish parentId outcome parents =>
    obtain rfl := Option.some.inj hx
    exact hp.1
  | launching p parent parents =>
    rw [SupervisorPoint.leave, EnqueuePoint.leave_executes] at hx
    nomatch hx
  | _ => nomatch hx

/-- Step lemma: a step keeps the pool. -/
theorem TaskStep.keeps {d d' : Daemon} {t : Task Γ} {l : Label Γ} {ts : List (Task Γ)} (h : TaskStep Γ d t l d' ts)
    (hd : d.Sound Γ) (ht : t.Knows d) : Interleave.Keeps (Daemon.Sound Γ) Task.Knows Task.Apart d t d' ts := by
  have hrefl : Serves Γ {} d d := Serves.of_moves (Moves.refl _) (Leave.Sound.nothing rfl rfl) rfl rfl
  cases h with
  | boot hstep =>
    have hs := hstep.serves
    have halone : ∀ (u : Task Γ) {p : BootPoint}, ¬ (Task.boot (Γ := Γ) p).Apart u := fun u p hu => nomatch hu.left
    rcases hstep.tasks with rfl | ⟨q, rfl⟩ | rfl
    · exact hs.keeps hd (fun _ hx => absurd hx List.not_mem_nil) List.Pairwise.nil (fun u _ hu => absurd hu (halone u))
        (fun u _ hu => absurd hu (halone u))
    · exact hs.keeps hd (fun x hx => by rw [List.mem_singleton.mp hx]; trivial) (List.pairwise_singleton _ _)
        (fun u _ hu => absurd hu (halone u)) (fun u _ hu => absurd hu (halone u))
    · exact hs.keeps_free hd (fun x hx => servingTasks_idle hx d') (fun u _ hu => absurd hu (halone u))
  | @worker _ p p' _ hstep =>
    obtain ⟨hs, hp', hholds⟩ := hstep.serves hd ht
    refine hs.keeps hd (fun x hx => by rw [List.mem_singleton.mp hx]; exact hp') (List.pairwise_singleton _ _)
      (fun u _ hu x hx hw => hu.holds x hw hx) ?_
    intro u hu htu t' ht'
    rw [List.mem_singleton.mp ht']
    refine ⟨rfl, htu.right, fun x hx hxu => ?_⟩
    rcases hholds x hx with hx | hnone
    · exact htu.holds x hx hxu
    · cases u with
      | worker q =>
        obtain ⟨token, htoken⟩ := hu.token x hxu
        exact Daemon.token?_of_mem htoken hnone
      | _ => nomatch hxu
  | stop hstep => exact hstep.serves.keeps_one rfl hd trivial rfl rfl
  | stopped hstep => exact hstep.serves.keeps_none rfl hd
  | dispatch hstep =>
    obtain ⟨hs, hq⟩ := hstep.serves hd ht
    exact hs.keeps_one DispatchPoint.leave_executes hd (hq _ rfl) rfl rfl
  | dispatched hstep => exact (hstep.serves hd ht).1.keeps_none DispatchPoint.leave_executes hd
  | review hstep =>
    have hs := hstep.serves
    rcases hstep.tasks with rfl | ⟨q, rfl⟩ | ⟨runId, rfl⟩
    · exact hs.keeps_none ReviewPoint.leave_executes hd
    · exact hs.keeps_one ReviewPoint.leave_executes hd trivial rfl rfl
    · exact hs.keeps_one ReviewPoint.leave_executes hd (fun _ hx => nomatch hx) rfl rfl
  | enqueue hstep =>
    obtain ⟨hs, hq⟩ := hstep.serves hd ht
    exact hs.keeps_one EnqueuePoint.leave_executes hd (hq _ rfl) rfl rfl
  | enqueued hstep | enqueueFailed hstep => exact (hstep.serves hd ht).1.keeps_none EnqueuePoint.leave_executes hd
  | sweep => exact hrefl.keeps_one rfl hd trivial rfl rfl
  | @expire runId expired =>
    have hs : Serves Γ {} d (d.wrote (expireRun Γ.toCtx runId)) :=
      Serves.of_moves expireRun_moves (Leave.Sound.nothing rfl rfl) rfl rfl
    exact hs.keeps_one rfl hd trivial rfl rfl
  | @supervisor _ p p' _ hstep =>
    obtain ⟨hs, hp'⟩ := hstep.serves hd ht
    refine hs.keeps_free hd (fun x hx => by rw [List.mem_singleton.mp hx]; exact ⟨hp', rfl, rfl⟩) ?_
    intro u hu _ x hx hw
    have hparent := SupervisorPoint.leave_parent ht hw
    cases u with
    | worker q => exact hd.store.plain_ne_parent (hu.plain _ (WorkerPoint.runId?_of_holds hx)) hparent rfl
    | _ => nomatch hx
  | @register def_ htext =>
    have hs : Serves Γ { registers := some def_ } d (d.wrote (registerDefinition Γ.toCtx def_)) :=
      Serves.of_moves (registerDefinition_moves rfl) ⟨nofun, by rintro x ⟨⟩; exact ⟨ht, htext⟩⟩ rfl rfl
    exact hs.keeps_none rfl hd
  | @launch run hfresh =>
    have hs : Serves Γ {} d (d.wrote (launchCampaign Γ.toCtx run)) :=
      Serves.of_moves (launchCampaign_moves hfresh) (Leave.Sound.nothing rfl rfl) rfl rfl
    exact hs.keeps_none rfl hd
  | outside harrives =>
    refine hrefl.keeps_free hd ?_ (fun _ _ _ _ _ => (Option.some_ne_none _).symm)
    intro x hx
    rcases List.mem_cons.mp hx with rfl | hx
    · exact ⟨trivial, rfl, rfl⟩
    · rw [List.mem_singleton.mp hx]
      cases harrives with
      | register def_ hk => exact ⟨hk, rfl, rfl⟩
      | enqueue | approve | reject | breakGlass | stop | launch => exact ⟨trivial, rfl, rfl⟩

/-- A restart keeps the pool: the orphan sweep runs alone, and the queue is empty. -/
theorem Restart.keeps {c c' : Interleave.Config Daemon (Task Γ)} {l : Label Γ} (h : Restart Γ c l c') (hc : Pool Γ c) :
    Pool Γ c' := by
  cases h
  exact ⟨⟨hc.shared.store, fun _ hx => absurd hx List.not_mem_nil⟩, fun t ht => by rw [List.mem_singleton.mp ht]; trivial,
    List.pairwise_singleton _ _⟩

/-- The pool holds before the first start. -/
theorem pool_init (Γ : DaemonCtx) : Pool Γ (daemonInit Γ) :=
  have hnil : ∀ {α : Type} {P : α → Prop}, ∀ x ∈ ([] : List α), P x := fun _ hx => absurd hx List.not_mem_nil
  ⟨⟨⟨List.nodup_nil, hnil, hnil, hnil⟩, hnil⟩, fun t ht => by rw [List.mem_singleton.mp ht]; trivial, List.pairwise_singleton _ _⟩

/-! ## Terminal rows -/

/-- Every terminal row keeps its state and its end. -/
def Store.TerminalKept (st st' : Store) : Prop :=
  ∀ (i : Nat) (r : RunRow), st.runs[i]? = some r → r.state.isTerminal = true →
    ∃ r', st'.runs[i]? = some r' ∧ r'.state = r.state ∧ r'.endedAtNs = r.endedAtNs

theorem Store.TerminalKept.refl (st : Store) : st.TerminalKept st := fun _ r hr _ => ⟨r, hr, rfl, rfl⟩

theorem Store.TerminalKept.trans (a b c : Store) (h : a.TerminalKept b) (h' : b.TerminalKept c) : a.TerminalKept c := by
  intro i r hr ht
  obtain ⟨r', hr', hs, he⟩ := h i r hr ht
  obtain ⟨r'', hr'', hs', he'⟩ := h' i r' hr' (by rw [hs]; exact ht)
  exact ⟨r'', hr'', hs'.trans hs, he'.trans he⟩

/-- A closure that finishes only runs that have not ended keeps every terminal row. -/
theorem Moves.terminalKept {st st' : Store} (h : Moves lv st st')
    (hlive : ∀ x ∈ lv.finishes, ∀ r ∈ st.runs, r.id = x → r.state.isTerminal = false) : st.TerminalKept st' := by
  intro i r hr ht
  obtain ⟨r', hr', hk⟩ := h.rows i r hr
  refine ⟨r', hr', hk.terminal (fun hf => ?_) ht⟩
  rw [hlive _ hf r (List.mem_of_getElem? hr) rfl] at ht
  nomatch ht

/-- What a step finishes has not ended: a worker's run is in flight, and the others meet the condition. -/
theorem TaskStep.finishes_live {d d' : Daemon} {t : Task Γ} {l : Label Γ} {ts : List (Task Γ)} (h : TaskStep Γ d t l d' ts)
    (hok : finishesLive d l) (hd : d.Sound Γ) (ht : t.Knows d) :
    ∀ x ∈ t.leave.finishes, ∀ r ∈ d.store.runs, r.id = x → r.state.isTerminal = false := by
  intro x hx
  cases h with
  | worker => exact Store.busy_not_terminal hd.store.ids (ht.busy x hx)
  | @boot _ p _ _ hstep =>
    cases hstep with
    | close =>
      obtain rfl := Option.some.inj hx
      exact hok
    | _ => nomatch hx
  | @supervisor _ p p' _ hstep =>
    cases hstep with
    | finish =>
      obtain rfl := Option.some.inj hx
      exact hok
    | @launching _ p | @launched _ p | @launchFailed _ p =>
      cases p <;> nomatch hx
    | _ => nomatch hx
  | @dispatch _ p | @dispatched _ p => cases p <;> nomatch hx
  | @review _ p => cases p <;> nomatch hx
  | @enqueue _ p | @enqueued _ p | @enqueueFailed _ p => cases p <;> nomatch hx
  | _ => nomatch hx

/-- One step of the daemon that meets the condition keeps the pool and every terminal row. -/
theorem daemon_step_keeps {c c' : Interleave.Config Daemon (Task Γ)} {l : Label Γ} (hc : Pool Γ c)
    (h : Interleave.Step (daemonSystem Γ) c l c') (hok : finishesLive c.shared l) :
    Pool Γ c' ∧ c.shared.store.TerminalKept c'.shared.store := by
  cases h with
  | @task d d' t l ts before after hstep =>
    have hstep : TaskStep Γ d t l d' ts := hstep
    have ht : t.Knows d := hc.task t (by simp)
    have hm := hstep.moves (fun p hp => by subst hp; exact SupervisorPoint.Knows.decided ht)
    exact ⟨hc.task_step (fun _ _ => Task.Apart.symm) (hstep.keeps hc.shared ht),
      hm.terminalKept (hstep.finishes_live hok hc.shared ht)⟩
  | reset hreset =>
    refine ⟨Restart.keeps hreset hc, ?_⟩
    cases hreset
    exact Store.TerminalKept.refl _

/-- Terminal run states are absorbing: in every run of the daemon whose finishes of campaign parents and of orphans meet no run
that has ended, a row whose state is terminal keeps its state and its end. -/
theorem terminal_runs_absorbing {c c' : Interleave.Config Daemon (Task Γ)} {trace trace' : List (Daemon × Label Γ)}
    (h : Interleave.Run (daemonSystem Γ) (daemonInit Γ) trace c) (h' : Interleave.Run (daemonSystem Γ) c trace' c')
    (hok : ∀ e ∈ trace ++ trace', finishesLive e.1 e.2) : c.shared.store.TerminalKept c'.shared.store := by
  have hrefl : ∀ d : Daemon, d.store.TerminalKept d.store := fun d => Store.TerminalKept.refl _
  have htrans : ∀ a b c : Daemon, a.store.TerminalKept b.store → b.store.TerminalKept c.store → a.store.TerminalKept c.store :=
    fun _ _ _ => Store.TerminalKept.trans _ _ _
  obtain ⟨hc, -⟩ := h.relates hrefl htrans (fun _ _ _ => daemon_step_keeps) (pool_init Γ)
    (fun e he => hok e (List.mem_append_left _ he))
  exact (h'.relates hrefl htrans (fun _ _ _ => daemon_step_keeps) hc (fun e he => hok e (List.mem_append_right _ he))).2

/-- A run is stopped before a worker takes it, and the worker leaves it as it is. -/
theorem terminal_runs_absorbing_stopped :
    ∃ c c' : Interleave.Config Daemon (Task smallCtx), c.shared.readRunState "run-1" = some .aborted ∧
      c.shared.store.TerminalKept c'.shared.store := by
  have h := serving_reachable smallCtx (P := finishesLive) (fun _ => trivial)
  have h := h.task 3 rfl (.outside (.register smallDefinition (by decide))) trivial
  have h := h.task 4 rfl (.register (by decide)) trivial
  have h := h.task 3 rfl (.outside (.enqueue ⟨"def-1", "experiment", [], "dev", none⟩ .T0 none)) trivial
  have h := h.task 4 rfl (.enqueue (.start "run-1" none "" (by decide) rfl rfl rfl rfl)) trivial
  have h := h.task 4 rfl (.enqueue (.write ⟨by decide, by decide, by decide, by decide⟩ rfl)) trivial
  have h := h.task 4 rfl (.enqueued .send) trivial
  have h := h.task 3 rfl (.outside (.stop "run-1" none)) trivial
  have h := h.task 4 rfl (.stop (.read rfl rfl)) trivial
  have h := h.task 4 rfl (.stop (.notFound rfl)) trivial
  have h := h.task 4 rfl (.stopped .write) trivial
  have h' := h.here.task 0 rfl (.worker (.take rfl)) trivial
  have h' := h'.task 0 rfl (.worker (.register rfl)) trivial
  have h' := h'.task 0 rfl (.worker .skip) trivial
  obtain ⟨trace', h', hok'⟩ := h'.task 0 rfl (.worker .deregister) trivial
  obtain ⟨trace, h, hok⟩ := h
  exact ⟨_, _, rfl, terminal_runs_absorbing h h' (List.forall_mem_append.mpr ⟨hok, hok'⟩)⟩

/-- A stop that lands between the supervisor's read of a campaign and its finish is overwritten: the run of the campaign ends as
`aborted`, and then as `deviated`. -/
theorem terminal_runs_absorbing_false :
    ¬ ∀ (Γ : DaemonCtx) (c c' : Interleave.Config Daemon (Task Γ)) (trace trace' : List (Daemon × Label Γ)),
      Interleave.Run (daemonSystem Γ) (daemonInit Γ) trace c → Interleave.Run (daemonSystem Γ) c trace' c' →
      c.shared.store.TerminalKept c'.shared.store := by
  intro habsorbing
  have h := serving_reachable smallCtx (P := fun _ _ => True) (fun _ => trivial)
  -- register the experiment and the campaign, and launch the campaign as run-1
  have h := h.task 3 rfl (.outside (.register smallDefinition (by decide))) trivial
  have h := h.task 4 rfl (.register (by decide)) trivial
  have h := h.task 3 rfl (.outside (.register smallCampaign (by decide))) trivial
  have h := h.task 4 rfl (.register (by decide)) trivial
  have h := h.task 3 rfl (.outside (.launch ⟨"run-1", "def-2", none, 0, none⟩ smallCampaign (by decide) rfl rfl)) trivial
  have h := h.task 4 rfl (.launch ⟨by decide, by decide, by decide, by decide⟩) trivial
  -- the supervisor enqueues its only step as run-2
  have h := h.task 2 rfl (.supervisor .tick) trivial
  have h := h.task 2 rfl (.supervisor (.enqueue ⟨"def-1", "experiment", [], "dev", none⟩ .T0 none rfl (by decide) rfl)) trivial
  have h := h.task 2 rfl (.supervisor (.launching (.start "run-2" none "" (by decide) rfl rfl rfl rfl))) trivial
  have h := h.task 2 rfl (.supervisor (.launching (.write ⟨by decide, by decide, by decide, by decide⟩ rfl))) trivial
  have h := h.task 2 rfl (.supervisor (.launched .send)) trivial
  have h := h.task 2 rfl (.supervisor .link) trivial
  have h := h.task 2 rfl (.supervisor .done) trivial
  -- run-2 is stopped before a worker takes it
  have h := h.task 3 rfl (.outside (.stop "run-2" none)) trivial
  have h := h.task 4 rfl (.stop (.read rfl rfl)) trivial
  have h := h.task 4 rfl (.stop (.notFound rfl)) trivial
  have h := h.task 4 rfl (.stopped .write) trivial
  -- the next tick reads run-1 as running, and decides its outcome
  have h := h.task 2 rfl (.supervisor .tick) trivial
  have h := h.task 2 rfl (.supervisor (.decide (by decide) (by decide))) trivial
  -- before it writes, run-1 is stopped
  have h := h.task 3 rfl (.outside (.stop "run-1" none)) trivial
  have h := h.task 4 rfl (.stop (.read rfl rfl)) trivial
  have h := h.task 4 rfl (.stop (.notFound rfl)) trivial
  have h := h.task 4 rfl (.stopped .write) trivial
  obtain ⟨trace', h', -⟩ := h.here.task 2 rfl (.supervisor .finish) trivial
  obtain ⟨trace, h, -⟩ := h
  obtain ⟨r, hr, hstate, -⟩ := habsorbing smallCtx _ _ trace trace' h h' 0 _ rfl rfl
  obtain rfl := Option.some.inj hr
  nomatch hstate

end Tumult
