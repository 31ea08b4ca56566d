import Tumult.Daemon.Moves

/-!
# A stop against a worker

Whether a run whose stop was accepted can still execute. A stop has three steps (read the state, look the token up and cancel it,
write) and so has the worker's side (register the token, claim, begin): the registry of tokens and the run's row are two sources of
truth. A stop that found the token cancels the execution; a stop that writes before the execution has started aborts the row, and
the begin is refused. Between the two lies one order of steps: the lookup finds nothing, the worker registers and begins, and the
stop then writes `stopping` over a running execution whose token nobody cancels.
-/

namespace Tumult

variable {Γ : DaemonCtx}

/-- One stop and one run of `process`: the daemon's steps, without restarts; the worker's loop ends when `process` returns. -/
def stopRace (Γ : DaemonCtx) : Interleave.System Daemon (Task Γ) (Label Γ) where
  step d t l d' ts := TaskStep Γ d t l d' ts ∧ t ≠ .worker .idle
  reset _ _ _ := False

/-- The stop has found the run's token, or writes before the execution has started. -/
def stopSeesRun (d : Daemon) : Label Γ → Prop
  | .stopWrite runId found _ => found ≠ none ∨ ∀ r ∈ d.store.runs, r.id = runId → r.startedAtNs = none
  | _ => True

/-- What an accepted stop promises: every token under which an execution began is cancelled, and the run has not passed. -/
def StopKept (runId : String) (trace : List (Daemon × Label Γ)) (d : Daemon) : Prop :=
  (∃ s found, (s, Label.stopWrite runId found true) ∈ trace) →
    (∀ s item p token, (s, Label.began item p token) ∈ trace → d.isCancelled token = true) ∧
      ∀ r ∈ d.store.runs, r.id = runId → r.state ≠ .passed

/-! ## What enters a state -/

/-- A run is in a state only if it was in it before. -/
def Store.Avoids (state : RunState) (st st' : Store) : Prop :=
  ∀ r' ∈ st'.runs, r'.state = state → ∃ r ∈ st.runs, r.id = r'.id ∧ r.state = state

theorem Store.Avoids.refl {state : RunState} (st : Store) : st.Avoids state st := fun r hr hs => ⟨r, hr, rfl, hs⟩

theorem Store.Avoids.trans {state : RunState} (a b c : Store) (h : a.Avoids state b) (h' : b.Avoids state c) :
    a.Avoids state c := by
  intro r'' hr'' hs
  obtain ⟨r', hr', hid, hs'⟩ := h' r'' hr'' hs
  obtain ⟨r, hr, hid', hs⟩ := h r' hr' hs'
  exact ⟨r, hr, hid'.trans hid, hs⟩

/-- An update that sets no matched row to the state avoids it. -/
theorem Store.Avoids.update {state : RunState} {st st' : Store} {p : RunRow → Bool} {f : RunRow → RunRow}
    (h : st'.runs = Db.updateWhere p f st.runs) (hf : ∀ r, p r = true → (f r).state ≠ state) : st.Avoids state st' := by
  intro r' hr' hs
  rw [h] at hr'
  obtain ⟨o, ho, rfl⟩ := Db.mem_updateWhere.mp hr'
  by_cases hp : p o = true
  · rw [if_pos hp] at hs
    exact absurd hs (hf o hp)
  · rw [if_neg hp] at hs ⊢
    exact ⟨o, ho, rfl, hs⟩

/-- A transaction avoids what it avoids when it returns. -/
theorem Store.Avoids.tx {Γ : Ctx} {state : RunState} {s : Session} {body : Writer Unit}
    (h : ∀ s', withTx Γ body s = (.ok (), s') → s.store.Avoids state s'.store) :
    s.store.Avoids state (withTx Γ body s).2.store := by
  rcases hr : withTx Γ body s with ⟨e | u, s'⟩
  · rw [Db.withTx_error hr]
    exact Store.Avoids.refl _
  · exact h s' hr

section Passed

variable {Γ : Ctx} {s : Session}

theorem failRun_avoids_passed {runId error : String} : s.store.Avoids .passed (failRun Γ runId error s).2.store := by
  refine Store.Avoids.tx fun s' h => ?_
  obtain ⟨now, _, _, hstore⟩ := failRun_ok h
  refine Store.Avoids.update (by rw [hstore]) fun r _ => ?_
  rw [failRow_state]
  split <;> nofun

theorem insertRunAudit_avoids {state : RunState} {runId event : String} {detail actor : Option String} :
    s.store.Avoids state (insertRunAudit Γ runId event detail actor s).2.store :=
  insertRunAudit_store fun _ => Store.Avoids.refl _

theorem refuseDispatch_avoids_passed {runId reason : String} :
    s.store.Avoids .passed (refuseDispatch Γ runId reason s).2.store :=
  Db.bind_store Store.Avoids.trans insertRunAudit_avoids fun _ _ _ => failRun_avoids_passed

theorem claimRun_avoids_passed {runId : String} : s.store.Avoids .passed (claimRun Γ runId s).2.store := by
  refine Store.Avoids.tx fun s' h => ?_
  obtain ⟨_, _, _, hstore⟩ := claimRun_ok h
  exact Store.Avoids.update (by rw [hstore]) fun r _ => by simp

theorem beginRunExecution_avoids_passed {runId planJson : String} {pin : Option String} :
    s.store.Avoids .passed (beginRunExecution Γ runId planJson pin s).2.store := by
  refine Store.Avoids.tx fun s' h => ?_
  obtain ⟨_, _, _, _, _, hstore⟩ := beginRunExecution_ok h
  exact Store.Avoids.update (by rw [hstore]) fun r _ => by simp

/-- An execution whose token is cancelled completes only as interrupted. -/
theorem recordCompletion_avoids_passed {runId : String} {j : RunJournal} :
    s.store.Avoids .passed (recordCompletion Γ true runId j s).2.store := by
  unfold recordCompletion
  split
  · exact Store.Avoids.refl _
  · rename_i hj
    have hinterrupted : j.status = .interrupted := by simpa using hj
    refine Db.bind_store Store.Avoids.trans (execute_store (Store.Avoids.refl _) (Store.Avoids.refl _)) fun _ s' h => ?_
    obtain ⟨-, -, rfl⟩ := Db.statement_ok.mp h
    refine Store.Avoids.tx fun s' h => ?_
    obtain ⟨_, now, _, _, hstore⟩ := finishRun_ok h
    refine Store.Avoids.update (by rw [hstore]) fun r _ => ?_
    unfold completionState
    rw [hinterrupted]
    split <;> nofun

end Passed

/-- A worker whose token is cancelled passes no run. -/
theorem WorkerStep.avoids_passed {d d' : Daemon} {p p' : WorkerPoint Γ} {l : Label Γ} (h : WorkerStep Γ d p l d' p')
    (hc : ∀ item token, p.registered? = some (item, token) → d.isCancelled token = true) :
    d.store.Avoids .passed d'.store := by
  cases h with
  | refuse => exact refuseDispatch_avoids_passed
  | claim | claimRefused => exact claimRun_avoids_passed
  | begin_ | beginRefused => exact beginRunExecution_avoids_passed
  | complete | completeRefused | completeCleaned =>
    rw [hc _ _ rfl]
    exact recordCompletion_avoids_passed
  | fail => exact failRun_avoids_passed
  | _ => exact Store.Avoids.refl _

/-! ## The race -/

/-- A stop's point, if the call has not returned, and the worker's. -/
def raceTasks (runId : String) (actor : Option String) (stop : Option StopPoint) (q : WorkerPoint Γ) : List (Task Γ) :=
  (stop.map (Task.stop runId actor)).toList ++ [.worker q]

/-- A token the run may be found under: the one it was registered under before, or the worker's. -/
def OwnToken (d₀ : Daemon) (runId : String) (token : Nat) : Prop :=
  d₀.token? runId = some token ∨ token = d₀.nextToken

/-- How far the worker is: it has not registered, or it has, under its own token, or it has returned. -/
inductive Registered (d₀ d : Daemon) (item : WorkItem) (q : WorkerPoint Γ) : Prop where
  | before (hq : q = .dequeued item) (htokens : d.tokens = d₀.tokens) (hnext : d.nextToken = d₀.nextToken)
  | under (hq : q.registered? = some (item, d₀.nextToken)) (hnone : d₀.token? item.runId = none)
      (htoken : d.token? item.runId = some d₀.nextToken)
  | returned (hq : q = .idle) (hfound : ∀ token, d.token? item.runId = some token → d₀.token? item.runId = some token)

/-- What an accepted stop has brought about: the row is aborted and nothing began, or the token is cancelled and the run has not
passed. -/
inductive Stopped (d₀ : Daemon) (runId : String) (trace : List (Daemon × Label Γ)) (d : Daemon) : Prop where
  | aborted (hrow : ∃ r ∈ d.store.runs, r.id = runId ∧ r.state = .aborted)
      (hbegan : ∀ s item p token, (s, Label.began item p token) ∉ trace)
  | cancelled (htoken : d₀.token? runId = none → d.isCancelled d₀.nextToken = true)
      (hrow : ∀ r ∈ d.store.runs, r.id = runId → r.state ≠ .passed)

/-- What holds between two steps of the race, started from `d₀`. -/
structure Race (d₀ : Daemon) (item : WorkItem) (trace : List (Daemon × Label Γ)) (d : Daemon) (stop : Option StopPoint)
    (q : WorkerPoint Γ) : Prop where
  ids : (d.store.runs.map RunRow.id).Nodup
  busy : ∀ x ∈ q.executes, d.store.BusyRun x
  worker : Registered d₀ d item q
  began : ∀ s i p token, (s, Label.began i p token) ∈ trace →
    token = d₀.nextToken ∧ d₀.token? item.runId = none ∧ ∃ r ∈ d.store.runs, r.id = item.runId ∧ r.startedAtNs ≠ none
  cancelling : ∀ token, stop = some (.cancel token) → OwnToken d₀ item.runId token
  writing : ∀ token, stop = some (.write (some token)) → OwnToken d₀ item.runId token ∧ d.isCancelled token = true
  accepted : (∃ s found, (s, Label.stopWrite item.runId found true) ∈ trace) → stop = none ∧ Stopped d₀ item.runId trace d

/-- The row of a run is one. -/
theorem row_unique {st : Store} (hids : (st.runs.map RunRow.id).Nodup) {a b : RunRow} (ha : a ∈ st.runs) (hb : b ∈ st.runs)
    (hid : a.id = b.id) : a = b := List.inj_on_of_nodup_map hids ha hb hid

/-- What the worker found registered is its own, whatever its point. -/
theorem Registered.own {d₀ d : Daemon} {item : WorkItem} {q : WorkerPoint Γ} (h : Registered d₀ d item q) {token : Nat}
    (ht : d.token? item.runId = some token) : OwnToken d₀ item.runId token := by
  cases h with
  | before hq htokens hnext =>
    refine Or.inl ?_
    unfold Daemon.token? at ht ⊢
    rw [← htokens]
    exact ht
  | under hq hnone htoken =>
    rw [htoken] at ht
    exact Or.inr (Option.some.inj ht).symm
  | returned hq hfound => exact Or.inl (hfound token ht)

/-- The registration of a worker that goes on. -/
theorem Registered.step {d₀ d d' : Daemon} {item : WorkItem} {q q' : WorkerPoint Γ} {l : Label Γ}
    (h : Registered d₀ d item q) (hq : q ≠ .idle) (hstep : WorkerStep Γ d q l d' q') : Registered d₀ d' item q' := by
  -- a step of a registered worker that stays registered leaves the registry
  have hunder : ∀ i token, q.registered? = some (i, token) → q'.registered? = q.registered? → d'.tokens = d.tokens →
      Registered d₀ d' item q' := by
    intro i token hreg hsame htokens
    cases h with
    | before hq' => rw [hq'] at hreg; nomatch hreg
    | returned hq' => exact absurd hq' hq
    | under hreg' hnone htoken =>
      refine .under (hsame.trans hreg') hnone ?_
      unfold Daemon.token? at htoken ⊢
      rw [htokens]
      exact htoken
  cases hstep with
  | take => exact absurd rfl hq
  | @register i hnone =>
    cases h with
    | before hq' htokens hnext =>
      obtain rfl := WorkerPoint.dequeued.inj hq'
      have hnone₀ : d₀.token? i.runId = none := by
        unfold Daemon.token? at hnone ⊢
        rw [← htokens]
        exact hnone
      refine .under (by rw [← hnext]; rfl) hnone₀ ?_
      rw [← hnext]
      simp [Daemon.token?]
    | under hreg => nomatch hreg
    | returned hq' => nomatch hq'
  | @duplicate i token htoken =>
    cases h with
    | before hq' htokens hnext =>
      refine .returned rfl fun t ht => ?_
      unfold Daemon.token? at ht ⊢
      rw [← htokens]
      exact ht
    | under hreg => nomatch hreg
    | returned hq' => nomatch hq'
  | @deregister i token =>
    cases h with
    | before hq' => nomatch hq'
    | returned hq' => nomatch hq'
    | under hreg hnone htoken =>
      obtain ⟨rfl, -⟩ := Prod.mk.inj (Option.some.inj hreg)
      refine .returned rfl fun t ht => ?_
      obtain ⟨e, he, -⟩ := Option.map_eq_some_iff.mp ht
      have hid : e.1 = i.runId := by simpa using List.find?_some he
      have hother := (List.mem_filter.mp (List.mem_of_find?_eq_some he)).2
      simp [hid] at hother
  | _ => exact hunder _ _ rfl rfl rfl

/-- A worker's step keeps the race. -/
theorem Race.worker_step {d₀ d d' : Daemon} {item : WorkItem} {trace : List (Daemon × Label Γ)} {stop : Option StopPoint}
    {q q' : WorkerPoint Γ} {l : Label Γ} (h : Race d₀ item trace d stop q) (hq : q ≠ .idle)
    (hstep : WorkerStep Γ d q l d' q') : Race d₀ item (trace ++ [(d, l)]) d' stop q' := by
  have hm := hstep.moves.live fun x hx => Store.busy_not_terminal h.ids (h.busy x hx)
  have hbusy := hstep.busy h.busy
  have hcancelled : d'.cancelled = d.cancelled := by cases hstep <;> rfl
  have hnotStop : ∀ runId found accepted, l ≠ .stopWrite runId found accepted := by
    intro runId found accepted hl
    subst hl
    nomatch hstep
  have hown : ∀ i token, q.registered? = some (i, token) → i = item ∧ token = d₀.nextToken ∧ d₀.token? item.runId = none := by
    intro i token hreg
    cases h.worker with
    | before hq' => rw [hq'] at hreg; nomatch hreg
    | under hreg' hnone =>
      obtain ⟨rfl, rfl⟩ := Prod.mk.inj (Option.some.inj (hreg.symm.trans hreg'))
      exact ⟨rfl, rfl, hnone⟩
    | returned hq' => exact absurd hq' hq
  refine ⟨hm.uniq h.ids, hbusy, h.worker.step hq hstep, ?_, h.cancelling, ?_, ?_⟩
  · intro s i p token he
    rcases List.mem_append.mp he with he | he
    · obtain ⟨htoken, hnone, hrow⟩ := h.began s i p token he
      exact ⟨htoken, hnone, hm.startedRun hrow⟩
    · obtain ⟨rfl, rfl⟩ := Prod.mk.inj (List.mem_singleton.mp he)
      obtain ⟨hreg, -, r, hr, hid, -, hs⟩ := hstep.began_ok
      obtain ⟨rfl, rfl, hnone⟩ := hown i token hreg
      exact ⟨rfl, hnone, r, hr, hid, hs⟩
  · intro token hst
    obtain ⟨ht, hc⟩ := h.writing token hst
    refine ⟨ht, ?_⟩
    unfold Daemon.isCancelled at hc ⊢
    rw [hcancelled]
    exact hc
  · rintro ⟨s, found, he⟩
    rcases List.mem_append.mp he with he | he
    · obtain ⟨hst, hstopped⟩ := h.accepted ⟨s, found, he⟩
      refine ⟨hst, ?_⟩
      cases hstopped with
      | aborted hrow hbegan =>
        refine .aborted (hm.endedRun (Option.some_ne_none _).symm rfl hrow) fun s i p token he => ?_
        rcases List.mem_append.mp he with he | he
        · exact hbegan s i p token he
        · -- a begin needs the row validating, and the row is aborted
          obtain ⟨rfl, rfl⟩ := Prod.mk.inj (List.mem_singleton.mp he)
          obtain ⟨hreg, ⟨r, hr, hid, hvalidating⟩, -⟩ := hstep.began_ok
          obtain ⟨rfl, -⟩ := hown i token hreg
          obtain ⟨r', hr', hid', haborted⟩ := hrow
          obtain rfl := row_unique h.ids hr hr' (hid.trans hid'.symm)
          rw [hvalidating] at haborted
          nomatch haborted
      | cancelled htoken hrow =>
        refine .cancelled (fun hnone => ?_) fun r' hr' hid' hpassed => ?_
        · unfold Daemon.isCancelled at htoken ⊢
          rw [hcancelled]
          exact htoken hnone
        · have havoids := hstep.avoids_passed fun i token hreg => by
            obtain ⟨-, rfl, hnone⟩ := hown i token hreg
            exact htoken hnone
          obtain ⟨r, hr, hid, hs⟩ := havoids r' hr' hpassed
          exact hrow r hr (hid.trans hid') hs
    · exact absurd (Prod.mk.inj (List.mem_singleton.mp he)).2.symm (hnotStop _ _ _)

/-- A stop that the writer accepted met a row it could stop, and left it aborted when it had not started. -/
theorem requestRunStop_row {Γ : Ctx} {d : Daemon} {runId : String} {actor : Option String}
    (hids : (d.store.runs.map RunRow.id).Nodup) (h : d.accepts (requestRunStop Γ runId actor) = true) :
    ∃ now, ∃ r ∈ d.store.runs, r.id = runId ∧
      ∀ r' ∈ (d.wrote (requestRunStop Γ runId actor)).store.runs, r'.id = runId ↔ r' = stopRow now r := by
  obtain ⟨u, hok⟩ := Daemon.accepts_ok h
  obtain ⟨hn, now, audit', -, hstore⟩ := requestRunStop_ok hok
  have hpos : 0 < d.session.store.runs.countP (stoppable runId) := by omega
  obtain ⟨r, hr, hp⟩ := List.countP_pos_iff.mp hpos
  have hid : r.id = runId := by
    simp only [stoppable, Bool.and_eq_true, decide_eq_true_eq] at hp
    exact hp.1
  have hstopId : ∀ o : RunRow, (stopRow now o).id = o.id := by
    intro o
    unfold stopRow
    split <;> rfl
  refine ⟨now, r, hr, hid, fun r' hr' => ?_⟩
  rw [Daemon.store, hstore] at hr'
  obtain ⟨o, ho, rfl⟩ := Db.mem_updateWhere.mp hr'
  constructor
  · intro hid'
    have hoid : o.id = runId := by
      split at hid'
      · rwa [hstopId] at hid'
      · exact hid'
    obtain rfl := row_unique hids ho hr (hoid.trans hid.symm)
    rw [if_pos hp]
  · intro hr'
    rw [hr', hstopId]
    exact hid

/-- A step of the stop keeps the race, when the stop sees the run. -/
theorem Race.stop_step {d₀ d d' : Daemon} {item : WorkItem} {actor : Option String} {trace : List (Daemon × Label Γ)}
    {p : StopPoint} {p' : Option StopPoint} {q : WorkerPoint Γ} {l : Label Γ} (h : Race d₀ item trace d (some p) q)
    (hok : stopSeesRun d l) (hstep : StopStep Γ item.runId actor d p l d' p') :
    Race d₀ item (trace ++ [(d, l)]) d' p' q := by
  have hnot : ¬ ∃ s found, (s, Label.stopWrite item.runId found true) ∈ trace := fun he => nomatch (h.accepted he).1
  -- the steps before the write leave the store, the registry and the labels quiet
  have hquiet : ∀ c, (∀ t, d.isCancelled t = true → Daemon.isCancelled { d with cancelled := c } t = true) →
      (∀ t, p' = some (.cancel t) → OwnToken d₀ item.runId t) →
      (∀ t, p' = some (.write (some t)) → OwnToken d₀ item.runId t ∧ t ∈ c) →
      Race d₀ item (trace ++ [(d, .quiet)]) { d with cancelled := c } p' q := by
    intro c hc hcancel hwrite
    refine ⟨h.ids, h.busy, ?_, ?_, hcancel, ?_, ?_⟩
    · cases h.worker with
      | before hq htokens hnext => exact .before hq htokens hnext
      | under hq hnone htoken => exact .under hq hnone htoken
      | returned hq hfound => exact .returned hq hfound
    · intro s i pr token he
      rcases List.mem_append.mp he with he | he
      · exact h.began s i pr token he
      · nomatch (Prod.mk.inj (List.mem_singleton.mp he)).2
    · intro t ht
      exact ⟨(hwrite t ht).1, by simpa [Daemon.isCancelled] using (hwrite t ht).2⟩
    · rintro ⟨s, found, he⟩
      rcases List.mem_append.mp he with he | he
      · exact absurd ⟨s, found, he⟩ hnot
      · nomatch (Prod.mk.inj (List.mem_singleton.mp he)).2
  cases hstep with
  | read => exact hquiet d.cancelled (fun _ h => h) nofun nofun
  | refused => exact hquiet d.cancelled (fun _ h => h) nofun nofun
  | @found token htoken =>
    refine hquiet d.cancelled (fun _ h => h) ?_ nofun
    rintro t ⟨⟩
    exact h.worker.own htoken
  | notFound => exact hquiet d.cancelled (fun _ h => h) nofun (by rintro t ⟨⟩)
  | @cancel token =>
    refine hquiet (token :: d.cancelled) (fun t ht => ?_) nofun ?_
    · simp only [Daemon.isCancelled, decide_eq_true_eq] at ht ⊢
      exact List.mem_cons_of_mem _ ht
    · rintro t ⟨⟩
      exact ⟨h.cancelling token rfl, List.mem_cons_self⟩
  | @write found =>
    have hm : Moves {} d.store (d.wrote (requestRunStop Γ.toCtx item.runId actor)).store := requestRunStop_moves
    refine ⟨hm.uniq h.ids, fun x hx => hm.busyRun (by simp) (h.busy x hx), ?_, ?_, nofun, nofun, ?_⟩
    · cases h.worker with
      | before hq htokens hnext => exact .before hq htokens hnext
      | under hq hnone htoken => exact .under hq hnone htoken
      | returned hq hfound => exact .returned hq hfound
    · intro s i pr token he
      rcases List.mem_append.mp he with he | he
      · obtain ⟨ht, hnone, hrow⟩ := h.began s i pr token he
        exact ⟨ht, hnone, hm.startedRun hrow⟩
      · nomatch (Prod.mk.inj (List.mem_singleton.mp he)).2
    · rintro ⟨s, found', he⟩
      rcases List.mem_append.mp he with he | he
      · exact absurd ⟨s, found', he⟩ hnot
      obtain ⟨-, hl⟩ := Prod.mk.inj (List.mem_singleton.mp he)
      obtain ⟨-, rfl, hacc⟩ := Label.stopWrite.inj hl
      refine ⟨rfl, ?_⟩
      obtain ⟨now, r, hr, hid, hrow⟩ := requestRunStop_row h.ids hacc.symm
      cases found' with
      | some token =>
        -- the token the lookup found is cancelled, and it is the worker's unless the worker never registers
        obtain ⟨hown, hc⟩ := h.writing token rfl
        refine .cancelled (fun hnone => ?_) fun r' hr' hid' => ?_
        · rcases hown with hown | rfl
          · rw [hnone] at hown
            nomatch hown
          · exact hc
        · rw [(hrow r' hr').mp hid', stopRow_state]
          split <;> nofun
      | none =>
        -- nothing began: an execution that began has a started row
        have hstart : ∀ r ∈ d.store.runs, r.id = item.runId → r.startedAtNs = none := by
          rcases hok with hok | hok
          · exact absurd rfl hok
          · exact hok
        obtain ⟨r', hmem, hkeep⟩ := hm.row hr
        refine .aborted ⟨r', hmem, hkeep.id.trans hid, ?_⟩ fun s i pr token he => ?_
        · rw [(hrow r' hmem).mp (hkeep.id.trans hid), stopRow_state, if_pos (hstart r hr hid)]
        · rcases List.mem_append.mp he with he | he
          · obtain ⟨-, -, o, ho, hoid, hs⟩ := h.began s i pr token he
            exact hs (hstart o ho hoid)
          · nomatch (Prod.mk.inj (List.mem_singleton.mp he)).2

/-- The task that steps is the stop or the worker. -/
theorem raceTasks_split {runId : String} {actor : Option String} {stop : Option StopPoint} {q : WorkerPoint Γ}
    {t : Task Γ} {before after : List (Task Γ)} (h : before ++ t :: after = raceTasks runId actor stop q) :
    (∃ p, stop = some p ∧ t = .stop runId actor p ∧ before = [] ∧ after = [.worker q]) ∨
      (t = .worker q ∧ before = (stop.map (Task.stop runId actor)).toList ∧ after = []) := by
  cases stop with
  | none =>
    cases before with
    | nil => simpa [raceTasks] using h
    | cons b before => simp [raceTasks] at h
  | some p =>
    cases before with
    | nil => simpa [raceTasks] using h
    | cons b before =>
      cases before with
      | nil =>
        obtain ⟨rfl, rfl, rfl⟩ : b = .stop runId actor p ∧ t = .worker q ∧ after = [] := by simpa [raceTasks] using h
        exact Or.inr ⟨rfl, rfl, rfl⟩
      | cons b' before => simp [raceTasks] at h

/-- The race holds along every run in which the stop sees the run (induction on the run). -/
theorem race_run {d₀ : Daemon} {item : WorkItem} {actor : Option String} (hids : (d₀.store.runs.map RunRow.id).Nodup)
    {trace : List (Daemon × Label Γ)} {c : Interleave.Config Daemon (Task Γ)}
    (h : Interleave.Run (stopRace Γ) ⟨d₀, raceTasks item.runId actor (some .read) (.dequeued item)⟩ trace c)
    (hok : ∀ e ∈ trace, stopSeesRun e.1 e.2) :
    ∃ stop q, c.tasks = raceTasks item.runId actor stop q ∧ Race d₀ item trace c.shared stop q := by
  induction h with
  | nil =>
    refine ⟨some .read, .dequeued item, rfl, hids, nofun, .before rfl rfl rfl, nofun, nofun, nofun, ?_⟩
    rintro ⟨s, found, he⟩
    nomatch he
  | snoc _ hs ih =>
    obtain ⟨stop, q, htasks, hrace⟩ := ih fun e he => hok e (List.mem_append_left _ he)
    have hlast := hok _ (List.mem_append_right _ (List.mem_singleton_self _))
    cases hs with
    | reset hr => exact absurd hr id
    | task before after ht =>
      obtain ⟨hstep, hidle⟩ := ht
      rcases raceTasks_split htasks with ⟨p, rfl, rfl, rfl, rfl⟩ | ⟨rfl, rfl, rfl⟩
      · cases hstep with
        | stop hstep => exact ⟨_, q, rfl, hrace.stop_step hlast hstep⟩
        | stopped hstep => exact ⟨none, q, rfl, hrace.stop_step hlast hstep⟩
      · cases hstep with
        | worker hstep => exact ⟨stop, _, by simp [raceTasks], hrace.worker_step (fun hq => hidle (by rw [hq])) hstep⟩

/-- A stop is never lost: in every interleaving of one stop and one run of `process` for the same run, where the stop has found the
token or writes before the execution has started, an accepted stop means that every token under which the execution began is
cancelled, and that the run has not passed. -/
theorem stop_never_lost {d : Daemon} {item : WorkItem} {actor : Option String} (hids : (d.store.runs.map RunRow.id).Nodup)
    {trace : List (Daemon × Label Γ)} {c : Interleave.Config Daemon (Task Γ)}
    (h : Interleave.Run (stopRace Γ) ⟨d, [.stop item.runId actor .read, .worker (.dequeued item)]⟩ trace c)
    (hok : ∀ e ∈ trace, stopSeesRun e.1 e.2) : StopKept item.runId trace c.shared := by
  obtain ⟨stop, q, -, hrace⟩ := race_run hids h hok
  intro haccepted
  cases (hrace.accepted haccepted).2 with
  | aborted hrow hbegan =>
    refine ⟨fun s i p token he => absurd he (hbegan s i p token), fun r hr hid => ?_⟩
    obtain ⟨r', hr', hid', hs⟩ := hrow
    rw [row_unique hrace.ids hr hr' (hid.trans hid'.symm), hs]
    nofun
  | cancelled htoken hrow =>
    refine ⟨fun s i p token he => ?_, hrow⟩
    obtain ⟨rfl, hnone, -⟩ := hrace.began s i p token he
    exact htoken hnone

/-- A daemon with one queued run, and its work item. -/
def queuedDaemon : Daemon :=
  ⟨⟨{ Store.empty with
      registry := [smallDefinition], runs := [NewRun.row ⟨"run-1", "def-1", none, 0, none⟩ .queued],
      pins := [⟨"run-1", "resolved"⟩] }, 0⟩, [], 0, [], [], 4⟩

def queuedItem : WorkItem := ⟨"run-1", ⟨"def-1", "experiment", [], "dev", none⟩, none⟩

/-- A stop that comes after the begin cancels the token the execution runs under. -/
theorem stop_never_lost_running : ∃ (trace : List (Daemon × Label smallCtx)) (c : Interleave.Config Daemon (Task smallCtx)),
    (∃ s found, (s, Label.stopWrite "run-1" found true) ∈ trace) ∧ StopKept "run-1" trace c.shared := by
  have h := Interleave.Run.nil (S := stopRace smallCtx) ⟨queuedDaemon, [.stop "run-1" none .read, .worker (.dequeued queuedItem)]⟩
  have h := h.task 1 rfl ⟨.worker (.register rfl), nofun⟩
  have h := h.task 1 rfl ⟨.worker (.readState rfl), nofun⟩
  have h := h.task 1 rfl ⟨.worker (.verify rfl), nofun⟩
  have h := h.task 1 rfl ⟨.worker (.claim rfl), nofun⟩
  have h := h.task 1 rfl ⟨.worker (.prepare rfl), nofun⟩
  have h := h.task 1 rfl ⟨.worker (.validate rfl rfl), nofun⟩
  have h := h.task 1 rfl ⟨.worker (.checkToken rfl), nofun⟩
  have h := h.task 1 rfl ⟨.worker (.begin_ rfl), nofun⟩
  have h := h.task 0 rfl ⟨.stop (.read rfl rfl), nofun⟩
  have h := h.task 0 rfl ⟨.stop (.found rfl), nofun⟩
  have h := h.task 0 rfl ⟨.stop .cancel, nofun⟩
  have h := h.task 0 rfl ⟨.stopped .write, nofun⟩
  have hids : (queuedDaemon.store.runs.map RunRow.id).Nodup := by decide
  have hkept := @stop_never_lost _ _ queuedItem _ hids _ _ h (by simp [stopSeesRun])
  refine ⟨_, _, ?_, hkept⟩
  exact ⟨_, some 0, List.mem_append_right _ (List.mem_singleton.mpr rfl)⟩

/-- A lookup that comes before the registration finds no token; when the begin comes before the write, the stop is accepted, and the
execution, which nobody cancelled, passes. -/
theorem stop_never_lost_false :
    ¬ ∀ (Γ : DaemonCtx) (d : Daemon) (item : WorkItem) (actor : Option String) (trace : List (Daemon × Label Γ))
      (c : Interleave.Config Daemon (Task Γ)), (d.store.runs.map RunRow.id).Nodup →
      Interleave.Run (stopRace Γ) ⟨d, [.stop item.runId actor .read, .worker (.dequeued item)]⟩ trace c →
      StopKept item.runId trace c.shared := by
  intro hkept
  have h := Interleave.Run.nil (S := stopRace smallCtx) ⟨queuedDaemon, [.stop "run-1" none .read, .worker (.dequeued queuedItem)]⟩
  have h := h.task 0 rfl ⟨.stop (.read rfl rfl), nofun⟩
  have h := h.task 0 rfl ⟨.stop (.notFound rfl), nofun⟩
  have h := h.task 1 rfl ⟨.worker (.register rfl), nofun⟩
  have h := h.task 1 rfl ⟨.worker (.readState rfl), nofun⟩
  have h := h.task 1 rfl ⟨.worker (.verify rfl), nofun⟩
  have h := h.task 1 rfl ⟨.worker (.claim rfl), nofun⟩
  have h := h.task 1 rfl ⟨.worker (.prepare rfl), nofun⟩
  have h := h.task 1 rfl ⟨.worker (.validate rfl rfl), nofun⟩
  have h := h.task 1 rfl ⟨.worker (.checkToken rfl), nofun⟩
  have h := h.task 1 rfl ⟨.worker (.begin_ rfl), nofun⟩
  have h := h.task 0 rfl ⟨.stopped .write, nofun⟩
  have h := h.task 0 rfl ⟨.worker (.execute ⟨"exp-1", .completed, 0, 0⟩), nofun⟩
  have h := h.task 0 rfl ⟨.worker (.complete rfl), nofun⟩
  have haccepted := hkept smallCtx queuedDaemon queuedItem none _ _ (by decide) h ⟨_, none,
    List.mem_append_left _ (List.mem_append_left _ (List.mem_append_right _ (List.mem_singleton.mpr rfl)))⟩
  exact haccepted.2 _ (List.mem_singleton.mpr rfl) rfl rfl

end Tumult
