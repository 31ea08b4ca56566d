import Tumult.Daemon.Step

/-!
# What the writer's closures do to run rows

`Moves lv st st'` says what a closure may do to the run rows, said once for all of them: rows stay where they are and keep their
id and definition, no row enters `pending_approval`, a row enters the queue only when it leaves its approval, a row that has ended
stays as it ended, a row whose execution is in flight stays in flight, new rows have new ids, and what stands beside the rows is
only added to. A `Leave` names the exceptions a closure is allowed; `Task.leave` gives every task the leave it writes with, and
`TaskStep.moves` is the one lemma about all the daemon's steps.
-/

namespace Tumult

/-- A state in which no execution has started. -/
def RunState.isWaiting (s : RunState) : Bool := s ∈ [.pendingApproval, .queued, .validating]

/-- The row's execution is in flight. -/
def RunRow.Busy (r : RunRow) : Prop := (r.state = .running ∨ r.state = .stopping) ∧ r.startedAtNs ≠ none

/-- What a closure may do beside what every closure may. -/
structure Leave where
  /-- End the execution of this run. -/
  executes : Option String := none
  /-- Finish this run also when it has ended. -/
  finishes : Option String := none
  /-- Queue this run, which waits for approval. -/
  opens : Option String := none
  /-- Insert a run that waits for approval, of this definition. -/
  submits : Option String := none
  /-- Register this definition. -/
  registers : Option RegisteredDefinition := none
  /-- Write approvals and decisions. -/
  gates : Bool := false

/-- What a closure may do to a row. -/
structure RowMoves (lv : Leave) (r r' : RunRow) : Prop where
  id : r'.id = r.id
  registryId : r'.registryId = r.registryId
  pending : r'.state = .pendingApproval → r.state = .pendingApproval
  queued : r'.state = .queued ∨ r'.state = .validating →
    (r.state = .queued ∨ r.state = .validating) ∨ (r.state = .pendingApproval ∧ lv.opens = some r.id)
  waiting : r'.state.isWaiting = true → r'.startedAtNs = r.startedAtNs
  started : r.startedAtNs ≠ none → r'.startedAtNs ≠ none
  terminal : lv.finishes ≠ some r.id → r.state.isTerminal = true → r'.state = r.state ∧ r'.endedAtNs = r.endedAtNs
  busy : lv.executes ≠ some r.id → r.Busy → r'.Busy

/-- What a closure may do to the store. -/
structure Moves (lv : Leave) (st st' : Store) : Prop where
  rows : ∀ (i : Nat) (r : RunRow), st.runs[i]? = some r → ∃ r', st'.runs[i]? = some r' ∧ RowMoves lv r r'
  fresh : ∀ (i : Nat) (r' : RunRow), st'.runs[i]? = some r' → st.runs[i]? = none →
    st.Fresh r'.id ∧ (r'.state.isWaiting = true → r'.startedAtNs = none) ∧
      (r'.state = .pendingApproval → lv.submits = some r'.registryId)
  uniq : (st.runs.map RunRow.id).Nodup → (st'.runs.map RunRow.id).Nodup
  keys : ∀ x, st'.Fresh x → st.Fresh x
  registry : st.registry <+: st'.registry
  registered : ∀ def_ ∈ st'.registry, def_ ∈ st.registry ∨ lv.registers = some def_
  gates : lv.gates = false → st'.approvals = st.approvals ∧ st'.decisions = st.decisions
  pins : st.pins <+: st'.pins

/-! ## Rules -/

variable {lv : Leave}

/-- A row keeps itself. -/
theorem RowMoves.refl (r : RunRow) : RowMoves lv r r :=
  ⟨rfl, rfl, fun h => h, Or.inl, fun _ => rfl, fun h => h, fun _ _ => ⟨rfl, rfl⟩, fun _ h => h⟩

/-- A row that waits has waited. -/
theorem RowMoves.waited {r r' : RunRow} (h : RowMoves lv r r') (hw : r'.state.isWaiting = true) :
    r.state.isWaiting = true := by
  simp only [RunState.isWaiting, List.mem_cons, List.not_mem_nil, or_false, decide_eq_true_eq] at hw ⊢
  rcases hw with hw | hw
  · exact Or.inl (h.pending hw)
  · rcases h.queued hw with hw | ⟨hw, -⟩
    · exact Or.inr hw
    · exact Or.inl hw

theorem RowMoves.trans {a b c : RunRow} (h : RowMoves lv a b) (h' : RowMoves lv b c) : RowMoves lv a c := by
  refine ⟨h'.id.trans h.id, h'.registryId.trans h.registryId, fun hp => h.pending (h'.pending hp), ?_, ?_,
    fun hs => h'.started (h.started hs), ?_, ?_⟩
  · intro hq
    rcases h'.queued hq with hq | ⟨hp, ho⟩
    · exact h.queued hq
    · exact Or.inr ⟨h.pending hp, by rw [← h.id]; exact ho⟩
  · intro hw
    exact (h'.waiting hw).trans (h.waiting (h'.waited hw))
  · intro hf ht
    obtain ⟨hs, he⟩ := h.terminal hf ht
    obtain ⟨hs', he'⟩ := h'.terminal (by rw [h.id]; exact hf) (by rw [hs]; exact ht)
    exact ⟨hs'.trans hs, he'.trans he⟩
  · intro hx hb
    exact h'.busy (by rw [h.id]; exact hx) (h.busy hx hb)

/-- A row that leaves for a state that does not wait. -/
theorem RowMoves.leaves {r r' : RunRow} (hid : r'.id = r.id) (hreg : r'.registryId = r.registryId)
    (hw : r'.state.isWaiting = false) (hs : r.startedAtNs ≠ none → r'.startedAtNs ≠ none)
    (ht : lv.finishes = some r.id ∨ r.state.isTerminal = false) (hb : lv.executes = some r.id ∨ (r.Busy → r'.Busy)) :
    RowMoves lv r r' := by
  have hnot : ∀ s : RunState, r'.state = s → s.isWaiting = true → False := by
    intro s h hws
    rw [h, hws] at hw
    nomatch hw
  refine ⟨hid, hreg, fun h => (hnot _ h rfl).elim, ?_, ?_, hs, ?_, ?_⟩
  · rintro (h | h)
    · exact (hnot _ h rfl).elim
    · exact (hnot _ h rfl).elim
  · intro h
    rw [hw] at h
    nomatch h
  · intro hf hterm
    rcases ht with ht | ht
    · exact absurd ht hf
    · rw [ht] at hterm
      nomatch hterm
  · intro hx
    exact hb.resolve_left hx

/-- A closure that leaves the runs, the registry and the approvals moves nothing. -/
theorem Moves.quiet {st st' : Store} (hr : st'.runs = st.runs) (hg : st'.registry = st.registry)
    (ha : st'.approvals = st.approvals) (hd : st'.decisions = st.decisions) (hp : st'.pins = st.pins) : Moves lv st st' := by
  refine ⟨?_, ?_, fun h => by rw [hr]; exact h, ?_, by rw [hg], fun _ h => Or.inl (by rw [← hg]; exact h), fun _ => ⟨ha, hd⟩,
    by rw [hp]⟩
  · intro i r h
    exact ⟨r, by rw [hr]; exact h, RowMoves.refl r⟩
  · intro i r' h hnone
    rw [hr, hnone] at h
    nomatch h
  · rintro x ⟨h1, h2, h3, h4⟩
    exact ⟨by rw [← hr]; exact h1, by rw [← ha]; exact h2, by rw [← hd]; exact h3, by rw [← hp]; exact h4⟩

theorem Moves.refl (st : Store) : Moves lv st st := Moves.quiet rfl rfl rfl rfl rfl

theorem Moves.trans (a b c : Store) (h : Moves lv a b) (h' : Moves lv b c) : Moves lv a c := by
  refine ⟨?_, ?_, fun hu => h'.uniq (h.uniq hu), fun x hx => h.keys x (h'.keys x hx), h.registry.trans h'.registry, ?_, ?_,
    h.pins.trans h'.pins⟩
  · intro i r hr
    obtain ⟨r', hr', hk⟩ := h.rows i r hr
    obtain ⟨r'', hr'', hk'⟩ := h'.rows i r' hr'
    exact ⟨r'', hr'', hk.trans hk'⟩
  · intro i r'' hr'' hnone
    cases hb : b.runs[i]? with
    | none =>
      obtain ⟨hf, hrest⟩ := h'.fresh i r'' hr'' hb
      exact ⟨h.keys _ hf, hrest⟩
    | some r' =>
      obtain ⟨x, hx, hk⟩ := h'.rows i r' hb
      obtain rfl : x = r'' := Option.some.inj (hx.symm.trans hr'')
      obtain ⟨hf, hw, hp⟩ := h.fresh i r' hb hnone
      refine ⟨by rw [hk.id]; exact hf, fun hwait => ?_, fun hpend => ?_⟩
      · rw [hk.waiting hwait]
        exact hw (hk.waited hwait)
      · rw [hk.registryId]
        exact hp (hk.pending hpend)
  · intro def_ hd
    rcases h'.registered def_ hd with hd | hd
    · exact h.registered def_ hd
    · exact Or.inr hd
  · intro hg
    obtain ⟨ha, hd⟩ := h.gates hg
    obtain ⟨ha', hd'⟩ := h'.gates hg
    exact ⟨ha'.trans ha, hd'.trans hd⟩

/-- An update of run rows moves what it matches. -/
theorem Moves.update {st st' : Store} {p : RunRow → Bool} {f : RunRow → RunRow}
    (hruns : st'.runs = Db.updateWhere p f st.runs) (hreg : st'.registry = st.registry) (hpins : st'.pins = st.pins)
    (ha : st'.approvals.map (·.runId) = st.approvals.map (·.runId)) (hd : st'.decisions = st.decisions)
    (hgates : lv.gates = true ∨ st'.approvals = st.approvals)
    (hf : ∀ r ∈ st.runs, p r = true → RowMoves lv r (f r)) : Moves lv st st' := by
  have hid : st'.runs.map RunRow.id = st.runs.map RunRow.id := by
    rw [hruns]
    unfold Db.updateWhere
    rw [List.map_map]
    refine List.map_congr_left fun r hr => ?_
    by_cases hp : p r
    · simp [hp, (hf r hr hp).id]
    · simp [hp]
  refine ⟨?_, ?_, fun hu => by rw [hid]; exact hu, ?_, by rw [hreg], fun _ h => Or.inl (by rw [← hreg]; exact h), ?_, by rw [hpins]⟩
  · intro i r hr
    refine ⟨if p r then f r else r, by rw [hruns, Db.getElem?_updateWhere, hr]; rfl, ?_⟩
    split
    · exact hf r (List.mem_of_getElem? hr) ‹_›
    · exact RowMoves.refl r
  · intro i r' hr' hnone
    rw [hruns, Db.getElem?_updateWhere, hnone] at hr'
    nomatch hr'
  · rintro x ⟨h1, h2, h3, h4⟩
    have hkey : ∀ {α β : Type} {xs ys : List α} {key : α → β} {x : β}, xs.map key = ys.map key → (∀ a ∈ xs, key a ≠ x) →
        ∀ b ∈ ys, key b ≠ x := by
      intro α β xs ys key x hmap hxs b hb hbx
      obtain ⟨a, ha', hab⟩ := List.mem_map.mp (by rw [hmap]; exact List.mem_map_of_mem hb : key b ∈ xs.map key)
      exact hxs a ha' (hab.trans hbx)
    exact ⟨hkey hid h1, hkey ha h2, by rw [← hd]; exact h3, by rw [← hpins]; exact h4⟩
  · intro hg
    refine ⟨hgates.resolve_left (by simp [hg]), hd⟩

/-- A new row with a new id moves nothing. -/
theorem Moves.append {st st' : Store} {row : RunRow} {pins : List ExecutionPin} {approvals : List ApprovalRow}
    (hruns : st'.runs = st.runs ++ [row]) (hreg : st'.registry = st.registry) (hpins : st'.pins = st.pins ++ pins)
    (ha : st'.approvals = st.approvals ++ approvals) (hd : st'.decisions = st.decisions)
    (hgates : lv.gates = true ∨ approvals = []) (hid : st.Fresh row.id) (hs : row.startedAtNs = none)
    (hp : row.state = .pendingApproval → lv.submits = some row.registryId) : Moves lv st st' := by
  refine ⟨?_, ?_, ?_, ?_, by rw [hreg], fun _ h => Or.inl (by rw [← hreg]; exact h), ?_, by rw [hpins]; exact List.prefix_append _ _⟩
  · intro i r hr
    have hlt := (List.getElem?_eq_some_iff.mp hr).1
    exact ⟨r, by rw [hruns, List.getElem?_append_left hlt]; exact hr, RowMoves.refl r⟩
  · intro i r' hr' hnone
    have hge := List.getElem?_eq_none_iff.mp hnone
    rw [hruns, List.getElem?_append_right hge] at hr'
    obtain rfl : r' = row := List.mem_singleton.mp (List.mem_of_getElem? hr')
    exact ⟨hid, fun _ => hs, hp⟩
  · intro hu
    rw [hruns, List.map_append, List.map_singleton]
    refine List.nodup_append.mpr ⟨hu, List.nodup_singleton _, ?_⟩
    intro a ha b hb
    obtain ⟨r, hr, rfl⟩ := List.mem_map.mp ha
    rw [List.mem_singleton.mp hb]
    exact hid.runs r hr
  · rintro x ⟨h1, h2, h3, h4⟩
    exact ⟨fun r hr => h1 r (by rw [hruns]; exact List.mem_append_left _ hr),
      fun a ha' => h2 a (by rw [ha]; exact List.mem_append_left _ ha'), fun dec hdec => h3 dec (by rw [hd]; exact hdec),
      fun p hp => h4 p (by rw [hpins]; exact List.mem_append_left _ hp)⟩
  · intro hg
    have hnil := hgates.resolve_left (by simp [hg])
    exact ⟨by rw [ha, hnil, List.append_nil], hd⟩

/-- Every row stays, under its id. -/
theorem Moves.row {st st' : Store} (h : Moves lv st st') {r : RunRow} (hr : r ∈ st.runs) :
    ∃ r' ∈ st'.runs, RowMoves lv r r' := by
  obtain ⟨i, hi⟩ := List.mem_iff_getElem?.mp hr
  obtain ⟨r', hr', hk⟩ := h.rows i r hi
  exact ⟨r', List.mem_of_getElem? hr', hk⟩

/-- Every row was there, or is new. -/
theorem Moves.origin {st st' : Store} (h : Moves lv st st') {r' : RunRow} (hr' : r' ∈ st'.runs) :
    (∃ r ∈ st.runs, RowMoves lv r r') ∨ (st.Fresh r'.id ∧ (r'.state.isWaiting = true → r'.startedAtNs = none) ∧
      (r'.state = .pendingApproval → lv.submits = some r'.registryId)) := by
  obtain ⟨i, hi⟩ := List.mem_iff_getElem?.mp hr'
  cases hb : st.runs[i]? with
  | none => exact Or.inr (h.fresh i r' hi hb)
  | some r =>
    obtain ⟨x, hx, hk⟩ := h.rows i r hb
    obtain rfl : x = r' := Option.some.inj (hx.symm.trans hi)
    exact Or.inl ⟨r, List.mem_of_getElem? hb, hk⟩

/-- The execution of the run is in flight. -/
def Store.BusyRun (st : Store) (runId : String) : Prop := ∃ r ∈ st.runs, r.id = runId ∧ r.Busy

/-- An execution in flight stays in flight when the closure may not end it. -/
theorem Moves.busyRun {st st' : Store} (h : Moves lv st st') {x : String} (hw : lv.executes ≠ some x)
    (hx : st.BusyRun x) : st'.BusyRun x := by
  obtain ⟨r, hr, rfl, hb⟩ := hx
  obtain ⟨r', hr', hk⟩ := h.row hr
  exact ⟨r', hr', hk.id, hk.busy hw hb⟩

/-- A run that has started stays started. -/
theorem Moves.startedRun {st st' : Store} (h : Moves lv st st') {x : String}
    (hx : ∃ r ∈ st.runs, r.id = x ∧ r.startedAtNs ≠ none) : ∃ r ∈ st'.runs, r.id = x ∧ r.startedAtNs ≠ none := by
  obtain ⟨r, hr, rfl, hs⟩ := hx
  obtain ⟨r', hr', hk⟩ := h.row hr
  exact ⟨r', hr', hk.id, hk.started hs⟩

/-- A run that has ended stays as it ended when the closure may not finish it. -/
theorem Moves.endedRun {st st' : Store} (h : Moves lv st st') {x : String} (hf : lv.finishes ≠ some x) {state : RunState}
    (ht : state.isTerminal = true) (hx : ∃ r ∈ st.runs, r.id = x ∧ r.state = state) :
    ∃ r ∈ st'.runs, r.id = x ∧ r.state = state := by
  obtain ⟨r, hr, rfl, rfl⟩ := hx
  obtain ⟨r', hr', hk⟩ := h.row hr
  exact ⟨r', hr', hk.id, (hk.terminal hf ht).1⟩

/-- A finish of a run that has not ended finishes no run that has. -/
theorem Moves.live {st st' : Store} (h : Moves lv st st')
    (hlive : ∀ x ∈ lv.finishes, ∀ r ∈ st.runs, r.id = x → r.state.isTerminal = false) :
    Moves { lv with finishes := none } st st' := by
  refine ⟨fun i r hr => ?_, h.fresh, h.uniq, h.keys, h.registry, h.registered, h.gates, h.pins⟩
  obtain ⟨r', hr', hk⟩ := h.rows i r hr
  refine ⟨r', hr', hk.id, hk.registryId, hk.pending, hk.queued, hk.waiting, hk.started, fun _ ht => ?_, hk.busy⟩
  by_cases hf : lv.finishes = some r.id
  · rw [hlive _ hf r (List.mem_of_getElem? hr) rfl] at ht
    nomatch ht
  · exact hk.terminal hf ht

/-- A run in flight has not ended. -/
theorem Store.busy_not_terminal {st : Store} (hids : (st.runs.map RunRow.id).Nodup) {x : String} (hx : st.BusyRun x) :
    ∀ r ∈ st.runs, r.id = x → r.state.isTerminal = false := by
  intro r hr hid
  obtain ⟨b, hb, hbid, hs, -⟩ := hx
  obtain rfl := List.inj_on_of_nodup_map hids hr hb (hid.trans hbid.symm)
  rcases hs with hs | hs <;> rw [hs] <;> rfl

/-! ## The closures -/

section Closures

variable {Γ : Ctx} {s : Session}

/-- A transaction moves what it moves when it returns. -/
theorem moves_of_tx {body : Writer Unit} (h : ∀ s', withTx Γ body s = (.ok (), s') → Moves lv s.store s'.store) :
    Moves lv s.store (withTx Γ body s).2.store := by
  rcases hr : withTx Γ body s with ⟨e | u, s'⟩
  · rw [Db.withTx_error hr]
    exact Moves.refl _
  · exact h s' hr

/-- A closure that reported success returned, and left the session of the daemon after it. -/
theorem Daemon.accepts_ok {α : Type} {d : Daemon} {w : Writer α} (h : d.accepts w = true) :
    ∃ a, w d.session = (.ok a, (d.wrote w).session) := by
  unfold Daemon.accepts at h
  unfold Daemon.wrote
  rcases hw : w d.session with ⟨e | a, s⟩
  · rw [hw] at h
    nomatch h
  · exact ⟨a, rfl⟩

/-- A transaction that was refused wrote nothing. -/
theorem Daemon.wrote_refused {w body : Writer Unit} {d : Daemon} (hw : w = withTx Γ body) (h : d.accepts w = false) :
    (d.wrote w).store = d.store := by
  subst hw
  unfold Daemon.accepts at h
  change (withTx Γ body d.session).2.store = d.session.store
  rcases hw : withTx Γ body d.session with ⟨e | u, s'⟩
  · exact Db.withTx_error hw
  · rw [hw] at h
    nomatch h

theorem insertRunAudit_moves {runId event : String} {detail actor : Option String} :
    Moves lv s.store (insertRunAudit Γ runId event detail actor s).2.store :=
  insertRunAudit_store fun _ => Moves.quiet rfl rfl rfl rfl rfl

theorem insertRunWithContext_moves {run : NewRun} {context : Option RunContext} (hfresh : s.store.Fresh run.id) :
    Moves lv s.store (insertRunWithContext Γ run context s).2.store := by
  refine moves_of_tx fun s' h => ?_
  obtain ⟨_, _, hstore⟩ := insertRunWithContext_ok h
  rw [hstore]
  exact Moves.append rfl rfl rfl (List.append_nil _).symm rfl (Or.inr rfl) hfresh rfl (fun hp => nomatch hp)

theorem insertGatedRunWithContext_moves {run : NewRun} {req : ApprovalRequest} {detail : Option String}
    {context : Option RunContext} (hg : lv.gates = true) (hs : lv.submits = some run.registryId)
    (hfresh : s.store.Fresh run.id) :
    Moves lv s.store (insertGatedRunWithContext Γ run req detail context s).2.store := by
  refine moves_of_tx fun s' h => ?_
  obtain ⟨_, _, hstore⟩ := insertGatedRunWithContext_ok h
  rw [hstore]
  exact Moves.append rfl rfl rfl rfl rfl (Or.inl hg) hfresh rfl (fun _ => hs)

theorem claimRun_moves {runId : String} : Moves lv s.store (claimRun Γ runId s).2.store := by
  refine moves_of_tx fun s' h => ?_
  obtain ⟨_, _, _, hstore⟩ := claimRun_ok h
  rw [hstore]
  refine Moves.update rfl rfl rfl rfl rfl (Or.inr rfl) fun r _ hp => ?_
  obtain ⟨-, hs⟩ : r.id = runId ∧ r.state = .queued := by simpa [claimable] using hp
  refine ⟨rfl, rfl, nofun, fun _ => Or.inl (Or.inl hs), fun _ => rfl, fun h => h, fun _ ht => ?_, fun _ hb => ?_⟩
  · rw [hs] at ht
    nomatch ht
  · simp [RunRow.Busy, hs] at hb

theorem beginRunExecution_moves {runId planJson : String} {pin : Option String} (hg : lv.gates = true) :
    Moves lv s.store (beginRunExecution Γ runId planJson pin s).2.store := by
  refine moves_of_tx fun s' h => ?_
  obtain ⟨_, _, _, _, _, hstore⟩ := beginRunExecution_ok h
  rw [hstore]
  refine Moves.update rfl rfl rfl (Db.map_updateWhere (by intro a; rfl) _) rfl (Or.inl hg) fun r _ hp => ?_
  obtain ⟨-, hs⟩ : r.id = runId ∧ r.state = .validating := by simpa [beginnable] using hp
  exact RowMoves.leaves rfl rfl rfl (fun _ => by simp) (Or.inr (by rw [hs]; rfl))
    (Or.inr fun hb => by simp [RunRow.Busy, hs] at hb)

theorem requestRunStop_moves {runId : String} {actor : Option String} :
    Moves lv s.store (requestRunStop Γ runId actor s).2.store := by
  refine moves_of_tx fun s' h => ?_
  obtain ⟨_, now, _, _, hstore⟩ := requestRunStop_ok h
  rw [hstore]
  refine Moves.update rfl rfl rfl rfl rfl (Or.inr rfl) fun r _ hp => ?_
  have ht : r.state.isTerminal = false := by
    obtain ⟨-, hs⟩ : r.id = runId ∧ r.state ∈ [RunState.queued, .validating, .running, .stopping, .pendingApproval] := by
      simpa [stoppable] using hp
    simp only [List.mem_cons, List.not_mem_nil, or_false] at hs
    rcases hs with hs | hs | hs | hs | hs <;> rw [hs] <;> rfl
  unfold stopRow
  split
  · exact RowMoves.leaves rfl rfl rfl (fun h => h) (Or.inr ht) (Or.inr fun hb => absurd ‹_› hb.2)
  · exact RowMoves.leaves rfl rfl rfl (fun h => h) (Or.inr ht) (Or.inr fun hb => ⟨Or.inr rfl, hb.2⟩)

theorem failRun_moves {runId error : String} (hx : lv.executes = some runId) :
    Moves lv s.store (failRun Γ runId error s).2.store := by
  refine moves_of_tx fun s' h => ?_
  obtain ⟨now, _, _, hstore⟩ := failRun_ok h
  rw [hstore]
  refine Moves.update rfl rfl rfl rfl rfl (Or.inr rfl) fun r _ hp => ?_
  obtain ⟨hid, hs⟩ : r.id = runId ∧ r.state ∈ [RunState.queued, .validating, .running, .stopping] := by
    simpa [failable] using hp
  have ht : r.state.isTerminal = false := by
    simp only [List.mem_cons, List.not_mem_nil, or_false] at hs
    rcases hs with hs | hs | hs | hs <;> rw [hs] <;> rfl
  unfold failRow
  split
  · exact RowMoves.leaves rfl rfl rfl (fun h => h) (Or.inr ht) (Or.inl (by rw [hid]; exact hx))
  · exact RowMoves.leaves rfl rfl rfl (fun h => h) (Or.inr ht) (Or.inl (by rw [hid]; exact hx))

/-- A finish that checks the state first: rejected and expired. -/
theorem finishRun_pending_moves {runId : String} {state : RunState} {e rb err : Option String}
    (hs : state = .rejected ∨ state = .expired) : Moves lv s.store (finishRun Γ runId state e rb err s).2.store := by
  refine moves_of_tx fun s' h => ?_
  obtain ⟨_, now, _, _, hstore⟩ := finishRun_ok h
  rw [hstore]
  refine Moves.update rfl rfl rfl rfl rfl (Or.inr rfl) fun r _ hp => ?_
  have hpend : r.state = .pendingApproval := by
    rcases hs with rfl | rfl <;> simpa [finishable] using (Bool.and_eq_true_iff.mp hp).2
  refine RowMoves.leaves rfl rfl ?_ (fun h => h) (Or.inr (by rw [hpend]; rfl)) (Or.inr fun hb => by simp [RunRow.Busy, hpend] at hb)
  rcases hs with rfl | rfl <;> rfl

/-- A finish that does not check the state. -/
theorem finishRun_moves {runId : String} {state : RunState} {e rb err : Option String} (hx : lv.executes = some runId)
    (hf : lv.finishes = some runId) (hs : state.isWaiting = false) :
    Moves lv s.store (finishRun Γ runId state e rb err s).2.store := by
  refine moves_of_tx fun s' h => ?_
  obtain ⟨_, now, _, _, hstore⟩ := finishRun_ok h
  rw [hstore]
  refine Moves.update rfl rfl rfl rfl rfl (Or.inr rfl) fun r hr hp => ?_
  have hid : r.id = runId := by simpa using (Bool.and_eq_true_iff.mp hp).1
  exact RowMoves.leaves rfl rfl hs (fun h => h) (Or.inl (by rw [hid]; exact hf)) (Or.inl (by rw [hid]; exact hx))

/-- A dispatch queues the run that waits for approval. -/
theorem setRunState_queued_moves {runId : String} {event detail actor : Option String} (ho : lv.opens = some runId) :
    Moves lv s.store (setRunStateWith Γ runId .queued event detail actor s).2.store := by
  refine moves_of_tx fun s' h => ?_
  obtain ⟨_, _, _, hstore⟩ := setRunStateWith_ok h
  rw [hstore]
  refine Moves.update rfl rfl rfl rfl rfl (Or.inr rfl) fun r _ hp => ?_
  obtain ⟨⟨hid, -⟩, hpend⟩ : (r.id = runId ∧ r.state.isTerminal = false) ∧ r.state = .pendingApproval := by
    simpa [settable] using hp
  refine ⟨rfl, rfl, nofun, fun _ => Or.inr ⟨hpend, by rw [hid]; exact ho⟩, fun _ => rfl, fun h => h, fun _ ht => ?_, fun _ hb => ?_⟩
  · rw [hpend] at ht
    nomatch ht
  · simp [RunRow.Busy, hpend] at hb

/-- A move to a state that does not wait: of a run whose execution may end, or to `running`. -/
theorem setRunStateWith_moves {runId : String} {state : RunState} {event detail actor : Option String}
    (hs : state.isWaiting = false) (hb : lv.executes = some runId ∨ state = .running) :
    Moves lv s.store (setRunStateWith Γ runId state event detail actor s).2.store := by
  refine moves_of_tx fun s' h => ?_
  obtain ⟨_, _, _, hstore⟩ := setRunStateWith_ok h
  rw [hstore]
  refine Moves.update rfl rfl rfl rfl rfl (Or.inr rfl) fun r _ hp => ?_
  obtain ⟨⟨hid, ht⟩, -⟩ : (r.id = runId ∧ r.state.isTerminal = false) ∧ (state ≠ .queued ∨ r.state = .pendingApproval) := by
    simpa [settable] using hp
  refine RowMoves.leaves rfl rfl hs (fun h => h) (Or.inr ht) ?_
  rcases hb with hb | rfl
  · exact Or.inl (by rw [hid]; exact hb)
  · exact Or.inr fun hbusy => ⟨Or.inl rfl, hbusy.2⟩

/-- What only writes approvals and decisions, and keeps their keys, moves nothing. -/
theorem Moves.gated {st st' : Store} (hg : lv.gates = true) (hr : st'.runs = st.runs) (hreg : st'.registry = st.registry)
    (hp : st'.pins = st.pins) (ha : st'.approvals.map (·.runId) = st.approvals.map (·.runId)) (hd : st.decisions <+: st'.decisions) :
    Moves lv st st' := by
  refine ⟨?_, ?_, fun h => by rw [hr]; exact h, ?_, by rw [hreg], fun _ h => Or.inl (by rw [← hreg]; exact h), ?_, by rw [hp]⟩
  · intro i r h
    exact ⟨r, by rw [hr]; exact h, RowMoves.refl r⟩
  · intro i r' h hnone
    rw [hr, hnone] at h
    nomatch h
  · rintro x ⟨h1, h2, h3, h4⟩
    refine ⟨by rw [← hr]; exact h1, ?_, fun dec hdec => h3 dec (hd.subset hdec), by rw [← hp]; exact h4⟩
    intro a hmem hx
    obtain ⟨a', ha', hkey⟩ := List.mem_map.mp (by rw [ha]; exact List.mem_map_of_mem hmem : a.runId ∈ st'.approvals.map (·.runId))
    exact h2 a' ha' (hkey.trans hx)
  · intro h
    rw [hg] at h
    nomatch h

theorem insertPendingApprovalDecision_moves {dec : ApprovalDecision} (hg : lv.gates = true) :
    Moves lv s.store (insertPendingApprovalDecision Γ dec s).2.store := by
  refine moves_of_tx fun s' h => ?_
  obtain ⟨_, _, _, hstore⟩ := insertPendingApprovalDecision_ok h
  rw [hstore]
  exact Moves.gated hg rfl rfl rfl rfl (List.prefix_append _ _)

theorem markPendingBreakGlass_moves {runId username justification : String} (hg : lv.gates = true) :
    Moves lv s.store (markPendingBreakGlass Γ runId username justification s).2.store := by
  refine moves_of_tx fun s' h => ?_
  obtain ⟨_, hstore⟩ := markPendingBreakGlass_ok h
  rw [hstore]
  exact Moves.gated hg rfl rfl rfl (Db.map_updateWhere (by intro a; rfl) _) List.prefix_rfl

theorem refuseDispatch_moves {runId reason : String} (hx : lv.executes = some runId) :
    Moves lv s.store (refuseDispatch Γ runId reason s).2.store :=
  Db.bind_store Moves.trans insertRunAudit_moves fun _ _ _ => failRun_moves hx

theorem recordCompletion_moves {cancelled : Bool} {runId : String} {j : RunJournal} (hx : lv.executes = some runId)
    (hf : lv.finishes = some runId) : Moves lv s.store (recordCompletion Γ cancelled runId j s).2.store := by
  unfold recordCompletion
  split
  · exact Moves.refl _
  · refine Db.bind_store Moves.trans (execute_store (Moves.refl _) (Moves.refl _)) fun _ s' h => ?_
    obtain ⟨-, -, rfl⟩ := Db.statement_ok.mp h
    refine finishRun_moves hx hf ?_
    unfold completionState
    split
    · rfl
    · cases j.status <;> rfl

theorem approveWrites_moves {dec : ApprovalDecision} {detail actor : Option String} (hg : lv.gates = true) :
    Moves lv s.store (approveWrites Γ dec detail actor s).2.store :=
  Db.bind_store Moves.trans (insertPendingApprovalDecision_moves hg) fun _ _ _ => insertRunAudit_moves

theorem rejectWrites_moves {dec : ApprovalDecision} (hg : lv.gates = true) :
    Moves lv s.store (rejectWrites Γ dec s).2.store :=
  Db.bind_store Moves.trans (insertPendingApprovalDecision_moves hg) fun _ _ _ => finishRun_pending_moves (Or.inl rfl)

theorem expireRun_moves {runId : String} : Moves lv s.store (expireRun Γ runId s).2.store :=
  finishRun_pending_moves (Or.inr rfl)

theorem breakGlassWrites_moves {runId username justification : String} {actor : Option String} (hg : lv.gates = true) :
    Moves lv s.store (breakGlassWrites Γ runId username justification actor s).2.store :=
  Db.bind_store Moves.trans (markPendingBreakGlass_moves hg) fun _ _ _ => insertRunAudit_moves

theorem linkChild_moves {child : String} {parent : RunRow} :
    Moves lv s.store (linkChild Γ child parent s).2.store := by
  refine Db.bind_store Moves.trans (execute_store (Moves.refl _) ?_) fun _ s' _ => ?_
  · refine Moves.update rfl rfl rfl rfl rfl (Or.inr rfl) fun r _ _ => ?_
    exact ⟨rfl, rfl, fun h => h, Or.inl, fun _ => rfl, fun h => h, fun _ _ => ⟨rfl, rfl⟩, fun _ h => h⟩
  · split
    · exact setRunStateWith_moves rfl (Or.inr rfl)
    · exact Moves.refl _

theorem markOrphan_moves {runId : String} (hx : lv.executes = some runId) :
    Moves lv s.store (markOrphan Γ runId s).2.store := setRunStateWith_moves rfl (Or.inl hx)

theorem finishOrphan_moves {runId : String} {outcome : OrphanOutcome} (hx : lv.executes = some runId)
    (hf : lv.finishes = some runId) : Moves lv s.store (finishOrphan Γ runId outcome s).2.store := by
  cases outcome <;> exact finishRun_moves hx hf rfl

theorem registerDefinition_moves {def_ : RegisteredDefinition} (hr : lv.registers = some def_) :
    Moves lv s.store (registerDefinition Γ def_ s).2.store := by
  refine Db.bind_store Moves.trans (execute_store (Moves.refl _) ?_) fun _ s' _ => Moves.refl _
  refine ⟨fun i r h => ⟨r, h, RowMoves.refl r⟩, fun i r' h hnone => ?_, fun h => h, fun x h => ⟨h.runs, h.approvals, h.decisions, h.pins⟩,
    List.prefix_append _ _, fun x hx => ?_, fun _ => ⟨rfl, rfl⟩, List.prefix_rfl⟩
  · rw [hnone] at h
    nomatch h
  · rcases List.mem_append.mp hx with hx | hx
    · exact Or.inl hx
    · rw [List.mem_singleton.mp hx]
      exact Or.inr hr

theorem launchCampaign_moves {run : NewRun} (hfresh : s.store.Fresh run.id) :
    Moves lv s.store (launchCampaign Γ run s).2.store := by
  refine Db.bind_store Moves.trans (query_store (Moves.refl _)) fun active s' h => ?_
  obtain ⟨-, hact, rfl⟩ := Db.query_ok.mp h
  cases active with
  | some _ => exact Moves.refl _
  | none => exact insertRunWithContext_moves hfresh

end Closures

/-! ## The steps -/

section Steps

variable {Γ : DaemonCtx}

/-- The work item a worker has registered, and its token. -/
def WorkerPoint.registered? : WorkerPoint Γ → Option (WorkItem × Nat)
  | .idle | .dequeued _ => none
  | .registered item token | .readQueued item token | .refused item token _ | .verified item token | .claimed item token
  | .prepared item token _ | .planned item token _ _ | .starting item token _ _ | .executing item token
  | .finished item token _ | .completionFailed item token _ | .cleaned item token _ | .failing item token _
  | .leaving item token => some (item, token)

/-- The run of the work item a worker has. -/
def WorkerPoint.runId? : WorkerPoint Γ → Option String
  | .dequeued item => some item.runId
  | p => p.registered?.map (·.1.runId)

/-- The run whose token a worker has registered. -/
def WorkerPoint.holds (p : WorkerPoint Γ) : Option String := p.registered?.map (·.1.runId)

/-- The run whose execution a worker has started and not yet recorded. -/
def WorkerPoint.executes : WorkerPoint Γ → Option String
  | .executing item _ | .finished item _ _ | .completionFailed item _ _ | .cleaned item _ _ => some item.runId
  | _ => none

/-- The worker is about to begin an execution. -/
def WorkerPoint.isStarting : WorkerPoint Γ → Bool
  | .starting _ _ _ _ => true
  | _ => false

/-- A worker that holds a run has it. -/
theorem WorkerPoint.runId?_of_holds {p : WorkerPoint Γ} {x : String} (h : x ∈ p.holds) : x ∈ p.runId? := by
  cases p <;> first | exact h | nomatch h

/-- A worker that executes a run holds it. -/
theorem WorkerPoint.holds_of_executes {p : WorkerPoint Γ} {x : String} (h : x ∈ p.executes) : x ∈ p.holds := by
  cases p <;> first | exact h | nomatch h

/-- A worker ends and finishes the execution of the run it holds, and consumes its approval. -/
def WorkerPoint.leave (p : WorkerPoint Γ) : Leave where
  executes := p.holds
  finishes := p.executes
  gates := p.isStarting

/-- A gated submission inserts a run that waits, and its approval request. -/
def EnqueuePoint.leave : EnqueuePoint → Leave
  | .writeGated run _ _ => { submits := some run.registryId, gates := true }
  | _ => {}

/-- A dispatch queues its run. -/
def DispatchPoint.leave : DispatchPoint → Leave
  | .write item => { opens := some item.runId }
  | _ => {}

/-- A review writes decisions and overrides. -/
def ReviewPoint.leave : ReviewPoint → Leave
  | .writeApproval _ _ _ | .writeRejection _ _ | .writeBreakGlass _ _ _ _ => { gates := true }
  | _ => {}

/-- The supervisor finishes the parent it has decided on. -/
def SupervisorPoint.leave : SupervisorPoint → Leave
  | .finish parentId _ _ => { executes := some parentId, finishes := some parentId }
  | .launching p _ _ => p.leave
  | _ => {}

/-- The orphan sweep ends the executions of the previous process. -/
def BootPoint.leave : BootPoint → Leave
  | .next (o :: _) => { executes := some o.1.id }
  | .close o _ _ => { executes := some o.1.id, finishes := some o.1.id }
  | _ => {}

/-- The leave a task writes with. -/
def Task.leave : Task Γ → Leave
  | .boot p => p.leave
  | .worker p => p.leave
  | .dispatch p => p.leave
  | .review p => p.leave
  | .enqueue p => p.leave
  | .supervisor p => p.leave
  | .register def_ => { registers := some def_ }
  | .stop _ _ _ | .sweep _ | .launch _ | .outside => {}

/-- A campaign outcome does not wait. -/
theorem campaignOutcome_not_waiting {envelope : String} {children : List RunRow} :
    (campaignOutcome Γ envelope children).isWaiting = false := by
  unfold campaignOutcome
  split
  · rfl
  · split <;> rfl

theorem WorkerStep.moves {d d' : Daemon} {p p' : WorkerPoint Γ} {l : Label Γ} (h : WorkerStep Γ d p l d' p') :
    Moves p.leave d.store d'.store := by
  cases h with
  | refuse => exact refuseDispatch_moves rfl
  | claim | claimRefused => exact claimRun_moves
  | begin_ | beginRefused => exact beginRunExecution_moves rfl
  | complete | completeRefused | completeCleaned => exact recordCompletion_moves rfl rfl
  | fail => exact failRun_moves rfl
  | _ => exact Moves.refl _

theorem StopStep.moves {d d' : Daemon} {runId : String} {actor : Option String} {p : StopPoint} {p' : Option StopPoint}
    {l : Label Γ} (h : StopStep Γ runId actor d p l d' p') : Moves lv d.store d'.store := by
  cases h with
  | write => exact requestRunStop_moves
  | _ => exact Moves.refl _

theorem EnqueueStep.moves {d d' : Daemon} {p : EnqueuePoint} {out : EnqueueOut} (h : EnqueueStep Γ d p d' out) :
    Moves p.leave d.store d'.store := by
  cases h with
  | write hfresh => exact insertRunWithContext_moves hfresh
  | @writeRefused run request context hacc =>
    have hstore : (d.wrote (insertRunWithContext Γ.toCtx run (some context))).store = d.store := Daemon.wrote_refused rfl hacc
    change Moves _ d.store (d.wrote (insertRunWithContext Γ.toCtx run (some context))).store
    rw [hstore]
    exact Moves.refl _
  | writeGated hfresh => exact insertGatedRunWithContext_moves rfl rfl hfresh
  | @writeGatedRefused run req context detail hacc =>
    have hstore : (d.wrote (insertGatedRunWithContext Γ.toCtx run req detail (some context))).store = d.store :=
      Daemon.wrote_refused rfl hacc
    rw [hstore]
    exact Moves.refl _
  | _ => exact Moves.refl _

theorem DispatchStep.moves {d d' : Daemon} {p : DispatchPoint} {p' : Option DispatchPoint} (h : DispatchStep Γ d p d' p') :
    Moves p.leave d.store d'.store := by
  cases h with
  | write => exact setRunState_queued_moves rfl
  | @writeRefused item hacc =>
    have hm : Moves (DispatchPoint.write item).leave d.store
        (d.wrote (setRunStateWith Γ.toCtx item.runId .queued (some "dispatch_queued") none none)).store :=
      setRunState_queued_moves rfl
    exact hm
  | _ => exact Moves.refl _

theorem ReviewStep.moves {d d' : Daemon} {p : ReviewPoint} {ts : List (Task Γ)} (h : ReviewStep Γ d p d' ts) :
    Moves p.leave d.store d'.store := by
  cases h with
  | writeApproval | writeApprovalRefused => exact approveWrites_moves rfl
  | writeExpired => exact expireRun_moves
  | writeVeto => exact insertRunAudit_moves
  | writeRejection => exact (rejectWrites_moves rfl).trans _ _ _ insertRunAudit_moves
  | writeRejectionRefused => exact rejectWrites_moves rfl
  | writeBreakGlass | writeBreakGlassRefused => exact breakGlassWrites_moves rfl
  | _ => exact Moves.refl _

/-- The outcome a supervisor has decided on does not wait. -/
def SupervisorPoint.decided : SupervisorPoint → Prop
  | .finish _ outcome _ => outcome.isWaiting = false
  | _ => True

theorem SupervisorStep.moves {d d' : Daemon} {p p' : SupervisorPoint} {l : Label Γ} (h : SupervisorStep Γ d p l d' p')
    (hp : p.decided) : Moves p.leave d.store d'.store := by
  cases h with
  | finish => exact finishRun_moves rfl rfl hp
  | launching he | launched he | launchFailed he => exact he.moves
  | link => exact linkChild_moves
  | _ => exact Moves.refl _

theorem BootStep.moves {d d' : Daemon} {p : BootPoint} {l : Label Γ} {ts : List (Task Γ)} (h : BootStep Γ d p l d' ts) :
    Moves p.leave d.store d'.store := by
  cases h with
  | mark => exact markOrphan_moves rfl
  | rollbackStarted | audit => exact insertRunAudit_moves
  | close => exact finishOrphan_moves rfl rfl
  | _ => exact Moves.refl _

/-- Every step of the daemon writes with the leave of its task. -/
theorem TaskStep.moves {d d' : Daemon} {t : Task Γ} {l : Label Γ} {ts : List (Task Γ)} (h : TaskStep Γ d t l d' ts)
    (ht : ∀ p, t = .supervisor p → p.decided) : Moves t.leave d.store d'.store := by
  cases h with
  | boot h => exact h.moves
  | worker h => exact h.moves
  | stop h | stopped h => exact h.moves
  | dispatch h | dispatched h => exact h.moves
  | review h => exact h.moves
  | enqueue h | enqueued h | enqueueFailed h => exact h.moves
  | expire => exact expireRun_moves
  | supervisor h => exact h.moves (ht _ rfl)
  | register => exact registerDefinition_moves rfl
  | launch hfresh => exact launchCampaign_moves hfresh
  | sweep | outside => exact Moves.refl _

/-- A refused completion wrote nothing. -/
theorem recordCompletion_refused {Γ : Ctx} {d : Daemon} {cancelled : Bool} {runId : String} {j : RunJournal}
    (h : d.accepts (recordCompletion Γ cancelled runId j) = false) :
    (d.wrote (recordCompletion Γ cancelled runId j)).store = d.store := by
  change (recordCompletion Γ cancelled runId j d.session).2.store = d.session.store
  unfold Daemon.accepts at h
  rcases hw : recordCompletion Γ cancelled runId j d.session with ⟨e | u, s⟩
  · unfold recordCompletion at hw
    split at hw
    · obtain ⟨-, rfl⟩ := Prod.mk.inj hw
      rfl
    · rcases Db.bind_error.mp hw with hw | ⟨n, s1, h1, hw⟩
      · have hst : (execute Γ (fun st => (1, st)) d.session).2.store = d.session.store :=
          execute_store (Q := fun st st' => st' = st) rfl rfl
        rw [hw] at hst
        exact hst
      · obtain ⟨-, -, rfl⟩ := Db.statement_ok.mp h1
        have hst := Db.withTx_error (Γ := Γ.toEnv) hw
        exact hst
  · rw [hw] at h
    nomatch h

/-- A begin is of the worker's item, under its token, finds the row validating, and leaves it in flight. -/
theorem WorkerStep.began_ok {d d' : Daemon} {p p' : WorkerPoint Γ} {item : WorkItem} {q : Γ.Prepared} {token : Nat}
    (h : WorkerStep Γ d p (.began item q token) d' p') :
    p.registered? = some (item, token) ∧ (∃ r ∈ d.store.runs, r.id = item.runId ∧ r.state = .validating) ∧
      d'.store.BusyRun item.runId := by
  cases h with
  | begin_ hacc =>
    obtain ⟨u, hok⟩ := Daemon.accepts_ok hacc
    obtain ⟨hn, now, audit', _, _, hstore⟩ := beginRunExecution_ok hok
    have hpos : 0 < d.session.store.runs.countP (beginnable item.runId) := by omega
    obtain ⟨r, hr, hp⟩ := List.countP_pos_iff.mp hpos
    have hrow : r.id = item.runId ∧ r.state = .validating := by simpa [beginnable] using hp
    refine ⟨rfl, ⟨r, hr, hrow⟩, { r with state := .running, startedAtNs := some now }, ?_, hrow.1, Or.inl rfl, by simp⟩
    rw [Daemon.store, hstore]
    exact Db.mem_updateWhere.mpr ⟨r, hr, by rw [hp]; rfl⟩

/-- A worker knows of an execution it goes on with that it is in flight. -/
theorem WorkerStep.busy {d d' : Daemon} {p p' : WorkerPoint Γ} {l : Label Γ} (h : WorkerStep Γ d p l d' p')
    (hbusy : ∀ x ∈ p.executes, d.store.BusyRun x) : ∀ x ∈ p'.executes, d'.store.BusyRun x := by
  cases h with
  | @begin_ item token q planJson hacc =>
    rintro x ⟨⟩
    have hstep : WorkerStep Γ d (.starting item token q planJson) (.began item q token) _ (.executing item token) := .begin_ hacc
    exact hstep.began_ok.2.2
  | execute | cleanup => exact hbusy
  | completeRefused hacc =>
    rw [recordCompletion_refused hacc]
    exact hbusy
  | _ => exact fun _ hx => nomatch hx

end Steps

end Tumult
