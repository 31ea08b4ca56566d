import Tumult.Autopilot.Contracts

/-!
# One human response a decision

The response tool refuses a decision whose latest event is a human response. After an approval other events follow, so the check
misses it, and a second response is taken. In every history in which no response comes after an approval that another event has
followed, a decision takes one response and its playbook is started once for a human.
-/

namespace Tumult

open Db (Reads Meets Stable)

variable {Γ : PilotCtx}

namespace PilotStore

variable (st : PilotStore) (d : String)

/-- The human responses to a decision. -/
def humanResponses : List AutopilotEvent := (st.eventsOf d).filter (·.kind.isHuman)

/-- The runs of its playbook on behalf of a human approval. -/
def humanRuns : List PlaybookRun := st.runs.filter fun r => r.decisionId = d && r.gate.human

/-- A decision has taken at most one response, and its playbook was started for a human at most once. -/
def OneResponse : Prop := (st.humanResponses d).length ≤ 1 ∧ (st.humanRuns d).length ≤ 1

/-- A human approved the decision. -/
def Approved : Prop := ∃ e ∈ st.eventsOf d, e.kind = .humanApproved

/-- A human approved the decision, and the latest event is not a human response any more. -/
def PastApproval : Prop := st.Approved d ∧ (st.lastEvent d).any (·.isHuman) = false

/-- The decision was enacted by a pass. -/
def Enacted : Prop := ∃ r ∈ st.decisions.rows, r.id = d ∧ r.verdict = .enact

end PilotStore

/-- A call that carries a response to a decision: a denial, or an approval that names a policy. -/
def PilotCall.RespondsTo (d : String) : PilotCall → Prop
  | .once _ _ _ _ => False
  | .respond decisionId approve policyPath _ => decisionId = d ∧ (approve = true → policyPath.isSome = true)

/-- Every call of a history is made on a store it has the property on. -/
def EachCall (Γ : PilotCtx) (P : PilotStore → PilotCall → Prop) : List PilotCall → Db.Session PilotStore → Prop
  | [], _ => True
  | call :: calls, s => P s.store call ∧ EachCall Γ P calls (call.perform Γ s)

/-! ## The invariant -/

/-- How a decision stands between two writes: at most one response, no more runs for a human than approvals, nothing at all before a
response unless a pass enacted it, nothing after a denial, and a response only to a decision that no pass enacted. -/
structure Answered (st : PilotStore) (d : String) : Prop where
  one : (st.humanResponses d).length ≤ 1
  runs : (st.humanRuns d).length ≤ (st.eventsOf d).countP (·.kind = .humanApproved)
  untouched : st.humanResponses d = [] → st.eventsOf d = [] ∨ st.Enacted d
  denied : ∀ e ∈ st.eventsOf d, e.kind = .humanDenied → st.eventsOf d = [e]
  asked : st.humanResponses d ≠ [] → ∃ r ∈ st.decisions.rows, r.id = d ∧ r.verdict ≠ .enact

variable {st : PilotStore} {d : String}

theorem Answered.oneResponse (h : Answered st d) : st.OneResponse d := by
  refine ⟨h.one, h.runs.trans (le_trans ?_ h.one)⟩
  unfold PilotStore.humanResponses
  rw [← List.countP_eq_length_filter]
  exact List.countP_mono_left fun e _ he => by simpa [EventKind.isHuman] using Or.inl (by simpa using he)

/-- The id of a decision names one row. -/
theorem DecisionTable.row_unique (table : DecisionTable) {r r' : DecisionRecord} (hr : r ∈ table.rows) (hr' : r' ∈ table.rows)
    (hid : r.id = r'.id) : r = r' :=
  List.inj_on_of_nodup_map table.nodup hr hr' hid

/-- A decision that a pass enacted has no response. -/
theorem Answered.humanResponses_of_enacted (h : Answered st d) (henacted : st.Enacted d) : st.humanResponses d = [] := by
  by_contra hne
  obtain ⟨r, hr, hid, hverdict⟩ := h.asked hne
  obtain ⟨r', hr', hid', hverdict'⟩ := henacted
  exact hverdict (st.decisions.row_unique hr hr' (hid.trans hid'.symm) ▸ hverdict')

/-- An approval is a response. -/
theorem PilotStore.Approved.humanResponses_ne (h : st.Approved d) : st.humanResponses d ≠ [] := by
  obtain ⟨e, he, hkind⟩ := h
  exact List.ne_nil_of_mem (List.mem_filter.mpr ⟨he, by simp [EventKind.isHuman, hkind]⟩)

/-- The invariant is about the events and the runs of the decision, and rows that stay. -/
theorem Answered.of_same {st' : PilotStore} (h : Answered st d) (hevents : st'.eventsOf d = st.eventsOf d)
    (hruns : st'.humanRuns d = st.humanRuns d) (hrows : ∀ r ∈ st.decisions.rows, r ∈ st'.decisions.rows) : Answered st' d := by
  have hresponses : st'.humanResponses d = st.humanResponses d := by
    unfold PilotStore.humanResponses
    rw [hevents]
  refine ⟨hresponses ▸ h.one, ?_, fun hnone => ?_, fun e he hdenied => ?_, fun hne => ?_⟩
  · rw [hruns, hevents]
    exact h.runs
  · rcases h.untouched (hresponses ▸ hnone) with hevents' | ⟨r, hr, henacted⟩
    · exact Or.inl (hevents.trans hevents')
    · exact Or.inr ⟨r, hrows r hr, henacted⟩
  · rw [hevents] at he ⊢
    exact h.denied e he hdenied
  · obtain ⟨r, hr, hasked⟩ := h.asked (hresponses ▸ hne)
    exact ⟨r, hrows r hr, hasked⟩

/-! ## Writes -/

theorem eventsOf_appendEvent (id : String) (t : Int) (kind : EventKind) : (st.appendEvent id t kind).eventsOf d =
    st.eventsOf d ++ if id = d then [{ decisionId := id, atNs := t, kind }] else [] := by
  unfold PilotStore.eventsOf PilotStore.appendEvent
  rw [List.filter_append, List.filter_cons, List.filter_nil]
  by_cases hid : id = d <;> simp [hid]

/-- An event that is no response, on a decision a pass enacted or a human approved. -/
theorem Answered.appendEvent (h : Answered st d) {id : String} {kind : EventKind} (t : Int) (hkind : kind.isHuman = false)
    (hlive : id = d → st.Enacted d ∨ st.Approved d) : Answered (st.appendEvent id t kind) d := by
  by_cases hid : id = d
  case neg => exact h.of_same (by simp [eventsOf_appendEvent, hid]) rfl fun r hr => hr
  have hevents : (st.appendEvent id t kind).eventsOf d = st.eventsOf d ++ [{ decisionId := id, atNs := t, kind }] := by
    rw [eventsOf_appendEvent, if_pos hid]
  have hresponses : (st.appendEvent id t kind).humanResponses d = st.humanResponses d := by
    unfold PilotStore.humanResponses
    rw [hevents, List.filter_append]
    simp [hkind]
  refine ⟨hresponses ▸ h.one, ?_, fun hnone => ?_, fun e he hdenied => ?_, fun hne => h.asked (hresponses ▸ hne)⟩
  · rw [hevents, List.countP_append]
    exact h.runs.trans (Nat.le_add_right _ _)
  · rw [hresponses] at hnone
    rcases hlive hid with henacted | happroved
    · exact Or.inr henacted
    · exact absurd hnone happroved.humanResponses_ne
  · rw [hevents] at he
    rcases List.mem_append.mp he with he | he
    · -- a denied decision was neither enacted nor approved
      exfalso
      rcases hlive hid with henacted | ⟨e', he', happroved⟩
      · have hmem : e ∈ st.humanResponses d := List.mem_filter.mpr ⟨he, by simp [EventKind.isHuman, hdenied]⟩
        rw [h.humanResponses_of_enacted henacted] at hmem
        exact absurd hmem List.not_mem_nil
      · rw [h.denied e he hdenied, List.mem_singleton] at he'
        rw [he', hdenied] at happroved
        cases happroved
    · rw [List.mem_singleton.mp he] at hdenied
      have hdenied : kind = .humanDenied := hdenied
      simp [EventKind.isHuman, hdenied] at hkind

/-- A run that no human asked for, or the first one after an approval. -/
theorem Answered.noteRun (h : Answered st d) (run : PlaybookRun)
    (hfirst : run.decisionId = d → run.gate.human = true → st.Approved d ∧ st.humanRuns d = []) :
    Answered (st.noteRun run) d := by
  by_cases hrun : run.decisionId = d ∧ run.gate.human = true
  · obtain ⟨⟨e, he, happroved⟩, hruns⟩ := hfirst hrun.1 hrun.2
    refine ⟨h.one, ?_, h.untouched, h.denied, h.asked⟩
    have hone : (st.noteRun run).humanRuns d = [run] := by
      unfold PilotStore.humanRuns at hruns ⊢
      simp [PilotStore.noteRun, List.filter_append, hruns, hrun.1, hrun.2]
    rw [hone]
    exact List.countP_pos_iff.mpr ⟨e, he, by simpa using happroved⟩
  · refine h.of_same rfl ?_ fun r hr => hr
    unfold PilotStore.humanRuns
    have hnot : (run.decisionId = d && run.gate.human) = false := by
      rw [Bool.and_eq_false_iff, decide_eq_false_iff_not]
      by_contra hboth
      exact hrun (by simpa using hboth)
    simp [PilotStore.noteRun, List.filter_append, hnot]

/-- The response itself, to a decision that has no event yet. -/
theorem Answered.respond (h : Answered st d) (id : String) (t : Int) (approve : Bool) (hempty : id = d → st.eventsOf d = [])
    (hasked : id = d → ∃ r ∈ st.decisions.rows, r.id = d ∧ r.verdict ≠ .enact) :
    Answered (st.appendEvent id t (if approve then .humanApproved else .humanDenied)) d := by
  by_cases hid : id = d
  case neg => exact h.of_same (by simp [eventsOf_appendEvent, hid]) rfl fun r hr => hr
  have hevents : (st.appendEvent id t (if approve then .humanApproved else .humanDenied)).eventsOf d =
      [{ decisionId := id, atNs := t, kind := if approve then .humanApproved else .humanDenied }] := by
    rw [eventsOf_appendEvent, if_pos hid, hempty hid, List.nil_append]
  have hruns : st.humanRuns d = [] := by
    have hruns := h.runs
    rw [hempty hid] at hruns
    simpa using hruns
  refine ⟨?_, ?_, fun hnone => ?_, fun e he _ => ?_, fun _ => hasked hid⟩
  · unfold PilotStore.humanResponses
    rw [hevents]
    exact (List.length_filter_le _ _).trans (by simp)
  · change (st.humanRuns d).length ≤ _
    rw [hruns]
    exact Nat.zero_le _
  · unfold PilotStore.humanResponses at hnone
    rw [hevents] at hnone
    cases approve <;> simp [EventKind.isHuman] at hnone
  · rw [hevents] at he ⊢
    rw [List.mem_singleton.mp he]

/-- The response check lets a decision through that has no event yet, unless an approval was followed by another event. -/
theorem Answered.eventsOf_eq_nil (h : Answered st d) (hasked : ∃ r ∈ st.decisions.rows, r.id = d ∧ r.verdict ≠ .enact)
    (hlast : (st.lastEvent d).any (·.isHuman) = false) (hpast : ¬ st.PastApproval d) : st.eventsOf d = [] := by
  by_cases hnone : st.humanResponses d = []
  · rcases h.untouched hnone with hevents | ⟨r', hr', hid', hverdict'⟩
    · exact hevents
    · obtain ⟨r, hr, hid, hverdict⟩ := hasked
      exact absurd (st.decisions.row_unique hr hr' (hid.trans hid'.symm) ▸ hverdict') hverdict
  · exfalso
    obtain ⟨e, he⟩ := List.exists_mem_of_ne_nil _ hnone
    obtain ⟨he, hhuman⟩ := List.mem_filter.mp he
    have hkind : e.kind = .humanApproved ∨ e.kind = .humanDenied := by simpa [EventKind.isHuman] using hhuman
    rcases hkind with happroved | hdenied
    · exact hpast ⟨⟨e, he, happroved⟩, hlast⟩
    · have hlatest : st.lastEvent d = some e.kind := by
        unfold PilotStore.lastEvent
        rw [h.denied e he hdenied]
        rfl
      rw [hlatest] at hlast
      simp [EventKind.isHuman, hdenied] at hlast

/-! ## The calls -/

/-- The invariant, for a program that may append run events to a decision. -/
def Running (d id : String) (st : PilotStore) : Prop := Answered st d ∧ (id = d → st.Enacted d ∨ st.Approved d)

/-- The invariant, for a program that may start the run of an approval. -/
def AwaitingRun (d id : String) (st : PilotStore) : Prop := Answered st d ∧ (id = d → st.Approved d ∧ st.humanRuns d = [])

theorem Approved.appendEvent (h : st.Approved d) (id : String) (t : Int) (kind : EventKind) :
    (st.appendEvent id t kind).Approved d := by
  obtain ⟨e, he, hkind⟩ := h
  exact ⟨e, by rw [eventsOf_appendEvent]; exact List.mem_append_left _ he, hkind⟩

theorem Running.appendEvent {id : String} {kind : EventKind} (h : Running d id st) (t : Int) (hkind : kind.isHuman = false) :
    Running d id (st.appendEvent id t kind) :=
  ⟨h.1.appendEvent t hkind h.2, fun hid => (h.2 hid).imp_right fun h => Approved.appendEvent h id t kind⟩

theorem AwaitingRun.appendEvent {id : String} {kind : EventKind} (h : AwaitingRun d id st) (t : Int)
    (hkind : kind.isHuman = false) : AwaitingRun d id (st.appendEvent id t kind) :=
  ⟨h.1.appendEvent t hkind fun hid => Or.inr (h.2 hid).1, fun hid => ⟨Approved.appendEvent (h.2 hid).1 id t kind, (h.2 hid).2⟩⟩

theorem isHuman_of_runEnd {kind : EventKind} (h : kind = .runCompleted ∨ kind = .runFailed) : kind.isHuman = false := by
  rcases h with rfl | rfl <;> rfl

/-- The run of an approval. -/
theorem meets_runPlaybook_approved {serviceId id playbook : String} {gate : GateReading} :
    Meets (fun s => AwaitingRun d id s.store) (runPlaybook Γ serviceId gate id playbook) (fun _ s => Running d id s.store)
      fun s => Answered s.store d :=
  runPlaybook_meets (K := fun _ s => AwaitingRun d id s.store) (fun _ => Stable.ofStore _) (Stable.ofStore _) (fun _ h => h)
    (fun t _ h => h.appendEvent t rfl)
    (fun _ _ h => ⟨h.1.noteRun _ fun hid _ => h.2 hid, fun hid => Or.inr (h.2 hid).1⟩)
    (fun t _ _ hkind h => h.appendEvent t (isHuman_of_runEnd hkind)) (fun _ _ h => h.1) fun _ h => h.1

/-- The run of a pass. -/
theorem meets_runPlaybook_pass {serviceId id playbook : String} {gate : GateReading} (hgate : gate.human = false) :
    Meets (fun s => Running d id s.store) (runPlaybook Γ serviceId gate id playbook) (fun _ s => Running d id s.store)
      fun s => Answered s.store d :=
  runPlaybook_meets (K := fun _ s => Running d id s.store) (fun _ => Stable.ofStore _) (Stable.ofStore _) (fun _ h => h)
    (fun t _ h => h.appendEvent t rfl)
    (fun _ _ h => ⟨h.1.noteRun _ fun _ hhuman => absurd (hgate.symm.trans hhuman) Bool.false_ne_true, h.2⟩)
    (fun t _ _ hkind h => h.appendEvent t (isHuman_of_runEnd hkind)) (fun _ _ h => h.1) fun _ h => h.1

theorem meets_recordRegateOutcome {id : String} {kind : EventKind} (hkind : kind.isHuman = false) :
    Meets (fun s => AwaitingRun d id s.store) (recordRegateOutcome Γ id kind) (fun _ s => AwaitingRun d id s.store)
      fun s => Answered s.store d :=
  Meets.bind (Q := fun _ s => AwaitingRun d id s.store) (Meets.now fun _ h => h) fun t =>
    meets_append (Stable.ofStore _) (fun _ h => h.1) fun _ h => h.appendEvent t hkind

/-- What follows a recorded approval. -/
theorem meets_enactApproved {record : DecisionRecord} {policy : LoadedPolicy} {concurrentExperiments : Nat} :
    Meets (fun s => AwaitingRun d record.id s.store) (enactApproved Γ record policy concurrentExperiments)
      (fun _ s => Answered s.store d) fun s => Answered s.store d := by
  unfold enactApproved
  split
  · exact Meets.bind (meets_recordRegateOutcome rfl) fun _ => Meets.throw fun _ h => h.1
  refine Meets.bind (Q := fun _ s => AwaitingRun d record.id s.store) (Meets.now fun _ h => h) fun nowNs => ?_
  refine Meets.bind (Q := fun _ s => AwaitingRun d record.id s.store) (Meets.observe fun _ h => h) fun withinHours => ?_
  refine Meets.bind (Q := fun _ s => AwaitingRun d record.id s.store) (Meets.peek fun _ h => h) fun decisions => ?_
  refine Meets.bind ((reads_regateDecision.meets (Stable.ofStore (AwaitingRun d record.id))).exit fun _ h => h.1) fun decision => ?_
  split
  · exact Meets.bind ((meets_recordRegateOutcome rfl).weaken (fun _ h => h.2) fun _ _ h => h) fun _ => Meets.throw fun _ h => h.1
  refine Meets.bind ((meets_recordRegateOutcome rfl).weaken (fun _ h => h.2) fun _ _ h => h) fun _ => ?_
  split
  · exact Meets.throw fun _ h => h.1
  · exact Meets.bind meets_runPlaybook_approved fun _ => Meets.pure fun _ h => h.1

/-- What the checks of a response establish. -/
structure Respondable (st : PilotStore) (id : String) (approve : Bool) (policyPath : Option String) (record : DecisionRecord)
    (policy : Option LoadedPolicy) : Prop where
  row : record ∈ st.decisions.rows
  names : record.id = id
  asked : record.verdict ≠ .enact
  last : (st.lastEvent id).any (·.isHuman) = false
  approves : policy.isSome = true → approve = true
  named : approve = true → policyPath.isSome = true

theorem mem_of_autopilotDecision {id : String} {record : DecisionRecord} (h : autopilotDecision st id = some record) :
    record ∈ st.decisions.rows ∧ record.id = id := by
  have hmem := List.mem_of_mem_take (List.mem_of_find?_eq_some h)
  exact ⟨(List.mem_insertionSort _).mp hmem, by simpa using List.find?_some h⟩

theorem reads_responseChecks {id : String} {approve : Bool} {policyPath : Option String} :
    Reads (responseChecks Γ id approve policyPath) fun st checked => Respondable st id approve policyPath checked.1 checked.2 := by
  unfold responseChecks
  refine Reads.after reads_openStore fun _ => Reads.bind reads_readStore fun status => ?_
  split
  · exact Reads.throw
  rename_i record hrecord
  split
  · exact Reads.throw
  rename_i hverdict
  split
  · exact Reads.throw
  rename_i hlast
  have hasked : record.verdict ≠ .enact := by
    intro henact
    exact hverdict (by simp [henact])
  have hmake : ∀ st policy, (policy.isSome = true → approve = true) → (approve = true → policyPath.isSome = true) →
      status = (autopilotDecision st id, st.lastEvent id) → Respondable st id approve policyPath record policy := by
    rintro st policy happroves hnamed rfl
    obtain ⟨hrow, hid⟩ := mem_of_autopilotDecision hrecord
    exact ⟨hrow, hid, hasked, by simpa using hlast, happroves, hnamed⟩
  split
  · rename_i happrove
    split
    · exact Reads.throw
    · exact Reads.after reads_loadPolicy fun policy => Reads.pure fun st => hmake st _ (fun _ => happrove) fun _ => rfl
  · rename_i hdeny
    exact Reads.pure fun st => hmake st _ (by simp) fun happrove => absurd happrove hdeny

/-- A response keeps the invariant, unless it comes after an approval that another event has followed. -/
theorem meets_autopilotRespond {id : String} {approve : Bool} {policyPath : Option String} {concurrentExperiments : Nat} :
    Meets (fun s => Answered s.store d ∧
        ((PilotCall.respond id approve policyPath concurrentExperiments).RespondsTo d → ¬ s.store.PastApproval d))
      (autopilotRespond Γ id approve policyPath concurrentExperiments) (fun _ s => Answered s.store d) fun s => Answered s.store d := by
  unfold autopilotRespond
  refine Meets.bind ((reads_responseChecks.meets (Stable.ofStore fun st => Answered st d ∧
    ((PilotCall.respond id approve policyPath concurrentExperiments).RespondsTo d → ¬ st.PastApproval d))).exit fun _ h => h.1) ?_
  rintro ⟨record, policy⟩
  refine Meets.bind (Q := fun _ s => Respondable s.store id approve policyPath record policy ∧ Answered s.store d ∧
    ((PilotCall.respond id approve policyPath concurrentExperiments).RespondsTo d → ¬ s.store.PastApproval d))
    (Meets.now fun _ h => h) fun t => ?_
  refine Meets.bind (Q := fun _ s => Answered s.store d ∧ (policy.isSome = true → AwaitingRun d record.id s.store))
    (meets_append (Stable.ofStore fun st => Answered st d ∧ (policy.isSome = true → AwaitingRun d record.id st))
      (fun _ h => h.2.1) ?_) fun _ => ?_
  · rintro s ⟨hchecked, hanswered, hfresh⟩
    have hempty : id = d → s.store.eventsOf d = [] := by
      rintro rfl
      exact hanswered.eventsOf_eq_nil ⟨record, hchecked.row, hchecked.names, hchecked.asked⟩ hchecked.last
        (hfresh ⟨rfl, hchecked.named⟩)
    have hresponded := hanswered.respond id t approve hempty fun hid =>
      ⟨record, hchecked.row, hchecked.names.trans hid, hchecked.asked⟩
    refine ⟨hresponded, fun hpolicy => ⟨hresponded, fun hid => ?_⟩⟩
    have hid : id = d := hchecked.names ▸ hid
    refine ⟨⟨{ decisionId := id, atNs := t, kind := .humanApproved }, ?_, rfl⟩, ?_⟩
    · rw [Db.Session.withStore_store, eventsOf_appendEvent, if_pos hid, hempty hid, if_pos (hchecked.approves hpolicy)]
      exact List.mem_singleton.mpr rfl
    · have hruns := hanswered.runs
      rw [hempty hid, List.countP_nil, Nat.le_zero, List.length_eq_zero_iff] at hruns
      exact hruns
  · cases policy with
    | none => exact Meets.pure fun _ h => h.1
    | some policy => exact meets_enactApproved.weaken (fun _ h => h.2 rfl) fun _ _ h => h

theorem DecisionTable.rows_insert? (table : DecisionTable) (r : DecisionRecord) :
    ((table.insert? r).isSome = true → r ∈ ((table.insert? r).getD table).rows) ∧
      ∀ r' ∈ table.rows, r' ∈ ((table.insert? r).getD table).rows := by
  unfold DecisionTable.insert?
  split
  · simp
  · simp only [Option.isSome_some, Option.getD_some, true_implies]
    exact ⟨List.mem_append_right _ (List.mem_singleton.mpr rfl), fun r' hr' => List.mem_append_left _ hr'⟩

/-- Persisting a decision keeps the invariant; once it returned, the decision is there. -/
theorem meets_persistDecision {policy : LoadedPolicy} {item : Assembled} {nowNs : Int} :
    Meets (fun s => Answered s.store d) (persistDecision Γ policy item nowNs)
      (fun _ s => Answered s.store d ∧ (item.decision.verdict = .enact → item.candidate.id = d → s.store.Enacted d))
      fun s => Answered s.store d := by
  have hrows : ∀ {st : PilotStore} {r : DecisionRecord}, Answered st d →
      Answered { st with decisions := (st.decisions.insert? r).getD st.decisions } d :=
    fun h => h.of_same rfl rfl (DecisionTable.rows_insert? _ _).2
  let Q : PilotStore → Prop := fun st =>
    Answered st d ∧ (item.decision.verdict = .enact → item.candidate.id = d → st.Enacted d)
  have hinsert : Meets (fun s => Answered s.store d) (insertAutopilotDecision Γ
      { id := item.candidate.id, decidedAtNs := nowNs, serviceId := item.candidate.serviceId, tier := item.candidate.tier
        plugin := item.candidate.plugin, action := item.candidate.action, articleId := item.candidate.articleId
        score := item.candidate.score, confidence := item.candidate.confidence, playbook := item.candidate.playbookExperiment
        verdict := item.decision.verdict.token, policyHash := policy.policyHash }) (fun _ s => Q s.store)
      fun s => Answered s.store d := by
    refine Meets.bind (Q := fun inserted s => Answered s.store d ∧ (inserted = true → Q s.store))
      (Meets.statement (fun _ h => h) fun s h => ⟨hrows h, fun hinserted => ⟨hrows h, fun henact hid => ?_⟩⟩) fun inserted => ?_
    · exact ⟨_, (DecisionTable.rows_insert? _ _).1 hinserted, hid, by simp [henact, GateVerdict.token]⟩
    · split
      · rename_i hinserted
        exact Meets.pure fun _ h => h.2 hinserted
      · exact Meets.throw fun _ h => h.1
  refine Meets.bind hinsert fun _ => ?_
  exact ((reads_readStore.meets (Stable.ofStore Q)).weaken (fun _ h => h) fun _ _ h => h.2).exit fun _ h => h.1

/-- The decisions of a pass keep the invariant. -/
theorem meets_settleDecisions {policy : LoadedPolicy} {execute : Bool} {gate : GateReading} (hgate : gate.human = false)
    (items : List Assembled) : Meets (fun s => Answered s.store d) (settleDecisions Γ policy execute gate items)
      (fun _ s => Answered s.store d) fun s => Answered s.store d := by
  induction items with
  | nil => exact Meets.pure fun _ h => h
  | cons item rest ih =>
    refine Meets.bind meets_persistDecision fun _ => ?_
    refine Meets.bind (Q := fun _ s => Answered s.store d) ?_ fun runStatus => ?_
    · unfold enactDecision
      split
      case isFalse => exact Meets.pure fun _ h => h.1
      rename_i henact
      split
      · exact Meets.throw fun _ h => h.1
      refine Meets.bind ((meets_runPlaybook_pass hgate).weaken (fun _ h => ⟨h.1, fun hid => Or.inl (h.2 henact.1 hid)⟩)
        fun _ _ h => h) fun status => ?_
      exact Meets.pure fun _ h => h.1
    · exact Meets.bind ih fun settled => Meets.pure fun _ h => h

/-- A pass keeps the invariant. -/
theorem meets_autopilotOnce {policyPath : String} {execute : Bool} {limit : Option Nat} {concurrentExperiments : Nat} :
    Meets (fun s => Answered s.store d) (autopilotOnce Γ policyPath execute limit concurrentExperiments)
      (fun _ s => Answered s.store d) fun s => Answered s.store d := by
  refine Meets.bind (reads_loadPolicy.meets (Stable.ofStore fun st => Answered st d)) fun policy => ?_
  split
  case isFalse => exact Meets.throw fun _ h => h.2
  refine Meets.bind ((reads_openStore.meets (Stable.ofStore fun st => Answered st d)).weaken (fun _ h => h.2) fun _ _ h => h) fun _ => ?_
  refine Meets.bind (Q := fun _ s => Answered s.store d) (Meets.now fun _ h => h.2) fun nowNs => ?_
  refine Meets.bind (Q := fun _ s => Answered s.store d) (Meets.observe fun _ h => h) fun withinHours => ?_
  refine Meets.bind (reads_assembleCandidates.meets (Stable.ofStore fun st => Answered st d)) fun assembled => ?_
  refine Meets.bind (Q := fun _ s => Answered s.store d) (Meets.peek fun _ h => h.2) fun decisions => ?_
  exact meets_settleDecisions rfl assembled

/-- A call keeps the invariant, unless it responds after an approval that another event has followed. -/
theorem Answered.perform {s : Db.Session PilotStore} (h : Answered s.store d) {call : PilotCall}
    (hfresh : call.RespondsTo d → ¬ s.store.PastApproval d) : Answered (call.perform Γ s).store d := by
  cases call with
  | once policyPath execute limit concurrentExperiments =>
    exact Meets.leaves (I := fun s => Answered s.store d) meets_autopilotOnce h (fun _ _ h => h) fun _ h => h
  | respond decisionId approve policyPath concurrentExperiments =>
    exact Meets.leaves (I := fun s => Answered s.store d) meets_autopilotRespond ⟨h, hfresh⟩ (fun _ _ h => h) fun _ h => h

/-! ## The theorem -/

/-- In every history of passes and responses, from a store in which a decision has no event and no run: if no response to it is
given past an approval, it takes at most one response and its playbook is started for a human at most once. -/
theorem oneResponse_of_fresh (Γ : PilotCtx) (calls : List PilotCall) (s : Db.Session PilotStore) (d : String)
    (hevents : s.store.eventsOf d = []) (hruns : s.store.humanRuns d = [])
    (hfresh : EachCall Γ (fun st call => call.RespondsTo d → ¬ st.PastApproval d) calls s) :
    (performAll Γ calls s).store.OneResponse d := by
  have hstart : Answered s.store d := by
    have hresponses : s.store.humanResponses d = [] := by
      unfold PilotStore.humanResponses
      rw [hevents, List.filter_nil]
    refine ⟨by simp [hresponses], by simp [hruns], fun _ => Or.inl hevents, fun e he => ?_, fun hne => absurd hresponses hne⟩
    rw [hevents] at he
    exact absurd he List.not_mem_nil
  refine Answered.oneResponse ?_
  clear hevents hruns
  induction calls generalizing s with
  | nil => exact hstart
  | cons call calls ih => exact ih (call.perform Γ s) hfresh.2 (hstart.perform hfresh.1)

/-- A decision that waits for a human, under the policy of a hash. -/
def waitingDecision (policyHash : String) : DecisionRecord where
  id := "d"
  decidedAtNs := 0
  serviceId := "svc:db"
  tier := some "data"
  plugin := "tumult-postgres"
  action := "kill-connections"
  articleId := "compliance:DORA/Art.25"
  score := 1
  confidence := .high
  playbook := some "kill.toon"
  verdict := .propose
  policyHash

/-- A store that holds one decision, and nothing has happened to it. -/
def waitingStore (policyHash : String) : Db.Session PilotStore where
  store := { decisions := { rows := [waitingDecision policyHash], nodup := by simp }, events := [], changeEvents := [], runs := [] }
  tick := 0

/-- An approval that passes the gate again and runs. -/
theorem oneResponse_of_fresh_approved :
    (performAll plainPilot [.respond "d" true (some "autopilot.toml") 0] (waitingStore "h1")).store.OneResponse "d" ∧
      ((performAll plainPilot [.respond "d" true (some "autopilot.toml") 0] (waitingStore "h1")).store.humanRuns "d").length = 1 :=
  ⟨oneResponse_of_fresh plainPilot _ _ "d" rfl rfl ⟨fun _ => by rintro ⟨⟨e, he, -⟩, -⟩; exact absurd he List.not_mem_nil, trivial⟩,
    by decide⟩

/-- An approval that the gate refuses, since the policy has changed, is followed by the refusal: a second approval is taken. -/
theorem oneResponse_false : ¬ ∀ (Γ : PilotCtx) (calls : List PilotCall) (s : Db.Session PilotStore) (d : String),
    StrictMono Γ.clock → s.store.eventsOf d = [] → s.store.humanRuns d = [] → (performAll Γ calls s).store.OneResponse d := by
  intro h
  have hone := (h plainPilot
    [.respond "d" true (some "autopilot.toml") 0, .respond "d" true (some "autopilot.toml") 0] (waitingStore "h0") "d"
    (fun _ _ hlt => Int.ofNat_lt.mpr hlt) rfl rfl).1
  revert hone
  decide

end Tumult
