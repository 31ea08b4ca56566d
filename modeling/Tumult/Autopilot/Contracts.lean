import Tumult.Autopilot.Engine

/-!
# What the parts of the engine do

Assembling candidates and gating a decision again only read: what they leave is the verdicts, and an `enact` among them was admitted
on the decisions the store holds (`Admitted`). Starting a playbook is one reading of the clock, one event, one run and one more
event (`runPlaybook_meets`).
-/

namespace Tumult

open Db (Reads Meets Stable)

variable {Γ : PilotCtx}

/-- The decisions in the store admit a run on a service at a time: runs of the day are left, and the cooldown is over, as the hours
are read. -/
structure Admitted (policy : AutopilotPolicy) (nowNs : Int) (decisions : List DecisionRecord) (serviceId : String) : Prop where
  budget : autopilotDecisionsSince decisions (nowNs - 24 * nanosPerHour) < policy.maxRunsPerDay
  cooldown : ∀ last, autopilotLastEnactedOn decisions serviceId = some last →
    (policy.cooldownHours : Rat) ≤ elapsedHours nowNs last

/-- A gate that enacts on the readings of the store admits. -/
theorem admitted_of_enact {policy : AutopilotPolicy} {candidate : Candidate} {ambient : AmbientContext}
    {autonomy : Option AutonomyRecord} {validator : ValidatorReport} {nowNs : Int} {decisions : List DecisionRecord}
    (h : (evaluate policy candidate ambient autonomy validator).verdict = .enact)
    (hruns : ambient.runsToday = autopilotDecisionsSince decisions (nowNs - 24 * nanosPerHour))
    (hhours : ambient.hoursSinceLastRunOnService =
      (autopilotLastEnactedOn decisions candidate.serviceId).map fun last => .finite (elapsedHours nowNs last)) :
    Admitted policy nowNs decisions candidate.serviceId where
  budget := hruns ▸ runsToday_lt_of_enact h
  cooldown := fun last hlast => cooldown_le_of_enact h (by rw [hhours, hlast]; rfl)

/-! ## Reading -/

theorem reads_readStore {α : Type} {f : PilotStore → α} : Reads (readStore Γ f) fun st a => a = f st := Reads.query fun _ => rfl

theorem reads_readCount {f : PilotStore → Nat} : Reads (readCount Γ f) fun st n => n = f st := by
  refine Reads.bind reads_readStore fun n => ?_
  split
  · exact Reads.pure fun _ h => h
  · exact Reads.throw

theorem reads_openStore : Reads (openStore Γ) fun _ _ => True := by
  refine Reads.observing fun present => ?_
  split
  · exact reads_readStore.weaken fun _ _ _ => trivial
  · exact Reads.throw

theorem reads_loadPolicy {policyPath : String} :
    Reads (loadPolicy Γ policyPath) fun _ policy => ∃ tick, Γ.loadPolicy tick policyPath = .ok policy :=
  Reads.bind (Reads.observe (Q := fun _ loaded => ∃ tick, Γ.loadPolicy tick policyPath = loaded) fun _ tick => ⟨tick, rfl⟩)
    fun _ => Reads.ofExcept fun _ _ hloaded ⟨tick, h⟩ => ⟨tick, h.trans hloaded⟩

theorem reads_factsOf {playbook : Option String} : Reads (factsOf Γ playbook) fun _ _ => True := by
  unfold factsOf
  split
  · exact Reads.observe fun _ _ => trivial
  · exact Reads.pure fun _ => trivial

theorem reads_guardTelemetry {candidate : Candidate} : Reads (guardTelemetry Γ candidate) fun _ _ => True := by
  unfold guardTelemetry
  split
  · exact Reads.observe fun _ _ => trivial
  · exact Reads.pure fun _ => trivial

/-! ## The candidates of a pass -/

variable {policy : LoadedPolicy} {inputs : TopologyInputs} {lineage : List LineageCell} {reading : PassReading}

/-- A candidate the gate enacts was admitted on the store. -/
def EnactAdmitted (policy : LoadedPolicy) (nowNs : Int) (st : PilotStore) (item : Assembled) : Prop :=
  item.decision.verdict = .enact → Admitted policy.policy nowNs st.decisions.rows item.candidate.serviceId

/-- The count of the day in a pass's reading is the store's. -/
def PassReading.Counts (reading : PassReading) (st : PilotStore) : Prop :=
  reading.runsToday = autopilotDecisionsSince st.decisions.rows (reading.nowNs - 24 * nanosPerHour)

theorem reads_gateCandidate {openDeviation : Bool} {candidate : Candidate} :
    Reads (gateCandidate Γ policy reading openDeviation candidate) fun st item =>
      reading.Counts st → EnactAdmitted policy reading.nowNs st item := by
  refine Reads.bind reads_readStore fun last => Reads.after reads_guardTelemetry fun telemetry => Reads.pure fun st hlast hruns => ?_
  intro henact
  exact admitted_of_enact henact hruns (by rw [hlast])

theorem reads_assembleRecommendation {recommendation : Recommendation} :
    Reads (assembleRecommendation Γ policy inputs lineage reading recommendation) fun st item =>
      reading.Counts st → EnactAdmitted policy reading.nowNs st item :=
  Reads.after reads_factsOf fun _ => Reads.observing fun _ => reads_gateCandidate

theorem reads_assembleRecommendations (recommendations : List Recommendation) :
    Reads (assembleRecommendations Γ policy inputs lineage reading recommendations) fun st items =>
      reading.Counts st → ∀ item ∈ items, EnactAdmitted policy reading.nowNs st item := by
  induction recommendations with
  | nil => exact Reads.pure fun _ _ => by simp
  | cons recommendation rest ih =>
    refine Reads.bind reads_assembleRecommendation fun item => Reads.bind ih fun items => Reads.pure fun st hitems hitem hruns => ?_
    exact List.forall_mem_cons.mpr ⟨hitem hruns, hitems hruns⟩

theorem reads_assembleChange {event : ChangeEventRecord} {serviceId : String} (playbooks : List PlaybookEntry) :
    Reads (assembleChange Γ policy inputs lineage reading event serviceId playbooks) fun st item =>
      reading.Counts st → ∀ i ∈ item, EnactAdmitted policy reading.nowNs st i := by
  induction playbooks with
  | nil => exact Reads.pure fun _ _ => by simp
  | cons pb rest ih =>
    unfold assembleChange
    split
    · exact ih
    refine Reads.observing fun article => ?_
    cases article with
    | none => exact ih
    | some articleId =>
      refine Reads.observing fun facts => ?_
      refine Reads.observing fun id => ?_
      refine Reads.bind reads_gateCandidate fun item => Reads.pure fun st hitem hruns => ?_
      simpa using hitem hruns

theorem reads_assembleChanges (events : List ChangeEventRecord) (seen : List String) :
    Reads (assembleChanges Γ policy inputs lineage reading seen events) fun st items =>
      reading.Counts st → ∀ item ∈ items, EnactAdmitted policy reading.nowNs st item := by
  induction events generalizing seen with
  | nil => exact Reads.pure fun _ _ => by simp
  | cons event rest ih =>
    simp only [assembleChanges]
    split
    · exact ih _
    refine Reads.bind (reads_assembleChange _) fun item => Reads.bind (ih _) fun items => Reads.pure fun st hitems hitem hruns => ?_
    intro i hi
    rcases List.mem_append.mp hi with hi | hi
    · exact hitem hruns i (by simpa using hi)
    · exact hitems hruns i hi

/-- Assembling candidates reads only, and whatever the gate enacts was admitted on the store. -/
theorem reads_assembleCandidates {nowNs : Int} {withinHours : Bool} {limit concurrentExperiments : Nat} :
    Reads (assembleCandidates Γ policy nowNs withinHours limit concurrentExperiments) fun st items =>
      ∀ item ∈ items, EnactAdmitted policy nowNs st item := by
  refine Reads.observing fun gathered => ?_
  refine Reads.after (Q := fun _ _ => True) (Reads.ofExcept fun _ _ _ => trivial) fun inputs => ?_
  refine Reads.observing fun recommendations => ?_
  refine Reads.after reads_readStore fun history => Reads.bind reads_readCount fun runsToday => ?_
  refine Reads.bind (reads_assembleRecommendations recommendations) fun out => ?_
  refine Reads.after reads_readStore fun changes => Reads.bind (reads_assembleChanges changes _) fun changed => ?_
  refine Reads.pure fun st hchanged hout hruns item hitem => ?_
  rcases List.mem_append.mp hitem with h | h
  · exact hout hruns item h
  · exact hchanged hruns item h

/-- Gating a decision again reads only, and an `enact` was admitted on the store. -/
theorem reads_regateDecision {record : DecisionRecord} {nowNs : Int} {withinHours : Bool} {concurrentExperiments : Nat} :
    Reads (regateDecision Γ policy record nowNs withinHours concurrentExperiments) fun st decision =>
      decision.verdict = .enact → Admitted policy.policy nowNs st.decisions.rows record.serviceId := by
  refine Reads.observing fun gathered => ?_
  refine Reads.after (Q := fun _ _ => True) (Reads.ofExcept fun _ _ _ => trivial) fun inputs => ?_
  refine Reads.after reads_factsOf fun facts => Reads.bind reads_readStore fun last => ?_
  refine Reads.bind reads_readCount fun runsToday => Reads.after reads_guardTelemetry fun telemetry => ?_
  refine Reads.after reads_readStore fun history => Reads.pure fun st hruns hlast henact => ?_
  exact admitted_of_enact henact hruns (by rw [hlast])

/-! ## Writing -/

/-- The store with one more event. -/
def PilotStore.appendEvent (st : PilotStore) (decisionId : String) (atNs : Int) (kind : EventKind) : PilotStore :=
  { st with events := st.events ++ [{ decisionId, atNs, kind }] }

/-- The store with one more run. -/
def PilotStore.noteRun (st : PilotStore) (run : PlaybookRun) : PilotStore := { st with runs := st.runs ++ [run] }

/-- An event is appended, or the statement is refused. -/
theorem meets_append {P Q E : Db.Session PilotStore → Prop} {decisionId : String} {atNs : Int} {kind : EventKind}
    (hQ : Stable Q) (hE : ∀ s, P s → E s.next) (h : ∀ s, P s → Q (s.withStore (s.store.appendEvent decisionId atNs kind))) :
    Meets P (appendAutopilotEvent Γ decisionId atNs kind) (fun _ => Q) E :=
  Meets.statement hE fun s hs => hQ _ _ (h s hs) rfl (Nat.le_succ _)

/-- Starting a playbook: the clock is read, `run_started` is appended, the run is noted, and an end event is appended. -/
theorem runPlaybook_meets {I J E : Db.Session PilotStore → Prop} {K : Int → Db.Session PilotStore → Prop} {serviceId : String}
    {gate : GateReading} {decisionId playbook : String} (hK : ∀ t, Stable (K t)) (hJ : Stable J)
    (hread : ∀ s, I s → K (Γ.clock s.tick) s.next)
    (hstart : ∀ t s, K t s → K t (s.withStore (s.store.appendEvent decisionId t .runStarted)))
    (hrun : ∀ t s, K t s → J (s.withStore (s.store.noteRun { decisionId, serviceId, atNs := t, gate })))
    (hend : ∀ t kind s, kind = .runCompleted ∨ kind = .runFailed → J s → J (s.withStore (s.store.appendEvent decisionId t kind)))
    (hKE : ∀ t s, K t s → E s) (hJE : ∀ s, J s → E s) :
    Meets I (runPlaybook Γ serviceId gate decisionId playbook) (fun _ => J) E := by
  have hnext : ∀ {P : Db.Session PilotStore → Prop}, Stable P → ∀ s, P s → P s.next :=
    fun hP s hs => hP s _ hs rfl (Nat.le_succ _)
  refine Meets.bind (Q := K) (Meets.now hread) fun t => ?_
  refine Meets.bind (meets_append (hK t) (fun s hs => hKE t _ (hnext (hK t) s hs)) (hstart t)) fun _ => ?_
  refine Meets.bind (Q := fun _ => K t) (Meets.observe (hnext (hK t))) fun created => ?_
  split
  case isFalse => exact Meets.throw (hKE t)
  refine Meets.bind (Q := fun _ => J) (Meets.note (hrun t)) fun _ => ?_
  refine Meets.bind (Q := fun _ => J) (Meets.observe (hnext hJ)) fun result => ?_
  refine Meets.bind (Q := fun _ => J) (Meets.now (hnext hJ)) fun endedAt => ?_
  have happend : ∀ kind, kind = EventKind.runCompleted ∨ kind = .runFailed →
      Meets J (appendAutopilotEvent Γ decisionId endedAt kind) (fun _ => J) E :=
    fun kind hkind => meets_append hJ (fun s hs => hJE _ (hnext hJ s hs)) fun s hs => hend endedAt kind s hkind hs
  rcases result with err | ⟨status, experimentId⟩
  · exact Meets.bind (happend _ (Or.inr rfl)) fun _ => Meets.throw hJE
  · refine Meets.bind (happend _ (by split <;> simp)) fun _ => ?_
    split
    · exact Meets.pure fun _ hs => hs
    · have hmirror : Meets J (mirrorInGraph Γ) (fun _ => J) E := by
        unfold mirrorInGraph readStore
        exact Meets.query (fun s hs => hJE _ (hnext hJ s hs)) (hnext hJ)
      exact Meets.bind hmirror fun _ => Meets.pure fun _ hs => hs

end Tumult
