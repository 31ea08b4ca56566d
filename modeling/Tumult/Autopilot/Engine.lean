import Tumult.Lib.Db
import Tumult.Autopilot.Gate
import Tumult.Core.Text
import Tumult.Graph.Lineage

/-!
# The autopilot engine

One pass of the decision loop and the response to a queued decision. The decision (and any human response) is persisted before the
experiment runs. What the lineage holds, what the recommender gives, the playbook files and the runs themselves are read from the
surroundings, one reading a tick. Reports, the details of events and the mirror of the decisions in the graph are left out: no rule
reads them.
-/

namespace Tumult

/-! ## The decision store -/

/-- The verdict column of a decision. -/
inductive VerdictToken where
  | enact
  | downgrade
  | propose
  | veto
  deriving DecidableEq, Repr

def VerdictToken.text : VerdictToken → String
  | .enact => "enact"
  | .downgrade => "downgrade"
  | .propose => "propose"
  | .veto => "veto"

/-- The token a verdict is persisted as. -/
def GateVerdict.token : GateVerdict → VerdictToken
  | .enact => .enact
  | .downgrade _ => .downgrade
  | .propose _ => .propose
  | .veto _ => .veto

/-- One decision, as persisted. -/
structure DecisionRecord where
  id : String
  decidedAtNs : Int
  serviceId : String
  tier : Option String
  plugin : String
  action : String
  articleId : String
  score : Rat
  confidence : ConfidenceTier
  playbook : Option String
  verdict : VerdictToken
  policyHash : String
  deriving DecidableEq, Repr

/-- The lifecycle events of a decision. -/
inductive EventKind where
  | runStarted
  | runCompleted
  | runFailed
  | humanApproved
  | humanDenied
  | reGateRefused
  | reGatePassed
  deriving DecidableEq, Repr

def EventKind.text : EventKind → String
  | .runStarted => "run_started"
  | .runCompleted => "run_completed"
  | .runFailed => "run_failed"
  | .humanApproved => "human_approved"
  | .humanDenied => "human_denied"
  | .reGateRefused => "re_gate_refused"
  | .reGatePassed => "re_gate_passed"

/-- A human response. -/
def EventKind.isHuman (kind : EventKind) : Bool := kind = .humanApproved || kind = .humanDenied

/-- One lifecycle event. -/
structure AutopilotEvent where
  decisionId : String
  atNs : Int
  kind : EventKind
  deriving DecidableEq, Repr

/-- One recorded change event. -/
structure ChangeEventRecord where
  serviceId : String
  atNs : Int
  source : String
  detail : Option String
  deriving DecidableEq, Repr

/-- The decisions, keyed by their id. -/
structure DecisionTable where
  rows : List DecisionRecord
  nodup : (rows.map (·.id)).Nodup

/-- The table with one more decision, unless its id is taken. -/
def DecisionTable.insert? (table : DecisionTable) (d : DecisionRecord) : Option DecisionTable :=
  if h : d.id ∈ table.rows.map (·.id) then none
  else some { rows := table.rows ++ [d], nodup := by simpa using table.nodup.append (by simp) (by simpa using h) }

/-- What the gate that admitted a run was given: whether a human asked, the time it was given as now, and the decisions in the
store. -/
structure GateReading where
  human : Bool
  nowNs : Int
  decisions : List DecisionRecord
  deriving DecidableEq, Repr

/-- A playbook run the autopilot started, for the decision, on the service, at its `run_started` time. -/
structure PlaybookRun where
  decisionId : String
  serviceId : String
  atNs : Int
  gate : GateReading
  deriving DecidableEq, Repr

/-- The decision store. The runs are a history variable: no tool reads them. -/
structure PilotStore where
  decisions : DecisionTable
  events : List AutopilotEvent
  changeEvents : List ChangeEventRecord
  runs : List PlaybookRun

/-! ## Queries -/

namespace PilotStore

variable (st : PilotStore)

/-- The events of a decision. -/
def eventsOf (id : String) : List AutopilotEvent := st.events.filter (·.decisionId = id)

end PilotStore

/-- The event with the greatest time, the last of them in the table. -/
def latestEvent (events : List AutopilotEvent) : Option AutopilotEvent :=
  events.foldl (fun latest e =>
    match latest with
    | some l => if l.atNs ≤ e.atNs then some e else some l
    | none => some e) none

/-- The kind of the latest event of a decision. -/
def PilotStore.lastEvent (st : PilotStore) (id : String) : Option EventKind := (latestEvent (st.eventsOf id)).map (·.kind)

/-- One decision by id, among the newest 10,000. -/
def autopilotDecision (st : PilotStore) (id : String) : Option DecisionRecord :=
  ((st.decisions.rows.insertionSort (fun a b => b.decidedAtNs ≤ a.decidedAtNs)).take 10000).find? (·.id = id)

/-- The enacted decisions of a fault class, and those among them that ended clean. -/
def autopilotClassHistory (st : PilotStore) : List (String × AutonomyRecord) :=
  let enacted := st.decisions.rows.filter (·.verdict = .enact)
  let keyOf := fun d : DecisionRecord => classKey d.plugin d.action d.tier
  (enacted.map keyOf).dedup.map fun key =>
    let ofClass := enacted.filter (keyOf · = key)
    (key, { enactedTotal := ofClass.length, enactedClean := ofClass.countP fun d => st.lastEvent d.id = some .runCompleted })

/-- The number of enact decisions made since a time. -/
def autopilotDecisionsSince (decisions : List DecisionRecord) (sinceNs : Int) : Nat :=
  decisions.countP fun d => sinceNs ≤ d.decidedAtNs && d.verdict = .enact

/-- The latest enact decision on a service. -/
def autopilotLastEnactedOn (decisions : List DecisionRecord) (serviceId : String) : Option Int :=
  ((decisions.filter fun d => d.serviceId = serviceId && d.verdict = .enact).map (·.decidedAtNs)).max?

/-- Change events since a time, newest first per service. -/
def changeEventsSince (st : PilotStore) (sinceNs : Int) : List ChangeEventRecord :=
  (st.changeEvents.filter (sinceNs ≤ ·.atNs)).insertionSort fun a b =>
    a.serviceId < b.serviceId ∨ (a.serviceId = b.serviceId ∧ b.atNs ≤ a.atNs)

/-! ## The surroundings -/

/-- A recommended fault on a service. -/
structure Recommendation where
  serviceId : String
  articleId : String
  plugin : String
  action : String
  score : Rat
  reasons : List String
  deriving DecidableEq, Repr

/-- What is read for the topology: the services with their tiers, and what the lineage is computed from. -/
structure TopologyInputs where
  servicesWithTiers : List (String × Option String)
  lineageInput : LineageInput

/-- The structural facts of a playbook: a steady-state probe, a rollback with a guard, a guard, and the number of faults. -/
structure ExperimentFacts where
  hasSteady : Bool := false
  hasRollback : Bool := false
  hasGuard : Bool := false
  faults : Nat := 0
  deriving DecidableEq, Repr

/-- The surroundings of the engine, numbered by the tick: the file system with its policies and playbooks, the topology, the
recommender, fresh ids, the local time of day and the experiments run. -/
structure PilotCtx extends Db.Env where
  storePath : String
  storeExists : Nat → Bool
  loadPolicy : Nat → String → Except ToolError LoadedPolicy
  withinBusinessHours : Nat → Bool
  gatherInputs : Nat → Except ToolError TopologyInputs
  recommendationsFor : Nat → TopologyInputs → List LineageCell → Nat → List Recommendation
  newId : Nat → String
  inspectExperiment : Nat → String → ExperimentFacts
  preflightGuardTelemetry : Nat → String → Option Bool
  playbookArticle : Nat → String → Option String
  createsDir : Nat → Bool
  runExperiment : Nat → String → Except ToolError (String × String)

/-- A program on the decision store. -/
abbrev Pilot (α : Type) : Type := Db.Tx ToolError PilotStore α

variable (Γ : PilotCtx)

/-- Read from the store. -/
def readStore {α : Type} (f : PilotStore → α) : Pilot α := Db.query Γ.toEnv .store f

/-- A count of the store, which must fit 32 bits. -/
def readCount (f : PilotStore → Nat) : Pilot Nat := do
  let n ← readStore Γ f
  if n < 2 ^ 32 then pure n else Db.throw .store

/-- Open the store. -/
def openStore : Pilot Unit := do
  let present ← Db.observe Γ.storeExists
  if present then readStore Γ fun _ => () else Db.throw (.notFound s!"analytics store not found at {Γ.storePath}")

/-- Load a policy. -/
def loadPolicy (policyPath : String) : Pilot LoadedPolicy := do
  let loaded ← Db.observe fun tick => Γ.loadPolicy tick policyPath
  Db.ofExcept loaded

/-- Append one decision. -/
def insertAutopilotDecision (d : DecisionRecord) : Pilot Unit := do
  let inserted ← Db.statement Γ.toEnv .store fun st =>
    ((st.decisions.insert? d).isSome, { st with decisions := (st.decisions.insert? d).getD st.decisions })
  if inserted then pure () else Db.throw .store

/-- Append one lifecycle event for a decision. -/
def appendAutopilotEvent (decisionId : String) (atNs : Int) (kind : EventKind) : Pilot Unit :=
  Db.statement Γ.toEnv .store fun st => ((), { st with events := st.events ++ [{ decisionId, atNs, kind }] })

/-- Mirror something in the graph. -/
def mirrorInGraph : Pilot Unit := readStore Γ fun _ => ()

/-! ## Running a playbook -/

/-- The status `run_completed` stands for, in any case of its letters. -/
def isCompleted (status : String) : Bool := status.toList.map Char.toLower = "completed".toList

/-- Run the playbook experiment of a decision, with its lifecycle events. The run, on the service, and the reading of the gate that
admitted it are noted. -/
def runPlaybook (serviceId : String) (gate : GateReading) (decisionId playbook : String) : Pilot String := do
  let startedAt ← Db.now Γ.toEnv
  appendAutopilotEvent Γ decisionId startedAt .runStarted
  let created ← Db.observe Γ.createsDir
  if created then do
    Db.note fun st => { st with runs := st.runs ++ [{ decisionId, serviceId, atNs := startedAt, gate }] }
    let result ← Db.observe fun tick => Γ.runExperiment tick playbook
    let endedAt ← Db.now Γ.toEnv
    match result with
    | .ok (status, experimentId) => do
      appendAutopilotEvent Γ decisionId endedAt (if isCompleted status then .runCompleted else .runFailed)
      if experimentId = "" then pure status
      else do
        mirrorInGraph Γ
        pure status
    | .error err => do
      appendAutopilotEvent Γ decisionId endedAt .runFailed
      Db.throw err
  else Db.throw .io

/-! ## Assembling candidates -/

/-- A fully assembled decision. -/
structure Assembled where
  candidate : Candidate
  decision : GateDecision
  deriving DecidableEq, Repr

/-- A broken control, or a score of at least one, is trusted. -/
def confidenceFor (score : Rat) (broken : Bool) : ConfidenceTier := if broken || 1 ≤ score then .high else .directional

/-- The latest `evidences` time of a cell's experiments toward its article. -/
def latestEvidenceNs (inputs : TopologyInputs) (cell : LineageCell) : Option Int :=
  ((inputs.lineageInput.edges.filter fun e =>
    e.rel = "evidences" && e.dst = cell.articleId && cell.experiments.contains e.src).map (·.ts)).max?

/-- The days between two clock readings; what does not fit 32 bits reads as the greatest number that does. -/
def elapsedDays (now last : Int) : Nat :=
  let days := (now - last) / (24 * nanosPerHour)
  if 0 ≤ days ∧ days < 2 ^ 32 then days.toNat else 2 ^ 32 - 1

/-- The facts of a playbook; none without one. -/
def factsOf (playbook : Option String) : Pilot ExperimentFacts :=
  match playbook with
  | some path => Db.observe fun tick => Γ.inspectExperiment tick path
  | none => pure {}

/-- Run the guard probe of a playbook once, when a guard exists. -/
def guardTelemetry (candidate : Candidate) : Pilot (Option Bool) :=
  match candidate.experimentHasGuard, candidate.playbookExperiment with
  | true, some path => Db.observe fun tick => Γ.preflightGuardTelemetry tick path
  | _, _ => pure none

/-- What one pass reads once, before its first candidate. -/
structure PassReading where
  nowNs : Int
  withinHours : Bool
  concurrentExperiments : Nat
  runsToday : Nat
  history : List (String × AutonomyRecord)

/-- Gate a candidate of a pass: the last run on its service and its guard are read for it alone. -/
def gateCandidate (policy : LoadedPolicy) (reading : PassReading) (openDeviation : Bool) (candidate : Candidate) :
    Pilot Assembled := do
  let last ← readStore Γ fun st => autopilotLastEnactedOn st.decisions.rows candidate.serviceId
  let telemetry ← guardTelemetry Γ candidate
  let ambient : AmbientContext :=
    { openDeviationForTarget := openDeviation
      runsToday := reading.runsToday
      hoursSinceLastRunOnService := last.map fun last => .finite (elapsedHours reading.nowNs last)
      withinBusinessHours := reading.withinHours
      concurrentExperiments := reading.concurrentExperiments
      guardTelemetryOk := telemetry }
  let autonomy := reading.history.lookup (classKey candidate.plugin candidate.action candidate.tier)
  pure { candidate, decision := evaluate policy.policy candidate ambient autonomy (validate candidate) }

/-- The candidate of a recommendation. -/
def assembleRecommendation (policy : LoadedPolicy) (inputs : TopologyInputs) (lineage : List LineageCell) (reading : PassReading)
    (recommendation : Recommendation) : Pilot Assembled := do
  let cell := lineage.find? fun c => c.articleId = recommendation.articleId && c.serviceId = recommendation.serviceId
  let broken := cell.any (·.status = .broken)
  let trigger : Trigger :=
    if broken then .brokenControl recommendation.articleId
    else .staleness recommendation.articleId
      (((cell.bind (latestEvidenceNs inputs)).map (elapsedDays reading.nowNs)).getD (2 ^ 32 - 1))
  let playbook := (policy.policy.playbookFor recommendation.plugin recommendation.action
    (some (stripSvc recommendation.serviceId))).map (·.experiment)
  let facts ← factsOf Γ playbook
  let id ← Db.observe Γ.newId
  let openDeviation := lineage.any fun c => c.serviceId = recommendation.serviceId && c.status = .broken && !broken
  gateCandidate Γ policy reading openDeviation
    { id
      serviceId := recommendation.serviceId
      tier := (inputs.servicesWithTiers.find? (·.1 = recommendation.serviceId)).bind (·.2)
      plugin := recommendation.plugin
      action := recommendation.action
      articleId := recommendation.articleId
      score := recommendation.score
      reasons := recommendation.reasons
      confidence := confidenceFor recommendation.score broken
      playbookExperiment := playbook
      experimentHasGuard := facts.hasGuard
      experimentHasRollback := facts.hasRollback
      experimentHasSteadyState := facts.hasSteady
      experimentFaultCount := facts.faults
      trigger }

/-- The candidates of the recommendations, in order. -/
def assembleRecommendations (policy : LoadedPolicy) (inputs : TopologyInputs) (lineage : List LineageCell)
    (reading : PassReading) : List Recommendation → Pilot (List Assembled)
  | [] => pure []
  | recommendation :: rest => do
    let item ← assembleRecommendation Γ policy inputs lineage reading recommendation
    let items ← assembleRecommendations policy inputs lineage reading rest
    pure (item :: items)

/-- A service id with its prefix. -/
def withSvc (service : String) : String := if (stripPrefix "svc:" service).isSome then service else "svc:" ++ service

/-- The candidate of a changed service: its first playbook whose experiment evidences an article. -/
def assembleChange (policy : LoadedPolicy) (inputs : TopologyInputs) (lineage : List LineageCell) (reading : PassReading)
    (event : ChangeEventRecord) (serviceId : String) : List PlaybookEntry → Pilot (Option Assembled)
  | [] => pure none
  | pb :: rest =>
    if pb.service ≠ some (stripSvc serviceId) then assembleChange policy inputs lineage reading event serviceId rest
    else do
      let article ← Db.observe fun tick => Γ.playbookArticle tick pb.experiment
      match article with
      | none => assembleChange policy inputs lineage reading event serviceId rest
      | some articleId => do
        let facts ← Db.observe fun tick => Γ.inspectExperiment tick pb.experiment
        let id ← Db.observe Γ.newId
        let openDeviation := lineage.any fun c => c.serviceId = serviceId && c.status = .broken
        let item ← gateCandidate Γ policy reading openDeviation
          { id
            serviceId
            tier := (inputs.servicesWithTiers.find? (·.1 = serviceId)).bind (·.2)
            plugin := pb.plugin
            action := pb.action
            articleId
            score := 1
            reasons := [s!"change event from '{event.source}' invalidates evidence for {serviceId}"]
            confidence := .high
            playbookExperiment := some pb.experiment
            experimentHasGuard := facts.hasGuard
            experimentHasRollback := facts.hasRollback
            experimentHasSteadyState := facts.hasSteady
            experimentFaultCount := facts.faults
            trigger := .changeEvent event.source event.detail }
        pure (some item)

/-- The candidates of the changed services, one a service, for those not seen yet. -/
def assembleChanges (policy : LoadedPolicy) (inputs : TopologyInputs) (lineage : List LineageCell) (reading : PassReading) :
    List String → List ChangeEventRecord → Pilot (List Assembled)
  | _, [] => pure []
  | seen, event :: rest =>
    let serviceId := withSvc event.serviceId
    if seen.contains serviceId then assembleChanges policy inputs lineage reading seen rest
    else do
      let item ← assembleChange Γ policy inputs lineage reading event serviceId policy.policy.playbook
      let items ← assembleChanges policy inputs lineage reading (serviceId :: seen) rest
      pure (item.toList ++ items)

/-- Assemble gate-ready candidates: those of the recommendations, then those of the services that changed in the last week. -/
def assembleCandidates (policy : LoadedPolicy) (nowNs : Int) (withinHours : Bool) (limit concurrentExperiments : Nat) :
    Pilot (List Assembled) := do
  let inputs ← Db.observe Γ.gatherInputs
  let inputs ← Db.ofExcept inputs
  let lineage := computeLineage inputs.lineageInput none none
  let recommendations ← Db.observe fun tick => Γ.recommendationsFor tick inputs lineage limit
  let history ← readStore Γ autopilotClassHistory
  let runsToday ← readCount Γ fun st => autopilotDecisionsSince st.decisions.rows (nowNs - 24 * nanosPerHour)
  let reading : PassReading := { nowNs, withinHours, concurrentExperiments, runsToday, history }
  let out ← assembleRecommendations Γ policy inputs lineage reading recommendations
  let changes ← readStore Γ fun st => changeEventsSince st (nowNs - 7 * 24 * nanosPerHour)
  let changed ← assembleChanges Γ policy inputs lineage reading (out.map (·.candidate.serviceId)) changes
  pure (out ++ changed)

/-- Gate the candidate of a decision again, on the store and the playbook as they are now. -/
def regateDecision (policy : LoadedPolicy) (record : DecisionRecord) (nowNs : Int) (withinHours : Bool)
    (concurrentExperiments : Nat) : Pilot GateDecision := do
  let inputs ← Db.observe Γ.gatherInputs
  let inputs ← Db.ofExcept inputs
  let lineage := computeLineage inputs.lineageInput none none
  let facts ← factsOf Γ record.playbook
  let candidate : Candidate :=
    { id := record.id
      serviceId := record.serviceId
      tier := record.tier
      plugin := record.plugin
      action := record.action
      articleId := record.articleId
      score := record.score
      reasons := []
      confidence := record.confidence
      playbookExperiment := record.playbook
      experimentHasGuard := facts.hasGuard
      experimentHasRollback := facts.hasRollback
      experimentHasSteadyState := facts.hasSteady
      experimentFaultCount := facts.faults
      trigger := .manual }
  let last ← readStore Γ fun st => autopilotLastEnactedOn st.decisions.rows record.serviceId
  let runsToday ← readCount Γ fun st => autopilotDecisionsSince st.decisions.rows (nowNs - 24 * nanosPerHour)
  let telemetry ← guardTelemetry Γ candidate
  let ambient : AmbientContext :=
    { openDeviationForTarget := lineage.any fun c => c.serviceId = record.serviceId && c.status = .broken
      runsToday
      hoursSinceLastRunOnService := last.map fun last => .finite (elapsedHours nowNs last)
      withinBusinessHours := withinHours
      concurrentExperiments
      guardTelemetryOk := telemetry }
  let history ← readStore Γ autopilotClassHistory
  let autonomy := history.lookup (classKey candidate.plugin candidate.action candidate.tier)
  pure (evaluate policy.policy candidate ambient autonomy (validate candidate))

/-! ## The tools -/

/-- Persist one decision, and mirror it in the graph. -/
def persistDecision (policy : LoadedPolicy) (item : Assembled) (nowNs : Int) : Pilot Unit := do
  let c := item.candidate
  insertAutopilotDecision Γ
    { id := c.id
      decidedAtNs := nowNs
      serviceId := c.serviceId
      tier := c.tier
      plugin := c.plugin
      action := c.action
      articleId := c.articleId
      score := c.score
      confidence := c.confidence
      playbook := c.playbookExperiment
      verdict := item.decision.verdict.token
      policyHash := policy.policyHash }
  mirrorInGraph Γ

/-- With `execute`, run the playbook of a decision that the gate enacts. -/
def enactDecision (execute : Bool) (gate : GateReading) (item : Assembled) : Pilot (Option String) :=
  if item.decision.verdict = .enact ∧ execute then
    match item.candidate.playbookExperiment with
    | none => Db.throw (.execution "enact verdict without playbook (gate bug)")
    | some playbook => do
      let status ← runPlaybook Γ item.candidate.serviceId gate item.candidate.id playbook
      pure (some status)
  else pure none

/-- Persist the decisions of a pass in order, and enact each before the next one. -/
def settleDecisions (policy : LoadedPolicy) (execute : Bool) (gate : GateReading) :
    List Assembled → Pilot (List (Assembled × Option String))
  | [] => pure []
  | item :: rest => do
    persistDecision Γ policy item gate.nowNs
    let runStatus ← enactDecision Γ execute gate item
    let settled ← settleDecisions policy execute gate rest
    pure ((item, runStatus) :: settled)

/-- One pass of the loop: assemble, gate, persist every decision, enact the `enact` verdicts (when `execute`). -/
def autopilotOnce (policyPath : String) (execute : Bool) (limit : Option Nat) (concurrentExperiments : Nat) :
    Pilot (List (Assembled × Option String)) := do
  let policy ← loadPolicy Γ policyPath
  if policy.policy.enabled then do
    openStore Γ
    let nowNs ← Db.now Γ.toEnv
    let withinHours ← Db.observe Γ.withinBusinessHours
    let limit := min (max (limit.getD 3) 1) 10
    let assembled ← assembleCandidates Γ policy nowNs withinHours limit concurrentExperiments
    let decisions ← Db.peek fun st => st.decisions.rows
    settleDecisions Γ policy execute { human := false, nowNs, decisions } assembled
  else Db.throw (.invalidInput "autopilot is disabled in policy (autopilot.enabled = false)")

/-- One-line summary of why a re-gated decision must not run. -/
def regateRefusalDetail (decision : GateDecision) : String :=
  match decision.verdict with
  | .veto rule => s!"gate veto on rule '{rule}'"
  | .downgrade reasons => "gate no longer enacts: " ++ "; ".intercalate reasons
  | .propose reasons => "gate no longer enacts: " ++ "; ".intercalate reasons
  | .enact => "enact"

/-- Persist the re-gate outcome. -/
def recordRegateOutcome (decisionId : String) (kind : EventKind) : Pilot Unit := do
  let recordedAt ← Db.now Γ.toEnv
  appendAutopilotEvent Γ decisionId recordedAt kind

/-- What an approval does once it is recorded: the policy must be the one the decision was gated under, the gate is evaluated
again, and only an `enact` runs the playbook. -/
def enactApproved (record : DecisionRecord) (policy : LoadedPolicy) (concurrentExperiments : Nat) : Pilot Unit := do
  if policy.policyHash ≠ record.policyHash then do
    recordRegateOutcome Γ record.id .reGateRefused
    Db.throw (.execution (s!"approval refused: policy changed since the decision was recorded (decision hash {record.policyHash}, " ++
      s!"current hash {policy.policyHash}) — re-run the autopilot pass and approve the fresh decision"))
  else do
    let nowNs ← Db.now Γ.toEnv
    let withinHours ← Db.observe Γ.withinBusinessHours
    let decisions ← Db.peek fun st => st.decisions.rows
    let decision ← regateDecision Γ policy record nowNs withinHours concurrentExperiments
    if decision.verdict ≠ .enact then do
      recordRegateOutcome Γ record.id .reGateRefused
      Db.throw (.execution s!"approval refused by gate re-evaluation: {regateRefusalDetail decision}")
    else do
      recordRegateOutcome Γ record.id .reGatePassed
      match record.playbook with
      | none => Db.throw (.invalidInput "decision has no playbook to run")
      | some playbook => do
        let _ ← runPlaybook Γ record.serviceId { human := true, nowNs, decisions } record.id playbook

/-- The checks of a response before it is recorded: the decision, which must take a response and must not have one as its latest
event, and for an approval the policy to gate it again with. -/
def responseChecks (decisionId : String) (approve : Bool) (policyPath : Option String) :
    Pilot (DecisionRecord × Option LoadedPolicy) := do
  openStore Γ
  let status ← readStore Γ fun st => (autopilotDecision st decisionId, st.lastEvent decisionId)
  match status.1 with
  | none => Db.throw (.notFound s!"decision {decisionId}")
  | some record =>
    if record.verdict ≠ .propose ∧ record.verdict ≠ .downgrade then
      Db.throw (.invalidInput
        s!"decision {decisionId} has verdict '{record.verdict.text}' — only propose/downgrade take a human response")
    else if status.2.any (·.isHuman) then
      Db.throw (.invalidInput ("decision " ++ decisionId ++ " already resolved (" ++ (status.2.map EventKind.text).getD "" ++ ")"))
    else if approve then
      match policyPath with
      | none =>
        Db.throw (.invalidInput
          "policy_path is required when approve=true — the gate re-evaluates current state before the playbook runs")
      | some path => do
        let policy ← loadPolicy Γ path
        pure (record, some policy)
    else pure (record, none)

/-- Approve or deny a proposed or downgraded decision. An approval is recorded, gated again and, if it may be enacted, run. -/
def autopilotRespond (decisionId : String) (approve : Bool) (policyPath : Option String) (concurrentExperiments : Nat) :
    Pilot Unit := do
  let (record, policy) ← responseChecks Γ decisionId approve policyPath
  let respondedAt ← Db.now Γ.toEnv
  appendAutopilotEvent Γ decisionId respondedAt (if approve then .humanApproved else .humanDenied)
  match policy with
  | none => pure ()
  | some policy => enactApproved Γ record policy concurrentExperiments

/-! ## Histories -/

/-- A call of one of the two tools that start playbooks. -/
inductive PilotCall where
  | once (policyPath : String) (execute : Bool) (limit : Option Nat) (concurrentExperiments : Nat)
  | respond (decisionId : String) (approve : Bool) (policyPath : Option String) (concurrentExperiments : Nat)
  deriving DecidableEq, Repr

/-- The session a call leaves, whether it returns or reports an error. -/
def PilotCall.perform (call : PilotCall) (s : Db.Session PilotStore) : Db.Session PilotStore :=
  match call with
  | .once policyPath execute limit concurrentExperiments => (autopilotOnce Γ policyPath execute limit concurrentExperiments s).2
  | .respond decisionId approve policyPath concurrentExperiments =>
    (autopilotRespond Γ decisionId approve policyPath concurrentExperiments s).2

/-- The session a history of calls leaves. -/
def performAll (calls : List PilotCall) (s : Db.Session PilotStore) : Db.Session PilotStore :=
  calls.foldl (fun s call => call.perform Γ s) s

/-! ## Plain surroundings -/

/-- A policy under which the playbook of one fault class may be enacted, once a day. -/
def plainPolicy : LoadedPolicy where
  policy :=
    { enabled := true
      maxRunsPerDay := 1
      enactTiers := ["data"]
      pretrusted := [{ plugin := "tumult-postgres", action := "kill-connections", tier := "data" }]
      playbook := [{ plugin := "tumult-postgres", action := "kill-connections", experiment := "kill.toon" }] }
  rawToml := ""
  hash := "h1"

/-- Surroundings in which nothing fails: the clock moves with the ticks, and every playbook is sound and completes. -/
def plainPilot : PilotCtx where
  clock tick := tick
  fails _ := false
  storePath := "tumult.duckdb"
  storeExists _ := true
  loadPolicy _ _ := .ok plainPolicy
  withinBusinessHours _ := true
  gatherInputs _ := .ok
    { servicesWithTiers := []
      lineageInput := { edges := [], services := [], articles := [], deviationAttrs := fun _ => none, parseAttrs := fun _ => none } }
  recommendationsFor _ _ _ _ := []
  newId tick := "".pushn 'i' tick
  inspectExperiment _ _ := { hasSteady := true, hasRollback := true, hasGuard := true, faults := 1 }
  preflightGuardTelemetry _ _ := some true
  playbookArticle _ _ := none
  createsDir _ := true
  runExperiment _ _ := .ok ("completed", "e")

/-- Surroundings in which the recommender names the services given, all of one tier. -/
def recommendingPilot (services : List String) : PilotCtx :=
  { plainPilot with
    gatherInputs := fun _ => .ok
      { servicesWithTiers := services.map (·, some "data")
        lineageInput :=
          { edges := [], services := [], articles := [], deviationAttrs := fun _ => none, parseAttrs := fun _ => none } }
    recommendationsFor := fun _ _ _ _ => services.map fun service =>
      { serviceId := service, articleId := "compliance:DORA/Art.25", plugin := "tumult-postgres", action := "kill-connections"
        score := 1, reasons := [] } }

/-- A store without decisions. -/
def emptyPilotStore : Db.Session PilotStore where
  store := { decisions := { rows := [], nodup := List.nodup_nil }, events := [], changeEvents := [], runs := [] }
  tick := 0

end Tumult
