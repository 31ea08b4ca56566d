import Tumult.Graph.Model

/-!
# From a journal to its delta

The mapping of a journal, with or without the definition it is of, and the attribution of a deviation to faults: every failed action
to its fault, and a halted run without one to the sole fault injected. Results are resolved back to definitions by name.
-/

namespace Tumult

/-- A citation of the compliance registry. -/
structure Citation where
  framework : String
  controlId : String
  strength : String
  deriving DecidableEq, Repr

/-- What is read of the definition by other modules: the services its providers act on, and the citations its mapping names. -/
structure MapCtx where
  serviceFromArguments : List (String × String) → Option String
  serviceFromProcess : String → List String → Option String
  resolveCitation : String → String → Option Citation

/-- The node identifier of an article; white space in the control is removed. -/
def complianceArticleId (framework controlId : String) : String :=
  "compliance:" ++ framework ++ "/" ++ String.ofList (controlId.toList.filter (!·.isWhitespace))

def ExperimentStatus.toString : ExperimentStatus → String
  | .completed => "completed"
  | .deviated => "deviated"
  | .aborted => "aborted"
  | .failed => "failed"
  | .interrupted => "interrupted"
  | .halted => "halted"

/-! ## Attribution -/

/-- The fault an action injects: a plugin's function, or for a process the action's own name. -/
def Activity.faultId (activity : Activity) : String :=
  match activity.provider with
  | .native plugin function _ | .script plugin function _ _ => "fault:" ++ plugin ++ "::" ++ function
  | .process _ _ _ _ => "fault:" ++ activity.name

/-- The fault an action of this name is keyed under: that of the first such action of the definition, or the name itself. -/
def faultIdForAction (actionName : String) (experiment : Option Experiment) : Option String :=
  match experiment with
  | some experiment =>
    (experiment.method.find? fun a => a.activityType = .action && a.name = actionName).map (·.faultId)
  | none => some ("fault:" ++ actionName)

/-- Sorted, each once. -/
def sortDedup (ids : List String) : List String := (ids.insertionSort (· ≤ ·)).dedup

/-- Every fault the run injected. -/
def injectedFaultIds (journal : Journal) (experiment : Option Experiment) : List String :=
  sortDedup ((journal.methodResults.filter (·.activityType = .action)).filterMap fun r => faultIdForAction r.name experiment)

/-- Enrichment of a deviation's node, and the faults it is attributed to. -/
structure DeviationDetail where
  attrs : Attrs
  causedByFaultIds : List String

/-- The names of the actions that failed or timed out. -/
def failingActions (journal : Journal) : List String :=
  (journal.methodResults.filter fun r => r.activityType = .action && (r.status = .failed || r.status = .timeout)).map (·.name)

/-- The flattened record of a guard's halt. -/
def haltAttrs (halt : HaltRecord) : Attrs :=
  [("guard_name", .text halt.guardName), ("observed", (halt.observed.map .text).getD .null), ("safe_condition", .text halt.safeCondition),
    ("breach_count", .number halt.breachCount), ("breached_at_ns", .number halt.breachedAtNs)]

/-- Derive the detail of a deviation from a journal. -/
def deviationDetail (journal : Journal) (experiment : Option Experiment) : DeviationDetail :=
  let failing := failingActions journal
  let attrs : Attrs := [("status", .text journal.status.toString), ("failing_actions", .list (failing.map .text))] ++
    (journal.halt.map fun halt => ("halt", Attr.record (haltAttrs halt))).toList
  let causedBy := sortDedup (failing.filterMap fun name => faultIdForAction name experiment)
  let injected := injectedFaultIds journal experiment
  -- halted with no failed action: attributed only when a single fault was injected
  if causedBy = [] ∧ journal.halt.isSome ∧ injected.length = 1 then
    ⟨attrs ++ [("attribution_note", .text "sole injected fault at guard halt")], injected⟩
  else ⟨attrs, causedBy⟩

/-! ## The mapping -/

/-- The attributes of a fault's node. -/
def Activity.faultAttrs (activity : Activity) : Attrs :=
  match activity.provider with
  | .native plugin function _ | .script plugin function _ _ => [("plugin", .text plugin), ("function", .text function)]
  | .process path _ _ _ => [("process", .text path)]

/-- The label of a fault's node. -/
def Activity.faultLabel (activity : Activity) : String :=
  match activity.provider with
  | .native plugin function _ | .script plugin function _ _ => plugin ++ "::" ++ function
  | .process _ _ _ _ => activity.name

/-- The service an action acts on. -/
def Activity.service (Γ : MapCtx) (activity : Activity) : Option String :=
  match activity.provider with
  | .native _ _ arguments | .script _ _ arguments _ => Γ.serviceFromArguments arguments
  | .process path arguments _ _ => Γ.serviceFromProcess path arguments

/-- The fault of an action, and the service it is observed on. -/
def mapActivity (Γ : MapCtx) (expId : String) (b : Builder) (activity : Activity) : Builder :=
  if activity.activityType ≠ .action then b
  else
    let faultId := activity.faultId
    let b := b.pushNode ⟨faultId, .fault, activity.faultLabel, activity.faultAttrs⟩
    let b := b.pushEdge expId .injects faultId
    match activity.service Γ with
    | none => b
    | some service =>
      let svcId := "svc:" ++ service
      let b := b.pushNode ⟨svcId, .service, service, []⟩
      let b := b.pushEdge expId .targets svcId
      b.pushEdge faultId .observedOn svcId

/-- Faults and services from the definition's actions. -/
def mapFromExperiment (Γ : MapCtx) (b : Builder) (expId : String) (experiment : Experiment) : Builder :=
  experiment.method.foldl (mapActivity Γ expId) b

/-- One requirement under one framework; one that names no citation is left out. -/
def mapRequirement (Γ : MapCtx) (expId : String) (completed : Bool) (b : Builder) (framework : String)
    (requirement : RegulatoryRequirement) : Builder :=
  match Γ.resolveCitation framework requirement.id with
  | none => b
  | some citation =>
    let articleId := complianceArticleId citation.framework citation.controlId
    let attrs : Attrs := [("strength", .text citation.strength), ("framework", .text citation.framework),
      ("control_id", .text citation.controlId)]
    let b := b.pushEdgeWithAttrs expId .mapsToCompliance articleId attrs
    if completed then b.pushEdgeWithAttrs expId .evidences articleId attrs else b

/-- A declared mapping, and for a completed run the evidence it supplies. -/
def mapCompliance (Γ : MapCtx) (b : Builder) (expId : String) (mapping : RegulatoryMapping) (completed : Bool) : Builder :=
  mapping.frameworks.foldl (fun b framework =>
    mapping.requirements.foldl (fun b requirement => mapRequirement Γ expId completed b framework requirement) b) b

/-- Without the definition: faults are the names of the action results. -/
def mapFromJournal (b : Builder) (expId : String) (journal : Journal) : Builder :=
  journal.methodResults.foldl (fun b result =>
    if result.activityType ≠ .action then b
    else
      let faultId := "fault:" ++ result.name
      (b.pushNode ⟨faultId, .fault, result.name, [("activity", .text result.name)]⟩).pushEdge expId .injects faultId) b

/-- The deviation of a run that did not complete. -/
def mapDeviation (b : Builder) (runId : String) (journal : Journal) (experiment : Option Experiment) : Builder :=
  if journal.status = .completed then b
  else
    let detail := deviationDetail journal experiment
    let devId := "dev:" ++ journal.experimentId
    let b := b.pushNode ⟨devId, .deviation, journal.status.toString, detail.attrs⟩
    let b := b.pushEdge runId .exhibited devId
    detail.causedByFaultIds.foldl (fun b faultId => b.pushEdge devId .causedBy faultId) b

/-- Turn a run into its delta. -/
def journalToGraph (Γ : MapCtx) (journal : Journal) (experiment : Option Experiment) : GraphDelta :=
  let expId := "exp:" ++ journal.experimentTitle
  let b : Builder := {}
  let b := b.pushNode ⟨expId, .experiment, journal.experimentTitle, []⟩
  let runId := "run:" ++ journal.experimentId
  let status := journal.status.toString
  let b := b.pushNode ⟨runId, .journal, status,
    [("status", .text status), ("started_at_ns", .number journal.startedAtNs), ("duration_ms", .number journal.durationMs)]⟩
  let b := b.pushEdge expId .yielded runId
  let b := mapDeviation b runId journal experiment
  let b :=
    match experiment with
    | some experiment => mapFromExperiment Γ b expId experiment
    | none => mapFromJournal b expId journal
  let b :=
    match (experiment.bind (·.regulatory)).or journal.regulatory with
    | some mapping => mapCompliance Γ b expId mapping (decide (journal.status = ExperimentStatus.completed))
    | none => b
  b.finish

/-! ## What an attribution points at -/

theorem mem_sortDedup {id : String} {ids : List String} : id ∈ sortDedup ids ↔ id ∈ ids := by
  simp [sortDedup]

theorem sortDedup_eq_nil {ids : List String} : sortDedup ids = [] ↔ ids = [] := by
  simp only [List.eq_nil_iff_forall_not_mem, mem_sortDedup]

variable {Γ : MapCtx} {journal : Journal} {experiment : Option Experiment}

/-- Only the deviation's part pushes attributions. -/
theorem mapFromExperiment_causedBy (b : Builder) (expId : String) (definition : Experiment) :
    (mapFromExperiment Γ b expId definition).targets .causedBy = b.targets .causedBy := by
  refine Builder.targets_foldl _ fun b activity _ => ?_
  have hinjects : ∀ b : Builder, (b.pushEdge expId .injects activity.faultId).targets .causedBy = b.targets .causedBy :=
    fun b => Builder.targets_pushEdge_of_ne (by decide)
  have htargets : ∀ (b : Builder) svcId, (b.pushEdge expId .targets svcId).targets .causedBy = b.targets .causedBy :=
    fun b svcId => Builder.targets_pushEdge_of_ne (by decide)
  have hobserved : ∀ (b : Builder) svcId, (b.pushEdge activity.faultId .observedOn svcId).targets .causedBy = b.targets .causedBy :=
    fun b svcId => Builder.targets_pushEdge_of_ne (by decide)
  unfold mapActivity
  split
  · rfl
  · cases activity.service Γ <;> simp [hinjects, htargets, hobserved]

theorem mapFromJournal_causedBy (b : Builder) (expId : String) :
    (mapFromJournal b expId journal).targets .causedBy = b.targets .causedBy := by
  refine Builder.targets_foldl _ fun b result _ => ?_
  split
  · rfl
  · rw [Builder.targets_pushEdge_of_ne (by decide), Builder.targets_pushNode]

theorem mapCompliance_causedBy (b : Builder) (expId : String) (mapping : RegulatoryMapping) (completed : Bool) :
    (mapCompliance Γ b expId mapping completed).targets .causedBy = b.targets .causedBy := by
  refine Builder.targets_foldl _ fun b framework _ => Builder.targets_foldl _ fun b requirement _ => ?_
  unfold mapRequirement
  split
  · rfl
  · dsimp only
    split
    · rw [Builder.targets_pushEdgeWithAttrs_of_ne (by decide), Builder.targets_pushEdgeWithAttrs_of_ne (by decide)]
    · rw [Builder.targets_pushEdgeWithAttrs_of_ne (by decide)]

/-- The attributions of a run: those of its deviation's detail. -/
theorem journalToGraph_causedBy {id : String} :
    (∃ e ∈ (journalToGraph Γ journal experiment).edges, e.rel = .causedBy ∧ e.dst = id) ↔
      journal.status ≠ .completed ∧ id ∈ (deviationDetail journal experiment).causedByFaultIds := by
  have hstart : ∀ b : Builder, b.targets .causedBy = [] → ∀ runId,
      (id ∈ (mapDeviation b runId journal experiment).targets .causedBy ↔
        journal.status ≠ .completed ∧ id ∈ (deviationDetail journal experiment).causedByFaultIds) := by
    intro b hb runId
    unfold mapDeviation
    split
    · next hcompleted => simp [hb, hcompleted]
    · next hstatus =>
      dsimp only
      rw [Builder.mem_targets_pushEdges, Builder.targets_pushEdge_of_ne (by decide), Builder.targets_pushNode, hb]
      simp [hstatus]
  unfold journalToGraph
  dsimp only
  rw [Builder.mem_targets_finish]
  have hrun : ∀ b : Builder, b.targets .causedBy = [] → ∀ expId runId, (b.pushEdge expId .yielded runId).targets .causedBy = [] :=
    fun b hb expId runId => (Builder.targets_pushEdge_of_ne (by decide)).trans hb
  have hempty : (({} : Builder).pushNode ⟨"exp:" ++ journal.experimentTitle, .experiment, journal.experimentTitle, []⟩).targets
      .causedBy = [] := by
    rw [Builder.targets_pushNode]
    rfl
  cases (experiment.bind (·.regulatory)).or journal.regulatory <;> cases experiment <;>
    simp only [mapCompliance_causedBy, mapFromExperiment_causedBy, mapFromJournal_causedBy] <;>
    exact hstart _ (hrun _ (by rw [Builder.targets_pushNode]; exact hempty) _ _) _

/-- The faults a deviation is attributed to: those the failing actions are keyed under, or the sole injected one of a halt. -/
theorem mem_causedByFaultIds {id : String} :
    id ∈ (deviationDetail journal experiment).causedByFaultIds ↔
      (∃ name ∈ failingActions journal, faultIdForAction name experiment = some id) ∨
        (∀ name ∈ failingActions journal, faultIdForAction name experiment = none) ∧ journal.halt.isSome ∧
          injectedFaultIds journal experiment = [id] := by
  have hnil : sortDedup ((failingActions journal).filterMap fun name => faultIdForAction name experiment) = [] ↔
      ∀ name ∈ failingActions journal, faultIdForAction name experiment = none := by
    rw [sortDedup_eq_nil, List.filterMap_eq_nil_iff]
  unfold deviationDetail
  dsimp only
  split
  · next h =>
    obtain ⟨hempty, hhalt, hlength⟩ := h
    have hnone := hnil.mp hempty
    obtain ⟨only, honly⟩ := List.length_eq_one_iff.mp hlength
    have hfailing : ¬ ∃ name ∈ failingActions journal, faultIdForAction name experiment = some id := by
      rintro ⟨name, hname, hsome⟩
      rw [hnone name hname] at hsome
      cases hsome
    rw [honly, or_iff_right hfailing]
    simp only [List.mem_singleton, List.cons.injEq, and_true]
    exact ⟨fun h => ⟨hnone, hhalt, h.symm⟩, fun h => h.2.2.symm⟩
  · next h =>
    rw [mem_sortDedup, List.mem_filterMap]
    refine ⟨.inl, ?_⟩
    rintro (hfailing | ⟨hnone, hhalt, hinjected⟩)
    · exact hfailing
    · exact absurd ⟨hnil.mpr hnone, hhalt, by rw [hinjected]; rfl⟩ h

end Tumult
