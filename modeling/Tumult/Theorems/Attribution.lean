import Tumult.Graph.Map
import Tumult.Runner.Steps

/-!
# Attributions

A deviation is attributed by names: an action's result is keyed under the fault of the first action of its name. An attribution is
true when the fault is that of a step that failed, or in a halt without one that of every action dispatched. Over every journal of
the runner, with or without the definition, that is so exactly when the names tell (`attributionTrue_iff`).
-/

namespace Tumult

open Traced

/-- The fault an action injects, as the graph keys it: without the definition, by the action's name. -/
def faultOf (definition : Option Experiment) (activity : Activity) : String :=
  match definition with
  | some _ => activity.faultId
  | none => "fault:" ++ activity.name

/-- The definition, when the journal is ingested with it. -/
def ingestedWith (experiment : Experiment) (full : Bool) : Option Experiment := if full then some experiment else none

/-- A step that failed injected the fault. -/
def FailedFault (definition : Option Experiment) (steps : List Executed) (faultId : String) : Prop :=
  ∃ x ∈ steps, x.Failing ∧ faultOf definition x.activity = faultId

/-- The fault is the only one dispatched. -/
def OnlyDispatched (definition : Option Experiment) (trace : List Entry) (faultId : String) : Prop :=
  (∃ activity, Dispatched trace activity) ∧ ∀ activity, Dispatched trace activity → faultOf definition activity = faultId

/-- Every attribution is true: of a step that failed, or, in a halt with none that failed, of the only fault dispatched. -/
def AttributionTrue (Γ : MapCtx) (definition : Option Experiment) (trace : List Entry) (steps : List Executed) (journal : Journal) :
    Prop :=
  ∀ e ∈ (journalToGraph Γ journal definition).edges, e.rel = .causedBy →
    FailedFault definition steps e.dst ∨
      (journal.halt.isSome ∧ ∀ x ∈ steps, ¬ x.Failing) ∧ OnlyDispatched definition trace e.dst

/-- The names tell the faults: a failing action's name leads to the fault of an action that failed; and in a halt without one, where
the names of all actions lead to one fault, an action was dispatched and the name of each dispatched action leads to its own. -/
structure NamesTell (definition : Option Experiment) (trace : List Entry) (steps : List Executed) (journal : Journal) : Prop where
  failing : ∀ x ∈ steps, x.Failing → ∃ y ∈ steps, y.Failing ∧ faultIdForAction x.activity.name definition = some (faultOf definition y.activity)
  halted : journal.halt.isSome → (∀ x ∈ steps, ¬ x.Failing) → ∀ faultId,
    (∃ x ∈ steps, x.activity.activityType = .action) →
    (∀ x ∈ steps, x.activity.activityType = .action → faultIdForAction x.activity.name definition = some faultId) →
    (∃ activity, Dispatched trace activity) ∧
      ∀ activity, Dispatched trace activity → faultIdForAction activity.name definition = some (faultOf definition activity)

variable {Γ : MapCtx} {experiment : Experiment} {definition : Option Experiment} {full : Bool} {trace : List Entry} {steps : List Executed}
  {journal : Journal}

/-! ## What the names lead to -/

/-- The name of a step of the definition leads to a fault. -/
theorem faultIdForAction_ne_none (full : Bool) {activity : Activity} (hmethod : activity ∈ experiment.method) (haction : activity.activityType = .action) :
    faultIdForAction activity.name (ingestedWith experiment full) ≠ none := by
  cases full with
  | false => simp [ingestedWith, faultIdForAction]
  | true =>
    simp only [ingestedWith, if_true, faultIdForAction, ne_eq, Option.map_eq_none_iff, List.find?_eq_none]
    intro h
    simpa [haction] using h activity hmethod

theorem mem_failingActions (h : StepsBehind experiment trace journal steps) {name : String} :
    name ∈ failingActions journal ↔ ∃ x ∈ steps, x.Failing ∧ x.activity.name = name := by
  unfold failingActions
  rw [← h.results]
  simp only [List.mem_map, List.mem_filter, Bool.and_eq_true, Bool.or_eq_true, decide_eq_true_eq]
  constructor
  · rintro ⟨_, ⟨⟨x, hx, rfl⟩, haction, hfailed⟩, rfl⟩
    obtain ⟨hname, htype⟩ := h.named x hx
    exact ⟨x, hx, ⟨htype ▸ haction, hfailed⟩, hname.symm⟩
  · rintro ⟨x, hx, ⟨haction, hfailed⟩, rfl⟩
    obtain ⟨hname, htype⟩ := h.named x hx
    exact ⟨x.result, ⟨⟨x, hx, rfl⟩, by rw [htype, haction], hfailed⟩, hname⟩

theorem sortDedup_eq_singleton {ids : List String} {id : String} : sortDedup ids = [id] ↔ (∃ x, x ∈ ids) ∧ ∀ x ∈ ids, x = id := by
  constructor
  · intro h
    have hmem : ∀ x, x ∈ ids ↔ x = id := fun x => by rw [← mem_sortDedup, h, List.mem_singleton]
    exact ⟨⟨id, (hmem id).mpr rfl⟩, fun x hx => (hmem x).mp hx⟩
  · rintro ⟨⟨x, hx⟩, hall⟩
    have hmem : ∀ x ∈ sortDedup ids, x = id := fun x hx => hall x (mem_sortDedup.mp hx)
    have hnodup : (sortDedup ids).Nodup := List.nodup_dedup _
    rw [List.eq_replicate_of_mem hmem] at hnodup ⊢
    have hpos : sortDedup ids ≠ [] := List.ne_nil_of_mem (mem_sortDedup.mpr hx)
    have hlength : (sortDedup ids).length = 1 := by
      have hle := List.nodup_replicate.mp hnodup
      have := List.length_pos_iff.mpr hpos
      omega
    rw [hlength]
    rfl

/-- A single fault is injected when there is an action and the names of all lead to it. -/
theorem injectedFaultIds_eq (h : StepsBehind experiment trace journal steps) {faultId : String} :
    injectedFaultIds journal (ingestedWith experiment full) = [faultId] ↔
      (∃ x ∈ steps, x.activity.activityType = .action) ∧
        ∀ x ∈ steps, x.activity.activityType = .action →
          faultIdForAction x.activity.name (ingestedWith experiment full) = some faultId := by
  have hmem : ∀ id, id ∈ (journal.methodResults.filter (·.activityType = .action)).filterMap
        (fun r => faultIdForAction r.name (ingestedWith experiment full)) ↔
      ∃ x ∈ steps, x.activity.activityType = .action ∧
        faultIdForAction x.activity.name (ingestedWith experiment full) = some id := by
    intro id
    rw [← h.results]
    simp only [List.mem_filterMap, List.mem_filter, List.mem_map, decide_eq_true_eq]
    constructor
    · rintro ⟨_, ⟨⟨x, hx, rfl⟩, haction⟩, hid⟩
      obtain ⟨hname, htype⟩ := h.named x hx
      exact ⟨x, hx, htype ▸ haction, hname ▸ hid⟩
    · rintro ⟨x, hx, haction, hid⟩
      obtain ⟨hname, htype⟩ := h.named x hx
      exact ⟨x.result, ⟨⟨x, hx, rfl⟩, htype.trans haction⟩, by rw [hname]; exact hid⟩
  unfold injectedFaultIds
  rw [sortDedup_eq_singleton]
  simp only [hmem]
  constructor
  · rintro ⟨⟨id, x, hx, haction, -⟩, hall⟩
    refine ⟨⟨x, hx, haction⟩, fun y hy hyaction => ?_⟩
    obtain ⟨id', hid'⟩ := Option.ne_none_iff_exists'.mp (faultIdForAction_ne_none full (h.declared y hy) hyaction)
    rw [hid', hall id' ⟨y, hy, hyaction, hid'⟩]
  · rintro ⟨⟨x, hx, haction⟩, hall⟩
    refine ⟨⟨faultId, x, hx, haction, hall x hx haction⟩, ?_⟩
    rintro id ⟨y, hy, hyaction, hid⟩
    rw [hall y hy hyaction] at hid
    exact (Option.some.inj hid).symm

/-! ## When attributions are true -/

/-- The attributions of a journal, told by its steps. -/
theorem causedBy_iff (h : StepsBehind experiment trace journal steps) {faultId : String} :
    (∃ e ∈ (journalToGraph Γ journal (ingestedWith experiment full)).edges, e.rel = .causedBy ∧ e.dst = faultId) ↔
      (∃ x ∈ steps, x.Failing ∧ faultIdForAction x.activity.name (ingestedWith experiment full) = some faultId) ∨
        (∀ x ∈ steps, ¬ x.Failing) ∧ journal.halt.isSome ∧
          (∃ x ∈ steps, x.activity.activityType = .action) ∧
          ∀ x ∈ steps, x.activity.activityType = .action →
            faultIdForAction x.activity.name (ingestedWith experiment full) = some faultId := by
  have hnone : (∀ name ∈ failingActions journal, faultIdForAction name (ingestedWith experiment full) = none) ↔
      ∀ x ∈ steps, ¬ x.Failing := by
    constructor
    · intro hall x hx hfailing
      exact faultIdForAction_ne_none full (h.declared x hx) hfailing.1 (hall _ ((mem_failingActions h).mpr ⟨x, hx, hfailing, rfl⟩))
    · intro hall name hname
      obtain ⟨x, hx, hfailing, -⟩ := (mem_failingActions h).mp hname
      exact absurd hfailing (hall x hx)
  rw [journalToGraph_causedBy, mem_causedByFaultIds, hnone, injectedFaultIds_eq h]
  constructor
  · rintro ⟨-, ⟨name, hname, hid⟩ | hsole⟩
    · obtain ⟨x, hx, hfailing, rfl⟩ := (mem_failingActions h).mp hname
      exact .inl ⟨x, hx, hfailing, hid⟩
    · exact .inr hsole
  · rintro (⟨x, hx, hfailing, hid⟩ | hsole)
    · exact ⟨h.failing ⟨x, hx, hfailing⟩, .inl ⟨_, (mem_failingActions h).mpr ⟨x, hx, hfailing, rfl⟩, hid⟩⟩
    · exact ⟨h.halted hsole.2.1, .inr hsole⟩

theorem attributionTrue_of_steps (h : StepsBehind experiment trace journal steps) :
    AttributionTrue Γ (ingestedWith experiment full) trace steps journal ↔ NamesTell (ingestedWith experiment full) trace steps journal := by
  constructor
  · intro htrue
    constructor
    · intro x hx hfailing
      obtain ⟨faultId, hid⟩ := Option.ne_none_iff_exists'.mp (faultIdForAction_ne_none full (h.declared x hx) hfailing.1)
      obtain ⟨e, he, hrel, rfl⟩ := (causedBy_iff (Γ := Γ) h).mpr (.inl ⟨x, hx, hfailing, hid⟩)
      rcases htrue e he hrel with ⟨y, hy, hyfailing, hfault⟩ | ⟨⟨-, hnone⟩, -⟩
      · exact ⟨y, hy, hyfailing, by rw [hid, hfault]⟩
      · exact absurd hfailing (hnone x hx)
    · intro hhalt hnone faultId haction hall
      obtain ⟨e, he, hrel, rfl⟩ := (causedBy_iff (Γ := Γ) h).mpr (.inr ⟨hnone, hhalt, haction, hall⟩)
      rcases htrue e he hrel with ⟨y, hy, hyfailing, -⟩ | ⟨-, hsome, honly⟩
      · exact absurd hyfailing (hnone y hy)
      · refine ⟨hsome, fun activity hd => ?_⟩
        obtain ⟨x, hx, rfl⟩ := h.dispatched activity hd
        rw [hall x hx hd.1, honly x.activity hd]
  · intro htell e he hrel
    rcases (causedBy_iff h).mp ⟨e, he, hrel, rfl⟩ with ⟨x, hx, hfailing, hid⟩ | ⟨hnone, hhalt, haction, hall⟩
    · obtain ⟨y, hy, hyfailing, hfault⟩ := htell.failing x hx hfailing
      refine .inl ⟨y, hy, hyfailing, ?_⟩
      rw [hid] at hfault
      exact (Option.some.inj hfault).symm
    · obtain ⟨hsome, hown⟩ := htell.halted hhalt hnone e.dst haction hall
      refine .inr ⟨⟨hhalt, hnone⟩, hsome, fun activity hd => ?_⟩
      obtain ⟨x, hx, rfl⟩ := h.dispatched activity hd
      have hkey := hown x.activity hd
      rw [hall x hx hd.1] at hkey
      exact (Option.some.inj hkey).symm

variable {Γr : RunnerCtx} {executor : ActivityExecutor} {controls : ControlRegistry} {config : RunConfig}

/-- **The attributions of a run's journal are true** exactly when the names tell. -/
theorem attributionTrue_iff (full : Bool)
    (h : (runExperiment Γr executor controls experiment config).outcome = .returned (.ok journal)) :
    AttributionTrue Γ (ingestedWith experiment full) (runExperiment Γr executor controls experiment config).trace
        (journalSteps Γr executor controls experiment config journal) journal ↔
      NamesTell (ingestedWith experiment full) (runExperiment Γr executor controls experiment config).trace
        (journalSteps Γr executor controls experiment config journal) journal :=
  attributionTrue_of_steps (journalSteps_behind h)

/-- A provider whose second sequential step fails. -/
def failsSecond : ActivityExecutor where
  execute site _ :=
    match site with
    | .foreground 1 => .returned ⟨false, none, some "exit status 1", 1⟩
    | _ => .returned ⟨true, none, none, 1⟩

/-- Two actions of one name, of different providers. -/
def twiceNamed : Experiment where
  title := "latency"
  method := [nativeAction "break", { nativeAction "break" with provider := .process "/bin/stress" [] [] none }]

/-- No services and no citations. -/
def bareMapCtx : MapCtx where
  serviceFromArguments _ := none
  serviceFromProcess _ _ := none
  resolveCitation _ _ := none

/-- A run of the two actions without a failure. -/
theorem attributionTrue_iff_succeeding :
    ∃ journal, (runExperiment stillCtx succeedingExecutor ⟨[]⟩ twiceNamed {}).outcome = .returned (.ok journal) ∧
      (AttributionTrue bareMapCtx (ingestedWith twiceNamed true) (runExperiment stillCtx succeedingExecutor ⟨[]⟩ twiceNamed {}).trace
          (journalSteps stillCtx succeedingExecutor ⟨[]⟩ twiceNamed {} journal) journal ↔
        NamesTell (ingestedWith twiceNamed true) (runExperiment stillCtx succeedingExecutor ⟨[]⟩ twiceNamed {}).trace
          (journalSteps stillCtx succeedingExecutor ⟨[]⟩ twiceNamed {} journal) journal) :=
  ⟨_, rfl, attributionTrue_iff true rfl⟩

/-- The second action fails, and the deviation is attributed to the first one's fault. -/
theorem attributionTrue_false :
    ¬ ∀ (Γ : MapCtx) (Γr : RunnerCtx) (executor : ActivityExecutor) (controls : ControlRegistry) (experiment : Experiment)
        (config : RunConfig) (journal : Journal) (full : Bool),
      (runExperiment Γr executor controls experiment config).outcome = .returned (.ok journal) →
        AttributionTrue Γ (ingestedWith experiment full) (runExperiment Γr executor controls experiment config).trace
          (journalSteps Γr executor controls experiment config journal) journal := by
  intro h
  obtain ⟨journal, hrun⟩ : ∃ journal, (runExperiment stillCtx failsSecond ⟨[]⟩ twiceNamed {}).outcome = .returned (.ok journal) :=
    ⟨_, rfl⟩
  have htell := (@attributionTrue_of_steps bareMapCtx twiceNamed true _ _ _ (journalSteps_behind hrun)).mp (h _ _ _ _ _ _ _ true hrun)
  have hsteps : journalSteps stillCtx failsSecond ⟨[]⟩ twiceNamed {} journal =
      [⟨nativeAction "break", makeResult (nativeAction "break") 0 ⟨true, none, none, 1⟩⟩,
        ⟨{ nativeAction "break" with provider := .process "/bin/stress" [] [] none },
          makeResult { nativeAction "break" with provider := .process "/bin/stress" [] [] none } 0 ⟨false, none, some "exit status 1", 1⟩⟩] := by
    cases hrun
    rfl
  rw [hsteps] at htell
  obtain ⟨y, hy, hfailing, hfault⟩ := htell.failing _ (List.mem_cons_of_mem _ List.mem_cons_self) ⟨rfl, .inl rfl⟩
  simp only [List.mem_cons, List.not_mem_nil, or_false] at hy
  rcases hy with rfl | rfl
  · exact absurd hfailing (by decide)
  · exact absurd hfault (by decide)

end Tumult
