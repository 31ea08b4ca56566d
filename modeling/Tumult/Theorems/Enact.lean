import Tumult.Mcp.Enact
import Tumult.Autopilot.Contracts

/-!
# One enactment at a time

Whoever holds the slot is alone, and only the gate keeps the calls without the slot from running. The gate vetoes on a count that is
not zero. The count is zero, though, between the two steps that take the slot and between the two that give it back: a call that was
refused and reads it there is not vetoed.
-/

namespace Tumult

open Db (Reads)
open Interleave (Config Run Reach Holds Keeps)

/-! ## The gate -/

section

variable {Γ : PilotCtx} {policy : LoadedPolicy} {inputs : TopologyInputs} {lineage : List LineageCell} {reading : PassReading}

/-- An enact verdict was given on a count of zero. -/
theorem concurrent_eq_zero_of_enact {policy : AutopilotPolicy} {candidate : Candidate} {ambient : AmbientContext}
    {autonomy : Option AutonomyRecord} {validator : ValidatorReport}
    (h : (evaluate policy candidate ambient autonomy validator).verdict = .enact) : ambient.concurrentExperiments = 0 := by
  have hpass := (evaluate_enact.mp h).1 (.check "ambient.no_concurrent_experiment" (ambient.concurrentExperiments = 0)
    s!"{ambient.concurrentExperiments} experiment(s) already running — autopilot holds one fault at a time") (by simp [vetoRules])
  simpa using hpass

/-- A decision gated with a count: an enact verdict says that it was zero. -/
def GatedWith (concurrent : Nat) (decision : GateDecision) : Prop := decision.verdict = .enact → concurrent = 0

theorem reads_gateCandidate_gated {openDeviation : Bool} {candidate : Candidate} :
    Reads (gateCandidate Γ policy reading openDeviation candidate) fun _ item =>
      GatedWith reading.concurrentExperiments item.decision :=
  Reads.after reads_readStore fun _ => Reads.after reads_guardTelemetry fun _ =>
    Reads.pure fun _ henact => concurrent_eq_zero_of_enact henact

theorem reads_assembleRecommendations_gated (recommendations : List Recommendation) :
    Reads (assembleRecommendations Γ policy inputs lineage reading recommendations) fun _ items =>
      ∀ item ∈ items, GatedWith reading.concurrentExperiments item.decision := by
  induction recommendations with
  | nil => exact Reads.pure fun _ => by simp
  | cons recommendation rest ih =>
    have hfirst : Reads (assembleRecommendation Γ policy inputs lineage reading recommendation) fun _ item =>
        GatedWith reading.concurrentExperiments item.decision :=
      Reads.after reads_factsOf fun _ => Reads.observing fun _ => reads_gateCandidate_gated
    refine Reads.bind hfirst fun item => Reads.bind ih fun items => Reads.pure fun _ hitems hitem => ?_
    exact List.forall_mem_cons.mpr ⟨hitem, hitems⟩

theorem reads_assembleChange_gated {event : ChangeEventRecord} {serviceId : String} (playbooks : List PlaybookEntry) :
    Reads (assembleChange Γ policy inputs lineage reading event serviceId playbooks) fun _ item =>
      ∀ i ∈ item, GatedWith reading.concurrentExperiments i.decision := by
  induction playbooks with
  | nil => exact Reads.pure fun _ => by simp
  | cons pb rest ih =>
    unfold assembleChange
    split
    · exact ih
    refine Reads.observing fun article => ?_
    cases article with
    | none => exact ih
    | some articleId =>
      refine Reads.observing fun facts => ?_
      refine Reads.observing fun id => ?_
      refine Reads.bind reads_gateCandidate_gated fun item => Reads.pure fun _ hitem => ?_
      simpa using hitem

theorem reads_assembleChanges_gated (events : List ChangeEventRecord) (seen : List String) :
    Reads (assembleChanges Γ policy inputs lineage reading seen events) fun _ items =>
      ∀ item ∈ items, GatedWith reading.concurrentExperiments item.decision := by
  induction events generalizing seen with
  | nil => exact Reads.pure fun _ => by simp
  | cons event rest ih =>
    simp only [assembleChanges]
    split
    · exact ih _
    refine Reads.bind (reads_assembleChange_gated _) fun item => Reads.bind (ih _) fun items => Reads.pure fun _ hitems hitem => ?_
    intro i hi
    rcases List.mem_append.mp hi with hi | hi
    · exact hitem i (by simpa using hi)
    · exact hitems i hi

theorem reads_assembleCandidates_gated {nowNs : Int} {withinHours : Bool} {limit concurrent : Nat} :
    Reads (assembleCandidates Γ policy nowNs withinHours limit concurrent) fun _ items =>
      ∀ item ∈ items, GatedWith concurrent item.decision := by
  refine Reads.observing fun gathered => ?_
  refine Reads.after (Q := fun _ _ => True) (Reads.ofExcept fun _ _ _ => trivial) fun inputs => ?_
  refine Reads.observing fun recommendations => ?_
  refine Reads.after reads_readStore fun history => Reads.after reads_readCount fun runsToday => ?_
  refine Reads.bind (reads_assembleRecommendations_gated recommendations) fun out => ?_
  refine Reads.after reads_readStore fun changes => Reads.bind (reads_assembleChanges_gated changes _) fun changed => ?_
  refine Reads.pure fun _ hchanged hout item hitem => ?_
  rcases List.mem_append.mp hitem with h | h
  · exact hout item h
  · exact hchanged item h

theorem reads_regateDecision_gated {record : DecisionRecord} {nowNs : Int} {withinHours : Bool} {concurrent : Nat} :
    Reads (regateDecision Γ policy record nowNs withinHours concurrent) fun _ decision => GatedWith concurrent decision := by
  refine Reads.observing fun gathered => ?_
  refine Reads.after (Q := fun _ _ => True) (Reads.ofExcept fun _ _ _ => trivial) fun inputs => ?_
  refine Reads.after reads_factsOf fun facts => Reads.after reads_readStore fun last => ?_
  refine Reads.after reads_readCount fun runsToday => Reads.after reads_guardTelemetry fun telemetry => ?_
  exact Reads.after reads_readStore fun history => Reads.pure fun _ henact => concurrent_eq_zero_of_enact henact

end

/-- A call with a gate runs nothing, unless it is an enact path and was given a count of zero. -/
theorem EnactCall.Runs.eq_zero {call : EnactCall} {concurrent experiments : Nat} (h : call.Runs concurrent experiments)
    (hgates : call.gates = true) (hcount : call.enacts = true → concurrent ≠ 0) : experiments = 0 := by
  cases h with
  | nothing => rfl
  | @pass Γ policy nowNs withinHours execute limit _ s items hitems =>
    cases execute with
    | false => rfl
    | true =>
      simp only [if_true, List.countP_eq_zero]
      intro item hitem henact
      exact hcount rfl (reads_assembleCandidates_gated.value hitems item hitem (by simpa using henact))
  | @approval Γ policy record nowNs withinHours _ s decision hdecision =>
    by_cases henact : decision.verdict = .enact
    · exact absurd (reads_regateDecision_gated.value hdecision henact) (hcount rfl)
    · simp [henact]
  | experiment => cases hgates
  | campaign => cases hgates

/-! ## Where the calls stand -/

/-- What the ledger says while a call stands where it does. A call without the slot has nothing left to run. -/
def EnactTask.Stands (lock : EnactLock) (t : EnactTask) : Prop :=
  match t.point with
  | .arrived => True
  | .locked | .uncounted => lock.slot = true ∧ lock.inFlight = 0
  | .refused => t.call.gates = true
  | .gating true _ | .acting true _ | .running true _ => lock.slot = true ∧ lock.inFlight = 1
  | .gating false concurrent => t.call.gates = true ∧ (t.call.enacts = true → concurrent ≠ 0)
  | .acting false left => left = 0
  | .running false _ => False

/-- The free slot is counted as none. -/
def EnactLock.Settled (lock : EnactLock) : Prop := lock.slot = false → lock.inFlight = 0

/-- Two calls do not both hold the slot. -/
def EnactTask.Apart (t u : EnactTask) : Prop := ¬ (t.holdsSlot = true ∧ u.holdsSlot = true)

theorem EnactTask.Apart.symm (t u : EnactTask) (h : t.Apart u) : u.Apart t := fun hu => h hu.symm

/-- Where a call without the slot stands does not depend on the ledger. -/
theorem EnactTask.Stands.of_not_holds {lock lock' : EnactLock} {t : EnactTask} (h : t.Stands lock) (hslot : t.holdsSlot = false) :
    t.Stands lock' := by
  obtain ⟨call, point⟩ := t
  cases point with
  | arrived => trivial
  | locked => cases hslot
  | uncounted => cases hslot
  | refused => exact h
  | gating guard concurrent | acting guard left | running guard left =>
    cases guard with
    | true => cases hslot
    | false => exact h

/-- Whoever holds the slot stands where it is taken. -/
theorem EnactTask.Stands.slot {lock : EnactLock} {t : EnactTask} (h : t.Stands lock) (hslot : t.holdsSlot = true) :
    lock.slot = true := by
  obtain ⟨call, point⟩ := t
  cases point with
  | arrived => cases hslot
  | locked => exact h.1
  | uncounted => exact h.1
  | refused => cases hslot
  | gating guard concurrent | acting guard left | running guard left =>
    cases guard with
    | true => exact h.1
    | false => cases hslot

/-- A refused call finds the slot's holder counted. -/
def CountedWhenRead (lock : EnactLock) (l : EnactLabel) : Prop := l = .read true → lock.inFlight ≠ 0

/-- A step of a call that holds the slot, or takes it free, disturbs nobody. -/
theorem keeps_of_owner {lock lock' : EnactLock} {t : EnactTask} {ts : List EnactTask} (hlock : lock'.Settled)
    (hts : ∀ t' ∈ ts, t'.Stands lock') (hpair : ts.length ≤ 1)
    (hown : t.holdsSlot = true ∨ lock.slot = false) : Keeps EnactLock.Settled (fun s t => t.Stands s) EnactTask.Apart lock t lock' ts := by
  have hothers : ∀ u : EnactTask, u.Stands lock → t.Apart u → u.holdsSlot = false := by
    intro u hu hapart
    by_contra hholds
    have hholds : u.holdsSlot = true := by simpa using hholds
    rcases hown with hown | hfree
    · exact hapart ⟨hown, hholds⟩
    · exact absurd (hu.slot hholds) (by simp [hfree])
  refine ⟨hlock, hts, ?_, fun u hu hapart => hu.of_not_holds (hothers u hu hapart), fun u hu hapart t' _ h => ?_⟩
  · rcases ts with _ | ⟨t', _ | _⟩
    · exact .nil
    · exact List.pairwise_singleton _ _
    · simp at hpair
  · simp [hothers u hu hapart] at h

/-- A step of a call without the slot, which leaves the ledger and the slot alone, disturbs nobody. -/
theorem keeps_of_other {lock : EnactLock} {t : EnactTask} {ts : List EnactTask} (hlock : lock.Settled)
    (hts : ∀ t' ∈ ts, t'.Stands lock) (hpair : ts.length ≤ 1) (hslot : ∀ t' ∈ ts, t'.holdsSlot = true → t.holdsSlot = true) :
    Keeps EnactLock.Settled (fun s t => t.Stands s) EnactTask.Apart lock t lock ts := by
  refine ⟨hlock, hts, ?_, fun u hu _ => hu, fun u _ hapart t' ht' h => hapart ⟨hslot t' ht' h.1, h.2⟩⟩
  rcases ts with _ | ⟨t', _ | _⟩
  · exact .nil
  · exact List.pairwise_singleton _ _
  · simp at hpair

/-- Step lemma: a step keeps the calls where they stand, if a refused call that reads the count does not find it zero. -/
theorem EnactStep.keeps {lock lock' : EnactLock} {t : EnactTask} {l : EnactLabel} {ts : List EnactTask}
    (hcounted : CountedWhenRead lock l) (hlock : lock.Settled) (ht : t.Stands lock) (h : EnactStep lock t l lock' ts) :
    Keeps EnactLock.Settled (fun s t => t.Stands s) EnactTask.Apart lock t lock' ts := by
  cases h with
  | lock henacts hfree =>
    refine keeps_of_owner (fun hslot => by cases hslot) ?_ (by simp) (Or.inr hfree)
    rintro t' (_ | ⟨_, ⟨⟩⟩)
    exact ⟨rfl, hlock hfree⟩
  | count =>
    obtain ⟨hslot, hzero⟩ := ht
    refine keeps_of_owner (fun h => absurd h (by simp [hslot])) ?_ (by simp) (Or.inl rfl)
    rintro t' (_ | ⟨_, ⟨⟩⟩)
    exact ⟨lock.count_slot.trans hslot, EnactLock.count_inFlight hzero⟩
  | @refuse call henacts htaken =>
    cases hgates : call.gates with
    | false => exact keeps_of_other hlock (by simp) (by simp) (by simp)
    | true =>
      refine keeps_of_other hlock ?_ (by simp) (by simp [EnactTask.holdsSlot])
      rintro t' (_ | ⟨_, ⟨⟩⟩)
      exact hgates
  | @pass call henacts =>
    refine keeps_of_other hlock ?_ (by simp) (by simp [EnactTask.holdsSlot])
    rintro t' (_ | ⟨_, ⟨⟩⟩)
    cases call with
    | autopilotRun => rfl
    | autopilotRespond => rfl
    | runExperiment => cases henacts
    | gamedayRun => cases henacts
  | @read call =>
    refine keeps_of_other hlock ?_ (by simp) (by simp [EnactTask.holdsSlot])
    rintro t' (_ | ⟨_, ⟨⟩⟩)
    exact ⟨ht, fun henacts hzero => hcounted (by rw [henacts]) (UInt32.toNat_inj.mp hzero)⟩
  | @gate call guard concurrent experiments hruns =>
    refine keeps_of_other hlock ?_ (by simp) (by simp [EnactTask.holdsSlot])
    rintro t' (_ | ⟨_, ⟨⟩⟩)
    cases guard with
    | true => exact ht
    | false => exact hruns.eq_zero ht.1 ht.2
  | @start call guard left =>
    refine keeps_of_other hlock ?_ (by simp) (by simp [EnactTask.holdsSlot])
    rintro t' (_ | ⟨_, ⟨⟩⟩)
    cases guard with
    | true => exact ht
    | false => exact absurd ht (Nat.succ_ne_zero left)
  | @finish call guard left =>
    refine keeps_of_other hlock ?_ (by simp) (by simp [EnactTask.holdsSlot])
    rintro t' (_ | ⟨_, ⟨⟩⟩)
    cases guard with
    | true => exact ht
    | false => exact ht.elim
  | uncount =>
    obtain ⟨hslot, hone⟩ := ht
    refine keeps_of_owner (fun h => absurd h (by simp [hslot])) ?_ (by simp) (Or.inl rfl)
    rintro t' (_ | ⟨_, ⟨⟩⟩)
    exact ⟨lock.uncount_slot.trans hslot, EnactLock.uncount_inFlight hone⟩
  | unlock => exact keeps_of_owner (fun _ => ht.2) (by simp) (by simp) (Or.inl rfl)
  | leave => exact keeps_of_other hlock (by simp) (by simp) (by simp)

/-! ## The theorem -/

/-- At most one call is running an experiment, and every call that runs one holds the slot. -/
structure OneEnactment (c : Config EnactLock EnactTask) : Prop where
  single : c.tasks.countP EnactTask.isRunning ≤ 1
  holds : ∀ t ∈ c.tasks, t.isRunning = true → t.holdsSlot = true ∧ c.shared.slot = true

/-- A call that stands where it may and runs holds the slot. -/
theorem EnactTask.Stands.holdsSlot {lock : EnactLock} {t : EnactTask} (h : t.Stands lock) (hrunning : t.isRunning = true) :
    t.holdsSlot = true := by
  obtain ⟨call, point⟩ := t
  cases point with
  | running guard left =>
    cases guard with
    | true => rfl
    | false => exact h.elim
  | _ => cases hrunning

/-- Of items that exclude one another, at most one is there. -/
theorem countP_le_one {α : Type} {p : α → Bool} {l : List α} (h : l.Pairwise fun a b => ¬ (p a = true ∧ p b = true)) :
    l.countP p ≤ 1 := by
  induction l with
  | nil => simp
  | cons a l ih =>
    obtain ⟨hfirst, hrest⟩ := List.pairwise_cons.mp h
    by_cases ha : p a = true
    · have hnone : l.countP p = 0 := List.countP_eq_zero.mpr fun b hb hpb => hfirst b hb ⟨ha, hpb⟩
      simp [ha, hnone]
    · simpa [ha] using ih hrest

/-- Calls that stand where they may enact one at a time. -/
theorem OneEnactment.of_holds {c : Config EnactLock EnactTask}
    (h : Holds EnactLock.Settled (fun s t => t.Stands s) EnactTask.Apart c) : OneEnactment c where
  single := countP_le_one (h.pair.imp_of_mem fun ha hb hapart hrunning =>
    hapart ⟨(h.task _ ha).holdsSlot hrunning.1, (h.task _ hb).holdsSlot hrunning.2⟩)
  holds t ht hrunning := by
    have hslot := (h.task t ht).holdsSlot hrunning
    exact ⟨hslot, (h.task t ht).slot hslot⟩

/-- In every interleaving of any calls in which no refused call finds the count at zero, one call at most runs an experiment at any
moment, and it holds the slot. -/
theorem enactment_exclusive (calls : List EnactCall) (trace : List (EnactLock × EnactLabel)) (c : Config EnactLock EnactTask)
    (hrun : Run enactSystem (arriving calls) trace c) (hcounted : ∀ e ∈ trace, CountedWhenRead e.1 e.2) : OneEnactment c := by
  have hstart : Holds EnactLock.Settled (fun s t => t.Stands s) EnactTask.Apart (arriving calls) := by
    refine ⟨fun _ => rfl, ?_, ?_⟩
    · simp [arriving, EnactTask.Stands]
    · simp [arriving, List.pairwise_map, EnactTask.Apart, EnactTask.holdsSlot, List.pairwise_of_forall]
  have hstep : ∀ lock t l lock' ts, CountedWhenRead lock l → lock.Settled → t.Stands lock → enactSystem.step lock t l lock' ts →
      Keeps EnactLock.Settled (fun s t => t.Stands s) EnactTask.Apart lock t lock' ts :=
    fun _ _ _ _ _ hcounted hlock ht h => EnactStep.keeps hcounted hlock ht h
  exact .of_holds (hstart.run EnactTask.Apart.symm hstep (fun _ _ _ _ _ hreset => hreset.elim) hrun hcounted)

/-- The first pass of an autopilot on an empty store runs one experiment on a count of zero, and none on a count of one. -/
theorem EnactCall.runs_firstPass (concurrent : Nat) (h : concurrent < 2) :
    EnactCall.Runs (.autopilotRun true) concurrent (1 - concurrent) := by
  obtain ⟨items, hitems, hcount⟩ : ∃ items,
      (assembleCandidates (recommendingPilot ["svc:db"]) plainPolicy 0 true 3 concurrent emptyPilotStore).1 = .ok items ∧
        items.countP (·.decision.verdict = .enact) = 1 - concurrent := by
    interval_cases concurrent
    · exact ⟨_, rfl, by decide⟩
    · exact ⟨_, rfl, by decide⟩
  rw [← hcount]
  exact EnactCall.Runs.pass hitems

/-- An experiment and an autopilot pass. -/
def twoCalls : List EnactCall := [.runExperiment, .autopilotRun true]

/-- A pass that is refused while the experiment is counted, and reads a count of one. -/
theorem enactment_exclusive_vetoed : ∃ trace c, Run enactSystem (arriving twoCalls) trace c ∧
    c.tasks = [⟨.runExperiment, .running true 0⟩, ⟨.autopilotRun true, .acting false 0⟩] ∧ OneEnactment c := by
  have hstart := Reach.refl (S := enactSystem) (P := CountedWhenRead) (arriving twoCalls)
  have hlocked := hstart.task 0 rfl (.lock rfl rfl : EnactStep _ _ _ _ _) nofun
  have hcounted := hlocked.task 0 rfl (.count : EnactStep _ _ _ _ _) nofun
  have hrefused := hcounted.task 1 rfl (.refuse rfl rfl : EnactStep _ _ _ _ _) nofun
  have hread := hrefused.task 1 rfl (.read : EnactStep _ _ _ _ _) fun _ => by decide
  have hvetoed := hread.task 1 rfl (.gate (EnactCall.runs_firstPass 1 (by decide)) : EnactStep _ _ _ _ _) nofun
  have hgated := hvetoed.task 0 rfl (.gate (.experiment 0) : EnactStep _ _ _ _ _) nofun
  obtain ⟨trace, hrun, hcounted⟩ := hgated.task 0 rfl (.start : EnactStep _ _ _ _ _) nofun
  exact ⟨trace, _, hrun, rfl, enactment_exclusive _ trace _ hrun hcounted⟩

/-- The pass is refused when the experiment has taken the mutex but is not counted: it reads a count of zero, and enacts. -/
theorem enactment_exclusive_false : ¬ ∀ (calls : List EnactCall) (trace : List (EnactLock × EnactLabel))
    (c : Config EnactLock EnactTask), Run enactSystem (arriving calls) trace c → OneEnactment c := by
  intro h
  have hlocked := (Run.nil (S := enactSystem) (arriving twoCalls)).task 0 rfl (.lock rfl rfl : EnactStep _ _ _ _ _)
  have hrefused := hlocked.task 1 rfl (.refuse rfl rfl : EnactStep _ _ _ _ _)
  have hread := hrefused.task 1 rfl (.read : EnactStep _ _ _ _ _)
  have henacted := hread.task 1 rfl (.gate (EnactCall.runs_firstPass 0 (by decide)) : EnactStep _ _ _ _ _)
  have hstarted := henacted.task 1 rfl (.start : EnactStep _ _ _ _ _)
  have hcounted := hstarted.task 0 rfl (.count : EnactStep _ _ _ _ _)
  have hgated := hcounted.task 0 rfl (.gate (.experiment 0) : EnactStep _ _ _ _ _)
  have hboth := hgated.task 0 rfl (.start : EnactStep _ _ _ _ _)
  exact absurd (h _ _ _ hboth).single (by decide)

end Tumult
