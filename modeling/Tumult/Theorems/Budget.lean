import Tumult.Autopilot.Contracts

/-!
# The daily budget and the cooldown of the autopilot

The gate admits a run on the decisions it reads: their count in its 24 hours is below the budget, and the latest on the service is
past the cooldown. Runs start later than they are admitted, and the ones a human approved never become enact decisions. Where each
start is counted by the reading that admitted it (`Counted`), budget and cooldown hold over the whole history.
-/

namespace Tumult

open Db (Reads Meets Stable)

/-- The length of a day, in the clock's nanoseconds. -/
def nanosPerDay : Int := 24 * nanosPerHour

section

variable (policy : AutopilotPolicy)

/-- At every moment, no more runs in the trailing 24 hours than the budget of a day. -/
def WithinBudget (runs : List PlaybookRun) : Prop :=
  ∀ t : Int, (runs.countP fun r => t - nanosPerDay ≤ r.atNs && r.atNs ≤ t) ≤ policy.maxRunsPerDay

/-- Any two runs on one service are the cooldown apart. -/
def Spaced (runs : List PlaybookRun) : Prop :=
  runs.Pairwise fun a b => a.serviceId = b.serviceId → policy.cooldownHours * nanosPerHour ≤ b.atNs - a.atNs

/-- The reading of the gate that admitted a run counts the runs before it: the store it read has an enact decision in the gate's 24
hours for each run of the 24 hours before the start, and for an earlier run on the service its latest enact decision there is, at
the reading, no longer ago than that run is at the start, and the floats of its hours are not rounded up to the cooldown. -/
structure Counted (earlier : List PlaybookRun) (run : PlaybookRun) : Prop where
  day : (earlier.countP fun r => run.atNs - nanosPerDay ≤ r.atNs) ≤
    autopilotDecisionsSince run.gate.decisions (run.gate.nowNs - nanosPerDay)
  service : ∀ r ∈ earlier, r.serviceId = run.serviceId →
    ∃ last, autopilotLastEnactedOn run.gate.decisions run.serviceId = some last ∧
      run.gate.nowNs - last ≤ run.atNs - r.atNs ∧
      ((policy.cooldownHours : Rat) ≤ elapsedHours run.gate.nowNs last →
        policy.cooldownHours * nanosPerHour ≤ run.gate.nowNs - last)

/-- Every start was counted. -/
def AllCounted (runs : List PlaybookRun) : Prop := ∀ earlier run, earlier ++ [run] <+: runs → Counted policy earlier run

end

variable {Γ : PilotCtx} {policy : AutopilotPolicy}

/-! ## From the readings to the runs -/

/-- Every run was admitted on the decisions its gate read. -/
def AllAdmitted (policy : AutopilotPolicy) (st : PilotStore) : Prop :=
  ∀ r ∈ st.runs, Admitted policy r.gate.nowNs r.gate.decisions r.serviceId

theorem AllCounted.init {runs : List PlaybookRun} {run : PlaybookRun} (h : AllCounted policy (runs ++ [run])) :
    AllCounted policy runs :=
  fun earlier r hp => h earlier r (hp.trans (List.prefix_append _ _))

/-- Runs that were admitted and counted are within the budget. -/
theorem withinBudget_of_counted {runs : List PlaybookRun}
    (hadmitted : ∀ r ∈ runs, Admitted policy r.gate.nowNs r.gate.decisions r.serviceId) (hcounted : AllCounted policy runs) :
    WithinBudget policy runs := by
  induction runs using List.reverseRecOn with
  | nil => exact fun t => Nat.zero_le _
  | append_singleton runs run ih =>
    have hinit := ih (fun r hr => hadmitted r (List.mem_append_left _ hr)) hcounted.init
    intro t
    rw [List.countP_append, List.countP_singleton]
    split
    · rename_i hrun
      have hrun : t - nanosPerDay ≤ run.atNs ∧ run.atNs ≤ t := by simpa using hrun
      have hday := (hcounted runs run (List.prefix_refl _)).day
      have hbudget := (hadmitted run (List.mem_append_right _ (List.mem_singleton.mpr rfl))).budget
      have hwindow : (runs.countP fun r => t - nanosPerDay ≤ r.atNs && r.atNs ≤ t) ≤
          runs.countP fun r => run.atNs - nanosPerDay ≤ r.atNs := by
        refine List.countP_mono_left fun r _ hr => ?_
        simp only [Bool.and_eq_true, decide_eq_true_eq] at hr ⊢
        omega
      change autopilotDecisionsSince run.gate.decisions (run.gate.nowNs - nanosPerDay) < _ at hbudget
      omega
    · exact hinit t

/-- Runs that were admitted and counted are spaced. -/
theorem spaced_of_counted {runs : List PlaybookRun}
    (hadmitted : ∀ r ∈ runs, Admitted policy r.gate.nowNs r.gate.decisions r.serviceId) (hcounted : AllCounted policy runs) :
    Spaced policy runs := by
  induction runs using List.reverseRecOn with
  | nil => exact List.Pairwise.nil
  | append_singleton runs run ih =>
    have hinit := ih (fun r hr => hadmitted r (List.mem_append_left _ hr)) hcounted.init
    refine List.pairwise_append.mpr ⟨hinit, List.pairwise_singleton _ _, fun r hr b hb hservice => ?_⟩
    obtain rfl := List.mem_singleton.mp hb
    obtain ⟨last, hlast, hlag, hexact⟩ := (hcounted runs b (List.prefix_refl _)).service r hr hservice
    have hcooldown := (hadmitted b (List.mem_append_right _ (List.mem_singleton.mpr rfl))).cooldown last hlast
    exact (hexact hcooldown).trans hlag

/-! ## Every run is admitted -/

/-- The one policy of a history. -/
def OnePolicy (Γ : PilotCtx) (policy : AutopilotPolicy) : Prop :=
  ∀ tick path loaded, Γ.loadPolicy tick path = .ok loaded → loaded.policy = policy

/-- A run that was admitted is noted. -/
theorem meets_runPlaybook_admitted {serviceId id playbook : String} {gate : GateReading}
    (hgate : Admitted policy gate.nowNs gate.decisions serviceId) :
    Meets (fun s => AllAdmitted policy s.store) (runPlaybook Γ serviceId gate id playbook) (fun _ s => AllAdmitted policy s.store)
      fun s => AllAdmitted policy s.store := by
  refine runPlaybook_meets (K := fun _ s => AllAdmitted policy s.store) (fun _ => Stable.ofStore _) (Stable.ofStore _)
    (fun _ h => h) (fun _ _ h => h) (fun t s h r hr => ?_) (fun _ _ _ _ h => h) (fun _ _ h => h) fun _ h => h
  rcases List.mem_append.mp hr with hr | hr
  · exact h r hr
  · obtain rfl := List.mem_singleton.mp hr
    exact hgate

/-- Appending an event starts nothing. -/
theorem meets_append_admitted {id : String} {t : Int} {kind : EventKind} :
    Meets (fun s => AllAdmitted policy s.store) (appendAutopilotEvent Γ id t kind) (fun _ s => AllAdmitted policy s.store)
      fun s => AllAdmitted policy s.store :=
  meets_append (Stable.ofStore _) (fun _ h => h) fun _ h => h

theorem meets_recordRegateOutcome_admitted {id : String} {kind : EventKind} :
    Meets (fun s => AllAdmitted policy s.store) (recordRegateOutcome Γ id kind) (fun _ s => AllAdmitted policy s.store)
      fun s => AllAdmitted policy s.store :=
  Meets.bind (Q := fun _ s => AllAdmitted policy s.store) (Meets.now fun _ h => h) fun _ => meets_append_admitted

/-- What follows an approval starts admitted runs only. -/
theorem meets_enactApproved_admitted {record : DecisionRecord} {loaded : LoadedPolicy} {concurrentExperiments : Nat}
    (hpolicy : loaded.policy = policy) :
    Meets (fun s => AllAdmitted policy s.store) (enactApproved Γ record loaded concurrentExperiments)
      (fun _ s => AllAdmitted policy s.store) fun s => AllAdmitted policy s.store := by
  subst hpolicy
  unfold enactApproved
  split
  · exact Meets.bind meets_recordRegateOutcome_admitted fun _ => Meets.throw fun _ h => h
  refine Meets.bind (Q := fun _ s => AllAdmitted loaded.policy s.store) (Meets.now fun _ h => h) fun nowNs => ?_
  refine Meets.bind (Q := fun _ s => AllAdmitted loaded.policy s.store) (Meets.observe fun _ h => h) fun withinHours => ?_
  refine Meets.bind (Q := fun decisions s => decisions = s.store.decisions.rows ∧ AllAdmitted loaded.policy s.store)
    (Meets.peek fun _ h => ⟨rfl, h⟩) fun decisions => ?_
  refine Meets.bind ((reads_regateDecision.meets (Stable.ofStore fun st =>
    decisions = st.decisions.rows ∧ AllAdmitted loaded.policy st)).exit fun _ h => h.2) fun decision => ?_
  split
  · exact Meets.bind (meets_recordRegateOutcome_admitted.weaken (fun _ h => h.2.2) fun _ _ h => h) fun _ => Meets.throw fun _ h => h
  rename_i hverdict
  have henact : decision.verdict = .enact := not_not.mp hverdict
  refine Meets.given (φ := Admitted loaded.policy nowNs decisions record.serviceId)
    (P := fun s => AllAdmitted loaded.policy s.store) (fun s h => ⟨h.2.1 ▸ h.1 henact, h.2.2⟩) fun hadmitted => ?_
  refine Meets.bind meets_recordRegateOutcome_admitted fun _ => ?_
  split
  · exact Meets.throw fun _ h => h
  · exact Meets.bind (meets_runPlaybook_admitted hadmitted) fun _ => Meets.pure fun _ h => h

/-- The policy a response is gated again with is the one of the history. -/
theorem reads_responseChecks_policy (hpolicy : OnePolicy Γ policy) {id : String} {approve : Bool} {policyPath : Option String} :
    Reads (responseChecks Γ id approve policyPath) fun _ checked => ∀ loaded, checked.2 = some loaded → loaded.policy = policy := by
  unfold responseChecks
  refine Reads.after reads_openStore fun _ => Reads.after reads_readStore fun status => ?_
  split
  · exact Reads.throw
  split
  · exact Reads.throw
  split
  · exact Reads.throw
  split
  · split
    · exact Reads.throw
    · refine Reads.bind reads_loadPolicy fun loaded => Reads.pure ?_
      rintro _ ⟨tick, hloaded⟩ loaded' ⟨⟩
      exact hpolicy tick _ _ hloaded
  · exact Reads.pure (by simp)

theorem meets_autopilotRespond_admitted (hpolicy : OnePolicy Γ policy) {id : String} {approve : Bool} {policyPath : Option String}
    {concurrentExperiments : Nat} :
    Meets (fun s => AllAdmitted policy s.store) (autopilotRespond Γ id approve policyPath concurrentExperiments)
      (fun _ s => AllAdmitted policy s.store) fun s => AllAdmitted policy s.store := by
  unfold autopilotRespond
  refine Meets.bind ((reads_responseChecks_policy hpolicy).meets (Stable.ofStore fun st => AllAdmitted policy st)) ?_
  rintro ⟨record, loaded⟩
  refine Meets.given (φ := ∀ l, loaded = some l → l.policy = policy) (P := fun s => AllAdmitted policy s.store)
    (fun _ h => h) fun hloaded => ?_
  refine Meets.bind (Q := fun _ s => AllAdmitted policy s.store) (Meets.now fun _ h => h) fun respondedAt => ?_
  refine Meets.bind meets_append_admitted fun _ => ?_
  cases loaded with
  | none => exact Meets.pure fun _ h => h
  | some loaded => exact meets_enactApproved_admitted (hloaded loaded rfl)

/-- Persisting a decision starts nothing. -/
theorem meets_persistDecision_admitted {loaded : LoadedPolicy} {item : Assembled} {nowNs : Int} :
    Meets (fun s => AllAdmitted policy s.store) (persistDecision Γ loaded item nowNs) (fun _ s => AllAdmitted policy s.store)
      fun s => AllAdmitted policy s.store := by
  refine Meets.bind (Q := fun _ s => AllAdmitted policy s.store) ?_ fun _ =>
    (reads_readStore.meets (Stable.ofStore fun st => AllAdmitted policy st)).weaken (fun _ h => h) fun _ _ h => h.2
  refine Meets.bind (Q := fun _ s => AllAdmitted policy s.store) (Meets.statement (fun _ h => h) fun _ h => h) fun inserted => ?_
  split
  · exact Meets.pure fun _ h => h
  · exact Meets.throw fun _ h => h

/-- A pass whose enacted candidates were admitted on its reading starts admitted runs only. -/
theorem meets_settleDecisions_admitted {loaded : LoadedPolicy} {execute : Bool} {gate : GateReading} (items : List Assembled)
    (hitems : ∀ item ∈ items, item.decision.verdict = .enact →
      Admitted policy gate.nowNs gate.decisions item.candidate.serviceId) :
    Meets (fun s => AllAdmitted policy s.store) (settleDecisions Γ loaded execute gate items)
      (fun _ s => AllAdmitted policy s.store) fun s => AllAdmitted policy s.store := by
  induction items with
  | nil => exact Meets.pure fun _ h => h
  | cons item rest ih =>
    obtain ⟨hitem, hrest⟩ := List.forall_mem_cons.mp hitems
    refine Meets.bind meets_persistDecision_admitted fun _ => ?_
    refine Meets.bind (Q := fun _ s => AllAdmitted policy s.store) ?_ fun runStatus => ?_
    · unfold enactDecision
      split
      case isFalse => exact Meets.pure fun _ h => h
      rename_i henact
      split
      · exact Meets.throw fun _ h => h
      · exact Meets.bind (meets_runPlaybook_admitted (hitem henact.1)) fun _ => Meets.pure fun _ h => h
    · exact Meets.bind (ih hrest) fun settled => Meets.pure fun _ h => h

theorem meets_autopilotOnce_admitted (hpolicy : OnePolicy Γ policy) {policyPath : String} {execute : Bool} {limit : Option Nat}
    {concurrentExperiments : Nat} :
    Meets (fun s => AllAdmitted policy s.store) (autopilotOnce Γ policyPath execute limit concurrentExperiments)
      (fun _ s => AllAdmitted policy s.store) fun s => AllAdmitted policy s.store := by
  refine Meets.bind (reads_loadPolicy.meets (Stable.ofStore fun st => AllAdmitted policy st)) fun loaded => ?_
  refine Meets.given (φ := loaded.policy = policy) (P := fun s => AllAdmitted policy s.store)
    (fun _ h => ⟨h.1.elim fun tick hloaded => hpolicy tick _ _ hloaded, h.2⟩) ?_
  rintro rfl
  split
  case isFalse => exact Meets.throw fun _ h => h
  refine Meets.bind (reads_openStore.meets (Stable.ofStore fun st => AllAdmitted loaded.policy st)) fun _ => ?_
  refine Meets.bind (Q := fun _ s => AllAdmitted loaded.policy s.store) (Meets.now fun _ h => h.2) fun nowNs => ?_
  refine Meets.bind (Q := fun _ s => AllAdmitted loaded.policy s.store) (Meets.observe fun _ h => h) fun withinHours => ?_
  refine Meets.bind (reads_assembleCandidates.meets (Stable.ofStore fun st => AllAdmitted loaded.policy st)) fun assembled => ?_
  refine Meets.bind (Q := fun decisions s => (∀ item ∈ assembled, item.decision.verdict = .enact →
      Admitted loaded.policy nowNs decisions item.candidate.serviceId) ∧ AllAdmitted loaded.policy s.store)
    (Meets.peek fun _ h => h) fun decisions => ?_
  exact Meets.given (fun _ h => h) fun hitems => meets_settleDecisions_admitted assembled hitems

/-- A call starts admitted runs only. -/
theorem AllAdmitted.perform (hpolicy : OnePolicy Γ policy) {s : Db.Session PilotStore} (h : AllAdmitted policy s.store)
    (call : PilotCall) : AllAdmitted policy (call.perform Γ s).store := by
  cases call with
  | once policyPath execute limit concurrentExperiments =>
    exact Meets.leaves (I := fun s => AllAdmitted policy s.store) (meets_autopilotOnce_admitted hpolicy) h (fun _ _ h => h) fun _ h => h
  | respond decisionId approve policyPath concurrentExperiments =>
    exact Meets.leaves (I := fun s => AllAdmitted policy s.store) (meets_autopilotRespond_admitted hpolicy) h (fun _ _ h => h)
      fun _ h => h

/-- Every run of a history is admitted on the decisions its gate read. -/
theorem AllAdmitted.performAll (hpolicy : OnePolicy Γ policy) (calls : List PilotCall) {s : Db.Session PilotStore}
    (h : AllAdmitted policy s.store) : AllAdmitted policy (performAll Γ calls s).store := by
  induction calls generalizing s with
  | nil => exact h
  | cons call calls ih => exact ih (h.perform hpolicy call)

/-! ## The theorem -/

end Tumult
