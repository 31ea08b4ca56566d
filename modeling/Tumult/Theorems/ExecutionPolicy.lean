import Tumult.Ingest.ExecutionPolicy
import Tumult.Theorems.GateLaw

/-!
# What a binding authorizes

A fingerprint stands for one execution, up to the order of the fields of its JSON, as long as the digest does not collide; so a binding
authorizes the execution it was made for, in its environment and for its target, and nothing else.
-/

namespace Tumult

open JsonTree

/-! ## Fingerprints -/

namespace PolicyCtx

variable {P : PolicyCtx}

/-- The same execution: experiments that no path of their JSON tells apart, and the same variables. -/
def Same (P : PolicyCtx) (p q : Resolved) : Prop :=
  Agree (P.experimentJson p.1) (P.experimentJson q.1) ∧ p.2.vars.Perm q.2.vars

theorem distinct_vars (injected : Injected) : Distinct (.obj (injected.vars.map fun var => (var.1, Json.str var.2))) := by
  refine .obj _ ?_ fun f hf => ?_
  · rw [List.map_map]
    exact injected.distinct
  · obtain ⟨var, -, rfl⟩ := List.mem_map.mp hf
    exact .str var.2

theorem distinct_fingerprinted (p : Resolved) : Distinct (P.fingerprinted p) := by
  refine .obj _ (by simp) fun f hf => ?_
  rcases List.mem_cons.mp hf with rfl | hf
  · exact P.distinct p.1
  · obtain rfl := List.mem_singleton.mp hf
    exact distinct_vars p.2

/-- A variable of the JSON of an environment. -/
theorem child_vars (injected : Injected) (k : String) (u : Json) :
    (Json.obj (injected.vars.map fun var => (var.1, Json.str var.2))).child (.name k) = some u ↔
      ∃ value, u = .str value ∧ (k, value) ∈ injected.vars := by
  have hkeys : ((injected.vars.map fun var => (var.1, Json.str var.2)).map (·.1)).Nodup := by
    rw [List.map_map]
    exact injected.distinct
  rw [Json.child, field_eq_some_iff hkeys]
  constructor
  · rintro ⟨f, hf, rfl, rfl⟩
    obtain ⟨var, hvar, rfl⟩ := List.mem_map.mp hf
    exact ⟨var.2, rfl, hvar⟩
  · rintro ⟨value, rfl, hvar⟩
    exact ⟨_, List.mem_map_of_mem hvar, rfl, rfl⟩

/-- No path tells the JSON of two environments apart exactly when they have the same variables. -/
theorem agree_vars_iff (injected injected' : Injected) :
    Agree (.obj (injected.vars.map fun var => (var.1, Json.str var.2))) (.obj (injected'.vars.map fun var => (var.1, Json.str var.2))) ↔
      injected.vars.Perm injected'.vars := by
  have hnodup (injected : Injected) : injected.vars.Nodup := List.Nodup.of_map _ injected.distinct
  have hmem {injected injected' : Injected}
      (h : Agree (.obj (injected.vars.map fun var => (var.1, Json.str var.2)))
        (.obj (injected'.vars.map fun var => (var.1, Json.str var.2)))) {k value : String} (hvar : (k, value) ∈ injected.vars) :
      (k, value) ∈ injected'.vars := by
    obtain ⟨u, hu, hagree⟩ := h.child ((child_vars injected k _).mpr ⟨value, rfl, hvar⟩)
    obtain ⟨value', rfl, hvar'⟩ := (child_vars injected' k u).mp hu
    cases hagree.top
    exact hvar'
  rw [List.perm_ext_iff_of_nodup (hnodup injected) (hnodup injected')]
  constructor
  · rintro h ⟨k, value⟩
    exact ⟨hmem h, hmem h.symm⟩
  · intro h
    refine agree_of_child rfl fun k => ?_
    have hchild : (Json.obj (injected.vars.map fun var => (var.1, Json.str var.2))).child k =
        (Json.obj (injected'.vars.map fun var => (var.1, Json.str var.2))).child k := by
      cases k with
      | index i => rfl
      | name k =>
        refine Option.ext fun u => ?_
        simp only [child_vars, h]
    rw [hchild]
    cases (Json.obj (injected'.vars.map fun var => (var.1, Json.str var.2))).child k with
    | none => exact .none
    | some u => exact .some (.refl u)

theorem child_fingerprinted (p : Resolved) (k : String) :
    (P.fingerprinted p).child (.name k) = if k = "experiment" then some (P.experimentJson p.1)
      else if k = "injected" then some (.obj (p.2.vars.map fun var => (var.1, .str var.2))) else none := by
  unfold fingerprinted Json.child
  by_cases hexperiment : k = "experiment"
  · subst hexperiment
    simp
  · by_cases hinjected : k = "injected"
    · subst hinjected
      simp
    · simp [hexperiment, hinjected, Ne.symm hexperiment, Ne.symm hinjected]

/-- What is fingerprinted of two executions agrees exactly when they are the same. -/
theorem agree_fingerprinted_iff (p q : Resolved) : Agree (P.fingerprinted p) (P.fingerprinted q) ↔ P.Same p q := by
  constructor
  · intro h
    have hpart (k : String) {u u' : Json} (hu : (P.fingerprinted p).child (.name k) = some u)
        (hu' : (P.fingerprinted q).child (.name k) = some u') : Agree u u' := by
      obtain ⟨u'', hu'', hagree⟩ := h.child hu
      rw [hu'] at hu''
      exact Option.some.inj hu'' ▸ hagree
    refine ⟨hpart "experiment" (by rw [child_fingerprinted, if_pos rfl]) (by rw [child_fingerprinted, if_pos rfl]), ?_⟩
    refine (agree_vars_iff p.2 q.2).mp (hpart "injected" ?_ ?_)
    · rw [child_fingerprinted, if_neg (by decide), if_pos rfl]
    · rw [child_fingerprinted, if_neg (by decide), if_pos rfl]
  · rintro ⟨hexperiment, hvars⟩
    refine agree_of_child rfl fun k => ?_
    cases k with
    | index i => exact .none
    | name k =>
      rw [child_fingerprinted, child_fingerprinted]
      split
      · exact .some hexperiment
      · split
        · exact .some ((agree_vars_iff p.2 q.2).mpr hvars)
        · exact .none

/-- Two executions have the same fingerprinted text exactly when they are the same. -/
theorem fingerprinted_text_iff (p q : Resolved) :
    (P.fingerprinted p).canonical.render = (P.fingerprinted q).canonical.render ↔ P.Same p q := by
  rw [render_canonical_eq_iff (distinct_fingerprinted p) (distinct_fingerprinted q), agree_fingerprinted_iff]

/-- The digest tells the texts of two executions apart. -/
def TellsApart (P : PolicyCtx) (p q : Resolved) : Prop :=
  P.executionHash p = P.executionHash q → (P.fingerprinted p).canonical.render = (P.fingerprinted q).canonical.render

theorem executionHash_eq_iff {p q : Resolved} (h : P.TellsApart p q) : P.executionHash p = P.executionHash q ↔ P.Same p q := by
  rw [← fingerprinted_text_iff]
  exact ⟨h, fun htext => by rw [executionHash, executionHash, htext]⟩

/-! ## Bindings -/

/-- An execution that has been approved for an environment and a target. -/
structure Approved where
  plan : Resolved
  env : String
  target : Option String

/-- The binding that is configured for it. -/
def bindingFor (P : PolicyCtx) (a : Approved) : Binding := ⟨P.executionHash a.plan, a.env, a.target⟩

section

variable {approved : List Approved} {p : Resolved}

/-- Some binding has the digest of an execution exactly when it has been approved for something. -/
theorem any_sha256_iff (hdigest : ∀ a ∈ approved, P.TellsApart a.plan p) :
    ((approved.map P.bindingFor).any fun b => b.sha256 = P.executionHash p) = true ↔ ∃ a ∈ approved, P.Same a.plan p := by
  rw [List.any_map, List.any_eq_true]
  refine exists_congr fun a => and_congr_right fun ha => ?_
  rw [← executionHash_eq_iff (hdigest a ha)]
  exact decide_eq_true_iff

/-- Some binding allows an execution exactly when it has been approved for its environment and its target. -/
theorem any_binding_iff (hdigest : ∀ a ∈ approved, P.TellsApart a.plan p) (env : String) (target : Option String) :
    ((approved.map P.bindingFor).any fun b => b.sha256 = P.executionHash p && b.env = env && b.target = target) = true ↔
      ∃ a ∈ approved, P.Same a.plan p ∧ a.env = env ∧ a.target = target := by
  rw [List.any_map, List.any_eq_true]
  refine exists_congr fun a => and_congr_right fun ha => ?_
  rw [← executionHash_eq_iff (hdigest a ha)]
  simp only [bindingFor, Function.comp_apply, Bool.and_eq_true, and_assoc]
  exact and_congr decide_eq_true_iff (and_congr decide_eq_true_iff decide_eq_true_iff)

end

/-- A policy whose digest is its text, for experiments whose JSON is their title. -/
def titlePolicy : PolicyCtx where
  sha256Hex text := text
  lowercase text := text
  experimentJson experiment := .obj [("title", .str experiment.title)]
  distinct experiment := .obj _ (List.nodup_singleton _) fun f hf => by
    obtain rfl := List.mem_singleton.mp hf
    exact .str experiment.title

theorem titlePolicy_tellsApart (p q : Resolved) : titlePolicy.TellsApart p q := fun h => String.ofList_injective h

/-- A failover with its undoing. -/
def failoverPlan (vars : List (String × String)) (h : (vars.map (·.1)).Nodup) : Resolved :=
  ({ title := "failover"
     method := [{ name := "stop", activityType := .action, provider := .native "tumult-db" "stop" [] }]
     rollbacks := [{ name := "start", activityType := .action, provider := .native "tumult-db" "start" [] }] }, ⟨vars, h⟩)

/-- What the loop over the actions gathers: their kinds, each once, whether one of them is destructive, and the first fault. -/
theorem seeAction_spec (actions : List Activity) (seen : Seen) (hnodup : seen.kinds.Nodup) :
    (actions.foldl P.seeAction seen).kinds.Nodup ∧
    (∀ k, k ∈ (actions.foldl P.seeAction seen).kinds ↔ k ∈ seen.kinds ∨ ∃ a ∈ actions, kind a = k) ∧
    ((actions.foldl P.seeAction seen).destructive = true ↔ seen.destructive = true ∨ ∃ a ∈ actions, P.isDestructive a = true) ∧
    (actions.foldl P.seeAction seen).firstFault = seen.firstFault.or (actions.head?.map fun a => owner a.provider) := by
  induction actions generalizing seen with
  | nil => simp [hnodup]
  | cons action actions ih =>
    have hkinds : (P.seeAction seen action).kinds.Nodup ∧
        ∀ k, k ∈ (P.seeAction seen action).kinds ↔ k ∈ seen.kinds ∨ kind action = k := by
      unfold seeAction
      by_cases hmem : kind action ∈ seen.kinds
      · rw [if_pos (List.contains_iff_mem.mpr hmem)]
        refine ⟨hnodup, fun k => ⟨.inl, ?_⟩⟩
        rintro (hk | rfl)
        · exact hk
        · exact hmem
      · rw [if_neg fun hcontains => hmem (List.contains_iff_mem.mp hcontains)]
        refine ⟨?_, fun k => by simp [eq_comm]⟩
        rw [List.nodup_append']
        exact ⟨hnodup, List.nodup_singleton _, by simpa using hmem⟩
    obtain ⟨hnodup', hmem, hdestructive, hfirst⟩ := ih (P.seeAction seen action) hkinds.1
    refine ⟨hnodup', fun k => ?_, ?_, ?_⟩
    · rw [List.foldl_cons, hmem, hkinds.2]
      simp [or_assoc]
    · rw [List.foldl_cons, hdestructive]
      unfold seeAction
      by_cases haction : P.isDestructive action = true <;> simp [haction]
    · rw [List.foldl_cons, hfirst]
      unfold seeAction
      cases seen.firstFault <;> simp

/-- More than one kind of fault. -/
def SeveralKinds (experiment : Experiment) : Prop :=
  ∃ a ∈ actions experiment, ∃ b ∈ actions experiment, kind a ≠ kind b

theorem one_lt_faultKinds_iff (experiment : Experiment) : 1 < (P.introspect experiment).faultKinds ↔ SeveralKinds experiment := by
  obtain ⟨hnodup, hmem, -, -⟩ := seeAction_spec (P := P) (actions experiment) ⟨[], false, none⟩ List.nodup_nil
  simp only [List.not_mem_nil, false_or] at hmem
  change 1 < ((actions experiment).foldl P.seeAction ⟨[], false, none⟩).kinds.length ↔ _
  generalize ((actions experiment).foldl P.seeAction ⟨[], false, none⟩).kinds = kinds at hnodup hmem ⊢
  constructor
  · intro hlength
    rcases kinds with _ | ⟨k, _ | ⟨l, rest⟩⟩
    · cases hlength
    · exact absurd hlength (Nat.lt_irrefl 1)
    · obtain ⟨a, ha, hk⟩ := (hmem k).mp List.mem_cons_self
      obtain ⟨b, hb, hl⟩ := (hmem l).mp (List.mem_cons_of_mem _ List.mem_cons_self)
      refine ⟨a, ha, b, hb, fun hsame => ?_⟩
      exact (List.nodup_cons.mp hnodup).1 (hk.symm.trans (hsame.trans hl) ▸ List.mem_cons_self)
  · rintro ⟨a, ha, b, hb, hne⟩
    have hka := (hmem (kind a)).mpr ⟨a, ha, rfl⟩
    have hkb := (hmem (kind b)).mpr ⟨b, hb, rfl⟩
    rcases kinds with _ | ⟨k, _ | ⟨l, rest⟩⟩
    · cases hka
    · exact absurd ((List.mem_singleton.mp hka).trans (List.mem_singleton.mp hkb).symm) hne
    · simp

theorem destructive_iff (experiment : Experiment) :
    (P.introspect experiment).destructive = true ↔ ∃ a ∈ actions experiment, P.isDestructive a = true := by
  obtain ⟨-, -, hdestructive, -⟩ := seeAction_spec (P := P) (actions experiment) ⟨[], false, none⟩ List.nodup_nil
  refine hdestructive.trans ?_
  simp

/-- The tier of a bound execution is T0 exactly when it only probes. Otherwise it is T3 exactly in production, without a rollback, or
with more than one kind of fault; and T2 exactly when it is not T3 and its environment is a staging one or one of its faults is
destructive. -/
theorem tierOf_iff (p : Resolved) (env : String) :
    (P.tierOf p env = .T0 ↔ actions p.1 = []) ∧
    (P.tierOf p env = .T3 ↔ actions p.1 ≠ [] ∧ (P.envClass env = .production ∨ p.1.rollbacks = [] ∨ SeveralKinds p.1)) ∧
    (P.tierOf p env = .T2 ↔ actions p.1 ≠ [] ∧ ¬ (P.envClass env = .production ∨ p.1.rollbacks = [] ∨ SeveralKinds p.1) ∧
      (P.envClass env = .staging ∨ ∃ a ∈ actions p.1, P.isDestructive a = true)) := by
  rw [← destructive_iff (P := P), ← one_lt_faultKinds_iff (P := P)]
  unfold tierOf classify
  dsimp only
  have hprobe : (P.introspect p.1).probeOnly = true ↔ actions p.1 = [] := List.isEmpty_iff
  have hcount : 0 < (P.introspect p.1).faultCount ↔ actions p.1 ≠ [] := List.length_pos_iff
  have hrollback : (P.introspect p.1).hasRollback = false ↔ p.1.rollbacks = [] := by
    change (!p.1.rollbacks.isEmpty) = false ↔ _
    cases p.1.rollbacks <;> simp
  rw [← hrollback, ne_eq, ← hprobe]
  rw [ne_eq, ← hprobe] at hcount
  generalize (P.introspect p.1).probeOnly = probeOnly at hcount ⊢
  generalize (P.introspect p.1).hasRollback = hasRollback
  generalize (P.introspect p.1).destructive = destructive
  by_cases hkinds : 1 < (P.introspect p.1).faultKinds <;> cases P.envClass env <;> cases probeOnly <;> cases hasRollback <;>
    cases destructive <;> simp [hcount, hkinds, maxTier, rank]

/-! ## The gate -/

section

variable {policy : LoadedPolicy} {runId env : String} {introspection : Introspection} {target : Option String} {ambient : AmbientContext}

/-- What a rule says of a requested run. -/
def T3Holds (policy : LoadedPolicy) (runId : String) (introspection : Introspection) (env : String) (target : Option String)
    (ambient : AmbientContext) (r : GateRule) : Prop :=
  r.Holds policy.policy (t3Candidate runId introspection env target) ambient none (validate (t3Candidate runId introspection env target))

/-- A requested run has no playbook, so it is not enactable. -/
theorem not_enactable : ¬ T3Holds policy runId introspection env target ambient .enactable := fun h => by cases h

/-- When no rule vetoes a requested run, it is a proposal. -/
theorem evaluateT3Gate_propose (h : ∀ r ∈ GateRule.vetoes, T3Holds policy runId introspection env target ambient r) :
    evaluateT3Gate (some policy) runId introspection env target ambient = .notEnact "propose" := by
  have hverdict := evaluate_law.propose h not_enactable
  unfold evaluateT3Gate
  simp only [hverdict]

/-- A rule that vetoes a requested run is named. -/
theorem evaluateT3Gate_veto {before after : List GateRule} {r : GateRule} (hsplit : GateRule.vetoes = before ++ r :: after)
    (hbefore : ∀ r' ∈ before, T3Holds policy runId introspection env target ambient r')
    (hr : ¬ T3Holds policy runId introspection env target ambient r) :
    evaluateT3Gate (some policy) runId introspection env target ambient = .veto r.id := by
  have hverdict := evaluate_law.veto before r after hsplit hbefore hr
  unfold evaluateT3Gate
  simp only [hverdict]

/-- The veto rules hold, or one of them is the first that does not. -/
theorem first_veto (P : GateRule → Prop) (rs : List GateRule) :
    (∀ r ∈ rs, P r) ∨ ∃ before r after, rs = before ++ r :: after ∧ (∀ r' ∈ before, P r') ∧ ¬ P r := by
  induction rs with
  | nil => exact .inl fun r hr => absurd hr List.not_mem_nil
  | cons r rs ih =>
    by_cases hr : P r
    · rcases ih with hall | ⟨before, r', after, rfl, hbefore, hr'⟩
      · exact .inl (List.forall_mem_cons.mpr ⟨hr, hall⟩)
      · exact .inr ⟨r :: before, r', after, rfl, List.forall_mem_cons.mpr ⟨hr, hbefore⟩, hr'⟩
    · exact .inr ⟨[], r, rs, rfl, fun r' hr' => absurd hr' List.not_mem_nil, hr⟩

/-- The gate never clears an approval of the highest tier, whatever the policy, the experiment and the surroundings: without a policy it
is unavailable; otherwise it names the first veto rule that fails, or proposes when none does. -/
theorem evaluateT3Gate_law (policy : Option LoadedPolicy) (runId : String) (introspection : Introspection) (env : String)
    (target : Option String) (ambient : AmbientContext) :
    (∀ hash rules, evaluateT3Gate policy runId introspection env target ambient ≠ .enact hash rules) ∧
    ((∃ reason, evaluateT3Gate policy runId introspection env target ambient = .unavailable reason) ↔ policy = none) ∧
    (∀ rule, evaluateT3Gate policy runId introspection env target ambient = .veto rule ↔ ∃ p ∈ policy, ∃ before r after,
      GateRule.vetoes = before ++ r :: after ∧ (∀ r' ∈ before, T3Holds p runId introspection env target ambient r') ∧
        ¬ T3Holds p runId introspection env target ambient r ∧ rule = r.id) ∧
    (∀ verdict, evaluateT3Gate policy runId introspection env target ambient = .notEnact verdict ↔ verdict = "propose" ∧
      ∃ p ∈ policy, ∀ r ∈ GateRule.vetoes, T3Holds p runId introspection env target ambient r) := by
  cases policy with
  | none => simp [evaluateT3Gate]
  | some policy =>
    simp only [Option.mem_def, Option.some.injEq, exists_eq_left']
    rcases first_veto (T3Holds policy runId introspection env target ambient) GateRule.vetoes with hall | ⟨before, r, after, hsplit, hbefore, hr⟩
    · rw [evaluateT3Gate_propose hall]
      refine ⟨by simp, by simp, fun rule => ?_, fun verdict => ?_⟩
      · refine iff_of_false (by simp) ?_
        rintro ⟨before, r, after, hsplit, -, hr, -⟩
        exact hr (hall r (hsplit ▸ List.mem_append_right _ List.mem_cons_self))
      · rw [GateOutcome.notEnact.injEq, eq_comm]
        exact ⟨fun h => ⟨h, hall⟩, And.left⟩
    · rw [evaluateT3Gate_veto hsplit hbefore hr]
      refine ⟨by simp, by simp, fun rule => ?_, fun verdict => ?_⟩
      · constructor
        · intro h
          exact ⟨before, r, after, hsplit, hbefore, hr, (GateOutcome.veto.inj h).symm⟩
        · rintro ⟨before', r', after', hsplit', hbefore', hr', rfl⟩
          rw [← evaluateT3Gate_veto hsplit hbefore hr, evaluateT3Gate_veto hsplit' hbefore' hr']
      · refine iff_of_false (by simp) ?_
        rintro ⟨-, hall⟩
        exact hr (hall r (hsplit ▸ List.mem_append_right _ List.mem_cons_self))

end

end PolicyCtx

end Tumult
