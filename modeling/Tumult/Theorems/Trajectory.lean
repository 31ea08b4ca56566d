import Tumult.Agentic.Trajectory

/-!
# Where a fault cuts a character

Cutting the output is the only fault that can unwind: `String::truncate` panics when the limit of bytes lies within a character of
the text. So a trajectory returns a result exactly when no fault that is drawn does that to the text it meets.
-/

namespace Tumult.Agentic

/-! ## Calls that return a result -/

section

variable {α β : Type}

/-- The call returns a result: it neither unwinds nor is refused. -/
def Completes (call : Run α) : Prop := ∃ a, call = pure a

theorem pure_inj {a b : α} (h : (pure a : Run α) = pure b) : a = b := by
  injection h with h
  injection h

@[simp] theorem completes_pure (a : α) : Completes (pure a : Run α) := ⟨a, rfl⟩

theorem not_completes_unwind : ¬ Completes (unwind : Run α) := fun ⟨_, h⟩ => nomatch h

theorem completes_bind {call : Run α} {next : α → Run β} :
    Completes (call >>= next) ↔ ∃ a, call = pure a ∧ Completes (next a) := by
  match call with
  | none => exact ⟨fun ⟨_, h⟩ => (nomatch h), fun ⟨_, h, _⟩ => (nomatch h)⟩
  | some (.error e) => exact ⟨fun ⟨_, h⟩ => (nomatch h), fun ⟨_, h, _⟩ => (nomatch h)⟩
  | some (.ok a) => exact ⟨fun h => ⟨a, rfl, h⟩, fun ⟨_, h, hnext⟩ => by cases h; exact hnext⟩

theorem bind_eq_pure {call : Run α} {next : α → Run β} {b : β} (h : call >>= next = pure b) :
    ∃ a, call = pure a ∧ next a = pure b := by
  obtain ⟨a, rfl, -⟩ := completes_bind.mp ⟨b, h⟩
  exact ⟨a, rfl, h⟩

end

variable {S : Type} {A : Arithmetic S} {L : Texts}

/-! ## One fault -/

/-- The fault cuts the text within a character. -/
def FaultSpec.Splits (fault : FaultSpec S) (body : String) : Prop :=
  ∃ maxBytes probability, fault = .outputTruncation maxBytes probability ∧ maxBytes < Spans.bytes body.toList ∧
    ∀ before after, body.toList = before ++ after → Spans.bytes before ≠ maxBytes

theorem completes_truncate_iff {text : String} {newLen : Nat} :
    Completes (truncate text newLen) ↔
      (newLen < Spans.bytes text.toList → ∃ before after, text.toList = before ++ after ∧ Spans.bytes before = newLen) := by
  unfold truncate
  split
  · next hle =>
    cases htake : Spans.takeBytes newLen text.toList with
    | some cut =>
      obtain ⟨after, hsplit, hbytes⟩ := Spans.takeBytes_eq_some.mp htake
      exact ⟨fun _ _ => ⟨cut, after, hsplit, hbytes⟩, fun _ => completes_pure _⟩
    | none =>
      have hnone : ∀ before after, text.toList = before ++ after → Spans.bytes before ≠ newLen := by
        intro before after hsplit hbytes
        have hsome := Spans.takeBytes_eq_some.mpr ⟨after, hsplit, hbytes⟩
        rw [htake] at hsome
        nomatch hsome
      have hlt : newLen < Spans.bytes text.toList :=
        lt_of_le_of_ne hle fun heq => hnone text.toList [] (List.append_nil _).symm heq.symm
      refine ⟨fun h => absurd h not_completes_unwind, fun h => ?_⟩
      obtain ⟨before, after, hsplit, hbytes⟩ := h hlt
      exact absurd hbytes (hnone before after hsplit)
  · next hlong => exact ⟨fun _ hlt => absurd hlt.le hlong, fun _ => completes_pure _⟩

theorem completes_faulted_iff (fault : FaultSpec S) (response : FaultTargetResponse) :
    Completes (faulted fault response) ↔ ¬ fault.Splits response.body := by
  have hother (hother : ∀ maxBytes probability, fault ≠ .outputTruncation maxBytes probability) : ¬ fault.Splits response.body :=
    fun ⟨maxBytes, probability, heq, _⟩ => hother maxBytes probability heq
  cases fault with
  | outputTruncation maxBytes probability =>
    have hbind : Completes (faulted (.outputTruncation maxBytes probability) response) ↔
        Completes (truncate response.body maxBytes) := by
      unfold faulted
      rw [completes_bind]
      exact ⟨fun ⟨body, h, _⟩ => ⟨body, h⟩, fun ⟨body, h⟩ => ⟨body, h, completes_pure _⟩⟩
    rw [hbind, completes_truncate_iff]
    constructor
    · rintro h ⟨maxBytes', probability', heq, hlt, hnone⟩
      cases heq
      obtain ⟨before, after, hsplit, hbytes⟩ := h hlt
      exact hnone before after hsplit hbytes
    · intro h hlt
      by_contra hnone
      exact h ⟨maxBytes, probability, rfl, hlt, fun before after hsplit hbytes => hnone ⟨before, after, hsplit, hbytes⟩⟩
  | _ => exact ⟨fun _ => hother nofun, fun _ => completes_pure _⟩

theorem completes_applyFault_iff (fault : FaultSpec S) (response : FaultTargetResponse) :
    Completes (applyFault fault response) ↔ ¬ fault.Splits response.body := by
  rw [← completes_faulted_iff]
  unfold applyFault
  rw [completes_bind]
  exact ⟨fun ⟨r, h, _⟩ => ⟨r, h⟩, fun ⟨r, h⟩ => ⟨r, h, completes_pure _⟩⟩

/-- The text after a fault. -/
def FaultSpec.bodyAfter (body : String) : FaultSpec S → String
  | modelTimeout .. => "\x7b\"error\":\"model_timeout\"\x7d"
  | providerError code _ => "\x7b\"error\":\"provider_error\",\"code\":" ++ toString code ++ "\x7d"
  | malformedOutput .. => "\x7bmalformed-json"
  | outputTruncation maxBytes _ => ((Spans.takeBytes maxBytes body.toList).map String.ofList).getD body
  | toolFailure errorType _ => "\x7b\"tool_error\":\"" ++ errorType ++ "\"\x7d"
  | retrievalPoisoning documentCount _ =>
    "\x7b\"answer\":\"answer contaminated by poisoned retrieval: " ++ " ".intercalate (poisonedDocuments documentCount) ++ "\"\x7d"
  | _ => body

theorem truncate_eq {text cut : String} {newLen : Nat} (h : truncate text newLen = pure cut) :
    cut = ((Spans.takeBytes newLen text.toList).map String.ofList).getD text := by
  unfold truncate at h
  split at h
  · split at h
    · next htake =>
      rw [htake]
      exact (pure_inj h).symm
    · nomatch h
  · next hlong =>
    have hnone : Spans.takeBytes newLen text.toList = none := by
      refine Option.eq_none_iff_forall_ne_some.mpr fun mid hsome => hlong ?_
      obtain ⟨after, hsplit, hbytes⟩ := Spans.takeBytes_eq_some.mp hsome
      rw [hsplit, Spans.bytes_append, hbytes]
      exact Nat.le_add_right _ _
    rw [hnone]
    exact (pure_inj h).symm

theorem limitTokens_body (maxTokens : Nat) (response : FaultTargetResponse) :
    (limitTokens maxTokens response).body = response.body := by
  unfold limitTokens
  split <;> rfl

theorem faulted_body {fault : FaultSpec S} {response after : FaultTargetResponse} (h : faulted fault response = pure after) :
    after.body = fault.bodyAfter response.body := by
  cases fault with
  | outputTruncation maxBytes probability =>
    obtain ⟨cut, hcut, hpure⟩ := bind_eq_pure h
    rw [← pure_inj hpure]
    exact truncate_eq hcut
  | contextTruncation maxTokens probability =>
    rw [← pure_inj h]
    exact limitTokens_body maxTokens response
  | tokenBudgetExhaustion maxTokens probability =>
    rw [← pure_inj h]
    exact limitTokens_body maxTokens response
  | _ =>
    rw [← pure_inj h]
    rfl

theorem applyFault_body {fault : FaultSpec S} {response : FaultTargetResponse} {outcome : FaultOutcome}
    (h : applyFault fault response = pure outcome) : outcome.response.body = fault.bodyAfter response.body := by
  obtain ⟨after, hafter, hpure⟩ := bind_eq_pure h
  rw [← pure_inj hpure]
  exact faulted_body hafter

/-! ## The faults of a step -/

/-- None of the faults, in their order, cuts the text it meets within a character. -/
def Uncut (faults : List (FaultSpec S)) (body : String) : Prop :=
  ∀ before fault after, faults = before ++ fault :: after → ¬ fault.Splits (before.foldl FaultSpec.bodyAfter body)

theorem uncut_cons {fault : FaultSpec S} {faults : List (FaultSpec S)} {body : String} :
    Uncut (fault :: faults) body ↔ ¬ fault.Splits body ∧ Uncut faults (fault.bodyAfter body) := by
  constructor
  · intro h
    refine ⟨h [] fault faults rfl, fun before next after heq => ?_⟩
    rw [heq] at h
    exact h (fault :: before) next after rfl
  · rintro ⟨hhead, htail⟩ before next after heq
    cases before with
    | nil =>
      cases heq
      exact hhead
    | cons first before =>
      cases heq
      exact htail before next after rfl

/-- The engine after so many draws. -/
def engineAfter (seed : UInt64) (draws : Nat) : FaultEngine := ⟨(fun state => state * 6364136223846793005 + 1)^[draws] seed⟩

/-- Whether a fault is applied when it is drawn after so many others. -/
def drawn (A : Arithmetic S) (seed : UInt64) (fault : FaultSpec S) (draws : Nat) : Bool :=
  ((engineAfter seed draws).shouldApply A fault).1

theorem shouldApply_engineAfter (seed : UInt64) (fault : FaultSpec S) (draws : Nat) :
    (engineAfter seed draws).shouldApply A fault = (drawn A seed fault draws, engineAfter seed (draws + 1)) := by
  unfold drawn engineAfter
  rw [Function.iterate_succ_apply']
  rfl

/-- The faults that are applied, of some that are drawn in their order. -/
def applied (A : Arithmetic S) (seed : UInt64) (draws : Nat) : List (FaultSpec S) → List (FaultSpec S)
  | [] => []
  | fault :: faults =>
    if drawn A seed fault draws then fault :: applied A seed (draws + 1) faults else applied A seed (draws + 1) faults

/-- Injecting the faults returns exactly when those applied do not cut a character (induction on the faults). -/
theorem completes_inject_iff (seed : UInt64) (faults : List (FaultSpec S)) (draws : Nat) (response : FaultTargetResponse)
    (injected : Option String) :
    Completes (faults.foldlM (injectFault A) ⟨engineAfter seed draws, response, injected⟩) ↔
      Uncut (applied A seed draws faults) response.body := by
  induction faults generalizing draws response injected with
  | nil => exact ⟨fun _ before fault after heq => by simp [applied] at heq, fun _ => completes_pure _⟩
  | cons fault faults ih =>
    rw [List.foldlM_cons, completes_bind, injectFault, shouldApply_engineAfter]
    unfold applied
    cases drawn A seed fault draws with
    | false =>
      dsimp only
      constructor
      · rintro ⟨next, hnext, hrest⟩
        rw [← pure_inj hnext] at hrest
        exact (ih _ _ _).mp hrest
      · exact fun h => ⟨_, rfl, (ih _ _ _).mpr h⟩
    | true =>
      rw [if_pos rfl, uncut_cons, ← completes_applyFault_iff]
      dsimp only
      constructor
      · rintro ⟨next, hnext, hrest⟩
        obtain ⟨outcome, houtcome, hpure⟩ := bind_eq_pure hnext
        rw [← pure_inj hpure] at hrest
        exact ⟨⟨outcome, houtcome⟩, applyFault_body houtcome ▸ (ih _ _ _).mp hrest⟩
      · rintro ⟨⟨outcome, houtcome⟩, hrest⟩
        rw [houtcome, pure_bind]
        exact ⟨_, rfl, (ih _ _ _).mpr (applyFault_body houtcome ▸ hrest)⟩

/-- Every fault is one draw. -/
theorem inject_engine {seed : UInt64} {faults : List (FaultSpec S)} {draws : Nat} {response : FaultTargetResponse}
    {injected : Option String} {injection : Injection}
    (h : faults.foldlM (injectFault A) ⟨engineAfter seed draws, response, injected⟩ = pure injection) :
    injection.engine = engineAfter seed (draws + faults.length) := by
  induction faults generalizing draws response injected with
  | nil => rw [← pure_inj h]; rfl
  | cons fault faults ih =>
    rw [List.foldlM_cons] at h
    obtain ⟨next, hnext, hrest⟩ := bind_eq_pure h
    rw [injectFault, shouldApply_engineAfter] at hnext
    have hlength : draws + (fault :: faults).length = draws + 1 + faults.length := by
      rw [List.length_cons]
      omega
    rw [hlength]
    cases hdrawn : drawn A seed fault draws with
    | false =>
      rw [hdrawn] at hnext
      rw [← pure_inj hnext] at hrest
      exact ih hrest
    | true =>
      rw [hdrawn] at hnext
      obtain ⟨outcome, -, hpure⟩ := bind_eq_pure hnext
      rw [← pure_inj hpure] at hrest
      exact ih hrest

/-! ## The steps of a trajectory -/

variable {faults : List (StepFault S)} {seed : UInt64}

/-- The faults that are applied at a step: the draws of the steps before come first. -/
def appliedAt (A : Arithmetic S) (faults : List (StepFault S)) (seed : UInt64) (index : Nat) : List (FaultSpec S) :=
  applied A seed (faults.countP (·.stepIndex < index)) (faultsAt faults index)

theorem countP_succ (faults : List (StepFault S)) (index : Nat) :
    faults.countP (·.stepIndex < index + 1) = faults.countP (·.stepIndex < index) + (faultsAt faults index).length := by
  rw [faultsAt, List.length_map, ← List.countP_eq_length_filter]
  induction faults with
  | nil => rfl
  | cons fault faults ih =>
    rw [List.countP_cons, List.countP_cons, List.countP_cons, ih]
    simp only [decide_eq_true_eq]
    split_ifs <;> omega

theorem completes_runStep_iff {progress : Progress S} {step : TrajectoryStep S} {index : Nat}
    (hengine : progress.engine = engineAfter seed (faults.countP (·.stepIndex < index))) :
    Completes (runStep A L faults progress (step, index)) ↔ Uncut (appliedAt A faults seed index) step.baseline.body := by
  unfold runStep appliedAt
  rw [completes_bind, hengine, ← completes_inject_iff _ _ _ step.baseline none]
  exact ⟨fun ⟨injection, h, _⟩ => ⟨injection, h⟩, fun ⟨injection, h⟩ => ⟨injection, h, completes_pure _⟩⟩

theorem runStep_engine {progress progress' : Progress S} {step : TrajectoryStep S} {index : Nat}
    (hengine : progress.engine = engineAfter seed (faults.countP (·.stepIndex < index)))
    (h : runStep A L faults progress (step, index) = pure progress') :
    progress'.engine = engineAfter seed (faults.countP (·.stepIndex < index + 1)) := by
  obtain ⟨injection, hinjection, hpure⟩ := bind_eq_pure h
  rw [hengine] at hinjection
  rw [← pure_inj hpure, countP_succ]
  exact inject_engine hinjection

/-- The run returns exactly when each step does (induction on the steps, from the draws made so far). -/
theorem completes_steps_iff (steps : List (TrajectoryStep S)) (index : Nat) (progress : Progress S)
    (hengine : progress.engine = engineAfter seed (faults.countP (·.stepIndex < index))) :
    Completes ((steps.zipIdx index).foldlM (runStep A L faults) progress) ↔
      ∀ entry ∈ steps.zipIdx index, Uncut (appliedAt A faults seed entry.2) entry.1.baseline.body := by
  induction steps generalizing index progress with
  | nil => simp
  | cons step steps ih =>
    rw [List.zipIdx_cons, List.foldlM_cons, completes_bind, List.forall_mem_cons, ← completes_runStep_iff hengine]
    constructor
    · rintro ⟨progress', hstep, hrest⟩
      exact ⟨⟨progress', hstep⟩, (ih _ _ (runStep_engine hengine hstep)).mp hrest⟩
    · rintro ⟨⟨progress', hstep⟩, hrest⟩
      exact ⟨progress', hstep, (ih _ _ (runStep_engine hengine hstep)).mpr hrest⟩

/-- A fault, and a trajectory, return a result exactly when no fault that is applied cuts the text it meets within a character. -/
theorem faultInjection_returns_iff (A : Arithmetic S) (L : Texts) (fault : FaultSpec S) (response : FaultTargetResponse)
    (packName : String) (steps : List (TrajectoryStep S)) (faults : List (StepFault S))
    (contracts : List (TrajectoryContractSpec S)) (seed : UInt64) :
    (Completes (applyFault fault response) ↔ ¬ fault.Splits response.body) ∧
      (Completes (executeTrajectory A L packName steps faults contracts seed) ↔
        ∀ entry ∈ steps.zipIdx, Uncut (appliedAt A faults seed entry.2) entry.1.baseline.body) := by
  refine ⟨completes_applyFault_iff fault response, ?_⟩
  have hstart : (⟨seed⟩ : FaultEngine) = engineAfter seed (faults.countP (·.stepIndex < 0)) := by simp [engineAfter]
  rw [← completes_steps_iff (L := L) steps 0 ⟨⟨seed⟩, [], [], []⟩ hstart, executeTrajectory, completes_bind]
  exact ⟨fun ⟨progress, h, _⟩ => ⟨progress, h⟩, fun ⟨progress, h⟩ => ⟨progress, h, completes_pure _⟩⟩

/-- One byte of a character of two: the call unwinds. -/
theorem faultInjection_returns_false :
    applyFault (.outputTruncation 1 (1 : ℚ)) ⟨"é", 40, 0, 1, 16, 16, false, none, []⟩ = unwind := rfl

end Tumult.Agentic
