import Tumult.Runner.GameDay

/-!
# What a campaign's score counts

Journals are paired with the declared experiments by position, and only the pairs are scored. A campaign that ends early is scored
as if the experiments that did not run had not been declared.
-/

namespace Tumult

open Traced

/-! ## What the score should be -/

/-- The fraction of the articles of all declared experiments that some experiment that ran and completed is mapped to. -/
def declaredCoverage (declared : List GameDayExperiment) (journals : List Journal) : Rat :=
  let articles := (declared.flatMap (·.complianceMaps)).dedup
  if articles = [] then 1
  else (articles.countP (hasPassing (declared.zip journals)) : Nat) / (articles.length : Nat)

/-- The fraction of all declared experiments that ran and completed. -/
def declaredPassRate (declared : List GameDayExperiment) (journals : List Journal) : Rat :=
  if declared.length > 0 then (journals.countP (·.status = .completed) : Nat) / (declared.length : Nat) else 0

/-- A campaign's score counts every declared experiment, and is at most the score of the same campaign with the experiments that did
not run run without completing (the overall score where these leave the recovery compliance at least as high). -/
structure GameDayWorld.Fair (C : GameDayWorld) (gameday : GameDay) (result : GameDayJournal) : Prop where
  coverage : result.resilienceScore.complianceCoverage = declaredCoverage gameday.experiments result.experimentJournals
  passRate : result.resilienceScore.passRate = declaredPassRate gameday.experiments result.experimentJournals
  unrewarded : ∀ rest : List Journal, result.experimentJournals.length + rest.length = gameday.experiments.length →
    (∀ journal ∈ rest, journal.status ≠ .completed) → ∀ full, full = C.score gameday (result.experimentJournals ++ rest) result.loadResult →
      result.resilienceScore.passRate ≤ full.passRate ∧ result.resilienceScore.complianceCoverage ≤ full.complianceCoverage ∧
        (result.resilienceScore.recoveryCompliance ≤ full.recoveryCompliance → result.resilienceScore.overall ≤ full.overall)

/-- The experiment at a place runs: no token is cancelled up to there, and every experiment up to there executes. -/
def GameDayWorld.Runs (C : GameDayWorld) (experiments : List Experiment) (i : Nat) : Prop :=
  ∀ k ≤ i, C.cancelled k = false ∧ ∃ e journal, experiments[k]? = some e ∧ (C.run k e).outcome = .returned (.ok journal)

/-- The campaign runs to its end, or nothing that runs completes and its articles are not all mapped by experiments that do not
run. -/
def GameDayWorld.NothingHidden (C : GameDayWorld) (gameday : GameDay) (experiments : List Experiment) : Prop :=
  (∀ i < experiments.length, C.Runs experiments i) ∨
    (∀ i e journal, C.Runs experiments i → experiments[i]? = some e → (C.run i e).outcome = .returned (.ok journal) →
      journal.status ≠ .completed) ∧
    ((∃ i g, C.Runs experiments i ∧ gameday.experiments[i]? = some g ∧ g.complianceMaps ≠ []) ∨
      ∀ g ∈ gameday.experiments, g.complianceMaps = [])

/-! ## Counting -/

section Counting

variable {declared : List GameDayExperiment} {journals : List Journal}

theorem hasPassing_iff {pairs : List (GameDayExperiment × Journal)} {article : String} :
    hasPassing pairs article = true ↔ ∃ p ∈ pairs, article ∈ p.1.complianceMaps ∧ p.2.status = .completed := by
  simp [hasPassing]

/-- Articles that are met are counted alike in every list of distinct articles that has them all. -/
theorem countP_dedup_eq {α : Type} [DecidableEq α] {p : α → Bool} {as bs : List α} (h : ∀ a, p a = true → (a ∈ as ↔ a ∈ bs)) :
    as.dedup.countP p = bs.dedup.countP p := by
  rw [List.countP_eq_length_filter, List.countP_eq_length_filter]
  refine List.Perm.length_eq ((List.perm_ext_iff_of_nodup ((List.nodup_dedup _).filter _) ((List.nodup_dedup _).filter _)).mpr fun a => ?_)
  rw [List.mem_filter, List.mem_filter, List.mem_dedup, List.mem_dedup]
  exact ⟨fun ha => ⟨(h a ha.2).mp ha.1, ha.2⟩, fun ha => ⟨(h a ha.2).mpr ha.1, ha.2⟩⟩

theorem mem_pairs_articles {pairs : List (GameDayExperiment × Journal)} {article : String} (h : hasPassing pairs article = true) :
    article ∈ pairs.flatMap (·.1.complianceMaps) := by
  obtain ⟨p, hp, harticle, -⟩ := hasPassing_iff.mp h
  exact List.mem_flatMap.mpr ⟨p, hp, harticle⟩

theorem pairs_articles_subset {article : String} (h : article ∈ (declared.zip journals).flatMap (·.1.complianceMaps)) :
    article ∈ declared.flatMap (·.complianceMaps) := by
  obtain ⟨p, hp, harticle⟩ := List.mem_flatMap.mp h
  exact List.mem_flatMap.mpr ⟨p.1, (List.of_mem_zip hp).1, harticle⟩

/-- The articles that are met are those of the pairs, whichever articles are counted. -/
theorem countP_passing : (declared.flatMap (·.complianceMaps)).dedup.countP (hasPassing (declared.zip journals)) =
    ((declared.zip journals).flatMap (·.1.complianceMaps)).dedup.countP (hasPassing (declared.zip journals)) :=
  countP_dedup_eq fun _ h => ⟨fun _ => mem_pairs_articles h, fun harticle => pairs_articles_subset harticle⟩

/-- Nothing is met when nothing completed. -/
theorem countP_passing_eq_zero (h : ∀ journal ∈ journals, journal.status ≠ .completed) (articles : List String) :
    articles.countP (hasPassing (declared.zip journals)) = 0 := by
  rw [List.countP_eq_zero]
  intro article _ hpassing
  obtain ⟨p, hp, -, hcompleted⟩ := hasPassing_iff.mp hpassing
  exact h p.2 (List.of_mem_zip hp).2 hcompleted

theorem completed_eq_zero_iff : journals.countP (·.status = .completed) = 0 ↔ ∀ journal ∈ journals, journal.status ≠ .completed := by
  simp [List.countP_eq_zero]

/-- A full-length campaign is scored over all that is declared. -/
theorem coverage_of_full (h : journals.length = declared.length) :
    computeComplianceCoverage (declared.zip journals) = declaredCoverage declared journals := by
  have hmaps : (declared.zip journals).flatMap (·.1.complianceMaps) = declared.flatMap (·.complianceMaps) := by
    have hfst : (declared.zip journals).map Prod.fst = declared := List.map_fst_zip (Nat.le_of_eq h.symm)
    conv_rhs => rw [← hfst, List.flatMap_map]
  unfold computeComplianceCoverage declaredCoverage
  rw [hmaps]

theorem passRate_of_full (h : journals.length = declared.length) : passRate journals = declaredPassRate declared journals := by
  unfold passRate declaredPassRate
  rw [h]

/-- Journals that did not complete add nothing. -/
theorem declaredCoverage_append {rest : List Journal} (h : ∀ journal ∈ rest, journal.status ≠ .completed) :
    declaredCoverage declared (journals ++ rest) = declaredCoverage declared journals := by
  have hpassing : hasPassing (declared.zip (journals ++ rest)) = hasPassing (declared.zip journals) := by
    funext article
    rw [Bool.eq_iff_iff, hasPassing_iff, hasPassing_iff]
    constructor
    · rintro ⟨p, hp, harticle, hcompleted⟩
      rw [List.mem_iff_getElem?] at hp
      obtain ⟨i, hi⟩ := hp
      obtain ⟨hdeclared, hjournal⟩ := List.getElem?_zip_eq_some.mp hi
      rcases lt_or_ge i journals.length with hlt | hge
      · rw [List.getElem?_append_left hlt] at hjournal
        exact ⟨p, List.mem_iff_getElem?.mpr ⟨i, List.getElem?_zip_eq_some.mpr ⟨hdeclared, hjournal⟩⟩, harticle, hcompleted⟩
      · rw [List.getElem?_append_right hge] at hjournal
        exact absurd hcompleted (h p.2 (List.mem_of_getElem? hjournal))
    · rintro ⟨p, hp, harticle, hcompleted⟩
      rw [List.mem_iff_getElem?] at hp
      obtain ⟨i, hi⟩ := hp
      obtain ⟨hdeclared, hjournal⟩ := List.getElem?_zip_eq_some.mp hi
      have hlt : i < journals.length := (List.getElem?_eq_some_iff.mp hjournal).1
      have hsame : (journals ++ rest)[i]? = journals[i]? := List.getElem?_append_left hlt
      rw [← hsame] at hjournal
      exact ⟨p, List.mem_iff_getElem?.mpr ⟨i, List.getElem?_zip_eq_some.mpr ⟨hdeclared, hjournal⟩⟩, harticle, hcompleted⟩
  unfold declaredCoverage
  rw [hpassing]

theorem declaredPassRate_append {rest : List Journal} (h : ∀ journal ∈ rest, journal.status ≠ .completed) :
    declaredPassRate declared (journals ++ rest) = declaredPassRate declared journals := by
  unfold declaredPassRate
  rw [List.countP_append, completed_eq_zero_iff.mpr h, Nat.add_zero]

/-- A fraction of fewer is the same fraction only when nothing is counted. -/
theorem div_eq_div_iff_of_lt {c n m : Nat} (hn : 0 < n) (hlt : n < m) : ((c : Rat) / n = (c : Rat) / m) ↔ c = 0 := by
  have hn' : (n : Rat) ≠ 0 := by exact_mod_cast hn.ne'
  have hm' : (m : Rat) ≠ 0 := by exact_mod_cast (hn.trans hlt).ne'
  rw [div_eq_div_iff hn' hm', mul_eq_mul_left_iff]
  constructor
  · rintro (h | h)
    · have hmn : m = n := by exact_mod_cast h
      omega
    · exact_mod_cast h
  · rintro rfl
    exact .inr rfl

/-- The pass rate of fewer journals is the declared one exactly when none of them completed. -/
theorem passRate_eq_iff (h : journals.length < declared.length) :
    passRate journals = declaredPassRate declared journals ↔ ∀ journal ∈ journals, journal.status ≠ .completed := by
  rw [← completed_eq_zero_iff]
  unfold passRate declaredPassRate
  rw [if_pos (Nat.zero_lt_of_lt h)]
  by_cases hzero : journals.length > 0
  · rw [if_pos hzero]
    exact div_eq_div_iff_of_lt hzero h
  · have hnil : journals = [] := List.length_eq_zero_iff.mp (by omega)
    simp [hnil]

/-- When nothing completed, the coverage is the declared one exactly when the pairs have an article or nothing declared has. -/
theorem coverage_eq_iff (h : ∀ journal ∈ journals, journal.status ≠ .completed) :
    computeComplianceCoverage (declared.zip journals) = declaredCoverage declared journals ↔
      (∃ p ∈ declared.zip journals, p.1.complianceMaps ≠ []) ∨ ∀ g ∈ declared, g.complianceMaps = [] := by
  unfold computeComplianceCoverage declaredCoverage
  simp only [countP_passing_eq_zero h, Nat.cast_zero, zero_div, List.dedup_eq_nil, List.flatMap_eq_nil_iff]
  by_cases hpairs : ∀ p ∈ declared.zip journals, p.1.complianceMaps = []
  · have hnone : ¬ ∃ p ∈ declared.zip journals, p.1.complianceMaps ≠ [] := by
      rintro ⟨p, hp, hne⟩
      exact hne (hpairs p hp)
    rw [if_pos hpairs]
    by_cases hall : ∀ g ∈ declared, g.complianceMaps = []
    · rw [if_pos hall]
      exact ⟨fun _ => .inr hall, fun _ => rfl⟩
    · rw [if_neg hall]
      exact ⟨fun heq => absurd heq one_ne_zero, fun hor => absurd (hor.resolve_left hnone) hall⟩
  · have hsome : ∃ p ∈ declared.zip journals, p.1.complianceMaps ≠ [] := by
      push Not at hpairs
      exact hpairs
    obtain ⟨p, hp, hne⟩ := hsome
    have hall : ¬ ∀ g ∈ declared, g.complianceMaps = [] := fun hall => hne (hall p.1 (List.of_mem_zip hp).1)
    rw [if_neg hpairs, if_neg hall]
    exact ⟨fun _ => .inl ⟨p, hp, hne⟩, fun _ => rfl⟩

end Counting

/-! ## The campaign -/

section Run

variable {C : GameDayWorld} {gameday : GameDay} {experiments : List Experiment} {journals : List Journal}

/-- The journals are those of the first experiments, in order, up to a cancellation or an experiment that fails to execute. -/
theorem GameDayWorld.runAll_returned {i : Nat} (h : (C.runAll i experiments).outcome = .returned journals) :
    (∀ k (hk : k < journals.length), C.cancelled (i + k) = false ∧
      ∃ e, experiments[k]? = some e ∧ (C.run (i + k) e).outcome = .returned (.ok journals[k])) ∧
      journals.length ≤ experiments.length ∧
      (journals.length < experiments.length → C.cancelled (i + journals.length) = true ∨
        ∃ e err, experiments[journals.length]? = some e ∧ (C.run (i + journals.length) e).outcome = .returned (.error err)) := by
  induction experiments generalizing i journals with
  | nil =>
    obtain rfl : [] = journals := Outcome.returned.inj h
    simp
  | cons experiment rest ih =>
    unfold runAll at h
    split_ifs at h with hcancelled
    · obtain rfl : [] = journals := Outcome.returned.inj h
      simp [hcancelled]
    · obtain ⟨r, hr, hnext, -⟩ := bind_returned h
      cases r with
      | error err =>
        obtain rfl : [] = journals := Outcome.returned.inj hnext
        refine ⟨fun k hk => absurd hk (Nat.not_lt_zero k), Nat.zero_le _, fun _ => .inr ⟨experiment, err, rfl, hr⟩⟩
      | ok journal =>
        obtain ⟨later, hlater, hcons, -⟩ := bind_returned hnext
        obtain rfl : journal :: later = journals := Outcome.returned.inj hcons
        obtain ⟨hran, hle, hstop⟩ := ih hlater
        refine ⟨fun k hk => ?_, Nat.succ_le_succ hle, fun hlt => ?_⟩
        · cases k with
          | zero => exact ⟨by simpa using hcancelled, experiment, rfl, hr⟩
          | succ k =>
            obtain ⟨hnot, e, he, hrun⟩ := hran k (by simpa using hk)
            rw [show i + (k + 1) = i + 1 + k by omega]
            exact ⟨hnot, e, by simpa using he, by simpa using hrun⟩
        · rw [List.length_cons, show i + (later.length + 1) = i + 1 + later.length by omega]
          simpa using hstop (by simpa using hlt)

/-- The experiments that run are those that have a journal. -/
theorem GameDayWorld.runs_iff (h : (C.runAll 0 experiments).outcome = .returned journals) (i : Nat) :
    C.Runs experiments i ↔ i < journals.length := by
  obtain ⟨hran, hle, hstop⟩ := C.runAll_returned h
  simp only [Nat.zero_add] at hran hstop
  constructor
  · intro hruns
    by_contra hge
    obtain ⟨hnot, e, journal, he, hrun⟩ := hruns journals.length (by omega)
    have hlt : journals.length < experiments.length := (List.getElem?_eq_some_iff.mp he).1
    rcases hstop hlt with hcancelled | ⟨e', err, he', herr⟩
    · rw [hnot] at hcancelled
      cases hcancelled
    · obtain rfl := Option.some.inj (he.symm.trans he')
      rw [hrun] at herr
      cases herr
  · intro hi k hk
    obtain ⟨hnot, e, he, hrun⟩ := hran k (by omega)
    exact ⟨hnot, e, _, he, hrun⟩

theorem GameDayWorld.completes_iff (h : (C.runAll 0 experiments).outcome = .returned journals) :
    (∀ i e journal, C.Runs experiments i → experiments[i]? = some e → (C.run i e).outcome = .returned (.ok journal) →
      journal.status ≠ .completed) ↔ ∀ journal ∈ journals, journal.status ≠ .completed := by
  have hran := (C.runAll_returned h).1
  simp only [Nat.zero_add] at hran
  constructor
  · intro hnone journal hjournal
    obtain ⟨i, hi, rfl⟩ := List.mem_iff_getElem.mp hjournal
    obtain ⟨-, e, he, hrun⟩ := hran i hi
    exact hnone i e _ ((C.runs_iff h i).mpr hi) he hrun
  · intro hnone i e journal hruns he hrun
    have hi := (C.runs_iff h i).mp hruns
    obtain ⟨-, e', he', hrun'⟩ := hran i hi
    obtain rfl := Option.some.inj (he.symm.trans he')
    obtain rfl : journals[i] = journal := by
      rw [hrun'] at hrun
      exact Except.ok.inj (Outcome.returned.inj hrun)
    exact hnone _ (List.getElem_mem hi)

theorem GameDayWorld.maps_iff (h : (C.runAll 0 experiments).outcome = .returned journals) :
    (∃ i g, C.Runs experiments i ∧ gameday.experiments[i]? = some g ∧ g.complianceMaps ≠ []) ↔
      ∃ p ∈ gameday.experiments.zip journals, p.1.complianceMaps ≠ [] := by
  constructor
  · rintro ⟨i, g, hruns, hg, hmaps⟩
    have hi := (C.runs_iff h i).mp hruns
    refine ⟨(g, journals[i]), List.mem_iff_getElem?.mpr ⟨i, List.getElem?_zip_eq_some.mpr ⟨hg, ?_⟩⟩, hmaps⟩
    exact List.getElem?_eq_getElem hi
  · rintro ⟨p, hp, hmaps⟩
    obtain ⟨i, hi⟩ := List.mem_iff_getElem?.mp hp
    obtain ⟨hg, hjournal⟩ := List.getElem?_zip_eq_some.mp hi
    exact ⟨i, p.1, (C.runs_iff h i).mpr (List.getElem?_eq_some_iff.mp hjournal).1, hg, hmaps⟩

/-- What a campaign that returned went through. -/
theorem runGameday_returned {result : GameDayJournal} (h : (runGameday C gameday experiments).outcome = .returned (.ok result)) :
    gameday.experiments.length = experiments.length ∧
      (C.runAll 0 experiments).outcome = .returned result.experimentJournals ∧
      result.resilienceScore = C.score gameday result.experimentJournals result.loadResult := by
  unfold runGameday at h
  split_ifs at h with hlength
  · cases h
  · obtain ⟨handle, -, hrest, -⟩ := bind_returned h
    obtain ⟨ran, hran, hloaded, -⟩ := bind_returned hrest
    obtain ⟨loadResult, -, hsettled, -⟩ := bind_returned hloaded
    obtain ⟨journals, hjournals, hend, -⟩ := bind_returned hsettled
    obtain rfl : (C.runAll 0 experiments).outcome = ran := Outcome.returned.inj hran
    obtain rfl := Except.ok.inj (Outcome.returned.inj hend)
    exact ⟨not_not.mp hlength, hjournals, rfl⟩

end Run

/-- Plain surroundings for a campaign that is cancelled before a place. -/
def campaignCancelledAt (place : Nat) : GameDayWorld where
  runner _ := stillCtx
  executor _ := succeedingExecutor
  controls _ := ⟨[]⟩
  cancelled i := decide (place ≤ i)
  token _ := none
  loadExecutor := none
  rollbackStrategy := .onDeviation
  maxConcurrentFaults := none
  postResult _ := none
  errorRate _ := 0
  now _ := 0

/-- Two experiments, each mapped to an article of its own. -/
def twoArticles : GameDay where
  title := "Q2 resilience"
  experiments := [⟨"failover.toon", ["DORA-Art25"]⟩, ⟨"restore.toon", ["DORA-Art11"]⟩]

def oneAction : Experiment where
  title := "latency"
  method := [nativeAction "inject latency"]

end Tumult
