import Tumult.Runner.Phases
import Tumult.Lib.Grouping
import Tumult.Lib.OrdMap

/-!
# What is reported of the recovery

The samples that are taken after the method are grouped by the names of their probes. With names that are apart each group holds the
samples of one probe, and what is reported agrees with what is said of the probes one by one; probes of one name share a group, and
the failures of the first are covered by the successes of the last.
-/

namespace Tumult.Phases

/-! ## What is said of the probes -/

/-- One round: a sample of each probe in their order, that passed or failed. -/
structure RoundOf (probes : List Activity) (round : List ActivityResult) : Prop where
  names : round.map (·.name) = probes.map (·.name)
  status : ∀ s ∈ round, s.status = .succeeded ∨ s.status = .failed

/-- Rounds of samples, at least one. -/
def RoundsOf (probes : List Activity) (rounds : List (List ActivityResult)) : Prop :=
  rounds ≠ [] ∧ ∀ round ∈ rounds, RoundOf probes round

/-- The samples of one probe, by its place. -/
def ownSamples (rounds : List (List ActivityResult)) (i : Nat) : List ActivityResult := rounds.filterMap (·[i]?)

/-- The recovery point of a probe, measured from the start: 0 when it never failed, and otherwise its first success after its last
failure. -/
def RecoveryPoint (startedAtNs : Int) (own : List ActivityResult) (ns : Int) : Prop :=
  (∀ s ∈ own, s.status ≠ .failed) ∧ ns = 0 ∨
    ∃ before failure s after, own = before ++ failure :: s :: after ∧ failure.status = .failed ∧ s.status = .succeeded ∧
      (∀ s' ∈ after, s'.status ≠ .failed) ∧ ns = s.startedAtNs - startedAtNs

/-- The last sample of a probe succeeded. -/
def LastSucceeded (own : List ActivityResult) : Prop := ∃ s, own.getLast? = some s ∧ s.status = .succeeded

/-- What is reported agrees with what is said of the probes: their recovery points are marked; a full recovery is reported when the
last sample of each succeeded; then, and only then, there is a time to recovery, the latest of their recovery points. -/
structure ReportsRecovery (probes : List Activity) (startedAtNs : Int) (rounds : List (List ActivityResult)) (post : PostResult) :
    Prop where
  marked : ∀ i (hi : i < probes.length), ∀ ns, RecoveryPoint startedAtNs (ownSamples rounds i) ns →
    ∃ p ∈ post.probes, p.name = probes[i].name ∧ p.recoveryTimeS = secondsOf ns
  full : post.fullRecovery = true ↔ ∀ i < probes.length, LastSucceeded (ownSamples rounds i)
  mttr : post.mttrS.isSome = post.fullRecovery
  latest : ∀ t, post.mttrS = some t →
    (∃ i < probes.length, ∃ ns, RecoveryPoint startedAtNs (ownSamples rounds i) ns ∧ t = secondsOf ns) ∧
      ∀ i < probes.length, ∀ ns, RecoveryPoint startedAtNs (ownSamples rounds i) ns → secondsOf ns ≤ t

/-- Every probe failed, and recovered before the start, as only a clock that is set back shows it. -/
def RecoveredBeforeStart (probes : List Activity) (startedAtNs : Int) (rounds : List (List ActivityResult)) : Prop :=
  ∀ i < probes.length, ∃ ns < 0, RecoveryPoint startedAtNs (ownSamples rounds i) ns

/-! ## The samples of a run -/

theorem foldl_appendRound (rounds : List (List ActivityResult)) (perProbe : ProbeSamples) :
    rounds.foldl appendRound perProbe = rounds.flatten.foldl (Grouping.add ActivityResult.name) perProbe :=
  List.foldl_flatten.symm

section

variable {Γ : RunnerCtx} {executor : ActivityExecutor} {hypothesis : Hypothesis}

/-- A round of the runner has a sample of each probe, that passed or failed (induction on the probes). -/
theorem sampleProbeRound_round (site : Nat → Site) :
    Traced.Yields (sampleProbeRound Γ executor site hypothesis) fun samples => RoundOf hypothesis.probes samples.1 := by
  unfold sampleProbeRound
  refine Traced.Yields.bind (P := fun samples => RoundOf hypothesis.probes (samples.map (·.1))) ?_ fun samples h =>
    Traced.Yields.pure h
  generalize hypothesis.probes = probes
  generalize 0 = i
  induction probes generalizing i with
  | nil => exact Traced.Yields.pure ⟨rfl, fun s hs => absurd hs List.not_mem_nil⟩
  | cons probe probes ih =>
    unfold Traced.forEach
    refine Traced.Yields.bind
      (P := fun sample => sample.1.name = probe.name ∧ (sample.1.status = .succeeded ∨ sample.1.status = .failed))
      (Traced.Yields.after fun outcome => Traced.Yields.pure ⟨rfl, ?_⟩) fun sample hsample => ?_
    · dsimp only
      split
      · exact .inl rfl
      · exact .inr rfl
    · refine Traced.Yields.bind (ih (i + 1)) fun samples hsamples => Traced.Yields.pure ⟨?_, fun s hs => ?_⟩
      · rw [List.map_cons, List.map_cons, List.map_cons, hsample.1, hsamples.names]
      · rcases List.mem_cons.mp hs with rfl | hs
        · exact hsample.2
        · exact hsamples.status s hs

/-- What the runner collects after the method are rounds of samples under their names (induction on the rounds it has left). -/
theorem collectPostSamples_rounds (token : Option CancellationToken) (rounds round : Nat) (perProbe : ProbeSamples) :
    Traced.Yields (collectPostSamples Γ executor hypothesis token rounds round perProbe) fun samples =>
      ∃ sampled, RoundsOf hypothesis.probes sampled ∧ samples = sampled.foldl appendRound perProbe := by
  induction rounds generalizing round perProbe with
  | zero =>
    unfold collectPostSamples
    refine Traced.Yields.bind (sampleProbeRound_round _) fun samples hsamples => Traced.Yields.after fun cancelled => ?_
    have hone : RoundsOf hypothesis.probes [samples.1] :=
      ⟨List.cons_ne_nil _ _, fun r hr => List.mem_singleton.mp hr ▸ hsamples⟩
    split
    · exact Traced.Yields.pure ⟨_, hone, rfl⟩
    · exact Traced.Yields.pure ⟨_, hone, rfl⟩
  | succ rounds ih =>
    unfold collectPostSamples
    refine Traced.Yields.bind (sampleProbeRound_round _) fun samples hsamples => Traced.Yields.after fun cancelled => ?_
    have hone : RoundsOf hypothesis.probes [samples.1] :=
      ⟨List.cons_ne_nil _ _, fun r hr => List.mem_singleton.mp hr ▸ hsamples⟩
    split
    · exact Traced.Yields.pure ⟨_, hone, rfl⟩
    · intro result hresult
      obtain ⟨sampled, hsampled, rfl⟩ := ih (round + 1) (appendRound perProbe samples.1) result hresult
      refine ⟨samples.1 :: sampled, ⟨List.cons_ne_nil _ _, fun r hr => ?_⟩, rfl⟩
      rcases List.mem_cons.mp hr with rfl | hr
      · exact hsamples
      · exact hsampled.2 r hr

end

/-! ## One probe -/

section

variable {startedAtNs ns : Int} {own : List ActivityResult}

theorem rposition_none {α : Type} {p : α → Bool} {as : List α} (h : ∀ a ∈ as, p a = false) : rposition p as = none := by
  induction as with
  | nil => rfl
  | cons a as ih =>
    rw [rposition, ih fun b hb => h b (List.mem_cons_of_mem a hb)]
    simp [h a List.mem_cons_self]

/-- The last place is found (induction on what stands before it). -/
theorem rposition_append {α : Type} {p : α → Bool} (before : List α) {a : α} {after : List α} (ha : p a = true)
    (hafter : ∀ b ∈ after, p b = false) : rposition p (before ++ a :: after) = some before.length := by
  induction before with
  | nil => simp [rposition, rposition_none hafter, ha]
  | cons b before ih => simp [rposition, ih]

/-- The recovery point is what is computed. -/
theorem recoveryTimeS_of_point (h : RecoveryPoint startedAtNs own ns) : recoveryTimeS startedAtNs own = secondsOf ns := by
  rcases h with ⟨hnever, rfl⟩ | ⟨before, failure, s, after, rfl, hfailure, hs, hafter, rfl⟩
  · have hnone : own.filter (·.isFailed) = [] :=
      List.filter_eq_nil_iff.mpr fun s hs => by simp [ActivityResult.isFailed, hnever s hs]
    simp [recoveryTimeS, hnone, secondsOf]
  · have hfailed : failure.isFailed = true := by simp [ActivityResult.isFailed, hfailure]
    have hlast : rposition (·.isFailed) (before ++ failure :: s :: after) = some before.length := by
      refine rposition_append before hfailed fun s' hs' => ?_
      rcases List.mem_cons.mp hs' with rfl | hs'
      · simp [ActivityResult.isFailed, hs]
      · simp [ActivityResult.isFailed, hafter s' hs']
    have hsome : ((before ++ failure :: s :: after).filter (·.isFailed)).length ≠ 0 := by
      simp [hfailed]
    rw [recoveryTimeS, if_neg hsome, hlast]
    simp

/-- Of samples that failed there is a last one. -/
theorem last_failure (h : ∃ s ∈ own, s.status = .failed) :
    ∃ before failure after, own = before ++ failure :: after ∧ failure.status = .failed ∧ ∀ s ∈ after, s.status ≠ .failed := by
  obtain ⟨s, hs, hfailed⟩ := h
  cases hfind : own.reverse.find? (·.isFailed) with
  | none =>
    have hnone := List.find?_eq_none.mp hfind s (List.mem_reverse.mpr hs)
    simp [ActivityResult.isFailed, hfailed] at hnone
  | some failure =>
    obtain ⟨hfailure, after, before, hsplit, hafter⟩ := List.find?_eq_some_iff_append.mp hfind
    refine ⟨before.reverse, failure, after.reverse, ?_, by simpa [ActivityResult.isFailed] using hfailure, fun s hs => ?_⟩
    · rw [← List.reverse_reverse own, hsplit]
      simp
    · simpa [ActivityResult.isFailed] using hafter s (List.mem_reverse.mp hs)

/-- A probe whose samples end in a success has a recovery point. -/
theorem exists_point (hstatus : ∀ s ∈ own, s.status = .succeeded ∨ s.status = .failed) (h : LastSucceeded own) :
    ∃ ns, RecoveryPoint startedAtNs own ns := by
  by_cases hever : ∃ s ∈ own, s.status = .failed
  · obtain ⟨before, failure, after, rfl, hfailure, hafter⟩ := last_failure hever
    obtain ⟨last, hlast, hsucceeded⟩ := h
    cases after with
    | nil =>
      rw [List.getLast?_append_of_ne_nil _ (List.cons_ne_nil _ _)] at hlast
      have heq : failure = last := Option.some.inj hlast
      rw [← heq, hfailure] at hsucceeded
      nomatch hsucceeded
    | cons s after =>
      have hs := (hstatus s (by simp)).resolve_right (hafter s List.mem_cons_self)
      exact ⟨_, .inr ⟨before, failure, s, after, rfl, hfailure, hs, fun s' hs' => hafter s' (List.mem_cons_of_mem s hs'), rfl⟩⟩
  · exact ⟨0, .inl ⟨fun s hs hfailed => hever ⟨s, hs, hfailed⟩, rfl⟩⟩

/-- A probe that has a recovery point ends in a success. -/
theorem lastSucceeded_of_point (hstatus : ∀ s ∈ own, s.status = .succeeded ∨ s.status = .failed) (hne : own ≠ [])
    (h : RecoveryPoint startedAtNs own ns) : LastSucceeded own := by
  refine ⟨own.getLast hne, List.getLast?_eq_some_getLast hne, (hstatus _ (List.getLast_mem hne)).resolve_right ?_⟩
  rcases h with ⟨hnever, -⟩ | ⟨before, failure, s, after, rfl, -, hs, hafter, -⟩
  · exact hnever _ (List.getLast_mem hne)
  · have hlast : (before ++ failure :: s :: after).getLast hne = (s :: after).getLast (List.cons_ne_nil _ _) := by
      rw [List.getLast_append_of_ne_nil _ (List.cons_ne_nil _ _), List.getLast_cons (List.cons_ne_nil _ _)]
    rw [hlast]
    rcases List.mem_cons.mp (List.getLast_mem (List.cons_ne_nil s after)) with heq | hmem
    · rw [heq, hs]
      exact fun hfailed => nomatch hfailed
    · exact hafter _ hmem

theorem returnedToBaseline_iff (name : String) :
    (probePost startedAtNs (name, own)).returnedToBaseline = true ↔ LastSucceeded own := by
  simp only [probePost, LastSucceeded, Option.any_eq_true, decide_eq_true_eq]

end

/-! ## Names that are apart -/

section

variable {probes : List Activity} {rounds : List (List ActivityResult)} {startedAtNs : Int}

theorem RoundOf.length {round : List ActivityResult} (h : RoundOf probes round) : round.length = probes.length := by
  simpa using congrArg List.length h.names

/-- With names that are apart the samples of a name in a round are the one of its probe. -/
theorem RoundOf.filter_name {round : List ActivityResult} (h : RoundOf probes round) (hnodup : (probes.map (·.name)).Nodup)
    {i : Nat} (hi : i < probes.length) : round.filter (·.name = probes[i].name) = round[i]?.toList := by
  have hlt : i < round.length := h.length ▸ hi
  have hname : round[i].name = probes[i].name := by
    have hsame := congrArg (·[i]?) h.names
    simpa [List.getElem?_eq_getElem hlt, List.getElem?_eq_getElem hi] using hsame
  rw [← hname, List.getElem?_eq_getElem hlt]
  exact Grouping.filter_key (h.names ▸ hnodup) (List.getElem?_eq_getElem hlt)

/-- With names that are apart the samples of a name are those of its probe (induction on the rounds). -/
theorem filter_flatten (hrounds : ∀ round ∈ rounds, RoundOf probes round) (hnodup : (probes.map (·.name)).Nodup) {i : Nat}
    (hi : i < probes.length) : rounds.flatten.filter (·.name = probes[i].name) = ownSamples rounds i := by
  induction rounds with
  | nil => rfl
  | cons round rounds ih =>
    rw [List.flatten_cons, List.filter_append, (hrounds round List.mem_cons_self).filter_name hnodup hi,
      ih fun r hr => hrounds r (List.mem_cons_of_mem _ hr), ownSamples, ownSamples, List.filterMap_cons]
    cases round[i]? <;> rfl

theorem mem_ownSamples (hrounds : ∀ round ∈ rounds, RoundOf probes round) {i : Nat} {s : ActivityResult}
    (hs : s ∈ ownSamples rounds i) :
    s.status = .succeeded ∨ s.status = .failed := by
  obtain ⟨round, hround, hget⟩ := List.mem_filterMap.mp hs
  exact (hrounds round hround).status s (List.mem_of_getElem? hget)

theorem ownSamples_ne_nil (hrounds : RoundsOf probes rounds) {i : Nat} (hi : i < probes.length) : ownSamples rounds i ≠ [] := by
  obtain ⟨round, rest, rfl⟩ := List.exists_cons_of_ne_nil hrounds.1
  have hlt : i < round.length := (hrounds.2 round List.mem_cons_self).length ▸ hi
  rw [ownSamples, List.filterMap_cons, List.getElem?_eq_getElem hlt]
  exact List.cons_ne_nil _ _

/-- With names that are apart the groups are those of the probes, each with its samples. -/
theorem mem_groups_iff {samples : ProbeSamples} (hrounds : RoundsOf probes rounds) (hnodup : (probes.map (·.name)).Nodup)
    (hsamples : samples.Perm (rounds.foldl appendRound [])) (name : String) (xs : List ActivityResult) :
    (name, xs) ∈ samples ↔ ∃ i, ∃ hi : i < probes.length, name = probes[i].name ∧ xs = ownSamples rounds i := by
  rw [hsamples.mem_iff, foldl_appendRound, (Grouping.groups_foldl ActivityResult.name rounds.flatten).mem]
  constructor
  · rintro ⟨hxs, hne⟩
    obtain ⟨s, hs⟩ := List.exists_mem_of_ne_nil xs hne
    rw [hxs, List.mem_filter, List.mem_flatten] at hs
    obtain ⟨⟨round, hround, hmem⟩, hname⟩ := hs
    have hprobe : name ∈ probes.map (·.name) := by
      rw [← (hrounds.2 round hround).names, ← of_decide_eq_true hname]
      exact List.mem_map_of_mem hmem
    obtain ⟨i, hi, rfl⟩ := List.getElem_of_mem hprobe
    rw [List.length_map] at hi
    rw [List.getElem_map] at hxs ⊢
    exact ⟨i, hi, rfl, hxs.trans (filter_flatten hrounds.2 hnodup hi)⟩
  · rintro ⟨i, hi, rfl, rfl⟩
    exact ⟨(filter_flatten hrounds.2 hnodup hi).symm, ownSamples_ne_nil hrounds hi⟩

end

/-! ## The result -/

theorem secondsOf_nonneg {ns : Int} : 0 ≤ secondsOf ns ↔ 0 ≤ ns := by
  rw [secondsOf, le_div_iff₀ (by norm_num), zero_mul, Int.cast_nonneg_iff]

theorem secondsOf_neg {ns : Int} : secondsOf ns < 0 ↔ ns < 0 := by
  rw [← not_le, secondsOf_nonneg, not_le]

theorem buildPostResult_some (startedAtNs endedAtNs : Int) {samples : ProbeSamples} (hne : samples ≠ []) :
    ∃ post, buildPostResult startedAtNs endedAtNs samples = some post ∧ post.probes = samples.map (probePost startedAtNs) ∧
      post.fullRecovery = post.probes.all (·.returnedToBaseline) ∧
      post.mttrS = if post.fullRecovery then some ((post.probes.map (·.recoveryTimeS)).foldl max 0) else none :=
  ⟨_, if_neg hne, rfl, rfl, rfl⟩

section

variable {probes : List Activity} {rounds : List (List ActivityResult)} {samples : ProbeSamples} {startedAtNs endedAtNs : Int}

/-- With names that are apart what is reported agrees with what is said, unless every probe recovered before the start. -/
theorem reportsRecovery_of_nodup (hprobes : probes ≠ []) (hnodup : (probes.map (·.name)).Nodup) (hrounds : RoundsOf probes rounds)
    (hsamples : samples.Perm (rounds.foldl appendRound [])) :
    ∃ post, buildPostResult startedAtNs endedAtNs samples = some post ∧
      (ReportsRecovery probes startedAtNs rounds post ↔ ¬ RecoveredBeforeStart probes startedAtNs rounds) := by
  have hgroups := mem_groups_iff hrounds hnodup hsamples
  have hpos : 0 < probes.length := List.length_pos_of_ne_nil hprobes
  have hne : samples ≠ [] := List.ne_nil_of_mem ((hgroups _ _).mpr ⟨0, hpos, rfl, rfl⟩)
  obtain ⟨post, hpost, hposts, hfull, hmttr⟩ := buildPostResult_some startedAtNs endedAtNs hne
  have hmem : ∀ p, p ∈ post.probes ↔
      ∃ i, ∃ hi : i < probes.length, p = probePost startedAtNs (probes[i].name, ownSamples rounds i) := by
    intro p
    rw [hposts, List.mem_map]
    constructor
    · rintro ⟨⟨name, xs⟩, hxs, rfl⟩
      obtain ⟨i, hi, rfl, rfl⟩ := (hgroups name xs).mp hxs
      exact ⟨i, hi, rfl⟩
    · rintro ⟨i, hi, rfl⟩
      exact ⟨_, (hgroups _ _).mpr ⟨i, hi, rfl, rfl⟩, rfl⟩
  have hstatus : ∀ i, ∀ s ∈ ownSamples rounds i, s.status = .succeeded ∨ s.status = .failed := fun i s hs =>
    mem_ownSamples hrounds.2 hs
  have hfull_iff : post.fullRecovery = true ↔ ∀ i < probes.length, LastSucceeded (ownSamples rounds i) := by
    rw [hfull, List.all_eq_true]
    constructor
    · exact fun h i hi => (returnedToBaseline_iff _).mp (h _ ((hmem _).mpr ⟨i, hi, rfl⟩))
    · intro h p hp
      obtain ⟨i, hi, rfl⟩ := (hmem p).mp hp
      exact (returnedToBaseline_iff _).mpr (h i hi)
  have hmarked : ∀ i (hi : i < probes.length), ∀ ns, RecoveryPoint startedAtNs (ownSamples rounds i) ns →
      ∃ p ∈ post.probes, p.name = probes[i].name ∧ p.recoveryTimeS = secondsOf ns := fun i hi ns hns =>
    ⟨_, (hmem _).mpr ⟨i, hi, rfl⟩, rfl, recoveryTimeS_of_point hns⟩
  have hsome : post.mttrS.isSome = post.fullRecovery := by
    rw [hmttr]
    cases post.fullRecovery <;> rfl
  obtain ⟨hchoice, hleast, hmost⟩ := OrdMap.foldl_max_spec (post.probes.map (·.recoveryTimeS)) 0
  refine ⟨post, hpost, fun hreports hbefore => ?_, fun hclock => ⟨hmarked, hfull_iff, hsome, fun t ht => ?_⟩⟩
  · -- all recovered before the start: then the time is 0, which is none of their points
    have hall : post.fullRecovery = true := hfull_iff.mpr fun i hi => by
      obtain ⟨ns, -, hns⟩ := hbefore i hi
      exact lastSucceeded_of_point (hstatus i) (ownSamples_ne_nil hrounds hi) hns
    obtain ⟨⟨i, hi, ns, hns, ht⟩, -⟩ := hreports.latest _ (by rw [hmttr, if_pos hall])
    obtain ⟨ns', hneg, hns'⟩ := hbefore i hi
    have hsame : secondsOf ns = secondsOf ns' := (recoveryTimeS_of_point hns).symm.trans (recoveryTimeS_of_point hns')
    rw [ht, hsame] at hleast
    exact absurd (secondsOf_neg.mpr hneg) (not_lt.mpr hleast)
  · have hall : post.fullRecovery = true := by
      rw [← hsome, ht]
      rfl
    rw [hmttr, if_pos hall] at ht
    obtain rfl := Option.some.inj ht
    have hpoint : ∀ i < probes.length, ∃ ns, RecoveryPoint startedAtNs (ownSamples rounds i) ns := fun i hi =>
      exists_point (hstatus i) (hfull_iff.mp hall i hi)
    refine ⟨?_, fun i hi ns hns => ?_⟩
    · rcases hchoice with hzero | hchosen
      · -- a probe that did not recover before the start has the point 0
        simp only [RecoveredBeforeStart, not_forall] at hclock
        obtain ⟨i, hi, hlate⟩ := hclock
        obtain ⟨ns, hns⟩ := hpoint i hi
        obtain ⟨p, hp, -, htime⟩ := hmarked i hi ns hns
        refine ⟨i, hi, ns, hns, ?_⟩
        have hle := hmost _ (List.mem_map_of_mem hp)
        have hge : 0 ≤ secondsOf ns := secondsOf_nonneg.mpr (not_lt.mp fun hneg => hlate ⟨ns, hneg, hns⟩)
        rw [hzero] at hle ⊢
        exact le_antisymm hge (htime ▸ hle)
      · obtain ⟨p, hp, htime⟩ := List.mem_map.mp hchosen
        obtain ⟨i, hi, rfl⟩ := (hmem p).mp hp
        obtain ⟨ns, hns⟩ := hpoint i hi
        exact ⟨i, hi, ns, hns, htime.symm.trans (recoveryTimeS_of_point hns)⟩
    · obtain ⟨p, hp, -, htime⟩ := hmarked i hi ns hns
      exact htime ▸ hmost _ (List.mem_map_of_mem hp)

end

/-! ## Names that are not apart -/

/-- A sample of a probe at a time. -/
def sampleOf (status : ActivityStatus) (ns : Int) (probe : Activity) : ActivityResult where
  name := probe.name
  activityType := .probe
  status := status
  startedAtNs := ns
  durationMs := 0
  output := none
  error := none

/-- Of names that are not apart one comes again. -/
theorem exists_again {probes : List Activity} (h : ¬ (probes.map (·.name)).Nodup) :
    ∃ before probe after, probes = before ++ probe :: after ∧ probe.name ∈ after.map (·.name) := by
  induction probes with
  | nil => exact absurd List.nodup_nil h
  | cons p probes ih =>
    by_cases hp : p.name ∈ probes.map (·.name)
    · exact ⟨[], p, probes, rfl, hp⟩
    · have hrest : ¬ (probes.map (·.name)).Nodup := fun hnodup => h (List.nodup_cons.mpr ⟨hp, hnodup⟩)
      obtain ⟨before, probe, after, rfl, hagain⟩ := ih hrest
      exact ⟨p :: before, probe, after, rfl, hagain⟩

/-- A round in which one probe fails and the others succeed. -/
def failingRound (startedAtNs : Int) (before : List Activity) (probe : Activity) (after : List Activity) : List ActivityResult :=
  before.map (sampleOf .succeeded startedAtNs) ++
    sampleOf .failed startedAtNs probe :: after.map (sampleOf .succeeded startedAtNs)

section

variable {startedAtNs endedAtNs : Int} {before after : List Activity} {probe : Activity}

theorem roundOf_failingRound (startedAtNs : Int) (before : List Activity) (probe : Activity) (after : List Activity) :
    RoundOf (before ++ probe :: after) (failingRound startedAtNs before probe after) := by
  refine ⟨?_, fun s hs => ?_⟩
  · simp [failingRound, sampleOf, Function.comp_def]
  · rcases List.mem_append.mp hs with hs | hs
    · obtain ⟨p, -, rfl⟩ := List.mem_map.mp hs
      exact .inl rfl
    · rcases List.mem_cons.mp hs with rfl | hs
      · exact .inr rfl
      · obtain ⟨p, -, rfl⟩ := List.mem_map.mp hs
        exact .inl rfl

/-- A later probe of the same name covers the failure: the group of every name ends in a success. -/
theorem lastSucceeded_group (hagain : probe.name ∈ after.map (·.name)) {name : String} {xs : List ActivityResult}
    (hxs : xs = (failingRound startedAtNs before probe after).filter (·.name = name)) (hne : xs ≠ []) : LastSucceeded xs := by
  have hgood : ∀ ps : List Activity, ∀ s ∈ (ps.map (sampleOf .succeeded startedAtNs)).filter (·.name = name),
      s.status = .succeeded := by
    intro ps s hs
    obtain ⟨p, -, rfl⟩ := List.mem_map.mp (List.mem_of_mem_filter hs)
    rfl
  have hlast : ∀ ys zs : List ActivityResult, xs = ys ++ zs → zs ≠ [] → (∀ s ∈ zs, s.status = .succeeded) → LastSucceeded xs := by
    rintro ys zs rfl hzs hall
    refine ⟨zs.getLast hzs, ?_, hall _ (List.getLast_mem hzs)⟩
    rw [List.getLast?_append_of_ne_nil _ hzs, List.getLast?_eq_some_getLast hzs]
  rw [failingRound, List.filter_append] at hxs
  by_cases hname : probe.name = name
  · obtain ⟨p, hp, hsame⟩ := List.mem_map.mp hagain
    have hfails : (fun s : ActivityResult => decide (s.name = name)) (sampleOf .failed startedAtNs probe) = true :=
      decide_eq_true hname
    rw [List.filter_cons_of_pos (p := fun s : ActivityResult => decide (s.name = name)) hfails, List.append_cons] at hxs
    refine hlast _ _ hxs (List.ne_nil_of_mem (List.mem_filter.mpr ⟨List.mem_map_of_mem hp, ?_⟩)) (hgood after)
    exact decide_eq_true (hsame.trans hname)
  · have hfails : ¬ (fun s : ActivityResult => decide (s.name = name)) (sampleOf .failed startedAtNs probe) = true :=
      mt of_decide_eq_true hname
    rw [List.filter_cons_of_neg (p := fun s : ActivityResult => decide (s.name = name)) hfails] at hxs
    refine hlast [] xs rfl hne fun s hs => ?_
    rw [hxs] at hs
    exact (List.mem_append.mp hs).elim (hgood before s) (hgood after s)

/-- In such a round the probe that fails has no recovery point, and a full recovery is reported. -/
theorem not_reportsRecovery_failingRound (hagain : probe.name ∈ after.map (·.name)) :
    ¬ ((∃ post,
        buildPostResult startedAtNs endedAtNs ([failingRound startedAtNs before probe after].foldl appendRound []) = some post ∧
        ReportsRecovery (before ++ probe :: after) startedAtNs [failingRound startedAtNs before probe after] post) ↔
      ¬ RecoveredBeforeStart (before ++ probe :: after) startedAtNs [failingRound startedAtNs before probe after]) := by
  have hgroups := Grouping.groups_foldl ActivityResult.name (failingRound startedAtNs before probe after)
  have hi : before.length < (before ++ probe :: after).length := by simp
  have hown : ownSamples [failingRound startedAtNs before probe after] before.length = [sampleOf .failed startedAtNs probe] := by
    simp [ownSamples, failingRound]
  have hfailed : ¬ LastSucceeded (ownSamples [failingRound startedAtNs before probe after] before.length) := by
    rintro ⟨s, hs, hsucceeded⟩
    rw [hown] at hs
    obtain rfl := Option.some.inj hs
    nomatch hsucceeded
  have hpoint : ¬ RecoveredBeforeStart (before ++ probe :: after) startedAtNs [failingRound startedAtNs before probe after] := by
    intro hbefore
    obtain ⟨ns, -, hns⟩ := hbefore _ hi
    refine hfailed (lastSucceeded_of_point (fun s hs => ?_) (by rw [hown]; exact List.cons_ne_nil _ _) hns)
    rw [hown, List.mem_singleton] at hs
    exact hs ▸ .inr rfl
  intro hclaim
  obtain ⟨post, hpost, hreports⟩ := hclaim.mpr hpoint
  refine hfailed (hreports.full.mp ?_ _ hi)
  have hne : ([failingRound startedAtNs before probe after].foldl appendRound []) ≠ [] := by
    intro hnil
    rw [hnil] at hpost
    nomatch hpost
  obtain ⟨post', hpost', hposts, hfull, -⟩ := buildPostResult_some startedAtNs endedAtNs hne
  obtain rfl := Option.some.inj (hpost.symm.trans hpost')
  rw [hfull, hposts, List.all_map, List.all_eq_true]
  rintro ⟨name, xs⟩ hmem
  obtain ⟨hxs, hxs'⟩ := (hgroups.mem name xs).mp hmem
  exact (returnedToBaseline_iff name).mpr (lastSucceeded_group hagain hxs hxs')

end

/-- What is reported of the recovery agrees with what is said of the probes in every run in which not every probe recovered before
the start of the phase, exactly when the names of the probes are apart. -/
theorem reportsRecovery_iff (probes : List Activity) (hprobes : probes ≠ []) (startedAtNs endedAtNs : Int) :
    (∀ rounds samples, RoundsOf probes rounds → samples.Perm (rounds.foldl appendRound []) →
      ((∃ post, buildPostResult startedAtNs endedAtNs samples = some post ∧ ReportsRecovery probes startedAtNs rounds post) ↔
        ¬ RecoveredBeforeStart probes startedAtNs rounds)) ↔
      (probes.map (·.name)).Nodup := by
  constructor
  · intro hclaim
    by_contra hnodup
    obtain ⟨before, probe, after, rfl, hagain⟩ := exists_again hnodup
    have hround := roundOf_failingRound startedAtNs before probe after
    refine not_reportsRecovery_failingRound hagain (hclaim _ _ ⟨List.cons_ne_nil _ [], fun round hmem => ?_⟩ (.refl _))
    exact List.mem_singleton.mp hmem ▸ hround
  · intro hnodup rounds samples hrounds hsamples
    obtain ⟨post, hpost, hiff⟩ := reportsRecovery_of_nodup hprobes hnodup hrounds hsamples
    rw [← hiff]
    constructor
    · rintro ⟨post', hpost', hreports⟩
      exact Option.some.inj (hpost.symm.trans hpost') ▸ hreports
    · exact fun hreports => ⟨post, hpost, hreports⟩

/-- A probe of the database. -/
def dbProbe : Activity where
  name := "db"
  activityType := .probe
  provider := .process "pg_isready" [] [] none

/-- Two rounds of it: it fails, and recovers. -/
def dbRounds : List (List ActivityResult) := [[sampleOf .failed 2 dbProbe], [sampleOf .succeeded 5 dbProbe]]

theorem reportsRecovery_iff_dbProbe :
    (∃ post, buildPostResult 0 9 (dbRounds.foldl appendRound []) = some post ∧ ReportsRecovery [dbProbe] 0 dbRounds post) ↔
      ¬ RecoveredBeforeStart [dbProbe] 0 dbRounds := by
  refine (reportsRecovery_iff [dbProbe] (List.cons_ne_nil _ _) 0 9).mpr (List.nodup_singleton _) _ _ ⟨List.cons_ne_nil _ _, ?_⟩
    (.refl _)
  intro round hround
  rcases List.mem_cons.mp hround with rfl | hround
  · exact ⟨rfl, fun s hs => .inr (List.mem_singleton.mp hs ▸ rfl)⟩
  · obtain rfl := List.mem_singleton.mp hround
    exact ⟨rfl, fun s hs => .inl (List.mem_singleton.mp hs ▸ rfl)⟩

/-- Of two probes of one name the first fails and the second succeeds: a full recovery is reported. -/
theorem reportsRecovery_false :
    ¬ ∀ (probes : List Activity) (startedAtNs endedAtNs : Int) (rounds : List (List ActivityResult)), probes ≠ [] →
      RoundsOf probes rounds → ∃ post, buildPostResult startedAtNs endedAtNs (rounds.foldl appendRound []) = some post ∧
        ReportsRecovery probes startedAtNs rounds post := by
  intro hclaim
  have hround := roundOf_failingRound 0 [] dbProbe [dbProbe]
  obtain ⟨post, hpost, hreports⟩ := hclaim [dbProbe, dbProbe] 0 1 [failingRound 0 [] dbProbe [dbProbe]] (List.cons_ne_nil _ _)
    ⟨List.cons_ne_nil _ _, fun round hmem => List.mem_singleton.mp hmem ▸ hround⟩
  have hfull : (buildPostResult 0 1 ([failingRound 0 [] dbProbe [dbProbe]].foldl appendRound [])).map (·.fullRecovery) =
      some true := by decide
  rw [hpost] at hfull
  obtain ⟨s, hs, hsucceeded⟩ := hreports.full.mp (Option.some.inj hfull) 0 (by decide)
  have hfirst : (ownSamples [failingRound 0 [] dbProbe [dbProbe]] 0).getLast? = some (sampleOf .failed 0 dbProbe) := by decide
  rw [hfirst] at hs
  obtain rfl := Option.some.inj hs
  nomatch hsucceeded

end Tumult.Phases
