import Tumult.Graph.Lineage

/-!
# What the indices of the lineage hold

Each index is told by the edges alone, in whatever order they came: the edges of a run, its time, the evidence it has, the latest
run of an experiment on a cell.
-/

namespace Tumult

/-- A run has an edge. -/
def HasEdge (edges : List EdgeRecord) (runId src rel dst : String) : Prop :=
  ∃ e ∈ edges, e.runId = runId ∧ e.src = src ∧ e.rel = rel ∧ e.dst = dst

variable {edges edges' : List EdgeRecord} {runId exp article service : String}

/-- In one run the experiment maps the article and targets the service. -/
def Covers (edges : List EdgeRecord) (exp article service runId : String) : Prop :=
  HasEdge edges runId exp "maps_to_compliance" article ∧ HasEdge edges runId exp "targets" service

/-- The time the index gives a run: that of its latest edge, but not before the epoch. -/
def runTime (edges : List EdgeRecord) (runId : String) : Int :=
  ((edges.filter (·.runId = runId)).map (·.ts)).foldl max 0

/-- No two edges have the same run, source, relation and destination. -/
def UniqueEdges (edges : List EdgeRecord) : Prop := (edges.map fun e => (e.runId, e.src, e.rel, e.dst)).Nodup

instance : Decidable (UniqueEdges edges) := inferInstanceAs (Decidable (List.Nodup _))


theorem HasEdge.perm (h : edges.Perm edges') {src rel dst : String} : HasEdge edges runId src rel dst ↔ HasEdge edges' runId src rel dst := by
  simp only [HasEdge, h.mem_iff]

theorem Covers.perm (h : edges.Perm edges') : Covers edges exp article service runId ↔ Covers edges' exp article service runId :=
  and_congr (HasEdge.perm h) (HasEdge.perm h)

theorem runTime_perm (h : edges.Perm edges') : runTime edges runId = runTime edges' runId := ((h.filter _).map _).foldl_eq 0

theorem UniqueEdges.eq {e e' : EdgeRecord} (h : UniqueEdges edges) (he : e ∈ edges) (he' : e' ∈ edges) (hrun : e.runId = e'.runId)
    (hsrc : e.src = e'.src) (hrel : e.rel = e'.rel) (hdst : e.dst = e'.dst) : e = e' :=
  List.inj_on_of_nodup_map h he he' (by rw [hrun, hsrc, hrel, hdst])

/-! ## The runs -/

/-- The index of a run's own edges. -/
def runOf (es : List EdgeRecord) : RunEdges := es.foldl (fun run e => run.add e) {}

theorem foldl_add_some (es : List EdgeRecord) (run : RunEdges) :
    es.foldl (fun o e => some (RunEdges.add e (o.getD {}))) (some run) = some (es.foldl (fun run e => run.add e) run) := by
  induction es generalizing run with
  | nil => rfl
  | cons e es ih => exact ih _

/-- A run is indexed when it has an edge. -/
theorem indexRuns_get? : (indexRuns edges).get? runId =
    if edges.filter (·.runId = runId) = [] then none else some (runOf (edges.filter (·.runId = runId))) := by
  have hfold := OrdMap.get?_foldl_alter (fun e : EdgeRecord => e.runId) (fun e run => RunEdges.add e (run.getD {})) edges .empty runId
  unfold indexRuns
  rw [hfold, OrdMap.get?_empty]
  cases edges.filter (·.runId = runId) with
  | nil => rfl
  | cons e es =>
    rw [if_neg (List.cons_ne_nil e es)]
    exact foldl_add_some es _

section Fields

variable (e : EdgeRecord) (es : List EdgeRecord) (run : RunEdges)

theorem add_ts : (run.add e).ts = max run.ts e.ts := by
  unfold RunEdges.add
  split_ifs <;> rfl

/-- What an edge of a relation adds; an edge of another one adds nothing. -/
theorem add_maps : (run.add e).maps = run.maps ++ if e.rel = "maps_to_compliance" then [(e.src, e.dst)] else [] := by
  unfold RunEdges.add
  split_ifs <;> simp

theorem add_targets : (run.add e).targets = run.targets ++ if e.rel = "targets" then [(e.src, e.dst)] else [] := by
  unfold RunEdges.add
  split_ifs with h1 <;> simp_all

theorem add_deviations : (run.add e).deviations = run.deviations ++ if e.rel = "exhibited" then [e.dst] else [] := by
  unfold RunEdges.add
  split_ifs with h1 h2 h3 <;> simp_all

theorem add_evidences : (run.add e).evidences =
    if e.rel = "evidences" then run.evidences.alter (toLex (e.src, e.dst)) fun _ => e.attrs else run.evidences := by
  unfold RunEdges.add
  split_ifs with h1 h2 <;> simp_all

theorem foldl_add_ts : (es.foldl (fun run e => run.add e) run).ts = (es.map (·.ts)).foldl max run.ts := by
  induction es generalizing run with
  | nil => rfl
  | cons e es ih => rw [List.foldl_cons, ih, add_ts, List.map_cons, List.foldl_cons]

theorem foldl_add_maps : (es.foldl (fun run e => run.add e) run).maps =
    run.maps ++ (es.filter (·.rel = "maps_to_compliance")).map fun e => (e.src, e.dst) := by
  induction es generalizing run with
  | nil => simp
  | cons e es ih =>
    rw [List.foldl_cons, ih, add_maps]
    by_cases h : e.rel = "maps_to_compliance" <;> simp [h]

theorem foldl_add_targets : (es.foldl (fun run e => run.add e) run).targets =
    run.targets ++ (es.filter (·.rel = "targets")).map fun e => (e.src, e.dst) := by
  induction es generalizing run with
  | nil => simp
  | cons e es ih =>
    rw [List.foldl_cons, ih, add_targets]
    by_cases h : e.rel = "targets" <;> simp [h]

theorem foldl_add_deviations : (es.foldl (fun run e => run.add e) run).deviations =
    run.deviations ++ (es.filter (·.rel = "exhibited")).map (·.dst) := by
  induction es generalizing run with
  | nil => simp
  | cons e es ih =>
    rw [List.foldl_cons, ih, add_deviations]
    by_cases h : e.rel = "exhibited" <;> simp [h]

theorem foldl_add_evidences : (es.foldl (fun run e => run.add e) run).evidences =
    (es.filter (·.rel = "evidences")).foldl (fun m e => m.alter (toLex (e.src, e.dst)) fun _ => e.attrs) run.evidences := by
  induction es generalizing run with
  | nil => rfl
  | cons e es ih =>
    rw [List.foldl_cons, ih, add_evidences]
    by_cases h : e.rel = "evidences" <;> simp [h]

end Fields

/-- What is put last stays. -/
theorem foldl_some_mem {α β : Type} (g : α → β) (as : List α) (o : Option β) {b : β}
    (h : as.foldl (fun _ a => some (g a)) o = some b) : (∃ a ∈ as, g a = b) ∨ o = some b ∧ as = [] := by
  induction as generalizing o with
  | nil => exact .inr ⟨h, rfl⟩
  | cons a as ih =>
    rcases ih _ h with ⟨a', ha', hb⟩ | ⟨ha, rfl⟩
    · exact .inl ⟨a', List.mem_cons_of_mem _ ha', hb⟩
    · exact .inl ⟨a, List.mem_cons_self, Option.some.inj ha⟩

/-- The evidence of a run: the attributes of the one edge that gives it. -/
theorem evidences_get? (h : UniqueEdges edges) {attrs : String} :
    ((indexRuns edges).get? runId).bind (·.evidences.get? (toLex (exp, article))) = some attrs ↔
      ∃ e ∈ edges, e.runId = runId ∧ e.src = exp ∧ e.rel = "evidences" ∧ e.dst = article ∧ e.attrs = attrs := by
  have hmem : ∀ e, e ∈ ((edges.filter (·.runId = runId)).filter (·.rel = "evidences")).filter
        (fun e => toLex (e.src, e.dst) = toLex (exp, article)) ↔
      e ∈ edges ∧ e.runId = runId ∧ e.src = exp ∧ e.rel = "evidences" ∧ e.dst = article := by
    intro e
    simp only [List.mem_filter, decide_eq_true_eq, toLex_inj, Prod.mk.injEq]
    tauto
  have hget : (runOf (edges.filter (·.runId = runId))).evidences.get? (toLex (exp, article)) =
      (((edges.filter (·.runId = runId)).filter (·.rel = "evidences")).filter
        (fun e => toLex (e.src, e.dst) = toLex (exp, article))).foldl (fun _ e => some e.attrs) none := by
    unfold runOf
    rw [foldl_add_evidences]
    exact OrdMap.get?_foldl_alter (fun e : EdgeRecord => toLex (e.src, e.dst)) (fun e _ => e.attrs) _ .empty _
  have hempty : edges.filter (·.runId = runId) = [] → ((edges.filter (·.runId = runId)).filter (·.rel = "evidences")).filter
        (fun e => toLex (e.src, e.dst) = toLex (exp, article)) = [] := by
    intro h
    rw [h]
    rfl
  have hbind : ((indexRuns edges).get? runId).bind (·.evidences.get? (toLex (exp, article))) =
      (((edges.filter (·.runId = runId)).filter (·.rel = "evidences")).filter
        (fun e => toLex (e.src, e.dst) = toLex (exp, article))).foldl (fun _ e => some e.attrs) none := by
    rw [indexRuns_get?]
    split
    · next hnil =>
      rw [hempty hnil]
      rfl
    · exact hget
  rw [hbind]
  constructor
  · intro hfold
    rcases foldl_some_mem _ _ _ hfold with ⟨e, he, hattrs⟩ | ⟨hnone, -⟩
    · obtain ⟨he, hrun, hsrc, hrel, hdst⟩ := (hmem e).mp he
      exact ⟨e, he, hrun, hsrc, hrel, hdst, hattrs⟩
    · cases hnone
  · rintro ⟨e, he, hrun, hsrc, hrel, hdst, rfl⟩
    have hin := (hmem e).mpr ⟨he, hrun, hsrc, hrel, hdst⟩
    cases hfold : (((edges.filter (·.runId = runId)).filter (·.rel = "evidences")).filter
        (fun e => toLex (e.src, e.dst) = toLex (exp, article))).foldl (fun _ e => some e.attrs) none with
    | none =>
      exfalso
      generalize (((edges.filter (·.runId = runId)).filter (·.rel = "evidences")).filter
        (fun e => toLex (e.src, e.dst) = toLex (exp, article))) = l at hin hfold
      have hsome : ∀ (as : List EdgeRecord) (o : Option String), o.isSome ∨ as ≠ [] →
          (as.foldl (fun _ e => some e.attrs) o).isSome := by
        intro as
        induction as with
        | nil => exact fun o ho => ho.resolve_right (fun h => h rfl)
        | cons a as ih => exact fun o _ => ih _ (.inl rfl)
      have := hsome l none (.inr (List.ne_nil_of_mem hin))
      rw [hfold] at this
      cases this
    | some attrs =>
      rcases foldl_some_mem _ _ _ hfold with ⟨e', he', rfl⟩ | ⟨hnone, -⟩
      · obtain ⟨he', hrun', hsrc', hrel', hdst'⟩ := (hmem e').mp he'
        rw [h.eq he' he (hrun'.trans hrun.symm) (hsrc'.trans hsrc.symm) (hrel'.trans hrel.symm) (hdst'.trans hdst.symm)]
      · cases hnone

/-- The deviations of a run, as far as its least one is asked for. -/
theorem deviations_min?_perm (h : edges.Perm edges') :
    ((indexRuns edges).get? runId).bind (·.deviations.min?) = ((indexRuns edges').get? runId).bind (·.deviations.min?) := by
  have hfilter := h.filter (·.runId = runId)
  have hmin : (runOf (edges.filter (·.runId = runId))).deviations.min? = (runOf (edges'.filter (·.runId = runId))).deviations.min? := by
    have hperm : (runOf (edges.filter (·.runId = runId))).deviations.Perm (runOf (edges'.filter (·.runId = runId))).deviations := by
      unfold runOf
      rw [foldl_add_deviations, foldl_add_deviations]
      exact ((hfilter.filter _).map _).append_left _
    refine Option.ext fun d => ?_
    rw [List.min?_eq_some_iff, List.min?_eq_some_iff]
    simp only [hperm.mem_iff]
  rw [indexRuns_get?, indexRuns_get?]
  by_cases hnil : edges.filter (·.runId = runId) = []
  · have hnil' : edges'.filter (·.runId = runId) = [] := (hnil ▸ hfilter).nil_eq.symm
    rw [if_pos hnil, if_pos hnil']
  · have hnil' : ¬ edges'.filter (·.runId = runId) = [] := fun h' => hnil (h' ▸ hfilter).eq_nil
    rw [if_neg hnil, if_neg hnil']
    exact hmin

theorem indexCausedBy_perm (h : edges.Perm edges') : indexCausedBy edges = indexCausedBy edges' := by
  have hitems : ∀ edges : List EdgeRecord, indexCausedBy edges =
      ((edges.filter (·.rel = "caused_by")).map fun e => (e.src, OrderDual.toDual e.dst)).foldl
        (fun m p => m.insertMax p.1 p.2) .empty := by
    intro edges
    rw [List.foldl_map]
    rfl
  rw [hitems, hitems]
  exact OrdMap.foldl_insertMax_ext fun p => ((h.filter _).map _).mem_iff

/-! ## The latest runs -/

section Latest

variable {framework control : Option String}

/-- What the three loops go through. -/
def candidates (runs : OrdMap String RunEdges) (framework control : Option String) :
    List ((String ×ₗ String ×ₗ String) × RunKey) :=
  runs.entries.flatMap fun (runId, run) =>
    run.maps.flatMap fun (exp, article) =>
      if !articleInScope article framework control then []
      else (run.targets.filter (·.1 = exp)).map fun target =>
        (toLex (exp, toLex (article, target.2)), toLex (run.ts, runId))

theorem latestRuns_eq (runs : OrdMap String RunEdges) :
    latestRuns runs framework control = (candidates runs framework control).foldl (fun m p => m.insertMax p.1 p.2) .empty := by
  unfold latestRuns candidates
  rw [List.foldl_flatMap]
  congr 1
  funext latest ⟨runId, run⟩
  dsimp only
  rw [List.foldl_flatMap]
  congr 1
  funext latest ⟨exp, article⟩
  dsimp only
  split
  · rfl
  · rw [List.foldl_map, List.foldl_filter]
    congr 1
    funext latest ⟨targetExp, service⟩
    by_cases h : targetExp = exp <;> simp [h]

theorem mem_candidates {t : Int} :
    (toLex (exp, toLex (article, service)), toLex (t, runId)) ∈ candidates (indexRuns edges) framework control ↔
      articleInScope article framework control = true ∧ Covers edges exp article service runId ∧ t = runTime edges runId := by
  have hmaps : ∀ es : List EdgeRecord, (runOf es).maps = (es.filter (·.rel = "maps_to_compliance")).map fun e => (e.src, e.dst) :=
    fun es => by unfold runOf; rw [foldl_add_maps]; rfl
  have htargets : ∀ es : List EdgeRecord, (runOf es).targets = (es.filter (·.rel = "targets")).map fun e => (e.src, e.dst) :=
    fun es => by unfold runOf; rw [foldl_add_targets]; rfl
  have hts : ∀ runId, (runOf (edges.filter (·.runId = runId))).ts = runTime edges runId :=
    fun runId => by unfold runOf; rw [foldl_add_ts]; rfl
  have hrun : ∀ runId run, (indexRuns edges).get? runId = some run →
      run = runOf (edges.filter (·.runId = runId)) := by
    intro runId run h
    rw [indexRuns_get?] at h
    split at h
    · cases h
    · exact (Option.some.inj h).symm
  unfold candidates
  simp only [List.mem_flatMap, Prod.exists, OrdMap.mem_entries_iff]
  constructor
  · rintro ⟨runId', run, hget, exp', article', hm, hmem⟩
    obtain rfl := hrun runId' run hget
    split at hmem
    · cases hmem
    · next hscope =>
      obtain ⟨⟨exp'', service'⟩, hin, heq⟩ := List.mem_map.mp hmem
      obtain ⟨htarget, hexp⟩ := List.mem_filter.mp hin
      obtain rfl : exp'' = exp' := by simpa using hexp
      obtain ⟨hkey, htime⟩ := Prod.mk.inj heq
      obtain ⟨rfl, hpair⟩ := Prod.mk.inj (toLex_inj.mp hkey)
      obtain ⟨rfl, rfl⟩ := Prod.mk.inj (toLex_inj.mp hpair)
      obtain ⟨rfl, rfl⟩ := Prod.mk.inj (toLex_inj.mp htime)
      rw [hmaps] at hm
      rw [htargets] at htarget
      refine ⟨by simpa using hscope, ⟨?_, ?_⟩, hts runId'⟩
      · obtain ⟨e, he, heq⟩ := List.mem_map.mp hm
        obtain ⟨rfl, rfl⟩ := Prod.mk.inj heq
        simp only [List.mem_filter, decide_eq_true_eq] at he
        exact ⟨e, he.1.1, he.1.2, rfl, he.2, rfl⟩
      · obtain ⟨e, he, heq⟩ := List.mem_map.mp htarget
        obtain ⟨rfl, rfl⟩ := Prod.mk.inj heq
        simp only [List.mem_filter, decide_eq_true_eq] at he
        exact ⟨e, he.1.1, he.1.2, rfl, he.2, rfl⟩
  · rintro ⟨hscope, ⟨⟨e, he, hrun', rfl, hrel, rfl⟩, ⟨e', he', hrun'', hsrc, hrel', rfl⟩⟩, rfl⟩
    have hin : ∀ {e : EdgeRecord} {rel : String}, e ∈ edges → e.runId = runId → e.rel = rel →
        e ∈ (edges.filter (·.runId = runId)).filter (·.rel = rel) := fun he hrun hrel =>
      List.mem_filter.mpr ⟨List.mem_filter.mpr ⟨he, by simpa using hrun⟩, by simpa using hrel⟩
    refine ⟨runId, runOf (edges.filter (·.runId = runId)), ?_, e.src, e.dst, ?_, ?_⟩
    · rw [indexRuns_get?, if_neg]
      exact List.ne_nil_of_mem (List.mem_filter.mpr ⟨he, by simpa using hrun'⟩)
    · rw [hmaps]
      exact List.mem_map.mpr ⟨e, hin he hrun' hrel, rfl⟩
    · rw [hscope]
      refine List.mem_map.mpr ⟨(e.src, e'.dst), ?_, by rw [hts]⟩
      rw [htargets]
      refine List.mem_filter.mpr ⟨List.mem_map.mpr ⟨e', hin he' hrun'' hrel', by rw [hsrc]⟩, by simp⟩

/-- The latest run of an experiment on a cell. -/
theorem latestRuns_get? {t : Int} :
    (latestRuns (indexRuns edges) framework control).get? (toLex (exp, toLex (article, service))) = some (toLex (t, runId)) ↔
      articleInScope article framework control = true ∧
        (Covers edges exp article service runId ∧ t = runTime edges runId) ∧
        ∀ r, Covers edges exp article service r → toLex (runTime edges r, r) ≤ toLex (t, runId) := by
  rw [latestRuns_eq, OrdMap.get?_foldl_insertMax, mem_candidates, and_assoc]
  refine and_congr_right fun hscope => and_congr_right fun _ => ?_
  constructor
  · exact fun h r hcovers => h _ (mem_candidates.mpr ⟨hscope, hcovers, rfl⟩)
  · rintro h ⟨t', r⟩ hmem
    obtain ⟨-, hcovers, rfl⟩ := mem_candidates.mp hmem
    exact h r hcovers

theorem latestRuns_isSome :
    ((latestRuns (indexRuns edges) framework control).get? (toLex (exp, toLex (article, service)))).isSome ↔
      articleInScope article framework control = true ∧ ∃ runId, Covers edges exp article service runId := by
  rw [latestRuns_eq, OrdMap.get?_foldl_insertMax_isSome]
  constructor
  · rintro ⟨⟨t, runId⟩, hmem⟩
    obtain ⟨hscope, hcovers, -⟩ := mem_candidates.mp hmem
    exact ⟨hscope, runId, hcovers⟩
  · rintro ⟨hscope, runId, hcovers⟩
    exact ⟨_, mem_candidates.mpr ⟨hscope, hcovers, rfl⟩⟩

theorem latestRuns_perm (h : edges.Perm edges') :
    latestRuns (indexRuns edges) framework control = latestRuns (indexRuns edges') framework control := by
  rw [latestRuns_eq, latestRuns_eq]
  refine OrdMap.foldl_insertMax_ext fun ⟨⟨exp, article, service⟩, t, runId⟩ => ?_
  exact mem_candidates.trans (Iff.trans (by rw [Covers.perm h, runTime_perm h]) mem_candidates.symm)

/-- The entries of a cell: the latest run of each experiment that covers it. -/
theorem mem_groupCells {latest : OrdMap (String ×ₗ String ×ₗ String) RunKey} {pair : String ×ₗ String} {entry : CellEntry} :
    entry ∈ ((groupCells latest).get? pair).getD [] ↔ latest.get? (toLex (entry.1, pair)) = some entry.2 := by
  have hfold : ∀ (es : List ((String ×ₗ String ×ₗ String) × RunKey)) (o : Option (List CellEntry)),
      (es.foldl (fun o e => some (o.getD [] ++ [((ofLex e.1).1, e.2)])) o).getD [] =
        o.getD [] ++ es.map fun e => ((ofLex e.1).1, e.2) := by
    intro es
    induction es with
    | nil => simp
    | cons e es ih =>
      intro o
      rw [List.foldl_cons, ih]
      simp
  have hget := OrdMap.get?_foldl_alter (fun e : (String ×ₗ String ×ₗ String) × RunKey => (ofLex e.1).2)
    (fun e entries => entries.getD [] ++ [((ofLex e.1).1, e.2)]) latest.entries (.empty : OrdMap _ (List CellEntry)) pair
  have hcells : (groupCells latest).get? pair = _ := hget
  rw [hcells, hfold]
  simp only [OrdMap.get?_empty, Option.getD_none, List.nil_append, List.mem_map, List.mem_filter, decide_eq_true_eq]
  rw [← OrdMap.mem_entries_iff]
  constructor
  · rintro ⟨⟨key, run⟩, ⟨hmem, rfl⟩, rfl⟩
    exact hmem
  · exact fun hmem => ⟨_, ⟨hmem, rfl⟩, rfl⟩

/-- A cell is covered when an experiment has a latest run on it. -/
theorem groupCells_isSome {latest : OrdMap (String ×ₗ String ×ₗ String) RunKey} {pair : String ×ₗ String} :
    ((groupCells latest).get? pair).isSome ↔ ∃ exp, (latest.get? (toLex (exp, pair))).isSome := by
  have hfold : ∀ (es : List ((String ×ₗ String ×ₗ String) × RunKey)) (o : Option (List CellEntry)),
      (es.foldl (fun o e => some (o.getD [] ++ [((ofLex e.1).1, e.2)])) o).isSome ↔ o.isSome ∨ es ≠ [] := by
    intro es
    induction es with
    | nil => simp
    | cons e es ih =>
      intro o
      rw [List.foldl_cons, ih]
      simp
  have hget := OrdMap.get?_foldl_alter (fun e : (String ×ₗ String ×ₗ String) × RunKey => (ofLex e.1).2)
    (fun e entries => entries.getD [] ++ [((ofLex e.1).1, e.2)]) latest.entries (.empty : OrdMap _ (List CellEntry)) pair
  have hcells : (groupCells latest).get? pair = _ := hget
  rw [hcells, hfold]
  simp only [OrdMap.get?_empty, Option.isSome_none, Bool.false_eq_true, false_or, ne_eq, List.filter_eq_nil_iff, not_forall, not_not,
    decide_eq_true_eq]
  constructor
  · rintro ⟨⟨key, run⟩, hmem, rfl⟩
    exact ⟨(ofLex key).1, Option.isSome_iff_exists.mpr ⟨run, OrdMap.mem_entries_iff.mp hmem⟩⟩
  · rintro ⟨exp, hsome⟩
    obtain ⟨run, hrun⟩ := Option.isSome_iff_exists.mp hsome
    exact ⟨(toLex (exp, pair), run), OrdMap.mem_entries_iff.mpr hrun, rfl⟩

end Latest

end Tumult
