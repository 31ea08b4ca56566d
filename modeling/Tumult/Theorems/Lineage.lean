import Tumult.Graph.Index

/-!
# Verdicts of the lineage

The matrix is a function of the edges, the services and the articles as sets: one cell for each pair that is listed or covered, and
the verdict of a covered one is that of the latest runs.
-/

namespace Tumult

/-- Some run covers the pair. -/
def Covered (edges : List EdgeRecord) (article service : String) : Prop := ∃ exp runId, Covers edges exp article service runId

/-- The pair is one of the node lists. -/
def Listed (input : LineageInput) (article service : String) : Prop := ⟨article⟩ ∈ input.articles ∧ ⟨service⟩ ∈ input.services

/-- The time of the run's latest edge. -/
def IsRunTime (edges : List EdgeRecord) (runId : String) (t : Int) : Prop :=
  (∃ e ∈ edges, e.runId = runId ∧ e.ts = t) ∧ ∀ e ∈ edges, e.runId = runId → e.ts ≤ t

/-- The run is the latest of the experiment's on the pair: by its time, then by its identifier. -/
def Latest (edges : List EdgeRecord) (exp article service runId : String) : Prop :=
  ∃ t, Covers edges exp article service runId ∧ IsRunTime edges runId t ∧
    ∀ r t', Covers edges exp article service r → IsRunTime edges r t' → toLex (t', r) ≤ toLex (t, runId)

/-- The run is the latest of an experiment's on the pair and has no evidence of it. -/
def Unevidenced (edges : List EdgeRecord) (article service runId : String) : Prop :=
  ∃ exp, Latest edges exp article service runId ∧ ¬ HasEdge edges runId exp "evidences" article

/-- The verdict of a covered cell. -/
structure Verdict (edges : List EdgeRecord) (cell : LineageCell) : Prop where
  evidenced : cell.status = .evidenced ↔
    ∀ exp runId, Latest edges exp cell.articleId cell.serviceId runId → HasEdge edges runId exp "evidences" cell.articleId
  broken : cell.status ≠ .evidenced → cell.status = .broken ∧ ∃ cause, cell.cause = some cause ∧
    Unevidenced edges cell.articleId cell.serviceId cause.runId ∧
    ∀ r t t', Unevidenced edges cell.articleId cell.serviceId r → IsRunTime edges r t' → IsRunTime edges cause.runId t →
      toLex (t', r) ≤ toLex (t, cause.runId)

/-- What the lineage says of its input, in the scope. -/
structure Verdicts (input : LineageInput) (framework control : Option String) : Prop where
  permuted : ∀ edges services articles, input.edges.Perm edges → input.services.Perm services → input.articles.Perm articles →
    computeLineage { input with edges := edges, services := services, articles := articles } framework control =
      computeLineage input framework control
  sorted : (computeLineage input framework control).Pairwise (·.key ≤ ·.key)
  complete : ∀ article service,
    (∃ cell ∈ computeLineage input framework control, cell.articleId = article ∧ cell.serviceId = service) ↔
      articleInScope article framework control = true ∧ (Listed input article service ∨ Covered input.edges article service)
  once : input.articles.Nodup → input.services.Nodup → ((computeLineage input framework control).map (·.key)).Nodup
  verdict : (∀ e ∈ input.edges, 0 ≤ e.ts) → ∀ cell ∈ computeLineage input framework control,
    Covered input.edges cell.articleId cell.serviceId → Verdict input.edges cell

variable {input : LineageInput} {framework control : Option String} {article service : String}

/-! ## The cells -/

/-- The entries of the covered cells. -/
def coveredCells (input : LineageInput) (framework control : Option String) : OrdMap (String ×ₗ String) (List CellEntry) :=
  groupCells (latestRuns (indexRuns input.edges) framework control)

/-- The one cell a pair can have. -/
def cellAt (input : LineageInput) (framework control : Option String) (pair : String ×ₗ String) : LineageCell :=
  match (coveredCells input framework control).get? pair with
  | some entries => resolveCell input (indexRuns input.edges) (indexCausedBy input.edges) (ofLex pair).1 (ofLex pair).2 entries
  | none => untestedCell (ofLex pair).1 (ofLex pair).2

theorem coveredCells_isSome : ((coveredCells input framework control).get? (toLex (article, service))).isSome ↔
    articleInScope article framework control = true ∧ Covered input.edges article service := by
  unfold coveredCells
  rw [groupCells_isSome]
  simp only [latestRuns_isSome, exists_and_left]
  rfl

theorem resolveCell_key {runs : OrdMap String RunEdges} {causedBy : OrdMap String Stringᵒᵈ} {entries : List CellEntry} :
    (resolveCell input runs causedBy article service entries).key = toLex (article, service) := by
  unfold resolveCell
  dsimp only
  split <;> rfl

theorem cellAt_key {pair : String ×ₗ String} : (cellAt input framework control pair).key = pair := by
  unfold cellAt
  split
  · exact resolveCell_key
  · rfl

/-- The cells before they are sorted: the covered ones, then the others of the node lists. -/
def resolvedCells (input : LineageInput) (framework control : Option String) : List LineageCell :=
  (coveredCells input framework control).entries.map fun (pair, entries) =>
    resolveCell input (indexRuns input.edges) (indexCausedBy input.edges) (ofLex pair).1 (ofLex pair).2 entries

def untestedCells (input : LineageInput) (framework control : Option String) : List LineageCell :=
  (input.articles.filter (articleInScope ·.id framework control)).flatMap fun article =>
    (input.services.filter fun service =>
      ((coveredCells input framework control).get? (toLex (article.id, service.id))).isNone).map fun service =>
        untestedCell article.id service.id

theorem computeLineage_eq : computeLineage input framework control =
    (resolvedCells input framework control ++ untestedCells input framework control).insertionSort (·.key ≤ ·.key) := rfl

/-- A covered pair has its resolved cell. -/
theorem mem_resolvedCells {cell : LineageCell} : cell ∈ resolvedCells input framework control ↔
    ∃ article service, (articleInScope article framework control = true ∧ Covered input.edges article service) ∧
      cell = cellAt input framework control (toLex (article, service)) := by
  unfold resolvedCells
  simp only [List.mem_map, Prod.exists, OrdMap.mem_entries_iff, ← coveredCells_isSome, cellAt]
  constructor
  · rintro ⟨⟨article, service⟩, entries, hget, rfl⟩
    have hget' : (coveredCells input framework control).get? (toLex (article, service)) = some entries := hget
    exact ⟨article, service, by rw [hget']; rfl, by rw [hget']; rfl⟩
  · rintro ⟨article, service, hsome, rfl⟩
    obtain ⟨entries, hget⟩ := Option.isSome_iff_exists.mp hsome
    exact ⟨toLex (article, service), entries, hget, by rw [hget]⟩

/-- A listed pair that no run covers has its untested cell. -/
theorem mem_untestedCells {cell : LineageCell} : cell ∈ untestedCells input framework control ↔
    ∃ article service, (articleInScope article framework control = true ∧ Listed input article service ∧
      ¬ Covered input.edges article service) ∧ cell = cellAt input framework control (toLex (article, service)) := by
  have hnone : ∀ article service, articleInScope article framework control = true →
      (((coveredCells input framework control).get? (toLex (article, service))).isNone = true ↔ ¬ Covered input.edges article service) := by
    intro article service hscope
    rw [← Option.not_isSome, Bool.not_eq_true', ← Bool.not_eq_true, coveredCells_isSome]
    simp [hscope]
  unfold untestedCells cellAt
  simp only [List.mem_flatMap, List.mem_filter, List.mem_map]
  constructor
  · rintro ⟨⟨article⟩, ⟨harticle, hscope⟩, ⟨service⟩, ⟨hservice, hget⟩, rfl⟩
    refine ⟨article, service, ⟨hscope, ⟨harticle, hservice⟩, (hnone article service hscope).mp hget⟩, ?_⟩
    rw [Option.isNone_iff_eq_none.mp hget]
    rfl
  · rintro ⟨article, service, ⟨hscope, ⟨harticle, hservice⟩, huncovered⟩, rfl⟩
    have hget := (hnone article service hscope).mpr huncovered
    refine ⟨⟨article⟩, ⟨harticle, hscope⟩, ⟨service⟩, ⟨hservice, hget⟩, ?_⟩
    rw [Option.isNone_iff_eq_none.mp hget]
    rfl

theorem mem_computeLineage {cell : LineageCell} : cell ∈ computeLineage input framework control ↔
    ∃ article service, (articleInScope article framework control = true ∧
      (Listed input article service ∨ Covered input.edges article service)) ∧
      cell = cellAt input framework control (toLex (article, service)) := by
  rw [computeLineage_eq, List.mem_insertionSort, List.mem_append, mem_resolvedCells, mem_untestedCells]
  constructor
  · rintro (⟨article, service, ⟨hscope, hcovered⟩, rfl⟩ | ⟨article, service, ⟨hscope, hlisted, -⟩, rfl⟩)
    · exact ⟨article, service, ⟨hscope, .inr hcovered⟩, rfl⟩
    · exact ⟨article, service, ⟨hscope, .inl hlisted⟩, rfl⟩
  · rintro ⟨article, service, ⟨hscope, hin⟩, rfl⟩
    by_cases hcovered : Covered input.edges article service
    · exact .inl ⟨article, service, ⟨hscope, hcovered⟩, rfl⟩
    · exact .inr ⟨article, service, ⟨hscope, hin.resolve_right hcovered, hcovered⟩, rfl⟩

/-! ## Order and completeness -/

instance : Std.Total (fun a b : LineageCell => a.key ≤ b.key) := ⟨fun a b => le_total a.key b.key⟩

instance : IsTrans LineageCell (fun a b => a.key ≤ b.key) := ⟨fun _ _ _ => le_trans⟩

theorem computeLineage_sorted : (computeLineage input framework control).Pairwise (·.key ≤ ·.key) :=
  List.pairwise_insertionSort _ _

theorem computeLineage_complete :
    (∃ cell ∈ computeLineage input framework control, cell.articleId = article ∧ cell.serviceId = service) ↔
      articleInScope article framework control = true ∧ (Listed input article service ∨ Covered input.edges article service) := by
  have hkey : ∀ article service, (cellAt input framework control (toLex (article, service))).articleId = article ∧
      (cellAt input framework control (toLex (article, service))).serviceId = service := fun article service =>
    Prod.mk.inj (toLex_inj.mp (@cellAt_key input framework control (toLex (article, service))))
  constructor
  · rintro ⟨cell, hcell, rfl, rfl⟩
    obtain ⟨article, service, hin, rfl⟩ := mem_computeLineage.mp hcell
    rwa [(hkey article service).1, (hkey article service).2]
  · intro hin
    exact ⟨_, mem_computeLineage.mpr ⟨article, service, hin, rfl⟩, hkey article service⟩

/-- A list of nodes that names each once gives each pair once. -/
theorem computeLineage_once (harticles : input.articles.Nodup) (hservices : input.services.Nodup) :
    ((computeLineage input framework control).map (·.key)).Nodup := by
  have hresolved : ((resolvedCells input framework control).map (·.key)).Nodup := by
    have hkeys : (resolvedCells input framework control).map (·.key) = (coveredCells input framework control).entries.map (·.1) := by
      unfold resolvedCells
      rw [List.map_map]
      exact List.map_congr_left fun ⟨pair, entries⟩ _ => resolveCell_key
    rw [hkeys]
    exact List.pairwise_map.mpr ((coveredCells input framework control).sorted.imp fun hlt => hlt.ne)
  have huntested : ((untestedCells input framework control).map (·.key)).Nodup := by
    unfold untestedCells
    rw [List.map_flatMap]
    refine List.nodup_flatMap.mpr ⟨fun article _ => ?_, ?_⟩
    · rw [List.map_map]
      refine (hservices.filter _).map_on fun s _ s' _ h => ?_
      obtain ⟨s⟩ := s
      obtain ⟨s'⟩ := s'
      exact congrArg NodeSummary.mk (Prod.mk.inj (toLex_inj.mp h)).2
    · refine (harticles.filter _).imp fun {a a'} hne => ?_
      intro key hkey hkey'
      simp only [List.mem_map, List.mem_filter] at hkey hkey'
      obtain ⟨_, ⟨s, -, rfl⟩, rfl⟩ := hkey
      obtain ⟨_, ⟨s', -, rfl⟩, heq⟩ := hkey'
      obtain ⟨a⟩ := a
      obtain ⟨a'⟩ := a'
      exact hne (congrArg NodeSummary.mk (Prod.mk.inj (toLex_inj.mp heq)).1.symm)
  have hdisjoint : List.Disjoint ((resolvedCells input framework control).map (·.key))
      ((untestedCells input framework control).map (·.key)) := by
    intro key hkey hkey'
    obtain ⟨_, hcell, rfl⟩ := List.mem_map.mp hkey
    obtain ⟨_, hcell', heq⟩ := List.mem_map.mp hkey'
    obtain ⟨article, service, ⟨-, hcovered⟩, rfl⟩ := mem_resolvedCells.mp hcell
    obtain ⟨article', service', ⟨-, -, huncovered⟩, rfl⟩ := mem_untestedCells.mp hcell'
    rw [cellAt_key, cellAt_key] at heq
    obtain ⟨rfl, rfl⟩ := Prod.mk.inj (toLex_inj.mp heq)
    exact huncovered hcovered
  have hnodup := hresolved.append huntested hdisjoint
  rw [← List.map_append] at hnodup
  rw [computeLineage_eq]
  exact (((List.perm_insertionSort _ _).map _).nodup_iff).mpr hnodup

/-! ## Order of the input -/

section Permuted

variable {edges : List EdgeRecord} {services articles : List NodeSummary}

theorem evidenceOf_isSome {edges : List EdgeRecord} (hunique : UniqueEdges edges) {parse : String → Option Attr} {exp runId : String} {t : Int} :
    (evidenceOf (indexRuns edges) parse article (exp, toLex (t, runId))).isSome ↔ HasEdge edges runId exp "evidences" article := by
  unfold evidenceOf
  rw [Option.isSome_map, Option.isSome_iff_exists]
  change (∃ attrs, ((indexRuns edges).get? runId).bind (fun run => run.evidences.get? (toLex (exp, article))) = some attrs) ↔ _
  simp only [evidences_get? hunique]
  constructor
  · rintro ⟨attrs, e, he, hrun, hsrc, hrel, hdst, -⟩
    exact ⟨e, he, hrun, hsrc, hrel, hdst⟩
  · rintro ⟨e, he, hrun, hsrc, hrel, hdst⟩
    exact ⟨e.attrs, e, he, hrun, hsrc, hrel, hdst, rfl⟩

theorem evidenceOf_perm (hunique : UniqueEdges input.edges) (h : input.edges.Perm edges) {parse : String → Option Attr} :
    evidenceOf (indexRuns edges) parse article = evidenceOf (indexRuns input.edges) parse article := by
  have hunique' : UniqueEdges edges := ((h.map _).nodup_iff).mp hunique
  funext ⟨exp, t, runId⟩
  refine congrArg (Option.map _) (Option.ext fun attrs => ?_)
  refine (evidences_get? hunique').trans (Iff.trans ?_ (evidences_get? hunique).symm)
  simp only [h.mem_iff]

theorem resolveCell_perm (hunique : UniqueEdges input.edges) (h : input.edges.Perm edges) (entries : List CellEntry) :
    resolveCell { input with edges := edges, services := services, articles := articles } (indexRuns edges) (indexCausedBy edges)
        article service entries =
      resolveCell input (indexRuns input.edges) (indexCausedBy input.edges) article service entries := by
  have hdeviations : ∀ runId, ((indexRuns edges).get? runId).bind (fun run => run.deviations.min?) =
      ((indexRuns input.edges).get? runId).bind fun run => run.deviations.min? := fun runId => (deviations_min?_perm h).symm
  unfold resolveCell
  simp only [evidenceOf_perm hunique h, hdeviations, indexCausedBy_perm h.symm]

theorem computeLineage_perm (hunique : UniqueEdges input.edges) (hedges : input.edges.Perm edges) (hservices : input.services.Perm services)
    (harticles : input.articles.Perm articles) :
    computeLineage { input with edges := edges, services := services, articles := articles } framework control =
      computeLineage input framework control := by
  have hcovered : coveredCells { input with edges := edges, services := services, articles := articles } framework control =
      coveredCells input framework control := by
    unfold coveredCells
    rw [latestRuns_perm hedges]
  have hresolved : resolvedCells { input with edges := edges, services := services, articles := articles } framework control =
      resolvedCells input framework control := by
    unfold resolvedCells
    rw [hcovered]
    exact List.map_congr_left fun ⟨pair, entries⟩ _ => resolveCell_perm hunique hedges entries
  have huntested : (untestedCells { input with edges := edges, services := services, articles := articles } framework control).Perm
      (untestedCells input framework control) := by
    unfold untestedCells
    rw [hcovered]
    refine ((harticles.symm.filter _).flatMap_right _).trans (List.Perm.flatMap_left _ fun article _ => ?_)
    exact (hservices.symm.filter _).map _
  have hperm : (computeLineage { input with edges := edges, services := services, articles := articles } framework control).Perm
      (computeLineage input framework control) := by
    rw [computeLineage_eq, computeLineage_eq, hresolved]
    exact (List.perm_insertionSort _ _).trans ((huntested.append_left _).trans (List.perm_insertionSort _ _).symm)
  -- a cell is known by its key
  have hcell : ∀ cell ∈ computeLineage input framework control, cell = cellAt input framework control cell.key := by
    intro cell hcell
    obtain ⟨article, service, -, rfl⟩ := mem_computeLineage.mp hcell
    rw [cellAt_key]
  refine hperm.eq_of_pairwise (fun a b ha hb hab hba => ?_) computeLineage_sorted computeLineage_sorted
  rw [hcell a (hperm.mem_iff.mp ha), hcell b hb, le_antisymm hab hba]

end Permuted

/-! ## The verdict -/

section Verdict

variable {edges : List EdgeRecord} {exp runId : String}

/-- After the epoch the time of the index is the time of the latest edge. -/
theorem isRunTime_runTime (hts : ∀ e ∈ edges, 0 ≤ e.ts) (hrun : ∃ e ∈ edges, e.runId = runId) : IsRunTime edges runId (runTime edges runId) := by
  obtain ⟨hmem, hle, hall⟩ := OrdMap.foldl_max_spec ((edges.filter (·.runId = runId)).map (·.ts)) 0
  have hin : ∀ e ∈ edges, e.runId = runId → e.ts ∈ (edges.filter (·.runId = runId)).map (·.ts) := fun e he hrun =>
    List.mem_map_of_mem (List.mem_filter.mpr ⟨he, by simpa using hrun⟩)
  refine ⟨?_, fun e he hrun => hall _ (hin e he hrun)⟩
  rcases hmem with hzero | hmem
  · obtain ⟨e, he, hrun⟩ := hrun
    refine ⟨e, he, hrun, ?_⟩
    have hupper := hall _ (hin e he hrun)
    have hlower := hts e he
    unfold runTime
    omega
  · obtain ⟨e, he, hts⟩ := List.mem_map.mp hmem
    simp only [List.mem_filter, decide_eq_true_eq] at he
    exact ⟨e, he.1, he.2, hts⟩

theorem IsRunTime.eq {t t' : Int} (h : IsRunTime edges runId t) (h' : IsRunTime edges runId t') : t = t' := by
  obtain ⟨⟨e, he, hrun, rfl⟩, hall⟩ := h
  obtain ⟨⟨e', he', hrun', rfl⟩, hall'⟩ := h'
  exact le_antisymm (hall' e he hrun) (hall e' he' hrun')

theorem Covers.exists_edge (h : Covers edges exp article service runId) : ∃ e ∈ edges, e.runId = runId := by
  obtain ⟨⟨e, he, hrun, -⟩, -⟩ := h
  exact ⟨e, he, hrun⟩

/-- The latest run, in the times of the index. -/
theorem latest_iff (hts : ∀ e ∈ edges, 0 ≤ e.ts) : Latest edges exp article service runId ↔
    Covers edges exp article service runId ∧
      ∀ r, Covers edges exp article service r → toLex (runTime edges r, r) ≤ toLex (runTime edges runId, runId) := by
  constructor
  · rintro ⟨t, hcovers, htime, hlatest⟩
    refine ⟨hcovers, fun r hr => ?_⟩
    rw [(isRunTime_runTime hts hcovers.exists_edge).eq htime]
    exact hlatest r _ hr (isRunTime_runTime hts hr.exists_edge)
  · rintro ⟨hcovers, hlatest⟩
    refine ⟨runTime edges runId, hcovers, isRunTime_runTime hts hcovers.exists_edge, fun r t hr ht => ?_⟩
    rw [ht.eq (isRunTime_runTime hts hr.exists_edge)]
    exact hlatest r hr

/-- The entries of a covered cell are the latest runs of its experiments, with their times. -/
theorem mem_coveredCells (hts : ∀ e ∈ input.edges, 0 ≤ e.ts) (hscope : articleInScope article framework control = true)
    {entries : List CellEntry} (hentries : (coveredCells input framework control).get? (toLex (article, service)) = some entries)
    {t : Int} : (exp, toLex (t, runId)) ∈ entries ↔
      Latest input.edges exp article service runId ∧ t = runTime input.edges runId := by
  have hmem := @mem_groupCells (latestRuns (indexRuns input.edges) framework control) (toLex (article, service)) (exp, toLex (t, runId))
  rw [show (groupCells _).get? _ = some entries from hentries, Option.getD_some] at hmem
  rw [hmem, latestRuns_get?, latest_iff hts]
  constructor
  · rintro ⟨-, ⟨hcovers, rfl⟩, hlatest⟩
    exact ⟨⟨hcovers, hlatest⟩, rfl⟩
  · rintro ⟨⟨hcovers, hlatest⟩, rfl⟩
    exact ⟨hscope, ⟨hcovers, rfl⟩, hlatest⟩

/-- The runs that break a cell are its unevidenced ones. -/
theorem mem_broken (hunique : UniqueEdges input.edges) (hts : ∀ e ∈ input.edges, 0 ≤ e.ts)
    (hscope : articleInScope article framework control = true) {entries : List CellEntry}
    (hentries : (coveredCells input framework control).get? (toLex (article, service)) = some entries) {t : Int} :
    toLex (t, runId) ∈ ((entries.filter fun entry => (evidenceOf (indexRuns input.edges) input.parseAttrs article entry).isNone).map (·.2)) ↔
      Unevidenced input.edges article service runId ∧ t = runTime input.edges runId := by
  have hnone : ∀ exp, (evidenceOf (indexRuns input.edges) input.parseAttrs article (exp, toLex (t, runId))).isNone = true ↔
      ¬ HasEdge input.edges runId exp "evidences" article := by
    intro exp
    rw [← Option.not_isSome, Bool.not_eq_true', ← Bool.not_eq_true, evidenceOf_isSome hunique]
  constructor
  · intro h
    obtain ⟨⟨exp, run⟩, hentry, rfl⟩ := List.mem_map.mp h
    obtain ⟨hentry, hunevidenced⟩ := List.mem_filter.mp hentry
    obtain ⟨hlatest, htime⟩ := (mem_coveredCells hts hscope hentries).mp hentry
    exact ⟨⟨exp, hlatest, (hnone exp).mp hunevidenced⟩, htime⟩
  · rintro ⟨⟨exp, hlatest, hno⟩, htime⟩
    exact List.mem_map.mpr ⟨(exp, toLex (t, runId)),
      List.mem_filter.mpr ⟨(mem_coveredCells hts hscope hentries).mpr ⟨hlatest, htime⟩, (hnone exp).mpr hno⟩, rfl⟩

theorem computeLineage_verdict (hunique : UniqueEdges input.edges) (hts : ∀ e ∈ input.edges, 0 ≤ e.ts) :
    ∀ cell ∈ computeLineage input framework control, Covered input.edges cell.articleId cell.serviceId → Verdict input.edges cell := by
  intro cell hcell hcovered
  obtain ⟨article, service, ⟨hscope, -⟩, rfl⟩ := mem_computeLineage.mp hcell
  have hkey := @cellAt_key input framework control (toLex (article, service))
  obtain ⟨harticle, hservice⟩ := Prod.mk.inj (toLex_inj.mp hkey)
  rw [harticle, hservice] at hcovered
  obtain ⟨entries, hentries⟩ := Option.isSome_iff_exists.mp (coveredCells_isSome.mpr ⟨hscope, hcovered⟩)
  have hbroken := fun {runId : String} {t : Int} => @mem_broken input framework control article service runId hunique hts hscope entries hentries t
  have hcellAt : cellAt input framework control (toLex (article, service)) =
      resolveCell input (indexRuns input.edges) (indexCausedBy input.edges) article service entries := by
    unfold cellAt
    rw [hentries]
    rfl
  have hnone : (∀ exp runId, Latest input.edges exp article service runId → HasEdge input.edges runId exp "evidences" article) ↔
      ∀ runId, ¬ Unevidenced input.edges article service runId := by
    constructor
    · rintro hall runId ⟨exp, hlatest, hno⟩
      exact hno (hall exp runId hlatest)
    · intro hall exp runId hlatest
      by_contra hno
      exact hall runId ⟨exp, hlatest, hno⟩
  constructor
  · rw [harticle, hservice, hnone, hcellAt]
    unfold resolveCell
    dsimp only
    split
    · next run hmax =>
      obtain ⟨t, runId⟩ := run
      obtain ⟨hunevidenced, -⟩ := hbroken.mp (List.max?_eq_some_iff.mp hmax).1
      exact iff_of_false (by rintro ⟨⟩) fun hall => hall runId hunevidenced
    · next hmax =>
      refine iff_of_true rfl fun runId hunevidenced => ?_
      have hin := hbroken.mpr ⟨hunevidenced, rfl⟩
      rw [List.max?_eq_none_iff.mp hmax] at hin
      cases hin
  · rw [harticle, hservice, hcellAt]
    unfold resolveCell
    dsimp only
    split
    · next run hmax =>
      obtain ⟨t, runId⟩ := run
      obtain ⟨hmem, hgreatest⟩ := List.max?_eq_some_iff.mp hmax
      obtain ⟨hunevidenced, rfl⟩ := hbroken.mp hmem
      refine fun _ => ⟨rfl, _, rfl, hunevidenced, fun r t t' hr ht' ht => ?_⟩
      have hedge : ∀ r, Unevidenced input.edges article service r → ∃ e ∈ input.edges, e.runId = r :=
        fun r ⟨exp, ⟨_, hcovers, _⟩, _⟩ => hcovers.exists_edge
      rw [ht'.eq (isRunTime_runTime hts (hedge r hr)), ht.eq (isRunTime_runTime hts (hedge _ hunevidenced))]
      exact hgreatest _ (hbroken.mpr ⟨hr, rfl⟩)
    · exact fun h => absurd rfl h

end Verdict

/-- **The verdicts of the lineage**: the same cells in whatever order the input comes, sorted, one for each pair in scope that is
listed or covered, and broken exactly when a latest run is unevidenced. -/
theorem lineage_verdicts (input : LineageInput) (framework control : Option String) (hunique : UniqueEdges input.edges) :
    Verdicts input framework control where
  permuted _ _ _ hedges hservices harticles := computeLineage_perm hunique hedges hservices harticles
  sorted := computeLineage_sorted
  complete _ _ := computeLineage_complete
  once := computeLineage_once
  verdict := computeLineage_verdict hunique

/-- An input of edges and nodes alone. -/
def bareInput (edges : List EdgeRecord) (services articles : List String) : LineageInput where
  edges := edges
  services := services.map .mk
  articles := articles.map .mk
  deviationAttrs _ := none
  parseAttrs _ := none

/-- The edges of a run of one experiment, with its evidence or without. -/
def drillEdges (runId : String) (ts : Int) (evidence : Bool) : List EdgeRecord :=
  [⟨"exp:drill", "maps_to_compliance", "compliance:DORA/Art.25", runId, ts, ""⟩, ⟨"exp:drill", "targets", "svc:db", runId, ts, ""⟩] ++
    if evidence then [⟨"exp:drill", "evidences", "compliance:DORA/Art.25", runId, ts, ""⟩] else []

theorem lineage_verdicts_drill : Verdicts (bareInput (drillEdges "run:1" 1 true) ["svc:db"] ["compliance:DORA/Art.25"]) none none :=
  lineage_verdicts _ none none (by decide)

/-- Two runs before the epoch, the later of them with evidence. -/
def earlyEdges : List EdgeRecord := drillEdges "run:b" (-5) false ++ drillEdges "run:a" (-3) true

theorem latest_earlyEdges {exp runId : String} (h : Latest earlyEdges exp "compliance:DORA/Art.25" "svc:db" runId) :
    HasEdge earlyEdges runId exp "evidences" "compliance:DORA/Art.25" := by
  obtain ⟨t, ⟨⟨e, he, rfl, rfl, hrel, -⟩, -⟩, htime, hlatest⟩ := h
  obtain ⟨⟨e', he', hrun', rfl⟩, -⟩ := htime
  have hcovers : Covers earlyEdges "exp:drill" "compliance:DORA/Art.25" "svc:db" "run:a" := by
    unfold Covers HasEdge
    decide
  have htime : IsRunTime earlyEdges "run:a" (-3) := by
    unfold IsRunTime
    decide
  have hsrc : ∀ e ∈ earlyEdges, e.src = "exp:drill" := by decide
  have hearly : ∀ e ∈ earlyEdges, e.runId = "run:a" ∨ e.runId = "run:b" ∧ e.ts = -5 := by decide
  rw [hsrc e he] at hlatest ⊢
  rcases hearly e he with hrun | ⟨hrun, -⟩
  · rw [hrun]
    unfold HasEdge
    decide
  · rcases hearly e' he' with ha | ⟨-, hts⟩
    · rw [hrun', hrun] at ha
      exact absurd ha (by decide)
    · have hle := hlatest "run:a" (-3) hcovers htime
      rw [hts, hrun] at hle
      exact absurd hle (by decide)

/-- A list that names an article twice gives its cell twice; and of two runs before the epoch the one with the greater identifier
counts, not the later one. -/
theorem lineage_verdicts_false :
    (¬ ∀ (input : LineageInput) (framework control : Option String), UniqueEdges input.edges →
      ((computeLineage input framework control).map (·.key)).Nodup) ∧
    ¬ ∀ (input : LineageInput) (framework control : Option String), UniqueEdges input.edges →
      ∀ cell ∈ computeLineage input framework control, Covered input.edges cell.articleId cell.serviceId → Verdict input.edges cell := by
  constructor
  · intro h
    have hnodup := h (bareInput [] ["svc:db"] ["compliance:DORA/Art.25", "compliance:DORA/Art.25"]) none none (by decide)
    exact absurd hnodup (by decide)
  · intro h
    have hcells : ∃ cell ∈ computeLineage (bareInput earlyEdges [] []) none none,
        cell.articleId = "compliance:DORA/Art.25" ∧ cell.serviceId = "svc:db" ∧ cell.status = .broken := by decide
    obtain ⟨cell, hcell, harticle, hservice, hbroken⟩ := hcells
    have hcovers : Covers earlyEdges "exp:drill" "compliance:DORA/Art.25" "svc:db" "run:a" := by
      unfold Covers HasEdge
      decide
    have hverdict := h (bareInput earlyEdges [] []) none none (by decide) cell hcell
      (by rw [harticle, hservice]; exact ⟨_, _, hcovers⟩)
    have hevidenced := hverdict.evidenced
    rw [harticle, hservice, hbroken] at hevidenced
    exact absurd (hevidenced.mpr fun exp runId hlatest => latest_earlyEdges hlatest) (by decide)

end Tumult
