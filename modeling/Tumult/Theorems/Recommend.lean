import Tumult.Graph.Recommend
import Tumult.Lib.Keyed

/-!
# The ranking of recommendations

The distances are the shortest in the undirected graph of the dependencies, each pair has one recommendation, and the order of the
input does not matter: every list is sorted, counted, or read by its keys.
-/

namespace Tumult.Recommend

/-! ## Distances -/

/-- The undirected graph of the declared dependencies. -/
def dependencyGraph (dependsOn : List (String × String)) : SimpleGraph String := .fromRel fun a b => (a, b) ∈ dependsOn

section

variable {dependsOn dependsOn' : List (String × String)} {broken : List String}

theorem mem_adjacency {v w : String} : w ∈ adjacency dependsOn v ↔ (v, w) ∈ dependsOn ∨ (w, v) ∈ dependsOn := by
  simp only [adjacency, List.mem_flatMap, List.mem_append]
  constructor
  · rintro ⟨⟨src, dst⟩, hmem, h | h⟩
    · split at h
      · next heq => exact .inl (heq ▸ List.mem_singleton.mp h ▸ hmem)
      · exact absurd h List.not_mem_nil
    · split at h
      · next heq => exact .inr (heq ▸ List.mem_singleton.mp h ▸ hmem)
      · exact absurd h List.not_mem_nil
  · rintro (hmem | hmem)
    · exact ⟨(v, w), hmem, .inl (by simp)⟩
    · exact ⟨(w, v), hmem, .inr (by simp)⟩

/-- The lengths of the ways from the broken services to a service. -/
def waysFrom (dependsOn : List (String × String)) (broken : List String) (service : String) : Set Nat :=
  {n | ∃ b ∈ broken, ∃ way : (dependencyGraph dependsOn).Walk b service, way.length = n}

/-- A way in the graph is one of the search (induction on the way). -/
theorem reach_of_walk {n : Nat} {u v : String} (h : Bfs.Reach (adjacency dependsOn) broken n u)
    (way : (dependencyGraph dependsOn).Walk u v) : Bfs.Reach (adjacency dependsOn) broken (n + way.length) v := by
  induction way generalizing n with
  | nil => exact h
  | cons hadj way ih =>
    have hstep := ih (h.step (mem_adjacency.mpr ((SimpleGraph.fromRel_adj _ _ _).mp hadj).2))
    rwa [SimpleGraph.Walk.length_cons, Nat.add_comm way.length 1, ← Nat.add_assoc]

/-- A way of the search is one in the graph without its loops (induction on the way). -/
theorem exists_walk_of_reach {n : Nat} {v : String} (h : Bfs.Reach (adjacency dependsOn) broken n v) :
    ∃ m ≤ n, m ∈ waysFrom dependsOn broken v := by
  induction h with
  | source hv => exact ⟨0, le_refl 0, _, hv, .nil, rfl⟩
  | @step n v w _ hw ih =>
    obtain ⟨m, hle, b, hb, way, rfl⟩ := ih
    by_cases hloop : v = w
    · subst hloop
      exact ⟨way.length, by omega, b, hb, way, rfl⟩
    · have hadj : (dependencyGraph dependsOn).Adj v w := (SimpleGraph.fromRel_adj _ _ _).mpr ⟨hloop, mem_adjacency.mp hw⟩
      exact ⟨way.length + 1, by omega, b, hb, way.concat hadj, way.length_concat hadj⟩

theorem isLeast_reach_iff {service : String} {d : Nat} :
    IsLeast {n | Bfs.Reach (adjacency dependsOn) broken n service} d ↔ IsLeast (waysFrom dependsOn broken service) d := by
  have hways : ∀ n ∈ waysFrom dependsOn broken service, Bfs.Reach (adjacency dependsOn) broken n service := by
    rintro n ⟨b, hb, way, rfl⟩
    simpa using reach_of_walk (.source hb) way
  constructor
  · rintro ⟨hreach, hleast⟩
    obtain ⟨m, hle, hm⟩ := exists_walk_of_reach hreach
    obtain rfl := Nat.le_antisymm hle (hleast (hways m hm))
    exact ⟨hm, fun n hn => hleast (hways n hn)⟩
  · rintro ⟨hway, hleast⟩
    refine ⟨hways d hway, fun n hn => ?_⟩
    obtain ⟨m, hle, hm⟩ := exists_walk_of_reach hn
    exact (hleast hm).trans hle

/-- The distance of a service is the length of a shortest way from a broken one. -/
theorem brokenDistances_get_iff (hnodup : broken.Nodup) {service : String} {d : Nat} :
    (brokenDistances dependsOn broken).get service = some d ↔ IsLeast (waysFrom dependsOn broken service) d := by
  let U := (broken ++ dependsOn.flatMap fun edge => [edge.1, edge.2]).toFinset
  have hcard : U.card ≤ broken.length + 2 * dependsOn.length := by
    refine (List.toFinset_card_le _).trans (le_of_eq ?_)
    simp [List.length_flatMap, Nat.mul_comm]
  have hU : ∀ v ∈ U, ∀ w ∈ adjacency dependsOn v, w ∈ U := by
    intro v _ w hw
    refine List.mem_toFinset.mpr (List.mem_append_right _ (List.mem_flatMap.mpr ?_))
    rcases mem_adjacency.mp hw with hmem | hmem
    · exact ⟨_, hmem, by simp⟩
    · exact ⟨_, hmem, by simp⟩
  have hsources : ∀ v ∈ broken, v ∈ U := fun v hv => List.mem_toFinset.mpr (List.mem_append_left _ hv)
  rw [brokenDistances, Bfs.get_run_iff hnodup hsources hU hcard, isLeast_reach_iff]

theorem brokenDistances_get_none_iff (hnodup : broken.Nodup) {service : String} :
    (brokenDistances dependsOn broken).get service = none ↔ waysFrom dependsOn broken service = ∅ := by
  constructor
  · intro hnone
    by_contra hne
    have hleast : IsLeast (waysFrom dependsOn broken service) (sInf (waysFrom dependsOn broken service)) :=
      ⟨Nat.sInf_mem (Set.nonempty_iff_ne_empty.mpr hne), fun n hn => Nat.sInf_le hn⟩
    rw [(brokenDistances_get_iff hnodup).mpr hleast] at hnone
    nomatch hnone
  · intro hempty
    cases hget : (brokenDistances dependsOn broken).get service with
    | none => rfl
    | some d =>
      have hd := ((brokenDistances_get_iff hnodup).mp hget).1
      rw [hempty] at hd
      exact absurd hd (Set.notMem_empty d)

/-- The order of the edges and of the broken services does not matter. -/
theorem waysFrom_congr {broken' : List String} (hedges : ∀ e, e ∈ dependsOn ↔ e ∈ dependsOn')
    (hbroken : ∀ b, b ∈ broken ↔ b ∈ broken') (service : String) :
    waysFrom dependsOn broken service = waysFrom dependsOn' broken' service := by
  have hgraph : dependencyGraph dependsOn = dependencyGraph dependsOn' := by
    unfold dependencyGraph
    congr 1
    funext a b
    exact propext (hedges (a, b))
  unfold waysFrom
  rw [hgraph]
  simp only [hbroken]

end

/-! ## The order of the input -/

section

variable {S : Type} {input input' : RecommendationInput S}

/-- The same input, with its lists and the entries of its map in another order. -/
structure RecommendationInput.Reordered (input input' : RecommendationInput S) : Prop where
  lineage : input.lineage.Perm input'.lineage
  dependsOn : input.dependsOn.Perm input'.dependsOn
  availableActions : input.availableActions.Perm input'.availableActions
  testedActionNames : input.testedActionNames = input'.testedActionNames
  articleStrength : input.articleStrength = input'.articleStrength
  criticality : input.criticality.Perm input'.criticality

theorem mem_brokenServices {service : String} :
    service ∈ brokenServices input ↔ ∃ cell ∈ input.lineage, cell.status = .broken ∧ cell.serviceId = service := by
  rw [brokenServices, List.mem_mergeSort, List.mem_dedup, List.mem_map]
  constructor
  · rintro ⟨cell, hcell, rfl⟩
    exact ⟨cell, (List.mem_filter.mp hcell).1, of_decide_eq_true (List.mem_filter.mp hcell).2, rfl⟩
  · rintro ⟨cell, hcell, hbroken, rfl⟩
    exact ⟨cell, List.mem_filter.mpr ⟨hcell, decide_eq_true hbroken⟩, rfl⟩

theorem nodup_brokenServices (input : RecommendationInput S) : (brokenServices input).Nodup :=
  (List.mergeSort_perm _ _).nodup_iff.mpr (List.nodup_dedup _)

theorem brokenServices_eq (h : input.Reordered input') : brokenServices input = brokenServices input' := by
  have hperm := ((h.lineage.filter (·.status = .broken)).map LineageCell.serviceId).dedup
  exact Keyed.mergeSort_eq_of_perm (fun a _ b _ hab => hab) hperm

theorem proximityDistance_eq (h : input.Reordered input') (service : String) :
    proximityDistance input service = proximityDistance input' service := by
  have hbroken := brokenServices_eq h
  have hways : waysFrom input.dependsOn (brokenServices input) service =
      waysFrom input'.dependsOn (brokenServices input') service :=
    waysFrom_congr (fun e => h.dependsOn.mem_iff) (fun b => by rw [hbroken]) service
  have hget : (brokenDistances input.dependsOn (brokenServices input)).get service =
      (brokenDistances input'.dependsOn (brokenServices input')).get service := by
    refine Option.ext fun d => ?_
    rw [brokenDistances_get_iff (nodup_brokenServices input),
      brokenDistances_get_iff (nodup_brokenServices input'), hways]
  unfold proximityDistance
  rw [hget, hbroken]

theorem inDegree_eq (h : input.Reordered input') (service : String) :
    inDegree input.dependsOn service = inDegree input'.dependsOn service :=
  (((h.dependsOn.filter _).map _).dedup).length_eq

theorem maxInDegree_eq (h : input.Reordered input') : maxInDegree input.dependsOn = maxInDegree input'.dependsOn := by
  have hdegree : inDegree input.dependsOn = inDegree input'.dependsOn := funext (inDegree_eq h)
  unfold maxInDegree
  rw [hdegree]
  exact (h.dependsOn.map _).foldl_eq 0

theorem sortedActions_eq (h : input.Reordered input') : sortedActions input = sortedActions input' := by
  refine Keyed.mergeSort_eq_of_perm (fun a _ b _ hab => ?_) h.availableActions
  obtain ⟨plugin, action⟩ := a
  obtain ⟨plugin', action'⟩ := b
  have hpair := toLex.injective hab
  rw [Prod.mk.injEq] at hpair
  obtain ⟨rfl, rfl⟩ := hpair
  rfl

theorem pickAction_eq (h : input.Reordered input') : pickAction input = pickAction input' := by
  unfold pickAction
  rw [sortedActions_eq h, h.testedActionNames]

/-- A cell that asks for an injection. -/
def Open (cell : LineageCell) : Prop := cell.status = .broken ∨ cell.status = .untested

/-- Each article has one cell of each service. -/
def RecommendationInput.OneCell (input : RecommendationInput S) : Prop :=
  (input.lineage.map fun cell => (cell.articleId, cell.serviceId)).Nodup

theorem candidates_get_iff (hone : input.OneCell) (service article : String) (status : ControlServiceStatus) :
    (candidates input).get? (toLex (service, article)) = some status ↔
      ∃ cell ∈ input.lineage, Open cell ∧ cell.serviceId = service ∧ cell.articleId = article ∧ cell.status = status := by
  have hunique : ((input.lineage.filter fun cell => cell.status = .broken ∨ cell.status = .untested).map
      fun cell => toLex (cell.serviceId, cell.articleId)).Nodup := by
    refine List.Nodup.of_map (fun key => ((ofLex key).2, (ofLex key).1)) ?_
    rw [List.map_map]
    exact hone.sublist (List.filter_sublist.map _)
  rw [candidates, OrdMap.get?_foldl_insert _ _ hunique]
  simp [Open, and_assoc]

theorem candidates_eq (h : input.Reordered input') (hone : input.OneCell) : candidates input = candidates input' := by
  have hone' : input'.OneCell := (h.lineage.map _).nodup_iff.mp hone
  refine OrdMap.ext_get? fun key => Option.ext fun status => ?_
  have hget := candidates_get_iff hone (ofLex key).1 (ofLex key).2 status
  have hget' := candidates_get_iff hone' (ofLex key).1 (ofLex key).2 status
  simp only [h.lineage.mem_iff] at hget
  exact hget.trans hget'.symm

variable [LinearOrder S]

/-- The maximum of two rates is the greater one of those that are positive, or it is not positive as none of them is. -/
theorem max_cases (F : FloatOps S) (a b : S) :
    (F.pos (F.max a b) = true ∧ IsGreatest {x | x ∈ [a, b] ∧ F.pos x = true} (F.max a b)) ∨
      F.pos (F.max a b) = false ∧ ∀ x ∈ [a, b], F.pos x = false := by
  cases ha : F.pos a with
  | false =>
    cases hb : F.pos b with
    | false =>
      refine .inr ⟨F.max_not_pos a b ha hb, fun x hx => ?_⟩
      rcases List.mem_pair.mp hx with rfl | rfl <;> assumption
    | true =>
      rw [F.max_right a b ha hb]
      refine .inl ⟨hb, ⟨by simp, hb⟩, fun x hx => ?_⟩
      rcases List.mem_pair.mp hx.1 with rfl | rfl
      · exact absurd hx.2 (Bool.eq_false_iff.mp ha)
      · exact le_refl _
  | true =>
    cases hb : F.pos b with
    | false =>
      rw [F.max_left a b ha hb]
      refine .inl ⟨ha, ⟨by simp, ha⟩, fun x hx => ?_⟩
      rcases List.mem_pair.mp hx.1 with rfl | rfl
      · exact le_refl _
      · exact absurd hx.2 (Bool.eq_false_iff.mp hb)
    | true =>
      rw [F.max_pos a b ha hb]
      refine .inl ⟨?_, ⟨?_, ?_⟩, fun x hx => ?_⟩
      · rcases max_choice a b with h | h <;> rw [h] <;> assumption
      · rcases max_choice a b with h | h <;> rw [h] <;> simp
      · rcases max_choice a b with h | h <;> rw [h] <;> assumption
      · rcases List.mem_pair.mp hx.1 with rfl | rfl
        · exact le_max_left _ _
        · exact le_max_right _ _

/-- So it is of many rates (induction on them). -/
theorem foldl_max_cases (F : FloatOps S) (rates : List S) (a : S) :
    (F.pos (rates.foldl F.max a) = true ∧ IsGreatest {x | x ∈ a :: rates ∧ F.pos x = true} (rates.foldl F.max a)) ∨
      F.pos (rates.foldl F.max a) = false ∧ ∀ x ∈ a :: rates, F.pos x = false := by
  induction rates generalizing a with
  | nil =>
    cases ha : F.pos a with
    | true => exact .inl ⟨ha, ⟨List.mem_cons_self, ha⟩, fun x hx => le_of_eq (List.mem_singleton.mp hx.1)⟩
    | false => exact .inr ⟨ha, fun x hx => List.mem_singleton.mp hx ▸ ha⟩
  | cons b rates ih =>
    have hpair : ∀ x, x ∈ a :: b :: rates ↔ x ∈ [a, b] ∨ x ∈ rates := fun x => by simp [or_assoc]
    rw [List.foldl_cons]
    rcases ih (F.max a b) with ⟨hpos, ⟨hmem, -⟩, hupper⟩ | ⟨hnot, hnone⟩
    · refine .inl ⟨hpos, ⟨(hpair _).mpr ?_, hpos⟩, fun x hx => ?_⟩
      · rcases List.mem_cons.mp hmem with heq | hmem
        · rcases max_cases F a b with ⟨-, hgreatest⟩ | ⟨hnot, -⟩
          · rw [heq]
            exact .inl hgreatest.1.1
          · rw [heq] at hpos
            exact absurd hpos (Bool.eq_false_iff.mp hnot)
        · exact .inr hmem
      · rcases (hpair x).mp hx.1 with hx' | hx'
        · rcases max_cases F a b with ⟨hpos', hgreatest⟩ | ⟨-, hnone⟩
          · exact (hgreatest.2 ⟨hx', hx.2⟩).trans (hupper ⟨List.mem_cons_self, hpos'⟩)
          · exact absurd hx.2 (Bool.eq_false_iff.mp (hnone x hx'))
        · exact hupper ⟨List.mem_cons_of_mem _ hx', hx.2⟩
    · refine .inr ⟨hnot, fun x hx => ?_⟩
      rcases (hpair x).mp hx with hx | hx
      · rcases max_cases F a b with ⟨hpos', -⟩ | ⟨-, hnone'⟩
        · exact absurd hpos' (Bool.eq_false_iff.mp (hnone _ List.mem_cons_self))
        · exact hnone' x hx
      · exact hnone x (List.mem_cons_of_mem _ hx)

/-- Of the greatest rate only a positive one is read, and it does not depend on the order. -/
theorem maxCriticality_eq (F : FloatOps S) (h : input.Reordered input') :
    F.pos (maxCriticality F input) = F.pos (maxCriticality F input') ∧
      (F.pos (maxCriticality F input) = true → maxCriticality F input = maxCriticality F input') := by
  have hset : ∀ x, x ∈ F.ofRat 0 :: input.criticality.map (·.2) ↔ x ∈ F.ofRat 0 :: input'.criticality.map (·.2) := fun x => by
    rw [List.mem_cons, List.mem_cons, (h.criticality.map Prod.snd).mem_iff]
  have hcases := foldl_max_cases F (input.criticality.map (·.2)) (F.ofRat 0)
  have hcases' := foldl_max_cases F (input'.criticality.map (·.2)) (F.ofRat 0)
  simp only [hset] at hcases
  rcases hcases with ⟨hpos, hgreatest⟩ | ⟨hnot, hnone⟩
  · rcases hcases' with ⟨hpos', hgreatest'⟩ | ⟨-, hnone'⟩
    · exact ⟨hpos.trans hpos'.symm, fun _ => hgreatest.unique hgreatest'⟩
    · exact absurd hgreatest.1.2 (Bool.eq_false_iff.mp (hnone' _ hgreatest.1.1))
  · rcases hcases' with ⟨-, hgreatest'⟩ | ⟨hnot', -⟩
    · exact absurd hgreatest'.1.2 (Bool.eq_false_iff.mp (hnone _ hgreatest'.1.1))
    · exact ⟨hnot.trans hnot'.symm, fun hpos => absurd hpos (Bool.eq_false_iff.mp hnot)⟩

theorem lookup_iff_mem {V : Type} {entries : List (String × V)} (hdistinct : (entries.map (·.1)).Nodup) {key : String} {value : V} :
    entries.lookup key = some value ↔ (key, value) ∈ entries := by
  constructor
  · intro hlookup
    obtain ⟨before, after, rfl, -⟩ := List.lookup_eq_some_iff.mp hlookup
    simp
  · intro hmem
    obtain ⟨before, after, rfl⟩ := List.append_of_mem hmem
    refine List.lookup_eq_some_iff.mpr ⟨before, after, rfl, fun e he => bne_iff_ne.mpr fun heq => ?_⟩
    rw [List.map_append, List.nodup_append] at hdistinct
    exact hdistinct.2.2 e.1 (List.mem_map_of_mem he) key (by simp) heq.symm

theorem trafficFactor_eq (F : FloatOps S) (h : input.Reordered input') (service : String) :
    trafficFactor F input service = trafficFactor F input' service := by
  have hlookup : input.criticality.lookup service = input'.criticality.lookup service := by
    refine Option.ext fun rate => ?_
    rw [lookup_iff_mem input.distinct, lookup_iff_mem input'.distinct, h.criticality.mem_iff]
  obtain ⟨hpos, hsame⟩ := maxCriticality_eq F h
  unfold trafficFactor
  dsimp only
  rw [hlookup, ← hpos]
  cases hmax : F.pos (maxCriticality F input) with
  | true => rw [hsame hmax]
  | false => rfl

theorem recommendation_eq (F : FloatOps S) (h : input.Reordered input') :
    recommendation F input = recommendation F input' := by
  funext action service article status
  unfold recommendation proximityReason
  rw [h.articleStrength, h.testedActionNames, inDegree_eq h, maxInDegree_eq h, proximityDistance_eq h, trafficFactor_eq F h,
    brokenServices_eq h]

/-! ## The ranking -/

theorem unranked_eq (F : FloatOps S) (h : input.Reordered input') (hone : input.OneCell) :
    unranked F input = unranked F input' := by
  unfold unranked
  rw [pickAction_eq h, candidates_eq h hone, recommendation_eq F h]

theorem mem_unranked (F : FloatOps S) (hone : input.OneCell) {r : Recommendation S} :
    r ∈ unranked F input ↔ ∃ action, pickAction input = some action ∧ ∃ cell ∈ input.lineage, Open cell ∧
      r = recommendation F input action cell.serviceId cell.articleId cell.status := by
  unfold unranked
  cases pickAction input with
  | none => simp
  | some action =>
    rw [List.mem_map]
    constructor
    · rintro ⟨⟨key, status⟩, hmem, rfl⟩
      obtain ⟨cell, hcell, hopen, hservice, harticle, hstatus⟩ :=
        (candidates_get_iff hone _ _ _).mp (OrdMap.mem_entries_iff.mp hmem)
      refine ⟨action, rfl, cell, hcell, hopen, ?_⟩
      rw [hservice, harticle, hstatus]
      rfl
    · rintro ⟨action', haction, cell, hcell, hopen, rfl⟩
      cases haction
      exact ⟨(toLex (cell.serviceId, cell.articleId), cell.status),
        OrdMap.mem_entries_iff.mpr ((candidates_get_iff hone _ _ _).mpr ⟨cell, hcell, hopen, rfl, rfl, rfl⟩), rfl⟩

/-- No pair of a service and an article comes twice. -/
theorem nodup_unranked (F : FloatOps S) (input : RecommendationInput S) :
    ((unranked F input).map fun r => (r.serviceId, r.articleId)).Nodup := by
  unfold unranked
  cases pickAction input with
  | none => exact List.nodup_nil
  | some action =>
    have hkeys : ((candidates input).entries.map fun e => ofLex e.1).Nodup := by
      rw [List.Nodup, List.pairwise_map]
      exact (candidates input).sorted.imp fun hlt heq => hlt.ne (ofLex.injective heq)
    dsimp only
    rw [List.map_map]
    exact hkeys

theorem nodup_rank (F : FloatOps S) (input : RecommendationInput S) : ((unranked F input).map Recommendation.rank).Nodup := by
  refine List.Nodup.of_map (fun rank => ((ofLex (ofLex rank).2).1, (ofLex (ofLex (ofLex rank).2).2).2)) ?_
  rw [List.map_map]
  exact nodup_unranked F input

/-- Exact arithmetic. -/
def exactOps : FloatOps ℚ where
  ofRat := id
  add := (· + ·)
  mul := (· * ·)
  div := (· / ·)
  max := (· ⊔ ·)
  pos x := decide (0 < x)
  rounded x := toString (round x)
  zero_not_pos := decide_eq_false (lt_irrefl 0)
  max_pos _ _ _ _ := rfl
  max_left a b ha hb := max_eq_left ((not_lt.mp (of_decide_eq_false hb)).trans (of_decide_eq_true ha).le)
  max_right a b ha hb := max_eq_right ((not_lt.mp (of_decide_eq_false ha)).trans (of_decide_eq_true hb).le)
  max_not_pos a b ha hb := by
    rw [decide_eq_false_iff_not, not_lt] at ha hb ⊢
    exact max_le ha hb

/-- An article that is untested on a service, where nothing is broken. -/
def untestedInput : RecommendationInput ℚ where
  lineage := [⟨"dora:art-24", "svc:checkout", .untested, none, none, []⟩]
  dependsOn := [("svc:web", "svc:checkout")]
  availableActions := [⟨"docker", "pause_container"⟩]
  testedActionNames := ∅
  articleStrength _ := none
  criticality := []
  distinct := List.nodup_nil

end

end Tumult.Recommend
