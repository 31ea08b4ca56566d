import Tumult.Lib.Ball
import Tumult.Query.Neighbors

/-!
# The ego sub-graph is the ball

The rows of a level are the ends of the walks of that length, so the nodes reached are those of the ball. The levels are counted in
a column of type `INTEGER`: a walk goes on back and forth along any edge, so a depth beyond the range of the type makes the query
fail, unless no edge touches the centre.
-/

namespace Tumult.Ego

open Ball Recursive

variable {st : GraphStore} {center : String} {rel : Option String}

/-! ## The ball -/

/-- The edges that the filter keeps, as a relation. -/
def Linked (edges : List EdgeRecord) (rel : Option String) (u v : String) : Prop :=
  ∃ e ∈ edges, relFilter rel e = true ∧ e.src = u ∧ e.dst = v

/-- The undirected graph of the edges that the filter keeps. -/
def filtered (st : GraphStore) (rel : Option String) : SimpleGraph String := SimpleGraph.fromRel (Linked st.edges rel)

/-- The nodes at most so far from the centre. -/
def InBall (st : GraphStore) (center : String) (rel : Option String) (radius : Nat) (id : String) : Prop :=
  (filtered st rel).edist center id ≤ radius

/-- What is returned is the ball. -/
structure IsEgo (st : GraphStore) (center : String) (rel : Option String) (radius : Nat) (ego : EgoGraph) : Prop where
  around : ego.center = center
  nodes : ∀ n, n ∈ ego.nodes ↔ n ∈ st.nodes ∧ InBall st center rel radius n.id
  nodes_once : (ego.nodes.map (·.id)).Nodup
  edges : ∀ t, t ∈ ego.edges ↔ ∃ e ∈ st.edges, relFilter rel e = true ∧ t = ⟨e.src, e.rel, e.dst⟩ ∧
    InBall st center rel radius e.src ∧ InBall st center rel radius e.dst
  edges_once : ego.edges.Nodup

/-- The query ends, and returns the ball. -/
def ReturnsBall (st : GraphStore) (center : String) (rel : Option String) (depth : Int64) : Prop :=
  ∃ ego rounds, IsEgo st center rel (max depth.toInt 1).toNat ego ∧
    ∀ fuel ≥ rounds, (graphNeighbors fuel st center rel depth).run = some (.ok (some ego))

/-- No edge that the filter keeps touches the node. -/
def Isolated (st : GraphStore) (center : String) (rel : Option String) : Prop :=
  ∀ e ∈ st.edges, relFilter rel e = true → e.src ≠ center ∧ e.dst ≠ center

/-! ## The levels -/

/-- Two ends of an edge that the filter keeps. -/
def Joined (edges : List EdgeRecord) (rel : Option String) (u v : String) : Prop := Linked edges rel u v ∨ Linked edges rel v u

theorem Joined.symm {edges : List EdgeRecord} {u v : String} (h : Joined edges rel u v) : Joined edges rel v u := Or.symm h

theorem filtered_eq : filtered st rel = SimpleGraph.fromRel (Joined st.edges rel) := by
  ext u v
  rw [filtered, SimpleGraph.fromRel_adj, SimpleGraph.fromRel_adj, Joined, Joined]
  tauto

/-- The rows of a level. -/
def level (r : Reach) (edges : List EdgeRecord) (k : Nat) : Set (String × Int) :=
  {row | row.2 = k ∧ Walks (Joined edges r.rel) r.center k row.1}

variable {r : Reach} {edges : List EdgeRecord}

theorem level_disjoint (i j : Nat) (row : String × Int) (hi : row ∈ level r edges i) (hj : row ∈ level r edges j) : i = j := by
  have hlevel := hi.1.symm.trans hj.1
  omega

theorem level_empty {k : Nat} (h : ∀ row, row ∉ level r edges k) : ∀ row, row ∉ level r edges (k + 1) := by
  rintro ⟨w, d⟩ ⟨-, hwalk⟩
  obtain ⟨v, hv, -⟩ := walks_succ.mp hwalk
  exact h (v, k) ⟨rfl, hv⟩

/-- The rows that a round finds. -/
theorem mem_found {working : List (String × Int)} {w : String} {d : Int} :
    (w, d) ∈ (working.flatMap fun row =>
      (edges.filter fun e => (e.src = row.1 || e.dst = row.1) && relFilter r.rel e && row.2 < r.depth).map fun e =>
        (if e.src = row.1 then e.dst else e.src, row.2 + 1)) ↔
      ∃ v, (v, d - 1) ∈ working ∧ d - 1 < r.depth ∧ Joined edges r.rel v w := by
  simp only [List.mem_flatMap, List.mem_map, List.mem_filter, Bool.and_eq_true, Bool.or_eq_true, decide_eq_true_eq, Prod.mk.injEq]
  constructor
  · rintro ⟨⟨v, k⟩, hrow, e, ⟨he, ⟨htouch, hrel⟩, hdepth⟩, hend, rfl⟩
    dsimp only at htouch hend hdepth
    rw [Int.add_sub_cancel]
    refine ⟨v, hrow, hdepth, ?_⟩
    by_cases hsrc : e.src = v
    · rw [if_pos hsrc] at hend
      exact Or.inl ⟨e, he, hrel, hsrc, hend⟩
    · rw [if_neg hsrc] at hend
      exact Or.inr ⟨e, he, hrel, hend, htouch.resolve_left hsrc⟩
  · rintro ⟨v, hrow, hdepth, ⟨e, he, hrel, rfl, rfl⟩ | ⟨e, he, hrel, rfl, rfl⟩⟩
    · exact ⟨_, hrow, e, ⟨he, ⟨Or.inl rfl, hrel⟩, hdepth⟩, if_pos rfl, Int.sub_add_cancel d 1⟩
    · refine ⟨_, hrow, e, ⟨he, ⟨Or.inr rfl, hrel⟩, hdepth⟩, ?_, Int.sub_add_cancel d 1⟩
      -- at a self-loop both ends are the node
      split
      · exact Eq.symm ‹_›
      · rfl

/-- A round before the last finds the next level. -/
theorem round_ok {k : Nat} {working : List (String × Int)} (hdepth : (k : Int) < r.depth) (hmax : (k : Int) + 1 ≤ INTEGER_MAX)
    (h : Lists working (level r edges k)) : ∃ found, r.round edges working = .ok found ∧ Lists found (level r edges (k + 1)) := by
  refine ⟨_, if_pos (List.all_eq_true.mpr ?_), ?_⟩
  · rintro ⟨w, d⟩ hfound
    obtain ⟨v, hv, -, -⟩ := mem_found.mp hfound
    have hlevel := ((h _).mp hv).1
    dsimp only at hlevel
    simp only [decide_eq_true_eq]
    omega
  · rintro ⟨w, d⟩
    rw [mem_found]
    constructor
    · rintro ⟨v, hv, -, hjoined⟩
      obtain ⟨hlevel, hwalk⟩ := (h _).mp hv
      dsimp only at hlevel hwalk
      exact ⟨by push_cast; omega, walks_succ.mpr ⟨v, hwalk, hjoined⟩⟩
    · rintro ⟨hlevel, hwalk⟩
      obtain ⟨v, hv, hjoined⟩ := walks_succ.mp hwalk
      dsimp only at hlevel
      push_cast at hlevel
      exact ⟨v, (h _).mpr ⟨by dsimp only; omega, hv⟩, by omega, hjoined⟩

/-- A round at the depth finds nothing, nor does one that no edge touches. -/
theorem round_last {k : Nat} {working : List (String × Int)}
    (hlast : r.depth ≤ k ∨ ∀ row ∈ level r edges k, ∀ w, ¬ Joined edges r.rel row.1 w) (h : Lists working (level r edges k)) :
    r.round edges working = .ok [] := by
  have hnone : (working.flatMap fun row =>
      (edges.filter fun e => (e.src = row.1 || e.dst = row.1) && relFilter r.rel e && row.2 < r.depth).map fun e =>
        (if e.src = row.1 then e.dst else e.src, row.2 + 1)) = [] := by
    rw [List.eq_nil_iff_forall_not_mem]
    rintro ⟨w, d⟩ hfound
    obtain ⟨v, hv, hdepth, hjoined⟩ := mem_found.mp hfound
    have hrow := (h _).mp hv
    rcases hlast with hle | hnot
    · have hlevel := hrow.1
      dsimp only at hlevel
      omega
    · exact hnot _ hrow w hjoined
  unfold Reach.round
  rw [hnone]
  rfl

/-- A round that goes beyond the range of the levels fails. -/
theorem round_overflow {working : List (String × Int)} {k : Nat} (hdepth : (k : Int) < r.depth) (hmax : (k : Int) = INTEGER_MAX)
    {v w : String} (hwalk : Walks (Joined edges r.rel) r.center k v) (hjoined : Joined edges r.rel v w)
    (h : Lists working (level r edges k)) : r.round edges working = .error .overflow := by
  refine if_neg fun hall => ?_
  have hfound := List.all_eq_true.mp hall (w, (k : Int) + 1)
    (mem_found.mpr ⟨v, (h _).mpr ⟨by dsimp only; omega, hwalk⟩, by omega, hjoined⟩)
  simp only [decide_eq_true_eq] at hfound
  omega

/-! ## The evaluation -/

theorem lists_start : Lists [(r.center, (0 : Int))] {row | ∃ i ≤ 0, row ∈ level r edges i} := by
  rintro ⟨w, d⟩
  simp only [List.mem_singleton, Prod.mk.injEq, Nat.le_zero_eq, exists_eq_left, level, Set.mem_ofPred_eq, walks_zero, Nat.cast_zero]
  exact And.comm

theorem lists_start_level : Lists [(r.center, (0 : Int))] (level r edges 0) := by
  rintro ⟨w, d⟩
  simp only [List.mem_singleton, Prod.mk.injEq, level, Set.mem_ofPred_eq, walks_zero, Nat.cast_zero]
  exact And.comm

/-- The rows are those of the levels up to the depth, where the levels are in range or there is one level only. -/
theorem rows_ok (edges : List EdgeRecord) (hdepth : 0 ≤ r.depth) (h : r.depth ≤ INTEGER_MAX ∨ ∀ w, ¬ Joined edges r.rel r.center w) :
    ∃ rows rounds, Lists rows {row | ∃ i ≤ r.depth.toNat, row ∈ level r edges i} ∧
      ∀ fuel ≥ rounds, (r.rows fuel edges).run = some (.ok rows) := by
  have hrun : ∃ last rows, Recursive.evaluate (r.round edges) (last + 1) [(r.center, 0)] [(r.center, 0)] = some (.ok rows) ∧
      Lists rows {row | ∃ i ≤ r.depth.toNat, row ∈ level r edges i} := by
    rcases h with hmax | hisolated
    · obtain ⟨rows, heval, hrows⟩ := evaluate_levels r.depth.toNat level_disjoint
        (fun k hk working hworking => round_ok (r := r) (by omega) (by omega) hworking)
        (fun working hworking => round_last (Or.inl (by omega)) hworking) (fun k => level_empty) r.depth.toNat
        (Nat.zero_add _) lists_start lists_start_level (r.depth.toNat + 1) (Nat.lt_succ_self _)
      exact ⟨_, rows, heval, hrows⟩
    · have hone : ∀ row ∈ level r edges 0, ∀ w, ¬ Joined edges r.rel row.1 w := by
        rintro row ⟨-, hwalk⟩
        rw [walks_zero.mp hwalk]
        exact hisolated
      obtain ⟨rows, heval, hrows⟩ := evaluate_levels 0 level_disjoint
        (fun k hk working hworking => absurd hk (Nat.not_lt_zero k))
        (fun working hworking => round_last (Or.inr hone) hworking) (fun k => level_empty) 0
        (Nat.zero_add _) lists_start lists_start_level 1 Nat.one_pos
      refine ⟨0, rows, heval, fun row => (hrows row).trans ⟨?_, ?_⟩⟩
      · rintro ⟨i, hi, hrow⟩
        exact ⟨i, by omega, hrow⟩
      · rintro ⟨i, -, hrow⟩
        cases i with
        | zero => exact ⟨0, le_refl _, hrow⟩
        | succ i =>
          have hnone : ∀ n, ∀ row, row ∉ level r edges (n + 1) := by
            intro n
            induction n with
            | zero =>
              rintro row ⟨-, hwalk⟩
              obtain ⟨v, hv, hjoined⟩ := walks_succ.mp hwalk
              rw [walks_zero.mp hv] at hjoined
              exact hisolated _ hjoined
            | succ n ih => exact level_empty ih
          exact absurd hrow (hnone i row)
  obtain ⟨last, rows, heval, hrows⟩ := hrun
  exact ⟨rows, last + 1, hrows, fun fuel hfuel => evaluate_mono hfuel heval⟩

/-- Where the levels go beyond their range, the query fails. -/
theorem rows_overflow (hdepth : INTEGER_MAX < r.depth) {w : String} (hjoined : Joined edges r.rel r.center w) {fuel : Nat}
    (hfuel : INTEGER_MAX.toNat < fuel) : (r.rows fuel edges).run = some (.error .overflow) := by
  have hmax : (INTEGER_MAX.toNat : Int) = INTEGER_MAX := rfl
  refine evaluate_levels_error INTEGER_MAX.toNat level_disjoint
    (fun k hk working hworking => round_ok (r := r) (by omega) (by omega) hworking) (fun working hworking => ?_) (fun k _ => ?_)
    INTEGER_MAX.toNat (Nat.zero_add _) lists_start lists_start_level fuel hfuel
  · obtain ⟨a, b, hwalk, hab⟩ := exists_walks hjoined Joined.symm INTEGER_MAX.toNat
    exact round_overflow (by omega) hmax hwalk hab hworking
  · obtain ⟨a, b, hwalk, -⟩ := exists_walks hjoined Joined.symm k
    exact ⟨(a, k), rfl, hwalk⟩

/-! ## What a query reaches -/

theorem reached_iff {rows : List (String × Int)} {id : String} {radius : Nat} (hsame : r.rel = rel) (hcenter : r.center = center)
    (h : Lists rows {row | ∃ i ≤ radius, row ∈ level r st.edges i}) : reached rows id = true ↔ InBall st center rel radius id := by
  subst hsame hcenter
  rw [InBall, filtered_eq, ← walks_iff_edist Joined.symm, reached, List.any_eq_true]
  constructor
  · rintro ⟨⟨w, d⟩, hrow, hid⟩
    obtain ⟨i, hi, -, hwalk⟩ := (h _).mp hrow
    rw [← of_decide_eq_true hid]
    exact ⟨i, hi, hwalk⟩
  · rintro ⟨i, hi, hwalk⟩
    exact ⟨(id, i), (h _).mpr ⟨i, hi, rfl, hwalk⟩, decide_eq_true rfl⟩

/-- The reachability part that both queries are bound to. -/
def reachOf (center : String) (rel : Option String) (depth : Int64) : Reach := ⟨center, rel, max depth.toInt 1⟩

/-- The parameters of the node query are in the order of its placeholders. -/
theorem egoNodes_bound (center : String) (rel : Option String) (depth : Int64) :
    bindParams (egoNodes rel.isSome) (rel.elim [.text center, .bigint (max depth.toInt 1)] fun rel =>
      [.text center, .text rel, .bigint (max depth.toInt 1)]) = .ok (reachOf center rel depth) := by
  cases rel <;> rfl

/-- The parameters of the edge query are in the order of its placeholders. -/
theorem egoEdges_bound (center : String) (rel : Option String) (depth : Int64) :
    bindParams (egoEdges rel.isSome) (rel.elim [.text center, .bigint (max depth.toInt 1)] fun rel =>
      [.text center, .text rel, .bigint (max depth.toInt 1), .text rel]) = .ok (reachOf center rel depth, rel) := by
  cases rel <;> rfl

/-- The ego sub-graph, by the rows of the reachability part. -/
def egoOf (st : GraphStore) (center : String) (rel : Option String) (rows : List (String × Int)) : EgoGraph where
  center := center
  nodes := (st.nodes.filter fun n => reached rows n.id).mergeSort fun a b => a.id ≤ b.id
  edges := ((st.edges.filter fun e => reached rows e.src && reached rows e.dst && relFilter rel e).map fun e =>
    (⟨e.src, e.rel, e.dst⟩ : EgoTuple)).dedup.mergeSort fun a b => [a.src, a.rel, a.dst] ≤ [b.src, b.rel, b.dst]

/-- What is returned for a node that exists. -/
theorem graphNeighbors_run (fuel : Nat) {depth : Int64} (hcenter : ∃ n ∈ st.nodes, n.id = center)
    {result : Except DbError (List (String × Int))} (h : ((reachOf center rel depth).rows fuel st.edges).run = some result) :
    (graphNeighbors fuel st center rel depth).run = some (result.map fun rows => some (egoOf st center rel rows)) := by
  have hexists : nodeExists st center = true := by
    obtain ⟨n, hn, hid⟩ := hcenter
    exact decide_eq_true (List.countP_pos_iff.mpr ⟨n, hn, decide_eq_true hid⟩)
  have hrows : (reachOf center rel depth).rows fuel st.edges = some result := h
  unfold graphNeighbors queryNodes queryEdges
  have hlift : ∀ {α β : Type} (a : α) (f : α → ExceptT DbError Option β), (liftM (Except.ok a : Except DbError α) >>= f) = f a :=
    fun _ _ => rfl
  simp only [hexists, Bool.not_true, Bool.false_eq_true, if_false, egoNodes_bound, egoEdges_bound, hlift, hrows]
  cases result <;> rfl

theorem isEgo_egoOf {rows : List (String × Int)} {radius : Nat}
    (h : ∀ id, reached rows id = true ↔ InBall st center rel radius id) : IsEgo st center rel radius (egoOf st center rel rows) := by
  have hedges : ∀ t, t ∈ (egoOf st center rel rows).edges ↔ ∃ e ∈ st.edges, (reached rows e.src = true ∧ reached rows e.dst = true) ∧
      relFilter rel e = true ∧ t = ⟨e.src, e.rel, e.dst⟩ := by
    intro t
    simp only [egoOf, List.mem_mergeSort, List.mem_dedup, List.mem_map, List.mem_filter, Bool.and_eq_true]
    constructor
    · rintro ⟨e, ⟨he, hends, hrel⟩, rfl⟩
      exact ⟨e, he, hends, hrel, rfl⟩
    · rintro ⟨e, he, hends, hrel, rfl⟩
      exact ⟨e, ⟨he, hends, hrel⟩, rfl⟩
  refine ⟨rfl, fun n => ?_, ?_, fun t => ?_, ?_⟩
  · rw [egoOf, List.mem_mergeSort, List.mem_filter, h]
  · have hperm := (List.mergeSort_perm (st.nodes.filter fun n => reached rows n.id) fun a b => decide (a.id ≤ b.id)).map NodeSummary.id
    exact hperm.nodup_iff.mpr (st.ids_nodup.sublist (List.filter_sublist.map _))
  · rw [hedges]
    constructor
    · rintro ⟨e, he, ⟨hsrc, hdst⟩, hrel, rfl⟩
      exact ⟨e, he, hrel, rfl, (h _).mp hsrc, (h _).mp hdst⟩
    · rintro ⟨e, he, hrel, rfl, hsrc, hdst⟩
      exact ⟨e, he, ⟨(h _).mpr hsrc, (h _).mpr hdst⟩, hrel, rfl⟩
  · exact (List.mergeSort_perm _ _).nodup_iff.mpr (List.nodup_dedup _)

theorem isolated_iff : (∀ w, ¬ Joined st.edges rel center w) ↔ Isolated st center rel := by
  constructor
  · intro h e he hrel
    exact ⟨fun hsrc => h e.dst (Or.inl ⟨e, he, hrel, hsrc, rfl⟩), fun hdst => h e.src (Or.inr ⟨e, he, hrel, rfl, hdst⟩)⟩
  · rintro h w (⟨e, he, hrel, hsrc, -⟩ | ⟨e, he, hrel, -, hdst⟩)
    · exact (h e he hrel).1 hsrc
    · exact (h e he hrel).2 hdst

/-- A depth beyond the range of the levels makes the query fail, where an edge touches the centre. -/
theorem not_returnsBall {depth : Int64} (hcenter : ∃ n ∈ st.nodes, n.id = center) (hdepth : INTEGER_MAX < depth.toInt) {w : String}
    (hjoined : Joined st.edges rel center w) : ¬ ReturnsBall st center rel depth := by
  rintro ⟨ego, rounds, -, hrun⟩
  have hmax : INTEGER_MAX = 2147483647 := rfl
  have hfail := graphNeighbors_run (max rounds (INTEGER_MAX.toNat + 1)) hcenter
    (rows_overflow (r := reachOf center rel depth) (by simp only [reachOf]; omega) hjoined (Nat.lt_of_succ_le (le_max_right _ _)))
  rw [hrun _ (le_max_left _ _)] at hfail
  cases hfail

/-- The ball comes back exactly when the depth is in the range of the levels, or no edge touches the centre. -/
theorem ego_ball_iff {depth : Int64} (hcenter : ∃ n ∈ st.nodes, n.id = center) :
    ReturnsBall st center rel depth ↔ depth.toInt ≤ INTEGER_MAX ∨ Isolated st center rel := by
  constructor
  · intro h
    by_contra hnot
    obtain ⟨hdepth, hjoined⟩ := not_or.mp hnot
    rw [← isolated_iff, not_forall] at hjoined
    obtain ⟨w, hw⟩ := hjoined
    exact not_returnsBall hcenter (not_le.mp hdepth) (not_not.mp hw) h
  · intro h
    have hmax : INTEGER_MAX = 2147483647 := rfl
    obtain ⟨rows, rounds, hrows, hrun⟩ := rows_ok (r := reachOf center rel depth) st.edges (by simp [reachOf]) (by
      rw [isolated_iff]
      refine h.imp_left fun hle => ?_
      simp only [reachOf]
      omega)
    refine ⟨egoOf st center rel rows, rounds, isEgo_egoOf fun id => reached_iff rfl rfl hrows, fun fuel hfuel => ?_⟩
    exact graphNeighbors_run fuel hcenter (hrun fuel hfuel)

/-- One service that depends on another. -/
def twoServices : GraphStore where
  nodes := [⟨"svc:api", "service", "api"⟩, ⟨"svc:db", "service", "db"⟩]
  edges := [⟨"svc:api", "depends_on", "svc:db", "topology", 1, "\x7b\x7d"⟩]
  ids_nodup := by decide

theorem ego_ball_three : ReturnsBall twoServices "svc:api" (some "depends_on") 3 :=
  (ego_ball_iff ⟨⟨"svc:api", "service", "api"⟩, by simp [twoServices], rfl⟩).mpr (Or.inl (by decide))

/-- A depth of `2 ^ 31` makes the levels go beyond their range. -/
theorem ego_ball_deep_false : ¬ ReturnsBall twoServices "svc:api" (some "depends_on") 2147483648 := by
  have hlinked : Linked twoServices.edges (some "depends_on") "svc:api" "svc:db" :=
    ⟨⟨"svc:api", "depends_on", "svc:db", "topology", 1, "\x7b\x7d"⟩, by simp [twoServices], rfl, rfl, rfl⟩
  exact not_returnsBall ⟨⟨"svc:api", "service", "api"⟩, by simp [twoServices], rfl⟩ (by decide) (Or.inl hlinked)

end Tumult.Ego
