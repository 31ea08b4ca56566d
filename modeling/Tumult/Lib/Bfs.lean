import Mathlib

/-!
# Breadth-first search from several sources

A queue of nodes whose neighbours are still to be visited, and the distance of every node that was visited. The queue holds the
nodes of two distances that follow each other, the nearer ones first; so a node is visited from a nearest one, and when the queue is
empty the distances are the shortest.
-/

namespace Bfs

variable {α : Type*}

/-- A node that can be reached from a source in a number of steps. -/
inductive Reach (adj : α → List α) (sources : List α) : Nat → α → Prop
  | source {v : α} (h : v ∈ sources) : Reach adj sources 0 v
  | step {n : Nat} {v w : α} (h : Reach adj sources n v) (hw : w ∈ adj v) : Reach adj sources (n + 1) w

/-- A search: the distances so far, and the nodes whose neighbours are to be visited. -/
structure State (α : Type*) where
  dist : List (α × Nat)
  queue : List α

variable [DecidableEq α]

/-- The distance of a node, when it was visited. -/
def State.get (s : State α) (v : α) : Option Nat := s.dist.lookup v

/-- A node is visited, unless it was visited before. -/
def visit (d : Nat) (s : State α) (w : α) : State α :=
  if (s.get w).isSome then s else ⟨(w, d) :: s.dist, s.queue ++ [w]⟩

/-- The neighbours of one node after the other are visited, up to a number of nodes. -/
def run (adj : α → List α) : Nat → State α → State α
  | 0, s => s
  | fuel + 1, s =>
    match s.queue with
    | [] => s
    | current :: queue => run adj fuel ((adj current).foldl (visit ((s.get current).getD 0 + 1)) ⟨s.dist, queue⟩)

/-- The sources have the distance 0. -/
def start (sources : List α) : State α := ⟨sources.map (·, 0), sources⟩

/-! ## Visiting -/

theorem get_cons (v w : α) (d : Nat) (dist : List (α × Nat)) (queue : List α) :
    State.get ⟨(w, d) :: dist, queue⟩ v = if v = w then some d else dist.lookup v := by
  by_cases hv : v = w
  · simp [State.get, hv]
  · have hne : (v == w) = false := beq_eq_false_iff_ne.mpr hv
    simp [State.get, List.lookup_cons, hv, hne]

theorem get_isSome_iff {s : State α} {v : α} : (s.get v).isSome ↔ v ∈ s.dist.map (·.1) := by
  obtain ⟨dist, queue⟩ := s
  induction dist with
  | nil => simp [State.get]
  | cons e dist ih =>
    obtain ⟨w, d⟩ := e
    rw [get_cons]
    by_cases hv : v = w
    · simp [hv]
    · rw [if_neg hv, List.map_cons, List.mem_cons]
      exact ih.trans (or_iff_right hv).symm

/-- What visiting nodes changes: new ones among them get the distance and go to the end of the queue, and all of them are known. -/
theorem visit_all (d : Nat) (ws : List α) (s : State α) (hnodup : (s.dist.map (·.1)).Nodup) :
    ∃ news, (ws.foldl (visit d) s).queue = s.queue ++ news ∧ (∀ v ∈ news, v ∈ ws ∧ s.get v = none) ∧
      (∀ v, (ws.foldl (visit d) s).get v = if v ∈ news then some d else s.get v) ∧
      (∀ w ∈ ws, ((ws.foldl (visit d) s).get w).isSome) ∧ (ws.foldl (visit d) s).dist.length = s.dist.length + news.length ∧
      ((ws.foldl (visit d) s).dist.map (·.1)).Nodup := by
  induction ws generalizing s with
  | nil => exact ⟨[], by simp, by simp, by simp, by simp, by simp, hnodup⟩
  | cons w ws ih =>
    rw [List.foldl_cons]
    by_cases hw : (s.get w).isSome = true
    · have hsame : visit d s w = s := if_pos hw
      obtain ⟨news, hqueue, hnews, hget, hall, hlength, hnodup'⟩ := ih s hnodup
      rw [hsame]
      refine ⟨news, hqueue, fun v hv => ⟨List.mem_cons_of_mem w (hnews v hv).1, (hnews v hv).2⟩, hget, fun v hv => ?_, hlength, hnodup'⟩
      rcases List.mem_cons.mp hv with rfl | hv
      · rw [hget]
        split
        · rfl
        · exact hw
      · exact hall v hv
    · have hnone : s.get w = none := Option.not_isSome_iff_eq_none.mp hw
      have hvisit : visit d s w = ⟨(w, d) :: s.dist, s.queue ++ [w]⟩ := if_neg hw
      have hfresh : w ∉ s.dist.map (·.1) := fun hmem => hw (get_isSome_iff.mpr hmem)
      have hdistinct : ((visit d s w).dist.map (·.1)).Nodup := by
        rw [hvisit]
        exact List.nodup_cons.mpr ⟨hfresh, hnodup⟩
      obtain ⟨news, hqueue, hnews, hget, hall, hlength, hnodup'⟩ := ih _ hdistinct
      have hcons : ∀ v, (visit d s w).get v = if v = w then some d else s.get v := fun v => by rw [hvisit, get_cons]; rfl
      have hw' : w ∉ news := fun hmem => by
        have hnone' := (hnews w hmem).2
        rw [hcons, if_pos rfl] at hnone'
        nomatch hnone'
      refine ⟨w :: news, ?_, fun v hv => ?_, fun v => ?_, fun v hv => ?_, ?_, hnodup'⟩
      · rw [hqueue, hvisit, List.append_assoc, List.singleton_append]
      · rcases List.mem_cons.mp hv with rfl | hv
        · exact ⟨List.mem_cons_self, hnone⟩
        · have hv' := (hnews v hv).2
          rw [hcons] at hv'
          split at hv'
          · nomatch hv'
          · exact ⟨List.mem_cons_of_mem w (hnews v hv).1, hv'⟩
      · rw [hget, hcons]
        by_cases hv : v = w
        · simp [hv, hw']
        · simp [hv]
      · rcases List.mem_cons.mp hv with rfl | hv
        · rw [hget, if_neg hw', hcons, if_pos rfl]
          rfl
        · exact hall v hv
      · rw [hlength, hvisit, List.length_cons, List.length_cons]
        omega

/-! ## The search -/

/-- How far a search has come: the queue holds nodes at a distance and then nodes at the next one, and no node is farther; every
distance is that of a path; and the neighbours of the nodes behind the queue are known, at most one step farther. -/
structure Search (adj : α → List α) (sources : List α) (U : Finset α) (s : State α) (k : Nat) (as bs : List α) : Prop where
  queue : s.queue = as ++ bs
  now : ∀ v ∈ as, s.get v = some k
  next : ∀ v ∈ bs, s.get v = some (k + 1)
  bound : ∀ v d, s.get v = some d → d ≤ k + 1
  sound : ∀ v d, s.get v = some d → Reach adj sources d v
  starts : ∀ v ∈ sources, s.get v = some 0
  closed : ∀ v d, s.get v = some d → v ∉ s.queue → ∀ w ∈ adj v, ∃ e ≤ d + 1, s.get w = some e
  nodup : (s.dist.map (·.1)).Nodup
  inside : ∀ v ∈ s.dist.map (·.1), v ∈ U

variable {adj : α → List α} {sources : List α} {U : Finset α} {s : State α} {k : Nat} {as bs : List α}

/-- When no node at the distance is left, the next distance is the one. -/
theorem Search.shift (h : Search adj sources U s k [] bs) : Search adj sources U s (k + 1) bs [] where
  queue := by rw [h.queue, List.nil_append, List.append_nil]
  now := h.next
  next v hv := absurd hv List.not_mem_nil
  bound v d hd := Nat.le_succ_of_le (h.bound v d hd)
  sound := h.sound
  starts := h.starts
  closed := h.closed
  nodup := h.nodup
  inside := h.inside

/-- One step: the neighbours of the first node are visited. -/
theorem Search.step {current : α} (h : Search adj sources U s k (current :: as) bs) (hU : ∀ v ∈ U, ∀ w ∈ adj v, w ∈ U) :
    ∃ news, Search adj sources U ((adj current).foldl (visit (k + 1)) ⟨s.dist, as ++ bs⟩) k as (bs ++ news) ∧
      ((adj current).foldl (visit (k + 1)) ⟨s.dist, as ++ bs⟩).dist.length = s.dist.length + news.length := by
  have hcurrent : s.get current = some k := h.now current List.mem_cons_self
  obtain ⟨news, hqueue, hnews, hget, hall, hlength, hnodup⟩ := visit_all (k + 1) (adj current) ⟨s.dist, as ++ bs⟩ h.nodup
  have hget' : ∀ v, ((adj current).foldl (visit (k + 1)) ⟨s.dist, as ++ bs⟩).get v = if v ∈ news then some (k + 1) else s.get v := hget
  have hkept : ∀ v d, s.get v = some d → v ∉ news := fun v d hd hv => by
    have hnone : s.get v = none := (hnews v hv).2
    rw [hd] at hnone
    nomatch hnone
  have hold : ∀ v d, s.get v = some d → ((adj current).foldl (visit (k + 1)) ⟨s.dist, as ++ bs⟩).get v = some d := fun v d hd => by
    rw [hget', if_neg (hkept v d hd), hd]
  have hbound : ∀ v d, ((adj current).foldl (visit (k + 1)) ⟨s.dist, as ++ bs⟩).get v = some d → d ≤ k + 1 := by
    intro v d hd
    rw [hget'] at hd
    split at hd
    · exact Option.some.inj hd ▸ le_refl _
    · exact h.bound v d hd
  have hinU : current ∈ U := h.inside current (get_isSome_iff.mp (by rw [hcurrent]; rfl))
  refine ⟨news, ⟨by rw [hqueue, List.append_assoc], fun v hv => hold v k (h.now v (List.mem_cons_of_mem _ hv)), fun v hv => ?_, hbound,
    fun v d hd => ?_, fun v hv => hold v 0 (h.starts v hv), fun v d hd hv w hw => ?_, hnodup, fun v hv => ?_⟩, hlength⟩
  · rcases List.mem_append.mp hv with hv | hv
    · exact hold v (k + 1) (h.next v hv)
    · rw [hget', if_pos hv]
  · rw [hget'] at hd
    split at hd
    · next hnew => exact Option.some.inj hd ▸ .step (h.sound current k hcurrent) (hnews v hnew).1
    · exact h.sound v d hd
  · have hv' : v ∉ news := fun hnew => hv (by rw [hqueue]; exact List.mem_append_right _ hnew)
    rw [hget', if_neg hv'] at hd
    by_cases hsame : v = current
    · subst hsame
      obtain ⟨e, he⟩ := Option.isSome_iff_exists.mp (hall w hw)
      obtain rfl := Option.some.inj (hd.symm.trans hcurrent)
      exact ⟨e, hbound w e he, he⟩
    · have hqueued : v ∉ s.queue := by
        rw [h.queue, List.cons_append, List.mem_cons, not_or]
        exact ⟨hsame, fun hmem => hv (by rw [hqueue]; exact List.mem_append_left _ hmem)⟩
      obtain ⟨e, hle, he⟩ := h.closed v d hd hqueued w hw
      exact ⟨e, hle, hold w e he⟩
  · have hsome := get_isSome_iff.mpr hv
    rw [hget'] at hsome
    split at hsome
    · next hnew => exact hU current hinU v (hnews v hnew).1
    · exact h.inside v (get_isSome_iff.mp hsome)

/-- Every node has room: those that are known are inside, each once. -/
theorem Search.length_le (h : Search adj sources U s k as bs) : s.dist.length ≤ U.card := by
  have hcard := List.toFinset_card_of_nodup h.nodup
  rw [List.length_map] at hcard
  rw [← hcard]
  exact Finset.card_le_card fun v hv => h.inside v (List.mem_toFinset.mp hv)

/-- With a step for each node that is not known and each that is in the queue, the queue is empty in the end (induction on the
steps). -/
theorem Search.run (hU : ∀ v ∈ U, ∀ w ∈ adj v, w ∈ U) {fuel : Nat} (h : Search adj sources U s k as bs)
    (hfuel : U.card - s.dist.length + s.queue.length ≤ fuel) : ∃ k', Search adj sources U (Bfs.run adj fuel s) k' [] [] := by
  induction fuel generalizing s k as bs with
  | zero =>
    have hempty : s.queue = [] := List.length_eq_zero_iff.mp (by omega)
    have hparts := List.append_eq_nil_iff.mp (h.queue ▸ hempty)
    rw [hparts.1, hparts.2] at h
    exact ⟨k, h⟩
  | succ fuel ih =>
    have hgo : ∀ {k current as bs}, Search adj sources U s k (current :: as) bs →
        ∃ k', Search adj sources U (Bfs.run adj (fuel + 1) s) k' [] [] := by
      intro k current as bs h
      obtain ⟨news, hstep, hlength⟩ := h.step hU
      have hroom := hstep.length_le
      have hrun : Bfs.run adj (fuel + 1) s = Bfs.run adj fuel ((adj current).foldl (visit (k + 1)) ⟨s.dist, as ++ bs⟩) := by
        rw [Bfs.run, h.queue]
        simp only [List.cons_append, h.now current List.mem_cons_self, Option.getD_some]
      rw [hrun]
      refine ih hstep ?_
      rw [h.queue, List.length_append, List.length_cons] at hfuel
      rw [hstep.queue, List.length_append, List.length_append]
      omega
    cases as with
    | cons current as => exact hgo h
    | nil =>
      cases bs with
      | cons current bs => exact hgo h.shift
      | nil =>
        refine ⟨k, ?_⟩
        rw [Bfs.run, h.queue]
        exact h

/-- When the queue is empty, a node that can be reached is known, no farther than that (induction on the path). -/
theorem Search.complete (h : Search adj sources U s k [] []) {n : Nat} {v : α} (hv : Reach adj sources n v) :
    ∃ d ≤ n, s.get v = some d := by
  induction hv with
  | source hv => exact ⟨0, le_refl 0, h.starts _ hv⟩
  | step _ hw ih =>
    obtain ⟨d, hle, hd⟩ := ih
    obtain ⟨e, hle', he⟩ := h.closed _ d hd (by rw [h.queue]; exact List.not_mem_nil) _ hw
    exact ⟨e, by omega, he⟩

theorem get_start (sources : List α) (v : α) : (start sources).get v = if v ∈ sources then some 0 else none := by
  induction sources with
  | nil => rfl
  | cons w sources ih =>
    change State.get ⟨(w, 0) :: sources.map (·, 0), w :: sources⟩ v = _
    rw [get_cons]
    by_cases hv : v = w
    · simp [hv]
    · rw [if_neg hv]
      refine (show _ = _ from ih).trans ?_
      simp [hv]

theorem search_start (hnodup : sources.Nodup) (hsources : ∀ v ∈ sources, v ∈ U) : Search adj sources U (start sources) 0 sources [] where
  queue := (List.append_nil sources).symm
  now v hv := by rw [get_start, if_pos hv]
  next v hv := absurd hv List.not_mem_nil
  bound v d hd := by
    rw [get_start] at hd
    split at hd
    · exact Option.some.inj hd ▸ Nat.zero_le _
    · nomatch hd
  sound v d hd := by
    rw [get_start] at hd
    split at hd
    · next hv => exact Option.some.inj hd ▸ .source hv
    · nomatch hd
  starts v hv := by rw [get_start, if_pos hv]
  closed v d hd hv := by
    rw [get_start, if_neg (show v ∉ sources from hv)] at hd
    nomatch hd
  nodup := by simpa [start, Function.comp_def] using hnodup
  inside v hv := hsources v (by simpa [start, Function.comp_def] using hv)

/-- In a universe that neighbours do not leave, with a step for each of its nodes, the search finds the shortest distances. -/
theorem get_run_iff (hnodup : sources.Nodup) (hsources : ∀ v ∈ sources, v ∈ U) (hU : ∀ v ∈ U, ∀ w ∈ adj v, w ∈ U) {fuel : Nat}
    (hfuel : U.card ≤ fuel) (v : α) (d : Nat) :
    (run adj fuel (start sources)).get v = some d ↔ IsLeast {n | Reach adj sources n v} d := by
  have hstart : Search adj sources U (start sources) 0 sources [] := search_start hnodup hsources
  have hsteps : U.card - (start sources).dist.length + (start sources).queue.length ≤ fuel := by
    have hroom := hstart.length_le
    have hlength : (start sources).dist.length = (start sources).queue.length := List.length_map _
    omega
  obtain ⟨k, hend⟩ := hstart.run hU hsteps
  constructor
  · intro hd
    refine ⟨hend.sound v d hd, fun n hn => ?_⟩
    obtain ⟨e, hle, he⟩ := hend.complete hn
    exact Option.some.inj (hd.symm.trans he) ▸ hle
  · rintro ⟨hreach, hleast⟩
    obtain ⟨e, hle, he⟩ := hend.complete hreach
    exact (Nat.le_antisymm hle (hleast (hend.sound v e he))) ▸ he

end Bfs
