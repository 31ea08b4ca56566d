import Mathlib

/-!
# Maps ordered by their keys

A map is the list of its entries, sorted by key; each key stands once. Two maps that give the same answers are equal, so a map that
was built in a loop is known by what the loop leaves at each key (`get?_foldl_alter`), in whatever order its items came.
-/

/-- A map as the list of its entries in the order of their keys. -/
structure OrdMap (K V : Type*) [LinearOrder K] where
  entries : List (K × V)
  sorted : entries.Pairwise (·.1 < ·.1)

namespace OrdMap

variable {K V α : Type*} [LinearOrder K]

def empty : OrdMap K V := ⟨[], .nil⟩

instance : Inhabited (OrdMap K V) := ⟨empty⟩

/-- The value at a key. -/
def get? (m : OrdMap K V) (k : K) : Option V := (m.entries.find? (·.1 = k)).map (·.2)

/-- Change what a list of entries has at a key, or put it there. -/
def alterEntries (k : K) (f : Option V → V) : List (K × V) → List (K × V)
  | [] => [(k, f none)]
  | (k', v) :: rest =>
    if k < k' then (k, f none) :: (k', v) :: rest
    else if k = k' then (k, f (some v)) :: rest
    else (k', v) :: alterEntries k f rest

theorem key_of_mem_alterEntries {k : K} {f : Option V → V} {es : List (K × V)} {e : K × V} (h : e ∈ alterEntries k f es) :
    e.1 = k ∨ e ∈ es := by
  induction es with
  | nil =>
    rw [List.mem_singleton.mp h]
    exact .inl rfl
  | cons e' es ih =>
    obtain ⟨k', v⟩ := e'
    unfold alterEntries at h
    split_ifs at h with h1 h2
    · rcases List.mem_cons.mp h with rfl | h
      · exact .inl rfl
      · exact .inr h
    · rcases List.mem_cons.mp h with rfl | h
      · exact .inl rfl
      · exact .inr (List.mem_cons_of_mem _ h)
    · rcases List.mem_cons.mp h with rfl | h
      · exact .inr List.mem_cons_self
      · exact (ih h).imp_right (List.mem_cons_of_mem _)

theorem alterEntries_sorted (k : K) (f : Option V → V) {es : List (K × V)} (h : es.Pairwise (·.1 < ·.1)) :
    (alterEntries k f es).Pairwise (·.1 < ·.1) := by
  induction es with
  | nil => exact List.pairwise_singleton _ _
  | cons e es ih =>
    obtain ⟨k', v⟩ := e
    obtain ⟨hhead, htail⟩ := List.pairwise_cons.mp h
    unfold alterEntries
    split_ifs with h1 h2
    · refine List.pairwise_cons.mpr ⟨fun e he => ?_, h⟩
      rcases List.mem_cons.mp he with rfl | he
      · exact h1
      · exact h1.trans (hhead e he)
    · exact List.pairwise_cons.mpr ⟨fun e he => h2 ▸ hhead e he, htail⟩
    · refine List.pairwise_cons.mpr ⟨fun e he => ?_, ih htail⟩
      rcases key_of_mem_alterEntries he with hk | he
      · rw [hk]
        exact lt_of_le_of_ne (not_lt.mp h1) (Ne.symm h2)
      · exact hhead e he

/-- Change what the map has at a key, or put it there. -/
def alter (m : OrdMap K V) (k : K) (f : Option V → V) : OrdMap K V := ⟨alterEntries k f m.entries, alterEntries_sorted k f m.sorted⟩

@[simp] theorem get?_empty (k : K) : (empty : OrdMap K V).get? k = none := rfl

theorem mem_entries_iff {m : OrdMap K V} {k : K} {v : V} : (k, v) ∈ m.entries ↔ m.get? k = some v := by
  obtain ⟨es, hs⟩ := m
  unfold get?
  dsimp only
  induction es with
  | nil => simp
  | cons e es ih =>
    obtain ⟨k', v'⟩ := e
    obtain ⟨hhead, htail⟩ := List.pairwise_cons.mp hs
    rw [List.mem_cons, ih htail, List.find?_cons]
    by_cases hk : k' = k
    · subst hk
      have hnone : es.find? (·.1 = k') = none := by
        refine List.find?_eq_none.mpr fun e he => ?_
        simpa using (hhead e he).ne'
      rw [hnone]
      simp [@eq_comm V v]
    · have hne : ¬ (k, v) = (k', v') := fun h => hk (congrArg Prod.fst h).symm
      simp [hk, Ne.symm hk]

theorem find?_alterEntries (k k' : K) (f : Option V → V) {es : List (K × V)} (h : es.Pairwise (·.1 < ·.1)) :
    ((alterEntries k f es).find? (·.1 = k')).map (·.2) =
      if k' = k then some (f ((es.find? (·.1 = k)).map (·.2))) else (es.find? (·.1 = k')).map (·.2) := by
  induction es with
  | nil => by_cases hk : k' = k <;> simp [alterEntries, hk, eq_comm]
  | cons e es ih =>
    obtain ⟨l, v⟩ := e
    obtain ⟨hhead, htail⟩ := List.pairwise_cons.mp h
    unfold alterEntries
    split_ifs with h1 h2 h3 h4 h5
    · -- before the first entry: nothing is there yet
      subst h2
      have hnone : (((l, v) :: es).find? (·.1 = k')) = none := by
        refine List.find?_eq_none.mpr fun e he => ?_
        rcases List.mem_cons.mp he with rfl | he
        · simpa using h1.ne'
        · simpa using (h1.trans (hhead e he)).ne'
      simp [hnone]
    · simp [List.find?_cons, Ne.symm h2]
    · subst h3 h4
      simp
    · subst h3
      simp [Ne.symm h4]
    · subst h5
      have hl : ¬ l = k' := fun hl => h3 hl.symm
      have := ih htail
      simp only [if_true] at this
      simp [hl, this]
    · have := ih htail
      rw [if_neg h5] at this
      by_cases hl : l = k'
      · simp [hl]
      · simp [hl, this]

theorem get?_alter (m : OrdMap K V) (k k' : K) (f : Option V → V) :
    (m.alter k f).get? k' = if k' = k then some (f (m.get? k)) else m.get? k' := find?_alterEntries k k' f m.sorted

/-- Maps with the same answers are equal. -/
theorem ext_get? {m n : OrdMap K V} (h : ∀ k, m.get? k = n.get? k) : m = n := by
  have hmem : ∀ e, e ∈ m.entries ↔ e ∈ n.entries := by
    rintro ⟨k, v⟩
    rw [mem_entries_iff, mem_entries_iff, h]
  have hnodup : ∀ m : OrdMap K V, m.entries.Nodup := fun m => m.sorted.imp fun hlt => by
    rintro rfl
    exact lt_irrefl _ hlt
  have hentries : m.entries = n.entries := by
    refine ((List.perm_ext_iff_of_nodup (hnodup m) (hnodup n)).mpr hmem).eq_of_pairwise (fun a b _ _ hab hba => ?_) m.sorted n.sorted
    exact absurd (hab.trans hba) (lt_irrefl _)
  obtain ⟨es, hs⟩ := m
  obtain ⟨es', hs'⟩ := n
  cases hentries
  rfl

/-- What a loop of changes leaves at a key: the changes made at that key, in order. -/
theorem get?_foldl_alter (key : α → K) (f : α → Option V → V) (as : List α) (m : OrdMap K V) (k : K) :
    (as.foldl (fun m a => m.alter (key a) (f a)) m).get? k =
      (as.filter (key · = k)).foldl (fun o a => some (f a o)) (m.get? k) := by
  induction as generalizing m with
  | nil => rfl
  | cons a as ih =>
    rw [List.foldl_cons, ih, get?_alter]
    by_cases hk : key a = k
    · simp [hk]
    · simp [hk, Ne.symm hk]

/-- What is left of items with different keys that are put in: each of them. -/
theorem get?_foldl_insert (key : α → K) (f : α → V) {as : List α} (hunique : (as.map key).Nodup) {k : K} {v : V} :
    (as.foldl (fun m a => m.alter (key a) fun _ => f a) empty).get? k = some v ↔ ∃ a ∈ as, key a = k ∧ f a = v := by
  rw [get?_foldl_alter key (fun a _ => f a), get?_empty]
  have hmem : (∃ a ∈ as, key a = k ∧ f a = v) ↔ ∃ a ∈ as.filter (key · = k), f a = v := by simp [and_assoc]
  have hcount : (as.map key).count k = (as.filter (key · = k)).length := by
    rw [List.count, List.countP_map, List.countP_eq_length_filter]
    rfl
  have hle : (as.filter (key · = k)).length ≤ 1 := hcount ▸ List.nodup_iff_count_le_one.mp hunique k
  rw [hmem]
  match as.filter (key · = k), hle with
  | [], _ => simp
  | [a], _ => simp

/-! ## The greatest value seen at each key -/

section InsertMax

variable [LinearOrder V]

/-- Keep the greater of what is there and what comes. -/
def keepMax (v : V) : Option V → V
  | some best => if v ≤ best then best else v
  | none => v

/-- The greatest of numbers and a first one. -/
theorem foldl_max_spec {α : Type*} [LinearOrder α] (ts : List α) (a : α) :
    (ts.foldl max a = a ∨ ts.foldl max a ∈ ts) ∧ a ≤ ts.foldl max a ∧ ∀ t ∈ ts, t ≤ ts.foldl max a := by
  induction ts generalizing a with
  | nil => simp
  | cons t ts ih =>
    obtain ⟨hmem, hle, hall⟩ := ih (max a t)
    rw [List.foldl_cons]
    refine ⟨?_, le_trans (le_max_left a t) hle, ?_⟩
    · rcases hmem with heq | hmem
      · rcases max_choice a t with hmax | hmax
        · exact .inl (heq.trans hmax)
        · exact .inr (by rw [heq, hmax]; exact List.mem_cons_self)
      · exact .inr (List.mem_cons_of_mem _ hmem)
    · intro t' ht'
      rcases List.mem_cons.mp ht' with rfl | ht'
      · exact le_trans (le_max_right a t') hle
      · exact hall t' ht'

/-- Put a value at a key, unless one at least as great is there. -/
def insertMax (m : OrdMap K V) (k : K) (v : V) : OrdMap K V := m.alter k (keepMax v)

theorem foldl_keepMax (vs : List V) (o : Option V) (b : V) :
    vs.foldl (fun o v => some (keepMax v o)) o = some b ↔ (b ∈ vs ∨ b ∈ o) ∧ (∀ v ∈ vs, v ≤ b) ∧ ∀ v ∈ o, v ≤ b := by
  induction vs generalizing o with
  | nil =>
    simp only [List.foldl_nil, List.not_mem_nil, false_or, Option.mem_def]
    constructor
    · rintro rfl
      simp
    · exact fun h => h.1
  | cons v vs ih =>
    rw [List.foldl_cons, ih]
    cases o with
    | none =>
      simp only [keepMax, List.mem_cons, Option.mem_def, Option.some.injEq, forall_eq', reduceCtorEq, or_false, false_imp_iff,
        implies_true, and_true]
      constructor
      · rintro ⟨hb, hall, hv⟩
        exact ⟨hb.symm.imp_left Eq.symm, fun w hw => hw.elim (fun h => h ▸ hv) (hall w)⟩
      · rintro ⟨hb, hall⟩
        exact ⟨hb.symm.imp_right Eq.symm, fun w hw => hall w (.inr hw), hall v (.inl rfl)⟩
    | some best =>
      simp only [keepMax, List.mem_cons, Option.mem_def, Option.some.injEq, forall_eq']
      by_cases hle : v ≤ best
      · simp only [hle, if_true]
        constructor
        · rintro ⟨hb, hall, hbest⟩
          exact ⟨hb.imp_left .inr, ⟨fun w hw => hw.elim (fun h => h ▸ hle.trans hbest) (hall w), hbest⟩⟩
        · rintro ⟨hb, hall, hbest⟩
          refine ⟨?_, fun w hw => hall w (.inr hw), hbest⟩
          rcases hb with (rfl | hb) | hb
          · exact .inr (le_antisymm hbest hle)
          · exact .inl hb
          · exact .inr hb
      · simp only [hle, if_false]
        have hlt := (not_le.mp hle).le
        constructor
        · rintro ⟨hb, hall, hv⟩
          exact ⟨.inl (hb.symm.imp_left Eq.symm), fun w hw => hw.elim (fun h => h ▸ hv) (hall w), hlt.trans hv⟩
        · rintro ⟨hb, hall, hbest⟩
          refine ⟨?_, fun w hw => hall w (.inr hw), hall v (.inl rfl)⟩
          rcases hb with (rfl | hb) | rfl
          · exact .inr rfl
          · exact .inl hb
          · exact absurd (hall v (.inl rfl)) hle

/-- A loop that keeps the greatest value of each key. -/
theorem get?_foldl_insertMax (items : List (K × V)) (k : K) (b : V) :
    (items.foldl (fun m p => m.insertMax p.1 p.2) empty).get? k = some b ↔ (k, b) ∈ items ∧ ∀ v, (k, v) ∈ items → v ≤ b := by
  have hfold := get?_foldl_alter (V := V) (fun p : K × V => p.1) (fun p => keepMax p.2) items empty k
  have hmap : (items.filter (·.1 = k)).foldl (fun o p => some (keepMax p.2 o)) none =
      ((items.filter (·.1 = k)).map (·.2)).foldl (fun o v => some (keepMax v o)) none := by
    rw [List.foldl_map]
  unfold insertMax
  rw [hfold, get?_empty, hmap, foldl_keepMax]
  have hmem : ∀ v, v ∈ (items.filter (·.1 = k)).map (·.2) ↔ (k, v) ∈ items := by
    intro v
    simp
  simp [hmem]

/-- A key is left out when no item has it. -/
theorem get?_foldl_insertMax_isSome (items : List (K × V)) (k : K) :
    ((items.foldl (fun m p => m.insertMax p.1 p.2) empty).get? k).isSome ↔ ∃ v, (k, v) ∈ items := by
  have hfold := get?_foldl_alter (V := V) (fun p : K × V => p.1) (fun p => keepMax p.2) items empty k
  have hsome : ∀ (items : List (K × V)) (o : Option V),
      (items.foldl (fun o p => some (keepMax p.2 o)) o).isSome ↔ o.isSome ∨ items ≠ [] := by
    intro items
    induction items with
    | nil => simp
    | cons p items ih =>
      intro o
      rw [List.foldl_cons, ih]
      simp
  unfold insertMax
  rw [hfold, hsome, get?_empty]
  simp only [Option.isSome_none, Bool.false_eq_true, false_or, ne_eq, List.filter_eq_nil_iff, decide_eq_true_eq, not_forall, not_not]
  constructor
  · rintro ⟨⟨k', v⟩, hmem, rfl⟩
    exact ⟨v, hmem⟩
  · rintro ⟨v, hmem⟩
    exact ⟨(k, v), hmem, rfl⟩

/-- Such a loop does not depend on the order, nor on how often an item comes. -/
theorem foldl_insertMax_ext {items items' : List (K × V)} (h : ∀ p, p ∈ items ↔ p ∈ items') :
    items.foldl (fun m p => m.insertMax p.1 p.2) empty = items'.foldl (fun m p => m.insertMax p.1 p.2) empty := by
  refine ext_get? fun k => Option.ext fun b => ?_
  rw [get?_foldl_insertMax, get?_foldl_insertMax]
  simp only [h]

end InsertMax

end OrdMap
