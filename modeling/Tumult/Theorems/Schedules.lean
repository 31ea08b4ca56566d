import Tumult.Ingest.Schedules

/-!
# One schedule does not hold up another

A tick hands every due schedule to `fire_one` as long as no bookkeeping write fails before the last one, and leaves each advanced or
as it was. Whether that is what its fire calls for depends on the second check, which looks at the definition only.
-/

namespace Tumult

variable {Γ : FireCtx}

/-! ## What a tick owes a schedule -/

/-- The schedule after a fire. -/
def ScheduleRow.advanced (s : ScheduleRow) (firedRun : Option String) (now : Int) : ScheduleRow :=
  { s with lastRunAtNs := some now, lastRunId := firedRun, nextRunAtNs := s.nextAfter now }

/-- The schedule cannot fire as it stands: its definition, its owner or its binding is rejected. -/
def GiveUp.standing : GiveUp → Bool
  | unregistered | unresolved | fingerprint _ | binding _ => true
  | owner e => e ≠ .unreadable
  | enqueue .unresolved | enqueue (.binding _) | enqueue (.fingerprint _) => true
  | enqueue _ | storeOpen _ | registryRead _ => false

/-- Nothing is known to be wrong with the schedule: the queue took nothing, or a read or a write failed. -/
def GiveUp.passing : GiveUp → Bool
  | storeOpen _ | registryRead _ | owner .unreadable | binding .unreadable => true
  | enqueue .full | enqueue (.binding .unreadable) | enqueue (.store _) | enqueue .stopped => true
  | _ => false

/-- What the second check finds. -/
inductive Recheck where
  /-- The store cannot be opened. -/
  | unopened
  /-- The registry cannot be read. -/
  | unreadable
  /-- The definition is missing or does not resolve. -/
  | gone
  | resolves
  deriving DecidableEq, Repr

def recheck (o : FireCall → Outside Γ) (s : ScheduleRow) : Recheck :=
  match (o .recheck).readOnly with
  | .error _ => .unopened
  | .ok reader =>
    match reader.registryDefinition s.registryId with
    | .error _ => .unreadable
    | .ok none => .gone
    | .ok (some definition) =>
      match (o .recheckPrepare).prepareRun definition.definitionToon (parseVars Γ s) with
      | .error _ => .gone
      | .ok _ => .resolves

/-- The tick advances the schedule: it fired, or the second check finds it broken. -/
def Advances (o : FireCall → Outside Γ) (s : ScheduleRow) : Prop := (fireOne o s).isSome ∨ scheduleBroken o s = true

instance (o : FireCall → Outside Γ) (s : ScheduleRow) : Decidable (Advances o s) := inferInstanceAs (Decidable (_ ∨ _))

/-- How a tick may leave a schedule. -/
inductive Settled (o : FireCall → Outside Γ) (now : Int) (s s' : ScheduleRow) : Prop where
  /-- Fired and advanced. -/
  | fired {runId : String} (h : fireChecked o s = .ok runId) (hs : s' = s.advanced (some runId) now)
  /-- Advanced because it cannot fire as it stands. -/
  | cannotFire {why : GiveUp} (h : fireChecked o s = .error why) (hw : why.standing = true ∨ recheck o s = .gone)
      (hs : s' = s.advanced none now)
  /-- Left because the queue was full or the store failed. -/
  | heldBack {why : GiveUp} (h : fireChecked o s = .error why) (hw : why.passing = true ∨ recheck o s = .unopened) (hs : s' = s)
  /-- Left because the write that advances it failed. -/
  | unwritten (h : Advances o s) (hw : (o .advance).write ≠ .ok ()) (hs : s' = s)

/-- What a tick owes: every due schedule is attempted once, and each is left as its own fire calls for. -/
structure TickLaw (o : Nat → FireCall → Outside Γ) (now : Int) (rows : List ScheduleRow) (t : Ticked) : Prop where
  attempts : t.attempted = dueSchedules now rows
  settles : ∀ k s, (dueSchedules now rows)[k]? = some s → ∃ s' ∈ t.rows, s'.id = s.id ∧ Settled (o k) now s s'

/-- The outcomes under which no schedule holds up another. -/
structure Isolated (o : Nat → FireCall → Outside Γ) (due : List ScheduleRow) : Prop where
  /-- Every write that advances a schedule is accepted, up to the last schedule's. -/
  writes : ∀ k s, due.dropLast[k]? = some s → Advances (o k) s → (o k .advance).write = .ok ()
  /-- A schedule that gave up and whose definition resolves was not rejected. -/
  resolving : ∀ k s why, due[k]? = some s → fireChecked (o k) s = .error why → recheck (o k) s = .resolves → why.passing = true
  /-- A schedule that gave up and whose definition the second check cannot read was rejected. -/
  unreadable : ∀ k s why, due[k]? = some s → fireChecked (o k) s = .error why → recheck (o k) s = .unreadable →
    (o k .advance).write = .ok () → why.standing = true

/-! ## The table -/

theorem ids_scheduleFired (id : String) (runId : Option String) (now next : Int) (rows : List ScheduleRow) :
    (scheduleFired id runId now next rows).map (·.id) = rows.map (·.id) := by
  unfold scheduleFired
  rw [List.map_map]
  refine List.map_congr_left fun s _ => ?_
  simp only [Function.comp_apply]
  split <;> rfl

/-- A fire is recorded in its own schedule's row. -/
theorem advanced_mem_scheduleFired {rows : List ScheduleRow} {s : ScheduleRow} (h : s ∈ rows) (runId : Option String) (now : Int) :
    s.advanced runId now ∈ scheduleFired s.id runId now (s.nextAfter now) rows :=
  List.mem_map.2 ⟨s, h, by rw [if_pos rfl]; rfl⟩

/-- The other rows stay. -/
theorem mem_scheduleFired_of_ne {rows : List ScheduleRow} {s : ScheduleRow} {id : String} (h : s ∈ rows) (hid : s.id ≠ id)
    (runId : Option String) (now next : Int) : s ∈ scheduleFired id runId now next rows :=
  List.mem_map.2 ⟨s, h, if_neg hid⟩

theorem dueSchedules_perm (now : Int) (rows : List ScheduleRow) :
    (dueSchedules now rows).Perm (rows.filter fun s => s.enabled && decide (s.nextRunAtNs ≤ now)) :=
  List.mergeSort_perm _ _

theorem mem_dueSchedules {now : Int} {rows : List ScheduleRow} {s : ScheduleRow} :
    s ∈ dueSchedules now rows ↔ s ∈ rows ∧ s.enabled = true ∧ s.nextRunAtNs ≤ now := by
  rw [(dueSchedules_perm now rows).mem_iff]
  simp

/-- The ids of the due schedules are distinct where those of the table are. -/
theorem dueSchedules_ids_nodup {rows : List ScheduleRow} (h : (rows.map (·.id)).Nodup) (now : Int) :
    ((dueSchedules now rows).map (·.id)).Nodup :=
  ((dueSchedules_perm now rows).map _).nodup_iff.2 (h.sublist (List.filter_sublist.map _))

/-- A row is found by its id. -/
theorem eq_of_id_eq {rows : List ScheduleRow} (h : (rows.map (·.id)).Nodup) {s s' : ScheduleRow} (hs : s ∈ rows) (hs' : s' ∈ rows)
    (hid : s'.id = s.id) : s' = s :=
  List.inj_on_of_nodup_map h hs' hs hid

/-- A due schedule that was advanced is not as it was. -/
theorem advanced_ne {s : ScheduleRow} {now : Int} (hdue : s.nextRunAtNs ≤ now) (runId : Option String) : s.advanced runId now ≠ s := by
  intro h
  have hnext : s.nextAfter now = s.nextRunAtNs := congrArg ScheduleRow.nextRunAtNs h
  unfold ScheduleRow.nextAfter at hnext
  omega

/-! ## One schedule -/

/-- The second check finds a schedule broken where the registry cannot be read or the definition is gone. -/
theorem scheduleBroken_iff (o : FireCall → Outside Γ) (s : ScheduleRow) :
    scheduleBroken o s = true ↔ recheck o s = .unreadable ∨ recheck o s = .gone := by
  unfold scheduleBroken recheck
  cases (o .recheck).readOnly with
  | error e => simp
  | ok reader =>
    cases hdef : reader.registryDefinition s.registryId with
    | error e => simp [hdef]
    | ok found =>
      cases found with
      | none => simp [hdef]
      | some definition =>
        cases hp : (o .recheckPrepare).prepareRun definition.definitionToon (parseVars Γ s) with
        | error e => simp [hdef, hp]
        | ok p => simp [hdef, hp]

theorem fireOne_ok {o : FireCall → Outside Γ} {s : ScheduleRow} {runId : String} (h : fireChecked o s = .ok runId) :
    fireOne o s = some runId := by
  rw [fireOne, h]
  rfl

theorem fireOne_error {o : FireCall → Outside Γ} {s : ScheduleRow} {why : GiveUp} (h : fireChecked o s = .error why) :
    fireOne o s = none := by
  rw [fireOne, h]
  rfl

/-- After a fire that gave up, the tick advances the schedule where the second check finds it broken. -/
theorem advances_error {o : FireCall → Outside Γ} {s : ScheduleRow} {why : GiveUp} (h : fireChecked o s = .error why) :
    Advances o s ↔ recheck o s = .unreadable ∨ recheck o s = .gone := by
  rw [Advances, fireOne_error h, scheduleBroken_iff]
  simp

theorem advances_ok {o : FireCall → Outside Γ} {s : ScheduleRow} {runId : String} (h : fireChecked o s = .ok runId) : Advances o s :=
  Or.inl (by rw [fireOne_ok h]; rfl)

/-- The row that a tick leaves for a schedule it attempted. -/
def handled (o : FireCall → Outside Γ) (now : Int) (s : ScheduleRow) : ScheduleRow :=
  if Advances o s ∧ (o .advance).write = .ok () then s.advanced (fireOne o s) now else s

theorem handled_id (o : FireCall → Outside Γ) (now : Int) (s : ScheduleRow) : (handled o now s).id = s.id := by
  unfold handled
  split <;> rfl

/-- The row that is left accounts for the fire, apart from a rejection that the second check does not see and from a registry that
it cannot read. -/
theorem settled_handled_iff {o : FireCall → Outside Γ} {now : Int} {s : ScheduleRow} (hdue : s.nextRunAtNs ≤ now) :
    Settled o now s (handled o now s) ↔
      (∀ why, fireChecked o s = .error why → recheck o s = .resolves → why.passing = true) ∧
      ∀ why, fireChecked o s = .error why → recheck o s = .unreadable → (o .advance).write = .ok () → why.standing = true := by
  cases hfire : fireChecked o s with
  | ok runId =>
    have hadv : Advances o s := advances_ok hfire
    refine iff_of_true ?_ ⟨by simp, by simp⟩
    by_cases hw : (o .advance).write = .ok ()
    · exact .fired hfire (by rw [handled, if_pos ⟨hadv, hw⟩, fireOne_ok hfire])
    · exact .unwritten hadv hw (if_neg fun h => hw h.2)
  | error why =>
    have hadv := advances_error hfire
    simp only [Except.error.injEq, forall_eq']
    by_cases hw : Advances o s ∧ (o .advance).write = .ok ()
    · -- The schedule was advanced, so its fire must have been rejected, or the definition is gone.
      have hrow : handled o now s = s.advanced none now := by rw [handled, if_pos hw, fireOne_error hfire]
      rw [hrow]
      constructor
      · intro hset
        cases hset with
        | fired h _ => cases hfire.symm.trans h
        | cannotFire h hgone _ =>
          cases Except.error.inj (hfire.symm.trans h)
          refine ⟨fun hres => ?_, fun hun _ => hgone.resolve_right (by simp [hun])⟩
          simp [hres] at hadv
          exact absurd hw.1 hadv
        | heldBack _ _ hs => exact absurd hs (advanced_ne hdue none)
        | unwritten _ _ hs => exact absurd hs (advanced_ne hdue none)
      · rintro ⟨_, hun⟩
        refine .cannotFire hfire ?_ rfl
        rcases hadv.1 hw.1 with h | h
        · exact Or.inl (hun h hw.2)
        · exact Or.inr h
    · -- The schedule was left.
      have hrow : handled o now s = s := if_neg hw
      rw [hrow]
      constructor
      · intro hset
        cases hset with
        | fired _ hs => exact absurd hs.symm (advanced_ne hdue _)
        | cannotFire _ _ hs => exact absurd hs.symm (advanced_ne hdue none)
        | heldBack h hpass _ =>
          cases Except.error.inj (hfire.symm.trans h)
          exact ⟨fun hres => hpass.resolve_right (by simp [hres]), fun hun hok => absurd ⟨hadv.2 (Or.inl hun), hok⟩ hw⟩
        | unwritten h hno _ =>
          refine ⟨fun hres => ?_, fun _ hok => absurd hok hno⟩
          simp [hres] at hadv
          exact absurd h hadv
      · rintro ⟨hres, _⟩
        cases hcheck : recheck o s with
        | unopened => exact .heldBack hfire (Or.inr hcheck) rfl
        | resolves => exact .heldBack hfire (Or.inl (hres hcheck)) rfl
        | unreadable => exact .unwritten (hadv.2 (Or.inl hcheck)) (fun hok => hw ⟨hadv.2 (Or.inl hcheck), hok⟩) rfl
        | gone => exact .unwritten (hadv.2 (Or.inr hcheck)) (fun hok => hw ⟨hadv.2 (Or.inr hcheck), hok⟩) rfl

/-! ## A tick, schedule by schedule -/

/-- The tick goes on after a schedule: it does not advance it, or the write is accepted. -/
def GoesOn (o : FireCall → Outside Γ) (s : ScheduleRow) : Prop := Advances o s → (o .advance).write = .ok ()

/-- A step that goes on records the attempt and leaves the schedule handled. -/
theorem fireEach_cons {o : Nat → FireCall → Outside Γ} {k : Nat} {s : ScheduleRow} (h : GoesOn (o k) s) (now : Int)
    (due : List ScheduleRow) (t : Ticked) :
    ∃ t₁ : Ticked, fireEach o now k (s :: due) t = fireEach o now (k + 1) due t₁ ∧ t₁.attempted = t.attempted ++ [s] ∧
      t₁.rows = if Advances (o k) s then scheduleFired s.id (fireOne (o k) s) now (s.nextAfter now) t.rows else t.rows := by
  by_cases hadv : Advances (o k) s
  · let t₁ : Ticked :=
      { rows := scheduleFired s.id (fireOne (o k) s) now (s.nextAfter now) t.rows
        attempted := t.attempted ++ [s]
        result := t.result.map (· + (fireOne (o k) s).toList.length) }
    refine ⟨t₁, ?_, rfl, (if_pos hadv).symm⟩
    have hcond : ¬ ((fireOne (o k) s = none && !scheduleBroken (o k) s) = true) := by
      rcases hadv with hsome | hbroken
      · cases hfire : fireOne (o k) s with
        | none => simp [hfire] at hsome
        | some runId => simp
      · simp [hbroken]
    rw [fireEach, if_neg hcond, h hadv]
  · refine ⟨{ t with attempted := t.attempted ++ [s] }, ?_, rfl, (if_neg hadv).symm⟩
    have hcond : (fireOne (o k) s = none && !scheduleBroken (o k) s) = true := by
      simp only [Advances, not_or, Bool.not_eq_true, Option.isSome_eq_false_iff, Option.isNone_iff_eq_none] at hadv
      simp [hadv.1, hadv.2]
    rw [fireEach, if_pos hcond]

/-- A write that fails ends the tick. -/
theorem fireEach_cons_stop {o : Nat → FireCall → Outside Γ} {now : Int} {k : Nat} {s : ScheduleRow} {due : List ScheduleRow}
    {t : Ticked} (h : ¬ GoesOn (o k) s) :
    (fireEach o now k (s :: due) t).attempted = t.attempted ++ [s] ∧ (fireEach o now k (s :: due) t).rows = t.rows := by
  simp only [GoesOn, Classical.not_imp] at h
  obtain ⟨hadv, hw⟩ := h
  have hcond : ¬ ((fireOne (o k) s = none && !scheduleBroken (o k) s) = true) := by
    rcases hadv with hsome | hbroken
    · cases hfire : fireOne (o k) s with
      | none => simp [hfire] at hsome
      | some runId => simp
    · simp [hbroken]
  rw [fireEach, if_neg hcond]
  cases hres : (o k .advance).write with
  | ok u => exact absurd hres hw
  | error e => exact ⟨rfl, rfl⟩

/-- A property of every element of a list with its place. -/
theorem forall_getElem?_cons {α : Type} {P : Nat → α → Prop} {a : α} {l : List α} :
    (∀ i x, (a :: l)[i]? = some x → P i x) ↔ P 0 a ∧ ∀ i x, l[i]? = some x → P (i + 1) x := by
  constructor
  · intro h
    exact ⟨h 0 a rfl, fun i x hx => h (i + 1) x (by simpa using hx)⟩
  · rintro ⟨h0, hs⟩ i x hx
    cases i with
    | zero => exact Option.some.inj (by simpa using hx) ▸ h0
    | succ i => exact hs i x (by simpa using hx)

/-- Every due schedule is attempted exactly where the tick goes on up to the last. -/
theorem attempted_fireEach_iff (o : Nat → FireCall → Outside Γ) (now : Int) (due : List ScheduleRow) (k : Nat) (t : Ticked) :
    (fireEach o now k due t).attempted = t.attempted ++ due ↔ ∀ i s, due.dropLast[i]? = some s → GoesOn (o (k + i)) s := by
  induction due generalizing k t with
  | nil => simp [fireEach]
  | cons s due ih =>
    cases hnil : due with
    | nil =>
      refine iff_of_true ?_ (by simp)
      by_cases hgo : GoesOn (o k) s
      · obtain ⟨t₁, he, hatt, _⟩ := fireEach_cons hgo now [] t
        rw [he, fireEach, hatt]
      · exact (fireEach_cons_stop hgo).1
    | cons s' rest =>
      rw [← hnil, List.dropLast_cons_of_ne_nil (by simp [hnil]), forall_getElem?_cons (P := fun i s => GoesOn (o (k + i)) s)]
      by_cases hgo : GoesOn (o k) s
      · obtain ⟨t₁, he, hatt, _⟩ := fireEach_cons hgo now due t
        have hih := ih (k + 1) t₁
        rw [hatt, List.append_assoc, List.singleton_append] at hih
        rw [he, hih]
        simp only [Nat.add_zero, hgo, true_and, Nat.add_assoc, Nat.add_comm 1]
      · rw [(fireEach_cons_stop hgo).1]
        refine iff_of_false (fun h => ?_) (fun h => hgo h.1)
        have := congrArg List.length h
        simp [hnil] at this

/-- What a tick that attempts every schedule leaves: each due schedule handled, and every other row as it was. -/
theorem rows_fireEach {o : Nat → FireCall → Outside Γ} {due : List ScheduleRow} {k : Nat} {t : Ticked} (now : Int)
    (hgo : ∀ i s, due.dropLast[i]? = some s → GoesOn (o (k + i)) s) (hdue : ∀ s ∈ due, s ∈ t.rows)
    (hid : (due.map (·.id)).Nodup) :
    (fireEach o now k due t).rows.map (·.id) = t.rows.map (·.id) ∧
    (∀ s ∈ t.rows, s.id ∉ due.map (·.id) → s ∈ (fireEach o now k due t).rows) ∧
    ∀ i s, due[i]? = some s → handled (o (k + i)) now s ∈ (fireEach o now k due t).rows := by
  induction due generalizing k t with
  | nil => simp [fireEach]
  | cons s due ih =>
    have hs : s ∈ t.rows := hdue s (by simp)
    simp only [List.map_cons, List.nodup_cons] at hid
    by_cases hstep : GoesOn (o k) s
    · obtain ⟨t₁, he, _, hrows⟩ := fireEach_cons hstep now due t
      have hself : handled (o k) now s ∈ t₁.rows := by
        rw [hrows]
        by_cases hadv : Advances (o k) s
        · rw [if_pos hadv, handled, if_pos ⟨hadv, hstep hadv⟩]
          exact advanced_mem_scheduleFired hs _ now
        · rw [if_neg hadv, handled, if_neg fun h => hadv h.1]
          exact hs
      have hother : ∀ s' ∈ t.rows, s'.id ≠ s.id → s' ∈ t₁.rows := by
        intro s' hs' hne
        rw [hrows]
        split
        · exact mem_scheduleFired_of_ne hs' hne _ _ _
        · exact hs'
      have hids : t₁.rows.map (·.id) = t.rows.map (·.id) := by
        rw [hrows]
        split
        · exact ids_scheduleFired _ _ _ _ _
        · rfl
      have hdue₁ : ∀ s' ∈ due, s' ∈ t₁.rows := fun s' hs' =>
        hother s' (hdue s' (List.mem_cons_of_mem _ hs')) fun hne => hid.1 (hne ▸ List.mem_map_of_mem hs')
      have hgo₁ : ∀ i s', due.dropLast[i]? = some s' → GoesOn (o (k + 1 + i)) s' := by
        intro i s' hi
        cases hnil : due with
        | nil => simp [hnil] at hi
        | cons a rest =>
          have := hgo (i + 1) s' (by
            rw [List.dropLast_cons_of_ne_nil (by simp [hnil])]
            simpa using hi)
          rwa [Nat.add_right_comm, Nat.add_assoc]
      obtain ⟨h1, h2, h3⟩ := ih hgo₁ hdue₁ hid.2
      rw [he]
      refine ⟨h1.trans hids, fun s' hs' hnot => ?_, ?_⟩
      · simp only [List.map_cons, List.mem_cons, not_or] at hnot
        exact h2 s' (hother s' hs' hnot.1) hnot.2
      · rw [forall_getElem?_cons (P := fun i s => handled (o (k + i)) now s ∈ (fireEach o now (k + 1) due t₁).rows)]
        refine ⟨h2 _ hself (by rw [handled_id]; exact hid.1), fun i s' hi => ?_⟩
        rw [← Nat.add_assoc, Nat.add_right_comm]
        exact h3 i s' hi
    · -- Only the last schedule's write may fail.
      have hnil : due = [] := by
        by_contra hne
        refine hstep (hgo 0 s ?_)
        rw [List.dropLast_cons_of_ne_nil hne]
        rfl
      subst hnil
      rw [(fireEach_cons_stop hstep).2]
      refine ⟨rfl, fun s' hs' _ => hs', fun i s' hi => ?_⟩
      cases i with
      | zero =>
        cases Option.some.inj hi
        have hrow : handled (o k) now s = s := if_neg fun h => hstep fun _ => h.2
        rw [Nat.add_zero, hrow]
        exact hs
      | succ i => simp at hi

/-! ## The law -/

/-- A tick attempts every due schedule once and leaves each as its own fire calls for exactly where no write but the last fails and
the second check agrees with the first. -/
theorem tick_isolated_iff {o : Nat → FireCall → Outside Γ} {now : Int} {rows : List ScheduleRow}
    (hid : (rows.map (·.id)).Nodup) :
    TickLaw o now rows (fireDueSchedules (.ok ()) o now rows) ↔ Isolated o (dueSchedules now rows) := by
  have hatt := attempted_fireEach_iff o now (dueSchedules now rows) 0 ⟨rows, [], .ok 0⟩
  simp only [List.nil_append, Nat.zero_add] at hatt
  have hleft : (∀ i s, (dueSchedules now rows).dropLast[i]? = some s → GoesOn (o i) s) → ∀ k s,
      (dueSchedules now rows)[k]? = some s →
      ((∃ s' ∈ (fireDueSchedules (.ok ()) o now rows).rows, s'.id = s.id ∧ Settled (o k) now s s') ↔
        Settled (o k) now s (handled (o k) now s)) := by
    intro hgo k s hk
    obtain ⟨hids, _, hhandled⟩ := rows_fireEach (k := 0) (t := ⟨rows, [], .ok 0⟩) now (by simpa using hgo)
      (fun s hs => (mem_dueSchedules.1 hs).1) (dueSchedules_ids_nodup hid now)
    have hmem : handled (o k) now s ∈ (fireDueSchedules (.ok ()) o now rows).rows := by
      simpa only [fireDueSchedules, Nat.zero_add] using hhandled k s hk
    constructor
    · rintro ⟨s', hs', hsid, hset⟩
      have : s' = handled (o k) now s :=
        eq_of_id_eq (hids ▸ hid) hmem hs' (hsid.trans (handled_id (o k) now s).symm)
      exact this ▸ hset
    · exact fun hset => ⟨_, hmem, handled_id _ _ _, hset⟩
  have hsettle : ∀ k s, (dueSchedules now rows)[k]? = some s → _ := fun k s hk =>
    settled_handled_iff (o := o k) (mem_dueSchedules.1 (List.mem_of_getElem? hk)).2.2
  constructor
  · rintro ⟨hattempts, hsettles⟩
    have hgo := hatt.1 hattempts
    refine ⟨hgo, fun k s why hk => ?_, fun k s why hk => ?_⟩
    · exact ((hsettle k s hk).1 ((hleft hgo k s hk).1 (hsettles k s hk))).1 why
    · exact ((hsettle k s hk).1 ((hleft hgo k s hk).1 (hsettles k s hk))).2 why
  · intro h
    refine ⟨hatt.2 h.writes, fun k s hk => (hleft h.writes k s hk).2 ((hsettle k s hk).2 ⟨?_, ?_⟩)⟩
    · exact fun why => h.resolving k s why hk
    · exact fun why => h.unreadable k s why hk

/-! ### Two ticks -/

/-- A context in which every execution is bound, and of the lowest tier. -/
def boundCtx : FireCtx where
  Prepared := Unit
  executionHash _ := .ok "9f86d081"
  tierOf _ _ := .T0
  varsFromJson _ := some []
  bindingsFromJson _ := some [⟨"9f86d081", "dev", none⟩]
  bindingsPath := "kronika.execution-bindings.json"

/-- An outside with these definitions, with or without a free slot, and with this answer of the write task. -/
def boundOutside (definitions : List String) (permit : Bool) (write : Except String Unit) : Outside boundCtx where
  readOnly := .ok
    { registryDefinition := fun id =>
        .ok (if id ∈ definitions then some ⟨id, "scheduled probe", "title: scheduled probe experiment", "c1d2", none⟩ else none)
      realUsersExist := .ok false
      userByUsername := fun _ => .ok none
      userEnvScopes := fun _ => .ok [] }
  prepareRun _ _ := .ok ()
  bindingsVar := none
  readFile _ := .text "[]"
  newRunId := "run-1"
  permit := permit
  write := write
  sends := true

/-- A due hourly schedule of a definition. -/
def hourly (id : String) : ScheduleRow where
  id := id
  name := id
  registryId := "reg-probe"
  intervalS := 3600
  varsJson := none
  env := "dev"
  target := none
  enabled := true
  nextRunAtNs := 5
  lastRunAtNs := none
  lastRunId := none
  createdBy := some "test"
  createdAtNs := 1

theorem dueSchedules_hourly (a b : String) : dueSchedules 10 [hourly a, hourly b] = [hourly a, hourly b] := by
  simp [dueSchedules, hourly, List.mergeSort_of_pairwise]

/-- The first schedule's definition is gone, and the second one's run does not fit the queue. -/
theorem tick_isolated_gone_full :
    TickLaw (fun k _ => boundOutside (if k = 0 then [] else ["reg-probe"]) false (.ok ())) 10 [hourly "a", hourly "b"]
      (fireDueSchedules (.ok ()) (fun k _ => boundOutside (if k = 0 then [] else ["reg-probe"]) false (.ok ())) 10
        [hourly "a", hourly "b"]) := by
  refine (tick_isolated_iff (by decide)).2 ?_
  rw [dueSchedules_hourly]
  refine ⟨fun k s _ _ => rfl, fun k s why hk hfire hres => ?_, fun k s why hk hfire hun => ?_⟩
  · rcases k with _ | _ | k
    · cases Option.some.inj hk
      cases hres
    · cases Option.some.inj hk
      cases hfire
      rfl
    · cases hk
  · rcases k with _ | _ | k
    · cases Option.some.inj hk
      cases hun
    · cases Option.some.inj hk
      cases hun
    · cases hk

/-- The first schedule fires, the write that would advance it fails, and the second schedule is not attempted. -/
theorem tick_unattempted_false :
    ¬ TickLaw (fun k call => boundOutside ["reg-probe"] true (if k = 0 ∧ call = .advance then .error "database is locked" else .ok ()))
      10 [hourly "a", hourly "b"]
      (fireDueSchedules (.ok ())
        (fun k call => boundOutside ["reg-probe"] true (if k = 0 ∧ call = .advance then .error "database is locked" else .ok ()))
        10 [hourly "a", hourly "b"]) := by
  intro h
  have hattempts := h.attempts
  unfold fireDueSchedules at hattempts
  have hgo := (attempted_fireEach_iff _ _ _ _ _).1 hattempts
  rw [dueSchedules_hourly] at hgo
  have hwrite := hgo 0 _ rfl (Or.inl rfl)
  cases hwrite

end Tumult
