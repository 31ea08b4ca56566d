import Tumult.Ingest.Webhooks

/-!
# Webhook deliveries are not lost silently

The cursor of a webhook is a timestamp, and moving it past a timestamp moves it past every event that has it. An event is lost when
it shares its timestamp with one before it in the batch that was delivered, when the batch limit cuts it off from such a one, and
when it is appended at a timestamp a tick has already read. In every run without these, an event a webhook wants is delivered,
dead-lettered, or newer than the cursor.
-/

namespace Tumult

open Interleave (Holds Keeps Config Run)

variable {Γ : WebhookCtx} {s s' : HookState}

/-- An audit row was delivered to a webhook, or is among its dead letters. -/
def HookState.Settled (s : HookState) (hook : WebhookRow) (row : Nat) : Prop :=
  (hook.id, row) ∈ s.delivered ∨ ∃ l ∈ s.deadLetters, l.webhookId = hook.id ∧ l.row = row

/-- An event of the history that a webhook has to receive: one it wants, newer than the webhook itself. -/
def HookState.Owes (s : HookState) (hook : WebhookRow) (row : Nat) (e : AuditEvent) : Prop :=
  s.audit[row]? = some e ∧ hook.wanted e = true ∧ hook.createdAtNs < e.atNs

/-- Every event owed to a webhook is delivered, dead-lettered, or newer than the cursor. -/
def NothingLost (Γ : WebhookCtx) (s : HookState) : Prop :=
  ∀ hook ∈ Γ.hooks, ∀ row e, s.Owes hook row e → s.Settled hook row ∨ s.cursorOf hook < e.atNs

/-- A step that leaves no event behind: a batch is not cut among events of one timestamp, a POST that fails is not at a timestamp
the batch has passed, and an event is appended later than a tick has read for any webhook it is owed to. -/
def Orderly (Γ : WebhookCtx) (s : HookState) : HookLabel → Prop
  | .read hook cursor batch =>
    ∀ row e, s.Owes hook row e → cursor < e.atNs → (row, e) ∈ batch ∨ ∀ x ∈ batch, x.2.atNs < e.atNs
  | .rejected p e => p.deliveredUpTo < e.2.atNs
  | .append e => ∀ hook ∈ Γ.hooks, hook.wanted e = true → hook.createdAtNs < e.atNs → s.readUpTo hook.id < e.atNs
  | _ => True

/-! ## The invariant -/

/-- The events owed to a webhook up to a timestamp are settled, or are among letters that will be written with it. -/
def HookState.Covered (s : HookState) (hook : WebhookRow) (upTo : Int) (letters : List WebhookDeadLetter) : Prop :=
  ∀ row e, s.Owes hook row e → e.atNs ≤ upTo → s.Settled hook row ∨ ∃ l ∈ letters, l.row = row

/-- The events up to every cursor are settled, and a tick has read up to it. -/
def CursorsCovered (Γ : WebhookCtx) (s : HookState) : Prop :=
  ∀ hook ∈ Γ.hooks, s.Covered hook (s.cursorOf hook) [] ∧ s.cursorOf hook ≤ s.readUpTo hook.id

/-- A batch in delivery: what is owed up to its cursor is settled, what is owed past it is in the batch or past the batch, and what
was taken from the batch is settled and not past the delivered timestamp. -/
structure PostingOk (Γ : WebhookCtx) (s : HookState) (p : Posting) : Prop where
  hook : p.hook ∈ Γ.hooks
  covered : s.Covered p.hook p.cursor []
  cursor : p.cursor ≤ s.readUpTo p.hook.id
  complete : ∀ row e, s.Owes p.hook row e → p.cursor < e.atNs → (row, e) ∈ p.events ∨ ∀ x ∈ p.events, x.2.atNs < e.atNs
  sorted : p.events.Pairwise fun x y => x.2.atNs ≤ y.2.atNs
  read : ∀ x ∈ p.events, x.2.atNs ≤ s.readUpTo p.hook.id
  taken : ∃ done, p.events = done ++ p.rest ∧ (∀ x ∈ done, p.hook.wanted x.2 = true → s.Settled p.hook x.1) ∧
    (p.deliveredUpTo = p.cursor ∨ ∃ x ∈ done, p.deliveredUpTo = x.2.atNs)

/-- A closure for the writer: what is owed up to the cursor it writes is settled, or among its letters. -/
structure WriteOk (Γ : WebhookCtx) (s : HookState) (w : CursorWrite) : Prop where
  hook : w.hook ∈ Γ.hooks
  covered : s.Covered w.hook w.newCursor w.letters
  cursor : w.newCursor ≤ s.readUpTo w.hook.id
  letters : ∀ l ∈ w.letters, l.webhookId = w.hook.id

/-- What each task holds between two steps. -/
def TaskOk (Γ : WebhookCtx) (s : HookState) : HookTask → Prop
  | .deliver hook _ => hook ∈ Γ.hooks
  | .posting p => PostingOk Γ s p
  | .exec w => WriteOk Γ s w
  | .dispatcher => True
  | .store => True

theorem CursorsCovered.nothingLost (h : CursorsCovered Γ s) : NothingLost Γ s := by
  intro hook hhook row e howes
  by_cases hle : e.atNs ≤ s.cursorOf hook
  · rcases (h hook hhook).1 row e howes hle with hsettled | ⟨l, hl, -⟩
    · exact Or.inl hsettled
    · exact absurd hl List.not_mem_nil
  · exact Or.inr (by omega)

/-! ## What later states keep -/

/-- A later state: what was settled is settled, ticks have read at least as far, and what is newly owed is past what they had
read. -/
structure Later (Γ : WebhookCtx) (s s' : HookState) : Prop where
  settled : ∀ hook row, s.Settled hook row → s'.Settled hook row
  owes : ∀ hook ∈ Γ.hooks, ∀ row e, s'.Owes hook row e → s.Owes hook row e ∨ s.readUpTo hook.id < e.atNs
  read : ∀ id, s.readUpTo id ≤ s'.readUpTo id

theorem Later.refl : Later Γ s s := ⟨fun _ _ h => h, fun _ _ _ _ h => Or.inl h, fun _ => le_refl _⟩

/-- A state in which only the dispatcher's memory differs. -/
theorem Later.of_endpoints {endpoints : String → EndpointBackoff} (h : Later Γ s s') : Later Γ s { s' with endpoints } :=
  ⟨h.settled, h.owes, h.read⟩

theorem Later.of_tick {tick : Nat} {endpoints : String → EndpointBackoff} (h : Later Γ s s') :
    Later Γ s { s' with tick, endpoints } :=
  ⟨h.settled, h.owes, h.read⟩

/-- A state in which a tick has read further. -/
theorem Later.of_read {id : String} {upTo : Int} (h : s.readUpTo id ≤ upTo) :
    Later Γ s { s with readUpTo := setAt s.readUpTo id upTo } := by
  refine ⟨fun _ _ hsettled => hsettled, fun _ _ _ _ howes => Or.inl howes, fun id' => ?_⟩
  by_cases hid : id' = id
  · subst hid
    simpa using h
  · simp only [setAt_of_ne hid]
    exact le_refl _

theorem HookState.Covered.later {hook : WebhookRow} {upTo : Int} {letters : List WebhookDeadLetter} (h : s.Covered hook upTo letters)
    (hlater : Later Γ s s') (hhook : hook ∈ Γ.hooks) (hread : upTo ≤ s.readUpTo hook.id) : s'.Covered hook upTo letters := by
  intro row e howes hle
  rcases hlater.owes hook hhook row e howes with howes | hnew
  · exact (h row e howes hle).imp_left (hlater.settled hook row)
  · omega

theorem PostingOk.later {p : Posting} (h : PostingOk Γ s p) (hlater : Later Γ s s') : PostingOk Γ s' p := by
  refine ⟨h.hook, h.covered.later hlater h.hook h.cursor, h.cursor.trans (hlater.read _), fun row e howes hlt => ?_, h.sorted,
    fun x hx => (h.read x hx).trans (hlater.read _), ?_⟩
  · rcases hlater.owes p.hook h.hook row e howes with howes | hnew
    · exact h.complete row e howes hlt
    · exact Or.inr fun x hx => (h.read x hx).trans_lt hnew
  · obtain ⟨done, hdone, hsettled, hupTo⟩ := h.taken
    exact ⟨done, hdone, fun x hx hwanted => hlater.settled _ _ (hsettled x hx hwanted), hupTo⟩

theorem TaskOk.later {t : HookTask} (h : TaskOk Γ s t) (hlater : Later Γ s s') : TaskOk Γ s' t := by
  cases t with
  | posting p => exact PostingOk.later h hlater
  | exec w =>
    have h : WriteOk Γ s w := h
    exact ⟨h.hook, h.covered.later hlater h.hook h.cursor, h.cursor.trans (hlater.read _), h.letters⟩
  | deliver _ _ | dispatcher | store => exact h

/-- Cursors that stay are covered in every later state. -/
theorem CursorsCovered.later (h : CursorsCovered Γ s) (hlater : Later Γ s s') (hcursors : s'.cursors = s.cursors) :
    CursorsCovered Γ s' := by
  intro hook hhook
  have hcursor : s'.cursorOf hook = s.cursorOf hook := by
    unfold HookState.cursorOf
    rw [hcursors]
  rw [hcursor]
  exact ⟨(h hook hhook).1.later hlater hhook (h hook hhook).2, (h hook hhook).2.trans (hlater.read _)⟩

/-- A step to a later state with the same cursors owes only the tasks it leaves. -/
theorem keeps_later {t : HookTask} {ts : List HookTask} (h : CursorsCovered Γ s) (hlater : Later Γ s s')
    (hcursors : s'.cursors = s.cursors) (hts : ∀ t' ∈ ts, TaskOk Γ s' t') :
    Keeps (CursorsCovered Γ) (TaskOk Γ) (fun _ _ => True) s t s' ts :=
  .of_stable (h.later hlater hcursors) hts fun _ hu => hu.later hlater

/-- The outcome of a tick is recorded in the dispatcher's memory alone. -/
theorem recordOutcome_eq (s : HookState) (id : String) (outcome : DispatchOutcome) :
    ∃ endpoints, s.recordOutcome id outcome = { s with endpoints } := by
  unfold HookState.recordOutcome
  split
  · exact ⟨_, rfl⟩
  · exact ⟨_, rfl⟩

/-! ## Batches -/

/-- The greatest timestamp of a batch is at least each of its timestamps. -/
theorem le_batchMax {cursor : Int} {events : List HookEvent} {x : HookEvent} (hx : x ∈ events) : x.2.atNs ≤ batchMax cursor events := by
  have hmem : x.2.atNs ∈ events.map (·.2.atNs) := List.mem_map.mpr ⟨x, hx, rfl⟩
  unfold batchMax
  rw [List.max?_eq_some_max (List.ne_nil_of_mem hmem)]
  exact List.le_max_of_mem hmem

/-- The greatest timestamp of a batch is one of its timestamps, unless it is empty. -/
theorem batchMax_eq (cursor : Int) (events : List HookEvent) :
    batchMax cursor events = cursor ∨ ∃ x ∈ events, batchMax cursor events = x.2.atNs := by
  unfold batchMax
  cases h : (events.map (·.2.atNs)).max? with
  | none => exact Or.inl rfl
  | some m =>
    obtain ⟨x, hx, hm⟩ := List.mem_map.mp (List.max?_mem h)
    exact Or.inr ⟨x, hx, hm.symm⟩

/-- A batch that was read is ready for delivery. -/
theorem postingOk_read {hook : WebhookRow} {failures : Nat} {batch : List HookEvent} (h : CursorsCovered Γ s) (hhook : hook ∈ Γ.hooks)
    (hselected : Selected s.audit (s.cursorOf hook) batch)
    (horderly : Orderly Γ s (.read hook (s.cursorOf hook) batch)) :
    PostingOk Γ { s with readUpTo := setAt s.readUpTo hook.id (max (s.readUpTo hook.id) (batchMax (s.cursorOf hook) batch)) }
      { hook, failures, cursor := s.cursorOf hook, events := batch, rest := batch, deliveredUpTo := s.cursorOf hook, delivered := 0 } where
  hook := hhook
  covered := (h hook hhook).1
  cursor := by
    have hread := (h hook hhook).2
    simp only [setAt_self]
    omega
  complete := horderly
  sorted := hselected.sorted
  read := fun x hx => by
    simp only [setAt_self]
    exact (le_batchMax hx).trans (le_max_right _ _)
  taken := ⟨[], rfl, by simp, Or.inl rfl⟩

/-- The first event of what is still to come: it is not wanted, or it is settled. -/
theorem PostingOk.next {p : Posting} {e : HookEvent} {rest : List HookEvent} (h : PostingOk Γ s p) (hrest : p.rest = e :: rest)
    (hsettled : p.hook.wanted e.2 = true → s.Settled p.hook e.1) (n : Nat) : PostingOk Γ s (p.next e rest n) := by
  obtain ⟨done, hdone, hsettledDone, hupTo⟩ := h.taken
  refine ⟨h.hook, h.covered, h.cursor, h.complete, h.sorted, h.read, done ++ [e], ?_, fun x hx hwanted => ?_, ?_⟩
  · change p.events = _
    rw [hdone, hrest, List.append_assoc, List.singleton_append]
    rfl
  · rcases List.mem_append.mp hx with hx | hx
    · exact hsettledDone x hx hwanted
    · rw [List.mem_singleton.mp hx] at hwanted ⊢
      exact hsettled hwanted
  · change max p.deliveredUpTo e.2.atNs = p.cursor ∨ ∃ x ∈ done ++ [e], max p.deliveredUpTo e.2.atNs = x.2.atNs
    rcases max_choice p.deliveredUpTo e.2.atNs with hmax | hmax
    · rw [hmax]
      exact hupTo.imp_right fun ⟨x, hx, heq⟩ => ⟨x, List.mem_append_left _ hx, heq⟩
    · exact Or.inr ⟨e, List.mem_append_right _ (List.mem_singleton.mpr rfl), hmax⟩

/-- A batch whose loop ended: nothing is to come, or a POST failed past what was delivered. -/
def Posting.Ended (p : Posting) (failure : Option String) : Prop :=
  (p.rest = [] ∧ failure = none) ∨ ∃ e rest, p.rest = e :: rest ∧ p.deliveredUpTo < e.2.atNs

/-- When the loop ended, the events of the batch up to the delivered timestamp were taken. -/
theorem PostingOk.settled_of_le {p : Posting} {failure : Option String} (h : PostingOk Γ s p) (hend : p.Ended failure) {x : HookEvent}
    (hx : x ∈ p.events) (hwanted : p.hook.wanted x.2 = true) (hle : x.2.atNs ≤ p.deliveredUpTo) : s.Settled p.hook x.1 := by
  obtain ⟨done, hdone, hsettled, -⟩ := h.taken
  have hsorted := h.sorted
  rw [hdone] at hx hsorted
  rcases List.mem_append.mp hx with hx | hx
  · exact hsettled x hx hwanted
  · exfalso
    rcases hend with ⟨hnil, -⟩ | ⟨e, rest, hrest, hpast⟩
    · rw [hnil] at hx
      exact absurd hx List.not_mem_nil
    · rw [hrest] at hx hsorted
      have hpairs := List.pairwise_cons.mp (List.pairwise_append.mp hsorted).2.1
      rcases List.mem_cons.mp hx with rfl | hx
      · omega
      · have hlater := hpairs.1 x hx
        omega

/-- When the loop ended, what is owed up to the delivered timestamp is settled. -/
theorem PostingOk.covered_upTo {p : Posting} {failure : Option String} (h : PostingOk Γ s p) (hend : p.Ended failure) :
    s.Covered p.hook p.deliveredUpTo [] := by
  intro row e howes hle
  by_cases hcursor : e.atNs ≤ p.cursor
  · exact h.covered row e howes hcursor
  rcases h.complete row e howes (by omega) with hmem | hpast
  · exact Or.inl (h.settled_of_le hend hmem howes.2.1 hle)
  · exfalso
    obtain ⟨done, hdone, -, hupTo⟩ := h.taken
    rcases hupTo with heq | ⟨x, hx, heq⟩
    · omega
    · have hlt := hpast x (by rw [hdone]; exact List.mem_append_left _ hx)
      omega

/-- What is delivered up to has been read. -/
theorem PostingOk.upTo_le {p : Posting} (h : PostingOk Γ s p) : p.deliveredUpTo ≤ s.readUpTo p.hook.id := by
  obtain ⟨done, hdone, -, hupTo⟩ := h.taken
  rcases hupTo with heq | ⟨x, hx, heq⟩
  · rw [heq]
    exact h.cursor
  · rw [heq]
    exact h.read x (by rw [hdone]; exact List.mem_append_left _ hx)

/-- A batch that is given up: what is owed up to its end is settled, or dead-lettered. -/
theorem PostingOk.covered_deadLetters {p : Posting} {failure : Option String} (h : PostingOk Γ s p) (hend : p.Ended failure)
    (error : String) (deadAtNs : Int) : s.Covered p.hook (batchMax p.cursor p.events) (p.deadLetters error deadAtNs) := by
  intro row e howes hle
  by_cases hupTo : e.atNs ≤ p.deliveredUpTo
  · rcases h.covered_upTo hend row e howes hupTo with hsettled | ⟨l, hl, -⟩
    · exact Or.inl hsettled
    · exact absurd hl List.not_mem_nil
  by_cases hcursor : e.atNs ≤ p.cursor
  · rcases h.covered row e howes hcursor with hsettled | ⟨l, hl, -⟩
    · exact Or.inl hsettled
    · exact absurd hl List.not_mem_nil
  rcases h.complete row e howes (by omega) with hmem | hpast
  · refine Or.inr ⟨_, List.mem_map.mpr ⟨(row, e), ?_, rfl⟩, rfl⟩
    refine List.mem_filter.mpr ⟨List.mem_filter.mpr ⟨hmem, ?_⟩, howes.2.1⟩
    simpa using by omega
  · exfalso
    rcases batchMax_eq p.cursor p.events with heq | ⟨x, hx, heq⟩
    · omega
    · have hlt := hpast x hx
      omega

/-- A closure that may be written, or an outcome in the dispatcher's memory. -/
theorem settle_cases {w : CursorWrite} {id : String} {outcome : DispatchOutcome} (hw : WriteOk Γ s w) (c : Prop) [Decidable c] :
    (∃ endpoints, (if c then (s, [HookTask.exec w]) else (s.recordOutcome id outcome, [])).1 = { s with endpoints }) ∧
      ∀ t ∈ (if c then (s, [HookTask.exec w]) else (s.recordOutcome id outcome, [])).2, TaskOk Γ s t := by
  by_cases hc : c
  · simp only [hc, if_true]
    refine ⟨⟨s.endpoints, rfl⟩, fun t ht => ?_⟩
    obtain rfl := List.mem_singleton.mp ht
    exact hw
  · simp only [hc, if_false]
    exact ⟨recordOutcome_eq _ _ _, fun t ht => absurd ht List.not_mem_nil⟩

/-- What a batch leaves: its outcome in the dispatcher's memory, or a closure that may be written. -/
theorem PostingOk.settle {p : Posting} (failure : Option String) (h : PostingOk Γ s p) (hend : p.Ended failure) (deadAtNs : Int) :
    (∃ endpoints, (p.settle Γ failure deadAtNs s).1 = { s with endpoints }) ∧
      ∀ t ∈ (p.settle Γ failure deadAtNs s).2, TaskOk Γ s t := by
  unfold Posting.settle
  dsimp only
  refine settle_cases ⟨h.hook, ?_, ?_, ?_⟩ _ <;> dsimp only <;> split
  · exact h.covered_deadLetters hend _ _
  · exact h.covered_upTo hend
  · rcases batchMax_eq p.cursor p.events with heq | ⟨x, hx, heq⟩
    · rw [heq]
      exact h.cursor
    · rw [heq]
      exact h.read x hx
  · exact h.upTo_le
  · intro l hl
    obtain ⟨x, -, rfl⟩ := List.mem_map.mp hl
    rfl
  · exact fun l hl => absurd hl List.not_mem_nil

/-! ## Steps and runs -/

/-- A closure that ran: the letters are there, and the cursor is the one it was computed for. -/
theorem cursorsCovered_written {w : CursorWrite} (h : CursorsCovered Γ s) (hw : WriteOk Γ s w) :
    CursorsCovered Γ { s with deadLetters := s.deadLetters ++ w.letters, cursors := setAt s.cursors w.hook.id (some w.newCursor) } ∧
      Later Γ s { s with deadLetters := s.deadLetters ++ w.letters, cursors := setAt s.cursors w.hook.id (some w.newCursor) } := by
  have hlater : Later Γ s
      { s with deadLetters := s.deadLetters ++ w.letters, cursors := setAt s.cursors w.hook.id (some w.newCursor) } := by
    refine ⟨fun hook row hsettled => ?_, fun _ _ _ _ howes => Or.inl howes, fun _ => le_refl _⟩
    exact hsettled.imp_right fun ⟨l, hl, hrow⟩ => ⟨l, List.mem_append_left _ hl, hrow⟩
  refine ⟨fun hook hhook => ?_, hlater⟩
  by_cases hid : hook.id = w.hook.id
  · obtain rfl : hook = w.hook := List.inj_on_of_nodup_map Γ.nodup hhook hw.hook hid
    simp only [HookState.cursorOf, setAt_self, Option.getD_some]
    refine ⟨fun row e howes hle => ?_, hw.cursor⟩
    rcases hw.covered row e howes hle with hsettled | ⟨l, hl, hrow⟩
    · exact Or.inl (hlater.settled _ _ hsettled)
    · exact Or.inl (Or.inr ⟨l, List.mem_append_right _ hl, hw.letters l hl, hrow⟩)
  · simp only [HookState.cursorOf, setAt_of_ne hid]
    exact ⟨(h hook hhook).1.later hlater hhook (h hook hhook).2, (h hook hhook).2⟩

/-- An orderly step keeps the cursors covered, and every task what it holds. -/
theorem hookStep_keeps {t : HookTask} {l : HookLabel} {ts : List HookTask} (hok : Orderly Γ s l) (h : CursorsCovered Γ s)
    (ht : TaskOk Γ s t) (hs : HookStep Γ s t l s' ts) : Keeps (CursorsCovered Γ) (TaskOk Γ) (fun _ _ => True) s t s' ts := by
  have hrecord : ∀ id outcome, Later Γ s (s.recordOutcome id outcome) ∧ (s.recordOutcome id outcome).cursors = s.cursors := by
    intro id outcome
    obtain ⟨endpoints, heq⟩ := recordOutcome_eq s id outcome
    rw [heq]
    exact ⟨Later.refl.of_endpoints, rfl⟩
  have hnone : ∀ {s'' : HookState}, ∀ t' ∈ ([] : List HookTask), TaskOk Γ s'' t' := fun t' ht' => absurd ht' List.not_mem_nil
  cases hs with
  | tick =>
    refine keeps_later h Later.refl.of_tick rfl fun t' ht' => ?_
    rcases List.mem_cons.mp ht' with rfl | ht'
    · trivial
    · obtain ⟨hook, hhook, rfl⟩ := List.mem_map.mp ht'
      exact (List.mem_filter.mp hhook).1
  | refused | readNothing => exact keeps_later h (hrecord _ _).1 (hrecord _ _).2 hnone
  | read hurl hselected hne =>
    refine keeps_later h (Later.of_read (le_max_left _ _)) rfl fun t' ht' => ?_
    obtain rfl := List.mem_singleton.mp ht'
    exact postingOk_read h ht hselected hok
  | readFailed | abandonedPosting => exact keeps_later h Later.refl.of_endpoints rfl hnone
  | skipped hrest hwanted =>
    rename_i p e rest
    refine keeps_later h .refl rfl fun t' ht' => ?_
    obtain rfl := List.mem_singleton.mp ht'
    exact PostingOk.next ht hrest (fun hw => absurd (hwanted.symm.trans hw) Bool.false_ne_true) 0
  | accepted hrest hwanted =>
    rename_i p e rest
    have hlater : Later Γ s { s with delivered := s.delivered ++ [(p.hook.id, e.1)] } := by
      refine ⟨fun _ _ hsettled => ?_, fun _ _ _ _ howes => Or.inl howes, fun _ => le_refl _⟩
      exact hsettled.imp_left (List.mem_append_left _)
    refine keeps_later h hlater rfl fun t' ht' => ?_
    obtain rfl := List.mem_singleton.mp ht'
    exact PostingOk.next (PostingOk.later ht hlater) hrest
      (fun _ => Or.inl (List.mem_append_right _ (List.mem_singleton.mpr rfl))) 1
  | rejected error deadAtNs hrest hwanted =>
    obtain ⟨⟨endpoints, heq⟩, hts⟩ := PostingOk.settle (some error) ht (Or.inr ⟨_, _, hrest, hok⟩) deadAtNs
    rw [heq]
    exact keeps_later h Later.refl.of_endpoints rfl fun t' ht' => TaskOk.later (hts t' ht') Later.refl.of_endpoints
  | finished deadAtNs hrest =>
    obtain ⟨⟨endpoints, heq⟩, hts⟩ := PostingOk.settle none ht (Or.inl ⟨hrest, rfl⟩) deadAtNs
    rw [heq]
    exact keeps_later h Later.refl.of_endpoints rfl fun t' ht' => TaskOk.later (hts t' ht') Later.refl.of_endpoints
  | abandonedExec hawaited =>
    refine keeps_later h Later.refl.of_endpoints rfl fun t' ht' => ?_
    obtain rfl := List.mem_singleton.mp ht'
    have hw : WriteOk Γ s _ := ht
    exact ⟨hw.hook, hw.covered, hw.cursor, hw.letters⟩
  | written w =>
    obtain ⟨hcursors, hlater⟩ := cursorsCovered_written h ht
    dsimp only
    split
    · obtain ⟨endpoints, heq⟩ := recordOutcome_eq
        { s with deadLetters := s.deadLetters ++ w.letters, cursors := setAt s.cursors w.hook.id (some w.newCursor) } w.hook.id w.outcome
      rw [heq]
      exact .of_stable hcursors hnone fun _ hu => hu.later hlater.of_endpoints
    · exact .of_stable hcursors hnone fun _ hu => hu.later hlater
  | writeFailed n hle =>
    rename_i w
    have hlater : Later Γ s { s with deadLetters := s.deadLetters ++ w.letters.take n } := by
      refine ⟨fun _ _ hsettled => ?_, fun _ _ _ _ howes => Or.inl howes, fun _ => le_refl _⟩
      exact hsettled.imp_right fun ⟨l, hl, hrow⟩ => ⟨l, List.mem_append_left _ hl, hrow⟩
    dsimp only
    split
    · exact keeps_later h hlater.of_endpoints rfl hnone
    · exact keeps_later h hlater rfl hnone
  | append e =>
    refine keeps_later h ⟨fun _ _ hsettled => hsettled, fun hook hhook row e' howes => ?_, fun _ => le_refl _⟩ rfl fun t' ht' => ?_
    · obtain ⟨hrow, hwanted, hcreated⟩ := howes
      by_cases hlt : row < s.audit.length
      · exact Or.inl ⟨(List.getElem?_append_left hlt).symm.trans hrow, hwanted, hcreated⟩
      · rw [List.getElem?_append_right (by omega)] at hrow
        obtain rfl := List.mem_singleton.mp (List.mem_of_getElem? hrow)
        exact Or.inr (hok hook hhook hwanted hcreated)
    · obtain rfl := List.mem_singleton.mp ht'
      trivial
  | setEnabled id enabled =>
    refine keeps_later h ⟨fun _ _ hsettled => hsettled, fun _ _ _ _ howes => Or.inl howes, fun _ => le_refl _⟩ rfl fun t' ht' => ?_
    obtain rfl := List.mem_singleton.mp ht'
    trivial

/-- At the start every cursor stands at its webhook's creation. -/
theorem cursorsCovered_start (audit : List AuditEvent) (enabled : String → Bool) : CursorsCovered Γ (.start audit enabled Γ) := by
  intro hook hhook
  refine ⟨fun row e howes hle => ?_, ?_⟩
  · have hcreated : hook.createdAtNs < e.atNs := howes.2.2
    have hle : e.atNs ≤ hook.createdAtNs := hle
    omega
  · obtain ⟨found, hfound⟩ := Option.isSome_iff_exists.mp
      (List.find?_isSome.mpr ⟨hook, hhook, by simp⟩ : (Γ.hooks.find? (·.id = hook.id)).isSome)
    obtain rfl : found = hook := List.inj_on_of_nodup_map Γ.nodup (List.mem_of_find?_eq_some hfound) hhook
      (by simpa using List.find?_some hfound)
    simp only [HookState.cursorOf, HookState.start, hfound, Option.map_some, Option.getD_some, Option.getD_none]
    exact le_refl _

/-! ## The theorem -/

/-- In every run of ticks, deliveries, closures, appends and restarts, over any audit history: if every step is orderly, each event
that a webhook wants and that is newer than the webhook is delivered, dead-lettered, or newer than the cursor. -/
theorem nothingLost_of_orderly (Γ : WebhookCtx) (audit : List AuditEvent) (enabled : String → Bool)
    (trace : List (HookState × HookLabel)) (c : Config HookState HookTask)
    (hrun : Run (hookSystem Γ) ⟨.start audit enabled Γ, [.dispatcher, .store]⟩ trace c) (hok : ∀ e ∈ trace, Orderly Γ e.1 e.2) :
    NothingLost Γ c.shared := by
  have hstart : Holds (CursorsCovered Γ) (TaskOk Γ) (fun _ _ => True)
      (⟨.start audit enabled Γ, [.dispatcher, .store]⟩ : Config HookState HookTask) := by
    refine ⟨cursorsCovered_start audit enabled, fun t ht => ?_, List.pairwise_of_forall fun _ _ => trivial⟩
    rcases List.mem_cons.mp ht with rfl | ht
    · trivial
    · obtain rfl := List.mem_singleton.mp ht
      trivial
  refine (Holds.run (fun _ _ _ => trivial) (fun _ _ _ _ _ hok hI hA hs => hookStep_keeps hok hI hA hs) ?_ hstart hrun hok).shared.nothingLost
  rintro c l c' hok h ⟨s, tasks⟩
  refine ⟨h.shared.later Later.refl.of_tick rfl, fun t ht => ?_, List.pairwise_of_forall fun _ _ => trivial⟩
  rcases List.mem_cons.mp ht with rfl | ht
  · trivial
  · obtain rfl := List.mem_singleton.mp ht
    trivial

/-- An event of a run at a time. -/
def eventAt (runId : String) (atNs : Int) : AuditEvent := { runId, atNs, event := "queued", detail := none, actor := none }

/-- A webhook that wants every event. -/
def allEvents : WebhookRow where
  id := "w"
  url := "https://example.com"
  events := []
  createdAtNs := 0

/-- One webhook, whose URL is allowed. -/
def oneHook : WebhookCtx where
  hooks := [allEvents]
  nodup := by decide
  urlAllowed _ := true
  maxAttempts := 5

theorem selected_pair (a b : Int) (ha : 0 < a) (hb : a ≤ b) :
    Selected [eventAt "r1" a, eventAt "r2" b] 0 [(0, eventAt "r1" a), (1, eventAt "r2" b)] := by
  refine ⟨by simp, ?_, by simpa [eventAt] using hb, fun row e hrow _ => ?_, by simp [batchLimit]⟩
  · simp only [List.mem_cons, List.not_mem_nil, or_false, forall_eq_or_imp, forall_eq]
    exact ⟨⟨rfl, ha⟩, rfl, by change 0 < b; omega⟩
  · rcases row with _ | _ | row
    · obtain rfl : eventAt "r1" a = e := by simpa using hrow
      exact Or.inl (by simp)
    · obtain rfl : eventAt "r2" b = e := by simpa using hrow
      exact Or.inl (by simp)
    · simp at hrow

/-- Two events, both delivered in one tick. -/
theorem nothingLost_of_orderly_delivered : ∃ trace c,
    Run (hookSystem oneHook) ⟨.start [eventAt "r1" 10, eventAt "r2" 20] (fun _ => true) oneHook, [.dispatcher, .store]⟩ trace c ∧
      c.shared.cursorOf allEvents = 20 ∧ NothingLost oneHook c.shared := by
  have hread : ∀ row e, (eventAt "r1" 10 :: [eventAt "r2" 20])[row]? = some e →
      (row, e) ∈ [(0, eventAt "r1" 10), (1, eventAt "r2" 20)] := by
    intro row e hrow
    rcases row with _ | _ | row
    · simpa using hrow.symm
    · simpa using hrow.symm
    · simp at hrow
  have h := Interleave.Reach.refl (S := hookSystem oneHook) (P := Orderly oneHook)
    ⟨.start [eventAt "r1" 10, eventAt "r2" 20] (fun _ => true) oneHook, [.dispatcher, .store]⟩
  have h := h.task 0 rfl (.tick _) trivial
  have h := h.task 1 rfl (.read rfl (selected_pair 10 20 (by decide) (by decide)) (by simp))
    fun row e howes _ => Or.inl (hread row e howes.1)
  have h := h.task 1 rfl (.accepted rfl rfl) trivial
  have h := h.task 1 rfl (.accepted rfl rfl) trivial
  have h := h.task 1 rfl (.finished 30 rfl) trivial
  have h := h.task 1 rfl (.written _ _) trivial
  obtain ⟨trace, hrun, hok⟩ := h
  exact ⟨trace, _, hrun, rfl, nothingLost_of_orderly oneHook _ _ trace _ hrun hok⟩

/-- Two events of one timestamp: the first is delivered and the second rejected, and the cursor moves past both. -/
theorem nothingLost_false : ¬ ∀ (Γ : WebhookCtx) (audit : List AuditEvent) (enabled : String → Bool)
    (trace : List (HookState × HookLabel)) (c : Config HookState HookTask),
    Run (hookSystem Γ) ⟨.start audit enabled Γ, [.dispatcher, .store]⟩ trace c → NothingLost Γ c.shared := by
  intro hlost
  have h := Run.nil (S := hookSystem oneHook)
    ⟨.start [eventAt "r1" 10, eventAt "r2" 10] (fun _ => true) oneHook, [.dispatcher, .store]⟩
  have h := h.task 0 rfl (.tick _)
  have h := h.task 1 rfl (.read rfl (selected_pair 10 10 (by decide) (by decide)) (by simp))
  have h := h.task 1 rfl (.accepted rfl rfl)
  have h := h.task 1 rfl (.rejected "rejected: HTTP 500" 30 rfl rfl)
  have h := h.task 1 rfl (.written _ _)
  rcases hlost oneHook _ _ _ _ h allEvents (List.mem_singleton.mpr rfl) 1 (eventAt "r2" 10) ⟨rfl, rfl, by decide⟩ with
    (hdelivered | ⟨l, hl, -⟩) | hcursor
  · revert hdelivered
    decide
  · exact absurd hl List.not_mem_nil
  · exact absurd hcursor (by decide)

end Tumult
