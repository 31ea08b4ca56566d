import Tumult.Lib.Interleave
import Tumult.Lake.Audit

/-!
# The webhook dispatcher

Every tick, each enabled webhook that is due receives the audit events newer than its cursor, at most a batch of them, one signed
POST at a time, in a task of its own under a time budget. The cursor is a timestamp. A failed POST ends the task's batch; after
bounded failing ticks the rest of the batch is dead-lettered and the cursor advances past it. Dead letters and cursor are written by
a closure on the writer, which may run after its task was abandoned. Payloads, signatures and counters are left out.
-/

namespace Tumult

/-- One `webhooks` row. Which webhooks are enabled is kept apart, since nothing else of a row ever changes. -/
structure WebhookRow where
  id : String
  url : String
  events : List String
  createdAtNs : Int
  deriving DecidableEq, Repr

/-- The webhooks, the policy on their URLs, and the failing ticks after which a batch is given up. -/
structure WebhookCtx where
  hooks : List WebhookRow
  nodup : (hooks.map (·.id)).Nodup
  urlAllowed : String → Bool
  maxAttempts : Nat

/-- One `webhook_dead_letters` row; `row` is the audit row it was made of, a history variable. -/
structure WebhookDeadLetter extends AuditEvent where
  webhookId : String
  row : Nat
  error : String
  attempts : Nat
  deadAtNs : Int
  deriving DecidableEq, Repr

/-- Per-endpoint retry state, held across ticks. -/
structure EndpointBackoff where
  failures : Nat := 0
  nextAttemptTick : Nat := 0
  deriving DecidableEq, Repr

/-- The store and the dispatcher's memory. The deliveries (webhook and audit row) and the latest timestamp a tick has read for a
webhook are history variables. -/
structure HookState where
  audit : List AuditEvent
  enabled : String → Bool
  cursors : String → Option Int
  deadLetters : List WebhookDeadLetter
  tick : Nat
  endpoints : String → EndpointBackoff
  delivered : List (String × Nat)
  readUpTo : String → Int

/-- A webhook wants an event: an empty list of names means every event. -/
def WebhookRow.wanted (hook : WebhookRow) (e : AuditEvent) : Bool := hook.events.isEmpty || hook.events.contains e.event

/-- The cursor a tick starts from. -/
def HookState.cursorOf (s : HookState) (hook : WebhookRow) : Int := (s.cursors hook.id).getD hook.createdAtNs

/-- The most events of one batch. -/
def batchLimit : Nat := 100

/-- An audit row with its row id. -/
abbrev HookEvent : Type := Nat × AuditEvent

/-- `SELECT … FROM run_audit WHERE at_ns > cursor ORDER BY at_ns LIMIT 100`: the order of equal timestamps, and which of them the
limit cuts off, is the database's. -/
structure Selected (audit : List AuditEvent) (cursor : Int) (batch : List HookEvent) : Prop where
  nodup : batch.Nodup
  rows : ∀ x ∈ batch, audit[x.1]? = some x.2 ∧ cursor < x.2.atNs
  sorted : batch.Pairwise fun x y => x.2.atNs ≤ y.2.atNs
  first : ∀ row e, audit[row]? = some e → cursor < e.atNs →
    (row, e) ∈ batch ∨ batch.length = batchLimit ∧ ∀ x ∈ batch, x.2.atNs ≤ e.atNs
  limit : batch.length ≤ batchLimit

/-- What one endpoint's tick did. -/
structure DispatchOutcome where
  delivered : Nat := 0
  failed : Bool := false
  deadLettered : Nat := 0
  deriving DecidableEq, Repr

/-- `dispatch_one` in its loop: the batch, and what of it is still to come. -/
structure Posting where
  hook : WebhookRow
  failures : Nat
  cursor : Int
  events : List HookEvent
  rest : List HookEvent
  deliveredUpTo : Int
  delivered : Nat
  deriving DecidableEq, Repr

/-- The closure that writes a tick's dead letters and the cursor, with the outcome when the task still waits for it. -/
structure CursorWrite where
  hook : WebhookRow
  letters : List WebhookDeadLetter
  newCursor : Int
  outcome : DispatchOutcome
  awaited : Bool
  deriving DecidableEq, Repr

/-- The tasks: the dispatcher between its ticks, an endpoint's task, a closure in the writer's queue, and everything else that
writes to the store. -/
inductive HookTask where
  | dispatcher
  | deliver (hook : WebhookRow) (failures : Nat)
  | posting (p : Posting)
  | exec (w : CursorWrite)
  | store
  deriving DecidableEq, Repr

/-- What a step was. -/
inductive HookLabel where
  | tick
  | refused
  | read (hook : WebhookRow) (cursor : Int) (batch : List HookEvent)
  | skipped
  | accepted
  | rejected (p : Posting) (e : HookEvent)
  | finished
  | abandoned
  | written (w : CursorWrite)
  | writeFailed (w : CursorWrite) (letters : Nat)
  | append (e : AuditEvent)
  | setEnabled (id : String) (enabled : Bool)
  | restart

/-! ## The dispatcher's memory -/

/-- A value in place of the one at an id. -/
def setAt {α : Type} (f : String → α) (id : String) (a : α) : String → α := fun id' => if id' = id then a else f id'

@[simp] theorem setAt_self {α : Type} (f : String → α) (id : String) (a : α) : setAt f id a id = a := by simp [setAt]

theorem setAt_of_ne {α : Type} {f : String → α} {id id' : String} {a : α} (h : id' ≠ id) : setAt f id a id' = f id' := by
  simp [setAt, h]

/-- A failing tick backs an endpoint off for 1, 2, 4, then 8 ticks. -/
def HookState.recordFailure (s : HookState) (id : String) : HookState :=
  let failures := (s.endpoints id).failures + 1
  { s with endpoints := setAt s.endpoints id ⟨failures, s.tick + min (2 ^ min (failures - 1) 3) 8⟩ }

/-- A clean tick and a dead-lettering tick start an endpoint fresh; a failing one backs it off. -/
def HookState.recordOutcome (s : HookState) (id : String) (outcome : DispatchOutcome) : HookState :=
  if outcome.failed && outcome.deadLettered = 0 then s.recordFailure id
  else { s with endpoints := setAt s.endpoints id {} }

/-! ## The end of a batch -/

/-- The greatest timestamp of a batch. -/
def batchMax (cursor : Int) (events : List HookEvent) : Int := ((events.map (·.2.atNs)).max?).getD cursor

/-- The dead letters of a batch that is given up: the events wanted past the last delivered timestamp. -/
def Posting.deadLetters (p : Posting) (error : String) (deadAtNs : Int) : List WebhookDeadLetter :=
  ((p.events.filter fun x => p.deliveredUpTo < x.2.atNs).filter fun x => p.hook.wanted x.2).map fun x =>
    { x.2 with webhookId := p.hook.id, row := x.1, error, attempts := p.failures + 1, deadAtNs }

/-- What a batch leaves, with the error of the POST that ended it if one did: the closure for the writer when the cursor advances,
else the outcome at once. -/
def Posting.settle (Γ : WebhookCtx) (p : Posting) (failure : Option String) (deadAtNs : Int) (s : HookState) :
    HookState × List HookTask :=
  let deadLetter := failure.isSome && Γ.maxAttempts ≤ p.failures + 1
  let letters := if deadLetter then p.deadLetters (failure.getD "") deadAtNs else []
  let outcome : DispatchOutcome := { delivered := p.delivered, failed := failure.isSome, deadLettered := letters.length }
  let newCursor := if deadLetter then batchMax p.cursor p.events else p.deliveredUpTo
  if p.cursor < newCursor then (s, [.exec { hook := p.hook, letters, newCursor, outcome, awaited := true }])
  else (s.recordOutcome p.hook.id outcome, [])

/-- The batch without its first event, which took no failed POST. -/
def Posting.next (p : Posting) (e : HookEvent) (rest : List HookEvent) (delivered : Nat) : Posting :=
  { p with rest, deliveredUpTo := max p.deliveredUpTo e.2.atNs, delivered := p.delivered + delivered }

/-! ## Steps -/

/-- The endpoint tasks of a tick: one for each enabled webhook that is due. -/
def HookState.due (Γ : WebhookCtx) (s : HookState) : List HookTask :=
  (Γ.hooks.filter fun hook => s.enabled hook.id && (s.endpoints hook.id).nextAttemptTick ≤ s.tick + 1).map fun hook =>
    .deliver hook (s.endpoints hook.id).failures

/-- The step of one task. Reads of the store may fail, POSTs may be rejected, a task may be abandoned at its time budget, and a
closure may fail at any of its statements. A tick may begin while tasks of an earlier one run, which is more than the dispatcher
does. -/
inductive HookStep (Γ : WebhookCtx) : HookState → HookTask → HookLabel → HookState → List HookTask → Prop where
  | tick (s : HookState) : HookStep Γ s .dispatcher .tick { s with tick := s.tick + 1 } (.dispatcher :: s.due Γ)
  | refused {s : HookState} {hook : WebhookRow} {failures : Nat} (h : Γ.urlAllowed hook.url = false) :
      HookStep Γ s (.deliver hook failures) .refused (s.recordOutcome hook.id {}) []
  | readNothing {s : HookState} {hook : WebhookRow} {failures : Nat} (hurl : Γ.urlAllowed hook.url = true)
      (h : Selected s.audit (s.cursorOf hook) []) :
      HookStep Γ s (.deliver hook failures) (.read hook (s.cursorOf hook) []) (s.recordOutcome hook.id {}) []
  | read {s : HookState} {hook : WebhookRow} {failures : Nat} {batch : List HookEvent} (hurl : Γ.urlAllowed hook.url = true)
      (h : Selected s.audit (s.cursorOf hook) batch) (hne : batch ≠ []) :
      HookStep Γ s (.deliver hook failures) (.read hook (s.cursorOf hook) batch)
        { s with readUpTo := setAt s.readUpTo hook.id (max (s.readUpTo hook.id) (batchMax (s.cursorOf hook) batch)) }
        [.posting { hook, failures, cursor := s.cursorOf hook, events := batch, rest := batch, deliveredUpTo := s.cursorOf hook
                    delivered := 0 }]
  | readFailed (s : HookState) (hook : WebhookRow) (failures : Nat) :
      HookStep Γ s (.deliver hook failures) .abandoned (s.recordFailure hook.id) []
  | skipped {s : HookState} {p : Posting} {e : HookEvent} {rest : List HookEvent} (hrest : p.rest = e :: rest)
      (h : p.hook.wanted e.2 = false) : HookStep Γ s (.posting p) .skipped s [.posting (p.next e rest 0)]
  | accepted {s : HookState} {p : Posting} {e : HookEvent} {rest : List HookEvent} (hrest : p.rest = e :: rest)
      (h : p.hook.wanted e.2 = true) :
      HookStep Γ s (.posting p) .accepted { s with delivered := s.delivered ++ [(p.hook.id, e.1)] } [.posting (p.next e rest 1)]
  | rejected {s : HookState} {p : Posting} {e : HookEvent} {rest : List HookEvent} (error : String) (deadAtNs : Int)
      (hrest : p.rest = e :: rest) (h : p.hook.wanted e.2 = true) :
      HookStep Γ s (.posting p) (.rejected p e) (p.settle Γ (some error) deadAtNs s).1 (p.settle Γ (some error) deadAtNs s).2
  | finished {s : HookState} {p : Posting} (deadAtNs : Int) (hrest : p.rest = []) :
      HookStep Γ s (.posting p) .finished (p.settle Γ none deadAtNs s).1 (p.settle Γ none deadAtNs s).2
  | abandonedPosting (s : HookState) (p : Posting) : HookStep Γ s (.posting p) .abandoned (s.recordFailure p.hook.id) []
  | abandonedExec {s : HookState} {w : CursorWrite} (h : w.awaited = true) :
      HookStep Γ s (.exec w) .abandoned (s.recordFailure w.hook.id) [.exec { w with awaited := false }]
  | written (s : HookState) (w : CursorWrite) :
      HookStep Γ s (.exec w) (.written w)
        (let s' := { s with deadLetters := s.deadLetters ++ w.letters, cursors := setAt s.cursors w.hook.id (some w.newCursor) }
        if w.awaited then s'.recordOutcome w.hook.id w.outcome else s') []
  | writeFailed {s : HookState} {w : CursorWrite} (n : Nat) (h : n ≤ w.letters.length) :
      HookStep Γ s (.exec w) (.writeFailed w n)
        (let s' := { s with deadLetters := s.deadLetters ++ w.letters.take n }
        if w.awaited then s'.recordFailure w.hook.id else s') []
  | append (s : HookState) (e : AuditEvent) : HookStep Γ s .store (.append e) { s with audit := s.audit ++ [e] } [.store]
  | setEnabled (s : HookState) (id : String) (enabled : Bool) :
      HookStep Γ s .store (.setEnabled id enabled) { s with enabled := setAt s.enabled id enabled } [.store]

/-- The daemon restarts: its tasks and its memory are gone, the store stays. -/
inductive HookRestart : Interleave.Config HookState HookTask → HookLabel → Interleave.Config HookState HookTask → Prop where
  | restart (s : HookState) (tasks : List HookTask) :
      HookRestart ⟨s, tasks⟩ .restart ⟨{ s with tick := 0, endpoints := fun _ => {} }, [.dispatcher, .store]⟩

/-- The daemon's webhook side. -/
def hookSystem (Γ : WebhookCtx) : Interleave.System HookState HookTask HookLabel where
  step := HookStep Γ
  reset := HookRestart

/-- A store whose webhooks have no cursor yet, with any audit history, and a daemon that has just started. -/
def HookState.start (audit : List AuditEvent) (enabled : String → Bool) (Γ : WebhookCtx) : HookState where
  audit
  enabled
  cursors _ := none
  deadLetters := []
  tick := 0
  endpoints _ := {}
  delivered := []
  readUpTo id := ((Γ.hooks.find? (·.id = id)).map (·.createdAtNs)).getD 0

end Tumult
