import Tumult.Lib.Interleave
import Tumult.Autopilot.Engine

/-!
# The enactment lock

The calls of the server that can run an experiment, over the ledger they share: a mutex that is taken or not, and a count of the
enactments in flight. The two are changed one after the other, so any number of calls may be between any two of their steps. What
an autopilot call runs is what its gate enacts on the count it was given; `run_experiment` and `gameday_run` have no gate.
-/

namespace Tumult

/-- The enactment ledger. -/
structure EnactLock where
  slot : Bool
  inFlight : UInt32
  deriving DecidableEq, Repr

/-- An empty ledger. -/
def EnactLock.new : EnactLock where
  slot := false
  inFlight := 0

/-- `fetch_add(1)`, which wraps. -/
def EnactLock.count (lock : EnactLock) : EnactLock := { lock with inFlight := lock.inFlight + 1 }

/-- `fetch_sub(1)`, which wraps. -/
def EnactLock.uncount (lock : EnactLock) : EnactLock := { lock with inFlight := lock.inFlight - 1 }

@[simp] theorem EnactLock.count_slot (lock : EnactLock) : lock.count.slot = lock.slot := rfl

@[simp] theorem EnactLock.uncount_slot (lock : EnactLock) : lock.uncount.slot = lock.slot := rfl

theorem EnactLock.count_inFlight {lock : EnactLock} (h : lock.inFlight = 0) : lock.count.inFlight = 1 := by
  rw [count, h]
  rfl

theorem EnactLock.uncount_inFlight {lock : EnactLock} (h : lock.inFlight = 1) : lock.uncount.inFlight = 0 := by
  rw [uncount, h]
  rfl

/-- The calls that may run an experiment. -/
inductive EnactCall where
  | autopilotRun (execute : Bool)
  | autopilotRespond (approve : Bool)
  | runExperiment
  | gamedayRun
  deriving DecidableEq, Repr

namespace EnactCall

/-- The call is an enact path, and tries to take the slot. -/
def enacts : EnactCall → Bool
  | autopilotRun execute => execute
  | autopilotRespond approve => approve
  | runExperiment => true
  | gamedayRun => true

/-- The call goes on without the slot, and gates against the count. -/
def gates : EnactCall → Bool
  | autopilotRun _ => true
  | autopilotRespond _ => true
  | runExperiment => false
  | gamedayRun => false

/-- What a call may do with a count of running experiments: the number of experiments that it goes on to run, one after the other.
A pass runs what its gate enacts, an approval what the gate enacts again; a call that stops before its gate runs nothing. -/
inductive Runs : EnactCall → Nat → Nat → Prop where
  | nothing (call : EnactCall) (concurrent : Nat) : Runs call concurrent 0
  | pass {Γ : PilotCtx} {policy : LoadedPolicy} {nowNs : Int} {withinHours execute : Bool} {limit concurrent : Nat}
      {s : Db.Session PilotStore} {items : List Assembled}
      (h : (assembleCandidates Γ policy nowNs withinHours limit concurrent s).1 = .ok items) :
      Runs (autopilotRun execute) concurrent (if execute then items.countP (·.decision.verdict = .enact) else 0)
  | approval {Γ : PilotCtx} {policy : LoadedPolicy} {record : DecisionRecord} {nowNs : Int} {withinHours : Bool} {concurrent : Nat}
      {s : Db.Session PilotStore} {decision : GateDecision}
      (h : (regateDecision Γ policy record nowNs withinHours concurrent s).1 = .ok decision) :
      Runs (autopilotRespond true) concurrent (if decision.verdict = .enact then 1 else 0)
  | experiment (concurrent : Nat) : Runs runExperiment concurrent 1
  | campaign (concurrent experiments : Nat) : Runs gamedayRun concurrent experiments

end EnactCall

/-- Points of a call; `guard` says whether it was given the slot. -/
inductive EnactPoint where
  | arrived
  | locked
  | refused
  | gating (guard : Bool) (concurrent : Nat)
  | acting (guard : Bool) (left : Nat)
  | running (guard : Bool) (left : Nat)
  | uncounted
  deriving DecidableEq, Repr

structure EnactTask where
  call : EnactCall
  point : EnactPoint
  deriving DecidableEq, Repr

/-- The steps of a call; `read` says whether the call wanted the slot. -/
inductive EnactLabel where
  | lock
  | count
  | refuse
  | read (wanted : Bool)
  | gate
  | start
  | finish
  | uncount
  | unlock
  | leave
  deriving DecidableEq, Repr

/-- One step of a call. The tool returns after any experiment, with or without an error; the guard is dropped then. -/
inductive EnactStep : EnactLock → EnactTask → EnactLabel → EnactLock → List EnactTask → Prop where
  | lock {lock : EnactLock} {call : EnactCall} (henacts : call.enacts = true) (hfree : lock.slot = false) :
      EnactStep lock ⟨call, .arrived⟩ .lock { lock with slot := true } [⟨call, .locked⟩]
  | count {lock : EnactLock} {call : EnactCall} :
      EnactStep lock ⟨call, .locked⟩ .count lock.count [⟨call, .gating true 0⟩]
  | refuse {lock : EnactLock} {call : EnactCall} (henacts : call.enacts = true) (htaken : lock.slot = true) :
      EnactStep lock ⟨call, .arrived⟩ .refuse lock (if call.gates then [⟨call, .refused⟩] else [])
  | pass {lock : EnactLock} {call : EnactCall} (henacts : call.enacts = false) :
      EnactStep lock ⟨call, .arrived⟩ .refuse lock [⟨call, .refused⟩]
  | read {lock : EnactLock} {call : EnactCall} :
      EnactStep lock ⟨call, .refused⟩ (.read call.enacts) lock [⟨call, .gating false lock.inFlight.toNat⟩]
  | gate {lock : EnactLock} {call : EnactCall} {guard : Bool} {concurrent experiments : Nat}
      (hruns : call.Runs concurrent experiments) :
      EnactStep lock ⟨call, .gating guard concurrent⟩ .gate lock [⟨call, .acting guard experiments⟩]
  | start {lock : EnactLock} {call : EnactCall} {guard : Bool} {left : Nat} :
      EnactStep lock ⟨call, .acting guard (left + 1)⟩ .start lock [⟨call, .running guard left⟩]
  | finish {lock : EnactLock} {call : EnactCall} {guard : Bool} {left : Nat} :
      EnactStep lock ⟨call, .running guard left⟩ .finish lock [⟨call, .acting guard left⟩]
  | uncount {lock : EnactLock} {call : EnactCall} {left : Nat} :
      EnactStep lock ⟨call, .acting true left⟩ .uncount lock.uncount [⟨call, .uncounted⟩]
  | unlock {lock : EnactLock} {call : EnactCall} :
      EnactStep lock ⟨call, .uncounted⟩ .unlock { lock with slot := false } []
  | leave {lock : EnactLock} {call : EnactCall} {left : Nat} :
      EnactStep lock ⟨call, .acting false left⟩ .leave lock []

/-- The calls of a server; nothing happens to all of them at once. -/
def enactSystem : Interleave.System EnactLock EnactTask EnactLabel where
  step := EnactStep
  reset _ _ _ := False

/-- A server on which the calls arrive. -/
def arriving (calls : List EnactCall) : Interleave.Config EnactLock EnactTask where
  shared := .new
  tasks := calls.map (⟨·, .arrived⟩)

/-! ## Where a call stands -/

namespace EnactTask

/-- The call is running an experiment. -/
def isRunning (t : EnactTask) : Bool :=
  match t.point with
  | .running _ _ => true
  | _ => false

/-- The call holds the slot. -/
def holdsSlot (t : EnactTask) : Bool :=
  match t.point with
  | .locked | .uncounted => true
  | .gating guard _ | .acting guard _ | .running guard _ => guard
  | .arrived | .refused => false

end EnactTask

end Tumult
