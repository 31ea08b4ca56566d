import Tumult.Lib.Interleave

/-!
# The gate of the background faults

A counting gate caps how many background faults run at once and records the most that did. Its counters are read and written under
one mutex, so a step is what a thread does between taking the mutex and giving it back, to end or to sleep on the condition
variable: a sleeper looks again when a slot is released and at every poll, whatever woke it. A permit gives its slot back when it is
dropped, also by a panic. The token is of the run and fires once.
-/

namespace Tumult

open Interleave

structure GateState where
  active : Nat := 0
  peak : Nat := 0
  deriving DecidableEq, Repr

structure FaultGate where
  cap : Option Nat
  deriving DecidableEq, Repr

def FaultGate.new (cap : Option UInt32) : FaultGate where
  cap := cap.map (·.toNat)

/-- Every slot is taken. -/
def FaultGate.full (gate : FaultGate) (state : GateState) : Bool := gate.cap.any (· ≤ state.active)

/-- How a look at the gate ends: the thread sleeps, leaves without a permit, or has one. -/
inductive Acquired where
  | blocked
  | refused
  | permit
  deriving DecidableEq, Repr

/-- What `acquire` does under the mutex: the count is marked in a `u32`, and a fired token leaves the counters alone. -/
def FaultGate.acquire (gate : FaultGate) (cancelled : Bool) (state : GateState) : Acquired × GateState :=
  if gate.full state && !cancelled then (.blocked, state)
  else if cancelled then (.refused, state)
  else (.permit, { active := state.active + 1, peak := max state.peak ((state.active + 1) % UInt32.size) })

def FaultGate.release (state : GateState) : GateState := { state with active := state.active - 1 }

/-- Where the thread of a background fault is. -/
inductive GatePoint where
  | entering
  | asleep
  | holding
  deriving DecidableEq, Repr

inductive GateLabel where
  | looked (found : Acquired)
  | dropped
  | panicked
  | spawned
  | fired
  deriving DecidableEq, Repr

/-- The thread after a look at the gate. -/
def Acquired.points : Acquired → List GatePoint
  | .blocked => [.asleep]
  | .refused => []
  | .permit => [.holding]

structure GateShared where
  state : GateState
  cancelled : Bool
  deriving DecidableEq, Repr

/-- One step of one thread. -/
inductive GateStep (gate : FaultGate) : GateShared → GatePoint → GateLabel → GateShared → List GatePoint → Prop where
  | acquire (s : GateShared) (p : GatePoint) (hp : p ≠ .holding) :
      GateStep gate s p (.looked (gate.acquire s.cancelled s.state).1) { s with state := (gate.acquire s.cancelled s.state).2 }
        (gate.acquire s.cancelled s.state).1.points
  | drop (s : GateShared) : GateStep gate s .holding .dropped { s with state := FaultGate.release s.state } []
  | panic (s : GateShared) : GateStep gate s .holding .panicked { s with state := FaultGate.release s.state } []

/-- One step of the surroundings: a thread is spawned, or the token fires. -/
inductive GateReset : Config GateShared GatePoint → GateLabel → Config GateShared GatePoint → Prop where
  | spawn (c : Config GateShared GatePoint) : GateReset c .spawned ⟨c.shared, c.tasks ++ [.entering]⟩
  | fire (c : Config GateShared GatePoint) : GateReset c .fired ⟨{ c.shared with cancelled := true }, c.tasks⟩

def gateSystem (gate : FaultGate) : System GateShared GatePoint GateLabel where
  step := GateStep gate
  reset := GateReset

/-- A new gate, with no thread at it. -/
def gateStart : Config GateShared GatePoint := ⟨⟨{}, false⟩, []⟩

/-- The permits that are held. -/
def livePermits (tasks : List GatePoint) : Nat := tasks.count .holding

/-- The highest count of active faults on a run that has led to a state. -/
def highestActive (trace : List (GateShared × GateLabel)) (s : GateShared) : Nat :=
  (trace.map (·.1.state.active) ++ [s.state.active]).foldl max 0

end Tumult
