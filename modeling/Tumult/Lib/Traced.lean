import Mathlib

/-!
# Computations that leave a trace and may unwind

A traced computation is what it did to its surroundings, in order, and how it came out: with a value, or by unwinding with a
message. What follows a computation that unwinds does not happen, until the unwinding is caught.

Two rules carry the proofs. `Ensures` states one fact about the trace and the outcome together and is taken through a sequence by
`Ensures.bind`. `Keeps` is the fact of one kind: the trace of what returns lies in one language and that of what unwinds in
another; `Always` is the case of a property that every element of the trace has.
-/

/-- How a computation comes out. -/
inductive Outcome (α : Type*) where
  | returned (value : α)
  | unwound (message : String)
  deriving DecidableEq, Repr

/-- Either way of coming out. -/
def Outcome.elim {α γ : Type*} (returned : α → γ) (unwound : String → γ) : Outcome α → γ
  | .returned value => returned value
  | .unwound message => unwound message

@[simp] theorem Outcome.elim_returned {α γ : Type*} (r : α → γ) (u : String → γ) (a : α) : (Outcome.returned a).elim r u = r a := rfl

@[simp] theorem Outcome.elim_unwound {α γ : Type*} (r : α → γ) (u : String → γ) (m : String) : (Outcome.unwound m).elim r u = u m := rfl

/-- What a computation did, and how it came out. -/
structure Traced (ω α : Type*) where
  trace : List ω
  outcome : Outcome α

namespace Traced

variable {ω α β : Type}

instance : Monad (Traced ω) where
  pure a := ⟨[], .returned a⟩
  bind x f :=
    match x.outcome with
    | .returned a => ⟨x.trace ++ (f a).trace, (f a).outcome⟩
    | .unwound m => ⟨x.trace, .unwound m⟩

/-- One thing done. -/
def log (e : ω) : Traced ω Unit := ⟨[e], .returned ()⟩

/-- Unwind. -/
def unwind (message : String) : Traced ω α := ⟨[], .unwound message⟩

/-- Come out as told. -/
def settle (o : Outcome α) : Traced ω α := ⟨[], o⟩

/-- Catch the unwinding, and go on with how the computation came out. -/
def catchUnwind (x : Traced ω α) : Traced ω (Outcome α) := ⟨x.trace, .returned x.outcome⟩

/-- One computation for each item of a list, with its place. -/
def forEach (f : Nat → α → Traced ω β) : Nat → List α → Traced ω (List β)
  | _, [] => pure []
  | i, a :: as => do
    let b ← f i a
    let bs ← forEach f (i + 1) as
    pure (b :: bs)

/-- One computation for each item, up to the first that gives nothing. -/
def whileSome (f : Nat → α → Traced ω (Option β)) : Nat → List α → Traced ω (List β)
  | _, [] => pure []
  | i, a :: as => do
    match ← f i a with
    | none => pure []
    | some b =>
      let bs ← whileSome f (i + 1) as
      pure (b :: bs)

@[simp] theorem pure_trace (a : α) : (pure a : Traced ω α).trace = [] := rfl

@[simp] theorem pure_outcome (a : α) : (pure a : Traced ω α).outcome = .returned a := rfl

@[simp] theorem log_trace (e : ω) : (log e).trace = [e] := rfl

@[simp] theorem log_outcome (e : ω) : (log e).outcome = .returned () := rfl

@[simp] theorem unwind_trace (m : String) : (unwind m : Traced ω α).trace = [] := rfl

@[simp] theorem unwind_outcome (m : String) : (unwind m : Traced ω α).outcome = .unwound m := rfl

@[simp] theorem settle_trace (o : Outcome α) : (settle o : Traced ω α).trace = [] := rfl

@[simp] theorem settle_outcome (o : Outcome α) : (settle o : Traced ω α).outcome = o := rfl

@[simp] theorem catchUnwind_trace (x : Traced ω α) : (catchUnwind x).trace = x.trace := rfl

@[simp] theorem catchUnwind_outcome (x : Traced ω α) : (catchUnwind x).outcome = .returned x.outcome := rfl

theorem bind_of_returned {x : Traced ω α} {a : α} (h : x.outcome = .returned a) (f : α → Traced ω β) :
    x >>= f = ⟨x.trace ++ (f a).trace, (f a).outcome⟩ := by
  simp only [bind, h]

theorem bind_of_unwound {x : Traced ω α} {m : String} (h : x.outcome = .unwound m) (f : α → Traced ω β) :
    x >>= f = ⟨x.trace, .unwound m⟩ := by
  simp only [bind, h]

/-- Three in a row, taken together either way. -/
theorem bind_bind {γ : Type} (x : Traced ω α) (f : α → Traced ω β) (g : β → Traced ω γ) :
    x >>= f >>= g = x >>= fun a => f a >>= g := by
  cases ho : x.outcome with
  | unwound m =>
    rw [bind_of_unwound ho, bind_of_unwound ho]
    rfl
  | returned a =>
    rw [bind_of_returned ho, bind_of_returned ho]
    cases hf : (f a).outcome with
    | unwound m => simp [bind, hf]
    | returned b => simp [bind, hf]

/-- The same coming out, with the value changed. -/
def mapOutcome (g : α → β) : Outcome α → Outcome β
  | .returned a => .returned (g a)
  | .unwound m => .unwound m

theorem map_eq (g : α → β) (x : Traced ω α) : g <$> x = ⟨x.trace, mapOutcome g x.outcome⟩ := by
  change (x >>= fun a => pure (g a)) = _
  cases ho : x.outcome with
  | returned a =>
    rw [bind_of_returned ho]
    simp [mapOutcome]
  | unwound m =>
    rw [bind_of_unwound ho]
    rfl

theorem bind_map {γ : Type} (x : Traced ω α) (f : α → Traced ω β) (g : β → γ) :
    (x >>= fun a => g <$> f a) = ⟨(x >>= f).trace, mapOutcome g (x >>= f).outcome⟩ := by
  cases ho : x.outcome with
  | returned a =>
    rw [bind_of_returned ho, bind_of_returned ho, map_eq]
  | unwound m =>
    rw [bind_of_unwound ho, bind_of_unwound ho]
    rfl

/-- What a sequence that returns went through. -/
theorem bind_returned {x : Traced ω α} {f : α → Traced ω β} {b : β} (h : (x >>= f).outcome = .returned b) :
    ∃ a, x.outcome = .returned a ∧ (f a).outcome = .returned b ∧ (x >>= f).trace = x.trace ++ (f a).trace := by
  cases ho : x.outcome with
  | returned a =>
    rw [bind_of_returned ho] at h ⊢
    exact ⟨a, rfl, h, rfl⟩
  | unwound m =>
    rw [bind_of_unwound ho] at h
    cases h

/-! ## Facts about the trace and the outcome together -/

/-- The fact holds of what the computation did and of how it came out. -/
def Ensures (x : Traced ω α) (Q : List ω → Outcome α → Prop) : Prop := Q x.trace x.outcome

theorem Ensures.mono {x : Traced ω α} {Q R : List ω → Outcome α → Prop} (h : Ensures x Q) (hQR : ∀ w o, Q w o → R w o) :
    Ensures x R := hQR _ _ h

theorem Ensures.pure {a : α} {Q : List ω → Outcome α → Prop} (h : Q [] (.returned a)) : Ensures (Pure.pure a) Q := h

/-- A fact goes through a sequence: what follows starts from what the first part ensures. -/
theorem Ensures.bind {x : Traced ω α} {f : α → Traced ω β} {Q : List ω → Outcome α → Prop} {R : List ω → Outcome β → Prop}
    (hx : Ensures x Q) (hreturned : ∀ w a, Q w (.returned a) → Ensures (f a) (fun w' o => R (w ++ w') o))
    (hunwound : ∀ w m, Q w (.unwound m) → R w (.unwound m)) : Ensures (x >>= f) R := by
  unfold Ensures at hx
  cases ho : x.outcome with
  | returned a =>
    rw [bind_of_returned ho]
    rw [ho] at hx
    exact hreturned _ _ hx
  | unwound m =>
    rw [bind_of_unwound ho]
    rw [ho] at hx
    exact hunwound _ _ hx

/-! ## Languages of traces -/

/-- A trace of `L` may stand before one of `M`. -/
def Precedes (L M : List ω → Prop) : Prop := ∀ v w, L v → M w → M (v ++ w)

/-- The trace of a computation that returns is in `L`, that of one that unwinds in `U`. -/
structure Keeps (L U : List ω → Prop) (x : Traced ω α) : Prop where
  returned : ∀ a, x.outcome = .returned a → L x.trace
  unwound : ∀ m, x.outcome = .unwound m → U x.trace

section Keeps

variable {L M U V : List ω → Prop}

theorem Keeps.mono {x : Traced ω α} (h : Keeps L U x) (hL : ∀ w, L w → M w) (hU : ∀ w, U w → V w) : Keeps M V x :=
  ⟨fun a ha => hL _ (h.returned a ha), fun m hm => hU _ (h.unwound m hm)⟩

/-- Whatever comes out, the trace is in the language. -/
theorem Keeps.trace {x : Traced ω α} (h : Keeps L L x) : L x.trace := by
  cases ho : x.outcome with
  | returned a => exact h.returned a ho
  | unwound m => exact h.unwound m ho

theorem Keeps.pure {a : α} (h : L []) : Keeps L U (Pure.pure a) := ⟨fun _ _ => h, by rintro m ⟨⟩⟩

theorem Keeps.log {e : ω} (h : L [e]) : Keeps L U (log e) := ⟨fun _ _ => h, by rintro m ⟨⟩⟩

theorem Keeps.unwind {m : String} (h : U []) : Keeps L U (unwind m : Traced ω α) := ⟨by rintro a ⟨⟩, fun _ _ => h⟩

/-- One computation after another, each in its own languages. -/
theorem Keeps.seq {N W : List ω → Prop} {x : Traced ω α} {f : α → Traced ω β} (hx : Keeps L U x) (hf : ∀ a, Keeps M V (f a))
    (hreturned : ∀ v w, L v → M w → N (v ++ w)) (hunwound : ∀ v w, L v → V w → W (v ++ w)) (hfirst : ∀ v, U v → W v) :
    Keeps N W (x >>= f) := by
  cases ho : x.outcome with
  | returned a =>
    rw [bind_of_returned ho]
    have hL := hx.returned a ho
    exact ⟨fun b hb => hreturned _ _ hL ((hf a).returned b hb), fun m hm => hunwound _ _ hL ((hf a).unwound m hm)⟩
  | unwound m =>
    rw [bind_of_unwound ho]
    exact ⟨by rintro b ⟨⟩, fun _ _ => hfirst _ (hx.unwound m ho)⟩

theorem Keeps.bind {x : Traced ω α} {f : α → Traced ω β} (hM : Precedes L M) (hU : Precedes L U) (hx : Keeps L U x)
    (hf : ∀ a, Keeps M U (f a)) : Keeps M U (x >>= f) := Keeps.seq hx hf hM hU fun _ => id

/-- What is caught returns. -/
theorem Keeps.catchUnwind {x : Traced ω α} (h : Keeps L L x) : Keeps L U (catchUnwind x) :=
  ⟨fun _ _ => h.trace, by rintro m ⟨⟩⟩

/-- After a computation that is known to return. -/
theorem Keeps.after {x : Traced ω α} {a : α} {f : α → Traced ω β} (hM : Precedes L M) (hU : Precedes L U)
    (ho : x.outcome = .returned a) (hx : L x.trace) (hf : Keeps M U (f a)) : Keeps M U (x >>= f) := by
  rw [bind_of_returned ho]
  exact ⟨fun b hb => hM _ _ hx (hf.returned b hb), fun m hm => hU _ _ hx (hf.unwound m hm)⟩

/-- What only goes on with a value adds nothing to the trace. -/
theorem Keeps.andPure {x : Traced ω α} (g : α → β) (h : Keeps L U x) : Keeps L U (x >>= fun a => Pure.pure (g a)) := by
  have hpure : ∀ a, Keeps (· = []) (fun _ => False) (Pure.pure (g a) : Traced ω β) := fun a => Keeps.pure rfl
  refine Keeps.seq h hpure ?_ (fun _ _ _ => False.elim) fun _ => id
  rintro v w hv rfl
  simpa using hv

theorem Keeps.forEach {f : Nat → α → Traced ω β} (hnil : L []) (hL : Precedes L L) (hU : Precedes L U) (as : List α)
    (hf : ∀ i, ∀ a ∈ as, Keeps L U (f i a)) (i : Nat) : Keeps L U (forEach f i as) := by
  induction as generalizing i with
  | nil => exact Keeps.pure hnil
  | cons a as ih =>
    refine Keeps.bind hL hU (hf i a (by simp)) fun b => ?_
    exact (ih (fun i a ha => hf i a (by simp [ha])) (i + 1)).andPure _

theorem Keeps.whileSome {f : Nat → α → Traced ω (Option β)} (hnil : L []) (hL : Precedes L L) (hU : Precedes L U) (as : List α)
    (hf : ∀ i, ∀ a ∈ as, Keeps L U (f i a)) (i : Nat) : Keeps L U (whileSome f i as) := by
  induction as generalizing i with
  | nil => exact Keeps.pure hnil
  | cons a as ih =>
    refine Keeps.bind hL hU (hf i a (by simp)) fun b => ?_
    cases b with
    | none => exact Keeps.pure hnil
    | some b => exact (ih (fun i a ha => hf i a (by simp [ha])) (i + 1)).andPure _

end Keeps

/-! ## Computations that do not unwind -/

/-- The computation returns. -/
def Returns (x : Traced ω α) : Prop := ∃ a, x.outcome = .returned a

theorem Returns.pure (a : α) : Returns (Pure.pure a : Traced ω α) := ⟨a, rfl⟩

theorem Returns.log (e : ω) : Returns (log e) := ⟨(), rfl⟩

theorem Returns.catchUnwind (x : Traced ω α) : Returns (catchUnwind x) := ⟨x.outcome, rfl⟩

theorem Returns.bind {x : Traced ω α} {f : α → Traced ω β} (hx : Returns x) (hf : ∀ a, Returns (f a)) : Returns (x >>= f) := by
  obtain ⟨a, ha⟩ := hx
  obtain ⟨b, hb⟩ := hf a
  exact ⟨b, by rw [bind_of_returned ha]; exact hb⟩

theorem Returns.forEach {f : Nat → α → Traced ω β} (as : List α) (hf : ∀ i, ∀ a ∈ as, Returns (f i a)) (i : Nat) :
    Returns (forEach f i as) := by
  induction as generalizing i with
  | nil => exact Returns.pure _
  | cons a as ih =>
    refine Returns.bind (hf i a (by simp)) fun b => ?_
    exact Returns.bind (ih (fun i a ha => hf i a (by simp [ha])) (i + 1)) fun bs => Returns.pure _

/-- What returns has no trace that unwound. -/
theorem Keeps.of_returns {L U V : List ω → Prop} {x : Traced ω α} (h : Keeps L U x) (hx : Returns x) : Keeps L V x := by
  obtain ⟨a, ha⟩ := hx
  exact ⟨h.returned, fun m hm => by rw [ha] at hm; cases hm⟩

/-! ## The values of computations that return -/

/-- The value has the property, if there is one. -/
def Yields (x : Traced ω α) (P : α → Prop) : Prop := ∀ a, x.outcome = .returned a → P a

section Yields

variable {P : α → Prop} {Q : β → Prop}

theorem Yields.pure {a : α} (h : P a) : Yields (Pure.pure a : Traced ω α) P := by
  rintro b ⟨⟩
  exact h

/-- What is known of the first value is known where the second comes from. -/
theorem Yields.bind {x : Traced ω α} {f : α → Traced ω β} (hx : Yields x P) (hf : ∀ a, P a → Yields (f a) Q) :
    Yields (x >>= f) Q := by
  intro b hb
  obtain ⟨a, ha, hfa, -⟩ := bind_returned hb
  exact hf a (hx a ha) b hfa

/-- Nothing needs to be known of the first value. -/
theorem Yields.after {x : Traced ω α} {f : α → Traced ω β} (hf : ∀ a, Yields (f a) Q) : Yields (x >>= f) Q :=
  Yields.bind (P := fun _ => True) (fun _ _ => trivial) fun a _ => hf a

theorem Yields.forEach {f : Nat → α → Traced ω β} (as : List α) (hf : ∀ i, ∀ a ∈ as, Yields (f i a) Q) (i : Nat) :
    Yields (forEach f i as) fun bs => ∀ b ∈ bs, Q b := by
  induction as generalizing i with
  | nil => exact Yields.pure (by simp)
  | cons a as ih =>
    refine Yields.bind (hf i a (by simp)) fun b hb => ?_
    refine Yields.bind (ih (fun i a ha => hf i a (by simp [ha])) (i + 1)) fun bs hbs => ?_
    exact Yields.pure (by simpa using ⟨hb, hbs⟩)

theorem Yields.whileSome {f : Nat → α → Traced ω (Option β)} (as : List α)
    (hf : ∀ i, ∀ a ∈ as, Yields (f i a) fun o => ∀ b ∈ o, Q b) (i : Nat) : Yields (whileSome f i as) fun bs => ∀ b ∈ bs, Q b := by
  induction as generalizing i with
  | nil => exact Yields.pure (by simp)
  | cons a as ih =>
    refine Yields.bind (hf i a (by simp)) fun o ho => ?_
    cases o with
    | none => exact Yields.pure (by simp)
    | some b =>
      refine Yields.bind (ih (fun i a ha => hf i a (by simp [ha])) (i + 1)) fun bs hbs => ?_
      exact Yields.pure (by simpa using ⟨ho b rfl, hbs⟩)

end Yields

/-! ## Traces of which every element has a property -/

/-- Every element of the trace has the property. -/
def All (p : ω → Prop) (w : List ω) : Prop := ∀ e ∈ w, p e

theorem All.nil {p : ω → Prop} : All p [] := by simp [All]

theorem All.precedes {p : ω → Prop} : Precedes (All p) (All p) := fun _ _ hv hw e he => (List.mem_append.mp he).elim (hv e) (hw e)

theorem All.mono {p q : ω → Prop} (h : ∀ e, p e → q e) (w : List ω) (hw : All p w) : All q w := fun e he => h e (hw e he)

/-- Whatever comes out, every element of the trace has the property. -/
abbrev Always (p : ω → Prop) (x : Traced ω α) : Prop := Keeps (All p) (All p) x

section Always

variable {p : ω → Prop}

theorem Always.pure (a : α) : Always p (Pure.pure a) := Keeps.pure .nil

theorem Always.log {e : ω} (h : p e) : Always p (log e) := Keeps.log (by simpa [All] using h)

theorem Always.unwind (m : String) : Always p (unwind m : Traced ω α) := Keeps.unwind .nil

theorem Always.settle (o : Outcome α) : Always p (settle o) := ⟨fun _ _ => .nil, fun _ _ => .nil⟩

theorem Always.bind {x : Traced ω α} {f : α → Traced ω β} (hx : Always p x) (hf : ∀ a, Always p (f a)) : Always p (x >>= f) :=
  Keeps.bind All.precedes All.precedes hx hf

/-- What is known of the first value is known where the rest is traced. -/
theorem Always.bindYields {P : α → Prop} {x : Traced ω α} {f : α → Traced ω β} (hx : Always p x) (hy : Yields x P)
    (hf : ∀ a, P a → Always p (f a)) : Always p (x >>= f) := by
  cases ho : x.outcome with
  | returned a =>
    rw [bind_of_returned ho]
    have hrest := hf a (hy a ho)
    have hfirst := hx.returned a ho
    exact ⟨fun b hb => All.precedes _ _ hfirst (hrest.returned b hb), fun m hm => All.precedes _ _ hfirst (hrest.unwound m hm)⟩
  | unwound m =>
    rw [bind_of_unwound ho]
    exact ⟨by rintro b ⟨⟩, fun _ _ => hx.unwound m ho⟩

theorem Always.catchUnwind {x : Traced ω α} (h : Always p x) : Always p (catchUnwind x) := Keeps.catchUnwind h

theorem Always.forEach {f : Nat → α → Traced ω β} (as : List α) (hf : ∀ i, ∀ a ∈ as, Always p (f i a)) (i : Nat) :
    Always p (forEach f i as) := Keeps.forEach .nil All.precedes All.precedes as hf i

theorem Always.whileSome {f : Nat → α → Traced ω (Option β)} (as : List α) (hf : ∀ i, ∀ a ∈ as, Always p (f i a)) (i : Nat) :
    Always p (whileSome f i as) := Keeps.whileSome .nil All.precedes All.precedes as hf i

end Always

end Traced
