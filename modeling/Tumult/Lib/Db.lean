import Mathlib

/-!
# A single-writer database session

A session holds the store and a tick. Everything the session cannot foresee is numbered by the tick and read from an
environment: the wall clock, and whether a statement is refused. A transaction body is a program in a state-and-error monad whose
statements may be refused one by one; `withTx` undoes what a failed body wrote. The rules peel a program that returned apart
(`bind_ok` and one lemma a primitive), and `withTx_error` says that a transaction that reports an error changed nothing. `Meets` is
the contract of a program, with a rule for each primitive. What only a statement about programs reads is a history variable of the
store: `peek` and `note` read and write it outside the database, so they are never refused.

Tables are lists of rows in the order of their row ids; `updateWhere` is the `UPDATE … WHERE …` of a table.
-/

namespace Db

/-- What a session cannot foresee, numbered by its tick. -/
structure Env where
  clock : Nat → Int
  fails : Nat → Bool

/-- A session: the store it writes, and how many statements and clock readings it has made. -/
structure Session (σ : Type) where
  store : σ
  tick : Nat

/-- The session one tick later. -/
def Session.next {σ : Type} (s : Session σ) : Session σ := { s with tick := s.tick + 1 }

/-- The session with another store. -/
def Session.withStore {σ : Type} (s : Session σ) (st : σ) : Session σ := { s with store := st }

@[simp] theorem Session.next_store {σ : Type} (s : Session σ) : s.next.store = s.store := rfl

@[simp] theorem Session.withStore_store {σ : Type} (s : Session σ) (st : σ) : (s.withStore st).store = st := rfl

/-- A program on a session: it returns a value or an error, and leaves a session either way. -/
def Tx (ε σ α : Type) : Type := Session σ → Except ε α × Session σ

variable {ε σ α β : Type}

instance : Monad (Tx ε σ) where
  pure a := fun s => (.ok a, s)
  bind x f := fun s =>
    match x s with
    | (.ok a, s') => f a s'
    | (.error e, s') => (.error e, s')

/-- The session that a program leaves, whatever it returned. -/
def after (x : Tx ε σ α) (s : Session σ) : Session σ := (x s).2

/-- Report an error. -/
def throw (e : ε) : Tx ε σ α := fun s => (.error e, s)

/-- Read the wall clock. -/
def now (Γ : Env) : Tx ε σ Int := fun s => (.ok (Γ.clock s.tick), s.next)

/-- One statement on the store. A refused statement changes nothing. -/
def statement (Γ : Env) (refused : ε) (f : σ → α × σ) : Tx ε σ α := fun s =>
  if Γ.fails s.tick then (.error refused, s.next) else (.ok (f s.store).1, s.next.withStore (f s.store).2)

/-- A statement that only reads. -/
def query (Γ : Env) (refused : ε) (f : σ → α) : Tx ε σ α := statement Γ refused (fun st => (f st, st))

/-- Read something else the session cannot foresee. -/
def observe (f : Nat → α) : Tx ε σ α := fun s => (.ok (f s.tick), s.next)

/-- A value or an error that is already there. -/
def ofExcept : Except ε α → Tx ε σ α
  | .ok a => pure a
  | .error e => throw e

/-- Look at the store for a history variable. -/
def peek (f : σ → α) : Tx ε σ α := fun s => (.ok (f s.store), s)

/-- Write a history variable. -/
def note (f : σ → σ) : Tx ε σ Unit := fun s => (.ok (), s.withStore (f s.store))

/-- Run a body inside a transaction: begin, body, then commit or roll back. A refused begin runs nothing; a body that fails, or a
refused commit, leaves the store as it was. -/
def withTx (Γ : Env) (refused : ε) (body : Tx ε σ α) : Tx ε σ α := fun s =>
  if Γ.fails s.tick then (.error refused, s.next)
  else
    match body s.next with
    | (.ok a, s') =>
      if Γ.fails s'.tick then (.error refused, s'.next.withStore s.store) else (.ok a, s'.next)
    | (.error e, s') => (.error e, s'.next.withStore s.store)

/-! ## Peeling a program apart -/

/-- `pure` returns its value and leaves the session. -/
@[simp] theorem pure_ok {a b : α} {s s' : Session σ} :
    (pure a : Tx ε σ α) s = (.ok b, s') ↔ b = a ∧ s' = s := by
  constructor
  · intro h
    obtain ⟨h1, h2⟩ := Prod.mk.inj h
    exact ⟨(Except.ok.inj h1).symm, h2.symm⟩
  · rintro ⟨rfl, rfl⟩
    rfl

/-- A sequence returned when both parts did. -/
theorem bind_ok {x : Tx ε σ α} {f : α → Tx ε σ β} {b : β} {s s'' : Session σ} :
    (x >>= f) s = (.ok b, s'') ↔ ∃ a s', x s = (.ok a, s') ∧ f a s' = (.ok b, s'') := by
  change (match x s with | (.ok a, s') => f a s' | (.error e, s') => (.error e, s')) = _ ↔ _
  rcases x s with ⟨e | a, s'⟩
  · simp
  · simp only [Prod.mk.injEq, Except.ok.injEq]
    constructor
    · intro h
      exact ⟨a, s', ⟨rfl, rfl⟩, h⟩
    · rintro ⟨_, _, ⟨rfl, rfl⟩, h⟩
      exact h

/-- A sequence failed when its first part did, or its second after the first returned. -/
theorem bind_error {x : Tx ε σ α} {f : α → Tx ε σ β} {e : ε} {s s'' : Session σ} :
    (x >>= f) s = (.error e, s'') ↔
      x s = (.error e, s'') ∨ ∃ a s', x s = (.ok a, s') ∧ f a s' = (.error e, s'') := by
  change (match x s with | (.ok a, s') => f a s' | (.error e, s') => (.error e, s')) = _ ↔ _
  rcases x s with ⟨e' | a, s'⟩
  · simp
  · simp only [Prod.mk.injEq, Except.ok.injEq, reduceCtorEq, false_and, false_or]
    constructor
    · intro h
      exact ⟨a, s', ⟨rfl, rfl⟩, h⟩
    · rintro ⟨_, _, ⟨rfl, rfl⟩, h⟩
      exact h

/-- What a sequence does to the store: what its first part does, then what its second part does when the first returned. -/
theorem bind_store {Q : σ → σ → Prop} (htrans : ∀ a b c, Q a b → Q b c → Q a c) {x : Tx ε σ α} {f : α → Tx ε σ β}
    {s : Session σ} (hx : Q s.store (x s).2.store)
    (hf : ∀ a s', x s = (.ok a, s') → Q s'.store (f a s').2.store) : Q s.store ((x >>= f) s).2.store := by
  change Q s.store (match x s with | (.ok a, s') => f a s' | (.error e, s') => (.error e, s')).2.store
  rcases h : x s with ⟨e | a, s'⟩
  · rw [h] at hx
    exact hx
  · rw [h] at hx
    exact htrans _ _ _ hx (hf a s' h)

/-- What a statement does to the store: what it does when it is refused, which is nothing, and what it does when it is not. -/
theorem statement_store {Q : σ → σ → Prop} {Γ : Env} {refused : ε} {f : σ → α × σ} {s : Session σ}
    (hrefused : Q s.store s.store) (hdone : Q s.store (f s.store).2) : Q s.store (statement Γ refused f s).2.store := by
  unfold statement
  split
  · exact hrefused
  · exact hdone

/-- `throw` never returns. -/
@[simp] theorem throw_ok {e : ε} {a : α} {s s' : Session σ} : ¬ (throw e : Tx ε σ α) s = (.ok a, s') := by
  intro h
  simp [throw] at h

/-- A program with a guard in front returned: the guard let it through. -/
theorem guarded_ok {c : Prop} [Decidable c] {e : ε} {f : α → Tx ε σ β} {x : Tx ε σ β} {b : β} {s s' : Session σ}
    (h : (if c then throw e >>= f else x) s = (.ok b, s')) : ¬ c ∧ x s = (.ok b, s') := by
  split at h
  · obtain ⟨_, _, hthrow, -⟩ := bind_ok.mp h
    exact absurd hthrow throw_ok
  · rename_i hc
    exact ⟨hc, h⟩

/-- A clock reading moves the tick only. -/
theorem now_ok {Γ : Env} {t : Int} {s s' : Session σ} :
    (now Γ : Tx ε σ Int) s = (.ok t, s') ↔ t = Γ.clock s.tick ∧ s' = s.next := by
  unfold now
  simp only [Prod.mk.injEq, Except.ok.injEq]
  exact ⟨fun h => ⟨h.1.symm, h.2.symm⟩, fun h => ⟨h.1.symm, h.2.symm⟩⟩

/-- A statement that returned was applied to the store. -/
theorem statement_ok {Γ : Env} {refused : ε} {f : σ → α × σ} {a : α} {s s' : Session σ} :
    statement Γ refused f s = (.ok a, s') ↔
      Γ.fails s.tick = false ∧ a = (f s.store).1 ∧ s' = s.next.withStore (f s.store).2 := by
  unfold statement
  split <;> rename_i h
  · simp [h]
  · simp only [Prod.mk.injEq, Except.ok.injEq]
    exact ⟨fun h' => ⟨by simpa using h, h'.1.symm, h'.2.symm⟩, fun h' => ⟨h'.2.1.symm, h'.2.2.symm⟩⟩

/-- An observation moves the tick only. -/
theorem observe_ok {f : Nat → α} {a : α} {s s' : Session σ} :
    (observe f : Tx ε σ α) s = (.ok a, s') ↔ a = f s.tick ∧ s' = s.next := by
  unfold observe
  simp only [Prod.mk.injEq, Except.ok.injEq]
  exact ⟨fun h => ⟨h.1.symm, h.2.symm⟩, fun h => ⟨h.1.symm, h.2.symm⟩⟩

/-- A query that returned read the store and left it. -/
theorem query_ok {Γ : Env} {refused : ε} {f : σ → α} {a : α} {s s' : Session σ} :
    query Γ refused f s = (.ok a, s') ↔ Γ.fails s.tick = false ∧ a = f s.store ∧ s' = s.next := by
  unfold query
  rw [statement_ok]
  rfl

/-- A transaction that returned is its body, between a begin and a commit that were not refused. -/
theorem withTx_ok {Γ : Env} {refused : ε} {body : Tx ε σ α} {a : α} {s s'' : Session σ} :
    withTx Γ refused body s = (.ok a, s'') ↔ Γ.fails s.tick = false ∧
      ∃ s', body s.next = (.ok a, s') ∧ Γ.fails s'.tick = false ∧ s'' = s'.next := by
  unfold withTx
  split <;> rename_i hbegin
  · simp [hbegin]
  · rcases body s.next with ⟨e | b, s'⟩
    · simp
    · by_cases hcommit : Γ.fails s'.tick
      · simp only [hcommit, if_true, Prod.mk.injEq, reduceCtorEq, false_and, false_iff, not_and, not_exists]
        rintro - t ⟨-, rfl⟩ ht
        simp [hcommit] at ht
      · simp only [hcommit, Bool.false_eq_true, if_false, Prod.mk.injEq, Except.ok.injEq]
        constructor
        · rintro ⟨rfl, rfl⟩
          exact ⟨by simpa using hbegin, s', ⟨rfl, rfl⟩, by simpa using hcommit, rfl⟩
        · rintro ⟨-, t, ⟨rfl, rfl⟩, -, rfl⟩
          exact ⟨rfl, rfl⟩

/-- A transaction that returned left the store its body left. -/
theorem withTx_body {Γ : Env} {refused : ε} {body : Tx ε σ α} {a : α} {s s'' : Session σ}
    (h : withTx Γ refused body s = (.ok a, s'')) : ∃ s', body s.next = (.ok a, s') ∧ s''.store = s'.store := by
  obtain ⟨-, s', hbody, -, rfl⟩ := withTx_ok.mp h
  exact ⟨s', hbody, rfl⟩

/-- A transaction that reports an error left the store as it was. -/
theorem withTx_error {Γ : Env} {refused : ε} {body : Tx ε σ α} {e : ε} {s s' : Session σ}
    (h : withTx Γ refused body s = (.error e, s')) : s'.store = s.store := by
  unfold withTx at h
  split at h
  · rw [← (Prod.mk.inj h).2]
    rfl
  · split at h
    · split at h
      · rw [← (Prod.mk.inj h).2]
        rfl
      · simp at h
    · rw [← (Prod.mk.inj h).2]
      rfl

/-! ## Contracts -/

/-- From a session with `P`, a program leaves `Q` of its value and its session when it returns, and `E` when it reports an error. -/
def Meets (P : Session σ → Prop) (x : Tx ε σ α) (Q : α → Session σ → Prop) (E : Session σ → Prop) : Prop :=
  ∀ s, P s → (∀ a s', x s = (.ok a, s') → Q a s') ∧ ∀ e s', x s = (.error e, s') → E s'

namespace Meets

variable {P P' : Session σ → Prop} {Q : α → Session σ → Prop} {R : β → Session σ → Prop} {E : Session σ → Prop} {Γ : Env}

/-- What a program leaves, whether it returned or not. -/
theorem leaves {x : Tx ε σ α} {s : Session σ} {I : Session σ → Prop} (h : Meets P x Q E) (hs : P s) (hQ : ∀ a s, Q a s → I s)
    (hE : ∀ s, E s → I s) : I (x s).2 := by
  rcases hx : x s with ⟨e | a, s'⟩
  · exact hE s' ((h s hs).2 e s' hx)
  · exact hQ a s' ((h s hs).1 a s' hx)

/-- A contract with a weaker promise, from a stronger assumption. -/
theorem weaken {x : Tx ε σ α} {Q' : α → Session σ → Prop} (h : Meets P x Q E) (hP : ∀ s, P' s → P s)
    (hQ : ∀ a s, Q a s → Q' a s) : Meets P' x Q' E :=
  fun s hs => ⟨fun a s' hx => hQ a s' ((h s (hP s hs)).1 a s' hx), (h s (hP s hs)).2⟩

/-- What is known before a program, whatever the session, is known while it runs. -/
theorem given {φ : Prop} {x : Tx ε σ α} (hP : ∀ s, P' s → φ ∧ P s) (h : φ → Meets P x Q E) : Meets P' x Q E :=
  fun s hs => h (hP s hs).1 s (hP s hs).2

/-- A contract that promises less on an error. -/
theorem exit {x : Tx ε σ α} {E' : Session σ → Prop} (h : Meets P x Q E) (hE : ∀ s, E s → E' s) : Meets P x Q E' :=
  fun s hs => ⟨(h s hs).1, fun e s' hx => hE s' ((h s hs).2 e s' hx)⟩

/-- A sequence keeps its contract when both parts do. -/
theorem bind {x : Tx ε σ α} {f : α → Tx ε σ β} (hx : Meets P x Q E) (hf : ∀ a, Meets (Q a) (f a) R E) :
    Meets P (x >>= f) R E := by
  intro s hs
  refine ⟨fun b s'' h => ?_, fun e s'' h => ?_⟩
  · obtain ⟨a, s', hxs, hfs⟩ := bind_ok.mp h
    exact (hf a s' ((hx s hs).1 a s' hxs)).1 b s'' hfs
  · rcases bind_error.mp h with hxs | ⟨a, s', hxs, hfs⟩
    · exact (hx s hs).2 e s'' hxs
    · exact (hf a s' ((hx s hs).1 a s' hxs)).2 e s'' hfs

theorem pure {a : α} (h : ∀ s, P s → Q a s) : Meets P (Pure.pure a : Tx ε σ α) Q E := by
  intro s hs
  refine ⟨fun b s' hb => ?_, fun e s' he => ?_⟩
  · obtain ⟨rfl, rfl⟩ := pure_ok.mp hb
    exact h s' hs
  · cases (Prod.mk.inj he).1

theorem throw {e : ε} (h : ∀ s, P s → E s) : Meets P (Db.throw e : Tx ε σ α) Q E := by
  intro s hs
  refine ⟨fun a s' ha => absurd ha throw_ok, fun e' s' he => ?_⟩
  rw [← (Prod.mk.inj he).2]
  exact h s hs

theorem statement {refused : ε} {f : σ → α × σ} (hE : ∀ s, P s → E s.next)
    (h : ∀ s, P s → Q (f s.store).1 (s.next.withStore (f s.store).2)) : Meets P (Db.statement Γ refused f) Q E := by
  intro s hs
  refine ⟨fun a s' ha => ?_, fun e s' he => ?_⟩
  · obtain ⟨-, rfl, rfl⟩ := statement_ok.mp ha
    exact h s hs
  · unfold Db.statement at he
    split at he
    · rw [← (Prod.mk.inj he).2]
      exact hE s hs
    · cases (Prod.mk.inj he).1

theorem query {refused : ε} {f : σ → α} (hE : ∀ s, P s → E s.next) (h : ∀ s, P s → Q (f s.store) s.next) :
    Meets P (Db.query Γ refused f) Q E :=
  statement hE h

theorem observe {f : Nat → α} (h : ∀ s, P s → Q (f s.tick) s.next) : Meets P (Db.observe f : Tx ε σ α) Q E := by
  intro s hs
  refine ⟨fun a s' ha => ?_, fun e s' he => ?_⟩
  · obtain ⟨rfl, rfl⟩ : f s.tick = a ∧ s.next = s' := by simpa [Db.observe] using ha
    exact h s hs
  · cases (Prod.mk.inj he).1

theorem now {Q : Int → Session σ → Prop} (h : ∀ s, P s → Q (Γ.clock s.tick) s.next) : Meets P (Db.now Γ : Tx ε σ Int) Q E :=
  observe h

theorem ofExcept {x : Except ε α} (hE : ∀ s, P s → E s) (h : ∀ a s, x = .ok a → P s → Q a s) :
    Meets P (Db.ofExcept x : Tx ε σ α) Q E := by
  rcases x with e | a
  · exact throw hE
  · exact pure fun s hs => h a s rfl hs

theorem peek {f : σ → α} (h : ∀ s, P s → Q (f s.store) s) : Meets P (Db.peek f : Tx ε σ α) Q E := by
  intro s hs
  refine ⟨fun a s' ha => ?_, fun e s' he => ?_⟩
  · obtain ⟨rfl, rfl⟩ : f s.store = a ∧ s = s' := by simpa [Db.peek] using ha
    exact h s hs
  · cases (Prod.mk.inj he).1

theorem note {f : σ → σ} {Q : Unit → Session σ → Prop} (h : ∀ s, P s → Q () (s.withStore (f s.store))) :
    Meets P (Db.note f : Tx ε σ Unit) Q E := by
  intro s hs
  refine ⟨fun a s' ha => ?_, fun e s' he => ?_⟩
  · rw [← (Prod.mk.inj ha).2]
    exact h s hs
  · cases (Prod.mk.inj he).1

end Meets

/-! ## Programs that only read -/

/-- A property of sessions that waiting and reading cannot break. -/
def Stable (P : Session σ → Prop) : Prop := ∀ s s', P s → s'.store = s.store → s.tick ≤ s'.tick → P s'

/-- A property of the store alone is stable. -/
theorem Stable.ofStore (I : σ → Prop) : Stable fun s : Session σ => I s.store := by
  intro s s' h hstore _
  rw [hstore]
  exact h

/-- A program that leaves the store, with what its value has to do with it. -/
def Reads (x : Tx ε σ α) (Q : σ → α → Prop) : Prop :=
  ∀ s, (∀ a s', x s = (.ok a, s') → Q s.store a ∧ s'.store = s.store ∧ s.tick ≤ s'.tick) ∧
    ∀ e s', x s = (.error e, s') → s'.store = s.store ∧ s.tick ≤ s'.tick

namespace Reads

variable {Q : σ → α → Prop} {R : σ → β → Prop} {Γ : Env}

/-- A stable property survives a program that only reads. -/
theorem meets {x : Tx ε σ α} {P : Session σ → Prop} (h : Reads x Q) (hP : Stable P) :
    Meets P x (fun a s => Q s.store a ∧ P s) P := by
  intro s hs
  refine ⟨fun a s' hx => ?_, fun e s' hx => ?_⟩
  · obtain ⟨hQ, hstore, htick⟩ := (h s).1 a s' hx
    exact ⟨hstore ▸ hQ, hP s s' hs hstore htick⟩
  · obtain ⟨hstore, htick⟩ := (h s).2 e s' hx
    exact hP s s' hs hstore htick

/-- What the value of a program that only reads has to do with the store. -/
theorem value {x : Tx ε σ α} (h : Reads x Q) {s : Session σ} {a : α} (ha : (x s).1 = .ok a) : Q s.store a :=
  ((h s).1 a (x s).2 (Prod.ext ha rfl)).1

theorem weaken {x : Tx ε σ α} {Q' : σ → α → Prop} (h : Reads x Q) (hQ : ∀ st a, Q st a → Q' st a) : Reads x Q' :=
  fun s => ⟨fun a s' hx => ⟨hQ _ a ((h s).1 a s' hx).1, ((h s).1 a s' hx).2⟩, (h s).2⟩

/-- What is known of the first value on this store is known where the second part runs. -/
theorem bind {x : Tx ε σ α} {f : α → Tx ε σ β} (hx : Reads x Q) (hf : ∀ a, Reads (f a) fun st b => Q st a → R st b) :
    Reads (x >>= f) R := by
  intro s
  refine ⟨fun b s'' h => ?_, fun e s'' h => ?_⟩
  · obtain ⟨a, s', hxs, hfs⟩ := bind_ok.mp h
    obtain ⟨hQ, hstore, htick⟩ := (hx s).1 a s' hxs
    obtain ⟨hR, hstore', htick'⟩ := (hf a s').1 b s'' hfs
    rw [hstore] at hR hstore'
    exact ⟨hR hQ, hstore', htick.trans htick'⟩
  · rcases bind_error.mp h with hxs | ⟨a, s', hxs, hfs⟩
    · exact (hx s).2 e s'' hxs
    · obtain ⟨-, hstore, htick⟩ := (hx s).1 a s' hxs
      obtain ⟨hstore', htick'⟩ := (hf a s').2 e s'' hfs
      exact ⟨hstore'.trans hstore, htick.trans htick'⟩

/-- Nothing needs to be known of the first value. -/
theorem after {x : Tx ε σ α} {f : α → Tx ε σ β} (hx : Reads x Q) (hf : ∀ a, Reads (f a) R) : Reads (x >>= f) R :=
  bind hx fun a => (hf a).weaken fun _ _ h _ => h

theorem pure {a : α} (h : ∀ st, Q st a) : Reads (Pure.pure a : Tx ε σ α) Q := by
  intro s
  refine ⟨fun b s' hb => ?_, fun e s' he => ?_⟩
  · obtain ⟨rfl, rfl⟩ := pure_ok.mp hb
    exact ⟨h _, rfl, le_refl _⟩
  · cases (Prod.mk.inj he).1

theorem throw {e : ε} : Reads (Db.throw e : Tx ε σ α) Q := by
  intro s
  refine ⟨fun a s' ha => absurd ha throw_ok, fun e' s' he => ?_⟩
  rw [← (Prod.mk.inj he).2]
  exact ⟨rfl, le_refl _⟩

theorem query {refused : ε} {f : σ → α} (h : ∀ st, Q st (f st)) : Reads (Db.query Γ refused f) Q := by
  intro s
  refine ⟨fun a s' ha => ?_, fun e s' he => ?_⟩
  · obtain ⟨-, rfl, rfl⟩ := query_ok.mp ha
    exact ⟨h _, rfl, Nat.le_succ _⟩
  · unfold Db.query Db.statement at he
    split at he
    · rw [← (Prod.mk.inj he).2]
      exact ⟨rfl, Nat.le_succ _⟩
    · cases (Prod.mk.inj he).1

theorem observe {f : Nat → α} (h : ∀ st tick, Q st (f tick)) : Reads (Db.observe f : Tx ε σ α) Q := by
  intro s
  refine ⟨fun a s' ha => ?_, fun e s' he => ?_⟩
  · obtain ⟨rfl, rfl⟩ : f s.tick = a ∧ s.next = s' := by simpa [Db.observe] using ha
    exact ⟨h _ _, rfl, Nat.le_succ _⟩
  · cases (Prod.mk.inj he).1

theorem ofExcept {x : Except ε α} (h : ∀ a st, x = .ok a → Q st a) : Reads (Db.ofExcept x : Tx ε σ α) Q := by
  rcases x with e | a
  · exact throw
  · exact pure fun st => h a st rfl

/-- After a reading of which nothing is known. -/
theorem observing {g : Nat → α} {f : α → Tx ε σ β} (hf : ∀ a, Reads (f a) R) : Reads (Db.observe g >>= f) R :=
  after (Q := fun _ _ => True) (observe fun _ _ => trivial) hf

end Reads

/-! ## Tables -/

variable {ρ : Type}

/-- `UPDATE … SET f WHERE p`: the rows, those that match rewritten in place. -/
def updateWhere (p : ρ → Bool) (f : ρ → ρ) (rows : List ρ) : List ρ := rows.map (fun r => if p r then f r else r)

/-- A row after an update is an old row, rewritten if it matched. -/
theorem mem_updateWhere {p : ρ → Bool} {f : ρ → ρ} {rows : List ρ} {r : ρ} :
    r ∈ updateWhere p f rows ↔ ∃ o ∈ rows, r = if p o then f o else o := by
  unfold updateWhere
  rw [List.mem_map]
  exact ⟨fun ⟨o, ho, h⟩ => ⟨o, ho, h.symm⟩, fun ⟨o, ho, h⟩ => ⟨o, ho, h.symm⟩⟩

/-- An update keeps the columns it does not set. -/
theorem map_updateWhere {κ : Type} {p : ρ → Bool} {f : ρ → ρ} {key : ρ → κ} (h : ∀ r, key (f r) = key r) (rows : List ρ) :
    (updateWhere p f rows).map key = rows.map key := by
  unfold updateWhere
  rw [List.map_map]
  refine List.map_congr_left fun r _ => ?_
  by_cases hp : p r <;> simp [hp, h]

/-- An update keeps the row ids. -/
theorem getElem?_updateWhere {p : ρ → Bool} {f : ρ → ρ} {rows : List ρ} {i : Nat} :
    (updateWhere p f rows)[i]? = rows[i]?.map (fun r => if p r then f r else r) := by
  unfold updateWhere
  rw [List.getElem?_map]

/-- An update that keeps what a search looks at finds the row it found, rewritten if it matched. -/
theorem find?_updateWhere {p q : ρ → Bool} {f : ρ → ρ} (h : ∀ r, q (f r) = q r) (rows : List ρ) :
    (updateWhere p f rows).find? q = (rows.find? q).map (fun r => if p r then f r else r) := by
  unfold updateWhere
  rw [List.find?_map]
  have hq : (q ∘ fun r => if p r then f r else r) = q := by
    funext r
    by_cases hp : p r <;> simp [hp, h]
  rw [hq]

/-- An update no row matches changes nothing. -/
theorem updateWhere_of_countP_eq_zero {p : ρ → Bool} {f : ρ → ρ} {rows : List ρ} (h : rows.countP p = 0) :
    updateWhere p f rows = rows := by
  rw [List.countP_eq_zero] at h
  unfold updateWhere
  refine (List.map_congr_left fun r hr => ?_).trans (List.map_id rows)
  simp [h r hr]

/-! ## Scripts -/

/-- Statements one after the other, up to the first that the database rejects. -/
def runAll (fs : List (σ → Option σ)) (st : σ) : Option σ := fs.foldlM (fun st f => f st) st

@[simp] theorem runAll_nil (st : σ) : runAll [] st = some st := rfl

@[simp] theorem runAll_cons (f : σ → Option σ) (fs : List (σ → Option σ)) (st : σ) :
    runAll (f :: fs) st = (f st).bind (runAll fs) := rfl

theorem runAll_append (fs gs : List (σ → Option σ)) (st : σ) : runAll (fs ++ gs) st = (runAll fs st).bind (runAll gs) := by
  induction fs generalizing st with
  | nil => rfl
  | cons f fs ih =>
    rw [List.cons_append, runAll_cons, runAll_cons, Option.bind_assoc]
    exact Option.bind_congr fun st' _ => ih st'

/-- What every statement keeps, a list of them keeps. -/
theorem runAll_keeps {P : σ → Prop} {fs : List (σ → Option σ)} {st st' : σ}
    (h : ∀ f ∈ fs, ∀ st st', P st → f st = some st' → P st') (hrun : runAll fs st = some st') (hst : P st) : P st' := by
  induction fs generalizing st with
  | nil =>
    obtain rfl : st = st' := by simpa using hrun
    exact hst
  | cons f fs ih =>
    obtain ⟨st₁, h₁, h₂⟩ := Option.bind_eq_some_iff.mp hrun
    exact ih (fun g hg => h g (List.mem_cons_of_mem _ hg)) h₂ (h f List.mem_cons_self st st₁ hst h₁)

/-- A list that runs to its end runs to every point before it. -/
theorem runAll_take {fs : List (σ → Option σ)} {st st' : σ} (h : runAll fs st = some st') (n : Nat) :
    ∃ st₁, runAll (fs.take n) st = some st₁ := by
  rw [← List.take_append_drop n fs, runAll_append] at h
  obtain ⟨st₁, h₁, -⟩ := Option.bind_eq_some_iff.mp h
  exact ⟨st₁, h₁⟩

/-- Statements that each rewrite one part of the store. -/
theorem runAll_field {γ : Type} (get : σ → γ) (set : σ → γ → σ) (hget : ∀ st x, get (set st x) = x)
    (hset : ∀ st x y, set (set st x) y = set st y) (hself : ∀ st, set st (get st) = st) (h : γ → α → γ) (as : List α) (st : σ) :
    runAll (as.map fun a st => some (set st (h (get st) a))) st = some (set st (as.foldl h (get st))) := by
  induction as generalizing st with
  | nil => simp [hself]
  | cons a as ih => simp [ih, hget, hset]

/-- Rows inserted one by one into a table. -/
theorem runAll_insert {ρ : Type} (get : σ → List ρ) (set : σ → List ρ → σ) (hget : ∀ st x, get (set st x) = x)
    (hset : ∀ st x y, set (set st x) y = set st y) (hself : ∀ st, set st (get st) = st) (rows : List ρ) (st : σ) :
    runAll (rows.map fun row st => some (set st (get st ++ [row]))) st = some (set st (get st ++ rows)) := by
  have hfold : ∀ old : List ρ, rows.foldl (fun old row => old ++ [row]) old = old ++ rows := by
    induction rows with
    | nil => simp
    | cons row rows ih => simp [ih]
  rw [← hfold]
  exact runAll_field get set hget hset hself (fun old row => old ++ [row]) rows st

/-- A statement that the database may itself reject; a rejected statement changes nothing either. -/
def execute (Γ : Env) (refused rejected : ε) (f : σ → Option σ) : Tx ε σ Unit := fun s =>
  if Γ.fails s.tick then (.error refused, s.next)
  else
    match f s.store with
    | some st => (.ok (), s.next.withStore st)
    | none => (.error rejected, s.next)

/-- A list of statements, each outside any transaction. -/
def executeAll (Γ : Env) (refused rejected : ε) : List (σ → Option σ) → Tx ε σ Unit
  | [] => pure ()
  | f :: fs => execute Γ refused rejected f >>= fun _ => executeAll Γ refused rejected fs

/-- The session in which nothing is refused. -/
def calm : Env := ⟨fun _ => 0, fun _ => false⟩

/-- The session that stops before its statement of that number, and not before. -/
def crashAt (n : Nat) : Env := ⟨fun _ => 0, fun tick => tick == n⟩

theorem bind_of_ok {x : Tx ε σ α} {f : α → Tx ε σ β} {a : α} {s s' : Session σ} (h : x s = (.ok a, s')) : (x >>= f) s = f a s' := by
  change (match x s with | (.ok a, s') => f a s' | (.error e, s') => (.error e, s')) = _
  rw [h]

theorem bind_of_error {x : Tx ε σ α} {f : α → Tx ε σ β} {e : ε} {s s' : Session σ} (h : x s = (.error e, s')) :
    (x >>= f) s = (.error e, s') := by
  change (match x s with | (.ok a, s') => f a s' | (.error e, s') => (.error e, s')) = _
  rw [h]

/-- What follows a program matters only where the program returned. -/
theorem bind_congr_ok {x : Tx ε σ α} {f g : α → Tx ε σ β} {s : Session σ} (h : ∀ a s', x s = (.ok a, s') → f a s' = g a s') :
    (x >>= f) s = (x >>= g) s := by
  rcases hx : x s with ⟨e | a, s'⟩
  · rw [bind_of_error hx, bind_of_error hx]
  · rw [bind_of_ok hx, bind_of_ok hx, h a s' hx]

theorem bind_assoc (x : Tx ε σ α) {γ : Type} (f : α → Tx ε σ β) (g : β → Tx ε σ γ) (s : Session σ) :
    ((x >>= f) >>= g) s = (x >>= fun a => f a >>= g) s := by
  rcases hx : x s with ⟨e | a, s'⟩
  · rw [bind_of_error hx, bind_of_error (bind_of_error hx)]
  · rw [bind_of_ok hx]
    rcases hf : f a s' with ⟨e | b, s''⟩
    · rw [bind_of_error ((bind_of_ok hx).trans hf), bind_of_error hf]
    · rw [bind_of_ok ((bind_of_ok hx).trans hf), bind_of_ok hf]

/-- A program that returns nothing is its own end. -/
theorem bind_pure_unit (x : Tx ε σ Unit) : (x >>= fun _ => pure ()) = x := by
  funext s
  rcases hx : x s with ⟨e | _, s'⟩
  · exact bind_of_error hx
  · exact bind_of_ok hx

theorem execute_refused {Γ : Env} {refused rejected : ε} {f : σ → Option σ} {s : Session σ} (h : Γ.fails s.tick = true) :
    execute Γ refused rejected f s = (.error refused, s.next) := by simp [execute, h]

theorem execute_done {Γ : Env} {refused rejected : ε} {f : σ → Option σ} {s : Session σ} {st : σ} (h : Γ.fails s.tick = false)
    (hf : f s.store = some st) : execute Γ refused rejected f s = (.ok (), ⟨st, s.tick + 1⟩) := by
  simp [execute, h, hf, Session.next, Session.withStore]

/-- A statement that the database cannot reject. -/
theorem execute_some {Γ : Env} {refused rejected : ε} {f : σ → σ} {s : Session σ} (h : Γ.fails s.tick = false) :
    execute Γ refused rejected (fun st => some (f st)) s = (.ok (), ⟨f s.store, s.tick + 1⟩) := execute_done h rfl

theorem execute_some_bind {Γ : Env} {refused rejected : ε} {f : σ → σ} {g : Unit → Tx ε σ β} {s : Session σ}
    (h : Γ.fails s.tick = false) :
    (execute Γ refused rejected (fun st => some (f st)) >>= g) s = g () ⟨f s.store, s.tick + 1⟩ := bind_of_ok (execute_some h)

/-- A statement that was executed was neither refused nor rejected. -/
theorem execute_ok {Γ : Env} {refused rejected : ε} {f : σ → Option σ} {s s' : Session σ} :
    execute Γ refused rejected f s = (.ok (), s') ↔ Γ.fails s.tick = false ∧ ∃ st, f s.store = some st ∧ s' = ⟨st, s.tick + 1⟩ := by
  unfold execute
  cases Γ.fails s.tick with
  | true => simp
  | false =>
    cases f s.store with
    | none => simp
    | some st =>
      simp only [Bool.false_eq_true, if_false, Prod.mk.injEq, true_and, Option.some.injEq, exists_eq_left']
      exact eq_comm

/-- A value that was there. -/
theorem ofExcept_ok {x : Except ε α} {a : α} {s s' : Session σ} : ofExcept x s = (.ok a, s') ↔ x = .ok a ∧ s' = s := by
  cases x with
  | error e => simp [ofExcept, throw]
  | ok b =>
    rw [ofExcept, pure_ok, Except.ok.injEq, eq_comm (a := a)]

/-- A statement that the database may reject. -/
theorem Meets.execute {Γ : Env} {refused rejected : ε} {f : σ → Option σ} {P E : Session σ → Prop} {Q : Unit → Session σ → Prop}
    (hE : ∀ s, P s → E s.next) (h : ∀ s st, P s → f s.store = some st → Q () (s.next.withStore st)) :
    Meets P (Db.execute Γ refused rejected f) Q E := by
  intro s hs
  unfold Db.execute
  refine ⟨fun a s' ha => ?_, fun e s' he => ?_⟩
  · split at ha
    · cases (Prod.mk.inj ha).1
    · split at ha
      · next st hst =>
        rw [← (Prod.mk.inj ha).2]
        exact h s st hs hst
      · cases (Prod.mk.inj ha).1
  · split at he
    · rw [← (Prod.mk.inj he).2]
      exact hE s hs
    · split at he
      · cases (Prod.mk.inj he).1
      · rw [← (Prod.mk.inj he).2]
        exact hE s hs

/-- A query is a statement that changes nothing, and what follows it knows what is in the store. -/
theorem query_bind (Γ : Env) (refused rejected : ε) (q : σ → α) (f : α → Tx ε σ β) (s : Session σ) :
    (query Γ refused q >>= f) s = (execute Γ refused rejected some >>= fun _ => f (q s.store)) s := by
  cases h : Γ.fails s.tick with
  | false =>
    have hquery : query Γ refused q s = (.ok (q s.store), s.next) := query_ok.mpr ⟨h, rfl, rfl⟩
    rw [bind_of_ok hquery, bind_of_ok (execute_done h rfl)]
    rfl
  | true =>
    have hquery : query Γ refused q s = (.error refused, s.next) := by simp [query, statement, h]
    rw [bind_of_error hquery, bind_of_error (execute_refused h)]

section Execute

variable {Γ : Env} {refused rejected : ε} {fs gs : List (σ → Option σ)} {s : Session σ} {st : σ}

theorem executeAll_append (s : Session σ) :
    executeAll Γ refused rejected (fs ++ gs) s = (executeAll Γ refused rejected fs >>= fun _ => executeAll Γ refused rejected gs) s := by
  induction fs generalizing s with
  | nil => rfl
  | cons f fs ih =>
    rw [List.cons_append, executeAll, executeAll, bind_assoc]
    exact bind_congr_ok fun _ s' _ => ih s'

/-- A script none of whose statements is refused runs to its end. -/
theorem executeAll_ok (hrun : runAll fs s.store = some st) (h : ∀ i, s.tick ≤ i → i < s.tick + fs.length → Γ.fails i = false) :
    executeAll Γ refused rejected fs s = (.ok (), ⟨st, s.tick + fs.length⟩) := by
  induction fs generalizing s with
  | nil =>
    obtain rfl : s.store = st := by simpa using hrun
    rfl
  | cons f fs ih =>
    obtain ⟨st₁, h₁, h₂⟩ := Option.bind_eq_some_iff.mp hrun
    simp only [List.length_cons] at h
    have hrest : executeAll Γ refused rejected fs ⟨st₁, s.tick + 1⟩ = (.ok (), ⟨st, s.tick + 1 + fs.length⟩) :=
      ih h₂ fun i hi hi' => h i (by dsimp only at hi; omega) (by dsimp only at hi'; omega)
    rw [executeAll, bind_of_ok (execute_done (h _ (le_refl _) (by omega)) h₁), hrest, List.length_cons, Nat.add_assoc,
      Nat.add_comm 1]

/-- A script that returned ran to its end. -/
theorem executeAll_run {s' : Session σ} (h : executeAll Γ refused rejected fs s = (.ok (), s')) :
    runAll fs s.store = some s'.store := by
  induction fs generalizing s with
  | nil =>
    obtain ⟨-, rfl⟩ := pure_ok.mp h
    rfl
  | cons f fs ih =>
    obtain ⟨_, s₁, hfirst, hrest⟩ := bind_ok.mp h
    have hf : f s.store = some s₁.store := by
      unfold execute at hfirst
      split at hfirst
      · cases (Prod.mk.inj hfirst).1
      · split at hfirst
        · next st hst =>
          rw [hst, ← (Prod.mk.inj hfirst).2]
          rfl
        · cases (Prod.mk.inj hfirst).1
    rw [runAll_cons, hf, Option.bind_some, ih hrest]

theorem execute_cases (Γ : Env) (refused rejected : ε) (s : Session σ) (f : σ → Option σ) :
    (Γ.fails s.tick = true ∨ f s.store = none) ∧ (∃ e, execute Γ refused rejected f s = (.error e, s.next)) ∨
      Γ.fails s.tick = false ∧ ∃ st, f s.store = some st ∧ execute Γ refused rejected f s = (.ok (), ⟨st, s.tick + 1⟩) := by
  cases h : Γ.fails s.tick with
  | true => exact .inl ⟨.inl rfl, refused, execute_refused h⟩
  | false =>
    cases hf : f s.store with
    | none => exact .inl ⟨.inr rfl, rejected, by simp [execute, h, hf]⟩
    | some st => exact .inr ⟨rfl, st, rfl, execute_done h hf⟩

/-- None of the statements of a script that returned was refused. -/
theorem executeAll_not_refused {s' : Session σ} (h : executeAll Γ refused rejected fs s = (.ok (), s')) :
    s'.tick = s.tick + fs.length ∧ ∀ i < fs.length, Γ.fails (s.tick + i) = false := by
  induction fs generalizing s with
  | nil =>
    obtain ⟨-, rfl⟩ := pure_ok.mp h
    exact ⟨rfl, fun i hi => absurd hi (Nat.not_lt_zero i)⟩
  | cons f fs ih =>
    obtain ⟨_, s₁, hfirst, hrest⟩ := bind_ok.mp h
    rcases execute_cases Γ refused rejected s f with ⟨-, e, herror⟩ | ⟨hok, st, -, hdone⟩
    · rw [herror] at hfirst
      cases (Prod.mk.inj hfirst).1
    · rw [hdone] at hfirst
      obtain rfl := (Prod.mk.inj hfirst).2
      obtain ⟨htick, hothers⟩ := ih hrest
      refine ⟨by rw [htick, List.length_cons]; dsimp only; omega, fun i hi => ?_⟩
      cases i with
      | zero => exact hok
      | succ i =>
        have hi' := hothers i (by simpa using hi)
        dsimp only at hi'
        rwa [show s.tick + (i + 1) = s.tick + 1 + i by omega]

/-- A script that reported an error has run the statements before one that was refused or rejected. -/
theorem executeAll_stopped {e : ε} {s' : Session σ} (h : executeAll Γ refused rejected fs s = (.error e, s')) :
    ∃ k, ∃ hk : k < fs.length, runAll (fs.take k) s.store = some s'.store ∧ (∀ i < k, Γ.fails (s.tick + i) = false) ∧
      (Γ.fails (s.tick + k) = true ∨ fs[k] s'.store = none) := by
  induction fs generalizing s with
  | nil => cases (Prod.mk.inj h).1
  | cons f fs ih =>
    rw [executeAll] at h
    rcases execute_cases Γ refused rejected s f with ⟨hwhy, e', herror⟩ | ⟨hfirst, st, hst, hdone⟩
    · rw [bind_of_error herror] at h
      obtain rfl := (Prod.mk.inj h).2
      exact ⟨0, Nat.succ_pos _, rfl, fun i hi => absurd hi (Nat.not_lt_zero i), hwhy⟩
    · rw [bind_of_ok hdone] at h
      obtain ⟨k, hk, hrun, hbefore, hwhy⟩ := ih h
      refine ⟨k + 1, Nat.succ_lt_succ hk, ?_, fun i hi => ?_, ?_⟩
      · rw [List.take_succ_cons, runAll_cons, hst]
        exact hrun
      · cases i with
        | zero => exact hfirst
        | succ i =>
          rw [show s.tick + (i + 1) = s.tick + 1 + i by omega]
          exact hbefore i (Nat.lt_of_succ_lt_succ hi)
      · rwa [show s.tick + (k + 1) = s.tick + 1 + k by omega]

/-- The statement of that number from a tick on is the first that is refused. -/
def StopsBefore (Γ : Env) (tick n : Nat) : Prop := Γ.fails (tick + n) = true ∧ ∀ i < n, Γ.fails (tick + i) = false

/-- A script that is stopped before one of its statements has run the statements before it. -/
theorem executeAll_refused {n : Nat} (hstops : StopsBefore Γ s.tick n) (hrun : runAll (fs.take n) s.store = some st)
    (hn : n < fs.length) : executeAll Γ refused rejected fs s = (.error refused, ⟨st, s.tick + n + 1⟩) := by
  have hlength : (fs.take n).length = n := by simp [Nat.min_eq_left (Nat.le_of_lt hn)]
  have hbefore : executeAll Γ refused rejected (fs.take n) s = (.ok (), ⟨st, s.tick + n⟩) := by
    rw [executeAll_ok hrun, hlength]
    intro i hle hi
    have hi' := hstops.2 (i - s.tick) (by omega)
    rwa [show s.tick + (i - s.tick) = i by omega] at hi'
  rw [← List.take_append_drop n fs, List.drop_eq_getElem_cons hn, executeAll_append, bind_of_ok hbefore, executeAll,
    bind_of_error (execute_refused hstops.1)]
  rfl

theorem executeAll_crash {n m : Nat} (hm : s.tick + n = m) (hrun : runAll (fs.take n) s.store = some st) (hn : n < fs.length) :
    executeAll (crashAt m) refused rejected fs s = (.error refused, ⟨st, m + 1⟩) := by
  subst hm
  refine executeAll_refused ⟨by simp [crashAt], fun i hi => ?_⟩ hrun hn
  simp only [crashAt, beq_eq_false_iff_ne, ne_eq]
  omega

/-- What is said of a script that the database never rejects is said of its end, when nothing is refused, and of what it wrote before
the first statement that is. -/
theorem executeAll_iff {P E : σ → Prop} {upTo : Nat → σ} (htotal : ∀ n ≤ fs.length, runAll (fs.take n) s.store = some (upTo n)) :
    ((∀ s', executeAll Γ refused rejected fs s = (.ok (), s') → P s'.store) ∧
        ∀ e s', executeAll Γ refused rejected fs s = (.error e, s') → E s'.store) ↔
      ((∀ i < fs.length, Γ.fails (s.tick + i) = false) → P (upTo fs.length)) ∧
        ∀ n < fs.length, StopsBefore Γ s.tick n → E (upTo n) := by
  have hend : runAll fs s.store = some (upTo fs.length) := by simpa using htotal fs.length (le_refl _)
  refine ⟨fun ⟨hok, herror⟩ => ⟨fun hnone => ?_, fun n hn hstops => ?_⟩, fun ⟨hok, herror⟩ => ⟨fun s' hs' => ?_, fun e s' hs' => ?_⟩⟩
  · refine hok _ (executeAll_ok hend fun i hle hi => ?_)
    have hi' := hnone (i - s.tick) (by omega)
    rwa [show s.tick + (i - s.tick) = i by omega] at hi'
  · exact herror _ _ (executeAll_refused hstops (htotal n (Nat.le_of_lt hn)) hn)
  · have hstore : s'.store = upTo fs.length := Option.some.inj ((executeAll_run hs').symm.trans hend)
    rw [hstore]
    exact hok (executeAll_not_refused hs').2
  · obtain ⟨k, hk, hrun, hbefore, hwhy⟩ := executeAll_stopped hs'
    have hstore : s'.store = upTo k := Option.some.inj (hrun.symm.trans (htotal k (Nat.le_of_lt hk)))
    have hnext := htotal (k + 1) hk
    rw [List.take_succ_eq_append_getElem hk, runAll_append, hrun, Option.bind_some, runAll_cons] at hnext
    have hrefused : Γ.fails (s.tick + k) = true := by
      refine hwhy.resolve_right fun hrejected => ?_
      rw [hrejected] at hnext
      nomatch hnext
    rw [hstore]
    exact herror k hk ⟨hrefused, hbefore⟩

/-- What every statement keeps, a script keeps, whatever is refused. -/
theorem executeAll_keeps {P : σ → Prop} (h : ∀ f ∈ fs, ∀ st st', P st → f st = some st' → P st') (hs : P s.store) :
    P (after (executeAll Γ refused rejected fs) s).store := by
  unfold after
  rcases hresult : executeAll Γ refused rejected fs s with ⟨e | _, s'⟩
  · obtain ⟨k, -, hrun, -⟩ := executeAll_stopped hresult
    exact runAll_keeps (fun f hf => h f (List.mem_of_mem_take hf)) hrun hs
  · exact runAll_keeps h (executeAll_run hresult) hs

/-- A transaction around a script that returned ran the script to its end, and nothing was refused from its begin to its commit. -/
theorem withTx_executeAll_ok {s' : Session σ} (h : withTx Γ refused (executeAll Γ refused rejected fs) s = (.ok (), s')) :
    runAll fs s.store = some s'.store ∧ s'.tick = s.tick + (fs.length + 2) ∧ ∀ i < fs.length + 2, Γ.fails (s.tick + i) = false := by
  obtain ⟨hbegin, s₁, hbody, hcommit, rfl⟩ := withTx_ok.mp h
  obtain ⟨htick, hnone⟩ := executeAll_not_refused hbody
  simp only [Session.next] at htick hnone
  have hrun : runAll fs s.next.store = some s₁.store := executeAll_run hbody
  refine ⟨hrun, by simp only [Session.next]; omega, fun i hi => ?_⟩
  rcases i with _ | i
  · exact hbegin
  · rw [show s.tick + (i + 1) = s.tick + 1 + i by omega]
    by_cases hlast : i = fs.length
    · rw [hlast, ← htick]
      exact hcommit
    · exact hnone i (by omega)

/-- A transaction around a script that runs to its end, in which nothing is refused. -/
theorem withTx_executeAll (hrun : runAll fs s.store = some st) (h : ∀ i < fs.length + 2, Γ.fails (s.tick + i) = false) :
    withTx Γ refused (executeAll Γ refused rejected fs) s = (.ok (), ⟨st, s.tick + (fs.length + 2)⟩) := by
  have hbody : executeAll Γ refused rejected fs s.next = (.ok (), ⟨st, s.tick + 1 + fs.length⟩) :=
    executeAll_ok hrun fun i hle hlt => by
      simp only [Session.next] at hle hlt
      have hi := h (i - s.tick) (by omega)
      rwa [show s.tick + (i - s.tick) = i by omega] at hi
  refine withTx_ok.mpr ⟨by simpa using h 0 (by omega), _, hbody, ?_, ?_⟩
  · rw [show s.tick + 1 + fs.length = s.tick + (fs.length + 1) by omega]
    exact h _ (by omega)
  · simp only [Session.next, Session.mk.injEq, true_and]
    omega

end Execute

/-! ## Undone programs -/

/-- A program that reports an error leaves the store as it was. -/
def Undone (x : Tx ε σ α) : Prop := ∀ s e s', x s = (.error e, s') → s'.store = s.store

namespace Undone

theorem withTx {Γ : Env} {refused : ε} {body : Tx ε σ α} : Undone (Db.withTx Γ refused body) := fun _ _ _ => withTx_error

/-- A guard in front. -/
theorem guarded {c : Prop} [Decidable c] {e : ε} {f : α → Tx ε σ β} {x : Tx ε σ β} (hx : Undone x) :
    Undone (if c then Db.throw e >>= f else x) := by
  split
  · intro s e' s' h
    rcases bind_error.mp h with h | ⟨a, s₁, h, -⟩
    · rw [← (Prod.mk.inj h).2]
    · exact absurd h throw_ok
  · exact hx

/-- After a program that only reads. -/
theorem after {x : Tx ε σ α} {Q : σ → α → Prop} {f : α → Tx ε σ β} (hx : Reads x Q) (hf : ∀ a, Undone (f a)) :
    Undone (x >>= f) := by
  intro s e s' h
  rcases bind_error.mp h with h | ⟨a, s₁, hfirst, hrest⟩
  · exact ((hx s).2 e s' h).1
  · exact (hf a s₁ e s' hrest).trans ((hx s).1 a s₁ hfirst).2.1

/-- What only changes the value. -/
theorem map {x : Tx ε σ α} {f : α → β} (hx : Undone x) : Undone (x >>= fun a => Pure.pure (f a)) := by
  intro s e s' h
  rcases bind_error.mp h with h | ⟨a, s₁, -, hpure⟩
  · exact hx s e s' h
  · cases (Prod.mk.inj hpure).1

end Undone

/-! ## Time passes -/

/-- The tick of a session never goes back. -/
def Later (x : Tx ε σ α) : Prop := ∀ s, s.tick ≤ (x s).2.tick

namespace Later

theorem bind {x : Tx ε σ α} {f : α → Tx ε σ β} (hx : Later x) (hf : ∀ a, Later (f a)) : Later (x >>= f) := by
  intro s
  have hfirst := hx s
  rcases h : x s with ⟨e | a, s'⟩
  · rw [h] at hfirst
    rw [bind_of_error h]
    exact hfirst
  · rw [h] at hfirst
    rw [bind_of_ok h]
    exact hfirst.trans (hf a s')

theorem pure {a : α} : Later (Pure.pure a : Tx ε σ α) := fun _ => Nat.le_refl _

theorem throw {e : ε} : Later (Db.throw e : Tx ε σ α) := fun _ => Nat.le_refl _

/-- A guard in front. -/
theorem guarded {c : Prop} [Decidable c] {e : ε} {f : α → Tx ε σ β} {x : Tx ε σ β} (hx : Later x) :
    Later (if c then Db.throw e >>= f else x) := by
  split
  · exact fun _ => Nat.le_refl _
  · exact hx

theorem ofExcept {x : Except ε α} : Later (Db.ofExcept x : Tx ε σ α) := by
  cases x with
  | error e => exact throw
  | ok a => exact pure

theorem now {Γ : Env} : Later (Db.now Γ : Tx ε σ Int) := fun s => Nat.le_succ s.tick

theorem observe {f : Nat → α} : Later (Db.observe f : Tx ε σ α) := fun s => Nat.le_succ s.tick

theorem query {Γ : Env} {refused : ε} {f : σ → α} : Later (Db.query Γ refused f) := by
  intro s
  unfold Db.query Db.statement
  split <;> exact Nat.le_succ s.tick

theorem execute {Γ : Env} {refused rejected : ε} {f : σ → Option σ} : Later (Db.execute Γ refused rejected f) := by
  intro s
  rcases execute_cases Γ refused rejected s f with ⟨-, e, he⟩ | ⟨-, st, -, hst⟩
  · rw [he]
    exact Nat.le_succ s.tick
  · rw [hst]
    exact Nat.le_succ s.tick

theorem withTx {Γ : Env} {refused : ε} {body : Tx ε σ α} (h : Later body) : Later (Db.withTx Γ refused body) := by
  intro s
  have hbody := (Nat.le_succ s.tick).trans (h s.next)
  unfold Db.withTx
  split
  · exact Nat.le_succ s.tick
  · split
    · rename_i heq
      rw [heq] at hbody
      split <;> exact hbody.trans (Nat.le_succ _)
    · rename_i heq
      rw [heq] at hbody
      exact hbody.trans (Nat.le_succ _)

end Later

end Db
