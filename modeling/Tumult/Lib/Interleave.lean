import Mathlib

/-!
# Interleaved tasks over a shared state

A pool of tasks takes atomic steps one at a time, in any order. A step of a task reads and writes the shared state and leaves
tasks in its place: none when the task ends, the task at its next point, the tasks it spawned. A reset is a step of the whole
pool. A run records, for every step, the shared state before it and its label.

The proof rule is the one for interference: a shared invariant `I`, an assertion `A` for each task at its point, and a symmetric
relation `R` between any two tasks of the pool. A step that keeps its own assertions and does not disturb those of the tasks it
is related to keeps all three (`Holds.step`), and so does a run whose steps all meet a condition (`Holds.run`).
-/

namespace Interleave

variable {σ τ ℓ : Type*}

/-- A shared state and the tasks that run over it. -/
structure Config (σ τ : Type*) where
  shared : σ
  tasks : List τ

/-- What one task may do, and what may happen to the whole pool. -/
structure System (σ τ ℓ : Type*) where
  step : σ → τ → ℓ → σ → List τ → Prop
  reset : Config σ τ → ℓ → Config σ τ → Prop

/-- One step of the pool. -/
inductive Step (S : System σ τ ℓ) : Config σ τ → ℓ → Config σ τ → Prop where
  | task {s s' : σ} {t : τ} {l : ℓ} {ts : List τ} (before after : List τ) (h : S.step s t l s' ts) :
      Step S ⟨s, before ++ t :: after⟩ l ⟨s', before ++ (ts ++ after)⟩
  | reset {c c' : Config σ τ} {l : ℓ} (h : S.reset c l c') : Step S c l c'

/-- A run: its steps in order, each with the shared state before it. -/
inductive Run (S : System σ τ ℓ) : Config σ τ → List (σ × ℓ) → Config σ τ → Prop where
  | nil (c : Config σ τ) : Run S c [] c
  | snoc {c c' c'' : Config σ τ} {l : ℓ} {trace : List (σ × ℓ)} (h : Run S c trace c') (hs : Step S c' l c'') :
      Run S c (trace ++ [(c'.shared, l)]) c''

variable {S : System σ τ ℓ}

/-- One step is a run. -/
theorem Step.run {c c' : Config σ τ} {l : ℓ} (h : Step S c l c') : Run S c [(c.shared, l)] c' := .snoc (.nil c) h

/-- Runs follow one another. -/
theorem Run.append {c c' c'' : Config σ τ} {trace trace' : List (σ × ℓ)} (h : Run S c trace c') (h' : Run S c' trace' c'') :
    Run S c (trace ++ trace') c'' := by
  induction h' with
  | nil => simpa using h
  | snoc _ hs ih =>
    rw [← List.append_assoc]
    exact .snoc ih hs

/-- Some run leads there whose steps all meet the condition. -/
def Reach (S : System σ τ ℓ) (P : σ → ℓ → Prop) (c c' : Config σ τ) : Prop :=
  ∃ trace, Run S c trace c' ∧ ∀ e ∈ trace, P e.1 e.2

theorem Reach.refl {P : σ → ℓ → Prop} (c : Config σ τ) : Reach S P c c := ⟨[], .nil c, by simp⟩

/-- From where a run has led, on. -/
theorem Reach.here {P : σ → ℓ → Prop} {c c' : Config σ τ} (_ : Reach S P c c') : Reach S P c' c' := .refl c'

/-- The task at a position of the pool takes a step. -/
theorem Run.task {c : Config σ τ} {trace : List (σ × ℓ)} {s s' : σ} {ts ts' : List τ} {t : τ} {l : ℓ} (h : Run S c trace ⟨s, ts⟩)
    (i : Nat) (hi : ts[i]? = some t) (hs : S.step s t l s' ts') :
    Run S c (trace ++ [(s, l)]) ⟨s', ts.take i ++ (ts' ++ ts.drop (i + 1))⟩ := by
  obtain ⟨hlt, rfl⟩ := List.getElem?_eq_some_iff.mp hi
  have hsplit : ts = ts.take i ++ ts[i] :: ts.drop (i + 1) := by simp
  rw [hsplit] at h
  exact .snoc h (.task _ _ hs)

theorem Reach.task {P : σ → ℓ → Prop} {c : Config σ τ} {s s' : σ} {ts ts' : List τ} {t : τ} {l : ℓ}
    (h : Reach S P c ⟨s, ts⟩) (i : Nat) (hi : ts[i]? = some t) (hs : S.step s t l s' ts') (hp : P s l) :
    Reach S P c ⟨s', ts.take i ++ (ts' ++ ts.drop (i + 1))⟩ := by
  obtain ⟨trace, hr, htrace⟩ := h
  exact ⟨_, hr.task i hi hs, List.forall_mem_append.mpr ⟨htrace, List.forall_mem_singleton.mpr hp⟩⟩

/-! ## The rule for interference -/

/-- The shared invariant, every task's assertion, and the relation between any two tasks. -/
structure Holds (I : σ → Prop) (A : σ → τ → Prop) (R : τ → τ → Prop) (c : Config σ τ) : Prop where
  shared : I c.shared
  task : ∀ t ∈ c.tasks, A c.shared t
  pair : c.tasks.Pairwise R

/-- What a step of a task owes: the invariant, the assertions and the relation of the tasks it leaves, and the assertions of
every other task, which is related to what it leaves. -/
structure Keeps (I : σ → Prop) (A : σ → τ → Prop) (R : τ → τ → Prop) (s : σ) (t : τ) (s' : σ) (ts : List τ) : Prop where
  shared : I s'
  task : ∀ t' ∈ ts, A s' t'
  pair : ts.Pairwise R
  other : ∀ u, A s u → R t u → A s' u
  related : ∀ u, A s u → R t u → ∀ t' ∈ ts, R t' u

variable {I : σ → Prop} {A : σ → τ → Prop} {R : τ → τ → Prop}

/-- Without a relation between tasks, a step owes the invariant, its assertions, and that it disturbs nobody's. -/
theorem Keeps.of_stable {s s' : σ} {t : τ} {ts : List τ} (hI : I s') (hts : ∀ t' ∈ ts, A s' t') (hstable : ∀ u, A s u → A s' u) :
    Keeps I A (fun _ _ => True) s t s' ts :=
  ⟨hI, hts, List.pairwise_of_forall (fun _ _ => trivial), fun u hu _ => hstable u hu, fun _ _ _ _ _ => trivial⟩

/-- What the last step of a task owes. -/
theorem Keeps.last {s s' : σ} {t : τ} (hI : I s') (hother : ∀ u, A s u → R t u → A s' u) : Keeps I A R s t s' [] :=
  ⟨hI, fun t' ht' => absurd ht' List.not_mem_nil, .nil, hother, fun _ _ _ t' ht' => absurd ht' List.not_mem_nil⟩

/-- What a step owes that leaves its task at its next point. -/
theorem Keeps.next {s s' : σ} {t t' : τ} (hI : I s') (ht' : A s' t') (hother : ∀ u, A s u → R t u → A s' u)
    (hrelated : ∀ u, A s u → R t u → R t' u) : Keeps I A R s t s' [t'] where
  shared := hI
  task := List.forall_mem_singleton.mpr ht'
  pair := List.pairwise_singleton _ _
  other := hother
  related u hu hr := List.forall_mem_singleton.mpr (hrelated u hu hr)

/-- A step that pays what it owes keeps the pool. -/
theorem Holds.task_step (hsymm : ∀ t u, R t u → R u t) {s s' : σ} {t : τ} {ts before after : List τ}
    (h : Holds I A R ⟨s, before ++ t :: after⟩) (hk : Keeps I A R s t s' ts) : Holds I A R ⟨s', before ++ (ts ++ after)⟩ := by
  obtain ⟨hbefore, hta, hcross⟩ := List.pairwise_append.mp h.pair
  obtain ⟨hafter, hpost⟩ := List.pairwise_cons.mp hta
  have hrel : ∀ u ∈ before ++ after, A s u ∧ R t u := by
    intro u hu
    rcases List.mem_append.mp hu with hu | hu
    · exact ⟨h.task u (by simp [hu]), hsymm _ _ (hcross u hu t (by simp))⟩
    · exact ⟨h.task u (by simp [hu]), hafter u hu⟩
  refine ⟨hk.shared, ?_, ?_⟩
  · intro u hu
    simp only [List.mem_append] at hu
    rcases hu with hu | hu | hu
    · exact hk.other u (hrel u (by simp [hu])).1 (hrel u (by simp [hu])).2
    · exact hk.task u hu
    · exact hk.other u (hrel u (by simp [hu])).1 (hrel u (by simp [hu])).2
  · refine List.pairwise_append.mpr ⟨hbefore, List.pairwise_append.mpr ⟨hk.pair, hpost, ?_⟩, ?_⟩
    · intro t' ht' u hu
      have hu' := hrel u (by simp [hu])
      exact hk.related u hu'.1 hu'.2 t' ht'
    · intro u hu x hx
      rcases List.mem_append.mp hx with hx | hx
      · have hu' := hrel u (by simp [hu])
        exact hsymm _ _ (hk.related u hu'.1 hu'.2 x hx)
      · exact hcross u hu x (by simp [hx])

/-- Step rule: a step that meets the condition keeps the pool. -/
theorem Holds.step (hsymm : ∀ t u, R t u → R u t) {ok : σ → ℓ → Prop}
    (htask : ∀ s t l s' ts, ok s l → I s → A s t → S.step s t l s' ts → Keeps I A R s t s' ts)
    (hreset : ∀ c l c', ok c.shared l → Holds I A R c → S.reset c l c' → Holds I A R c')
    {c c' : Config σ τ} {l : ℓ} (h : Holds I A R c) (hs : Step S c l c') (hok : ok c.shared l) : Holds I A R c' := by
  cases hs with
  | task before after ht => exact h.task_step hsymm (htask _ _ _ _ _ hok h.shared (h.task _ (by simp)) ht)
  | reset hr => exact hreset _ _ _ hok h hr

/-- Run rule: a run whose steps all meet the condition keeps the pool (induction on the run). -/
theorem Holds.run (hsymm : ∀ t u, R t u → R u t) {ok : σ → ℓ → Prop}
    (htask : ∀ s t l s' ts, ok s l → I s → A s t → S.step s t l s' ts → Keeps I A R s t s' ts)
    (hreset : ∀ c l c', ok c.shared l → Holds I A R c → S.reset c l c' → Holds I A R c')
    {c c' : Config σ τ} {trace : List (σ × ℓ)} (h : Holds I A R c) (hr : Run S c trace c')
    (hok : ∀ e ∈ trace, ok e.1 e.2) : Holds I A R c' := by
  induction hr with
  | nil => exact h
  | @snoc c₁ _ l _ _ hs ih =>
    have hc := ih (fun e he => hok e (by simp [he]))
    exact hc.step hsymm htask hreset hs (hok (c₁.shared, l) (by simp))

/-- A relation between shared states that every kept step satisfies holds between the ends of a run (induction on the run). -/
theorem Run.relates {P : Config σ τ → Prop} {Q : σ → σ → Prop} (hrefl : ∀ s, Q s s) (htrans : ∀ a b c, Q a b → Q b c → Q a c)
    {ok : σ → ℓ → Prop}
    (hstep : ∀ c l c', P c → Step S c l c' → ok c.shared l → P c' ∧ Q c.shared c'.shared)
    {c c' : Config σ τ} {trace : List (σ × ℓ)} (h : P c) (hr : Run S c trace c') (hok : ∀ e ∈ trace, ok e.1 e.2) :
    P c' ∧ Q c.shared c'.shared := by
  induction hr with
  | nil => exact ⟨h, hrefl _⟩
  | @snoc c₁ _ l _ _ hs ih =>
    obtain ⟨hp, hq⟩ := ih (fun e he => hok e (by simp [he]))
    obtain ⟨hp', hq'⟩ := hstep _ _ _ hp hs (hok (c₁.shared, l) (by simp))
    exact ⟨hp', htrans _ _ _ hq hq'⟩

/-- What every step shows from a kept configuration, every step of a run shows (induction on the run). -/
theorem Run.shows {P : Config σ τ → Prop} {Q : σ → ℓ → Prop} (hstep : ∀ c l c', P c → Step S c l c' → P c' ∧ Q c.shared l)
    {c c' : Config σ τ} {trace : List (σ × ℓ)} (h : P c) (hr : Run S c trace c') : P c' ∧ ∀ e ∈ trace, Q e.1 e.2 := by
  induction hr with
  | nil => exact ⟨h, fun _ he => absurd he List.not_mem_nil⟩
  | snoc _ hs ih =>
    obtain ⟨hp, hq⟩ := ih
    obtain ⟨hp', hq'⟩ := hstep _ _ _ hp hs
    exact ⟨hp', List.forall_mem_append.mpr ⟨hq, List.forall_mem_singleton.mpr hq'⟩⟩

end Interleave
