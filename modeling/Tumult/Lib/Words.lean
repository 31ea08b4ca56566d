import Mathlib

/-!
# The words of a text read in modes

A text is read character by character in modes: inside a string, inside a comment, or in the open. The words are the maximal runs of
word characters read in the open. Two readings of one text are compared by a relation between their modes: when every open mode of
the first is matched by an open mode of the second, the second reads every word the first reads (`Modes.words_subset`). With one
mode the text is split (`flat`), and every word between two boundaries is found (`mem_words_flat`).
-/

namespace Lex

variable {μ ν : Type*}

/-- How a text is read. -/
structure Modes (μ : Type*) where
  start : μ
  next : μ → Char → μ
  /-- Words are read in this mode. -/
  isOpen : μ → Bool

/-- The words of a text from a mode on, `w` being the word read so far. -/
def Modes.wordsFrom (M : Modes μ) (isWord : Char → Bool) : μ → List Char → List Char → List (List Char)
  | _, w, [] => [w]
  | m, w, c :: cs =>
    if M.isOpen m then
      if isWord c then M.wordsFrom isWord (M.next m c) (w ++ [c]) cs
      else w :: M.wordsFrom isWord (M.next m c) [] cs
    else M.wordsFrom isWord (M.next m c) w cs

/-- The words of a text; between two characters that are no word characters there is an empty one. -/
def Modes.words (M : Modes μ) (isWord : Char → Bool) (cs : List Char) : List (List Char) := M.wordsFrom isWord M.start [] cs

/-- Every character of the text is one its mode allows. -/
def Modes.Allows (M : Modes μ) (ok : μ → Char → Prop) : μ → List Char → Prop
  | _, [] => True
  | m, c :: cs => ok m c ∧ M.Allows ok (M.next m c) cs

/-- A word character does not lead out of the open. -/
def Modes.Stays (M : Modes μ) (isWord : Char → Bool) : Prop :=
  ∀ m c, M.isOpen m = true → isWord c = true → M.isOpen (M.next m c) = true

/-- A reading that is in the open whenever the other is, on the texts the other allows; what leads the other back to the open is no
word character. -/
structure Modes.Matches (M : Modes μ) (N : Modes ν) (isWord : Char → Bool) (ok : μ → Char → Prop) (R : μ → ν → Prop) : Prop where
  start : R M.start N.start
  next : ∀ m n c, R m n → ok m c → R (M.next m c) (N.next n c)
  isOpen : ∀ m n, R m n → M.isOpen m = true → N.isOpen n = true
  opens : ∀ m n c, R m n → M.isOpen m = false → M.isOpen (M.next m c) = true → isWord c = false

variable {M : Modes μ} {N : Modes ν} {isWord : Char → Bool} {ok : μ → Char → Prop} {R : μ → ν → Prop}

/-- What the two readings have read of a word: the same in the open, nothing elsewhere. -/
structure Aligned (M : Modes μ) (N : Modes ν) (m : μ) (n : ν) (w w' : List Char) : Prop where
  same : M.isOpen m = true → w = w'
  left : M.isOpen m = false → w = []
  right : N.isOpen n = false → w' = []

/-- After a character that is no word character nothing is read yet. -/
theorem Aligned.nil (m : μ) (n : ν) : Aligned M N m n [] [] := ⟨fun _ => rfl, fun _ => rfl, fun _ => rfl⟩

theorem Modes.wordsFrom_subset (hM : M.Stays isWord) (hN : N.Stays isWord) (h : M.Matches N isWord ok R) (cs : List Char) :
    ∀ (m : μ) (n : ν) (w w' : List Char), R m n → M.Allows ok m cs → Aligned M N m n w w' →
      ∀ x ∈ M.wordsFrom isWord m w cs, x ≠ [] → x ∈ N.wordsFrom isWord n w' cs := by
  -- induction on the text; the words read so far stay aligned
  induction cs with
  | nil =>
    intro m n w w' _ _ ha x hx hne
    obtain rfl := List.mem_singleton.mp hx
    cases hm : M.isOpen m with
    | true =>
      rw [ha.same hm]
      exact List.mem_singleton_self _
    | false => exact absurd (ha.left hm) hne
  | cons c cs ih =>
    intro m n w w' hr hok ha x hx hne
    have hr' := h.next m n c hr hok.1
    simp only [Modes.wordsFrom] at hx ⊢
    cases hm : M.isOpen m with
    | true =>
      obtain rfl := ha.same hm
      rw [if_pos hm] at hx
      rw [if_pos (h.isOpen m n hr hm)]
      cases hc : isWord c with
      | true =>
        simp only [hc, if_true] at hx ⊢
        refine ih _ _ _ _ hr' hok.2 ⟨fun _ => rfl, fun hcl => ?_, fun hcl => ?_⟩ x hx hne
        · rw [hM m c hm hc] at hcl
          cases hcl
        · rw [hN n c (h.isOpen m n hr hm) hc] at hcl
          cases hcl
      | false =>
        simp only [hc, Bool.false_eq_true, if_false, List.mem_cons] at hx ⊢
        rcases hx with rfl | hx
        · exact Or.inl rfl
        · exact Or.inr (ih _ _ _ _ hr' hok.2 (Aligned.nil _ _) x hx hne)
    | false =>
      obtain rfl := ha.left hm
      rw [if_neg (by simp [hm])] at hx
      -- the other reading may be in the open here: what it reads is dropped at the character that leads back to the open
      have hkeep : ∀ v : List Char, (M.isOpen (M.next m c) = true → v = []) → (N.isOpen (N.next n c) = false → v = []) →
          x ∈ N.wordsFrom isWord (N.next n c) v cs := by
        intro v hopen hclosed
        exact ih _ _ _ _ hr' hok.2 ⟨fun ho => (hopen ho).symm, fun _ => rfl, hclosed⟩ x hx hne
      cases hn : N.isOpen n with
      | true =>
        simp only [if_true]
        cases hc : isWord c with
        | true =>
          simp only [if_true]
          refine hkeep _ (fun ho => ?_) (fun hcl => ?_)
          · rw [h.opens m n c hr hm ho] at hc
            cases hc
          · rw [hN n c hn hc] at hcl
            cases hcl
        | false =>
          simp only [Bool.false_eq_true, if_false, List.mem_cons]
          exact Or.inr (hkeep [] (fun _ => rfl) (fun _ => rfl))
      | false =>
        obtain rfl := ha.right hn
        simp only [Bool.false_eq_true, if_false]
        exact hkeep [] (fun _ => rfl) (fun _ => rfl)

/-- A reading that is in the open whenever the other is reads every word the other reads. -/
theorem Modes.words_subset (hM : M.Stays isWord) (hN : N.Stays isWord) (h : M.Matches N isWord ok R) {cs : List Char}
    (hok : M.Allows ok M.start cs) {x : List Char} (hx : x ∈ M.words isWord cs) (hne : x ≠ []) : x ∈ N.words isWord cs :=
  Modes.wordsFrom_subset hM hN h cs _ _ _ _ h.start hok (Aligned.nil _ _) x hx hne

/-! ## Splitting -/

/-- The reading with one mode: the text is split at every character that is no word character. -/
def flat : Modes Unit where
  start := ()
  next _ _ := ()
  isOpen _ := true

/-- A word that goes on from what is read and ends the text or is followed by no word character is found. -/
theorem mem_wordsFrom_flat {word after : List Char} (hword : ∀ c ∈ word, isWord c = true)
    (hafter : ∀ c ∈ after.head?, isWord c = false) (w : List Char) : w ++ word ∈ flat.wordsFrom isWord () w (word ++ after) := by
  induction word generalizing w with
  | nil =>
    cases after with
    | nil => simp [Modes.wordsFrom]
    | cons c after => simp [Modes.wordsFrom, flat, hafter c (by simp)]
  | cons c word ih =>
    have hnext := ih (fun d hd => hword d (by simp [hd])) (w ++ [c])
    simpa [Modes.wordsFrom, flat, hword c (by simp)] using hnext

/-- A word between two boundaries is found. -/
theorem mem_words_flat {before word after : List Char} (hword : ∀ c ∈ word, isWord c = true)
    (hbefore : ∀ c ∈ before.getLast?, isWord c = false) (hafter : ∀ c ∈ after.head?, isWord c = false) :
    word ∈ flat.words isWord (before ++ word ++ after) := by
  have hfrom : ∀ w : List Char, (before = [] → w = []) → word ∈ flat.wordsFrom isWord () w (before ++ (word ++ after)) := by
    induction before with
    | nil =>
      intro w hw
      rw [hw rfl]
      exact mem_wordsFrom_flat hword hafter []
    | cons c before ih =>
      intro w _
      have hrest : ∀ d ∈ before.getLast?, isWord d = false := by
        intro d hd
        cases before with
        | nil => cases hd
        | cons e before => exact hbefore d (by rwa [List.getLast?_cons_cons])
      cases hc : isWord c with
      | true =>
        have hne : before ≠ [] := by
          rintro rfl
          rw [hbefore c (by simp)] at hc
          cases hc
        simpa [Modes.wordsFrom, flat, hc] using ih hrest (w ++ [c]) fun h => absurd h hne
      | false =>
        have htail := ih hrest [] fun _ => rfl
        simp only [List.cons_append, Modes.wordsFrom, flat, if_true, hc, Bool.false_eq_true, if_false, List.mem_cons]
        exact Or.inr htail
  simpa [Modes.words, flat] using hfrom [] fun _ => rfl

/-- Characters that are no word characters around a text add no word to it. -/
theorem mem_words_flat_strip {left cs right x : List Char} (hleft : ∀ c ∈ left, isWord c = false)
    (hright : ∀ c ∈ right, isWord c = false) (hx : x ∈ flat.words isWord (left ++ cs ++ right)) (hne : x ≠ []) :
    x ∈ flat.words isWord cs := by
  have hend : ∀ right : List Char, (∀ c ∈ right, isWord c = false) → ∀ w, x ∈ flat.wordsFrom isWord () w right → x = w := by
    intro right hright
    induction right with
    | nil => exact fun w hx => List.mem_singleton.mp hx
    | cons c right ih =>
      intro w hx
      simp only [Modes.wordsFrom, flat, if_true, hright c List.mem_cons_self, Bool.false_eq_true, if_false, List.mem_cons] at hx
      rcases hx with rfl | hx
      · rfl
      · exact absurd (ih (fun d hd => hright d (List.mem_cons_of_mem _ hd)) [] hx) hne
  have hdrop : ∀ w, x ∈ flat.wordsFrom isWord () w (cs ++ right) → x ∈ flat.wordsFrom isWord () w cs := by
    clear hx
    induction cs with
    | nil => exact fun w hx => List.mem_singleton.mpr (hend right hright w hx)
    | cons c cs ih =>
      intro w hx
      simp only [List.cons_append, Modes.wordsFrom, flat, if_true] at hx ⊢
      cases hc : isWord c with
      | true =>
        simp only [hc, if_true] at hx ⊢
        exact ih _ hx
      | false =>
        simp only [hc, Bool.false_eq_true, if_false, List.mem_cons] at hx ⊢
        exact hx.imp_right (ih _)
  refine hdrop [] ?_
  rw [List.append_assoc] at hx
  unfold Modes.words at hx
  induction left with
  | nil => exact hx
  | cons c left ih =>
    simp only [List.cons_append, Modes.wordsFrom, flat, if_true, hleft c List.mem_cons_self, Bool.false_eq_true, if_false,
      List.mem_cons] at hx
    exact ih (fun d hd => hleft d (List.mem_cons_of_mem _ hd)) (hx.resolve_left hne)

end Lex
