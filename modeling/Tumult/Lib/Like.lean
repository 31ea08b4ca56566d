import Mathlib

/-!
# Patterns of LIKE

A pattern in which `%` stands for any text, `_` for one character, and the character after the escape for itself; and its matching up
to case, where the text and the pattern are both folded before the pattern is read.
-/

namespace Like

/-- What a pattern is made of. -/
inductive Piece where
  | any
  | one
  | char (c : Char)
  deriving DecidableEq, Repr

/-- The pieces of a pattern; one that ends in the escape is not read. -/
def readPattern (escape : Char) : List Char → Option (List Piece)
  | [] => some []
  | c :: cs =>
    if c = escape then
      match cs with
      | [] => none
      | d :: ds => (readPattern escape ds).map (.char d :: ·)
    else (readPattern escape cs).map ((if c = '%' then .any else if c = '_' then .one else .char c) :: ·)

/-- The text is one of the pattern's. -/
def isMatch : List Piece → List Char → Bool
  | [], text => text.isEmpty
  | .any :: pieces, text => text.tails.any (isMatch pieces)
  | .one :: pieces, text => text.head?.isSome && isMatch pieces text.tail
  | .char c :: pieces, text => text.head? == some c && isMatch pieces text.tail

/-- How case is folded, character by character. The special characters are the images of themselves only. -/
structure CaseFold where
  fold : Char → Char
  special : ∀ c, ∀ d ∈ ['%', '_', '\\'], fold c = d ↔ c = d

/-- Matching up to case, with an escape; none if the pattern is not read. -/
def ilike (F : CaseFold) (escape : Char) (text pattern : String) : Option Bool :=
  (readPattern escape (pattern.toList.map F.fold)).map fun pieces => isMatch pieces (text.toList.map F.fold)

/-- A text with an escape before each special character. -/
def escaped (cs : List Char) : List Char := cs.flatMap fun c => if c ∈ ['%', '_', '\\'] then ['\\', c] else [c]

/-! ## Matching -/

theorem isMatch_nil {text : List Char} : isMatch [] text = true ↔ text = [] := List.isEmpty_iff

theorem isMatch_any {pieces : List Piece} {text : List Char} :
    isMatch (.any :: pieces) text = true ↔ ∃ before rest, text = before ++ rest ∧ isMatch pieces rest = true := by
  simp only [isMatch, List.any_eq_true, List.mem_tails]
  constructor
  · rintro ⟨rest, ⟨before, rfl⟩, h⟩
    exact ⟨before, rest, rfl, h⟩
  · rintro ⟨before, rest, rfl, h⟩
    exact ⟨rest, List.suffix_append _ _, h⟩

/-- Characters stand for themselves. -/
theorem isMatch_chars {word : List Char} {pieces : List Piece} {text : List Char} :
    isMatch (word.map .char ++ pieces) text = true ↔ ∃ rest, text = word ++ rest ∧ isMatch pieces rest = true := by
  induction word generalizing text with
  | nil => simp
  | cons c word ih =>
    rw [List.map_cons, List.cons_append]
    cases text with
    | nil => simp [isMatch]
    | cons d text =>
      simp only [isMatch, List.head?_cons, List.tail_cons, Bool.and_eq_true, beq_iff_eq, Option.some.injEq, ih, List.cons_append,
        List.cons.injEq]
      constructor
      · rintro ⟨rfl, rest, rfl, h⟩
        exact ⟨rest, ⟨rfl, rfl⟩, h⟩
      · rintro ⟨rest, ⟨rfl, rfl⟩, h⟩
        exact ⟨rfl, rest, rfl, h⟩

/-- A pattern of characters has one text. -/
theorem isMatch_word {word text : List Char} : isMatch (word.map .char) text = true ↔ text = word := by
  have h : isMatch (word.map .char ++ []) text = true ↔ _ := isMatch_chars
  simp only [List.append_nil, isMatch_nil] at h
  rw [h]
  constructor
  · rintro ⟨rest, rfl, rfl⟩
    exact List.append_nil _
  · rintro rfl
    exact ⟨[], (List.append_nil _).symm, rfl⟩

/-- Characters between two wildcards stand in the text. -/
theorem isMatch_infix {word text : List Char} : isMatch (.any :: (word.map .char ++ [.any])) text = true ↔ word <:+: text := by
  rw [isMatch_any]
  constructor
  · rintro ⟨before, rest, rfl, h⟩
    obtain ⟨rest, rfl, -⟩ := isMatch_chars.mp h
    exact ⟨before, rest, List.append_assoc _ _ _⟩
  · rintro ⟨before, rest, rfl⟩
    refine ⟨before, word ++ rest, List.append_assoc _ _ _, isMatch_chars.mpr ⟨rest, rfl, ?_⟩⟩
    exact isMatch_any.mpr ⟨rest, [], (List.append_nil _).symm, isMatch_nil.mpr rfl⟩

/-! ## Escaping -/

theorem readPattern_escape {escape d : Char} {ds : List Char} :
    readPattern escape (escape :: d :: ds) = (readPattern escape ds).map (.char d :: ·) := by
  rw [readPattern.eq_def]
  simp

theorem readPattern_cons {escape c : Char} (hc : c ≠ escape) (cs : List Char) :
    readPattern escape (c :: cs) =
      (readPattern escape cs).map ((if c = '%' then .any else if c = '_' then .one else .char c) :: ·) := by
  rw [readPattern.eq_def]
  simp [hc]

/-- An escaped text, folded, is read as the characters of the folded text. -/
theorem readPattern_escaped (F : CaseFold) (cs rest : List Char) :
    readPattern '\\' ((escaped cs).map F.fold ++ rest) = (readPattern '\\' rest).map ((cs.map F.fold).map .char ++ ·) := by
  induction cs with
  | nil => simp [escaped]
  | cons c cs ih =>
    have hback : F.fold '\\' = '\\' := (F.special '\\' '\\' (by simp)).2 rfl
    have hsplit : escaped (c :: cs) = (if c ∈ ['%', '_', '\\'] then ['\\', c] else [c]) ++ escaped cs := List.flatMap_cons
    rw [hsplit]
    by_cases hc : c ∈ ['%', '_', '\\']
    · -- the escape, and then the character, whatever it is
      have hlist : (['\\', c] ++ escaped cs).map F.fold ++ rest = '\\' :: F.fold c :: ((escaped cs).map F.fold ++ rest) := by
        simp [hback]
      rw [if_pos hc, hlist, readPattern_escape, ih, Option.map_map]
      rfl
    · have hfold : ∀ d ∈ ['%', '_', '\\'], F.fold c ≠ d := fun d hd heq => hc (((F.special c d hd).1 heq) ▸ hd)
      have hlist : ([c] ++ escaped cs).map F.fold ++ rest = F.fold c :: ((escaped cs).map F.fold ++ rest) := by simp
      rw [if_neg hc, hlist, readPattern_cons (hfold '\\' (by simp)), if_neg (hfold '%' (by simp)), if_neg (hfold '_' (by simp)), ih,
        Option.map_map]
      rfl

/-- An escaped text matches the texts equal to it up to case. -/
theorem ilike_escaped (F : CaseFold) (word text : String) :
    ilike F '\\' text (String.ofList (escaped word.toList)) = some (decide (text.toList.map F.fold = word.toList.map F.fold)) := by
  have hread := readPattern_escaped F word.toList []
  simp only [List.append_nil, readPattern, Option.map_some] at hread
  rw [ilike, String.toList_ofList, hread, Option.map_some, Option.some.injEq, Bool.eq_iff_iff, decide_eq_true_iff]
  exact isMatch_word

/-- An escaped text between two wildcards matches the texts that contain it up to case. -/
theorem ilike_infix (F : CaseFold) (word text : String) :
    ilike F '\\' text (String.ofList ('%' :: (escaped word.toList ++ ['%']))) =
      some (decide (word.toList.map F.fold <:+: text.toList.map F.fold)) := by
  have hpercent : F.fold '%' = '%' := (F.special '%' '%' (by simp)).2 rfl
  have hlast : readPattern '\\' ['%'] = some [.any] := rfl
  rw [ilike, String.toList_ofList, List.map_cons, List.map_append, List.map_cons, List.map_nil, hpercent,
    readPattern_cons (by decide), readPattern_escaped, hlast, if_pos rfl, Option.map_some, Option.map_some, Option.map_some, Option.some.injEq,
    Bool.eq_iff_iff, decide_eq_true_iff]
  exact isMatch_infix

/-! ## A fold -/

/-- Folding of the ASCII letters. -/
def asciiFold : CaseFold where
  fold := Char.toLower
  special c d hd := by
    by_cases hupper : 65 ≤ c.toNat ∧ c.toNat ≤ 90
    · have hlower : c.toLower.toNat = c.toNat + 32 := by
        have hval : c.val ≥ 65 ∧ c.val ≤ 90 := ⟨UInt32.le_iff_toNat_le.mpr hupper.1, UInt32.le_iff_toNat_le.mpr hupper.2⟩
        have hc : c.toLower.val = c.val + 32 := by
          simp [Char.toLower, hval]
        have hmod : (c.val + 32).toNat = c.toNat + 32 := by
          rw [UInt32.toNat_add]
          exact Nat.mod_eq_of_lt (by change c.toNat + 32 < 2 ^ 32; omega)
        exact (congrArg UInt32.toNat hc).trans hmod
      have hd' : d.toNat = 37 ∨ d.toNat = 95 ∨ d.toNat = 92 := by
        simp only [List.mem_cons, List.not_mem_nil, or_false] at hd
        rcases hd with rfl | rfl | rfl <;> decide
      refine iff_of_false (fun h => ?_) (fun h => ?_)
      · have := congrArg Char.toNat h
        omega
      · have := congrArg Char.toNat h
        omega
    · have hsame : c.toLower = c := by
        unfold Char.toLower
        split
        · next h => exact absurd ⟨UInt32.le_iff_toNat_le.mp h.1, UInt32.le_iff_toNat_le.mp h.2⟩ hupper
        · rfl
      rw [hsame]

end Like
