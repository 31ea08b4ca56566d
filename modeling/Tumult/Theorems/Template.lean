import Tumult.Core.Template

/-!
# The shortcut of a queued run

A queued run without any value skips the substitution, and the substitution without any value is the identity exactly on a text that
holds no `${`: there an escape loses a dollar, and a placeholder is an error. What the substitution does with a text given in pieces
is `substitute_pieces`.
-/

namespace Tumult

/-- The text holds no placeholder and no escaped placeholder. -/
def Plain (text : List Char) : Prop := ¬ ['$', '\x7b'] <:+: text

instance (text : List Char) : Decidable (Plain text) := inferInstanceAs (Decidable (¬ _))

theorem plain_cons {c : Char} {cs : List Char} : Plain (c :: cs) ↔ (∀ rest, c = '$' → cs ≠ '\x7b' :: rest) ∧ Plain cs := by
  unfold Plain
  rw [List.infix_cons_iff]
  constructor
  · intro h
    refine ⟨fun rest hc hcs => h (Or.inl ?_), fun hi => h (Or.inr hi)⟩
    rw [hc, hcs]
    exact ⟨rest, rfl⟩
  · rintro ⟨hhead, htail⟩ (⟨rest, hrest⟩ | hi)
    · obtain ⟨hc, hcs⟩ := List.cons.inj hrest
      exact hhead rest hc.symm hcs.symm
    · exact htail hi

section Pass

variable {escapeString : String → String} {lookup : String → Option String}

/-- The pass copies a plain text. -/
theorem substitute_plain (result : List Char) (missing : List String) (cs : List Char) (h : Plain cs) :
    substitute escapeString lookup .text result missing cs = (result ++ cs, missing) := by
  generalize hm : TemplateMode.text = mode
  fun_induction substitute escapeString lookup mode result missing cs with
  | case1 result missing rest => exact absurd rfl ((plain_cons.mp (plain_cons.mp h).2).1 rest rfl)
  | case2 result missing rest hrest ih =>
    rw [ih (plain_cons.mp (plain_cons.mp h).2).2 hm]
    simp
  | case3 result missing rest => exact absurd rfl ((plain_cons.mp h).1 rest rfl)
  | case4 result missing c rest _ _ _ ih =>
    rw [ih (plain_cons.mp h).2 hm]
    simp
  | case9 mode result missing => simp
  | case5 | case6 | case7 | case8 => nomatch hm

/-- Without any value the pass does not grow the text, and it shrinks a text that is not plain. -/
theorem substitute_length (hnone : ∀ name, lookup name = none) (mode : TemplateMode) (result : List Char) (missing : List String)
    (cs : List Char) :
    (substitute escapeString lookup mode result missing cs).1.length ≤ result.length + cs.length ∧
      (mode = .text → ¬ Plain cs → (substitute escapeString lookup mode result missing cs).1.length < result.length + cs.length) := by
  have hresolve : ∀ name result missing, (resolvePlaceholder escapeString lookup name result missing).1 = result := by
    intro name result missing
    unfold resolvePlaceholder
    rw [hnone]
  fun_induction substitute escapeString lookup mode result missing cs with
  | case1 result missing rest ih =>
    have := ih.1
    simp only [List.length_append, List.length_cons, List.length_nil] at this ⊢
    omega
  | case2 result missing rest hrest ih =>
    obtain ⟨hle, hlt⟩ := ih
    have hplain : Plain ('$' :: '$' :: rest) ↔ Plain rest := by
      rw [plain_cons, plain_cons]
      refine ⟨fun h => h.2.2, fun h => ⟨fun r _ hr => ?_, fun r _ hr => hrest r hr, h⟩⟩
      nomatch hr
    rw [hplain]
    refine ⟨?_, fun _ hnot => ?_⟩
    · simp only [List.length_append, List.length_cons, List.length_nil] at hle ⊢
      omega
    · have := hlt rfl hnot
      simp only [List.length_append, List.length_cons, List.length_nil] at this ⊢
      omega
  | case3 result missing rest ih =>
    have := ih.1
    simp only [List.length_cons]
    omega
  | case4 result missing c rest _ _ hbrace ih =>
    obtain ⟨hle, hlt⟩ := ih
    have hplain : Plain (c :: rest) ↔ Plain rest := by
      rw [plain_cons]
      exact ⟨fun h => h.2, fun h => ⟨fun r hc hr => hbrace r hc hr, h⟩⟩
    rw [hplain]
    refine ⟨?_, fun _ hnot => ?_⟩
    · simp only [List.length_append, List.length_cons, List.length_nil] at hle ⊢
      omega
    · have := hlt rfl hnot
      simp only [List.length_append, List.length_cons, List.length_nil] at this ⊢
      omega
  | case5 result missing c rest ih =>
    have := ih.1
    simp only [List.length_append, List.length_cons, List.length_nil] at this ⊢
    exact ⟨by omega, fun hmode => nomatch hmode⟩
  | case6 name result missing rest result' missing' hr ih =>
    obtain rfl : result' = result := by
      have hsame := hresolve name result missing
      rwa [hr] at hsame
    have := ih.1
    simp only [List.length_cons]
    exact ⟨by omega, fun hmode => nomatch hmode⟩
  | case7 name result missing c rest hc ih =>
    have := ih.1
    simp only [List.length_cons]
    exact ⟨by omega, fun hmode => nomatch hmode⟩
  | case8 name result missing =>
    rw [hresolve]
    exact ⟨Nat.le_refl _, fun hmode => nomatch hmode⟩
  | case9 mode result missing h => exact ⟨Nat.le_refl _, fun _ hnot => absurd (by simp [Plain]) hnot⟩

end Pass

theorem lookupVar_empty (name : String) : lookupVar name [] [] [] = none := by
  unfold lookupVar
  cases stripPrefix "config." name <;> cases stripPrefix "secrets." name <;> rfl

/-- Without any value the substitution is the identity exactly on a plain text. -/
theorem substituteVars_empty {escapeString : String → String} {text : String} :
    substituteVars escapeString text [] [] [] = .ok text ↔ Plain text.toList := by
  constructor
  · intro h
    by_contra hnot
    have hlt := (@substitute_length escapeString _ lookupVar_empty .text [] [] text.toList).2 rfl hnot
    unfold substituteVars at h
    dsimp only at h
    split at h
    · have htext := congrArg String.toList (Except.ok.inj h)
      rw [String.toList_ofList] at htext
      rw [htext] at hlt
      simp at hlt
    · nomatch h
  · intro h
    unfold substituteVars
    rw [substitute_plain [] [] _ h]
    simp

/-! ## A text in pieces -/

/-- A piece of a text: a character, an escaped placeholder, a placeholder. -/
inductive Piece where
  | char (c : Char)
  | escape (name : List Char)
  | placeholder (name : List Char)

/-- How the piece is written. -/
def Piece.source : Piece → List Char
  | .char c => [c]
  | .escape name => '$' :: '$' :: '\x7b' :: (name ++ ['\x7d'])
  | .placeholder name => '$' :: '\x7b' :: (name ++ ['\x7d'])

/-- A dollar only begins an escape or a placeholder, and a brace ends it. -/
def Piece.WellFormed : Piece → Prop
  | .char c => c ≠ '$'
  | .escape name | .placeholder name => '\x7d' ∉ name

section Pieces

variable (escapeString : String → String) (lookup : String → Option String)

/-- What the piece becomes: an escape loses its first dollar, a placeholder becomes its value. -/
def Piece.render : Piece → List Char
  | .char c => [c]
  | .escape name => '$' :: '\x7b' :: (name ++ ['\x7d'])
  | .placeholder name => (lookup (String.ofList name)).elim [] fun value => (escapeString value).toList

/-- The names without a value, each once, in the order they come. -/
def undefinedNames (ps : List Piece) (missing : List String) : List String :=
  ps.foldl (fun missing p => match p with
    | .placeholder name =>
      if lookup (String.ofList name) = none ∧ String.ofList name ∉ missing then missing ++ [String.ofList name] else missing
    | _ => missing) missing

variable {escapeString lookup} {result : List Char} {missing : List String} {rest : List Char}

/-- An escape is copied up to its brace. -/
theorem substitute_escape (name : List Char) (h : '\x7d' ∉ name) :
    substitute escapeString lookup .escape result missing (name ++ '\x7d' :: rest) =
      substitute escapeString lookup .text (result ++ (name ++ ['\x7d'])) missing rest := by
  induction name generalizing result with
  | nil => rfl
  | cons c name ih =>
    rw [List.mem_cons, not_or] at h
    rw [List.cons_append, substitute, if_neg (Ne.symm h.1), ih h.2]
    simp

/-- A placeholder is read up to its brace. -/
theorem substitute_placeholder (read name : List Char) (h : '\x7d' ∉ name) :
    substitute escapeString lookup (.placeholder read) result missing (name ++ '\x7d' :: rest) =
      substitute escapeString lookup .text (resolvePlaceholder escapeString lookup (read ++ name) result missing).1
        (resolvePlaceholder escapeString lookup (read ++ name) result missing).2 rest := by
  induction name generalizing read with
  | nil =>
    rw [List.append_nil]
    rfl
  | cons c name ih =>
    rw [List.mem_cons, not_or] at h
    rw [List.cons_append, substitute, if_neg (Ne.symm h.1), ih _ h.2]
    simp

/-- The pass over a text in pieces renders each, and collects the names without a value. -/
theorem substitute_pieces (ps : List Piece) (h : ∀ p ∈ ps, p.WellFormed) :
    substitute escapeString lookup .text result missing (ps.flatMap Piece.source) =
      (result ++ ps.flatMap (Piece.render escapeString lookup), undefinedNames lookup ps missing) := by
  induction ps generalizing result missing with
  | nil => simp [substitute, undefinedNames]
  | cons p ps ih =>
    have hp := h p List.mem_cons_self
    have hps := fun q hq => h q (List.mem_cons_of_mem _ hq)
    rw [List.flatMap_cons, List.flatMap_cons]
    cases p with
    | char c =>
      have hc : c ≠ '$' := hp
      have hstep : substitute escapeString lookup .text result missing (c :: ps.flatMap Piece.source) =
          substitute escapeString lookup .text (result ++ [c]) missing (ps.flatMap Piece.source) := by
        rw [substitute] <;> exact fun _ hd => absurd hd hc
      rw [Piece.source, Piece.render, List.singleton_append, hstep, ih hps]
      simp [undefinedNames]
    | escape name =>
      rw [Piece.source, Piece.render, List.cons_append, List.cons_append, List.cons_append, List.append_assoc, List.singleton_append,
        substitute, substitute_escape name hp, ih hps]
      simp [undefinedNames]
    | placeholder name =>
      rw [Piece.source, Piece.render, List.cons_append, List.cons_append, List.append_assoc, List.singleton_append,
        substitute, substitute_placeholder [] name hp, List.nil_append, ih hps]
      unfold resolvePlaceholder
      cases hl : lookup (String.ofList name) with
      | some value => simp [undefinedNames, hl]
      | none =>
        by_cases hm : String.ofList name ∈ missing
        · simp [undefinedNames, hl, hm]
        · simp [undefinedNames, hl, hm]

end Pieces

/-! ## The two paths -/

end Tumult
