import Mathlib

/-!
# Wildcard patterns

Patterns over any alphabet in which one letter stands for any text and the others for themselves. The texts of a pattern, as a
language; the pieces between the wildcards, which stand in such a text one after the other; and the search that takes each piece
where it is found first, which finds them all whenever they stand there.
-/

namespace Wildcard

variable {α : Type*}

theorem mem_top (text : List α) : text ∈ (⊤ : Language α) := Set.mem_univ text

theorem mem_singleton {text word : List α} : text ∈ ({word} : Language α) ↔ text = word := Set.mem_singleton_iff

/-! ## Pieces in a text -/

/-- The pieces stand in the text in this order, without overlapping; the last one stands at the end of the text if that is
asked. -/
def Stand (toEnd : Bool) : List (List α) → List α → Prop
  | [], _ => True
  | [piece], text => if toEnd then piece <:+ text else piece <:+: text
  | piece :: pieces, text => ∃ gap rest, text = gap ++ (piece ++ rest) ∧ Stand toEnd pieces rest

section

variable {toEnd : Bool} {piece : List α} {pieces : List (List α)} {text text' : List α}

theorem stand_cons (hne : pieces ≠ []) :
    Stand toEnd (piece :: pieces) text ↔ ∃ gap rest, text = gap ++ (piece ++ rest) ∧ Stand toEnd pieces rest := by
  cases pieces with
  | nil => exact absurd rfl hne
  | cons next pieces => rfl

/-- What stands in the end of a text stands in the text. -/
theorem Stand.of_suffix (h : Stand toEnd pieces text) (hsuffix : text <:+ text') : Stand toEnd pieces text' := by
  cases pieces with
  | nil => trivial
  | cons piece pieces =>
    cases pieces with
    | nil =>
      cases toEnd with
      | false => exact List.IsInfix.trans (show piece <:+: text from h) hsuffix.isInfix
      | true => exact List.IsSuffix.trans (show piece <:+ text from h) hsuffix
    | cons next pieces =>
      obtain ⟨gap, rest, rfl, hrest⟩ := h
      obtain ⟨before, rfl⟩ := hsuffix
      exact ⟨before ++ gap, rest, (List.append_assoc _ _ _).symm, hrest⟩

/-- An empty piece stands anywhere. -/
theorem stand_nil_cons (hne : pieces ≠ []) : Stand toEnd ([] :: pieces) text ↔ Stand toEnd pieces text := by
  rw [stand_cons hne]
  constructor
  · rintro ⟨gap, rest, rfl, hrest⟩
    exact hrest.of_suffix (List.suffix_append _ _)
  · intro h
    exact ⟨[], text, rfl, h⟩

end

/-! ## The language of a pattern -/

variable [DecidableEq α]

/-- The texts that a letter of a pattern stands for. -/
def letter (star c : α) : Language α := if c = star then ⊤ else {[c]}

/-- The texts of a pattern: each wildcard stands for any text, every other letter for itself. -/
def language (star : α) (pattern : List α) : Language α := (pattern.map (letter star)).prod

section

variable {star : α} {pattern text : List α}

theorem mem_language_nil : text ∈ language star [] ↔ text = [] := Language.mem_one text

theorem mem_language_star :
    text ∈ language star (star :: pattern) ↔ ∃ gap rest, text = gap ++ rest ∧ rest ∈ language star pattern := by
  rw [language, List.map_cons, List.prod_cons, letter, if_pos rfl, Language.mem_mul]
  constructor
  · rintro ⟨gap, -, rest, hrest, rfl⟩
    exact ⟨gap, rest, rfl, hrest⟩
  · rintro ⟨gap, rest, rfl, hrest⟩
    exact ⟨gap, mem_top gap, rest, hrest, rfl⟩

theorem mem_language_letter {c : α} (hc : c ≠ star) :
    text ∈ language star (c :: pattern) ↔ ∃ rest, text = c :: rest ∧ rest ∈ language star pattern := by
  rw [language, List.map_cons, List.prod_cons, letter, if_neg hc, Language.mem_mul]
  constructor
  · rintro ⟨word, hword, rest, hrest, rfl⟩
    rw [mem_singleton.mp hword]
    exact ⟨rest, rfl, hrest⟩
  · rintro ⟨rest, rfl, hrest⟩
    exact ⟨[c], mem_singleton.mpr rfl, rest, hrest, rfl⟩

/-- Letters that are no wildcard stand at the beginning of the text (induction on them). -/
theorem mem_language_append {word : List α} (hword : star ∉ word) :
    text ∈ language star (word ++ pattern) ↔ ∃ rest, text = word ++ rest ∧ rest ∈ language star pattern := by
  induction word generalizing text with
  | nil => simp
  | cons c word ih =>
    have hc : star ≠ c := fun heq => hword (heq ▸ List.mem_cons_self)
    have hrest : star ∉ word := fun hmem => hword (List.mem_cons_of_mem c hmem)
    rw [List.cons_append, mem_language_letter hc.symm]
    constructor
    · rintro ⟨rest, rfl, hmem⟩
      obtain ⟨rest', rfl, hmem'⟩ := (ih hrest).mp hmem
      exact ⟨rest', rfl, hmem'⟩
    · rintro ⟨rest, rfl, hmem⟩
      exact ⟨word ++ rest, rfl, (ih hrest).mpr ⟨rest, rfl, hmem⟩⟩

/-- A pattern without a wildcard is the only text of it. -/
theorem mem_language_of_not_mem (h : star ∉ pattern) : text ∈ language star pattern ↔ text = pattern := by
  have hall : text ∈ language star (pattern ++ []) ↔ _ := mem_language_append h
  simpa [mem_language_nil] using hall

/-- After a wildcard the pieces between the wildcards stand in the text, the last one at its end (induction on the length of the
pattern). -/
theorem mem_language_iff_stand (star : α) (pattern text : List α) :
    text ∈ language star (star :: pattern) ↔ Stand true (pattern.splitOn star) text := by
  induction hlen : pattern.length using Nat.strong_induction_on generalizing pattern text with
  | _ n ih =>
    rw [mem_language_star]
    by_cases hstar : star ∈ pattern
    · obtain ⟨word, pattern', rfl, hword⟩ := List.eq_append_cons_of_mem hstar
      have hshorter : pattern'.length < n := by simp [← hlen]; omega
      rw [List.splitOn_append_cons_self_of_not_mem hword, stand_cons (List.splitOn_ne_nil _ _)]
      constructor
      · rintro ⟨gap, rest, rfl, hrest⟩
        obtain ⟨rest', rfl, hrest'⟩ := (mem_language_append hword).mp hrest
        exact ⟨gap, rest', rfl, (ih _ hshorter pattern' rest' rfl).mp hrest'⟩
      · rintro ⟨gap, rest, rfl, hrest⟩
        exact ⟨gap, word ++ rest, rfl, (mem_language_append hword).mpr ⟨rest, rfl, (ih _ hshorter pattern' rest rfl).mpr hrest⟩⟩
    · rw [List.splitOn_eq_singleton hstar]
      constructor
      · rintro ⟨gap, rest, rfl, hrest⟩
        rw [(mem_language_of_not_mem hstar).mp hrest]
        exact List.suffix_append gap pattern
      · rintro ⟨gap, rfl⟩
        exact ⟨gap, pattern, rfl, (mem_language_of_not_mem hstar).mpr rfl⟩

end

/-! ## The search -/

/-- Where a word is found first in a text. -/
def find (word : List α) : List α → Option Nat
  | [] => if word <+: [] then some 0 else none
  | c :: text => if word <+: c :: text then some 0 else (find word text).map (· + 1)

/-- What remains of a text when each piece is taken where it is found first. -/
def takeEach : List (List α) → List α → Option (List α)
  | [], text => some text
  | piece :: pieces, text => (find piece text).bind fun pos => takeEach pieces (text.drop (pos + piece.length))

section

variable {word text rest : List α} {pieces : List (List α)}

theorem find_some {pos : Nat} (h : find word text = some pos) :
    ∃ gap, text = gap ++ (word ++ text.drop (pos + word.length)) := by
  induction text generalizing pos with
  | nil =>
    unfold find at h
    split at h
    case isTrue hprefix => exact ⟨[], by simp [List.prefix_nil.mp hprefix]⟩
    case isFalse => nomatch h
  | cons c text ih =>
    unfold find at h
    split at h
    case isTrue hprefix =>
      obtain rfl := Option.some.inj h
      obtain ⟨rest, hrest⟩ := hprefix
      exact ⟨[], by rw [← hrest, Nat.zero_add, List.drop_left, List.nil_append]⟩
    case isFalse =>
      obtain ⟨pos', hpos', rfl⟩ := Option.map_eq_some_iff.mp h
      obtain ⟨gap, hgap⟩ := ih hpos'
      refine ⟨c :: gap, ?_⟩
      rw [show pos' + 1 + word.length = (pos' + word.length) + 1 by omega, List.drop_succ_cons, List.cons_append, ← hgap]

/-- A word that stands in a text is found, and no later than there. -/
theorem find_of_append (gap : List α) (h : text = gap ++ (word ++ rest)) :
    ∃ pos, find word text = some pos ∧ rest <:+ text.drop (pos + word.length) := by
  induction gap generalizing text with
  | nil =>
    rw [List.nil_append] at h
    refine ⟨0, ?_, ?_⟩
    · cases text <;> exact if_pos ⟨rest, h.symm⟩
    · rw [h, Nat.zero_add, List.drop_left]
  | cons c gap ih =>
    subst h
    rw [List.cons_append, find]
    split
    case isTrue hprefix =>
      refine ⟨0, rfl, ?_⟩
      obtain ⟨tail, htail⟩ := hprefix
      rw [Nat.zero_add, ← htail, List.drop_left]
      have hwhole : rest <:+ word ++ tail := htail ▸ ⟨c :: (gap ++ word), by simp⟩
      refine List.suffix_of_suffix_length_le hwhole (List.suffix_append word tail) ?_
      have hlength := congrArg List.length htail
      simp only [List.length_append, List.length_cons] at hlength
      omega
    case isFalse =>
      obtain ⟨pos, hpos, hrest⟩ := ih rfl
      refine ⟨pos + 1, by rw [hpos]; rfl, ?_⟩
      rwa [show pos + 1 + word.length = (pos + word.length) + 1 by omega, List.drop_succ_cons]

/-- Pieces that are taken leave an end of the text behind the last of them. -/
theorem length_of_takeEach (h : takeEach pieces text = some rest) : ∀ piece ∈ pieces, piece.length ≤ text.length := by
  induction pieces generalizing text with
  | nil => exact fun piece hpiece => absurd hpiece List.not_mem_nil
  | cons piece pieces ih =>
    obtain ⟨pos, hpos, hrest⟩ := Option.bind_eq_some_iff.mp h
    obtain ⟨gap, hgap⟩ := find_some hpos
    have hlength := congrArg List.length hgap
    simp only [List.length_append] at hlength
    intro piece' hpiece'
    rcases List.mem_cons.mp hpiece' with rfl | hpiece'
    · omega
    · have hshorter := ih hrest piece' hpiece'
      omega

/-- The last piece that is taken ends the text exactly when it ends what the pieces were taken from. -/
theorem getLast_suffix_iff {whole : List α} (hne : pieces ≠ []) (h : takeEach pieces text = some rest) (hsuffix : text <:+ whole) :
    pieces.getLast hne <:+ whole ↔ pieces.getLast hne <:+ text := by
  constructor
  · intro hlast
    exact List.suffix_of_suffix_length_le hlast hsuffix (length_of_takeEach h _ (List.getLast_mem hne))
  · intro hlast
    exact hlast.trans hsuffix

/-- The search takes all pieces exactly when they stand in the text; that the last one stands at its end is seen on the whole text
(induction on the pieces). -/
theorem takeEach_iff (toEnd : Bool) (hne : pieces ≠ []) :
    ((takeEach pieces text).isSome ∧ (toEnd = true → pieces.getLast hne <:+ text)) ↔ Stand toEnd pieces text := by
  induction pieces generalizing text with
  | nil => exact absurd rfl hne
  | cons piece pieces ih =>
    cases pieces with
    | nil =>
      have htaken : (takeEach [piece] text).isSome ↔ piece <:+: text := by
        constructor
        · intro h
          obtain ⟨rest, hrest⟩ := Option.isSome_iff_exists.mp h
          obtain ⟨pos, hpos, -⟩ := Option.bind_eq_some_iff.mp hrest
          obtain ⟨gap, hgap⟩ := find_some hpos
          exact ⟨gap, text.drop (pos + piece.length), by rw [List.append_assoc, ← hgap]⟩
        · rintro ⟨gap, rest, hinfix⟩
          obtain ⟨pos, hpos, -⟩ := find_of_append gap ((List.append_assoc _ _ _).symm.trans hinfix).symm
          simp [takeEach, hpos]
      rw [htaken]
      cases toEnd with
      | false => simp [Stand]
      | true => exact ⟨fun h => h.2 rfl, fun h => ⟨List.IsSuffix.isInfix h, fun _ => h⟩⟩
    | cons next pieces =>
      have hne' : next :: pieces ≠ [] := List.cons_ne_nil _ _
      rw [stand_cons hne', List.getLast_cons hne']
      constructor
      · rintro ⟨htaken, hlast⟩
        obtain ⟨rest, hrest⟩ := Option.isSome_iff_exists.mp htaken
        obtain ⟨pos, hpos, hrest⟩ := Option.bind_eq_some_iff.mp hrest
        obtain ⟨gap, hgap⟩ := find_some hpos
        refine ⟨gap, _, hgap, (ih hne').mp ⟨Option.isSome_iff_exists.mpr ⟨rest, hrest⟩, fun hend => ?_⟩⟩
        exact (getLast_suffix_iff hne' hrest (List.drop_suffix _ _)).mp (hlast hend)
      · rintro ⟨gap, rest, rfl, hstand⟩
        obtain ⟨pos, hpos, hsuffix⟩ := find_of_append gap rfl
        obtain ⟨htaken, hlast⟩ := (ih hne').mpr (hstand.of_suffix hsuffix)
        refine ⟨?_, fun hend => (hlast hend).trans (List.drop_suffix _ _)⟩
        rw [takeEach, hpos, Option.bind_some]
        exact htaken

end

/-! ## Empty pieces -/

omit [DecidableEq α] in
/-- Empty pieces may be left out: when the last piece is empty, nothing is asked of the end. -/
theorem stand_filter {pieces : List (List α)} (hne : pieces ≠ []) {text : List α} :
    Stand true pieces text ↔ Stand (pieces.getLast hne ≠ []) (pieces.filter (· ≠ [])) text := by
  induction pieces generalizing text with
  | nil => exact absurd rfl hne
  | cons piece pieces ih =>
    cases pieces with
    | nil => by_cases hpiece : piece = [] <;> simp [hpiece, Stand]
    | cons next pieces =>
      have hne' : next :: pieces ≠ [] := List.cons_ne_nil _ _
      rw [List.getLast_cons hne']
      by_cases hpiece : piece = []
      · rw [hpiece, stand_nil_cons hne', List.filter_cons_of_neg (by simp), ih hne']
      · rw [List.filter_cons_of_pos (by simpa using hpiece), stand_cons hne']
        cases hrest : (next :: pieces).filter (· ≠ []) with
        | nil =>
          have hlast : (next :: pieces).getLast hne' = [] := by
            have hall := List.filter_eq_nil_iff.mp hrest _ (List.getLast_mem hne')
            simpa using hall
          simp only [ih hne', hrest, hlast]
          constructor
          · rintro ⟨gap, rest, rfl, -⟩
            exact ⟨gap, rest, List.append_assoc _ _ _⟩
          · rintro ⟨gap, rest, hinfix⟩
            exact ⟨gap, rest, by rw [← hinfix, List.append_assoc], trivial⟩
        | cons first others =>
          rw [stand_cons (List.cons_ne_nil _ _)]
          simp only [ih hne', hrest]

/-- The last piece is empty exactly when a wildcard is last (induction on the length of the pattern). -/
theorem getLast_splitOn (star : α) (pattern : List α) :
    (pattern.splitOn star).getLast (List.splitOn_ne_nil _ _) = [] ↔ (star :: pattern).getLast? = some star := by
  induction hlen : pattern.length using Nat.strong_induction_on generalizing pattern with
  | _ n ih =>
    by_cases hstar : star ∈ pattern
    · obtain ⟨word, pattern', rfl, hword⟩ := List.eq_append_cons_of_mem hstar
      have hshorter : pattern'.length < n := by simp [← hlen]; omega
      have hpieces : (word ++ star :: pattern').splitOn star = word :: pattern'.splitOn star :=
        List.splitOn_append_cons_self_of_not_mem hword _
      simp only [hpieces, List.getLast_cons (List.splitOn_ne_nil star pattern')]
      rw [ih _ hshorter pattern' rfl, ← List.cons_append, List.getLast?_append_of_ne_nil _ (List.cons_ne_nil _ _)]
    · simp only [List.splitOn_eq_singleton hstar, List.getLast_singleton]
      rcases List.eq_nil_or_concat pattern with rfl | ⟨init, c, rfl⟩
      · simp
      · rw [List.concat_eq_append, ← List.cons_append, List.getLast?_concat]
        have hc : c ≠ star := fun heq => hstar (by simp [heq])
        simp [hc]

end Wildcard
