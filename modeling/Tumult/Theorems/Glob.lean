import Tumult.Compliance.Org

/-!
# What a pattern matches

With a star in the pattern the match is the language of the pattern: the segments are found in order, the first one at the start
and the last one at the end of the name. Without a star the pattern is one segment, and the test at the start does not know the
test at the end.
-/

namespace Tumult.Compliance

open Wildcard (Stand takeEach language)

theorem matchSegments_false (segs : List (List Char)) (rest : List Char) : matchSegments false segs rest = takeEach segs rest := by
  induction segs generalizing rest with
  | nil => rfl
  | cons seg segs ih =>
    rw [matchSegments, takeEach]
    exact congrArg _ (funext fun pos => ih _)

theorem stripPrefix_some {seg rest rest' : List Char} : stripPrefix seg rest = some rest' ↔ rest = seg ++ rest' := by
  unfold stripPrefix
  constructor
  · intro h
    split at h
    case isTrue hbegins =>
      obtain ⟨tail, rfl⟩ := hbegins
      rw [← Option.some.inj h, List.drop_left]
    case isFalse => nomatch h
  · rintro rfl
    rw [if_pos (List.prefix_append _ _), List.drop_left]

/-- Without a star the name has to begin and to end with the pattern. -/
theorem globMatch_of_literal {pattern name : String} (h : '*' ∉ pattern.toList) :
    globMatch pattern name = true ↔ pattern.toList <+: name.toList ∧ pattern.toList <:+ name.toList := by
  unfold globMatch
  rw [List.splitOn_eq_singleton h]
  by_cases hempty : pattern.toList = []
  · simp [hempty]
  · have hstart : pattern.toList.head? ≠ some '*' := fun hhead => h (List.mem_of_head? hhead)
    have hend : pattern.toList.getLast? ≠ some '*' := fun hlast => h (List.mem_of_getLast? hlast)
    by_cases hbegins : pattern.toList <+: name.toList <;> simp [hempty, hstart, hend, matchSegments, stripPrefix, hbegins]

theorem unended {pattern : List Char} (h : (pattern.splitOn '*').filter (· ≠ []) = []) : ('*' :: pattern).getLast? = some '*' := by
  refine (Wildcard.getLast_splitOn '*' pattern).mp ?_
  simpa using List.filter_eq_nil_iff.mp h _ (List.getLast_mem (List.splitOn_ne_nil '*' pattern))

/-- The segments behind the first star, with what is asked of the end. -/
theorem takeEach_segments (word pattern text : List Char) (hword : '*' ∉ word) :
    (∃ rest, text = word ++ rest ∧ (takeEach ((pattern.splitOn '*').filter (· ≠ [])) rest).isSome ∧
      (('*' :: pattern).getLast? ≠ some '*' → ((pattern.splitOn '*').filter (· ≠ [])).getLastD [] <:+ rest)) ↔
        text ∈ language '*' (word ++ '*' :: pattern) := by
  rw [Wildcard.mem_language_append hword]
  refine exists_congr fun rest => and_congr_right fun _ => ?_
  have hne := List.splitOn_ne_nil '*' pattern
  rw [Wildcard.mem_language_iff_stand, Wildcard.stand_filter hne]
  have hlast := (Wildcard.getLast_splitOn '*' pattern).not
  cases hsegs : (pattern.splitOn '*').filter (· ≠ []) with
  | nil => simp [takeEach, unended hsegs, Stand]
  | cons seg segs =>
    have hsegs' := List.cons_ne_nil seg segs
    rw [← Wildcard.takeEach_iff _ hsegs', List.getLastD_eq_getLast?, List.getLast?_eq_some_getLast hsegs', Option.getD_some]
    simp only [decide_eq_true_eq, ne_eq, hlast]

/-- With a star the match is the language of the pattern. -/
theorem globMatch_of_star {pattern name : String} (h : '*' ∈ pattern.toList) :
    globMatch pattern name = true ↔ name.toList ∈ language '*' pattern.toList := by
  obtain ⟨word, rest, hpattern, hword⟩ := List.eq_append_cons_of_mem h
  have hend : pattern.toList.getLast? = ('*' :: rest).getLast? := by
    rw [hpattern, List.getLast?_append_of_ne_nil _ (List.cons_ne_nil _ _)]
  have hsplit : pattern.toList.splitOn '*' = word :: rest.splitOn '*' := by
    rw [hpattern, List.splitOn_append_cons_self_of_not_mem hword]
  rw [hpattern, ← takeEach_segments word rest name.toList hword]
  unfold globMatch
  rw [hsplit, hend]
  cases word with
  | nil =>
    have hstart : pattern.toList.head? = some '*' := by rw [hpattern]; rfl
    rw [List.filter_cons_of_neg (by simp)]
    cases hsegs : (rest.splitOn '*').filter (· ≠ []) with
    | nil => simp [takeEach, unended hsegs]
    | cons seg segs =>
      simp only [hstart, ne_eq, not_true_eq_false, decide_false, matchSegments_false, List.nil_append]
      cases htaken : takeEach (seg :: segs) name.toList <;>
        by_cases hstar : ('*' :: rest).getLast? = some '*' <;> simp [htaken, hstar]
  | cons c word =>
    have hstart : pattern.toList.head? ≠ some '*' := by
      rw [hpattern]
      exact fun hhead => hword (Option.some.inj hhead ▸ List.mem_cons_self)
    rw [List.filter_cons_of_pos (by simp)]
    simp only [hstart, ne_eq, not_false_eq_true, decide_true, matchSegments]
    cases hstrip : stripPrefix (c :: word) name.toList with
    | none =>
      have hnone : ∀ tail, name.toList ≠ c :: word ++ tail := fun tail htail => by
        rw [stripPrefix_some.mpr htail] at hstrip
        cases hstrip
      simp only [Option.bind_none, List.isEmpty_cons, Bool.false_eq_true, if_false, false_iff]
      rintro ⟨tail, htail, -⟩
      exact hnone tail htail
    | some tail =>
      have hname := stripPrefix_some.mp hstrip
      have honly : (∃ rest', name.toList = c :: word ++ rest' ∧ (takeEach ((rest.splitOn '*').filter (· ≠ [])) rest').isSome ∧
          (('*' :: rest).getLast? ≠ some '*' → ((rest.splitOn '*').filter (· ≠ [])).getLastD [] <:+ rest')) ↔
            (takeEach ((rest.splitOn '*').filter (· ≠ [])) tail).isSome ∧
              (('*' :: rest).getLast? ≠ some '*' → ((rest.splitOn '*').filter (· ≠ [])).getLastD [] <:+ tail) := by
        constructor
        · rintro ⟨tail', htail', h⟩
          rwa [List.append_cancel_left (hname.symm.trans htail')]
        · exact fun h => ⟨tail, hname, h⟩
      rw [honly, Option.bind_some, matchSegments_false]
      cases hsegs : (rest.splitOn '*').filter (· ≠ []) with
      | nil => simp [takeEach, unended hsegs]
      | cons seg segs =>
        cases htaken : takeEach (seg :: segs) tail with
        | none => simp
        | some left =>
          have hlast : ∀ pieces, pieces = seg :: segs ∨ pieces = (c :: word) :: seg :: segs →
              pieces.getLastD [] = (seg :: segs).getLast (List.cons_ne_nil _ _) := by
            rintro pieces (rfl | rfl) <;> simp [List.getLastD_eq_getLast?, List.getLast?_eq_some_getLast]
          have htail : tail <:+ name.toList := hname ▸ List.suffix_append _ _
          have hsuffix := Wildcard.getLast_suffix_iff (List.cons_ne_nil seg segs) htaken htail
          simp only [List.isEmpty_cons, Bool.false_eq_true, if_false, hlast _ (.inl rfl), hlast _ (.inr rfl), ← hsuffix,
            Option.isSome_some, true_and, ne_eq]
          by_cases hstar : ('*' :: rest).getLast? = some '*' <;> simp [hstar]

/-- The match is the language of the pattern exactly when the pattern has a star, or the name is not a longer one that both begins
and ends with the pattern. -/
theorem globMatch_iff_language (pattern name : String) :
    (globMatch pattern name = true ↔ name.toList ∈ language '*' pattern.toList) ↔
      '*' ∈ pattern.toList ∨ (pattern.toList <+: name.toList → pattern.toList <:+ name.toList → name = pattern) := by
  by_cases h : '*' ∈ pattern.toList
  · exact ⟨fun _ => .inl h, fun _ => globMatch_of_star h⟩
  · rw [globMatch_of_literal h, Wildcard.mem_language_of_not_mem h]
    constructor
    · intro hmatch
      exact .inr fun hbegins hsuffix => String.toList_inj.mp (hmatch.mp ⟨hbegins, hsuffix⟩)
    · rintro (hstar | hsame)
      · exact absurd hstar h
      · refine ⟨fun hmatch => congrArg String.toList (hsame hmatch.1 hmatch.2), fun heq => ?_⟩
        rw [heq]
        exact ⟨List.prefix_refl _, List.suffix_refl _⟩

/-- A pattern without a star matches a longer name. -/
theorem globMatch_language_false :
    ¬ ∀ pattern name : String, globMatch pattern name = true ↔ name.toList ∈ language '*' pattern.toList := by
  intro hclaim
  have hmatch : globMatch "db" "db-to-db" = true := by decide
  have hname := (Wildcard.mem_language_of_not_mem (by decide)).mp ((hclaim "db" "db-to-db").mp hmatch)
  exact absurd hname (by decide)

end Tumult.Compliance
