import Tumult.Query.Expansion

/-!
# Monotonicity of the expansion budget

A query without one of its relationship patterns is not estimated higher, unless the pattern's upper bound is zero: it makes every
later tier free. A variable-length pattern with a higher bound is not estimated lower, unless the higher bound no longer fits a
`u64` and the assumption that takes its place is below the lower one.
-/

namespace Tumult

/-! ## Tiers -/

theorem saturatingMul_mono {a a' b b' : Nat} (ha : a ≤ a') (hb : b ≤ b') : saturatingMul a b ≤ saturatingMul a' b' := by
  have := Nat.mul_le_mul ha hb
  unfold saturatingMul
  omega

theorem saturatingAdd_mono {a a' b b' : Nat} (ha : a ≤ a') (hb : b ≤ b') : saturatingAdd a b ≤ saturatingAdd a' b' := by
  unfold saturatingAdd
  omega

theorem le_saturatingMul {a b : Nat} (ha : a ≤ u64Max) (hb : 1 ≤ b) : a ≤ saturatingMul a b := by
  have := Nat.le_mul_of_pos_right a hb
  unfold saturatingMul
  omega

section Tiers

variable {degree : Nat} {acc acc' : Nat × Nat}

/-- A frontier and the steps so far, both no higher. -/
def NoHigher (acc acc' : Nat × Nat) : Prop := acc.1 ≤ acc'.1 ∧ acc.2 ≤ acc'.2

/-- Both fit a `u64`. -/
def FitsU64 (acc : Nat × Nat) : Prop := acc.1 ≤ u64Max ∧ acc.2 ≤ u64Max

theorem expansionTier_mono {hops hops' : Nat} (h : NoHigher acc acc') (hhops : hops ≤ hops') :
    NoHigher (expansionTier degree acc hops) (expansionTier degree acc' hops') := by
  have hfrontier := saturatingMul_mono (saturatingMul_mono h.1 (Nat.le_refl degree)) hhops
  exact ⟨hfrontier, saturatingAdd_mono h.2 hfrontier⟩

theorem expansionTier_fits (hops : Nat) : FitsU64 (expansionTier degree acc hops) :=
  ⟨Nat.min_le_right _ _, Nat.min_le_right _ _⟩

/-- A tier of at least one hop makes the estimate no lower. -/
theorem le_expansionTier {hops : Nat} (hfits : FitsU64 acc) (hdegree : 1 ≤ degree) (hhops : 1 ≤ hops) :
    NoHigher acc (expansionTier degree acc hops) := by
  have hspread := le_saturatingMul hfits.1 hdegree
  have hfrontier : saturatingMul acc.1 degree ≤ saturatingMul (saturatingMul acc.1 degree) hops :=
    le_saturatingMul (Nat.min_le_right (acc.1 * degree) u64Max) hhops
  refine ⟨hspread.trans hfrontier, ?_⟩
  have := hfits.2
  unfold expansionTier saturatingAdd
  dsimp only
  omega

theorem foldl_tiers_fits (hops : List Nat) (h : FitsU64 acc) : FitsU64 (hops.foldl (expansionTier degree) acc) := by
  induction hops generalizing acc with
  | nil => exact h
  | cons n hops ih => exact ih (expansionTier_fits n)

/-- No tier takes steps back (induction on the tiers). -/
theorem le_foldl_tiers (hops : List Nat) (h : FitsU64 acc) : acc.2 ≤ (hops.foldl (expansionTier degree) acc).2 := by
  induction hops generalizing acc with
  | nil => exact Nat.le_refl _
  | cons n hops ih =>
    refine Nat.le_trans ?_ (ih (expansionTier_fits n))
    have := h.2
    unfold expansionTier saturatingAdd
    dsimp only
    omega

/-- A tier of no hops empties the frontier. -/
theorem expansionTier_zero (h : FitsU64 acc) : expansionTier degree acc 0 = (0, acc.2) := by
  have := h.2
  unfold expansionTier saturatingAdd saturatingMul
  rw [Nat.mul_zero, Nat.zero_min, Nat.add_zero, Nat.min_eq_left this]

/-- Tiers with no more hops are estimated no higher (induction on the tiers). -/
theorem foldl_tiers_mono {hops hops' : List Nat} (h : NoHigher acc acc') (hhops : List.Forall₂ (· ≤ ·) hops hops') :
    NoHigher (hops.foldl (expansionTier degree) acc) (hops'.foldl (expansionTier degree) acc') := by
  induction hhops generalizing acc acc' with
  | nil => exact h
  | cons hle _ ih => exact ih (expansionTier_mono h hle)

/-- Some of the tiers are estimated no higher than all, when all have at least one hop (induction on the tiers). -/
theorem foldl_tiers_sublist {hops hops' : List Nat} (h : NoHigher acc acc') (hfits : FitsU64 acc') (hdegree : 1 ≤ degree)
    (hsub : hops.Sublist hops') (hpos : ∀ n ∈ hops', 1 ≤ n) :
    NoHigher (hops.foldl (expansionTier degree) acc) (hops'.foldl (expansionTier degree) acc') := by
  induction hsub generalizing acc acc' with
  | slnil => exact h
  | cons n _ ih =>
    obtain ⟨hn, hrest⟩ := List.forall_mem_cons.mp hpos
    have hraised := le_expansionTier hfits hdegree hn
    exact ih ⟨h.1.trans hraised.1, h.2.trans hraised.2⟩ (expansionTier_fits n) hrest
  | cons_cons n _ ih =>
    exact ih (expansionTier_mono h (Nat.le_refl n)) (expansionTier_fits n) (List.forall_mem_cons.mp hpos).2

end Tiers

/-! ## Queries -/

section Queries

variable (snapshot : GraphSnapshot)

/-- Where the estimate begins. -/
def GraphSnapshot.firstTier : Nat × Nat := (max snapshot.nodeCount 1, 0)

theorem firstTier_fits : FitsU64 snapshot.firstTier := by
  have hcount : snapshot.nodeCount ≤ u64Max := Nat.min_le_right _ _
  have hone : 1 ≤ u64Max := by decide
  exact ⟨Nat.max_le.mpr ⟨hcount, hone⟩, Nat.zero_le _⟩

theorem one_le_avgDegree : 1 ≤ snapshot.avgDegree := Nat.le_max_right _ _

/-- A query with some of the relationship patterns of another, all of at least one hop, is not estimated higher. -/
theorem estimate_sublist {q q' : String} (hsub : (relationshipPatterns q').Sublist (relationshipPatterns q))
    (hpos : ∀ p ∈ relationshipPatterns q, p.hops ≠ 0) : estimateExpansionSteps snapshot q' ≤ estimateExpansionSteps snapshot q := by
  have hfirst : NoHigher snapshot.firstTier snapshot.firstTier := ⟨Nat.le_refl _, Nat.le_refl _⟩
  refine (foldl_tiers_sublist hfirst (firstTier_fits snapshot) (one_le_avgDegree snapshot) (hsub.map _) ?_).2
  intro n hn
  obtain ⟨p, hp, rfl⟩ := List.mem_map.mp hn
  exact Nat.one_le_iff_ne_zero.mpr (hpos p hp)

/-- The second query is the first without an occurrence of the pattern that these others follow. -/
def Removes (p : RelationshipPattern) (after : List RelationshipPattern) (q q' : String) : Prop :=
  ∃ before, relationshipPatterns q = before ++ p :: after ∧ relationshipPatterns q' = before ++ after

/-- The second query has one pattern in the place of another. -/
def Replaces (p p' : RelationshipPattern) (q q' : String) : Prop :=
  ∃ before after, relationshipPatterns q = before ++ p :: after ∧ relationshipPatterns q' = before ++ p' :: after

/-- A query that the budget refuses is not admitted by adding to it. -/
theorem admitted_of_le {q q' : String} (h : estimateExpansionSteps snapshot q' ≤ estimateExpansionSteps snapshot q)
    (hok : enforceEvaluationBudget snapshot q = .ok ()) : enforceEvaluationBudget snapshot q' = .ok () := by
  unfold enforceEvaluationBudget at hok ⊢
  by_cases hover : estimateExpansionSteps snapshot q > MAX_EXPANSION_STEPS
  · rw [if_pos hover] at hok
    nomatch hok
  · rw [if_neg (by omega)]

variable {snapshot}

/-- Without a pattern of at least one hop the estimate is no higher; nor without one of no hops, when none follows or the next has
none either. -/
theorem estimate_remove {p : RelationshipPattern} {after : List RelationshipPattern} {q q' : String} (h : Removes p after q q')
    (hp : p.hops ≠ 0 ∨ ∀ r ∈ after.head?, r.hops = 0) : estimateExpansionSteps snapshot q' ≤ estimateExpansionSteps snapshot q := by
  obtain ⟨before, hq, hq'⟩ := h
  unfold estimateExpansionSteps expansionHops
  rw [hq, hq', List.map_append, List.map_append, List.map_cons, List.foldl_append, List.foldl_append, List.foldl_cons]
  have hfits : FitsU64 ((before.map RelationshipPattern.hops).foldl (expansionTier snapshot.avgDegree) snapshot.firstTier) :=
    foldl_tiers_fits _ (firstTier_fits snapshot)
  by_cases hzero : p.hops = 0
  · have hnext := hp.resolve_left (absurd hzero)
    change (List.foldl _ ((before.map RelationshipPattern.hops).foldl (expansionTier snapshot.avgDegree) snapshot.firstTier) _).2 ≤
      (List.foldl _ (expansionTier snapshot.avgDegree
        ((before.map RelationshipPattern.hops).foldl (expansionTier snapshot.avgDegree) snapshot.firstTier) p.hops) _).2
    cases after with
    | nil => exact le_foldl_tiers [p.hops] hfits
    | cons r after =>
      have hr : r.hops = 0 := hnext r rfl
      rw [List.map_cons, List.foldl_cons, List.foldl_cons, hr, hzero, expansionTier_zero hfits, expansionTier_zero]
      exact ⟨Nat.zero_le _, hfits.2⟩
  · have hraised := le_expansionTier hfits (one_le_avgDegree snapshot) (Nat.one_le_iff_ne_zero.mpr hzero)
    exact (foldl_tiers_mono hraised (List.forall₂_same.mpr fun _ _ => Nat.le_refl _)).2

/-- With a pattern of more hops in its place the estimate is no lower. -/
theorem estimate_replace {p p' : RelationshipPattern} {q q' : String} (h : Replaces p p' q q') (hp : p.hops ≤ p'.hops) :
    estimateExpansionSteps snapshot q ≤ estimateExpansionSteps snapshot q' := by
  obtain ⟨before, after, hq, hq'⟩ := h
  unfold estimateExpansionSteps expansionHops
  rw [hq, hq']
  refine (foldl_tiers_mono ⟨Nat.le_refl _, Nat.le_refl _⟩ ?_).2
  rw [List.map_append, List.map_append, List.map_cons, List.map_cons]
  have hsame (ps : List RelationshipPattern) :
      List.Forall₂ (· ≤ ·) (ps.map RelationshipPattern.hops) (ps.map RelationshipPattern.hops) :=
    List.forall₂_same.mpr fun _ _ => Nat.le_refl _
  exact List.rel_append (hsame before) (.cons hp (hsame after))

end Queries

/-! ## Bounds -/

/-- Some decimal digits. -/
def Decimal (digits : List Char) : Prop := digits ≠ [] ∧ ∀ c ∈ digits, c.isDigit = true

/-- What stands in a bracket without a quote. -/
def PlainContent (cs : List Char) : Prop := ∀ c ∈ cs, isQuote c = false ∧ c ≠ ']'

/-- A variable-length pattern around its upper bound: the label before its star, the minimum before two dots, if it has them, and
what follows the bound. -/
structure VarLength where
  label : List Char
  minSpec : Option (List Char)
  rest : List Char
  label_star : '*' ∉ label
  minSpec_dot : ∀ m, minSpec = some m → '.' ∉ m
  rest_digit : ∀ c, rest.head? = some c → c.isDigit = false
  rest_dots : minSpec = none → splitOnceDots rest = none
  plain : PlainContent (label ++ minSpec.getD [] ++ rest)

namespace VarLength

/-- The bracket's content with an upper bound. -/
def content (v : VarLength) (upper : List Char) : List Char :=
  v.label ++ '*' :: (v.minSpec.elim [] (· ++ ['.', '.']) ++ (upper ++ v.rest))

def pattern (v : VarLength) (upper : List Char) : RelationshipPattern := .bracket (v.content upper)

/-- The hops assumed when the upper bound does not fit. -/
def assumed (v : VarLength) : Nat := v.minSpec.elim UNBOUNDED_HOP_ASSUMPTION assumedHops

end VarLength

theorem afterStar_append {label spec : List Char} (h : '*' ∉ label) : afterStar (label ++ '*' :: spec) = some spec := by
  induction label with
  | nil => rfl
  | cons c label ih =>
    rw [List.mem_cons, not_or] at h
    rw [List.cons_append, afterStar, if_neg (Ne.symm h.1), ih h.2]

theorem splitOnceDots_append {minSpec rest : List Char} (h : '.' ∉ minSpec) :
    splitOnceDots (minSpec ++ '.' :: '.' :: rest) = some (minSpec, rest) := by
  induction minSpec with
  | nil => rfl
  | cons c minSpec ih =>
    rw [List.mem_cons, not_or] at h
    rw [List.cons_append, splitOnceDots]
    · rw [ih h.2]
      rfl
    · rintro rest' rfl
      exact absurd rfl h.1

theorem splitOnceDots_digits {digits rest : List Char} (h : ∀ c ∈ digits, c.isDigit = true) (hrest : splitOnceDots rest = none) :
    splitOnceDots (digits ++ rest) = none := by
  induction digits with
  | nil => exact hrest
  | cons c digits ih =>
    obtain ⟨hc, hdigits⟩ := List.forall_mem_cons.mp h
    rw [List.cons_append, splitOnceDots]
    · rw [ih hdigits]
      rfl
    · rintro rest' rfl
      nomatch hc

theorem leadingDigits_append {digits rest : List Char} (h : Decimal digits) (hrest : ∀ c, rest.head? = some c → c.isDigit = false) :
    leadingDigits (digits ++ rest) = parseU64 digits := by
  have htake : (digits ++ rest).takeWhile Char.isDigit = digits := by
    rw [List.takeWhile_append_of_pos h.2]
    cases rest with
    | nil => simp
    | cons c rest => simp [hrest c rfl]
  unfold leadingDigits
  rw [htake, if_neg h.1]

/-- The hops of a variable-length pattern are its upper bound, if that fits. -/
theorem VarLength.hops_pattern (v : VarLength) {upper : List Char} (h : Decimal upper) :
    (v.pattern upper).hops = (parseU64 upper).getD v.assumed := by
  change hopMultiplier (v.content upper) = _
  unfold hopMultiplier VarLength.content
  rw [afterStar_append v.label_star]
  unfold VarLength.assumed
  cases hmin : v.minSpec with
  | none =>
    rw [Option.elim_none, List.nil_append]
    dsimp only
    rw [splitOnceDots_digits h.2 (v.rest_dots hmin)]
    dsimp only
    rw [leadingDigits_append h v.rest_digit]
    rfl
  | some m =>
    simp only [Option.elim_some, List.append_assoc, List.cons_append, List.nil_append]
    rw [splitOnceDots_append (v.minSpec_dot m hmin)]
    dsimp only
    rw [leadingDigits_append h v.rest_digit]

/-- A bound that does not fit is read as the assumption. -/
theorem VarLength.hops_eq (v : VarLength) {upper : List Char} (h : Decimal upper) :
    (v.pattern upper).hops = if decimalValue upper ≤ u64Max then decimalValue upper else v.assumed := by
  rw [v.hops_pattern h, parseU64]
  split <;> rfl

theorem VarLength.hops_le_iff (v : VarLength) {lower upper : List Char} (hl : Decimal lower) (hu : Decimal upper)
    (hle : decimalValue lower ≤ decimalValue upper) : (v.pattern lower).hops ≤ (v.pattern upper).hops ↔
      decimalValue upper ≤ u64Max ∨ u64Max < decimalValue lower ∨ decimalValue lower ≤ v.assumed := by
  rw [v.hops_eq hl, v.hops_eq hu]
  split <;> split <;> omega

theorem leadingDigits_le {s : List Char} {n : Nat} (h : leadingDigits s = some n) : n ≤ u64Max := by
  unfold leadingDigits parseU64 at h
  split at h
  · nomatch h
  · split at h
    · rename_i hfits
      exact Option.some.inj h ▸ hfits
    · nomatch h

theorem assumedHops_le (minSpec : List Char) : assumedHops minSpec ≤ u64Max := by
  have hassumed : UNBOUNDED_HOP_ASSUMPTION ≤ u64Max := by decide
  unfold assumedHops
  cases hmin : leadingDigits minSpec with
  | none => exact hassumed
  | some n => exact Nat.max_le.mpr ⟨leadingDigits_le hmin, hassumed⟩

theorem hopMultiplier_le (bracket : List Char) : hopMultiplier bracket ≤ u64Max := by
  have hassumed : UNBOUNDED_HOP_ASSUMPTION ≤ u64Max := by decide
  have hgetD (s : List Char) {n : Nat} (hn : n ≤ u64Max) : (leadingDigits s).getD n ≤ u64Max := by
    cases hs : leadingDigits s with
    | none => exact hn
    | some m => exact leadingDigits_le hs
  unfold hopMultiplier
  split
  · decide
  · split
    · exact hgetD _ (assumedHops_le _)
    · exact hgetD _ hassumed

theorem RelationshipPattern.hops_le (p : RelationshipPattern) : p.hops ≤ u64Max := by
  cases p with
  | anonymous => decide
  | bracket content => exact hopMultiplier_le content

/-! ## Queries with given patterns -/

/-- The bracket holds no quote: true of every pattern a scan finds. -/
def RelationshipPattern.Plain : RelationshipPattern → Prop
  | .anonymous => True
  | .bracket content => PlainContent content

def RelationshipPattern.text : RelationshipPattern → List Char
  | .anonymous => ['-', '-']
  | .bracket content => '-' :: '[' :: (content ++ [']', '-'])

/-- A query with these patterns. -/
def queryText (ps : List RelationshipPattern) : List Char :=
  "MATCH (a)".toList ++ ps.flatMap (fun p => p.text ++ "(b)".toList) ++ " RETURN b".toList

theorem patternsFrom_plain {cs rest : List Char} (h : ∀ c ∈ cs, isQuote c = false ∧ c ≠ '-') :
    patternsFrom none (cs ++ rest) = patternsFrom none rest := by
  induction cs with
  | nil => rfl
  | cons c cs ih =>
    obtain ⟨⟨hquote, hdash⟩, hcs⟩ := List.forall_mem_cons.mp h
    rw [List.cons_append, patternsFrom.eq_def]
    simp only [hquote, hdash, Bool.false_eq_true, if_false]
    exact ih hcs

theorem bracketContent_plain {cs : List Char} (content rest : List Char) (h : PlainContent cs) :
    bracketContent none content (cs ++ ']' :: rest) = (content ++ cs, rest) := by
  induction cs generalizing content with
  | nil => simp [bracketContent, isQuote]
  | cons c cs ih =>
    obtain ⟨⟨hquote, hend⟩, hcs⟩ := List.forall_mem_cons.mp h
    rw [List.cons_append, bracketContent]
    simp only [hquote, hend, Bool.false_eq_true, if_false]
    rw [ih (content ++ [c]) hcs, List.append_assoc]
    rfl

theorem patternsFrom_text {p : RelationshipPattern} (h : p.Plain) (rest : List Char) :
    patternsFrom none (p.text ++ '(' :: rest) = p :: patternsFrom none ('(' :: rest) := by
  have hquote : isQuote '-' = false := by decide
  cases p with
  | anonymous =>
    change patternsFrom none ('-' :: '-' :: '(' :: rest) = _
    rw [patternsFrom]
    simp [hquote]
  | bracket content =>
    have hscan := bracketContent_plain [] ('-' :: '(' :: rest) h
    have htext : RelationshipPattern.text (.bracket content) ++ '(' :: rest =
        '-' :: '[' :: (content ++ ']' :: '-' :: '(' :: rest) := by
      simp [RelationshipPattern.text]
    rw [htext, patternsFrom]
    simp only [hquote, Bool.false_eq_true, if_false, if_true, hscan, List.nil_append]
    rfl

/-- The scan reads the patterns of the query back (induction on the patterns). -/
theorem relationshipPatterns_queryText {ps : List RelationshipPattern} (h : ∀ p ∈ ps, p.Plain) :
    relationshipPatterns (String.ofList (queryText ps)) = ps := by
  unfold relationshipPatterns queryText
  rw [String.toList_ofList, List.append_assoc, patternsFrom_plain (by simp [isQuote])]
  induction ps with
  | nil =>
    have hskip : patternsFrom none (" RETURN b".toList ++ []) = patternsFrom none [] := patternsFrom_plain (by simp [isQuote])
    rw [List.append_nil] at hskip
    exact hskip.trans (by rw [patternsFrom])
  | cons p ps ih =>
    obtain ⟨hp, hps⟩ := List.forall_mem_cons.mp h
    rw [List.flatMap_cons, List.append_assoc, List.append_assoc]
    have hskip : patternsFrom none ("(b)".toList ++ (ps.flatMap (fun p => p.text ++ "(b)".toList) ++ " RETURN b".toList)) =
        patternsFrom none (ps.flatMap (fun p => p.text ++ "(b)".toList) ++ " RETURN b".toList) :=
      patternsFrom_plain (by simp [isQuote])
    calc patternsFrom none (p.text ++ ("(b)".toList ++ (ps.flatMap (fun p => p.text ++ "(b)".toList) ++ " RETURN b".toList)))
        = p :: patternsFrom none ("(b)".toList ++ (ps.flatMap (fun p => p.text ++ "(b)".toList) ++ " RETURN b".toList)) :=
          patternsFrom_text hp _
      _ = p :: ps := congrArg (p :: ·) (hskip.trans (ih hps))

/-! ## The budget -/

/-- On an empty snapshot the estimate of one pattern is its hops. -/
theorem estimate_one {q : String} {p : RelationshipPattern} (h : relationshipPatterns q = [p]) :
    estimateExpansionSteps {} q = p.hops := by
  have hle := p.hops_le
  have hone : saturatingMul 1 1 = 1 := by decide
  unfold estimateExpansionSteps expansionHops
  rw [h, List.map_singleton, List.foldl_cons, List.foldl_nil]
  change saturatingAdd 0 (saturatingMul (saturatingMul 1 1) p.hops) = p.hops
  rw [hone]
  unfold saturatingAdd saturatingMul
  omega

/-- On an empty snapshot the estimate is at least the hops of the first pattern. -/
theorem le_estimate {q : String} {p : RelationshipPattern} {ps : List RelationshipPattern} (h : relationshipPatterns q = p :: ps) :
    p.hops ≤ estimateExpansionSteps {} q := by
  have hle := p.hops_le
  have hone : saturatingMul 1 1 = 1 := by decide
  unfold estimateExpansionSteps expansionHops
  rw [h, List.map_cons, List.foldl_cons]
  refine Nat.le_trans ?_ (le_foldl_tiers _ (expansionTier_fits p.hops))
  change p.hops ≤ saturatingAdd 0 (saturatingMul (saturatingMul 1 1) p.hops)
  rw [hone]
  unfold saturatingAdd saturatingMul
  omega

/-- A query that begins with a pattern of no hops is estimated at nothing on an empty snapshot. -/
theorem estimate_zero {q : String} {p : RelationshipPattern} {ps : List RelationshipPattern} (h : relationshipPatterns q = p :: ps)
    (hp : p.hops = 0) : estimateExpansionSteps {} q = 0 := by
  have htiers (hops : List Nat) : hops.foldl (expansionTier 1) (0, 0) = (0, 0) := by
    induction hops with
    | nil => rfl
    | cons n hops ih =>
      have htier : expansionTier 1 (0, 0) n = (0, 0) := by simp [expansionTier, saturatingMul, saturatingAdd]
      rw [List.foldl_cons, htier, ih]
  unfold estimateExpansionSteps expansionHops
  rw [h, List.map_cons, List.foldl_cons, hp]
  exact congrArg Prod.snd (htiers (ps.map RelationshipPattern.hops))

theorem decimal_plain {digits : List Char} (h : Decimal digits) : PlainContent digits := by
  intro c hc
  have hdigit := h.2 c hc
  refine ⟨?_, ?_⟩
  · unfold isQuote
    refine Bool.eq_false_iff.mpr fun hquote => ?_
    simp only [Bool.or_eq_true, decide_eq_true_eq] at hquote
    rcases hquote with (rfl | rfl) | rfl <;> revert hdigit <;> decide
  · rintro rfl
    revert hdigit
    decide

theorem VarLength.pattern_plain (v : VarLength) {upper : List Char} (h : Decimal upper) : (v.pattern upper).Plain := by
  intro c hc
  have hplain := v.plain
  have hupper := decimal_plain h
  cases hmin : v.minSpec with
  | none =>
    simp only [VarLength.content, hmin, Option.elim_none, List.nil_append, List.mem_append, List.mem_cons] at hc
    rcases hc with hc | rfl | hc | hc
    · exact hplain c (List.mem_append_left _ (List.mem_append_left _ hc))
    · decide
    · exact hupper c hc
    · exact hplain c (List.mem_append_right _ hc)
  | some m =>
    simp only [VarLength.content, hmin, Option.elim_some, List.mem_append, List.mem_cons, List.not_mem_nil, or_false] at hc
    rcases hc with hc | rfl | (hc | rfl | rfl) | hc | hc
    · exact hplain c (List.mem_append_left _ (List.mem_append_left _ hc))
    · decide
    · exact hplain c (List.mem_append_left _ (List.mem_append_right _ (hmin ▸ hc)))
    · decide
    · decide
    · exact hupper c hc
    · exact hplain c (List.mem_append_right _ hc)

/-- A pattern of up to some hops, as `[*1..n]`. -/
def upToHops : VarLength where
  label := []
  minSpec := some ['1']
  rest := []
  label_star := nofun
  minSpec_dot := by simp
  rest_digit := nofun
  rest_dots := nofun
  plain := by simp [PlainContent, isQuote]

end Tumult
