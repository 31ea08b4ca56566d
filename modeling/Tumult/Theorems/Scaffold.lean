import Tumult.Exec.Scaffold
import Tumult.Theorems.ScriptArguments

/-!
# Scaffolded arguments and the script

The coercion reads a numeral as a number, and the text of a number is its own numeral: a raw string stays what it is where it is no
numeral, or the numeral that the number is written as.
-/

namespace Tumult.Scaffold

variable {Φ : FloatText}

/-- What is documented of the texts of floating-point numbers: they are read back, and are no integers. -/
structure FloatText.Laws (Φ : FloatText) : Prop where
  parse_print : ∀ f, Φ.parse (Φ.print f) = some f
  not_integer : ∀ f, parseI64 (Φ.print f) = none

/-- The raw string is no numeral, or the numeral that its number is written as. -/
def Plain (Φ : FloatText) (raw : String) : Prop :=
  (parseI64 raw = none ∧ Φ.parse raw = none) ∨ (∃ i : Int64, raw = toString i.toInt) ∨ ∃ f, raw = Φ.print f

/-- If the script runs, the variable of the argument has the raw string for its value. -/
def Unchanged (Γ : TemplateCtx) (name raw : String) (arguments : List (String × ArgumentValue)) : Prop :=
  ∀ vars, scriptVariables Γ arguments = .ok vars → vars.lookup ("TUMULT_" ++ Γ.toUppercase name) = some raw

/-! ## One value -/

theorem parseI64_toString (i : Int64) : parseI64 (toString i.toInt) = some i.toInt := by
  have hlow := i.le_toInt
  have hhigh := i.toInt_lt
  rw [parseI64, Decimal.readInt_toString, Option.filter_some, if_pos]
  simp only [Bool.and_eq_true, decide_eq_true_eq]
  exact ⟨hlow, hhigh⟩

theorem parseI64_range {raw : String} {i : Int} (h : parseI64 raw = some i) : ∃ j : Int64, j.toInt = i := by
  have hrange := (Option.filter_eq_some_iff.mp h).2
  simp only [Bool.and_eq_true, decide_eq_true_eq] at hrange
  exact ⟨Int64.ofInt i, Int64.toInt_ofInt_of_le hrange.1 hrange.2⟩

/-- The text of the coerced value is the raw string exactly when that is plain. -/
theorem coerced_eq_iff (hΦ : Φ.Laws) (raw : String) : argumentValueToString (coerceValue Φ raw) = raw ↔ Plain Φ raw := by
  unfold coerceValue Plain
  cases hi : parseI64 raw with
  | some i =>
    obtain ⟨j, rfl⟩ := parseI64_range hi
    constructor
    · intro h
      exact Or.inr (Or.inl ⟨j, h.symm⟩)
    · rintro (⟨hnone, -⟩ | ⟨k, rfl⟩ | ⟨f, rfl⟩)
      · cases hnone
      · rw [parseI64_toString, Option.some.injEq] at hi
        rw [hi]
        rfl
      · rw [hΦ.not_integer] at hi
        cases hi
  | none =>
    cases hf : Φ.parse raw with
    | some f =>
      constructor
      · intro h
        exact Or.inr (Or.inr ⟨f, h.symm⟩)
      · rintro (⟨-, hnone⟩ | ⟨k, rfl⟩ | ⟨g, rfl⟩)
        · cases hnone
        · rw [parseI64_toString] at hi
          cases hi
        · rw [hΦ.parse_print, Option.some.injEq] at hf
          rw [hf]
          rfl
    | none =>
      refine iff_of_true ?_ (Or.inl ⟨rfl, rfl⟩)
      by_cases htrue : raw = "true"
      · rw [htrue]
        rfl
      · by_cases hfalse : raw = "false"
        · rw [hfalse]
          rfl
        · simp [htrue, hfalse, argumentValueToString]

/-! ## The way to the script -/

theorem mem_methodArguments {request : ScaffoldRequest} {name raw : String} (h : (name, raw) ∈ request.args) :
    (name, coerceValue Φ raw) ∈ methodArguments Φ request := by
  have hmem : (name, coerceValue Φ raw) ∈ request.args.map fun e => (e.1, coerceValue Φ e.2) := List.mem_map.mpr ⟨_, h, rfl⟩
  simp only [methodArguments]
  split
  · exact hmem
  · exact List.mem_append_left _ hmem

/-- The variables are those of the arguments, under different names. -/
theorem scriptVariables_ok {Γ : TemplateCtx} {arguments : List (String × ArgumentValue)} {vars : StringMap}
    (h : scriptVariables Γ arguments = .ok vars) :
    (vars.map Prod.fst).Nodup ∧
      ∀ x, x ∈ vars ↔ ∃ e ∈ arguments, ("TUMULT_" ++ Γ.toUppercase e.1, argumentValueToString e.2) = x := by
  obtain ⟨-, -, h⟩ := Checks.bind_ok h
  obtain ⟨env, hread, henv⟩ : ∃ env, buildEnvVars Γ (scriptArguments arguments) = .ok env ∧ env = vars := by
    cases hbuild : buildEnvVars Γ (scriptArguments arguments) with
    | error e =>
      rw [hbuild] at h
      cases h
    | ok env =>
      rw [hbuild] at h
      exact ⟨env, rfl, Except.ok.inj h⟩
  obtain ⟨-, hnodup, rfl⟩ := buildEnvVars_ok.mp hread
  subst henv
  refine ⟨?_, fun x => mem_variables⟩
  rw [names_variables]
  refine (List.nodup_map_iff fun a b => tumult_injective).mpr ?_
  rw [scriptArguments, List.map_map] at hnodup
  exact hnodup

/-- The entry of a map with different names is found under its name. -/
theorem lookup_of_mem {vars : StringMap} (hnodup : (vars.map Prod.fst).Nodup) {name value : String}
    (h : (name, value) ∈ vars) : vars.lookup name = some value := by
  obtain ⟨before, after, rfl⟩ := List.append_of_mem h
  refine List.lookup_eq_some_iff.mpr ⟨before, after, rfl, fun e he => bne_iff_ne.mpr fun heq => ?_⟩
  rw [List.map_append] at hnodup
  exact (List.disjoint_of_nodup_append hnodup) (List.mem_map.mpr ⟨e, he, rfl⟩) (by simp [heq])

/-! ## What the script is given -/

/-- A scaffolded argument reaches the script unchanged exactly when it is plain, or the script does not run. -/
theorem scaffolded_unchanged_iff (hΦ : Φ.Laws) (Γ : TemplateCtx) (request : ScaffoldRequest) {name raw : String}
    (hargs : (name, raw) ∈ request.args) {plugin function : String} {declared arguments : List (String × ArgumentValue)}
    (hstep : methodProvider Φ request = .script plugin function declared) (horder : arguments.Perm declared) :
    Unchanged Γ name raw arguments ↔ Plain Φ raw ∨ ∀ vars, scriptVariables Γ arguments ≠ .ok vars := by
  have hdeclared : declared = methodArguments Φ request := by
    unfold methodProvider providerFor at hstep
    split at hstep
    · cases hstep
    · cases hstep
      rfl
  have hmem : (name, coerceValue Φ raw) ∈ arguments := by
    rw [horder.mem_iff, hdeclared]
    exact mem_methodArguments hargs
  have hvalue : ∀ {vars : StringMap}, scriptVariables Γ arguments = .ok vars →
      vars.lookup ("TUMULT_" ++ Γ.toUppercase name) = some (argumentValueToString (coerceValue Φ raw)) := by
    intro vars hrun
    obtain ⟨hnodup, hvars⟩ := scriptVariables_ok hrun
    exact lookup_of_mem hnodup ((hvars _).mpr ⟨_, hmem, rfl⟩)
  rw [← coerced_eq_iff hΦ]
  constructor
  · intro h
    by_cases hrun : ∃ vars, scriptVariables Γ arguments = .ok vars
    · obtain ⟨vars, hrun⟩ := hrun
      exact Or.inl (Option.some.inj ((hvalue hrun).symm.trans (h vars hrun)))
    · exact Or.inr (not_exists.mp hrun)
  · rintro (hplain | hrefused) vars hrun
    · rw [hvalue hrun, hplain]
    · exact absurd hrun (hrefused vars)

/-- Floating-point numbers as far as `1.1` goes, which is read with any zeros after it. -/
def onePointOne : FloatText where
  Finite := Unit
  parse raw := if raw = "1.1" ∨ raw = "1.10" then some () else none
  print _ := "1.1"

theorem onePointOne_laws : onePointOne.Laws where
  parse_print _ := rfl
  not_integer _ := by
    change parseI64 "1.1" = none
    decide

/-- A request for an action of a script plugin with one argument. -/
def pinVersion (raw : String) : ScaffoldRequest where
  plugin := "tumult-containers"
  action := "pin-version"
  args := [("version", raw)]
  target := "web"
  args_nodup := List.nodup_singleton _

theorem scaffolded_unchanged_plain :
    Unchanged asciiCtx "version" "1.1" (methodArguments onePointOne (pinVersion "1.1")) :=
  (scaffolded_unchanged_iff onePointOne_laws asciiCtx (pinVersion "1.1") (List.mem_singleton_self _) rfl (List.Perm.refl _)).mpr
    (Or.inl (Or.inr (Or.inr ⟨(), rfl⟩)))

/-- The script of a scaffolded `1.10` is run with `1.1`. -/
theorem scaffolded_version_false :
    methodProvider onePointOne (pinVersion "1.10") =
        .script "tumult-containers" "pin-version" [("version", .other "1.1"), ("target", .string "web")] ∧
      ¬ Unchanged asciiCtx "version" "1.10" [("version", .other "1.1"), ("target", .string "web")] := by
  refine ⟨by decide, fun h => ?_⟩
  have hrun : scriptVariables asciiCtx [("version", .other "1.1"), ("target", .string "web")] =
      .ok [("TUMULT_VERSION", "1.1"), ("TUMULT_TARGET", "web")] := by rfl
  have hlookup := h _ hrun
  exact absurd hlookup (by decide)

end Tumult.Scaffold
