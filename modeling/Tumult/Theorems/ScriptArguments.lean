import Tumult.Exec.Arguments
import Tumult.Lib.Checks
import Tumult.Theorems.Environment

/-!
# Declared arguments and injected variables

A declared argument replaces the injected one of its key, and the variables are named by the keys in upper case. So an argument that
is declared in other letters than lower ones does not replace the injected one: the two are in conflict.
-/

namespace Tumult

/-- What is documented of the conversions of case: ASCII texts are converted letter by letter, and nothing in upper case has a small
ASCII letter. -/
structure CaseLaws (toUppercase toLowercase : String → String) : Prop where
  upper_ascii : ∀ s : String, (∀ c ∈ s.toList, c.val < 128) → toUppercase s = String.ofList (s.toList.map Char.toUpper)
  lower_ascii : ∀ s : String, (∀ c ∈ s.toList, c.val < 128) → toLowercase s = String.ofList (s.toList.map Char.toLower)
  upper_not_lower : ∀ s : String, ∀ c ∈ (toUppercase s).toList, c.isLower = false

variable {Γ : TemplateCtx} {toLowercase : String → String}

/-! ## The variables of arguments -/

/-- The variable of an argument. -/
def argumentVariable (Γ : TemplateCtx) (e : String × String) : String × String := ("TUMULT_" ++ Γ.toUppercase e.1, e.2)

theorem tumult_injective {a b : String} (h : "TUMULT_" ++ a = "TUMULT_" ++ b) : a = b := by
  have hchars := congrArg String.toList h
  rw [String.toList_append, String.toList_append] at hchars
  exact String.toList_injective (List.append_cancel_left hchars)

/-- What the arguments read so far leave. -/
def envState (Γ : TemplateCtx) (done : StringMap) : StringMap × StringMap :=
  (done.map (argumentVariable Γ), done.map fun e => (Γ.toUppercase e.1, e.1))

theorem buildEnvVar_ok {done : StringMap} {e : String × String} {acc : StringMap × StringMap} :
    buildEnvVar Γ (envState Γ done) e = .ok acc ↔ isValidEnvIdentifier (Γ.toUppercase e.1) = true ∧
      Γ.toUppercase e.1 ∉ done.map (fun d => Γ.toUppercase d.1) ∧ acc = envState Γ (done ++ [e]) := by
  have hkeys : (done.map fun d => (Γ.toUppercase d.1, d.1)).map Prod.fst = done.map fun d => Γ.toUppercase d.1 := by
    rw [List.map_map]
    rfl
  cases hvalid : isValidEnvIdentifier (Γ.toUppercase e.1) with
  | false => simp [buildEnvVar, hvalid]
  | true =>
    by_cases hmem : Γ.toUppercase e.1 ∈ done.map fun d => Γ.toUppercase d.1
    · cases hfirst : (done.map fun d => (Γ.toUppercase d.1, d.1)).lookup (Γ.toUppercase e.1) with
      | none => exact absurd (hkeys ▸ hmem) (lookup_isNone.mp (by rw [hfirst]; rfl))
      | some first => simp [buildEnvVar, envState, hvalid, hfirst, hmem]
    · have hnone : (done.map fun d => (Γ.toUppercase d.1, d.1)).lookup (Γ.toUppercase e.1) = none :=
        Option.isNone_iff_eq_none.mp (lookup_isNone.mpr (hkeys ▸ hmem))
      have hvariable : Keyed.upsert Prod.fst ("TUMULT_" ++ Γ.toUppercase e.1, e.2) (done.map (argumentVariable Γ)) =
          (done ++ [e]).map (argumentVariable Γ) := by
        rw [List.map_append, List.map_singleton, Keyed.upsert_new]
        · rfl
        · rw [List.map_map]
          intro hname
          obtain ⟨d, hd, hsame⟩ := List.mem_map.mp hname
          exact hmem (List.mem_map.mpr ⟨d, hd, tumult_injective hsame⟩)
      have hname : Keyed.upsert Prod.fst (Γ.toUppercase e.1, e.1) (done.map fun d => (Γ.toUppercase d.1, d.1)) =
          (done ++ [e]).map fun d => (Γ.toUppercase d.1, d.1) := by
        rw [List.map_append, List.map_singleton, Keyed.upsert_new (hkeys ▸ hmem)]
      simp only [buildEnvVar, envState, hvalid, hnone, hvariable, hname, hmem, Bool.not_true, Bool.false_eq_true, if_false,
        not_false_eq_true, true_and, Except.ok.injEq, eq_comm]

/-- The arguments are accepted when their names in upper case are valid and differ, and each is then a variable of its own. -/
theorem buildEnvVars_ok {arguments env : StringMap} : buildEnvVars Γ arguments = .ok env ↔
    (∀ e ∈ arguments, isValidEnvIdentifier (Γ.toUppercase e.1) = true) ∧
      (arguments.map fun e => Γ.toUppercase e.1).Nodup ∧ env = arguments.map (argumentVariable Γ) := by
  have hfold : ∀ (rest done : StringMap) (acc : StringMap × StringMap), (done.map fun d => Γ.toUppercase d.1).Nodup →
      (rest.foldlM (buildEnvVar Γ) (envState Γ done) = .ok acc ↔
        (∀ e ∈ rest, isValidEnvIdentifier (Γ.toUppercase e.1) = true) ∧
          ((done ++ rest).map fun e => Γ.toUppercase e.1).Nodup ∧ acc = envState Γ (done ++ rest)) := by
    intro rest
    induction rest with
    | nil =>
      intro done acc hdone
      simp only [List.foldlM_nil, pure, Except.pure, Except.ok.injEq, List.not_mem_nil, IsEmpty.forall_iff, implies_true,
        List.append_nil, hdone, true_and, eq_comm]
    | cons e rest ih =>
      intro done acc hdone
      rw [List.foldlM_cons, List.forall_mem_cons]
      constructor
      · intro h
        obtain ⟨mid, hfirst, h⟩ := Checks.bind_ok h
        obtain ⟨hvalid, hnew, rfl⟩ := buildEnvVar_ok.mp hfirst
        have hmore : ((done ++ [e]).map fun d => Γ.toUppercase d.1).Nodup := by
          rw [List.map_append]
          exact hdone.append (List.nodup_singleton _) (by simpa using hnew)
        obtain ⟨hrest, hnodup, hacc⟩ := (ih _ _ hmore).mp h
        rw [List.append_assoc] at hnodup hacc
        exact ⟨⟨hvalid, hrest⟩, hnodup, hacc⟩
      · rintro ⟨⟨hvalid, hrest⟩, hnodup, rfl⟩
        rw [← List.singleton_append, ← List.append_assoc] at hnodup ⊢
        have hmore := hnodup
        rw [List.map_append] at hmore
        have hnew : Γ.toUppercase e.1 ∉ done.map fun d => Γ.toUppercase d.1 := by
          have hfirst := hmore.of_append_left
          rw [List.map_append] at hfirst
          exact fun hmem => (List.disjoint_of_nodup_append hfirst) hmem (by simp)
        rw [buildEnvVar_ok.mpr ⟨hvalid, hnew, rfl⟩]
        exact (ih _ _ hmore.of_append_left).mpr ⟨hrest, hnodup, rfl⟩
  have hstart := hfold arguments []
  constructor
  · intro h
    obtain ⟨acc, hread, henv⟩ := Checks.bind_ok h
    obtain ⟨hvalid, hnodup, rfl⟩ := (hstart acc List.nodup_nil).mp hread
    cases henv
    exact ⟨hvalid, hnodup, rfl⟩
  · rintro ⟨hvalid, hnodup, rfl⟩
    have hread := (hstart (envState Γ arguments) List.nodup_nil).mpr ⟨hvalid, hnodup, rfl⟩
    change (arguments.foldlM (buildEnvVar Γ) ([], []) >>= fun acc => pure acc.1) = _
    rw [show arguments.foldlM (buildEnvVar Γ) ([], []) = .ok (envState Γ arguments) from hread]
    rfl

/-! ## The names that are injected -/

/-- Characters of a name that are no small letters. -/
def UpperName (name : String) : Prop := ∀ c ∈ name.toList, isNameChar c = true ∧ c.isLower = false

theorem ascii_of_isNameChar {c : Char} (h : isNameChar c = true) : c.val < 128 := by
  simp only [isNameChar, Char.isAlphanum, Char.isAlpha, Char.isUpper, Char.isLower, Char.isDigit, Bool.or_eq_true, Bool.and_eq_true,
    decide_eq_true_eq] at h
  rcases h with ((⟨-, hle⟩ | ⟨-, hle⟩) | ⟨-, hle⟩) | rfl
  · exact UInt32.lt_of_le_of_lt hle (by decide)
  · exact UInt32.lt_of_le_of_lt hle (by decide)
  · exact UInt32.lt_of_le_of_lt hle (by decide)
  · decide

theorem toUpper_toLower {c : Char} (h : isNameChar c = true) (hlower : c.isLower = false) :
    c.toLower.val < 128 ∧ c.toLower.toUpper = c := by
  have hall : ∀ n < 128, isNameChar (Char.ofNat n) = true → (Char.ofNat n).isLower = false →
      (Char.ofNat n).toLower.val < 128 ∧ (Char.ofNat n).toLower.toUpper = Char.ofNat n := by decide +kernel
  have hc := hall c.toNat (ascii_of_isNameChar h)
  rw [Char.ofNat_toNat] at hc
  exact hc h hlower

/-- A name in upper case is got back from its lower case. -/
theorem CaseLaws.upper_lower (hcase : CaseLaws Γ.toUppercase toLowercase) {name : String} (h : UpperName name) :
    Γ.toUppercase (toLowercase name) = name := by
  have hlower : toLowercase name = String.ofList (name.toList.map Char.toLower) :=
    hcase.lower_ascii name fun c hc => ascii_of_isNameChar (h c hc).1
  have hascii : ∀ c ∈ (toLowercase name).toList, c.val < 128 := by
    rw [hlower, String.toList_ofList]
    exact List.forall_mem_map.mpr fun c hc => (toUpper_toLower (h c hc).1 (h c hc).2).1
  rw [hcase.upper_ascii _ hascii, hlower, String.toList_ofList, List.map_map]
  have hid : ∀ c ∈ name.toList, (Char.toUpper ∘ Char.toLower) c = c := fun c hc =>
    (toUpper_toLower (h c hc).1 (h c hc).2).2
  rw [List.map_congr_left hid, List.map_id', String.ofList_toList]

/-- The name of a key is in upper case. -/
theorem variableName_not_lower (hcase : CaseLaws Γ.toUppercase toLowercase) (separator : Option Char) (key : String) :
    ∀ c ∈ (variableName Γ separator key).toList, c.isLower = false := by
  cases separator with
  | none => exact hcase.upper_not_lower key
  | some sep =>
    rw [variableName, String.toList_ofList]
    refine List.forall_mem_map.mpr fun c hc => ?_
    split
    · decide
    · exact hcase.upper_not_lower key c hc

theorem injected_name (hcase : CaseLaws Γ.toUppercase toLowercase) (config secrets : StringMap) :
    ∀ e ∈ buildConfigEnv Γ config ++ buildSecretEnv Γ secrets,
      ∃ rest, e.1 = "TUMULT_" ++ rest ∧ UpperName rest ∧ isValidEnvIdentifier rest = true := by
  have hfamily : ∀ (family : String) (separator : Option Char) (values : StringMap), isValidEnvIdentifier family = true →
      family.toList.all (fun c => !c.isLower) = true → isValidEnvIdentifier ("TUMULT_" ++ family) = true →
      ∀ e ∈ (buildPrefixedEnv Γ values ("TUMULT_" ++ family) separator).1,
        ∃ rest, e.1 = "TUMULT_" ++ rest ∧ UpperName rest ∧ isValidEnvIdentifier rest = true := by
    intro family separator values hvalid hlower hp e he
    have hexports : ExportsKeys Γ _ separator values _ := buildPrefixedEnv_exports hp values
    obtain ⟨exported, henv, -, -⟩ := hexports.exported
    have hname := hexports.valid e he
    rw [henv] at he
    obtain ⟨d, -, rfl⟩ := List.mem_map.mp he
    have hchars := isValidEnvIdentifier_toList hname
    simp only [String.toList_append, List.forall_mem_append] at hchars
    refine ⟨family ++ variableName Γ separator d.1, by rw [String.append_assoc], ?_,
      isValidEnvIdentifier_append_chars hvalid hchars.2⟩
    rw [UpperName, String.toList_append, List.forall_mem_append]
    refine ⟨fun c hc => ⟨hchars.1.2 c hc, ?_⟩, fun c hc => ⟨hchars.2 c hc, variableName_not_lower hcase separator d.1 c hc⟩⟩
    simpa using List.all_eq_true.mp hlower c hc
  intro e he
  rcases List.mem_append.mp he with he | he
  · exact hfamily "CONFIG_" none config (by decide) (by decide) (by decide) e he
  · exact hfamily "SECRET_" (some '.') secrets (by decide) (by decide) (by decide) e he

theorem stripPrefix_append (p rest : String) : stripPrefix p (p ++ rest) = some rest := by
  rw [stripPrefix, String.toList_append, if_pos (List.isPrefixOf_iff_prefix.mpr (List.prefix_append _ _)), ← String.length_toList,
    List.drop_left, String.ofList_toList]

/-! ## The merged arguments -/

theorem names_scriptArguments (arguments : List (String × ArgumentValue)) :
    (scriptArguments arguments).map (fun e => Γ.toUppercase e.1) = arguments.map fun e => Γ.toUppercase e.1 := by
  rw [scriptArguments, List.map_map]
  rfl

theorem mem_variables {arguments : List (String × ArgumentValue)} {x : String × String} :
    x ∈ (scriptArguments arguments).map (argumentVariable Γ) ↔
      ∃ e ∈ arguments, ("TUMULT_" ++ Γ.toUppercase e.1, argumentValueToString e.2) = x := by
  rw [scriptArguments, List.map_map, List.mem_map]
  rfl

theorem names_variables (arguments : List (String × ArgumentValue)) :
    ((scriptArguments arguments).map (argumentVariable Γ)).map Prod.fst =
      (arguments.map fun e => Γ.toUppercase e.1).map ("TUMULT_" ++ ·) := by
  rw [scriptArguments, List.map_map, List.map_map, List.map_map]
  rfl

section

variable (hcase : CaseLaws Γ.toUppercase toLowercase) {injectedEnv : StringMap} {declared : List (String × ArgumentValue)}
  (hinjected : (injectedEnv.map Prod.fst).Nodup)
  (hnames : ∀ e ∈ injectedEnv, ∃ rest, e.1 = "TUMULT_" ++ rest ∧ UpperName rest ∧ isValidEnvIdentifier rest = true)
  (hdeclared : (declared.map Prod.fst).Nodup)

include hcase hinjected hnames hdeclared

/-- The merged arguments are those that are declared, and those of the injected variables whose key is not. -/
theorem mem_mergedScriptArguments {key : String} {value : ArgumentValue} :
    (key, value) ∈ mergedScriptArguments toLowercase injectedEnv declared ↔ (key, value) ∈ declared ∨
      key ∉ declared.map Prod.fst ∧
        ∃ rest v, ("TUMULT_" ++ rest, v) ∈ injectedEnv ∧ key = toLowercase rest ∧ value = .string v := by
  have hkeys : ((injectedEnv.filterMap fun e =>
      (stripPrefix "TUMULT_" e.1).map fun rest => (toLowercase rest, ArgumentValue.string e.2)).map Prod.fst).Nodup := by
    refine List.pairwise_map.mpr (List.pairwise_filterMap.mpr ((List.pairwise_map.mp hinjected).imp_of_mem ?_))
    intro a b ha hb hab x hx y hy hxy
    obtain ⟨rest, hrest, hupper, -⟩ := hnames a ha
    obtain ⟨rest', hrest', hupper', -⟩ := hnames b hb
    rw [hrest, stripPrefix_append, Option.map_some, Option.some.injEq] at hx
    rw [hrest', stripPrefix_append, Option.map_some, Option.some.injEq] at hy
    subst hx hy
    have hsame : rest = rest' := by
      rw [← hcase.upper_lower hupper, ← hcase.upper_lower hupper']
      exact congrArg Γ.toUppercase hxy
    exact hab (hrest.trans (hsame ▸ hrest'.symm))
  rw [mergedScriptArguments, Keyed.mem_upsertAll_of_nodup hdeclared, Keyed.mem_upsertAll_of_nodup hkeys]
  refine or_congr_right (and_congr_right fun _ => ?_)
  simp only [List.not_mem_nil, and_false, or_false, List.mem_filterMap, Option.map_eq_some_iff, Prod.mk.injEq]
  constructor
  · rintro ⟨e, he, rest, hrest, rfl, rfl⟩
    obtain ⟨rest', hname, -⟩ := hnames e he
    rw [hname, stripPrefix_append, Option.some.injEq] at hrest
    exact ⟨rest, e.2, hrest ▸ hname ▸ he, rfl, rfl⟩
  · rintro ⟨rest, v, he, rfl, rfl⟩
    exact ⟨_, he, rest, stripPrefix_append _ _, rfl, rfl⟩

/-- Different keys of the merged arguments are different in upper case too, if injected names are declared in lower letters only. -/
theorem nodup_mergedScriptArguments (hnodup : (declared.map fun e => Γ.toUppercase e.1).Nodup)
    (hlower : ∀ e ∈ declared, "TUMULT_" ++ Γ.toUppercase e.1 ∈ injectedEnv.map Prod.fst → e.1 = toLowercase (Γ.toUppercase e.1)) :
    ((mergedScriptArguments toLowercase injectedEnv declared).map fun e => Γ.toUppercase e.1).Nodup := by
  have hkeys : ((mergedScriptArguments toLowercase injectedEnv declared).map Prod.fst).Nodup :=
    Keyed.nodup_upsertAll (Keyed.nodup_upsertAll List.nodup_nil)
  -- a declared argument whose variable is injected has the key of the injected argument
  have hcross : ∀ e ∈ declared, ∀ key value, key ∉ declared.map Prod.fst →
      (∃ rest v, ("TUMULT_" ++ rest, v) ∈ injectedEnv ∧ key = toLowercase rest ∧ value = ArgumentValue.string v) →
        Γ.toUppercase e.1 ≠ Γ.toUppercase key := by
    rintro e he key value hkey ⟨rest, v, hrest, rfl, -⟩ hsame
    obtain ⟨rest', hname, hupper, -⟩ := hnames _ hrest
    obtain rfl := tumult_injective hname
    rw [hcase.upper_lower hupper] at hsame
    have hdecl := hlower e he (hsame ▸ List.mem_map_of_mem hrest)
    rw [hsame] at hdecl
    exact hkey (hdecl ▸ List.mem_map_of_mem he)
  refine List.Nodup.map_on ?_ (List.Nodup.of_map _ hkeys)
  rintro ⟨k, v⟩ hx ⟨k', v'⟩ hy hsame
  rw [mem_mergedScriptArguments hcase hinjected hnames hdeclared] at hx hy
  rcases hx with hx | ⟨hx, hx'⟩ <;> rcases hy with hy | ⟨hy, hy'⟩
  · exact List.inj_on_of_nodup_map hnodup hx hy hsame
  · exact absurd hsame (hcross _ hx _ _ hy hy')
  · exact absurd hsame.symm (hcross _ hy _ _ hx hx')
  · obtain ⟨rest, w, hrest, rfl, rfl⟩ := hx'
    obtain ⟨rest', w', hrest', rfl, rfl⟩ := hy'
    obtain ⟨_, hname, hupper, -⟩ := hnames _ hrest
    obtain rfl := tumult_injective hname
    obtain ⟨_, hname', hupper', -⟩ := hnames _ hrest'
    obtain rfl := tumult_injective hname'
    simp only [hcase.upper_lower hupper, hcase.upper_lower hupper'] at hsame
    subst hsame
    have hvalue := List.inj_on_of_nodup_map hinjected hrest hrest' rfl
    rw [(Prod.mk.inj hvalue).2]

/-- The variables of the merged arguments are those of the declared ones, and the injected ones of other names. -/
theorem mem_mergedVariables (hlower : ∀ e ∈ declared, "TUMULT_" ++ Γ.toUppercase e.1 ∈ injectedEnv.map Prod.fst →
    e.1 = toLowercase (Γ.toUppercase e.1)) {e : String × String} :
    e ∈ (scriptArguments (mergedScriptArguments toLowercase injectedEnv declared)).map (argumentVariable Γ) ↔
      e ∈ (scriptArguments declared).map (argumentVariable Γ) ∨
        e.1 ∉ ((scriptArguments declared).map (argumentVariable Γ)).map Prod.fst ∧ e ∈ injectedEnv := by
  have hname : ∀ name, name ∈ ((scriptArguments declared).map (argumentVariable Γ)).map Prod.fst ↔
      ∃ d ∈ declared, "TUMULT_" ++ Γ.toUppercase d.1 = name := by
    intro name
    rw [names_variables, List.map_map, List.mem_map]
    rfl
  rw [mem_variables, mem_variables, hname]
  constructor
  · rintro ⟨⟨k, w⟩, hx, rfl⟩
    rcases (mem_mergedScriptArguments hcase hinjected hnames hdeclared).mp hx with hx | ⟨hk, rest, v, hrest, rfl, rfl⟩
    · exact .inl ⟨_, hx, rfl⟩
    · obtain ⟨_, hsame, hupper, -⟩ := hnames _ hrest
      obtain rfl := tumult_injective hsame
      simp only [hcase.upper_lower hupper]
      refine .inr ⟨?_, hrest⟩
      rintro ⟨d, hd, hdname⟩
      have hkey := hlower d hd (hdname ▸ List.mem_map_of_mem hrest)
      rw [tumult_injective hdname] at hkey
      exact hk (hkey ▸ List.mem_map_of_mem hd)
  · rintro (⟨d, hd, rfl⟩ | ⟨hnone, he⟩)
    · exact ⟨d, (mem_mergedScriptArguments hcase hinjected hnames hdeclared).mpr (.inl hd), rfl⟩
    · obtain ⟨rest, hrest, hupper, -⟩ := hnames e he
      obtain ⟨_, v⟩ := e
      subst hrest
      have hkey : toLowercase rest ∉ declared.map Prod.fst := by
        intro hmem
        obtain ⟨d, hd, hdkey⟩ := List.mem_map.mp hmem
        exact hnone ⟨d, hd, by rw [hdkey, hcase.upper_lower hupper]⟩
      refine ⟨_, (mem_mergedScriptArguments hcase hinjected hnames hdeclared).mpr (.inr ⟨hkey, rest, v, he, rfl, rfl⟩), ?_⟩
      rw [hcase.upper_lower hupper]
      rfl

end

/-- The merged arguments of a script are accepted, and are the variables of a process with the same names, exactly if no argument
is declared under an injected name in other letters than lower ones. -/
theorem script_arguments_override_iff (hcase : CaseLaws Γ.toUppercase toLowercase) (config secrets : StringMap)
    (declared : List (String × ArgumentValue)) (hdeclared : (declared.map Prod.fst).Nodup) {env : StringMap}
    (haccepted : buildEnvVars Γ (scriptArguments declared) = .ok env) :
    (∀ order, order.Perm (scriptArguments (mergedScriptArguments toLowercase (buildConfigEnv Γ config ++ buildSecretEnv Γ secrets)
        declared)) →
      ∃ merged, buildEnvVars Γ order = .ok merged ∧
        merged.Perm (mergedProcessEnv (buildConfigEnv Γ config ++ buildSecretEnv Γ secrets) env)) ↔
      ∀ e ∈ declared, "TUMULT_" ++ Γ.toUppercase e.1 ∈ (buildConfigEnv Γ config ++ buildSecretEnv Γ secrets).map Prod.fst →
        e.1 = toLowercase (Γ.toUppercase e.1) := by
  have hinjected := injectedEnv_nodup (Γ := Γ) config secrets
  have hnames := injected_name hcase config secrets
  generalize buildConfigEnv Γ config ++ buildSecretEnv Γ secrets = injectedEnv at *
  obtain ⟨hvalid, hnodup, rfl⟩ := buildEnvVars_ok.mp haccepted
  rw [names_scriptArguments] at hnodup
  constructor
  · intro h e he hname
    obtain ⟨merged, hmerged, -⟩ := h _ (List.Perm.refl _)
    obtain ⟨-, hdistinct, -⟩ := buildEnvVars_ok.mp hmerged
    rw [names_scriptArguments] at hdistinct
    obtain ⟨⟨_, v⟩, hrest, rfl⟩ := List.mem_map.mp hname
    obtain ⟨_, hname, hupper, -⟩ := hnames _ hrest
    obtain rfl := tumult_injective hname
    have hback := hcase.upper_lower hupper
    by_cases hkey : toLowercase (Γ.toUppercase e.1) ∈ declared.map Prod.fst
    · obtain ⟨d, hd, hdkey⟩ := List.mem_map.mp hkey
      rw [← hdkey, List.inj_on_of_nodup_map hnodup he hd (by rw [hdkey, hback])]
    · have hown := (mem_mergedScriptArguments hcase hinjected hnames hdeclared).mpr (.inr ⟨hkey, _, v, hrest, rfl, rfl⟩)
      have hdecl := (mem_mergedScriptArguments hcase hinjected hnames hdeclared).mpr (.inl he)
      exact congrArg Prod.fst (List.inj_on_of_nodup_map hdistinct hdecl hown (by rw [hback]))
  · intro hlower order hperm
    have hdistinct := nodup_mergedScriptArguments hcase hinjected hnames hdeclared hnodup hlower
    have hmerged : buildEnvVars Γ order = .ok (order.map (argumentVariable Γ)) := by
      refine buildEnvVars_ok.mpr ⟨fun e he => ?_, ?_, rfl⟩
      · obtain ⟨⟨k, w⟩, hx, rfl⟩ := List.mem_map.mp (hperm.subset he)
        rcases (mem_mergedScriptArguments hcase hinjected hnames hdeclared).mp hx with hx | ⟨-, rest, v, hrest, rfl, -⟩
        · exact hvalid _ (List.mem_map_of_mem hx)
        · obtain ⟨_, hsame, hupper, hrestValid⟩ := hnames _ hrest
          obtain rfl := tumult_injective hsame
          rw [hcase.upper_lower hupper]
          exact hrestValid
      · rw [(hperm.map _).nodup_iff, names_scriptArguments]
        exact hdistinct
    refine ⟨_, hmerged, ?_⟩
    have hnames' : ∀ names : List String, names.Nodup → (names.map ("TUMULT_" ++ ·)).Nodup := fun _ h =>
      h.map fun _ _ hab => tumult_injective hab
    have hmergedNames := hnames' _ hdistinct
    have hdeclaredNames := hnames' _ hnodup
    rw [← names_variables] at hmergedNames hdeclaredNames
    have hprocess : ((mergedProcessEnv injectedEnv ((scriptArguments declared).map (argumentVariable Γ))).map Prod.fst).Nodup :=
      Keyed.nodup_upsertAll hinjected
    refine (hperm.map (argumentVariable Γ)).trans ((Keyed.perm_of_nodup hmergedNames hprocess).mpr fun e => ?_)
    rw [mem_mergedVariables hcase hinjected hnames hdeclared hlower, mergedProcessEnv,
      Keyed.mem_upsertAll_of_nodup hdeclaredNames]

/-! ## Samples -/

/-- Conversions of case that know ASCII only. -/
def asciiCtx : TemplateCtx := { textCtx with toUppercase := fun s => String.ofList (s.toList.map Char.toUpper) }

def asciiLower (s : String) : String := String.ofList (s.toList.map Char.toLower)

theorem toUpper_not_lower (c : Char) : c.toUpper.isLower = false := by
  by_cases hc : c.val < 128
  · have hall : ∀ n < 128, (Char.ofNat n).toUpper.isLower = false := by decide +kernel
    have hchar := hall c.toNat hc
    rwa [Char.ofNat_toNat] at hchar
  · have hz : ¬ c.val ≤ 'z'.val := fun hle => hc (UInt32.lt_of_le_of_lt hle (by decide))
    rw [Char.toUpper, dif_neg fun hrange => hz hrange.2]
    simp only [Char.isLower, hz, decide_false, Bool.and_false]

theorem asciiLaws : CaseLaws asciiCtx.toUppercase asciiLower where
  upper_ascii _ _ := rfl
  lower_ascii _ _ := rfl
  upper_not_lower s c hc := by
    obtain ⟨d, -, rfl⟩ := List.mem_map.mp (String.toList_ofList ▸ hc)
    exact toUpper_not_lower d

/-- A host that is declared as the configuration names it. -/
theorem script_arguments_override_host :
    (∀ order, order.Perm (scriptArguments (mergedScriptArguments asciiLower
        (buildConfigEnv asciiCtx [("db_host", "db.internal")] ++ buildSecretEnv asciiCtx [])
        [("config_db_host", .string "declared")])) →
      ∃ merged, buildEnvVars asciiCtx order = .ok merged ∧
        merged.Perm (mergedProcessEnv (buildConfigEnv asciiCtx [("db_host", "db.internal")] ++ buildSecretEnv asciiCtx [])
          [("TUMULT_CONFIG_DB_HOST", "declared")])) ↔
      ∀ e ∈ [("config_db_host", ArgumentValue.string "declared")],
        "TUMULT_" ++ asciiCtx.toUppercase e.1 ∈
            (buildConfigEnv asciiCtx [("db_host", "db.internal")] ++ buildSecretEnv asciiCtx []).map Prod.fst →
          e.1 = asciiLower (asciiCtx.toUppercase e.1) :=
  script_arguments_override_iff asciiLaws [("db_host", "db.internal")] [] [("config_db_host", .string "declared")] (by decide) rfl

/-- The same host declared in capital letters: the script's arguments are in conflict. -/
theorem script_arguments_capital_false :
    ¬ ∀ (Γ : TemplateCtx) (toLowercase : String → String), CaseLaws Γ.toUppercase toLowercase →
      ∀ (config secrets : StringMap) (declared : List (String × ArgumentValue)) (env : StringMap), (declared.map Prod.fst).Nodup →
        buildEnvVars Γ (scriptArguments declared) = .ok env →
        ∀ order, order.Perm (scriptArguments (mergedScriptArguments toLowercase
            (buildConfigEnv Γ config ++ buildSecretEnv Γ secrets) declared)) →
          ∃ merged, buildEnvVars Γ order = .ok merged ∧
            merged.Perm (mergedProcessEnv (buildConfigEnv Γ config ++ buildSecretEnv Γ secrets) env) := by
  intro h
  obtain ⟨merged, hmerged, -⟩ := h asciiCtx asciiLower asciiLaws [("db_host", "db.internal")] []
    [("CONFIG_DB_HOST", .string "declared")] [("TUMULT_CONFIG_DB_HOST", "declared")] (by decide) rfl _ (List.Perm.refl _)
  have hconflict : buildEnvVars asciiCtx (scriptArguments (mergedScriptArguments asciiLower
      (buildConfigEnv asciiCtx [("db_host", "db.internal")] ++ buildSecretEnv asciiCtx [])
        [("CONFIG_DB_HOST", .string "declared")])) =
      .error (.conflictingArgumentNames "config_db_host" "CONFIG_DB_HOST" "CONFIG_DB_HOST") := by rfl
  rw [hconflict] at hmerged
  cases hmerged

end Tumult
