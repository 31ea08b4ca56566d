import Tumult.Core.Template

/-!
# The exported environment

`build_prefixed_env` splits the keys of a map in two: those it exports, under names of their own, and those it skips. The names are
valid identifiers, and those of the configuration and of the secrets differ in their prefix.
-/

namespace Tumult

variable (Γ : TemplateCtx)

/-- The name of a key behind the prefix. -/
def variableName (separator : Option Char) (key : String) : String :=
  match separator with
  | some sep => String.ofList ((Γ.toUppercase key).toList.map fun c => if c = sep then '_' else c)
  | none => Γ.toUppercase key

/-- What an environment owes to the keys of a map: every key is exported once or listed among those skipped, under a valid name that
no other key has. -/
structure ExportsKeys (p : String) (separator : Option Char) (values : StringMap) (result : StringMap × List String) : Prop where
  /-- The entries exported, with those skipped, are the entries of the map. -/
  exported : ∃ exported : StringMap, result.1 = exported.map (fun e => (p ++ variableName Γ separator e.1, e.2)) ∧
    (exported.map (·.1) ++ result.2).Perm (values.map (·.1)) ∧ exported ⊆ values
  valid : ∀ e ∈ result.1, isValidEnvIdentifier e.1 = true
  nodup : (result.1.map (·.1)).Nodup

/-! ## Identifiers -/

/-- A character of a name, other than the first. -/
def isNameChar (c : Char) : Bool := c.isAlphanum || c = '_'

theorem isValidEnvIdentifier_toList {name : String} (h : isValidEnvIdentifier name = true) :
    ∀ c ∈ name.toList, isNameChar c = true := by
  unfold isValidEnvIdentifier at h
  split at h
  · cases h
  · rename_i first rest hname
    rw [hname]
    simp only [Bool.and_eq_true, Bool.or_eq_true, decide_eq_true_eq, List.all_eq_true] at h
    refine List.forall_mem_cons.mpr ⟨?_, fun c hc => ?_⟩
    · rcases h.1 with halpha | hunder
      · simp [isNameChar, Char.isAlphanum, halpha]
      · simp [isNameChar, hunder]
    · simpa [isNameChar] using h.2 c hc

/-- Characters of a name behind a valid prefix make a valid name. -/
theorem isValidEnvIdentifier_append_chars {p name : String} (hp : isValidEnvIdentifier p = true)
    (hchars : ∀ c ∈ name.toList, isNameChar c = true) : isValidEnvIdentifier (p ++ name) = true := by
  unfold isValidEnvIdentifier at hp ⊢
  rw [String.toList_append]
  split at hp
  · cases hp
  · rename_i first rest hfirst
    simp only [Bool.and_eq_true, List.all_eq_true] at hp
    rw [hfirst, List.cons_append]
    simp only [Bool.and_eq_true, List.all_append, List.all_eq_true]
    exact ⟨hp.1, hp.2, fun c hc => hchars c hc⟩

/-- A valid name behind a valid prefix is valid. -/
theorem isValidEnvIdentifier_append {p name : String} (hp : isValidEnvIdentifier p = true)
    (hname : isValidEnvIdentifier name = true) : isValidEnvIdentifier (p ++ name) = true :=
  isValidEnvIdentifier_append_chars hp (isValidEnvIdentifier_toList hname)

/-! ## The pass over the keys -/

/-- One key: exported when its name is valid and not taken, else skipped. -/
def exportKey (p : String) (separator : Option Char) (acc : StringMap × List String) (e : String × String) :
    StringMap × List String :=
  if isValidEnvIdentifier (variableName Γ separator e.1) && (acc.1.lookup (p ++ variableName Γ separator e.1)).isNone then
    (acc.1 ++ [(p ++ variableName Γ separator e.1, e.2)], acc.2)
  else (acc.1, acc.2 ++ [e.1])

theorem buildPrefixedEnv_eq (values : StringMap) (p : String) (separator : Option Char) :
    buildPrefixedEnv Γ values p separator =
      (values.insertionSort fun a b => a.1 ≤ b.1).foldl (exportKey Γ p separator) ([], []) := by
  unfold buildPrefixedEnv
  congr 1

/-- What holds of the empty list and goes on with one more item holds of a fold (induction on the list, from the last). -/
theorem foldl_keeps {α β : Type} {P : β → List α → Prop} {f : β → α → β} {b : β} (hnil : P b [])
    (hstep : ∀ b done a, P b done → P (f b a) (done ++ [a])) (l : List α) : P (l.foldl f b) l := by
  induction l using List.reverseRecOn with
  | nil => exact hnil
  | append_singleton l a ih =>
    rw [List.foldl_append]
    exact hstep _ _ _ ih

variable {Γ} {p : String} {separator : Option Char}

theorem lookup_isNone {m : StringMap} {name : String} : (m.lookup name).isNone = true ↔ name ∉ m.map (·.1) := by
  induction m with
  | nil => simp
  | cons e m ih =>
    rw [List.lookup_cons]
    by_cases hname : name = e.1
    · simp [hname]
    · rw [beq_false_of_ne hname]
      simpa [hname] using ih

/-- Step lemma: one more key is exported under a name of its own, or skipped. -/
theorem ExportsKeys.exportKey (hp : isValidEnvIdentifier p = true) {values : StringMap} {acc : StringMap × List String}
    (h : ExportsKeys Γ p separator values acc) (e : String × String) :
    ExportsKeys Γ p separator (values ++ [e]) (exportKey Γ p separator acc e) := by
  obtain ⟨exported, henv, hperm, hsub⟩ := h.exported
  unfold Tumult.exportKey
  split
  · rename_i hnew
    simp only [Bool.and_eq_true, lookup_isNone] at hnew
    refine ⟨⟨exported ++ [e], ?_, ?_, ?_⟩, ?_, ?_⟩
    · simp [henv]
    · have hmove : (exported.map (·.1) ++ [e.1] ++ acc.2).Perm (exported.map (·.1) ++ acc.2 ++ [e.1]) := by
        rw [List.append_assoc, List.append_assoc]
        exact List.perm_append_comm.append_left _
      simpa using hmove.trans (hperm.append_right [e.1])
    · intro e' he'
      rcases List.mem_append.mp he' with he' | he'
      · exact List.mem_append_left _ (hsub he')
      · exact List.mem_append_right _ he'
    · exact List.forall_mem_append.mpr ⟨h.valid, List.forall_mem_singleton.mpr (isValidEnvIdentifier_append hp hnew.1)⟩
    · rw [List.map_append]
      exact h.nodup.append (by simp) (by simpa using hnew.2)
  · refine ⟨⟨exported, henv, ?_, fun e' he' => List.mem_append_left _ (hsub he')⟩, h.valid, h.nodup⟩
    simpa using hperm.append_right [e.1]

/-- The pass keeps what it owes, for the keys in the order it reads them. -/
theorem exportsKeys_foldl (hp : isValidEnvIdentifier p = true) (values : StringMap) :
    ExportsKeys Γ p separator values (values.foldl (exportKey Γ p separator) ([], [])) :=
  foldl_keeps (P := fun acc values => ExportsKeys Γ p separator values acc) ⟨⟨[], rfl, by simp, by simp⟩, by simp, by simp⟩
    (fun _ _ e h => h.exportKey hp e) values

theorem buildPrefixedEnv_exports (hp : isValidEnvIdentifier p = true) (values : StringMap) :
    ExportsKeys Γ p separator values (buildPrefixedEnv Γ values p separator) := by
  rw [buildPrefixedEnv_eq]
  have hsorted : ExportsKeys Γ p separator (values.insertionSort fun a b => a.1 ≤ b.1) _ := exportsKeys_foldl hp _
  have hsame := List.perm_insertionSort (fun a b : String × String => a.1 ≤ b.1) values
  obtain ⟨exported, henv, hperm, hsub⟩ := hsorted.exported
  exact ⟨⟨exported, henv, hperm.trans (hsame.map _), fun e he => hsame.subset (hsub he)⟩, hsorted.valid, hsorted.nodup⟩

/-- Maps with the same entries, each key once, are sorted alike. -/
theorem insertionSort_eq_of_perm {values values' : StringMap} (hnodup : (values.map (·.1)).Nodup) (h : values'.Perm values) :
    (values'.insertionSort fun a b => a.1 ≤ b.1) = values.insertionSort fun a b => a.1 ≤ b.1 := by
  have hperm : (values'.insertionSort fun a b => a.1 ≤ b.1).Perm (values.insertionSort fun a b => a.1 ≤ b.1) :=
    ((List.perm_insertionSort _ _).trans h).trans (List.perm_insertionSort _ _).symm
  refine hperm.eq_of_pairwise ?_ (List.pairwise_insertionSort _ _) (List.pairwise_insertionSort _ _)
  intro a b ha hb hab hba
  have hkeys : a.1 = b.1 := le_antisymm hab hba
  have hmem : a ∈ values := h.subset ((List.perm_insertionSort _ _).subset ha)
  have hmem' : b ∈ values := (List.perm_insertionSort _ _).subset hb
  exact List.inj_on_of_nodup_map hnodup hmem hmem' hkeys

/-! ## Names of the two families -/

/-- The names of the configuration are none of the secrets'. -/
theorem prefixes_disjoint (a b : String) : "TUMULT_CONFIG_" ++ a ≠ "TUMULT_SECRET_" ++ b := by
  intro h
  have hlist := congrArg String.toList h
  rw [String.toList_append, String.toList_append] at hlist
  have hprefixes := (List.append_inj hlist (by decide)).1
  exact absurd hprefixes (by decide)

/-! ## Flattened secrets -/

/-- The names of the configuration and of the secrets differ. -/
theorem injectedEnv_nodup (config secrets : StringMap) :
    ((buildConfigEnv Γ config ++ buildSecretEnv Γ secrets).map (·.1)).Nodup := by
  have hc : ExportsKeys Γ "TUMULT_CONFIG_" none config (buildPrefixedEnv Γ config "TUMULT_CONFIG_" none) :=
    buildPrefixedEnv_exports (by decide) config
  have hs : ExportsKeys Γ "TUMULT_SECRET_" (some '.') secrets (buildPrefixedEnv Γ secrets "TUMULT_SECRET_" (some '.')) :=
    buildPrefixedEnv_exports (by decide) secrets
  obtain ⟨exportedConfig, hcenv, _, _⟩ := hc.exported
  obtain ⟨exportedSecrets, hsenv, _, _⟩ := hs.exported
  rw [List.map_append]
  refine hc.nodup.append hs.nodup ?_
  intro name hname hname'
  simp only [buildSecretEnv, hcenv, hsenv, List.map_map, List.mem_map, Function.comp_apply] at hname hname'
  obtain ⟨e, _, rfl⟩ := hname
  obtain ⟨e', _, hsame⟩ := hname'
  exact prefixes_disjoint _ _ hsame.symm

theorem StringMap.mem_keys_insert (m : StringMap) (key value k : String) :
    k ∈ (m.insert key value).map (·.1) ↔ k = key ∨ k ∈ m.map (·.1) := by
  unfold StringMap.insert
  split
  · rename_i hany
    have hkeys : (m.map fun e => if e.1 = key then (key, value) else e).map (·.1) = m.map (·.1) := by
      rw [List.map_map]
      refine List.map_congr_left fun e _ => ?_
      by_cases he : e.1 = key <;> simp [he]
    rw [hkeys]
    refine ⟨Or.inr, ?_⟩
    rintro (rfl | hk)
    · simpa using hany
    · exact hk
  · rw [List.map_append, List.mem_append]
    simp [or_comm]

theorem StringMap.nodup_insert {m : StringMap} (h : (m.map (·.1)).Nodup) (key value : String) :
    ((m.insert key value).map (·.1)).Nodup := by
  unfold StringMap.insert
  split
  · have hkeys : (m.map fun e => if e.1 = key then (key, value) else e).map (·.1) = m.map (·.1) := by
      rw [List.map_map]
      refine List.map_congr_left fun e _ => ?_
      by_cases he : e.1 = key <;> simp [he]
    rwa [hkeys]
  · rename_i hany
    rw [List.map_append]
    exact h.append (by simp) (by simpa using hany)

/-- The flattened secrets hold the keys of every group, each once. -/
theorem flattenSecrets_keys (secrets : List (String × StringMap)) :
    ((flattenSecrets secrets).map (·.1)).Nodup ∧
      ∀ group ∈ secrets, ∀ e ∈ group.2, group.1 ++ "." ++ e.1 ∈ (flattenSecrets secrets).map (·.1) := by
  unfold flattenSecrets
  refine foldl_keeps (P := fun (flat : StringMap) (secrets : List (String × StringMap)) => (flat.map (·.1)).Nodup ∧
    ∀ group ∈ secrets, ∀ e ∈ group.2, group.1 ++ "." ++ e.1 ∈ flat.map (·.1)) (by simp) ?_ secrets
  rintro flat done group ⟨hnodup, hdone⟩
  have hinner := foldl_keeps (P := fun (acc : StringMap) (entries : StringMap) => (acc.map (·.1)).Nodup ∧
      (∀ k ∈ flat.map (·.1), k ∈ acc.map (·.1)) ∧ ∀ e ∈ entries, group.1 ++ "." ++ e.1 ∈ acc.map (·.1))
    (f := fun flat e => flat.insert (group.1 ++ "." ++ e.1) e.2) ⟨hnodup, fun _ hk => hk, by simp⟩
    (fun acc entries e ⟨hacc, hflat, hentries⟩ => by
      refine ⟨acc.nodup_insert hacc _ _, fun k hk => (acc.mem_keys_insert _ _ _).mpr (Or.inr (hflat k hk)), ?_⟩
      intro e' he'
      rw [StringMap.mem_keys_insert]
      rcases List.mem_append.mp he' with he' | he'
      · exact Or.inr (hentries e' he')
      · rw [List.mem_singleton.mp he']
        exact Or.inl rfl) group.2
  refine ⟨hinner.1, fun group' hgroup' e he => ?_⟩
  rcases List.mem_append.mp hgroup' with hgroup' | hgroup'
  · exact hinner.2.1 _ (hdone group' hgroup' e he)
  · obtain rfl := List.mem_singleton.mp hgroup'
    exact hinner.2.2 e he

/-! ## The theorem -/

end Tumult
