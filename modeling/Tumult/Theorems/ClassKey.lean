import Tumult.Autopilot.Engine

/-!
# Which fault classes have a key of their own

The key of a fault class joins its plugin, its action and its tier with separators that all of them may hold, and a class without a
tier has the key of the tier `-`. A class whose parts hold no separator keeps its key, and with it its history, for itself.
-/

namespace Tumult

/-- A fault class. -/
structure FaultClass where
  plugin : String
  action : String
  tier : Option String
  deriving DecidableEq, Repr

namespace FaultClass

/-- The key of the class. -/
def key (cls : FaultClass) : String := classKey cls.plugin cls.action cls.tier

/-- The parts hold nothing that could be taken for a separator, and the tier is one. -/
structure Plain (cls : FaultClass) : Prop where
  plugin : ¬ [':', ':'] <:+: cls.plugin.toList
  pluginEnd : ¬ [':'] <:+ cls.plugin.toList
  action : ¬ [':', ':'] <:+: cls.action.toList
  actionStart : ¬ [':'] <+: cls.action.toList
  actionAt : '@' ∉ cls.action.toList
  tier : ∃ tier, cls.tier = some tier ∧ tier ≠ "-" ∧ '@' ∉ tier.toList

theorem key_toList (cls : FaultClass) :
    cls.key.toList = cls.plugin.toList ++ [':', ':'] ++ cls.action.toList ++ ['@'] ++ (cls.tier.getD "-").toList := by
  simp [key, classKey, String.toList_append]

end FaultClass

/-- The class of a decision. -/
def DecisionRecord.faultClass (d : DecisionRecord) : FaultClass := ⟨d.plugin, d.action, d.tier⟩

/-- The enacted decisions of the class itself. -/
def PilotStore.enactedOf (st : PilotStore) (cls : FaultClass) : List DecisionRecord :=
  st.decisions.rows.filter fun d => d.verdict = .enact && d.faultClass = cls

/-- The history that a class earned. -/
def PilotStore.earnedHistory (st : PilotStore) (cls : FaultClass) : Option AutonomyRecord :=
  if (st.enactedOf cls).isEmpty then none
  else some
    { enactedTotal := (st.enactedOf cls).length
      enactedClean := (st.enactedOf cls).countP fun d => st.lastEvent d.id = some .runCompleted }

/-- No other class has the key, and the history looked up under it is what the class earned. -/
structure Unmixed (cls : FaultClass) : Prop where
  key : ∀ cls' : FaultClass, cls'.key = cls.key → cls' = cls
  history : ∀ st : PilotStore, (autopilotClassHistory st).lookup cls.key = st.earnedHistory cls

/-! ## Cutting at the separators -/

section Cuts

variable {p a x y : List Char}

/-- A text with one separator is cut at it. -/
theorem cut_at_separator (hp : ¬ [':', ':'] <:+: p) (hpe : ¬ [':'] <:+ p) (ha : ¬ [':', ':'] <:+: a) (has : ¬ [':'] <+: a)
    (h : x ++ [':', ':'] ++ y = p ++ [':', ':'] ++ a) : x = p ∧ y = a := by
  rw [List.append_assoc, List.append_assoc, List.append_eq_append_iff] at h
  rcases h with ⟨r, hr, hrest⟩ | ⟨r, hr, hrest⟩
  · -- the cut is earlier: the plugin holds a separator, or ends in half of one
    match r, hrest with
    | [], hrest => exact ⟨by simpa using hr.symm, by simpa using hrest⟩
    | [c], hrest =>
      obtain ⟨rfl, _⟩ : ':' = c ∧ _ := by simpa using hrest
      exact absurd ⟨x, hr.symm⟩ hpe
    | c :: d :: r, hrest =>
      obtain ⟨rfl, rfl, _⟩ : ':' = c ∧ ':' = d ∧ _ := by simpa using hrest
      exact absurd ⟨x, r, by simpa using hr.symm⟩ hp
  · match r, hrest with
    | [], hrest => exact ⟨by simpa using hr, by simpa using hrest.symm⟩
    | [c], hrest =>
      obtain ⟨rfl, hy⟩ : ':' = c ∧ a = ':' :: y := by simpa using hrest
      exact absurd ⟨y, hy.symm⟩ has
    | c :: d :: r, hrest =>
      obtain ⟨rfl, rfl, hy⟩ : ':' = c ∧ ':' = d ∧ a = r ++ ':' :: ':' :: y := by simpa using hrest
      exact absurd ⟨r, y, by simpa using hy.symm⟩ ha

/-- A text whose last part holds no mark is cut before it at the last mark. -/
theorem cut_at_mark {c : Char} (ha : c ∉ a) (h : x ++ [c] ++ y = p ++ [c] ++ a) :
    (x = p ∧ y = a) ∨ ∃ r, p = x ++ [c] ++ r ∧ y = r ++ [c] ++ a := by
  rw [List.append_assoc, List.append_assoc, List.append_eq_append_iff] at h
  rcases h with ⟨r, hr, hrest⟩ | ⟨r, hr, hrest⟩
  · cases r with
    | nil => exact Or.inl ⟨by simpa using hr.symm, by simpa using hrest⟩
    | cons d r =>
      obtain ⟨rfl, hy⟩ : c = d ∧ y = r ++ c :: a := by simpa using hrest
      exact Or.inr ⟨r, by simpa using hr, by simpa using hy⟩
  · cases r with
    | nil => exact Or.inl ⟨by simpa using hr, by simpa using hrest.symm⟩
    | cons d r =>
      obtain ⟨rfl, hy⟩ : c = d ∧ a = r ++ c :: y := by simpa using hrest
      exact absurd (by simp [hy]) ha

end Cuts

/-! ## Classes with a key of their own -/

/-- A plain class is determined by its key. -/
theorem FaultClass.Plain.key_injective {cls cls' : FaultClass} (h : cls.Plain) (hkey : cls'.key = cls.key) : cls' = cls := by
  obtain ⟨tier, htier, hdash, hat⟩ := h.tier
  have htext := congrArg String.toList hkey
  rw [key_toList, key_toList, htier, Option.getD_some] at htext
  rcases cut_at_mark hat htext with ⟨hhead, htail⟩ | ⟨r, hhead, htail⟩
  · obtain ⟨hplugin, haction⟩ := cut_at_separator h.plugin h.pluginEnd h.action h.actionStart hhead
    have hgetD : cls'.tier.getD "-" = tier := String.toList_inj.mp htail
    have htier' : cls'.tier = some tier := by
      cases hcls' : cls'.tier with
      | none => exact absurd (by simpa [hcls'] using hgetD.symm) hdash
      | some t => simpa [hcls'] using hgetD
    cases cls
    cases cls'
    simp only [FaultClass.mk.injEq]
    exact ⟨String.toList_inj.mp hplugin, String.toList_inj.mp haction, htier'.trans htier.symm⟩
  · -- the mark of the other class is in this plugin, behind a separator there
    have hfirst : (cls'.plugin.toList ++ [':', ':'] ++ cls'.action.toList) ++ ['@'] ++ r =
        cls.plugin.toList ++ [':', ':'] ++ cls.action.toList := hhead.symm
    rw [List.append_assoc, List.append_assoc, List.append_assoc, ← List.append_assoc _ [':', ':']] at hfirst
    obtain ⟨_, haction⟩ := cut_at_separator h.plugin h.pluginEnd h.action h.actionStart hfirst
    exact absurd (by simp [← haction]) h.actionAt

/-- The class of a decision has the key of a plain class exactly when it is the class. -/
theorem FaultClass.Plain.faultClass_iff {cls : FaultClass} (h : cls.Plain) (d : DecisionRecord) :
    classKey d.plugin d.action d.tier = cls.key ↔ d.faultClass = cls :=
  ⟨fun hkey => h.key_injective hkey, fun heq => by rw [← heq]; rfl⟩

/-- What is looked up in a list of values by their keys. -/
theorem lookup_map_key {α β : Type} [DecidableEq α] (keys : List α) (f : α → β) (k : α) :
    (keys.map fun key => (key, f key)).lookup k = if k ∈ keys then some (f k) else none := by
  induction keys with
  | nil => rfl
  | cons key keys ih =>
    rw [List.map_cons, List.lookup_cons]
    by_cases hkey : k = key
    · simp [hkey]
    · rw [beq_false_of_ne hkey]
      simp [hkey, ih]

/-- The history under the key of a plain class is what the class earned. -/
theorem FaultClass.Plain.history {cls : FaultClass} (h : cls.Plain) (st : PilotStore) :
    (autopilotClassHistory st).lookup cls.key = st.earnedHistory cls := by
  have hsame : (st.decisions.rows.filter (·.verdict = .enact)).filter (fun d => classKey d.plugin d.action d.tier = cls.key) =
      st.enactedOf cls := by
    rw [List.filter_filter, PilotStore.enactedOf]
    refine List.filter_congr fun d _ => ?_
    simp only [h.faultClass_iff d, Bool.and_comm]
  have hmem : cls.key ∈ ((st.decisions.rows.filter (·.verdict = .enact)).map fun d => classKey d.plugin d.action d.tier).dedup ↔
      st.enactedOf cls ≠ [] := by
    rw [List.mem_dedup, List.mem_map, ← hsame, ne_eq, List.eq_nil_iff_forall_not_mem, not_forall_not]
    simp only [List.mem_filter, decide_eq_true_eq]
  unfold autopilotClassHistory
  simp only [lookup_map_key, hsame]
  by_cases hnone : st.enactedOf cls = []
  · rw [if_neg (by simpa [hnone] using hmem), PilotStore.earnedHistory, if_pos (by simp [hnone])]
  · rw [if_pos (hmem.mpr hnone), PilotStore.earnedHistory, if_neg (by simpa using hnone)]

/-! ## Classes without -/

/-- A class whose key another class has is not alone with it. -/
theorem Unmixed.absurd_of {cls : FaultClass} (h : Unmixed cls) (plugin action : List Char) (tier : Option String)
    (hkey : plugin ++ [':', ':'] ++ action ++ ['@'] ++ (tier.getD "-").toList = cls.key.toList)
    (hne : plugin ≠ cls.plugin.toList ∨ action ≠ cls.action.toList ∨ tier ≠ cls.tier) : False := by
  have hother := h.key ⟨String.ofList plugin, String.ofList action, tier⟩
    (String.toList_inj.mp (by rw [FaultClass.key_toList]; simpa using hkey))
  rcases hne with hne | hne | hne
  · exact hne (by rw [← hother, String.toList_ofList])
  · exact hne (by rw [← hother, String.toList_ofList])
  · exact hne (by rw [← hother])

/-- A list is not what is left of it when something is taken away. -/
theorem ne_append_of_ne_nil {α : Type} {x r l : List α} (h : x ++ r = l) (hr : r ≠ []) : x ≠ l := by
  rintro rfl
  exact hr (by simpa using h)

/-- A class that is alone with its key is plain: each part that held a separator would be cut there by another class. -/
theorem Unmixed.plain {cls : FaultClass} (h : Unmixed cls) : cls.Plain where
  plugin := by
    rintro ⟨x, y, hxy⟩
    refine h.absurd_of x (y ++ [':', ':'] ++ cls.action.toList) cls.tier ?_ (Or.inl ?_)
    · rw [FaultClass.key_toList, ← hxy]
      simp
    · exact ne_append_of_ne_nil (by rw [← hxy, List.append_assoc]) (by simp)
  pluginEnd := by
    rintro ⟨x, hx⟩
    refine h.absurd_of x (':' :: cls.action.toList) cls.tier ?_ (Or.inl ?_)
    · rw [FaultClass.key_toList, ← hx]
      simp
    · exact ne_append_of_ne_nil hx (by simp)
  action := by
    rintro ⟨x, y, hxy⟩
    refine h.absurd_of (cls.plugin.toList ++ [':', ':'] ++ x) y cls.tier ?_ (Or.inl ?_)
    · rw [FaultClass.key_toList, ← hxy]
      simp
    · simp
  actionStart := by
    rintro ⟨y, hy⟩
    refine h.absurd_of (cls.plugin.toList ++ [':']) y cls.tier ?_ (Or.inl ?_)
    · rw [FaultClass.key_toList, ← hy]
      simp
    · simp
  actionAt := by
    intro hat
    obtain ⟨x, y, hxy⟩ := List.append_of_mem hat
    refine h.absurd_of cls.plugin.toList x (some (String.ofList (y ++ ['@'] ++ (cls.tier.getD "-").toList))) ?_ (Or.inr (Or.inl ?_))
    · rw [FaultClass.key_toList, hxy]
      simp
    · exact ne_append_of_ne_nil hxy.symm (by simp)
  tier := by
    cases htier : cls.tier with
    | none =>
      refine absurd (h.absurd_of cls.plugin.toList cls.action.toList (some "-") ?_
        (Or.inr (Or.inr (by simp [htier])))) id
      simp [FaultClass.key_toList, htier]
    | some tier =>
      refine ⟨tier, rfl, ?_, ?_⟩
      · rintro rfl
        refine h.absurd_of cls.plugin.toList cls.action.toList none ?_
          (Or.inr (Or.inr (by simp [htier])))
        simp [FaultClass.key_toList, htier]
      · intro hat
        obtain ⟨x, y, hxy⟩ := List.append_of_mem hat
        refine h.absurd_of cls.plugin.toList (cls.action.toList ++ ['@'] ++ x) (some (String.ofList y)) ?_ (Or.inr (Or.inl ?_))
        · rw [FaultClass.key_toList, htier, Option.getD_some, Option.getD_some, hxy]
          simp
        · simp

/-! ## The theorem -/

/-- A fault class has its key and its history for itself exactly when no part of it can be taken for a separator. -/
theorem class_key_unmixed_iff (cls : FaultClass) : Unmixed cls ↔ cls.Plain :=
  ⟨Unmixed.plain, fun h => ⟨fun _ hkey => h.key_injective hkey, h.history⟩⟩

/-- A class without a tier has the key of the tier `-`. -/
theorem class_key_unmixed_false : ¬ ∀ cls cls' : FaultClass, cls.key = cls'.key → cls = cls' := by
  intro h
  have hsame := h ⟨"tumult-postgres", "kill-connections", none⟩ ⟨"tumult-postgres", "kill-connections", some "-"⟩ rfl
  exact absurd hsame (by decide)

end Tumult
