import Tumult.Lib.Mermaid
import Tumult.Graph.Render

/-!
# The map in Mermaid

The nodes of the map are named after its services, its causes and its recommendations. All names share one space, and services keep
only some characters of their ids in it: the graph that is drawn is the one of the view as long as the names keep the nodes apart.
-/

namespace Tumult.TopologyMap

open Mermaid (Statement Graph IsWord IsName)

variable {S : Type} (view : TopologyMapView S)

/-! ## The graph of a view -/

/-- What the map has a node for. -/
inductive Element where
  | service (id : String)
  | cause (id : String) (index : Nat)
  | recommendation (index : Nat)
  deriving DecidableEq, Repr

def Element.nodeId : Element → String
  | service id => sanitizeId id
  | cause id index => causeId (sanitizeId id) index
  | recommendation index => recId index

namespace TopologyMapView

def serviceIds : List String := view.services.map ServiceView.id

/-- A node for each service, each broken control and each recommendation. -/
def elements : List Element :=
  view.serviceIds.map .service ++ (view.services.flatMap fun s => (List.range s.broken.length).map (.cause s.id)) ++
    (List.range view.recommendations.length).map .recommendation

/-- The services that edges name. -/
def endpoints : List String :=
  (view.dependsOn.flatMap fun edge => [edge.1, edge.2]) ++ view.recommendations.map Recommend.Recommendation.serviceId

/-- What the text names: the elements, and the services that edges name. -/
def occurring : List Element := view.elements ++ view.endpoints.map .service

/-- A graph is that of the view. -/
structure Faithful (g : Graph) : Prop where
  /-- Different elements, and the services that edges name, have different nodes. -/
  distinct : Set.InjOn Element.nodeId {e | e ∈ view.occurring}
  nodes : g.nodes = (view.elements.map Element.nodeId).toFinset
  solid : g.solid = view.dependsOn.map fun edge => ((Element.service edge.1).nodeId, (Element.service edge.2).nodeId)
  /-- Each cause is at its service, and so is each recommendation. -/
  dashed : g.dashed =
    (view.services.flatMap fun s =>
      (List.range s.broken.length).map fun index => ((Element.cause s.id index).nodeId, (Element.service s.id).nodeId)) ++
      view.recommendations.zipIdx.map fun p => ((Element.recommendation p.2).nodeId, (Element.service p.1.serviceId).nodeId)
  classes : ∀ s ∈ view.services, g.classesOf (Element.service s.id).nodeId = [s.state.className]

/-- The ids of the services stay names, stay apart, and are no names of causes or recommendations; edges are among the services. -/
structure Apart : Prop where
  named : ∀ s ∈ view.serviceIds, IsName (sanitizeId s)
  closed : ∀ id ∈ view.endpoints, id ∈ view.serviceIds
  services : ∀ s ∈ view.serviceIds, ∀ t ∈ view.serviceIds, sanitizeId s = sanitizeId t → s = t
  causes : ∀ s ∈ view.serviceIds, ∀ t ∈ view.services, ∀ index < t.broken.length, sanitizeId s ≠ causeId (sanitizeId t.id) index
  recommendations : ∀ s ∈ view.serviceIds, ∀ index < view.recommendations.length, sanitizeId s ≠ recId index

end TopologyMapView

/-! ## The statements of the text -/

def serviceStatement (s : ServiceView) : Statement := .node (sanitizeId s.id) (escapeLabel s.label ++ " " ++ s.state.glyph)

def causeStatements (sid : String) (p : BrokenControl × Nat) : List Statement :=
  [.node (causeId sid p.2) (causeLabel p.1), .dashed (causeId sid p.2) sid]

def recStatements (p : Recommend.Recommendation S × Nat) : List Statement :=
  [.node (recId p.2) ("⚡ " ++ escapeLabel p.1.plugin ++ "::" ++ escapeLabel p.1.action ++ "<br/>for " ++ escapeLabel p.1.articleId),
    .dashed (recId p.2) (sanitizeId p.1.serviceId)]

def statements : List Statement :=
  view.services.map serviceStatement ++
    ((view.dependsOn.map fun edge => .solid (sanitizeId edge.1) (sanitizeId edge.2)) ++
      ((view.services.flatMap fun s => s.broken.zipIdx.flatMap (causeStatements (sanitizeId s.id))) ++
        (view.recommendations.zipIdx.flatMap recStatements ++
          (classDefs.map (fun p => .classDef p.1 p.2) ++
            ((view.services.map fun s => .assign (sanitizeId s.id) s.state.className) ++
              (List.range view.recommendations.length).map fun index => .assign (recId index) "recommended")))))

/-- Lines that render a list of statements each. -/
theorem join_lines {α : Type} {line : α → String} {f : α → List Statement}
    (h : ∀ x, line x = String.join ((f x).map Statement.render)) (xs : List α) :
    String.join (xs.map line) = String.join ((xs.flatMap f).map Statement.render) := by
  induction xs with
  | nil => rfl
  | cons x xs ih => rw [List.map_cons, String.join_cons, List.flatMap_cons, List.map_append, String.join_append, ih, h]

/-- Lines that render a statement each. -/
theorem join_line {α : Type} {line : α → String} {f : α → Statement} (h : ∀ x, line x = (f x).render) (xs : List α) :
    String.join (xs.map line) = String.join ((xs.map f).map Statement.render) := by
  rw [List.map_map, List.map_congr_left fun x _ => h x]
  rfl

theorem toMermaid_eq : toMermaid view = Mermaid.render (statements view) := by
  have hservice : ∀ s, serviceLine s = (serviceStatement s).render := fun _ => rfl
  have hdependency : ∀ edge, dependencyLine edge = (Statement.solid (sanitizeId edge.1) (sanitizeId edge.2)).render := fun _ => rfl
  have hdef : ∀ p, classDefLine p = (Statement.classDef p.1 p.2).render := fun _ => rfl
  have hclass : ∀ s, classLine s = (Statement.assign (sanitizeId s.id) s.state.className).render := fun _ => rfl
  have hrecClass : ∀ index, recClassLine index = (Statement.assign (recId index) "recommended").render := by
    intro index
    simp [recClassLine, Statement.render, String.append_assoc]
  have hcause : ∀ sid p, causeLines sid p = String.join ((causeStatements sid p).map Statement.render) := by
    intro sid p
    simp only [causeStatements, List.map_cons, List.map_nil, String.join_cons, String.join_nil, String.append_empty]
    rfl
  have hrec : ∀ p : Recommend.Recommendation S × Nat, recLines p = String.join ((recStatements p).map Statement.render) := by
    intro p
    simp only [recStatements, List.map_cons, List.map_nil, String.join_cons, String.join_nil, String.append_empty]
    rfl
  have hcauses : ∀ s : ServiceView, String.join (s.broken.zipIdx.map (causeLines (sanitizeId s.id))) =
      String.join ((s.broken.zipIdx.flatMap (causeStatements (sanitizeId s.id))).map Statement.render) :=
    fun s => join_lines (hcause _) _
  rw [Mermaid.render, statements]
  simp only [List.map_append, String.join_append]
  rw [toMermaid, join_line hservice, join_line hdependency, join_lines hcauses, join_lines hrec, join_line hdef, join_line hclass,
    join_line hrecClass, Mermaid.header]

/-! ## Names -/

theorem isWord_sanitizeId (id : String) : IsWord (sanitizeId id) := by
  intro c hc
  rw [sanitizeId, String.toList_ofList, List.mem_map] at hc
  obtain ⟨d, -, rfl⟩ := hc
  split
  · assumption
  · decide

theorem isDigit_of_mem_toString {n : Nat} {c : Char} (h : c ∈ (toString n).toList) : c.isDigit = true := by
  rw [Nat.toString_eq_ofList_toDigits, String.toList_ofList] at h
  exact Nat.isDigit_of_mem_toDigits (by decide) (by decide) h

theorem toString_injective {m n : Nat} (h : (toString m).toList = (toString n).toList) : m = n := by
  rw [Nat.toString_eq_ofList_toDigits, Nat.toString_eq_ofList_toDigits, String.toList_ofList, String.toList_ofList] at h
  rw [← Nat.ofDigitChars_ten_toDigits (n := m), h, Nat.ofDigitChars_ten_toDigits]

theorem isWord_toString (n : Nat) : IsWord (toString n) := by
  intro c hc
  simp [Mermaid.isIdChar, Char.isAlphanum, isDigit_of_mem_toString hc]

theorem IsWord.append {a b : String} (ha : IsWord a) (hb : IsWord b) : IsWord (a ++ b) := by
  intro c hc
  rw [String.toList_append, List.mem_append] at hc
  exact hc.elim (ha c) (hb c)

theorem isWord_causeId (sid : String) (hsid : IsWord sid) (index : Nat) : IsWord (causeId sid index) :=
  IsWord.append (IsWord.append (IsWord.append (List.all_eq_true.mp (by decide)) hsid) (List.all_eq_true.mp (by decide)))
    (isWord_toString index)

theorem isWord_recId (index : Nat) : IsWord (recId index) :=
  IsWord.append (List.all_eq_true.mp (by decide)) (isWord_toString index)

theorem Element.isWord : ∀ e : Element, IsWord e.nodeId
  | .service id => isWord_sanitizeId id
  | .cause id index => isWord_causeId _ (isWord_sanitizeId id) index
  | .recommendation index => isWord_recId index

/-- A name with an underscore is no keyword. -/
theorem isName_of_underscore {w : String} (h : '_' ∈ w.toList) : IsName w := by
  have hkeywords : Mermaid.keywords.all (fun k => !k.toList.contains '_') = true := by decide
  refine ⟨?_, fun hmem => ?_⟩
  · rintro rfl
    cases h
  · have hk := List.all_eq_true.mp hkeywords w hmem
    simp [h] at hk

theorem quote_not_mem_escapeLabel (label : String) : '"' ∉ (escapeLabel label).toList := by
  rw [escapeLabel, String.toList_ofList, List.mem_flatMap]
  rintro ⟨c, -, hc⟩
  split at hc
  · exact absurd hc (by decide)
  · exact absurd (List.mem_singleton.mp hc).symm ‹_›

theorem forall_fst_zipIdx {α : Type} {P : α → Prop} (xs : List α) : (∀ p ∈ xs.zipIdx, P p.1) ↔ ∀ x ∈ xs, P x := by
  have hfst := List.zipIdx_map_fst 0 xs
  rw [← List.forall_mem_map (f := Prod.fst) (P := P), hfst]

theorem forall_snd_zipIdx {α : Type} {P : Nat → Prop} (xs : List α) : (∀ p ∈ xs.zipIdx, P p.2) ↔ ∀ n < xs.length, P n := by
  have hsnd := List.zipIdx_map_snd 0 xs
  rw [← List.range_eq_range'] at hsnd
  rw [← List.forall_mem_map (f := Prod.snd) (P := P), hsnd]
  simp only [List.mem_range]

/-- What holds for each statement, kind by kind. -/
theorem forall_statements {P : Statement → Prop} : (∀ st ∈ statements view, P st) ↔
    (∀ s ∈ view.services, P (serviceStatement s)) ∧
      (∀ edge ∈ view.dependsOn, P (.solid (sanitizeId edge.1) (sanitizeId edge.2))) ∧
      (∀ s ∈ view.services, ∀ p ∈ s.broken.zipIdx, ∀ st ∈ causeStatements (sanitizeId s.id) p, P st) ∧
      (∀ p ∈ view.recommendations.zipIdx, ∀ st ∈ recStatements p, P st) ∧
      (∀ p ∈ classDefs, P (.classDef p.1 p.2)) ∧
      (∀ s ∈ view.services, P (.assign (sanitizeId s.id) s.state.className)) ∧
      ∀ index < view.recommendations.length, P (.assign (recId index) "recommended") := by
  simp only [statements, List.forall_mem_append, List.forall_mem_map, List.forall_mem_flatMap, List.mem_range]

theorem forall_occurring {Q : String → Prop} : (∀ e ∈ view.occurring, Q e.nodeId) ↔
    (∀ s ∈ view.services, Q (sanitizeId s.id)) ∧
      (∀ s ∈ view.services, ∀ index < s.broken.length, Q (causeId (sanitizeId s.id) index)) ∧
      (∀ index < view.recommendations.length, Q (recId index)) ∧
      (∀ edge ∈ view.dependsOn, Q (sanitizeId edge.1) ∧ Q (sanitizeId edge.2)) ∧
      ∀ r ∈ view.recommendations, Q (sanitizeId r.serviceId) := by
  simp only [TopologyMapView.occurring, TopologyMapView.elements, TopologyMapView.endpoints, TopologyMapView.serviceIds,
    List.forall_mem_append, List.forall_mem_map, List.forall_mem_flatMap, List.mem_range, List.forall_mem_cons, List.not_mem_nil,
    IsEmpty.forall_iff, implies_true, and_true, Element.nodeId, and_assoc]

theorem forall_nodes {Q : String → Prop} :
    (∀ st ∈ statements view, ∀ id ∈ st.nodes, Q id) ↔ ∀ e ∈ view.occurring, Q e.nodeId := by
  rw [forall_statements, forall_occurring]
  simp only [serviceStatement, causeStatements, recStatements, Statement.nodes, List.forall_mem_cons, List.not_mem_nil,
    IsEmpty.forall_iff, implies_true, and_true]
  constructor
  · rintro ⟨hservices, hedges, hcauses, hrecs⟩
    exact ⟨hservices, fun s hs => (forall_snd_zipIdx s.broken).mp fun p hp => (hcauses s hs p hp).1,
      (forall_snd_zipIdx _).mp fun p hp => (hrecs p hp).1, hedges, (forall_fst_zipIdx _).mp fun p hp => (hrecs p hp).2.2⟩
  · rintro ⟨hservices, hcauses, hrecs, hedges, hrecServices⟩
    refine ⟨hservices, hedges, fun s hs p hp => ?_, fun p hp => ?_⟩
    · have hcause := (forall_snd_zipIdx s.broken).mpr (hcauses s hs) p hp
      exact ⟨hcause, hcause, hservices s hs⟩
    · have hrec := (forall_snd_zipIdx view.recommendations).mpr hrecs p hp
      exact ⟨hrec, hrec, (forall_fst_zipIdx view.recommendations).mpr hrecServices p hp⟩

theorem forall_ids {Q : String → Prop} :
    (∀ st ∈ statements view, ∀ id ∈ st.ids, Q id) ↔ ∀ e ∈ view.occurring, Q e.nodeId := by
  rw [← forall_nodes, forall_statements, forall_statements]
  simp only [serviceStatement, causeStatements, recStatements, Statement.nodes, Statement.ids, List.forall_mem_cons,
    List.not_mem_nil, IsEmpty.forall_iff, implies_true, and_true, true_and]
  constructor
  · rintro ⟨hservices, hedges, hcauses, hrecs, -⟩
    exact ⟨hservices, hedges, hcauses, hrecs⟩
  · rintro ⟨hservices, hedges, hcauses, hrecs⟩
    exact ⟨hservices, hedges, hcauses, hrecs, hservices,
      (forall_snd_zipIdx (P := fun n => Q (recId n)) view.recommendations).mp fun p hp => (hrecs p hp).1⟩

theorem wellFormed_statements : ∀ st ∈ statements view, st.WellFormed := by
  have hquote : ∀ a b : String, '"' ∉ a.toList → '"' ∉ b.toList → '"' ∉ (a ++ b).toList := by
    intro a b ha hb
    rw [String.toList_append, List.mem_append]
    exact fun h => h.elim ha hb
  have hplain : ∀ s : String, s.toList.all (fun c => decide (c ≠ '"')) = true → '"' ∉ s.toList := by
    intro s hs hmem
    simpa using List.all_eq_true.mp hs _ hmem
  rw [forall_statements]
  refine ⟨fun s hs => ⟨isWord_sanitizeId _, ?_⟩, fun edge _ => ⟨isWord_sanitizeId _, isWord_sanitizeId _⟩, fun s hs p hp => ?_,
    fun p hp => ?_, ?_, fun s hs => ⟨isWord_sanitizeId _, ?_⟩, fun index _ => ⟨isWord_recId _, ?_⟩⟩
  · refine hquote _ _ (hquote _ _ (quote_not_mem_escapeLabel _) (hplain _ (by decide))) (hplain _ ?_)
    cases s.state <;> decide
  · simp only [causeStatements, List.forall_mem_cons, List.not_mem_nil, IsEmpty.forall_iff, implies_true, and_true]
    have hcause := isWord_causeId _ (isWord_sanitizeId s.id) p.2
    refine ⟨⟨hcause, ?_⟩, hcause, isWord_sanitizeId _⟩
    refine hquote _ _ (hquote _ _ (hplain _ (by decide)) (quote_not_mem_escapeLabel _)) ?_
    cases p.1.guardName with
    | none => exact hplain _ (by decide)
    | some guardName => exact hquote _ _ (hplain _ (by decide)) (quote_not_mem_escapeLabel _)
  · simp only [recStatements, List.forall_mem_cons, List.not_mem_nil, IsEmpty.forall_iff, implies_true, and_true]
    refine ⟨⟨isWord_recId _, ?_⟩, isWord_recId _, isWord_sanitizeId _⟩
    exact hquote _ _ (hquote _ _ (hquote _ _ (hquote _ _ (hquote _ _ (hplain _ (by decide)) (quote_not_mem_escapeLabel _))
      (hplain _ (by decide))) (quote_not_mem_escapeLabel _)) (hplain _ (by decide))) (quote_not_mem_escapeLabel _)
  · have hdefs : classDefs.all (fun p => p.1.toList.all Mermaid.isIdChar && (decide (IsName p.1) &&
        p.2.toList.all fun c => decide (c ≠ '\n'))) = true := by decide
    intro p hp
    have hp := List.all_eq_true.mp hdefs p hp
    simp only [Bool.and_eq_true, decide_eq_true_eq] at hp
    exact ⟨List.all_eq_true.mp hp.1, hp.2.1, fun hmem => by simpa using List.all_eq_true.mp hp.2.2 _ hmem⟩
  · cases s.state <;> exact ⟨List.all_eq_true.mp (by decide), by decide⟩
  · exact ⟨List.all_eq_true.mp (by decide), by decide⟩

/-! ## The graph that is drawn -/

theorem mem_nodes {x : String} : x ∈ (Mermaid.graphOf (statements view)).nodes ↔ ∃ e ∈ view.occurring, e.nodeId = x := by
  have hnone := forall_nodes view (Q := fun id => id ≠ x)
  rw [Mermaid.graphOf, List.mem_toFinset, List.mem_flatMap]
  constructor
  · rintro ⟨st, hst, hx⟩
    by_contra hall
    push Not at hall
    exact hnone.mpr hall st hst x hx rfl
  · rintro ⟨e, he, rfl⟩
    by_contra hall
    push Not at hall
    exact hnone.mp (fun st hst id hid heq => hall st hst (heq ▸ hid)) e he rfl

theorem solid_eq : (Mermaid.graphOf (statements view)).solid =
    view.dependsOn.map fun edge => (sanitizeId edge.1, sanitizeId edge.2) := by
  simp only [Mermaid.graphOf, statements, serviceStatement, causeStatements, recStatements, classDefs, Statement.solidEdge,
    List.filterMap_append, List.filterMap_map, List.filterMap_flatMap, Function.comp_def, List.filterMap_cons, List.filterMap_nil]
  simp

theorem dashed_eq : (Mermaid.graphOf (statements view)).dashed =
    (view.services.flatMap fun s =>
      (List.range s.broken.length).map fun index => (causeId (sanitizeId s.id) index, sanitizeId s.id)) ++
      view.recommendations.zipIdx.map fun p => (recId p.2, sanitizeId p.1.serviceId) := by
  have hindices : ∀ s : ServiceView,
      (List.range s.broken.length).map (fun index => (causeId (sanitizeId s.id) index, sanitizeId s.id)) = s.broken.zipIdx.map fun p => (causeId (sanitizeId s.id) p.2, sanitizeId s.id) := by
    intro s
    rw [List.range_eq_range', ← List.zipIdx_map_snd 0 s.broken, List.map_map]
    rfl
  simp only [Mermaid.graphOf, statements, serviceStatement, causeStatements, recStatements, classDefs, Statement.dashedEdge,
    List.filterMap_append, List.filterMap_map, List.filterMap_flatMap, Function.comp_def, List.filterMap_cons, List.filterMap_nil,
    hindices]
  simp [List.map_eq_flatMap]

theorem classes_eq : (Mermaid.graphOf (statements view)).classes =
    (view.services.map fun s => (sanitizeId s.id, s.state.className)) ++
      (List.range view.recommendations.length).map fun index => (recId index, "recommended") := by
  simp only [Mermaid.graphOf, statements, serviceStatement, causeStatements, recStatements, classDefs, Statement.assignment,
    List.filterMap_append, List.filterMap_map, List.filterMap_flatMap, Function.comp_def, List.filterMap_cons, List.filterMap_nil]
  have hnone : ∀ {α : Type} (xs : List α), xs.flatMap (fun _ => ([] : List (String × String))) = [] := fun _ =>
    List.flatMap_eq_nil_iff.mpr fun _ _ => rfl
  simp [hnone]

/-! ## Names that stay apart -/

/-- The name of a cause tells the service and the place. -/
theorem causeId_injective {sid tid : String} {i j : Nat} (h : causeId sid i = causeId tid j) : sid = tid ∧ i = j := by
  have hdigit : ∀ n : Nat, ∀ c ∈ (toString n).toList.reverse, decide (c ≠ '_') = true := by
    intro n c hc
    have hc := isDigit_of_mem_toString (List.mem_reverse.mp hc)
    refine decide_eq_true ?_
    rintro rfl
    exact absurd hc (by decide)
  have hsplit : ∀ (sid : String) (n : Nat), (causeId sid n).toList.reverse =
      (toString n).toList.reverse ++ ('_' :: ("cause_" ++ sid).toList.reverse) := by
    intro sid n
    simp [causeId, String.toList_append]
  have hchars := congrArg (fun s => s.toList.reverse) h
  simp only [hsplit] at hchars
  have hstop : ∀ cs : List Char, ∀ c ∈ ('_' :: cs).head?, decide (c ≠ '_') = false := by
    intro cs c hc
    cases hc
    rfl
  have hi := Mermaid.takeWhile_append_stop (hdigit i) (hstop ("cause_" ++ sid).toList.reverse)
  have hj := Mermaid.takeWhile_append_stop (hdigit j) (hstop ("cause_" ++ tid).toList.reverse)
  rw [hchars] at hi
  refine ⟨?_, toString_injective (List.reverse_injective (hi.1.symm.trans hj.1))⟩
  have hstart := List.reverse_injective (List.cons.inj (hi.2.symm.trans hj.2)).2
  rw [String.toList_append, String.toList_append] at hstart
  exact String.toList_injective (List.append_cancel_left hstart)

theorem recId_injective {i j : Nat} (h : recId i = recId j) : i = j := by
  have hchars := congrArg String.toList h
  rw [recId, recId, String.toList_append, String.toList_append] at hchars
  exact toString_injective (List.append_cancel_left hchars)

theorem causeId_ne_recId (sid : String) (i j : Nat) : causeId sid i ≠ recId j := by
  intro h
  have hchars := congrArg (fun s => s.toList.head?) h
  rw [causeId, recId] at hchars
  simp [String.toList_append] at hchars

theorem service_mem_elements {id : String} : Element.service id ∈ view.elements ↔ id ∈ view.serviceIds := by
  simp [TopologyMapView.elements]

theorem cause_mem_elements {id : String} {index : Nat} :
    Element.cause id index ∈ view.elements ↔ ∃ s ∈ view.services, s.id = id ∧ index < s.broken.length := by
  simp [TopologyMapView.elements, and_comm]

theorem recommendation_mem_elements {index : Nat} :
    Element.recommendation index ∈ view.elements ↔ index < view.recommendations.length := by
  simp [TopologyMapView.elements]

theorem id_mem_serviceIds {s : ServiceView} (h : s ∈ view.services) : s.id ∈ view.serviceIds := List.mem_map_of_mem h

/-- The elements have names of their own. -/
theorem TopologyMapView.Apart.distinct {view : TopologyMapView S} (h : view.Apart) :
    Set.InjOn Element.nodeId {e | e ∈ view.elements} := by
  intro a ha b hb hab
  change _ ∈ view.elements at ha hb
  cases a with
  | service id =>
    rw [service_mem_elements] at ha
    cases b with
    | service id' =>
      rw [service_mem_elements] at hb
      rw [h.services id ha id' hb hab]
    | cause id' i =>
      obtain ⟨t, ht, rfl, hi⟩ := (cause_mem_elements view).mp hb
      exact absurd hab (h.causes id ha t ht i hi)
    | recommendation i => exact absurd hab (h.recommendations id ha i ((recommendation_mem_elements view).mp hb))
  | cause id i =>
    obtain ⟨s, hs, rfl, hi⟩ := (cause_mem_elements view).mp ha
    cases b with
    | service id' => exact absurd hab.symm (h.causes id' ((service_mem_elements view).mp hb) s hs i hi)
    | cause id' j =>
      obtain ⟨t, ht, rfl, -⟩ := (cause_mem_elements view).mp hb
      obtain ⟨hids, rfl⟩ := causeId_injective hab
      rw [h.services _ (id_mem_serviceIds view hs) _ (id_mem_serviceIds view ht) hids]
    | recommendation j => exact absurd hab (causeId_ne_recId _ _ _)
  | recommendation i =>
    rw [recommendation_mem_elements] at ha
    cases b with
    | service id' => exact absurd hab.symm (h.recommendations id' ((service_mem_elements view).mp hb) i ha)
    | cause id' j => exact absurd hab.symm (causeId_ne_recId _ _ _)
    | recommendation j => rw [recId_injective hab]

/-- What occurs are elements when edges are among the services. -/
theorem TopologyMapView.Apart.occurring_elements {view : TopologyMapView S} (h : view.Apart) {e : Element} :
    e ∈ view.occurring ↔ e ∈ view.elements := by
  rw [TopologyMapView.occurring, List.mem_append, or_iff_left_of_imp]
  intro he
  obtain ⟨id, hid, rfl⟩ := List.mem_map.mp he
  exact (service_mem_elements view).mpr (h.closed id hid)

theorem TopologyMapView.Apart.named_occurring {view : TopologyMapView S} (h : view.Apart) :
    ∀ e ∈ view.occurring, IsName e.nodeId := by
  intro e he
  rw [h.occurring_elements] at he
  cases e with
  | service id => exact h.named id ((service_mem_elements view).mp he)
  | cause id index => exact isName_of_underscore (by simp [Element.nodeId, causeId, String.toList_append])
  | recommendation index => exact isName_of_underscore (by simp [Element.nodeId, recId, String.toList_append])

/-- The classes of a service's node are its own when the names are apart. -/
theorem TopologyMapView.Apart.classesOf {view : TopologyMapView S} (h : view.Apart) (hids : view.serviceIds.Nodup) {s : ServiceView}
    (hs : s ∈ view.services) :
    (Mermaid.graphOf (statements view)).classesOf (sanitizeId s.id) = [s.state.className] := by
  have hown : ∀ t ∈ view.services, decide (sanitizeId t.id = sanitizeId s.id) = decide (t = s) := by
    intro t ht
    refine decide_eq_decide.mpr ⟨fun heq => ?_, fun heq => heq ▸ rfl⟩
    exact List.inj_on_of_nodup_map hids ht hs (h.services _ (id_mem_serviceIds view ht) _ (id_mem_serviceIds view hs) heq)
  have hservices : view.services.filter (fun t => decide (sanitizeId t.id = sanitizeId s.id)) = [s] := by
    rw [List.filter_congr hown, List.filter_eq, List.count_eq_one_of_mem (List.Nodup.of_map _ hids) hs, List.replicate_one]
  have hrecs : (List.range view.recommendations.length).filter (fun index => decide (recId index = sanitizeId s.id)) = [] := by
    refine List.filter_eq_nil_iff.mpr fun index hindex => ?_
    have hne := h.recommendations _ (id_mem_serviceIds view hs) index (List.mem_range.mp hindex)
    simpa using Ne.symm hne
  rw [Graph.classesOf, classes_eq, List.filter_append, List.filter_map, List.filter_map]
  simp only [Function.comp_def, hservices, hrecs, List.map_nil, List.append_nil, List.map_cons]

/-- The text of a view describes the graph of the view exactly if the names are apart. -/
theorem toMermaid_faithful_iff (view : TopologyMapView S) (hids : view.serviceIds.Nodup) :
    (∃ g, Mermaid.describes (toMermaid view) = some g ∧ view.Faithful g) ↔ view.Apart := by
  have hread : Mermaid.describes (toMermaid view) =
      if ∀ e ∈ view.occurring, IsName e.nodeId then some (Mermaid.graphOf (statements view)) else none := by
    rw [Mermaid.describes, toMermaid_eq, Mermaid.parse_render (wellFormed_statements view)]
    simp only [forall_ids]
    split_ifs <;> rfl
  constructor
  · rintro ⟨g, hg, hfaithful⟩
    rw [hread] at hg
    split_ifs at hg with hnamed
    cases hg
    have helement : ∀ e ∈ view.elements, e ∈ view.occurring := fun e he => List.mem_append_left _ he
    have hservice : ∀ id ∈ view.serviceIds, Element.service id ∈ view.occurring := fun id hid =>
      helement _ ((service_mem_elements view).mpr hid)
    refine ⟨fun s hs => hnamed _ (hservice s hs), fun id hid => ?_, fun s hs t ht heq => ?_, fun s hs t ht index hindex heq => ?_,
      fun s hs index hindex heq => ?_⟩
    · have hoccurs : Element.service id ∈ view.occurring := List.mem_append_right _ (List.mem_map_of_mem hid)
      have hnode := (mem_nodes view).mpr ⟨_, hoccurs, rfl⟩
      rw [hfaithful.nodes, List.mem_toFinset, List.mem_map] at hnode
      obtain ⟨e, he, hname⟩ := hnode
      obtain rfl := hfaithful.distinct (helement e he) hoccurs hname
      exact (service_mem_elements view).mp he
    · exact Element.service.inj (hfaithful.distinct (hservice s hs) (hservice t ht) heq)
    · have hcause : Element.cause t.id index ∈ view.occurring :=
        helement _ ((cause_mem_elements view).mpr ⟨t, ht, rfl, hindex⟩)
      cases hfaithful.distinct (hservice s hs) hcause heq
    · have hrec : Element.recommendation index ∈ view.occurring := helement _ ((recommendation_mem_elements view).mpr hindex)
      cases hfaithful.distinct (hservice s hs) hrec heq
  · intro h
    refine ⟨_, by rw [hread, if_pos h.named_occurring], ⟨?_, ?_, solid_eq view, dashed_eq view, fun s hs => h.classesOf hids hs⟩⟩
    · exact fun a ha b hb hab => h.distinct (h.occurring_elements.mp ha) (h.occurring_elements.mp hb) hab
    · ext x
      rw [mem_nodes, List.mem_toFinset, List.mem_map]
      simp only [h.occurring_elements]

/-- A gateway that depends on a database whose control is broken, and a recommendation for the gateway. -/
def gatewayView : TopologyMapView Nat where
  services :=
    [⟨"svc:gateway", "gateway", some "edge", none, .untested, [], ["compliance:NIS2/Art.21"], []⟩,
      ⟨"svc:db", "db", some "data", none, .broken, [], [],
        [⟨"compliance:DORA/Art.25", none, some "fault:tumult-postgres::kill_connections", some "p95_latency", none⟩]⟩]
  dependsOn := [("svc:gateway", "svc:db")]
  recommendations := [⟨"svc:gateway", "tumult-net", "drop_packets", "compliance:NIS2/Art.21", "direct", 1, []⟩]

theorem toMermaid_faithful_gateway :
    (∃ g, Mermaid.describes (toMermaid gatewayView) = some g ∧ gatewayView.Faithful g) ↔ gatewayView.Apart :=
  toMermaid_faithful_iff gatewayView (by decide)

/-- Two services whose ids differ in a character that is not kept. -/
def mergedView : TopologyMapView Nat where
  services :=
    [⟨"svc:a-b", "a-b", none, none, .broken, [], [], [⟨"compliance:DORA/Art.25", none, none, none, none⟩]⟩,
      ⟨"svc:a_b", "a_b", none, none, .evidenced, ["compliance:DORA/Art.25"], [], []⟩]
  dependsOn := []
  recommendations := []

/-- They have one node, which has the classes of both. -/
theorem toMermaid_merged_false :
    ¬ ∀ view : TopologyMapView Nat, view.serviceIds.Nodup →
      ∃ g, Mermaid.describes (toMermaid view) = some g ∧ view.Faithful g := by
  intro h
  obtain ⟨g, -, hfaithful⟩ := h mergedView (by decide)
  have hname : (Element.service "svc:a-b").nodeId = (Element.service "svc:a_b").nodeId := by decide
  exact absurd (hfaithful.distinct (by decide) (by decide) hname) (by decide)

end Tumult.TopologyMap
