import Tumult.Compliance.Org
import Tumult.Lib.Checks
import Tumult.Lib.Rooted

/-!
# Paths and rollups of an accepted tree

A tree that `build` accepts grew from its root, its names are apart and hold no slash. So the path of a node is resolved to the
node, and what is counted below a node is its own leaves and what is counted below its children.
-/

namespace Tumult.Compliance

open Rooted (Below)

namespace OrgTree

/-! ## What a build leaves -/

/-- A tree as `build` leaves it. -/
structure WellFormed (t : OrgTree) : Prop where
  rooted : Rooted t.nodes.length t.parentOf t.children
  root : t.root = 0
  unassigned : t.unassigned < t.nodes.length
  named : ∀ id, 0 < id → id < t.nodes.length → t.nameOf id ≠ "" ∧ '/' ∉ (t.nameOf id).toList
  apart : ∀ id id', 0 < id → id < t.nodes.length → 0 < id' → id' < t.nodes.length → t.nameOf id = t.nameOf id' → id = id'
  found : ∀ name id, t.byName.lookup name = some id → id < t.nodes.length
  assigned : ∀ a ∈ t.assignments, a.node < t.nodes.length

/-- A name that passes the check: not blank, without a slash, not reserved. -/
def ValidName (name : String) : Prop := name ≠ "" ∧ '/' ∉ name.toList ∧ name ≠ UNASSIGNED

theorem checkNames_ok {seen : List String} {specs : List NodeSpec} (h : checkNames seen specs = .ok ()) :
    (∀ spec ∈ specs, ValidName spec.name ∧ spec.name ∉ seen) ∧ (specs.map (·.name)).Nodup := by
  induction specs generalizing seen with
  | nil => exact ⟨fun spec hspec => absurd hspec List.not_mem_nil, List.nodup_nil⟩
  | cons spec specs ih =>
    unfold checkNames at h
    split at h
    case isTrue => nomatch h
    case isFalse hvalid =>
      simp only [not_or] at hvalid
      obtain ⟨hblank, hslash, hreserved, hfresh⟩ := hvalid
      obtain ⟨hrest, hnodup⟩ := ih h
      have hname : spec.name ≠ "" := fun hempty => hblank (by rw [hempty]; decide)
      refine ⟨fun spec' hspec' => ?_, List.nodup_cons.mpr ⟨fun hmem => ?_, hnodup⟩⟩
      · rcases List.mem_cons.mp hspec' with rfl | hspec'
        · exact ⟨⟨hname, hslash, hreserved⟩, hfresh⟩
        · exact ⟨(hrest spec' hspec').1, fun hseen => (hrest spec' hspec').2 (List.mem_cons_of_mem _ hseen)⟩
      · obtain ⟨spec', hspec', hsame⟩ := List.mem_map.mp hmem
        exact (hrest spec' hspec').2 (hsame ▸ List.mem_cons_self)

/-- The nodes with one more below another one. -/
def addBelow (nodes : List Node) (node : Node) (parent : Nat) : List Node :=
  (nodes ++ [node]).modify parent fun n => { n with children := n.children ++ [nodes.length] }

theorem getElem?_addBelow (nodes : List Node) (node : Node) {parent : Nat} (hparent : parent < nodes.length) (id : Nat) :
    (addBelow nodes node parent)[id]? =
      if id = nodes.length then some node
      else if id = parent then nodes[id]?.map fun n => { n with children := n.children ++ [nodes.length] }
      else nodes[id]? := by
  rw [addBelow, List.getElem?_modify, List.getElem?_append]
  by_cases hid : id = nodes.length
  · subst hid
    have hne : parent ≠ nodes.length := Nat.ne_of_lt hparent
    simp [hne]
  · rw [if_neg hid]
    by_cases hlt : id < nodes.length
    · rw [if_pos hlt]
      by_cases hid' : id = parent
      · subst hid'
        simp
      · have hne : parent ≠ id := Ne.symm hid'
        simp [hne, hid']
    · have hne : ¬ id - nodes.length = 0 := by omega
      have hne' : id ≠ parent := by omega
      simp [hlt, hne, hne']

section

variable {t t' : OrgTree} {spec : NodeSpec}

/-- Inversion: a node is added below the root or below a node that is known by its name. -/
theorem insertNode_ok (h : t.insertNode spec = .ok t') :
    ∃ parent, (parent = t.root ∨ ∃ p, t.byName.lookup p = some parent) ∧
      t' = { t with
        nodes := addBelow t.nodes ⟨spec.name, spec.kind, some parent, []⟩ parent
        byName := (spec.name, t.nodes.length) :: t.byName } := by
  unfold insertNode at h
  cases hparent : spec.parent with
  | none =>
    rw [hparent] at h
    exact ⟨t.root, .inl rfl, (Except.ok.inj h).symm⟩
  | some p =>
    rw [hparent] at h
    cases hlookup : t.byName.lookup p with
    | none =>
      simp only [hlookup] at h
      nomatch h
    | some id =>
      simp only [hlookup] at h
      exact ⟨id, .inr ⟨p, hlookup⟩, (Except.ok.inj h).symm⟩

theorem length_insertNode (h : t.insertNode spec = .ok t') : t'.nodes.length = t.nodes.length + 1 := by
  obtain ⟨parent, -, rfl⟩ := insertNode_ok h
  simp [addBelow]

/-- A node that is added keeps the tree well-formed, when its name is new. -/
theorem WellFormed.insertNode (hwf : t.WellFormed) (hvalid : spec.name ≠ "" ∧ '/' ∉ spec.name.toList)
    (hfresh : ∀ id, 0 < id → id < t.nodes.length → t.nameOf id ≠ spec.name) (h : t.insertNode spec = .ok t') :
    t'.WellFormed ∧ ∀ id, t'.nameOf id = if id = t.nodes.length then spec.name else t.nameOf id := by
  obtain ⟨parent, hparent, ht'⟩ := insertNode_ok h
  have hlt : parent < t.nodes.length := by
    rcases hparent with rfl | ⟨p, hp⟩
    · rw [hwf.root]
      exact hwf.rooted.nonempty
    · exact hwf.found p parent hp
  have hlength := length_insertNode h
  have hnodes : t'.nodes = addBelow t.nodes ⟨spec.name, spec.kind, some parent, []⟩ parent := by rw [ht']
  have hname : ∀ id, t'.nameOf id = if id = t.nodes.length then spec.name else t.nameOf id := by
    intro id
    simp only [nameOf, hnodes, getElem?_addBelow t.nodes _ hlt]
    split
    · rfl
    · split
      · cases t.nodes[id]? <;> rfl
      · rfl
  have hpar : ∀ id, t'.parentOf id = if id = t.nodes.length then some parent else t.parentOf id := by
    intro id
    simp only [parentOf, hnodes, getElem?_addBelow t.nodes _ hlt]
    split
    · rfl
    · split
      · cases t.nodes[id]? <;> rfl
      · rfl
  have hchildren : ∀ id, t'.children id = if id = parent then t.children id ++ [t.nodes.length] else t.children id := by
    intro id
    simp only [children, hnodes, getElem?_addBelow t.nodes _ hlt]
    by_cases hnew : id = t.nodes.length
    · have hne : id ≠ parent := by omega
      simp [hnew, hnew ▸ hne]
    · rw [if_neg hnew]
      by_cases hid : id = parent
      · obtain ⟨node, hnode⟩ : ∃ node, t.nodes[id]? = some node := ⟨_, List.getElem?_eq_getElem (hid ▸ hlt)⟩
        simp [hid, hid ▸ hnode]
      · simp [hid]
  refine ⟨⟨?_, ?_, ?_, fun id hpos hid => ?_, fun id id' hpos hid hpos' hid' hsame => ?_, fun name id hfound => ?_, ?_⟩, hname⟩
  · rw [hlength]
    exact hwf.rooted.grow hlt hpar hchildren
  · rw [ht']
    exact hwf.root
  · have hroot : t'.unassigned = t.unassigned := by rw [ht']
    have hold := hwf.unassigned
    omega
  · rw [hname]
    split
    · exact hvalid
    · exact hwf.named id hpos (by omega)
  · rw [hname, hname] at hsame
    split at hsame
    · split at hsame
      · omega
      · exact absurd hsame.symm (hfresh id' hpos' (by omega))
    · split at hsame
      · exact absurd hsame (hfresh id hpos (by omega))
      · exact hwf.apart id id' hpos (by omega) hpos' (by omega) hsame
  · rw [ht', List.lookup_cons] at hfound
    rw [hlength]
    cases hsame : name == spec.name with
    | true =>
      simp only [hsame] at hfound
      rw [← Option.some.inj hfound]
      exact Nat.lt_succ_self _
    | false =>
      simp only [hsame] at hfound
      exact Nat.lt_succ_of_lt (hwf.found name id hfound)
  · intro a ha
    rw [ht'] at ha
    rw [hlength]
    exact Nat.lt_succ_of_lt (hwf.assigned a ha)

/-- The nodes of a file are added one after the other (induction on them). -/
theorem WellFormed.insertNodes {specs : List NodeSpec} (hwf : t.WellFormed) (hnodup : (specs.map (·.name)).Nodup)
    (hvalid : ∀ spec ∈ specs, spec.name ≠ "" ∧ '/' ∉ spec.name.toList)
    (hfresh : ∀ spec ∈ specs, ∀ id, 0 < id → id < t.nodes.length → t.nameOf id ≠ spec.name)
    (h : specs.foldlM OrgTree.insertNode t = .ok t') : t'.WellFormed := by
  induction specs generalizing t with
  | nil => exact Except.ok.inj h ▸ hwf
  | cons spec specs ih =>
    rw [List.foldlM_cons] at h
    obtain ⟨t₁, hfirst, hrest⟩ := Checks.bind_ok h
    obtain ⟨hnew, hnodup⟩ := List.nodup_cons.mp hnodup
    obtain ⟨hwf₁, hname⟩ := hwf.insertNode (hvalid spec List.mem_cons_self) (hfresh spec List.mem_cons_self) hfirst
    have hlength := length_insertNode hfirst
    refine ih hwf₁ hnodup (fun s hs => hvalid s (List.mem_cons_of_mem _ hs)) (fun s hs id hpos hid => ?_) hrest
    rw [hname]
    split
    · exact fun hsame => hnew (List.mem_map.mpr ⟨s, hs, hsame.symm⟩)
    · exact hfresh s (List.mem_cons_of_mem _ hs) id hpos (by omega)

theorem wellFormed_empty (weight : ℚ) (staleDays : Nat) :
    ({ empty with defaultWeight := weight, staleDays := staleDays } : OrgTree).WellFormed where
  rooted := by
    have hsingle : Rooted 1 (fun _ => none) fun _ => [] :=
      ⟨Nat.one_pos, rfl, fun id hpos hid => by omega, fun _ _ => rfl, fun _ _ => by simp, fun _ => List.nodup_nil⟩
    exact hsingle.grow Nat.one_pos (fun id => by rcases id with _ | _ | id <;> rfl) fun id => by rcases id with _ | _ | id <;> rfl
  root := rfl
  unassigned := Nat.one_lt_two
  named id hpos hid := by
    obtain rfl : id = 1 := Nat.le_antisymm (Nat.le_of_lt_succ hid) hpos
    exact (by decide : UNASSIGNED ≠ "" ∧ '/' ∉ UNASSIGNED.toList)
  apart id id' hpos hid hpos' hid' _ := by
    have hone : id < 2 := hid
    have hone' : id' < 2 := hid'
    omega
  found name id hfound := by
    rw [show (empty.byName : List (String × Nat)) = [(UNASSIGNED, 1)] from rfl, List.lookup_cons] at hfound
    split at hfound
    · exact Option.some.inj hfound ▸ Nat.one_lt_two
    · nomatch hfound
  assigned a ha := absurd ha List.not_mem_nil

theorem WellFormed.compileAssignment {spec : AssignmentSpec} (hwf : t.WellFormed) (h : t.compileAssignment spec = .ok t') :
    t'.WellFormed := by
  unfold OrgTree.compileAssignment at h
  split at h
  case h_1 node hlookup =>
    obtain rfl := Except.ok.inj h
    refine ⟨hwf.rooted, hwf.root, hwf.unassigned, hwf.named, hwf.apart, hwf.found, fun a ha => ?_⟩
    rcases List.mem_append.mp ha with ha | ha
    · exact hwf.assigned a ha
    · rw [List.mem_singleton.mp ha]
      exact hwf.found spec.team node hlookup
  case h_2 => nomatch h

/-- Assignments name nodes that are there (induction on them). -/
theorem WellFormed.compileAssignments {specs : List AssignmentSpec} (hwf : t.WellFormed)
    (h : specs.foldlM OrgTree.compileAssignment t = .ok t') : t'.WellFormed := by
  induction specs generalizing t with
  | nil => exact Except.ok.inj h ▸ hwf
  | cons spec specs ih =>
    rw [List.foldlM_cons] at h
    obtain ⟨t₁, hfirst, hrest⟩ := Checks.bind_ok h
    exact ih (hwf.compileAssignment hfirst) hrest

end

/-- Every tree that is accepted is well-formed. -/
theorem build_wellFormed {file : OrgFile} {t : OrgTree} (h : build file = .ok t) : t.WellFormed := by
  obtain ⟨u, hnames, h⟩ := Checks.bind_ok h
  obtain ⟨t₁, hnodes, h⟩ := Checks.bind_ok h
  obtain ⟨u', -, h⟩ := Checks.bind_ok h
  obtain ⟨hvalid, hnodup⟩ := checkNames_ok hnames
  refine ((wellFormed_empty _ _).insertNodes hnodup (fun spec hspec => ⟨(hvalid spec hspec).1.1, (hvalid spec hspec).1.2.1⟩)
    (fun spec hspec id hpos hid hsame => (hvalid spec hspec).1.2.2 ?_) hnodes).compileAssignments h
  obtain rfl : id = 1 := Nat.le_antisymm (Nat.le_of_lt_succ hid) hpos
  exact hsame.symm

/-! ## Paths -/

section

variable {t : OrgTree} {id : Nat}

/-- More steps than the number of a node change nothing (strong induction on the number). -/
theorem WellFormed.partsFrom_enough (hwf : t.WellFormed) {fuel fuel' : Nat} (hfuel : id ≤ fuel) (hfuel' : id ≤ fuel') :
    t.partsFrom fuel id = t.partsFrom fuel' id := by
  induction id using Nat.strong_induction_on generalizing fuel fuel' with
  | _ id ih =>
    cases hparent : t.parentOf id with
    | none => cases fuel <;> cases fuel' <;> simp [partsFrom, hparent]
    | some parent =>
      have hlt := (hwf.rooted.parent_lt hparent).1
      obtain ⟨n, rfl⟩ := Nat.exists_eq_add_one_of_ne_zero (show fuel ≠ 0 by omega)
      obtain ⟨n', rfl⟩ := Nat.exists_eq_add_one_of_ne_zero (show fuel' ≠ 0 by omega)
      simp only [partsFrom, hparent]
      rw [ih parent hlt (show parent ≤ n by omega) (show parent ≤ n' by omega)]

theorem WellFormed.parts_valid (hwf : t.WellFormed) (id fuel : Nat) :
    ∀ part ∈ t.partsFrom fuel id, part ≠ "" ∧ '/' ∉ part.toList := by
  induction fuel generalizing id with
  | zero => exact fun part hpart => absurd hpart List.not_mem_nil
  | succ fuel ih =>
    intro part hpart
    rw [partsFrom] at hpart
    split at hpart
    · exact absurd hpart List.not_mem_nil
    · next parent hparent =>
      have hlt := hwf.rooted.parent_lt hparent
      rcases List.mem_cons.mp hpart with rfl | hpart
      · exact hwf.named id (by omega) hlt.2
      · exact ih parent part hpart

/-- Below its parent a node is found by its name. -/
theorem WellFormed.childNamed_self (hwf : t.WellFormed) {parent : Nat} (hparent : t.parentOf id = some parent) :
    t.childNamed parent (t.nameOf id).toList = some id := by
  have hmem := (hwf.rooted.mem_children parent id).mpr hparent
  unfold childNamed
  cases hfind : (t.children parent).find? fun c => (t.nameOf c).toList = (t.nameOf id).toList with
  | none => exact absurd (List.find?_eq_none.mp hfind id hmem) (by simp)
  | some c =>
    have hname : t.nameOf c = t.nameOf id := String.toList_inj.mp (by simpa using List.find?_some hfind)
    have hc := hwf.rooted.child_lt (List.mem_of_find?_eq_some hfind)
    have hid := hwf.rooted.child_lt hmem
    rw [hwf.apart c id (by omega) hc.2 (by omega) hid.2 hname]

/-- The names on the way down lead from the root to the node (strong induction on its number). -/
theorem WellFormed.descend (hwf : t.WellFormed) {fuel : Nat} (hfuel : id ≤ fuel) (hid : id < t.nodes.length) :
    ((t.partsFrom fuel id).reverse.map String.toList).foldlM t.childNamed t.root = some id := by
  induction id using Nat.strong_induction_on generalizing fuel with
  | _ id ih =>
    rcases Nat.eq_zero_or_pos id with rfl | hpos
    · have hroot := hwf.rooted.root
      cases fuel <;> simp [partsFrom, hroot, hwf.root]
    · obtain ⟨parent, hlt, hparent⟩ := hwf.rooted.older id hpos hid
      obtain ⟨n, rfl⟩ := Nat.exists_eq_add_one_of_ne_zero (show fuel ≠ 0 by omega)
      simp only [partsFrom, hparent, List.reverse_cons, List.map_append, List.map_cons, List.map_nil, List.foldlM_append]
      rw [ih parent hlt (by omega) (hlt.trans hid)]
      simp [hwf.childNamed_self hparent]

end

/-- Words that are joined begin with the first and end with the last. -/
theorem intercalate_ends (sep : List Char) {words : List (List Char)} (hne : words ≠ []) :
    (∃ word ∈ words, ∃ rest, sep.intercalate words = word ++ rest) ∧
      ∃ word ∈ words, ∃ init, sep.intercalate words = init ++ word := by
  induction words with
  | nil => exact absurd rfl hne
  | cons word words ih =>
    cases words with
    | nil => exact ⟨⟨word, List.mem_cons_self, [], by simp⟩, word, List.mem_cons_self, [], by simp⟩
    | cons next words =>
      obtain ⟨-, last, hlast, init, hinit⟩ := ih (List.cons_ne_nil _ _)
      rw [List.intercalate_cons_of_ne_nil (List.cons_ne_nil _ _)]
      refine ⟨⟨word, List.mem_cons_self, _, List.append_assoc _ _ _⟩, last, List.mem_cons_of_mem _ hlast, word ++ sep ++ init, ?_⟩
      rw [hinit]
      simp

/-- Names without a slash that are joined by slashes are taken apart again. -/
theorem resolve_join {t : OrgTree} {names : List String} (hnames : ∀ name ∈ names, name ≠ "" ∧ '/' ∉ name.toList) :
    t.resolve ("/".intercalate names) = (names.map String.toList).foldlM t.childNamed t.root := by
  have hwords : ∀ word ∈ names.map String.toList, word ≠ [] ∧ '/' ∉ word := by
    intro word hword
    obtain ⟨name, hname, rfl⟩ := List.mem_map.mp hword
    exact ⟨fun hempty => (hnames name hname).1 (String.toList_inj.mp hempty), (hnames name hname).2⟩
  have htext : ("/".intercalate names).toList = ['/'].intercalate (names.map String.toList) := String.toList_intercalate
  rw [resolve, htext]
  rcases List.eq_nil_or_concat names with rfl | ⟨_, _, hconcat⟩
  · rfl
  · have hne : names.map String.toList ≠ [] := by simp [hconcat]
    obtain ⟨⟨first, hfirst, rest, hrest⟩, last, hlast, init, hinit⟩ := intercalate_ends ['/'] hne
    have hself : Text.trimEndMatches (· = '/') ((['/'].intercalate (names.map String.toList)).dropWhile (· = '/')) =
        ['/'].intercalate (names.map String.toList) := by
      refine Text.trimMatches_self ⟨fun c hc => ?_, fun c hc => ?_⟩
      · have hmem : c ∈ first := by
          rw [hrest] at hc
          cases first with
          | nil => exact absurd rfl (hwords [] hfirst).1
          | cons d first => exact Option.some.inj hc ▸ List.mem_cons_self
        exact decide_eq_false fun heq => (hwords first hfirst).2 (heq ▸ hmem)
      · have hmem : c ∈ last := by
          rw [hinit, List.getLast?_append_of_ne_nil _ (hwords last hlast).1] at hc
          exact List.mem_of_getLast? hc
        exact decide_eq_false fun heq => (hwords last hlast).2 (heq ▸ hmem)
    have hnonempty : ['/'].intercalate (names.map String.toList) ≠ [] := by
      rw [hrest]
      exact fun hempty => (hwords first hfirst).1 (List.append_eq_nil_iff.mp hempty).1
    simp only [hself, if_neg hnonempty]
    rw [List.splitOn_intercalate '/' (fun word hword => (hwords word hword).2) hne]

/-- The path of a node is resolved to the node. -/
theorem WellFormed.resolve_pathOf {t : OrgTree} (hwf : t.WellFormed) {id : Nat} (hid : id < t.nodes.length) :
    t.resolve (t.pathOf id) = some id := by
  have hvalid := hwf.parts_valid id t.nodes.length
  rw [pathOf, resolve_join fun name hname => hvalid name (List.mem_reverse.mp hname)]
  exact hwf.descend (le_of_lt hid) hid

/-- In an accepted tree parents lead from every node to the root, which has none, in no more steps than there are nodes; the path of
a node is resolved to the node; so two nodes never have the same path. -/
theorem paths_round_trip {file : OrgFile} {t : OrgTree} (h : build file = .ok t) :
    t.parentOf t.root = none ∧ ∀ id < t.nodes.length,
      Below t.parentOf id t.root ∧ (∀ fuel, id ≤ fuel → t.partsFrom fuel id = t.partsFrom t.nodes.length id) ∧
        t.resolve (t.pathOf id) = some id ∧ ∀ id' < t.nodes.length, t.pathOf id = t.pathOf id' → id = id' := by
  have hwf := build_wellFormed h
  refine ⟨hwf.root ▸ hwf.rooted.root, fun id hid => ⟨?_, fun fuel hfuel => ?_, hwf.resolve_pathOf hid, fun id' hid' hsame => ?_⟩⟩
  · rw [hwf.root]
    exact hwf.rooted.below_root hid
  · exact hwf.partsFrom_enough hfuel (le_of_lt hid)
  · exact Option.some.inj ((hwf.resolve_pathOf hid).symm.trans (hsame ▸ hwf.resolve_pathOf hid'))

/-- A file with a node below another one and an assignment to it. -/
def sampleFile : OrgFile where
  nodes := [⟨"platform", "domain", none⟩, ⟨"edge", "unit", some "platform"⟩]
  assignments := [⟨"edge", ["edge-*"], [("edge-cdn", "critical")]⟩]
  defaults := ⟨1, 30⟩

/-- The tree of the sample file. -/
def sampleTree : OrgTree where
  nodes := [⟨"", "company", none, [1, 2]⟩, ⟨UNASSIGNED, "unassigned", some 0, []⟩, ⟨"platform", "domain", some 0, [3]⟩,
    ⟨"edge", "unit", some 2, []⟩]
  root := 0
  unassigned := 1
  byName := [("edge", 3), ("platform", 2), (UNASSIGNED, 1)]
  assignments := [⟨3, ["edge-*"], [("edge-cdn", "critical")]⟩]
  defaultWeight := 1
  staleDays := 30

theorem build_sampleFile : build sampleFile = .ok sampleTree := by decide

theorem paths_round_trip_sample : sampleTree.pathOf 3 = "platform/edge" ∧ sampleTree.resolve (sampleTree.pathOf 3) = some 3 :=
  ⟨by decide, ((paths_round_trip build_sampleFile).2 3 (by decide)).2.2.1⟩

/-! ## Rollups -/

/-- Where a node is found on the way up is where it lies below the other one, with as many steps as its number allows. -/
theorem WellFormed.inSubtreeFrom_iff {t : OrgTree} (hwf : t.WellFormed) (ancestor : Nat) {fuel id : Nat} (hfuel : id < fuel) :
    t.inSubtreeFrom ancestor fuel id = true ↔ Below t.parentOf id ancestor := by
  induction fuel generalizing id with
  | zero => exact absurd hfuel (Nat.not_lt_zero id)
  | succ fuel ih =>
    rw [Rooted.below_iff_parent, inSubtreeFrom]
    by_cases hid : id = ancestor
    · simp [hid]
    · cases hparent : t.parentOf id with
      | none => simp [hid]
      | some parent =>
        have hlt := (hwf.rooted.parent_lt hparent).1
        have hup := ih (show parent < fuel by omega)
        simp [hid, hup]

/-- Every leaf is placed at a node of the tree. -/
theorem WellFormed.assign_lt {t : OrgTree} (hwf : t.WellFormed) (name : String) : (t.assign name).1 < t.nodes.length := by
  unfold assign
  split
  · next a hfind => exact hwf.assigned a (List.mem_of_find?_eq_some hfind)
  · exact hwf.unassigned

section

variable (t : OrgTree)

/-- The leaves that are placed at a node itself. -/
def own (id : Nat) (leaves : List ScoredLeaf) : List ScoredLeaf := leaves.filter fun leaf => (t.assign leaf.name).1 = id

open Classical in
/-- The leaves of the subtree of a node: those that are placed at it or below it. -/
noncomputable def subtree (id : Nat) (leaves : List ScoredLeaf) : List ScoredLeaf :=
  leaves.filter fun leaf => Below t.parentOf (t.assign leaf.name).1 id

/-- What one leaf contributes: that it is expected, that it has a score, its weight, its weight when it has a score, and its
weighted score. -/
def share (leaf : ScoredLeaf) : ℕ × ℕ × ℚ × ℚ × ℚ :=
  let weight := (t.assign leaf.name).2
  match leaf.score with
  | none => (1, 0, weight, 0, 0)
  | some score => (1, 1, weight, weight, weight * score)

def shares (leaves : List ScoredLeaf) : ℕ × ℕ × ℚ × ℚ × ℚ := (leaves.map t.share).sum

/-- The weights and the scores of the leaves that have one. -/
def weighed (leaves : List ScoredLeaf) : List (ℚ × Nat) :=
  leaves.filterMap fun leaf => leaf.score.map fun score => ((t.assign leaf.name).2, score)

end

end OrgTree

/-- What is counted, in the order of `OrgTree.share`. -/
def Totals.counted (acc : Totals) : ℕ × ℕ × ℚ × ℚ × ℚ := (acc.expected, acc.scored, acc.totalWeight, acc.weights, acc.sum)

/-- The mean of scores by their weights. -/
def weightedMean (scores : List (ℚ × Nat)) : ℚ := (scores.map fun x => x.1 * (x.2 : ℚ)).sum / (scores.map (·.1)).sum

namespace OrgTree

variable {t : OrgTree}

/-- A leaf adds its share where it is counted. -/
theorem counted_tally (id : Nat) (acc : Totals) (leaf : ScoredLeaf) :
    (t.tally id acc leaf).counted = acc.counted + if t.inSubtree id (t.assign leaf.name).1 then t.share leaf else 0 := by
  unfold tally share
  by_cases hin : t.inSubtree id (t.assign leaf.name).1 = true
  · cases leaf.score <;> simp [hin, Totals.counted]
  · simp [hin]

/-- The totals of a node are the shares of the leaves of its subtree (induction on the leaves). -/
theorem WellFormed.counted_totals (hwf : t.WellFormed) (id : Nat) (leaves : List ScoredLeaf) :
    (t.totals id leaves).counted = t.shares (t.subtree id leaves) := by
  have hrun : ∀ acc : Totals, (leaves.foldl (t.tally id) acc).counted = acc.counted + t.shares (t.subtree id leaves) := by
    induction leaves with
    | nil => exact fun acc => (add_zero _).symm
    | cons leaf leaves ih =>
      intro acc
      have hiff := hwf.inSubtreeFrom_iff id (hwf.assign_lt leaf.name)
      rw [List.foldl_cons, ih, counted_tally, add_assoc, inSubtree, shares, shares, subtree, subtree]
      by_cases hbelow : Below t.parentOf (t.assign leaf.name).1 id
      · simp [hbelow, hiff.mpr hbelow]
      · have hout := mt hiff.mp hbelow
        simp [hbelow, hout]
  exact (hrun _).trans (zero_add _)

/-- The shares of leaves, one field at a time (induction on the leaves). -/
theorem shares_eq (leaves : List ScoredLeaf) :
    t.shares leaves = (leaves.length, (t.weighed leaves).length, (leaves.map fun leaf => (t.assign leaf.name).2).sum,
      ((t.weighed leaves).map (·.1)).sum, ((t.weighed leaves).map fun x => x.1 * (x.2 : ℚ)).sum) := by
  induction leaves with
  | nil => rfl
  | cons leaf leaves ih =>
    rw [shares, List.map_cons, List.sum_cons, ← shares, ih]
    unfold share
    cases hscore : leaf.score <;> simp [weighed, hscore, add_comm]

/-- The leaves of the root's subtree are all of them. -/
theorem WellFormed.subtree_root (hwf : t.WellFormed) (leaves : List ScoredLeaf) : t.subtree t.root leaves = leaves := by
  have hall : ∀ leaf ∈ leaves, Below t.parentOf (t.assign leaf.name).1 t.root := by
    intro leaf _
    rw [hwf.root]
    exact hwf.rooted.below_root (hwf.assign_lt leaf.name)
  exact List.filter_eq_self.mpr fun leaf hleaf => by simp [hall leaf hleaf]

/-- Leaves that are taken apart by the nodes they are placed at are the leaves. -/
theorem WellFormed.own_perm (hwf : t.WellFormed) (leaves : List ScoredLeaf) :
    ((List.range t.nodes.length).flatMap (t.own · leaves)).Perm leaves := by
  refine List.perm_iff_count.mpr fun leaf => ?_
  have hcount : ∀ id, (t.own id leaves).count leaf = if (t.assign leaf.name).1 = id then leaves.count leaf else 0 := by
    intro id
    by_cases hid : (t.assign leaf.name).1 = id
    · rw [if_pos hid, own, List.count_filter (by simpa using hid)]
    · rw [if_neg hid]
      exact List.count_eq_zero_of_not_mem fun hmem => hid (by simpa using (List.mem_filter.mp hmem).2)
  have hplace : ∃ id ∈ List.range t.nodes.length, (t.assign leaf.name).1 = id :=
    ⟨_, List.mem_range.mpr (hwf.assign_lt leaf.name), rfl⟩
  rw [List.count_flatMap]
  calc ((List.range t.nodes.length).map fun id => (t.own id leaves).count leaf).sum
      = ((List.range t.nodes.length).map fun id => if (t.assign leaf.name).1 = id then leaves.count leaf else 0).sum :=
        congrArg List.sum (List.map_congr_left fun id _ => hcount id)
    _ = if ∃ id ∈ List.range t.nodes.length, (t.assign leaf.name).1 = id then leaves.count leaf else 0 :=
        Rooted.sum_ite_unique List.nodup_range (fun a _ b _ ha hb => ha.symm.trans hb) _
    _ = leaves.count leaf := if_pos hplace

/-- The totals of a node are the shares of its own leaves and the totals of its children. -/
theorem WellFormed.counted_children (hwf : t.WellFormed) (id : Nat) (leaves : List ScoredLeaf) :
    (t.totals id leaves).counted =
      t.shares (t.own id leaves) + ((t.children id).map fun c => (t.totals c leaves).counted).sum := by
  classical
  have hsum := hwf.rooted.sum_below (fun leaf : ScoredLeaf => (t.assign leaf.name).1) t.share id leaves
  have htotals : ∀ id, (t.totals id leaves).counted =
      ((leaves.filter fun leaf => Below t.parentOf (t.assign leaf.name).1 id).map t.share).sum := by
    intro id
    rw [hwf.counted_totals, shares, subtree]
  rw [htotals, hsum, shares, own]
  simp only [htotals]

/-- A score is the mean of the scored leaves of the subtree by their weights, where these sum up to more than 0. -/
theorem WellFormed.score_aggregateRow (hwf : t.WellFormed) (id : Nat) (leaves : List ScoredLeaf) :
    (t.aggregateRow leaves id).score =
      if ((t.weighed (t.subtree id leaves)).map (·.1)).sum > 0 then weightedMean (t.weighed (t.subtree id leaves)) else 0 := by
  have hbelow := hwf.counted_totals id leaves
  rw [shares_eq] at hbelow
  have hweights : (t.totals id leaves).weights = ((t.weighed (t.subtree id leaves)).map (·.1)).sum := congrArg (·.2.2.2.1) hbelow
  have hscores : (t.totals id leaves).sum = ((t.weighed (t.subtree id leaves)).map fun x => x.1 * (x.2 : ℚ)).sum :=
    congrArg (·.2.2.2.2) hbelow
  rw [weightedMean, ← hweights, ← hscores]
  rfl

/-- The rollup of an accepted tree conserves its leaves: each is placed at exactly one node; what is counted at a node is what its
own leaves contribute and what is counted at its children; the root counts them all; and a score is the mean of the scored leaves
of the subtree by their weights, where these sum up to more than 0. -/
theorem rollup_conserves {file : OrgFile} {t : OrgTree} (h : build file = .ok t) (leaves : List ScoredLeaf) :
    (∀ leaf ∈ leaves, ∃! id, id < t.nodes.length ∧ leaf ∈ t.own id leaves) ∧
    ((List.range t.nodes.length).flatMap (t.own · leaves)).Perm leaves ∧
    (t.aggregate t.root leaves).expected = leaves.length ∧
    ∀ id < t.nodes.length,
      (t.totals id leaves).counted =
        t.shares (t.own id leaves) + ((t.children id).map fun c => (t.totals c leaves).counted).sum ∧
      ((t.aggregate id leaves).expected, (t.aggregate id leaves).scored, (t.aggregate id leaves).weight) =
        ((t.totals id leaves).expected, (t.totals id leaves).scored, (t.totals id leaves).totalWeight) ∧
      (t.aggregate id leaves).children.Perm ((t.children id).map (t.aggregateRow leaves)) ∧
      (t.aggregate id leaves).score =
        if ((t.weighed (t.subtree id leaves)).map (·.1)).sum > 0 then weightedMean (t.weighed (t.subtree id leaves)) else 0 := by
  have hwf := build_wellFormed h
  refine ⟨fun leaf hleaf => ⟨(t.assign leaf.name).1, ⟨hwf.assign_lt leaf.name, ?_⟩, fun id hid => ?_⟩, hwf.own_perm leaves, ?_,
    fun id _ => ⟨hwf.counted_children id leaves, rfl, List.mergeSort_perm _ _, hwf.score_aggregateRow id leaves⟩⟩
  · exact List.mem_filter.mpr ⟨hleaf, decide_eq_true rfl⟩
  · exact (of_decide_eq_true (List.mem_filter.mp hid.2).2).symm
  · have hall := hwf.counted_totals t.root leaves
    rw [hwf.subtree_root, shares_eq] at hall
    exact congrArg Prod.fst hall

theorem rollup_conserves_sample :
    (sampleTree.totals 2 [⟨"edge-cdn", some 100⟩, ⟨"db-a", none⟩, ⟨"edge-b", some 20⟩]).weakest = some (20, "edge-b") ∧
      (sampleTree.aggregate 0 [⟨"edge-cdn", some 100⟩, ⟨"db-a", none⟩, ⟨"edge-b", some 20⟩]).expected = 3 :=
  ⟨by decide, (rollup_conserves build_sampleFile _).2.2.1⟩

/-! ## The rollup of a path -/

/-- The scores of the leaves that have one, with their names. -/
def scoredLeaves (leaves : List ScoredLeaf) : List (Nat × String) :=
  leaves.filterMap fun leaf => leaf.score.map fun score => (score, leaf.name)

/-- The weakest leaf so far gives way to one of the subtree with a score that is less. -/
theorem weakest_tally (id : Nat) (acc : Totals) (leaf : ScoredLeaf) :
    (t.tally id acc leaf).weakest =
      (scoredLeaves (if t.inSubtree id (t.assign leaf.name).1 then [leaf] else [])).foldl
        (List.argAux fun x y => x.1 < y.1) acc.weakest := by
  unfold tally scoredLeaves
  by_cases hin : t.inSubtree id (t.assign leaf.name).1 = true
  · cases hscore : leaf.score with
    | none => simp [hin, hscore]
    | some score => cases acc.weakest <;> simp [hin, hscore, List.argAux]
  · simp [hin]

/-- The weakest leaf of a node is the first of its subtree with the least score (induction on the leaves). -/
theorem WellFormed.weakest_totals (hwf : t.WellFormed) (id : Nat) (leaves : List ScoredLeaf) :
    (t.totals id leaves).weakest = (scoredLeaves (t.subtree id leaves)).argmin (·.1) := by
  have hrun : ∀ acc : Totals, (leaves.foldl (t.tally id) acc).weakest =
      (scoredLeaves (t.subtree id leaves)).foldl (List.argAux fun x y => x.1 < y.1) acc.weakest := by
    induction leaves with
    | nil => exact fun acc => rfl
    | cons leaf leaves ih =>
      intro acc
      have hiff := hwf.inSubtreeFrom_iff id (hwf.assign_lt leaf.name)
      have hsplit : scoredLeaves (t.subtree id (leaf :: leaves)) =
          scoredLeaves (if t.inSubtree id (t.assign leaf.name).1 then [leaf] else []) ++ scoredLeaves (t.subtree id leaves) := by
        rw [scoredLeaves, scoredLeaves, scoredLeaves, ← List.filterMap_append, subtree, inSubtree]
        by_cases hbelow : Below t.parentOf (t.assign leaf.name).1 id
        · simp [hbelow, hiff.mpr hbelow, subtree]
        · have hout := mt hiff.mp hbelow
          simp [hbelow, hout, subtree]
      rw [List.foldl_cons, ih, weakest_tally, hsplit, List.foldl_append]
  exact hrun _

/-- A mean by positive weights lies between the bounds of what it is taken of. -/
theorem weightedMean_between {scores : List (ℚ × Nat)} (hne : scores ≠ []) (hpos : ∀ x ∈ scores, 0 < x.1) {lo hi : ℚ}
    (hbounds : ∀ x ∈ scores, lo ≤ x.2 ∧ (x.2 : ℚ) ≤ hi) :
    0 < (scores.map (·.1)).sum ∧ lo ≤ weightedMean scores ∧ weightedMean scores ≤ hi := by
  have hweights : 0 < (scores.map (·.1)).sum :=
    List.sum_pos _ (List.forall_mem_map.mpr hpos) (mt List.map_eq_nil_iff.mp hne)
  refine ⟨hweights, ?_, ?_⟩
  · rw [weightedMean, le_div_iff₀ hweights, ← List.sum_map_mul_left]
    refine List.sum_le_sum fun x hx => ?_
    rw [mul_comm]
    exact mul_le_mul_of_nonneg_left (hbounds x hx).1 (hpos x hx).le
  · rw [weightedMean, div_le_iff₀ hweights, ← List.sum_map_mul_left]
    refine List.sum_le_sum fun x hx => ?_
    rw [mul_comm hi]
    exact mul_le_mul_of_nonneg_left (hbounds x hx).2 (hpos x hx).le

/-- Weights are positive where the default is. -/
theorem assign_pos (hdefault : 0 < t.defaultWeight) (name : String) : 0 < (t.assign name).2 := by
  have hlevel : ∀ level : Option String, 0 < ((level.map criticalityWeight).getD 1 : ℕ) := by
    intro level
    cases level with
    | none => exact Nat.one_pos
    | some level =>
      rw [Option.map_some, Option.getD_some]
      unfold criticalityWeight
      split <;> decide
  unfold assign
  split
  · exact mul_pos hdefault (Nat.cast_pos.mpr (hlevel _))
  · exact hdefault

theorem mem_weighed {leaves : List ScoredLeaf} {x : ℚ × Nat} (h : x ∈ t.weighed leaves) :
    ∃ name, x.1 = (t.assign name).2 ∧ (x.2, name) ∈ scoredLeaves leaves := by
  obtain ⟨leaf, hleaf, hx⟩ := List.mem_filterMap.mp h
  obtain ⟨score, hscore, rfl⟩ := Option.map_eq_some_iff.mp hx
  exact ⟨leaf.name, rfl, List.mem_filterMap.mpr ⟨leaf, hleaf, by rw [hscore, Option.map_some]⟩⟩

theorem weighed_ne_nil {leaves : List ScoredLeaf} (h : scoredLeaves leaves ≠ []) : t.weighed leaves ≠ [] := by
  obtain ⟨x, hx⟩ := List.exists_mem_of_ne_nil _ h
  obtain ⟨leaf, hleaf, hleaf'⟩ := List.mem_filterMap.mp hx
  obtain ⟨score, hscore, -⟩ := Option.map_eq_some_iff.mp hleaf'
  have hmem : ((t.assign leaf.name).2, score) ∈ t.weighed leaves :=
    List.mem_filterMap.mpr ⟨leaf, hleaf, by rw [hscore, Option.map_some]⟩
  exact List.ne_nil_of_mem hmem

/-- A node's score lies between the bounds of the scores of its subtree, where weights are positive. -/
theorem WellFormed.score_between (hwf : t.WellFormed) (hdefault : 0 < t.defaultWeight) {id : Nat} {leaves : List ScoredLeaf}
    (hne : scoredLeaves (t.subtree id leaves) ≠ []) {lo hi : Nat}
    (hbounds : ∀ x ∈ scoredLeaves (t.subtree id leaves), lo ≤ x.1 ∧ x.1 ≤ hi) :
    lo ≤ (t.aggregateRow leaves id).score ∧ (t.aggregateRow leaves id).score ≤ hi := by
  have hbetween : 0 < ((t.weighed (t.subtree id leaves)).map (·.1)).sum ∧ lo ≤ weightedMean (t.weighed (t.subtree id leaves)) ∧
      weightedMean (t.weighed (t.subtree id leaves)) ≤ hi := by
    refine weightedMean_between (weighed_ne_nil hne) (fun x hx => ?_) (fun x hx => ?_)
    · obtain ⟨name, hweight, -⟩ := mem_weighed hx
      exact hweight ▸ assign_pos hdefault name
    · obtain ⟨name, -, hmem⟩ := mem_weighed hx
      exact ⟨Nat.cast_le.mpr (hbounds _ hmem).1, Nat.cast_le.mpr (hbounds _ hmem).2⟩
  rw [hwf.score_aggregateRow, if_pos hbetween.1]
  exact hbetween.2

end OrgTree

end Tumult.Compliance
