import Mathlib

/-!
# Flowcharts in Mermaid

The statements of a flowchart as text, the reader of such a text, and the graph that the statements describe. An identifier is a
word of letters, digits and underscores that the language does not reserve.
-/

namespace Mermaid

/-! ## Statements -/

inductive Statement where
  /-- `id["label"]` -/
  | node (id label : String)
  /-- `a --> b` -/
  | solid (a b : String)
  /-- `a -.-> b` -/
  | dashed (a b : String)
  /-- `classDef name style` -/
  | classDef (name style : String)
  /-- `class id name` -/
  | assign (id name : String)
  deriving DecidableEq, Repr

/-- A statement on a line of its own. -/
def Statement.render : Statement → String
  | node id label => "  " ++ id ++ "[\"" ++ label ++ "\"]\n"
  | solid a b => "  " ++ a ++ " --> " ++ b ++ "\n"
  | dashed a b => "  " ++ a ++ " -.-> " ++ b ++ "\n"
  | classDef name style => "  classDef " ++ name ++ " " ++ style ++ "\n"
  | assign id name => "  class " ++ id ++ " " ++ name ++ "\n"

def header : String := "graph TD\n"

def render (sts : List Statement) : String := header ++ String.join (sts.map Statement.render)

/-! ## The reader -/

def isIdChar (c : Char) : Bool := c.isAlphanum || c = '_'

def keywords : List String :=
  ["graph", "flowchart", "subgraph", "end", "class", "classDef", "click", "style", "linkStyle", "direction", "default"]

/-- A word that may name a node. -/
def IsName (w : String) : Prop := w ≠ "" ∧ w ∉ keywords

instance (w : String) : Decidable (IsName w) := inferInstanceAs (Decidable (_ ∧ _))

def expect (w : String) (cs : List Char) : Option (List Char) :=
  if w.toList.isPrefixOf cs then some (cs.drop w.toList.length) else none

def readWord (cs : List Char) : String × List Char := (String.ofList (cs.takeWhile isIdChar), cs.dropWhile isIdChar)

def readName (cs : List Char) : Option (String × List Char) :=
  let (w, rest) := readWord cs
  if IsName w then some (w, rest) else none

/-- A text up to one of its characters. -/
def readUntil (c : Char) (cs : List Char) : String × List Char := (String.ofList (cs.takeWhile (· ≠ c)), cs.dropWhile (· ≠ c))

/-- What stands behind the first word of a statement. -/
def readRest (w : String) (cs : List Char) : Option (Statement × List Char) :=
  if w = "classDef" then do
    let (name, cs) ← readName (← expect " " cs)
    let (style, cs) := readUntil '\n' (← expect " " cs)
    pure (.classDef name style, ← expect "\n" cs)
  else if w = "class" then do
    let (id, cs) ← readName (← expect " " cs)
    let (name, cs) ← readName (← expect " " cs)
    pure (.assign id name, ← expect "\n" cs)
  else if IsName w then
    match expect "[\"" cs, expect " --> " cs, expect " -.-> " cs with
    | some cs, _, _ => do
      let (label, cs) := readUntil '"' cs
      pure (.node w label, ← expect "\"]\n" cs)
    | _, some cs, _ => do
      let (b, cs) ← readName cs
      pure (.solid w b, ← expect "\n" cs)
    | _, _, some cs => do
      let (b, cs) ← readName cs
      pure (.dashed w b, ← expect "\n" cs)
    | none, none, none => none
  else none

def readStatement (cs : List Char) : Option (Statement × List Char) :=
  let (w, rest) := readWord (cs.dropWhile (· = ' '))
  readRest w rest

/-- Statement by statement; each takes a character at least. -/
def readAll : Nat → List Char → Option (List Statement)
  | _, [] => some []
  | 0, _ :: _ => none
  | fuel + 1, c :: cs => do
    let (st, rest) ← readStatement (c :: cs)
    return st :: (← readAll fuel rest)

def parse (text : String) : Option (List Statement) := do
  let cs ← expect header text.toList
  readAll cs.length cs

/-! ## What is rendered is read -/

def IsWord (w : String) : Prop := ∀ c ∈ w.toList, isIdChar c = true

/-- The characters of a statement are those of its places. -/
def Statement.WellFormed : Statement → Prop
  | node id label => IsWord id ∧ '"' ∉ label.toList
  | solid a b | dashed a b => IsWord a ∧ IsWord b
  | classDef name style => IsWord name ∧ IsName name ∧ '\n' ∉ style.toList
  | assign id name => IsWord id ∧ IsWord name ∧ IsName name

/-- The identifiers of nodes in a statement. -/
def Statement.ids : Statement → List String
  | node id _ | assign id _ => [id]
  | solid a b | dashed a b => [a, b]
  | classDef _ _ => []

variable {w : String} {rest : List Char}

theorem expect_append (w : String) (rest : List Char) : expect w (w.toList ++ rest) = some rest := by
  rw [expect, if_pos (List.isPrefixOf_iff_prefix.mpr (List.prefix_append _ _)), List.drop_left]

theorem takeWhile_append_stop {p : Char → Bool} {cs rest : List Char} (h : ∀ c ∈ cs, p c = true)
    (hrest : ∀ c ∈ rest.head?, p c = false) : (cs ++ rest).takeWhile p = cs ∧ (cs ++ rest).dropWhile p = rest := by
  rw [List.takeWhile_append_of_pos h, List.dropWhile_append_of_pos h]
  cases rest with
  | nil => simp
  | cons c rest => simp [hrest c rfl]

theorem readWord_append (hw : IsWord w) (hrest : ∀ c ∈ rest.head?, isIdChar c = false) :
    readWord (w.toList ++ rest) = (w, rest) := by
  obtain ⟨htake, hdrop⟩ := takeWhile_append_stop hw hrest
  rw [readWord, htake, hdrop, String.ofList_toList]

theorem readName_append (hw : IsWord w) (hrest : ∀ c ∈ rest.head?, isIdChar c = false) :
    readName (w.toList ++ rest) = if IsName w then some (w, rest) else none := by
  rw [readName, readWord_append hw hrest]

theorem readUntil_append {c : Char} (hw : c ∉ w.toList) (hrest : rest.head? = some c) :
    readUntil c (w.toList ++ rest) = (w, rest) := by
  have hchars : ∀ d ∈ w.toList, decide (d ≠ c) = true := fun d hd => decide_eq_true fun heq => hw (heq ▸ hd)
  have hstop : ∀ d ∈ rest.head?, decide (d ≠ c) = false := by
    intro d hd
    rw [hrest] at hd
    simpa using (Option.some.inj hd).symm
  obtain ⟨htake, hdrop⟩ := takeWhile_append_stop hchars hstop
  rw [readUntil, htake, hdrop, String.ofList_toList]

theorem readRest_node {label : String} (hlabel : '"' ∉ label.toList) :
    readRest w ("[\"".toList ++ (label.toList ++ ("\"]\n".toList ++ rest))) =
      if IsName w then some (.node w label, rest) else none := by
  unfold readRest
  split_ifs with hdef hname hassign hname hname
  · exact absurd (hdef ▸ hname) (by decide)
  · rfl
  · exact absurd (hassign ▸ hname) (by decide)
  · rfl
  · rw [expect_append]
    dsimp only [Option.bind_eq_bind, Option.pure_def]
    rw [readUntil_append hlabel rfl]
    dsimp only
    rw [expect_append]
    rfl
  · rfl

theorem readRest_solid {b : String} (hb : IsWord b) :
    readRest w (" --> ".toList ++ (b.toList ++ ("\n".toList ++ rest))) =
      if IsName w ∧ IsName b then some (.solid w b, rest) else none := by
  have hnode : ∀ cs, expect "[\"" (" --> ".toList ++ cs) = none := fun _ => rfl
  have hdashed : ∀ cs, expect " -.-> " (" --> ".toList ++ cs) = none := fun _ => rfl
  have hname : readName (b.toList ++ ("\n".toList ++ rest)) = if IsName b then some (b, "\n".toList ++ rest) else none :=
    readName_append hb fun c hc => by cases hc; rfl
  unfold readRest
  split_ifs with hdef hboth hassign hboth hw hboth hboth
  · exact absurd (hdef ▸ hboth.1) (by decide)
  · rfl
  · exact absurd (hassign ▸ hboth.1) (by decide)
  · rfl
  · rw [hnode, hdashed, expect_append]
    dsimp only
    rw [hname, if_pos hboth.2, Option.bind_eq_bind, Option.bind_some, expect_append]
    rfl
  · rw [hnode, hdashed, expect_append]
    dsimp only
    rw [hname, if_neg fun hb => hboth ⟨hw, hb⟩]
    rfl
  · exact absurd hboth.1 hw
  · rfl

theorem readRest_dashed {b : String} (hb : IsWord b) :
    readRest w (" -.-> ".toList ++ (b.toList ++ ("\n".toList ++ rest))) =
      if IsName w ∧ IsName b then some (.dashed w b, rest) else none := by
  have hnode : ∀ cs, expect "[\"" (" -.-> ".toList ++ cs) = none := fun _ => rfl
  have hsolid : ∀ cs, expect " --> " (" -.-> ".toList ++ cs) = none := fun _ => rfl
  have hname : readName (b.toList ++ ("\n".toList ++ rest)) = if IsName b then some (b, "\n".toList ++ rest) else none :=
    readName_append hb fun c hc => by cases hc; rfl
  unfold readRest
  split_ifs with hdef hboth hassign hboth hw hboth hboth
  · exact absurd (hdef ▸ hboth.1) (by decide)
  · rfl
  · exact absurd (hassign ▸ hboth.1) (by decide)
  · rfl
  · rw [hnode, hsolid, expect_append]
    dsimp only
    rw [hname, if_pos hboth.2, Option.bind_eq_bind, Option.bind_some, expect_append]
    rfl
  · rw [hnode, hsolid, expect_append]
    dsimp only
    rw [hname, if_neg fun hb => hboth ⟨hw, hb⟩]
    rfl
  · exact absurd hboth.1 hw
  · rfl

theorem readRest_classDef {name style : String} (hname : IsWord name) (hvalid : IsName name) (hstyle : '\n' ∉ style.toList) :
    readRest "classDef" (" ".toList ++ (name.toList ++ (" ".toList ++ (style.toList ++ ("\n".toList ++ rest))))) =
      some (.classDef name style, rest) := by
  have hread : ∀ cs, readName (name.toList ++ (" ".toList ++ cs)) = some (name, " ".toList ++ cs) := fun cs => by
    rw [readName_append hname fun c hc => by cases hc; rfl, if_pos hvalid]
  have huntil : readUntil '\n' (style.toList ++ ("\n".toList ++ rest)) = (style, "\n".toList ++ rest) :=
    readUntil_append hstyle rfl
  rw [readRest, if_pos rfl]
  simp only [expect_append, Option.bind_eq_bind, Option.bind_some, hread, huntil, Option.pure_def]

theorem readRest_assign {id name : String} (hid : IsWord id) (hname : IsWord name) (hvalid : IsName name) :
    readRest "class" (" ".toList ++ (id.toList ++ (" ".toList ++ (name.toList ++ ("\n".toList ++ rest))))) =
      if IsName id then some (.assign id name, rest) else none := by
  have hread : ∀ cs, readName (id.toList ++ (" ".toList ++ cs)) = if IsName id then some (id, " ".toList ++ cs) else none :=
    fun cs => readName_append hid fun c hc => by cases hc; rfl
  have hread' : ∀ cs, readName (name.toList ++ ("\n".toList ++ cs)) = some (name, "\n".toList ++ cs) := fun cs => by
    rw [readName_append hname fun c hc => by cases hc; rfl, if_pos hvalid]
  rw [readRest, if_neg (by decide), if_pos rfl]
  simp only [expect_append, Option.bind_eq_bind, Option.bind_some, hread]
  split_ifs with hvalid'
  · simp only [expect_append, Option.bind_some, hread', Option.pure_def]
  · rfl

/-- The first word of a line, if there is one. -/
theorem readStatement_word {cs : List Char} (hw : IsWord w) (hstop : ∀ c ∈ cs.head?, isIdChar c = false)
    (hstop' : w = "" → ∀ c ∈ (cs.dropWhile fun c => decide (c = ' ')).head?, isIdChar c = false) :
    readStatement ("  ".toList ++ (w.toList ++ cs)) = readRest w cs := by
  have hindent : ("  ".toList ++ (w.toList ++ cs)).dropWhile (fun c => decide (c = ' ')) =
      (w.toList ++ cs).dropWhile fun c => decide (c = ' ') := rfl
  rw [readStatement, hindent]
  cases hchars : w.toList with
  | nil =>
    obtain rfl : w = "" := String.toList_injective hchars
    have hempty : readWord (cs.dropWhile fun c => decide (c = ' ')) = ("", cs.dropWhile fun c => decide (c = ' ')) :=
      readWord_append hw (hstop' rfl)
    rw [List.nil_append, hempty]
    rfl
  | cons c chars =>
    have hc : isIdChar c = true := hw c (hchars ▸ List.mem_cons_self)
    have hspace : c ≠ ' ' := by
      rintro rfl
      exact absurd hc (by decide)
    rw [List.cons_append, List.dropWhile_cons_of_neg (by simpa using hspace), ← List.cons_append, ← hchars,
      readWord_append hw hstop]

/-- A statement that is rendered is read, if its identifiers are names, and nothing is otherwise. -/
theorem readStatement_render {st : Statement} (h : st.WellFormed) :
    readStatement (st.render.toList ++ rest) = if ∀ id ∈ st.ids, IsName id then some (st, rest) else none := by
  cases st with
  | node id label =>
    simp only [Statement.render, String.toList_append, List.append_assoc]
    rw [readStatement_word h.1 (fun c hc => by cases hc; rfl) (fun _ c hc => by cases hc; rfl), readRest_node h.2]
    simp [Statement.ids]
  | solid a b =>
    simp only [Statement.render, String.toList_append, List.append_assoc]
    rw [readStatement_word h.1 (fun c hc => by cases hc; rfl) (fun _ c hc => by cases hc; rfl), readRest_solid h.2]
    simp [Statement.ids]
  | dashed a b =>
    simp only [Statement.render, String.toList_append, List.append_assoc]
    rw [readStatement_word h.1 (fun c hc => by cases hc; rfl) (fun _ c hc => by cases hc; rfl), readRest_dashed h.2]
    simp [Statement.ids]
  | classDef name style =>
    have hword : IsWord "classDef" := List.all_eq_true.mp (by decide)
    have hstart : "  classDef ".toList = "  ".toList ++ ("classDef".toList ++ " ".toList) := rfl
    simp only [Statement.render, String.toList_append, List.append_assoc, hstart]
    rw [readStatement_word hword (fun c hc => by cases hc; rfl) nofun, readRest_classDef h.1 h.2.1 h.2.2]
    simp [Statement.ids]
  | assign id name =>
    have hword : IsWord "class" := List.all_eq_true.mp (by decide)
    have hstart : "  class ".toList = "  ".toList ++ ("class".toList ++ " ".toList) := rfl
    simp only [Statement.render, String.toList_append, List.append_assoc, hstart]
    rw [readStatement_word hword (fun c hc => by cases hc; rfl) nofun, readRest_assign h.1 h.2.1 h.2.2]
    simp [Statement.ids]

/-- A text that is rendered is read as its statements, if all their identifiers are names. -/
theorem parse_render {sts : List Statement} (h : ∀ st ∈ sts, st.WellFormed) :
    parse (render sts) = if ∀ st ∈ sts, ∀ id ∈ st.ids, IsName id then some sts else none := by
  have hread : ∀ fuel, (String.join (sts.map Statement.render)).toList.length ≤ fuel →
      readAll fuel (String.join (sts.map Statement.render)).toList =
        if ∀ st ∈ sts, ∀ id ∈ st.ids, IsName id then some sts else none := by
    induction sts with
    | nil =>
      intro fuel _
      simp [readAll]
    | cons st sts ih =>
      intro fuel hfuel
      obtain ⟨chars, hchars⟩ : ∃ chars, st.render.toList = ' ' :: chars := by
        cases st <;> exact ⟨_, by simp only [Statement.render, String.toList_append, List.append_assoc]; rfl⟩
      have hjoin : (String.join ((st :: sts).map Statement.render)).toList =
          st.render.toList ++ (String.join (sts.map Statement.render)).toList := by
        simp [String.join_cons]
      rw [hjoin, List.length_append, hchars, List.length_cons] at hfuel
      obtain ⟨fuel, rfl⟩ := Nat.exists_eq_add_of_le' (show 1 ≤ fuel by omega)
      obtain ⟨hst, hsts⟩ := List.forall_mem_cons.mp h
      have hfirst : ∀ rest, readStatement (st.render.toList ++ rest) =
          if ∀ id ∈ st.ids, IsName id then some (st, rest) else none := fun rest => readStatement_render hst
      rw [hjoin]
      rw [hchars] at hfirst ⊢
      rw [List.cons_append, readAll, ← List.cons_append, hfirst]
      simp only [List.forall_mem_cons]
      by_cases hids : ∀ id ∈ st.ids, IsName id
      · rw [if_pos hids, Option.bind_eq_bind, Option.bind_some, ih hsts fuel (by omega)]
        split_ifs with hrest hall hall
        · rfl
        · exact absurd ⟨hids, hrest⟩ hall
        · exact absurd hall.2 hrest
        · rfl
      · rw [if_neg hids, if_neg fun hall => hids hall.1]
        rfl
  rw [parse, render, String.toList_append, expect_append]
  exact hread _ le_rfl

/-! ## Graphs -/

structure Graph where
  nodes : Finset String
  solid : List (String × String)
  dashed : List (String × String)
  /-- The classes that are assigned, in their order. -/
  classes : List (String × String)
  deriving DecidableEq

/-- The nodes of a statement, those of an edge too. -/
def Statement.nodes : Statement → List String
  | node id _ => [id]
  | solid a b | dashed a b => [a, b]
  | classDef _ _ | assign _ _ => []

def Statement.solidEdge : Statement → Option (String × String)
  | solid a b => some (a, b)
  | _ => none

def Statement.dashedEdge : Statement → Option (String × String)
  | dashed a b => some (a, b)
  | _ => none

def Statement.assignment : Statement → Option (String × String)
  | assign id name => some (id, name)
  | _ => none

def graphOf (sts : List Statement) : Graph where
  nodes := (sts.flatMap Statement.nodes).toFinset
  solid := sts.filterMap Statement.solidEdge
  dashed := sts.filterMap Statement.dashedEdge
  classes := sts.filterMap Statement.assignment

/-- The graph that a text describes. -/
def describes (text : String) : Option Graph := (parse text).map graphOf

/-- The classes of a node. -/
def Graph.classesOf (g : Graph) (id : String) : List String := (g.classes.filter (·.1 = id)).map (·.2)

end Mermaid
