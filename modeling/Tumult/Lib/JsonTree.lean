import Tumult.Lib.Json
import Tumult.Lib.OrdMap

/-!
# JSON values

Values as trees, their compact text, and their canonical form, in which the fields of every object are sorted. The text determines the
value (`render_inj`), and two values have the same canonical form exactly when no path tells them apart (`canonical_eq_iff`): the order
in which the fields of an object came is all that is lost.
-/

namespace JsonTree

open JsonText

def isNumberChar (c : Char) : Bool := c.isDigit || c = '-' || c = '+' || c = '.' || c = 'e' || c = 'E'

/-- A number, as the text it is printed as. -/
@[ext] structure NumberText where
  text : String
  nonempty : text.toList ≠ []
  plain : text.toList.all isNumberChar = true
  deriving DecidableEq

inductive Json where
  | null
  | bool (b : Bool)
  | num (n : NumberText)
  | str (s : String)
  | arr (items : List Json)
  | obj (fields : List (String × Json))

/-- A property of all values, from the parts of a value to the whole. -/
theorem Json.induct {P : Json → Prop} (hnull : P .null) (hbool : ∀ b, P (.bool b)) (hnum : ∀ n, P (.num n)) (hstr : ∀ s, P (.str s))
    (harr : ∀ items, (∀ v ∈ items, P v) → P (.arr items)) (hobj : ∀ fields, (∀ f ∈ fields, P f.2) → P (.obj fields)) :
    (v : Json) → P v
  | .null => hnull
  | .bool b => hbool b
  | .num n => hnum n
  | .str s => hstr s
  | .arr items => harr items fun v hv =>
    have : sizeOf v < 1 + sizeOf items := by
      have := List.sizeOf_lt_of_mem hv
      omega
    Json.induct hnull hbool hnum hstr harr hobj v
  | .obj fields => hobj fields fun f hf =>
    have : sizeOf f.2 < 1 + sizeOf fields := by
      have hlt := List.sizeOf_lt_of_mem hf
      obtain ⟨k, v⟩ := f
      simp only [Prod.mk.sizeOf_spec] at hlt ⊢
      omega
    Json.induct hnull hbool hnum hstr harr hobj f.2

/-! ## Compact text -/

mutual

/-- The compact text of a value. -/
def Json.render : Json → List Char
  | .null => ['n', 'u', 'l', 'l']
  | .bool true => ['t', 'r', 'u', 'e']
  | .bool false => ['f', 'a', 'l', 's', 'e']
  | .num n => n.text.toList
  | .str s => quote s
  | .arr [] => ['[', ']']
  | .arr (v :: vs) => '[' :: (v.render ++ renderItems vs)
  | .obj [] => ['\x7b', '\x7d']
  | .obj ((k, v) :: fs) => '\x7b' :: (quote k ++ ':' :: (v.render ++ renderFields fs))

/-- The items after the first, and the bracket. -/
def renderItems : List Json → List Char
  | [] => [']']
  | v :: vs => ',' :: (v.render ++ renderItems vs)

/-- The fields after the first, and the brace. -/
def renderFields : List (String × Json) → List Char
  | [] => ['\x7d']
  | (k, v) :: fs => ',' :: (quote k ++ ':' :: (v.render ++ renderFields fs))

end

/-- Text in which a value has ended. -/
def Delimited : List Char → Prop
  | [] => True
  | c :: _ => c = ',' ∨ c = ']' ∨ c = '\x7d'

theorem renderItems_delimited (vs : List Json) (x : List Char) : Delimited (renderItems vs ++ x) := by
  cases vs with
  | nil => exact .inr (.inl rfl)
  | cons v vs => exact .inl rfl

theorem renderFields_delimited (fs : List (String × Json)) (x : List Char) : Delimited (renderFields fs ++ x) := by
  cases fs with
  | nil => exact .inr (.inr rfl)
  | cons f fs => exact .inl rfl

/-- What kind of value a character begins. -/
def kindOf (c : Char) : Nat :=
  if c = 'n' then 0 else if c = 't' then 1 else if c = 'f' then 2 else if c = '"' then 3 else if c = '[' then 4 else
    if c = '\x7b' then 5 else if isNumberChar c then 6 else 7

def Json.kind : Json → Nat
  | .null => 0
  | .bool true => 1
  | .bool false => 2
  | .str _ => 3
  | .arr _ => 4
  | .obj _ => 5
  | .num _ => 6

theorem kindOf_number {c : Char} (h : isNumberChar c = true) : kindOf c = 6 := by
  have hne (d : Char) (hd : isNumberChar d = false) : c ≠ d := by
    rintro rfl
    rw [h] at hd
    cases hd
  unfold kindOf
  simp [hne 'n' (by decide), hne 't' (by decide), hne 'f' (by decide), hne '"' (by decide), hne '[' (by decide),
    hne '\x7b' (by decide), h]

theorem render_kind (v : Json) : ∃ c rest, v.render = c :: rest ∧ kindOf c = v.kind := by
  cases v with
  | null => exact ⟨'n', _, rfl, rfl⟩
  | bool b =>
    cases b with
    | true => exact ⟨'t', _, rfl, rfl⟩
    | false => exact ⟨'f', _, rfl, rfl⟩
  | num n =>
    have hplain := n.plain
    cases htext : n.text.toList with
    | nil => exact absurd htext n.nonempty
    | cons c rest =>
      rw [htext, List.all_cons, Bool.and_eq_true] at hplain
      exact ⟨c, rest, by rw [Json.render, htext], kindOf_number hplain.1⟩
  | str s => exact ⟨'"', _, rfl, rfl⟩
  | arr items =>
    cases items with
    | nil => exact ⟨'[', _, rfl, rfl⟩
    | cons v vs => exact ⟨'[', _, rfl, rfl⟩
  | obj fields =>
    rcases fields with _ | ⟨⟨k, v⟩, fs⟩
    · exact ⟨'\x7b', _, rfl, rfl⟩
    · exact ⟨'\x7b', _, rfl, rfl⟩

theorem kind_eq {v w : Json} {x y : List Char} (h : v.render ++ x = w.render ++ y) : v.kind = w.kind := by
  obtain ⟨c, rest, hv, hc⟩ := render_kind v
  obtain ⟨d, rest', hw, hd⟩ := render_kind w
  rw [hv, hw] at h
  rw [← hc, ← hd, (List.cons.inj h).1]

/-- Two texts of number characters, each followed by a delimiter or by nothing, agree. -/
theorem number_inj {a b x y : List Char} (ha : a.all isNumberChar = true) (hb : b.all isNumberChar = true) (hx : Delimited x)
    (hy : Delimited y) (h : a ++ x = b ++ y) : a = b ∧ x = y := by
  have hdelimiter {c : Char} {rest : List Char} (hc : Delimited (c :: rest)) : isNumberChar c = false := by
    rcases hc with rfl | rfl | rfl <;> decide
  induction a generalizing b with
  | nil =>
    cases b with
    | nil => exact ⟨rfl, h⟩
    | cons d b =>
      rw [List.nil_append, List.cons_append] at h
      rw [h] at hx
      rw [List.all_cons, hdelimiter hx] at hb
      cases hb
  | cons c a ih =>
    cases b with
    | nil =>
      rw [List.nil_append, List.cons_append] at h
      rw [← h] at hy
      rw [List.all_cons, hdelimiter hy] at ha
      cases ha
    | cons d b =>
      rw [List.all_cons, Bool.and_eq_true] at ha hb
      obtain ⟨rfl, hrest⟩ := List.cons.inj h
      obtain ⟨rfl, hxy⟩ := ih ha.2 hb.2 hrest
      exact ⟨rfl, hxy⟩

/-- The text of a value and what follows it determine the value. -/
def Readable (v : Json) : Prop :=
  ∀ (w : Json) {x y : List Char}, Delimited x → Delimited y → v.render ++ x = w.render ++ y → v = w ∧ x = y

theorem renderItems_inj {vs ws : List Json} {x y : List Char} (hvs : ∀ v ∈ vs, Readable v)
    (h : renderItems vs ++ x = renderItems ws ++ y) : vs = ws ∧ x = y := by
  induction vs generalizing ws with
  | nil =>
    cases ws with
    | nil => exact ⟨rfl, (List.cons.inj h).2⟩
    | cons w ws => cases (List.cons.inj h).1
  | cons v vs ih =>
    cases ws with
    | nil => cases (List.cons.inj h).1
    | cons w ws =>
      simp only [renderItems, List.cons_append, List.append_assoc, List.cons.injEq, true_and] at h
      obtain ⟨rfl, hrest⟩ := hvs v List.mem_cons_self w (renderItems_delimited vs x) (renderItems_delimited ws y) h
      obtain ⟨rfl, hxy⟩ := ih (fun u hu => hvs u (List.mem_cons_of_mem _ hu)) hrest
      exact ⟨rfl, hxy⟩

theorem renderFields_inj {fs gs : List (String × Json)} {x y : List Char} (hfs : ∀ f ∈ fs, Readable f.2)
    (h : renderFields fs ++ x = renderFields gs ++ y) : fs = gs ∧ x = y := by
  induction fs generalizing gs with
  | nil =>
    cases gs with
    | nil => exact ⟨rfl, (List.cons.inj h).2⟩
    | cons g gs => cases (List.cons.inj h).1
  | cons f fs ih =>
    cases gs with
    | nil => cases (List.cons.inj h).1
    | cons g gs =>
      obtain ⟨k, v⟩ := f
      obtain ⟨l, w⟩ := g
      simp only [renderFields, List.cons_append, List.append_assoc, List.cons.injEq, true_and] at h
      obtain ⟨rfl, hvalue⟩ := quote_prefixFree k l _ _ h
      obtain ⟨rfl, hrest⟩ := hfs (k, v) List.mem_cons_self w (renderFields_delimited fs x) (renderFields_delimited gs y)
        (List.cons.inj hvalue).2
      obtain ⟨rfl, hxy⟩ := ih (fun g hg => hfs g (List.mem_cons_of_mem _ hg)) hrest
      exact ⟨rfl, hxy⟩

/-- No value begins with a closing bracket. -/
theorem render_ne_close (v : Json) (x y : List Char) : v.render ++ x ≠ ']' :: y := by
  obtain ⟨c, rest, hv, hc⟩ := render_kind v
  intro h
  rw [hv] at h
  obtain ⟨rfl, -⟩ := List.cons.inj h
  have hclose : kindOf ']' = 7 := rfl
  rw [hclose] at hc
  cases v with
  | bool b => cases b <;> cases hc
  | _ => cases hc

theorem renderArr_inj {vs ws : List Json} {x y : List Char} (hvs : ∀ v ∈ vs, Readable v)
    (h : (Json.arr vs).render ++ x = (Json.arr ws).render ++ y) : vs = ws ∧ x = y := by
  cases vs with
  | nil =>
    cases ws with
    | nil => exact ⟨rfl, List.append_cancel_left h⟩
    | cons w ws =>
      simp only [Json.render, List.cons_append, List.append_assoc, List.cons.injEq, true_and] at h
      exact absurd h.symm (render_ne_close w _ _)
  | cons v vs =>
    cases ws with
    | nil =>
      simp only [Json.render, List.cons_append, List.append_assoc, List.cons.injEq, true_and] at h
      exact absurd h (render_ne_close v _ _)
    | cons w ws =>
      simp only [Json.render, List.cons_append, List.append_assoc, List.cons.injEq, true_and] at h
      obtain ⟨rfl, hrest⟩ := hvs v List.mem_cons_self w (renderItems_delimited vs x) (renderItems_delimited ws y) h
      obtain ⟨rfl, hxy⟩ := renderItems_inj (fun u hu => hvs u (List.mem_cons_of_mem _ hu)) hrest
      exact ⟨rfl, hxy⟩

theorem renderObj_inj {fs gs : List (String × Json)} {x y : List Char} (hfs : ∀ f ∈ fs, Readable f.2)
    (h : (Json.obj fs).render ++ x = (Json.obj gs).render ++ y) : fs = gs ∧ x = y := by
  rcases fs with _ | ⟨⟨k, v⟩, fs⟩
  · rcases gs with _ | ⟨⟨l, w⟩, gs⟩
    · exact ⟨rfl, List.append_cancel_left h⟩
    · simp [Json.render, quote] at h
  · rcases gs with _ | ⟨⟨l, w⟩, gs⟩
    · simp [Json.render, quote] at h
    · simp only [Json.render, List.cons_append, List.append_assoc, List.cons.injEq, true_and] at h
      obtain ⟨rfl, hvalue⟩ := quote_prefixFree k l _ _ h
      obtain ⟨rfl, hrest⟩ := hfs (k, v) List.mem_cons_self w (renderFields_delimited fs x) (renderFields_delimited gs y)
        (List.cons.inj hvalue).2
      obtain ⟨rfl, hxy⟩ := renderFields_inj (fun g hg => hfs g (List.mem_cons_of_mem _ hg)) hrest
      exact ⟨rfl, hxy⟩

/-- The text of a value determines the value and where it ends. -/
theorem render_inj (v w : Json) {x y : List Char} (hx : Delimited x) (hy : Delimited y) (h : v.render ++ x = w.render ++ y) :
    v = w ∧ x = y := by
  induction v using Json.induct generalizing w x y with
  | hnull =>
    have hkind := kind_eq h
    cases w with
    | null => exact ⟨rfl, List.append_cancel_left h⟩
    | bool b => cases b <;> cases hkind
    | num n => cases hkind
    | str s => cases hkind
    | arr items => cases hkind
    | obj fields => cases hkind
  | hbool b =>
    have hkind := kind_eq h
    cases w with
    | null => cases b <;> cases hkind
    | bool b' =>
      have hb : b = b' := by cases b <;> cases b' <;> first | rfl | cases hkind
      subst hb
      exact ⟨rfl, List.append_cancel_left h⟩
    | num n => cases b <;> cases hkind
    | str s => cases b <;> cases hkind
    | arr items => cases b <;> cases hkind
    | obj fields => cases b <;> cases hkind
  | hnum n =>
    have hkind := kind_eq h
    cases w with
    | null => cases hkind
    | bool b => cases b <;> cases hkind
    | num n' =>
      rw [Json.render, Json.render] at h
      obtain ⟨htext, hrest⟩ := number_inj n.plain n'.plain hx hy h
      exact ⟨congrArg Json.num (NumberText.ext (String.toList_inj.mp htext)), hrest⟩
    | str s => cases hkind
    | arr items => cases hkind
    | obj fields => cases hkind
  | hstr s =>
    have hkind := kind_eq h
    cases w with
    | null => cases hkind
    | bool b => cases b <;> cases hkind
    | num n => cases hkind
    | str s' =>
      rw [Json.render, Json.render] at h
      obtain ⟨rfl, hrest⟩ := quote_prefixFree s s' x y h
      exact ⟨rfl, hrest⟩
    | arr items => cases hkind
    | obj fields => cases hkind
  | harr items ih =>
    have hkind := kind_eq h
    cases w with
    | null => cases hkind
    | bool b => cases b <;> cases hkind
    | num n => cases hkind
    | str s => cases hkind
    | arr items' =>
      obtain ⟨rfl, hrest⟩ := renderArr_inj ih h
      exact ⟨rfl, hrest⟩
    | obj fields => cases hkind
  | hobj fields ih =>
    have hkind := kind_eq h
    cases w with
    | null => cases hkind
    | bool b => cases b <;> cases hkind
    | num n => cases hkind
    | str s => cases hkind
    | arr items => cases hkind
    | obj fields' =>
      obtain ⟨rfl, hrest⟩ := renderObj_inj ih h
      exact ⟨rfl, hrest⟩

/-! ## Canonical form -/

/-- Put fields into a map ordered by their keys. -/
def fieldMap (fields : List (String × Json)) : OrdMap String Json :=
  fields.foldl (fun m f => m.alter f.1 fun _ => f.2) OrdMap.empty

mutual

/-- The value with the fields of its objects sorted by their keys, at every depth. -/
def Json.canonical : Json → Json
  | .null => .null
  | .bool b => .bool b
  | .num n => .num n
  | .str s => .str s
  | .arr items => .arr (canonicalItems items)
  | .obj fields => .obj (fieldMap (canonicalFields fields)).entries

def canonicalItems : List Json → List Json
  | [] => []
  | v :: vs => v.canonical :: canonicalItems vs

def canonicalFields : List (String × Json) → List (String × Json)
  | [] => []
  | (k, v) :: fs => (k, v.canonical) :: canonicalFields fs

end

theorem canonicalItems_eq_map (vs : List Json) : canonicalItems vs = vs.map Json.canonical := by
  induction vs with
  | nil => rfl
  | cons v vs ih => rw [canonicalItems, ih, List.map_cons]

theorem canonicalFields_eq_map (fs : List (String × Json)) : canonicalFields fs = fs.map fun f => (f.1, f.2.canonical) := by
  induction fs with
  | nil => rfl
  | cons f fs ih => rw [canonicalFields, ih, List.map_cons]

/-! ## Paths -/

/-- A step into a value. -/
inductive Step where
  | index (i : Nat)
  | name (k : String)
  deriving DecidableEq

/-- What a value is at its top. -/
inductive Top where
  | null
  | bool (b : Bool)
  | num (n : NumberText)
  | str (s : String)
  | arr (length : Nat)
  | obj
  deriving DecidableEq

def Json.top : Json → Top
  | .null => .null
  | .bool b => .bool b
  | .num n => .num n
  | .str s => .str s
  | .arr items => .arr items.length
  | .obj _ => .obj

def Json.child : Json → Step → Option Json
  | .arr items, .index i => items[i]?
  | .obj fields, .name k => (fields.find? (·.1 = k)).map (·.2)
  | _, _ => none

/-- What is at the end of a path. -/
def Json.look (v : Json) : List Step → Option Top
  | [] => some v.top
  | k :: ks => (v.child k).bind (·.look ks)

/-- No path tells two values apart. -/
def Agree (v w : Json) : Prop := ∀ path, v.look path = w.look path

/-- The keys of every object are different. -/
inductive Distinct : Json → Prop where
  | null : Distinct .null
  | bool (b : Bool) : Distinct (.bool b)
  | num (n : NumberText) : Distinct (.num n)
  | str (s : String) : Distinct (.str s)
  | arr (items : List Json) (h : ∀ v ∈ items, Distinct v) : Distinct (.arr items)
  | obj (fields : List (String × Json)) (hkeys : (fields.map (·.1)).Nodup) (h : ∀ f ∈ fields, Distinct f.2) : Distinct (.obj fields)

theorem Distinct.child {v u : Json} (h : Distinct v) {k : Step} (hu : v.child k = some u) : Distinct u := by
  cases h with
  | arr items h =>
    cases k with
    | index i => exact h u (List.mem_of_getElem? hu)
    | name k => cases hu
  | obj fields hkeys h =>
    cases k with
    | index i => cases hu
    | name k =>
      obtain ⟨f, hf, rfl⟩ := Option.map_eq_some_iff.mp hu
      exact h f (List.mem_of_find?_eq_some hf)
  | null => cases hu
  | bool b => cases hu
  | num n => cases hu
  | str s => cases hu

/-- The field of a key, where keys are different. -/
theorem field_eq_some_iff {fields : List (String × Json)} (hkeys : (fields.map (·.1)).Nodup) {k : String} {v : Json} :
    (fields.find? (·.1 = k)).map (·.2) = some v ↔ ∃ f ∈ fields, f.1 = k ∧ f.2 = v := by
  constructor
  · intro h
    obtain ⟨f, hf, rfl⟩ := Option.map_eq_some_iff.mp h
    exact ⟨f, List.mem_of_find?_eq_some hf, by simpa using List.find?_some hf, rfl⟩
  · rintro ⟨f, hf, rfl, rfl⟩
    cases hfind : fields.find? (·.1 = f.1) with
    | none => simpa using List.find?_eq_none.mp hfind f hf
    | some g =>
      have hg : g = f := List.inj_on_of_nodup_map hkeys (List.mem_of_find?_eq_some hfind) hf (by simpa using List.find?_some hfind)
      rw [hg]
      rfl

/-- The fields of a canonical object are the canonical fields. -/
theorem child_canonical {v : Json} (h : Distinct v) (k : Step) : v.canonical.child k = (v.child k).map Json.canonical := by
  cases h with
  | arr items h =>
    cases k with
    | index i => simp only [Json.canonical, Json.child, canonicalItems_eq_map, List.getElem?_map]
    | name k => rfl
  | obj fields hkeys h =>
    cases k with
    | index i => rfl
    | name k =>
      have hkeys' : ((canonicalFields fields).map (·.1)).Nodup := by
        rw [canonicalFields_eq_map, List.map_map]
        exact hkeys
      refine Option.ext fun u => ?_
      refine (OrdMap.get?_foldl_insert Prod.fst Prod.snd hkeys' (k := k) (v := u)).trans ?_
      rw [canonicalFields_eq_map, Option.map_eq_some_iff]
      simp only [Json.child, field_eq_some_iff hkeys, List.mem_map]
      constructor
      · rintro ⟨_, ⟨f, hf, rfl⟩, rfl, rfl⟩
        exact ⟨f.2, ⟨f, hf, rfl, rfl⟩, rfl⟩
      · rintro ⟨_, ⟨f, hf, rfl, rfl⟩, rfl⟩
        exact ⟨_, ⟨f, hf, rfl⟩, rfl, rfl⟩
  | null => cases k <;> rfl
  | bool b => cases k <;> rfl
  | num n => cases k <;> rfl
  | str s => cases k <;> rfl

theorem top_canonical (v : Json) : v.canonical.top = v.top := by
  cases v with
  | arr items => simp [Json.canonical, Json.top, canonicalItems_eq_map]
  | _ => rfl

/-- Canonical values are told apart by the paths that tell the values apart. -/
theorem look_canonical {v : Json} (h : Distinct v) (path : List Step) : v.canonical.look path = v.look path := by
  induction path generalizing v with
  | nil => exact congrArg some (top_canonical v)
  | cons k path ih =>
    rw [Json.look, Json.look, child_canonical h]
    cases hchild : v.child k with
    | none => rfl
    | some u => exact ih (h.child hchild)

theorem Agree.top {v w : Json} (h : Agree v w) : v.top = w.top := Option.some.inj (h [])

/-- What agrees agrees in its parts. -/
theorem Agree.child {v w u : Json} (h : Agree v w) {k : Step} (hu : v.child k = some u) : ∃ u', w.child k = some u' ∧ Agree u u' := by
  have hlook (path : List Step) : u.look path = (w.child k).bind (·.look path) := by
    have hpath := h (k :: path)
    rwa [Json.look, Json.look, hu] at hpath
  cases hchild : w.child k with
  | none =>
    have hnone := hlook []
    rw [hchild] at hnone
    cases hnone
  | some u' => exact ⟨u', rfl, fun path => by rw [hlook, hchild]; rfl⟩

theorem Agree.symm {v w : Json} (h : Agree v w) : Agree w v := fun path => (h path).symm

theorem Agree.refl (v : Json) : Agree v v := fun _ => rfl

/-- What agrees at the top and in its parts agrees. -/
theorem agree_of_child {v w : Json} (htop : v.top = w.top) (h : ∀ k, Option.Rel Agree (v.child k) (w.child k)) : Agree v w := by
  intro path
  cases path with
  | nil => exact congrArg some htop
  | cons k path =>
    have hk := h k
    rw [Json.look, Json.look]
    cases hv : v.child k with
    | none =>
      rw [hv] at hk
      cases hw : w.child k with
      | none => rfl
      | some u' =>
        rw [hw] at hk
        cases hk
    | some u =>
      rw [hv] at hk
      cases hw : w.child k with
      | none =>
        rw [hw] at hk
        cases hk
      | some u' =>
        rw [hw] at hk
        cases hk with
        | some hagree => exact hagree path

/-- Canonical parts are equal where agreeing parts have equal canonical forms. -/
theorem child_canonical_eq {v w : Json} (hv : Distinct v) (hw : Distinct w) (h : Agree v w)
    (ih : ∀ k u, v.child k = some u → ∀ u', Distinct u → Distinct u' → Agree u u' → u.canonical = u'.canonical) (k : Step) :
    v.canonical.child k = w.canonical.child k := by
  rw [child_canonical hv, child_canonical hw]
  cases hchild : v.child k with
  | none =>
    cases hchild' : w.child k with
    | none => rfl
    | some u' =>
      obtain ⟨u, hu, -⟩ := h.symm.child hchild'
      rw [hchild] at hu
      cases hu
  | some u =>
    obtain ⟨u', hu', hagree⟩ := h.child hchild
    rw [hu', Option.map_some, Option.map_some, ih k u hchild u' (hv.child hchild) (hw.child hu') hagree]

/-- Values that no path tells apart have the same canonical form. -/
theorem canonical_eq_of_agree {v w : Json} (hv : Distinct v) (hw : Distinct w) (h : Agree v w) : v.canonical = w.canonical := by
  induction v using Json.induct generalizing w with
  | hnull => cases w <;> first | rfl | cases h.top
  | hbool b => cases w <;> first | (cases h.top; rfl) | cases h.top
  | hnum n => cases w <;> first | (cases h.top; rfl) | cases h.top
  | hstr s => cases w <;> first | (cases h.top; rfl) | cases h.top
  | harr items ih =>
    cases w with
    | arr items' =>
      have hchild := child_canonical_eq hv hw h fun k u hu u' hu₁ hu₂ => by
        cases k with
        | index i => exact ih u (List.mem_of_getElem? hu) hu₁ hu₂
        | name k => cases hu
      exact congrArg Json.arr (List.ext_getElem? fun i => hchild (.index i))
    | _ => cases h.top
  | hobj fields ih =>
    cases w with
    | obj fields' =>
      have hchild := child_canonical_eq hv hw h fun k u hu u' hu₁ hu₂ => by
        cases k with
        | index i => cases hu
        | name k =>
          obtain ⟨f, hf, rfl⟩ := Option.map_eq_some_iff.mp hu
          exact ih f (List.mem_of_find?_eq_some hf) hu₁ hu₂
      have hmap : fieldMap (canonicalFields fields) = fieldMap (canonicalFields fields') :=
        OrdMap.ext_get? fun k => hchild (.name k)
      rw [Json.canonical, Json.canonical, hmap]
    | _ => cases h.top

/-- Two values have the same canonical form exactly when no path tells them apart. -/
theorem canonical_eq_iff {v w : Json} (hv : Distinct v) (hw : Distinct w) : v.canonical = w.canonical ↔ Agree v w := by
  constructor
  · intro h path
    rw [← look_canonical hv, h, look_canonical hw]
  · exact canonical_eq_of_agree hv hw

/-- And the texts of the canonical forms are the same exactly then. -/
theorem render_canonical_eq_iff {v w : Json} (hv : Distinct v) (hw : Distinct w) :
    v.canonical.render = w.canonical.render ↔ Agree v w := by
  rw [← canonical_eq_iff hv hw]
  constructor
  · intro h
    exact (render_inj _ _ (x := []) (y := []) trivial trivial (by rw [h])).1
  · exact congrArg Json.render

end JsonTree
