import Tumult.Theorems.Template

/-!
# One pass over the placeholders

A text reads in one way as characters, escapes and placeholders, where a placeholder and the text an escape keeps end at the first
closing brace. The substitution renders each piece of that reading in place, unless the text ends in a `${` that no brace closes:
the pass takes the rest of the text for a name.
-/

namespace Tumult

/-! ## The reading of a text -/

/-- A text up to its first closing brace, and what follows the brace. -/
def braced : List Char → Option (List Char × List Char)
  | [] => none
  | c :: cs => if c = '\x7d' then some ([], cs) else (braced cs).map fun p => (c :: p.1, p.2)

theorem braced_eq_some {cs name rest : List Char} :
    braced cs = some (name, rest) ↔ cs = name ++ '\x7d' :: rest ∧ '\x7d' ∉ name := by
  induction cs generalizing name with
  | nil => simp [braced]
  | cons c cs ih =>
    unfold braced
    by_cases hc : c = '\x7d'
    · rw [if_pos hc]
      cases name with
      | nil => simp [hc, eq_comm]
      | cons d name =>
        simp only [Option.some.injEq, Prod.mk.injEq, List.cons_append, List.cons.injEq, List.mem_cons, not_or, hc]
        constructor
        · rintro ⟨h, -⟩
          cases h
        · rintro ⟨⟨hd, -⟩, hne, -⟩
          exact absurd hd hne
    · rw [if_neg hc, Option.map_eq_some_iff]
      cases name with
      | nil => simp [hc]
      | cons d name =>
        constructor
        · rintro ⟨⟨name', rest'⟩, hsome, heq⟩
          obtain ⟨hname, rfl⟩ := Prod.mk.inj heq
          obtain ⟨rfl, rfl⟩ := List.cons.inj hname
          obtain ⟨rfl, hnot⟩ := ih.mp hsome
          exact ⟨rfl, by simpa [Ne.symm hc] using hnot⟩
        · rintro ⟨heq, hnot⟩
          obtain ⟨rfl, rfl⟩ := List.cons.inj heq
          exact ⟨(name, rest), ih.mpr ⟨rfl, fun h => hnot (List.mem_cons_of_mem _ h)⟩, rfl⟩

theorem braced_eq_none {cs : List Char} : braced cs = none ↔ '\x7d' ∉ cs := by
  induction cs with
  | nil => simp [braced]
  | cons c cs ih =>
    unfold braced
    by_cases hc : c = '\x7d'
    · simp [hc]
    · simp [hc, ih, Ne.symm hc]

theorem braced_length {cs name rest : List Char} (h : braced cs = some (name, rest)) : rest.length < cs.length := by
  rw [(braced_eq_some.mp h).1]
  simp only [List.length_append, List.length_cons]
  omega

/-- A piece of a text. An escape that no brace closes keeps the rest of the text. -/
inductive Segment where
  | char (c : Char)
  | dollars
  | escape (name : List Char)
  | openEscape (rest : List Char)
  | placeholder (name : List Char)
  deriving DecidableEq, Repr

/-- The reading of a text. A `${` that no brace closes is no placeholder: its characters stand for themselves. -/
def segments : List Char → List Segment
  | '$' :: '$' :: '\x7b' :: rest =>
    match _h : braced rest with
    | some (name, after) => .escape name :: segments after
    | none => [.openEscape rest]
  | '$' :: '$' :: rest => .dollars :: segments rest
  | '$' :: '\x7b' :: rest =>
    match _h : braced rest with
    | some (name, after) => .placeholder name :: segments after
    | none => .char '$' :: .char '\x7b' :: segments rest
  | c :: rest => .char c :: segments rest
  | [] => []
  termination_by cs => cs.length
  decreasing_by
    all_goals simp only [List.length_cons]
    all_goals first | omega | (have hlen := braced_length _h; omega)

/-- The name that the end of a text leaves without its brace. -/
def openName : List Char → Option (List Char)
  | '$' :: '$' :: '\x7b' :: rest =>
    match _h : braced rest with
    | some (_, after) => openName after
    | none => none
  | '$' :: '$' :: rest => openName rest
  | '$' :: '\x7b' :: rest =>
    match _h : braced rest with
    | some (_, after) => openName after
    | none => some rest
  | _ :: rest => openName rest
  | [] => none
  termination_by cs => cs.length
  decreasing_by
    all_goals simp only [List.length_cons]
    all_goals first | omega | (have hlen := braced_length _h; omega)

/-- How the piece is written. -/
def Segment.source : Segment → List Char
  | .char c => [c]
  | .dollars => ['$', '$']
  | .escape name => '$' :: '$' :: '\x7b' :: (name ++ ['\x7d'])
  | .openEscape rest => '$' :: '$' :: '\x7b' :: rest
  | .placeholder name => '$' :: '\x7b' :: (name ++ ['\x7d'])

/-- The name the piece asks for. -/
def Segment.name? : Segment → Option String
  | .placeholder name => some (String.ofList name)
  | _ => none

/-- What the piece becomes: an escape loses its first dollar, a placeholder becomes its value as it is. -/
def Segment.render (escapeString : String → String) (lookup : String → Option String) : Segment → List Char
  | .char c => [c]
  | .dollars => ['$', '$']
  | .escape name => '$' :: '\x7b' :: (name ++ ['\x7d'])
  | .openEscape rest => '$' :: '\x7b' :: rest
  | .placeholder name => (lookup (String.ofList name)).elim [] fun value => (escapeString value).toList

/-- The pieces are the text. -/
theorem segments_source (cs : List Char) : (segments cs).flatMap Segment.source = cs := by
  fun_induction segments cs with
  | case1 rest name after h ih => simp [Segment.source, ih, (braced_eq_some.mp h).1]
  | case2 rest h => simp [Segment.source]
  | case3 rest _ ih => simp [Segment.source, ih]
  | case4 rest name after h ih => simp [Segment.source, ih, (braced_eq_some.mp h).1]
  | case5 rest h ih => simp [Segment.source, ih]
  | case6 c rest _ _ _ ih => simp [Segment.source, ih]
  | case7 => rfl

/-- A text without a closing brace asks for no name. -/
theorem segments_names_of_not_mem {cs : List Char} (h : '\x7d' ∉ cs) : (segments cs).filterMap Segment.name? = [] := by
  fun_induction segments cs with
  | case1 rest name after hb ih => simp [(braced_eq_some.mp hb).1] at h
  | case2 rest hb => rfl
  | case3 rest _ ih => simpa [Segment.name?] using ih (by simpa using h)
  | case4 rest name after hb ih => simp [(braced_eq_some.mp hb).1] at h
  | case5 rest hb ih => simpa [Segment.name?] using ih (by simpa using h)
  | case6 c rest _ _ _ ih => simpa [Segment.name?] using ih (fun hmem => h (List.mem_cons_of_mem _ hmem))
  | case7 => rfl

/-! ## What the pass does -/

section Pass

variable (escapeString : String → String) (lookup : String → Option String)

/-- The names of the pieces that have no value, each once, in the order they first come. -/
def undefinedOf (ss : List Segment) : List String :=
  ((ss.filterMap Segment.name?).filter fun name => (lookup name).isNone).eraseDups

/-- A name joins those that are missing. -/
def reportMissing (missing : List String) (name : String) : List String :=
  if name ∈ missing then missing else missing ++ [name]

/-- What the pass reports for some pieces, after what is missing already. -/
def missingAfter (missing : List String) (ss : List Segment) : List String :=
  ((ss.filterMap Segment.name?).filter fun name => (lookup name).isNone).foldl reportMissing missing

variable {escapeString lookup} {result : List Char} {missing : List String}

theorem foldl_reportMissing (names : List String) : names.foldl reportMissing [] = names.eraseDups := by
  induction names using List.reverseRecOn with
  | nil => rfl
  | append_singleton names name ih =>
    rw [List.foldl_append, ih, List.eraseDups_append]
    by_cases hmem : name ∈ names
    · simp [reportMissing, hmem, List.removeAll]
    · simp [reportMissing, hmem, List.removeAll, List.eraseDups_cons]

theorem missingAfter_nil (ss : List Segment) : missingAfter lookup [] ss = undefinedOf lookup ss := foldl_reportMissing _

theorem missingAfter_append (ss ss' : List Segment) :
    missingAfter lookup missing (ss ++ ss') = missingAfter lookup (missingAfter lookup missing ss) ss' := by
  simp [missingAfter]

theorem missingAfter_cons_of_none {p : Segment} {ss : List Segment} (h : p.name? = none) :
    missingAfter lookup missing (p :: ss) = missingAfter lookup missing ss := by
  unfold missingAfter
  rw [List.filterMap_cons_none h]

/-- A placeholder leaves what its piece renders, and its name if it has no value. -/
theorem resolvePlaceholder_eq (name : List Char) :
    resolvePlaceholder escapeString lookup name result missing =
      (result ++ (Segment.placeholder name).render escapeString lookup, missingAfter lookup missing [.placeholder name]) := by
  unfold resolvePlaceholder
  cases h : lookup (String.ofList name) with
  | some value => simp [Segment.render, missingAfter, Segment.name?, h]
  | none => simp [Segment.render, missingAfter, Segment.name?, h, reportMissing]

/-- An escape that no brace closes is copied to the end. -/
theorem substitute_openEscape {cs : List Char} (h : '\x7d' ∉ cs) :
    substitute escapeString lookup .escape result missing cs = (result ++ cs, missing) := by
  induction cs generalizing result with
  | nil => simp [substitute]
  | cons c cs ih =>
    rw [List.mem_cons, not_or] at h
    rw [substitute, if_neg (Ne.symm h.1), ih h.2]
    simp

/-- A placeholder that no brace closes is read to the end. -/
theorem substitute_openPlaceholder {cs : List Char} (read : List Char) (h : '\x7d' ∉ cs) :
    substitute escapeString lookup (.placeholder read) result missing cs =
      resolvePlaceholder escapeString lookup (read ++ cs) result missing := by
  induction cs generalizing read with
  | nil => simp [substitute]
  | cons c cs ih =>
    rw [List.mem_cons, not_or] at h
    rw [substitute, if_neg (Ne.symm h.1), ih _ h.2]
    simp

/-! ### The reading of each piece -/

theorem segments_escape {rest name after : List Char} (h : braced rest = some (name, after)) :
    segments ('$' :: '$' :: '\x7b' :: rest) = .escape name :: segments after := by
  rw [segments]
  split
  · next hb =>
    obtain ⟨rfl, rfl⟩ := Prod.mk.inj (Option.some.inj (hb.symm.trans h))
    rfl
  · next hb => nomatch hb.symm.trans h

theorem openName_escape {rest name after : List Char} (h : braced rest = some (name, after)) :
    openName ('$' :: '$' :: '\x7b' :: rest) = openName after := by
  rw [openName]
  split
  · next hb =>
    obtain ⟨rfl, rfl⟩ := Prod.mk.inj (Option.some.inj (hb.symm.trans h))
    rfl
  · next hb => nomatch hb.symm.trans h

theorem segments_placeholder {rest name after : List Char} (h : braced rest = some (name, after)) :
    segments ('$' :: '\x7b' :: rest) = .placeholder name :: segments after := by
  rw [segments]
  split
  · next hb =>
    obtain ⟨rfl, rfl⟩ := Prod.mk.inj (Option.some.inj (hb.symm.trans h))
    rfl
  · next hb => nomatch hb.symm.trans h

theorem openName_placeholder {rest name after : List Char} (h : braced rest = some (name, after)) :
    openName ('$' :: '\x7b' :: rest) = openName after := by
  rw [openName]
  split
  · next hb =>
    obtain ⟨rfl, rfl⟩ := Prod.mk.inj (Option.some.inj (hb.symm.trans h))
    rfl
  · next hb => nomatch hb.symm.trans h

theorem segments_openEscape {rest : List Char} (h : braced rest = none) :
    segments ('$' :: '$' :: '\x7b' :: rest) = [.openEscape rest] ∧ openName ('$' :: '$' :: '\x7b' :: rest) = none := by
  rw [segments, openName]
  constructor
  · split
    · next hb => nomatch hb.symm.trans h
    · rfl
  · split
    · next hb => nomatch hb.symm.trans h
    · rfl

theorem segments_openPlaceholder {rest : List Char} (h : braced rest = none) :
    segments ('$' :: '\x7b' :: rest) = .char '$' :: .char '\x7b' :: segments rest ∧
      openName ('$' :: '\x7b' :: rest) = some rest := by
  rw [segments, openName]
  constructor
  · split
    · next hb => nomatch hb.symm.trans h
    · rfl
  · split
    · next hb => nomatch hb.symm.trans h
    · rfl

/-! ### The pass over a text -/

variable (escapeString lookup) in
/-- How the pass ends on a text: with every piece rendered and the names without a value reported, or in an open name after some
pieces. -/
def Passes (cs : List Char) : Prop :=
  ∀ result missing,
    (openName cs = none ∧ substitute escapeString lookup .text result missing cs =
      (result ++ (segments cs).flatMap (Segment.render escapeString lookup), missingAfter lookup missing (segments cs))) ∨
    ∃ name ss, openName cs = some name ∧ '\x7d' ∉ name ∧ segments cs = ss ++ .char '$' :: .char '\x7b' :: segments name ∧
      substitute escapeString lookup .text result missing cs =
        resolvePlaceholder escapeString lookup name (result ++ ss.flatMap (Segment.render escapeString lookup))
          (missingAfter lookup missing ss)

/-- A piece that the pass renders on its way to the rest. -/
theorem Passes.cons {cs after : List Char} {p : Segment} (hsegments : segments cs = p :: segments after)
    (hopen : openName cs = openName after)
    (hstep : ∀ result missing, substitute escapeString lookup .text result missing cs =
      substitute escapeString lookup .text (result ++ p.render escapeString lookup) (missingAfter lookup missing [p]) after)
    (h : Passes escapeString lookup after) : Passes escapeString lookup cs := by
  intro result missing
  rw [hstep, hopen, hsegments]
  rcases h (result ++ p.render escapeString lookup) (missingAfter lookup missing [p]) with
    ⟨hnone, hpass⟩ | ⟨name, ss, hname, hbrace, hss, hpass⟩
  · refine .inl ⟨hnone, ?_⟩
    have hmissing : missingAfter lookup missing ([p] ++ segments after) = _ := missingAfter_append [p] (segments after)
    rw [hpass, List.flatMap_cons, List.append_assoc, ← hmissing, List.singleton_append]
  · refine .inr ⟨name, p :: ss, hname, hbrace, by rw [hss, List.cons_append], ?_⟩
    rw [hpass, List.flatMap_cons, List.append_assoc, ← missingAfter_append, List.singleton_append]

theorem passes (cs : List Char) : Passes escapeString lookup cs := by
  fun_induction segments cs with
  | case1 rest name after hb ih =>
    obtain ⟨hrest, hname⟩ := braced_eq_some.mp hb
    refine ih.cons (segments_escape hb) (openName_escape hb) (fun result missing => ?_)
    rw [hrest, substitute, substitute_escape name hname, missingAfter_cons_of_none rfl]
    simp [Segment.render, missingAfter]
  | case2 rest hb =>
    intro result missing
    obtain ⟨hsegments, hopen⟩ := segments_openEscape hb
    refine .inl ⟨hopen, ?_⟩
    rw [hsegments, substitute, substitute_openEscape (braced_eq_none.mp hb), missingAfter_cons_of_none rfl]
    simp [Segment.render, missingAfter]
  | case3 rest hbrace ih =>
    refine ih.cons (p := .dollars) (by rw [segments]; exact hbrace) (by rw [openName]; exact hbrace) (fun result missing => ?_)
    rw [substitute, missingAfter_cons_of_none rfl]
    · rfl
    · exact hbrace
  | case4 rest name after hb ih =>
    obtain ⟨hrest, hname⟩ := braced_eq_some.mp hb
    refine ih.cons (segments_placeholder hb) (openName_placeholder hb) (fun result missing => ?_)
    rw [hrest, substitute, substitute_placeholder [] name hname, List.nil_append, resolvePlaceholder_eq]
  | case5 rest hb ih =>
    intro result missing
    obtain ⟨hsegments, hopen⟩ := segments_openPlaceholder hb
    refine .inr ⟨rest, [], hopen, braced_eq_none.mp hb, hsegments, ?_⟩
    rw [substitute, substitute_openPlaceholder [] (braced_eq_none.mp hb)]
    simp [missingAfter]
  | case6 c rest h₁ h₂ h₃ ih =>
    refine ih.cons (p := .char c) ?_ ?_ (fun result missing => ?_)
    · rw [segments] <;> assumption
    · rw [openName] <;> assumption
    · rw [substitute, missingAfter_cons_of_none rfl]
      · rfl
      all_goals assumption
  | case7 =>
    intro result missing
    exact .inl ⟨by rw [openName], by simp [substitute, segments, missingAfter]⟩

/-- A name at the end that no brace closes is read among characters, which ask for no name. -/
theorem undefinedOf_open {ss : List Segment} {name : List Char} (h : '\x7d' ∉ name) :
    undefinedOf lookup (ss ++ .char '$' :: .char '\x7b' :: segments name) = undefinedOf lookup ss := by
  unfold undefinedOf
  rw [List.filterMap_append, List.filterMap_cons_none rfl, List.filterMap_cons_none rfl, segments_names_of_not_mem h,
    List.append_nil]

theorem undefinedOf_eq_nil {ss : List Segment} :
    undefinedOf lookup ss = [] ↔ ∀ name, .placeholder name ∈ ss → (lookup (String.ofList name)).isSome := by
  simp only [undefinedOf, List.eq_nil_iff_forall_not_mem, List.mem_eraseDups, List.mem_filter, List.mem_filterMap]
  constructor
  · intro h name hname
    by_contra hnone
    exact h _ ⟨⟨_, hname, rfl⟩, by simpa using hnone⟩
  · rintro h name ⟨⟨p, hp, hpname⟩, hnone⟩
    cases p with
    | placeholder name' =>
      obtain rfl := Option.some.inj hpname
      have := h name' hp
      simp_all
    | _ => nomatch hpname

end Pass

/-! ## The law -/

section Law

variable (escapeString : String → String) (vars config secrets : StringMap)

/-- The names in an error of the substitution. -/
def listNames (names : List String) : String := ", ".intercalate (names.map fun name => "$\x7b" ++ name ++ "\x7d")

/-- What the substitution of a text owes: the pieces of its reading are the text; it succeeds exactly when every placeholder has a
value, with every piece rendered in its place; otherwise it reports the names without a value, each once, in the order they first
come. -/
structure SinglePass (text : String) : Prop where
  whole : (segments text.toList).flatMap Segment.source = text.toList
  succeeds : (∃ out, substituteVars escapeString text vars config secrets = .ok out) ↔
    ∀ name, .placeholder name ∈ segments text.toList → (lookupVar (String.ofList name) vars config secrets).isSome
  rendered : ∀ out, substituteVars escapeString text vars config secrets = .ok out →
    out.toList = (segments text.toList).flatMap (Segment.render escapeString fun name => lookupVar name vars config secrets)
  reported : ∀ e, substituteVars escapeString text vars config secrets = .error e →
    e = .undefinedVars (listNames (undefinedOf (fun name => lookupVar name vars config secrets) (segments text.toList)))

/-- A text that ends in a name no brace closes is left as it should be only by chance: the name has no value and is reported for a
placeholder anyway, or it has one but the substitution fails for another name, or the value is what is written there. -/
def OpenNameUnseen (text : String) : Prop :=
  ∀ name, openName text.toList = some name →
    (lookupVar (String.ofList name) vars config secrets = none →
      String.ofList name ∈ undefinedOf (fun name => lookupVar name vars config secrets) (segments text.toList)) ∧
    ∀ value, lookupVar (String.ofList name) vars config secrets = some value →
      undefinedOf (fun name => lookupVar name vars config secrets) (segments text.toList) = [] →
        (escapeString value).toList =
          '$' :: '\x7b' :: (segments name).flatMap (Segment.render escapeString fun name => lookupVar name vars config secrets)

variable {escapeString vars config secrets}

theorem substituteVars_of {text : String} {out : List Char} {missing : List String}
    (h : substitute escapeString (fun name => lookupVar name vars config secrets) .text [] [] text.toList = (out, missing)) :
    substituteVars escapeString text vars config secrets =
      if missing = [] then .ok (String.ofList out) else .error (.undefinedVars (listNames missing)) := by
  unfold substituteVars
  rw [h]
  rfl

/-- What the law asks of a pass that leaves a text and the names it misses. -/
theorem singlePass_of {text : String} {out : List Char} {missing : List String}
    (h : substitute escapeString (fun name => lookupVar name vars config secrets) .text [] [] text.toList = (out, missing)) :
    SinglePass escapeString vars config secrets text ↔
      (missing = [] ↔ undefinedOf (fun name => lookupVar name vars config secrets) (segments text.toList) = []) ∧
      (missing = [] → out =
        (segments text.toList).flatMap (Segment.render escapeString fun name => lookupVar name vars config secrets)) ∧
      (missing ≠ [] → listNames missing =
        listNames (undefinedOf (fun name => lookupVar name vars config secrets) (segments text.toList))) := by
  have hvars := substituteVars_of h
  rw [undefinedOf_eq_nil]
  by_cases hmissing : missing = []
  · rw [if_pos hmissing] at hvars
    constructor
    · intro hlaw
      have hout := hlaw.rendered _ hvars
      rw [String.toList_ofList] at hout
      exact ⟨⟨fun _ => hlaw.succeeds.mp ⟨_, hvars⟩, fun _ => hmissing⟩, fun _ => hout, fun hne => absurd hmissing hne⟩
    · rintro ⟨hiff, hout, -⟩
      refine ⟨segments_source _, ⟨fun _ => hiff.mp hmissing, fun _ => ⟨_, hvars⟩⟩, fun out' hok => ?_, fun e he => ?_⟩
      · rw [hvars] at hok
        rw [← Except.ok.inj hok, String.toList_ofList, hout hmissing]
      · nomatch hvars.symm.trans he
  · rw [if_neg hmissing] at hvars
    constructor
    · intro hlaw
      refine ⟨⟨fun h => absurd h hmissing, fun hall => ?_⟩, fun h => absurd h hmissing, fun _ => ?_⟩
      · obtain ⟨out', hok⟩ := hlaw.succeeds.mpr hall
        nomatch hvars.symm.trans hok
      · exact TemplateError.undefinedVars.inj (hlaw.reported _ hvars)
    · rintro ⟨hiff, -, hnames⟩
      refine ⟨segments_source _, ⟨fun ⟨out', hok⟩ => ?_, fun hall => absurd (hiff.mpr hall) hmissing⟩, fun out' hok => ?_,
        fun e he => ?_⟩
      · nomatch hvars.symm.trans hok
      · nomatch hvars.symm.trans hok
      · rw [← Except.error.inj (hvars.symm.trans he), hnames hmissing]

/-- One more name makes the list of names longer. -/
theorem listNames_append_ne {names : List String} (h : names ≠ []) (name : String) :
    listNames (names ++ [name]) ≠ listNames names := by
  intro heq
  unfold listNames at heq
  rw [List.map_append, String.intercalate_append_of_ne_nil (by simpa using h) (by simp)] at heq
  have hlength := congrArg String.length heq
  simp only [String.length_append] at hlength
  have : (", " : String).length = 2 := by decide
  omega

/-- The substitution is a single pass exactly on a text that does not end in an open name, or one where that is not seen. -/
theorem singlePass_iff (escapeString : String → String) (vars config secrets : StringMap) (text : String) :
    SinglePass escapeString vars config secrets text ↔ OpenNameUnseen escapeString vars config secrets text := by
  rcases @passes escapeString (fun name => lookupVar name vars config secrets) text.toList [] [] with
    ⟨hopen, hpass⟩ | ⟨name, ss, hopen, hbrace, hsegments, hpass⟩
  · rw [missingAfter_nil, List.nil_append] at hpass
    rw [singlePass_of hpass]
    constructor
    · intro _ name hname
      nomatch hopen.symm.trans hname
    · intro _
      exact ⟨Iff.rfl, fun _ => rfl, fun _ => rfl⟩
  · rw [missingAfter_nil, List.nil_append] at hpass
    -- the only open name is this one, and the names of the whole text are those of the pieces before it
    have hunseen : OpenNameUnseen escapeString vars config secrets text ↔ _ :=
      ⟨fun h => h name hopen, fun h name' hname' => by rw [← Option.some.inj (hopen.symm.trans hname')]; exact h⟩
    rw [hunseen, hsegments, undefinedOf_open hbrace]
    unfold resolvePlaceholder at hpass
    cases hlookup : lookupVar (String.ofList name) vars config secrets with
    | none =>
      simp only [hlookup] at hpass
      rw [singlePass_of hpass, hsegments, undefinedOf_open hbrace]
      generalize undefinedOf (fun name => lookupVar name vars config secrets) ss = undefined
      by_cases hmem : String.ofList name ∈ undefined
      · have hsome : undefined ≠ [] := List.ne_nil_of_mem hmem
        simp [hmem, hsome]
      · rw [if_neg hmem]
        constructor
        · rintro ⟨hnil, -, hnames⟩
          refine absurd (hnames (by simp)) (listNames_append_ne (fun hundefined => ?_) _)
          simpa using hnil.mpr hundefined
        · intro h
          exact absurd (h.1 rfl) hmem
    | some value =>
      simp only [hlookup] at hpass
      rw [singlePass_of hpass, hsegments, undefinedOf_open hbrace]
      have hrender : ∀ lookup, (ss ++ .char '$' :: .char '\x7b' :: segments name).flatMap (Segment.render escapeString lookup) =
          ss.flatMap (Segment.render escapeString lookup) ++
            '$' :: '\x7b' :: (segments name).flatMap (Segment.render escapeString lookup) := by
        intro lookup
        simp [Segment.render]
      rw [hrender, List.append_right_inj]
      constructor
      · rintro ⟨-, hout, -⟩
        exact ⟨nofun, fun value' hvalue' hnil => by rw [← Option.some.inj hvalue']; exact hout hnil⟩
      · rintro ⟨-, hvalue⟩
        exact ⟨Iff.rfl, hvalue value rfl, fun _ => rfl⟩

/-- A name that no brace closes is replaced by its value as well. -/
theorem singlePass_false :
    ¬ ∀ (escapeString : String → String) (vars config secrets : StringMap) (text : String),
      SinglePass escapeString vars config secrets text := by
  intro h
  have hok : substituteVars id "deploy to $\x7benv" [("env", "prod")] [] [] = .ok "deploy to prod" := by decide
  have hrendered := (h id [("env", "prod")] [] [] "deploy to $\x7benv").rendered _ hok
  have hread : segments "deploy to $\x7benv".toList = "deploy to $\x7benv".toList.map .char := by simp [segments, braced]
  rw [hread] at hrendered
  exact absurd hrendered (by decide)

end Law

end Tumult
