import Tumult.Graph.Service
import Tumult.Graph.Topology

/-!
# Names of services that are normalised twice

White space is trimmed last, after the port and the brackets were looked for. So what it hides from them the first time is found the
second time; and nothing else is.
-/

namespace Tumult

/-- Characters that are all white space. -/
def Blank (cs : List Char) : Prop := ∀ c ∈ cs, Text.isWhitespace c = true

/-- White space stands before a bracketed address, and after it more than white space and the only port. -/
def IndentedBracket (authority : List Char) : Prop :=
  ∃ left inside rest, left ≠ [] ∧ Blank left ∧ authority = left ++ '[' :: (inside ++ ']' :: rest) ∧ ']' ∉ inside ∧ ¬ Blank rest ∧
    ∀ gap port, rest = gap ++ ':' :: port → Blank gap → isPort port = true → 1 < authority.count ':'

/-- White space stands after a port. -/
def SpacedPort (authority : List Char) : Prop :=
  ∃ host port right, authority = host ++ ':' :: (port ++ right) ∧ ':' ∉ host ∧ isPort port = true ∧ right ≠ [] ∧ Blank right

/-- The authority of a target with no white space in the way: one that starts with a bracketed address, or else has no white space
before a bracketed address that more than a port follows, and none after a port. -/
def PlainAuthority (authority : List Char) : Prop :=
  (authority.head? = some '[' ∧ ']' ∈ authority) ∨ ¬ IndentedBracket authority ∧ ¬ SpacedPort authority

/-! ## Authorities -/

/-- No character of a text ends a host or the credentials before it. -/
def HostText (cs : List Char) : Prop := ∀ c ∈ cs, endsHost c = false ∧ c ≠ '@'

theorem hostText_authority (raw : List Char) : HostText (authority raw) := by
  intro c hc
  have hc := List.mem_reverse.mp hc
  refine ⟨?_, by simpa using List.mem_takeWhile_imp hc⟩
  have hbefore := List.mem_takeWhile_imp (List.mem_reverse.mp ((List.takeWhile_sublist _).subset hc))
  simpa using hbefore

theorem HostText.mono {cs ds : List Char} (h : HostText cs) (hsub : ds ⊆ cs) : HostText ds := fun c hc => h c (hsub hc)

/-- Such a text is its own authority. -/
theorem HostText.authority_self {cs : List Char} (h : HostText cs) : authority cs = cs := by
  have hscheme : afterScheme cs = cs := by
    unfold afterScheme
    split
    · next pos hpos =>
      obtain ⟨gap, hgap⟩ := Wildcard.find_some hpos
      have hslash : '/' ∈ cs := by
        rw [hgap]
        simp
      exact absurd (h '/' hslash).1 (by decide)
    · rfl
  have hbefore : cs.takeWhile (!endsHost ·) = cs := List.takeWhile_eq_self_iff.mpr fun c hc => by simp [(h c hc).1]
  have hafter : cs.reverse.takeWhile (· ≠ '@') = cs.reverse :=
    List.takeWhile_eq_self_iff.mpr fun c hc => by simpa using (h c (List.mem_reverse.mp hc)).2
  rw [authority, hscheme, hbefore, hafter, List.reverse_reverse]

theorem trimList_subset (cs : List Char) : Text.trimList cs ⊆ cs := by
  obtain ⟨left, right, hcs, -⟩ := Text.trimList_split cs
  intro c hc
  rw [hcs]
  simp [hc]

theorem withoutPort_subset (cs : List Char) : withoutPort cs ⊆ cs := by
  unfold withoutPort
  split
  · split
    · exact (List.takeWhile_sublist _).subset
    · exact List.Subset.refl _
  · exact List.Subset.refl _

theorem bareHost_subset (cs : List Char) : bareHost cs ⊆ cs := by
  unfold bareHost
  split
  case isTrue h =>
    intro c hc
    rcases List.mem_append.mp hc with hc | hc
    · exact (List.takeWhile_sublist _).subset hc
    · exact List.mem_singleton.mp hc ▸ h.2
  case isFalse => exact List.Subset.trans (trimList_subset _) (withoutPort_subset cs)

/-! ## Ports -/

theorem Blank.not_mem {cs : List Char} (h : Blank cs) {c : Char} (hc : Text.isWhitespace c = false) : c ∉ cs := by
  intro hmem
  rw [h c hmem] at hc
  nomatch hc

theorem not_mem_port {port : List Char} (h : isPort port = true) {c : Char} (hc : c.isDigit = false) : c ∉ port := by
  intro hmem
  simp only [isPort, Bool.and_eq_true, List.all_eq_true] at h
  rw [h.2 c hmem] at hc
  nomatch hc

theorem isDigit_of_isWhitespace {c : Char} (h : Text.isWhitespace c = true) : c.isDigit = false := by
  refine Bool.eq_false_iff.mpr fun hdigit => ?_
  simp only [Char.isDigit, Bool.and_eq_true, decide_eq_true_eq] at hdigit
  have hleast : 48 ≤ c.toNat := UInt32.le_iff_toNat_le.mp hdigit.1
  have hmost : c.toNat ≤ 57 := UInt32.le_iff_toNat_le.mp hdigit.2
  simp only [Text.isWhitespace, Bool.or_eq_true, Bool.and_eq_true, decide_eq_true_eq] at h
  omega

theorem withoutPort_of_port {host port : List Char} (hhost : ':' ∉ host) (hport : isPort port = true) :
    withoutPort (host ++ ':' :: port) = host := by
  have hnone : port.count ':' = 0 := List.count_eq_zero.mpr (not_mem_port hport (by decide))
  have hnone' : host.count ':' = 0 := List.count_eq_zero.mpr hhost
  have hcount : (host ++ ':' :: port).count ':' = 1 := by simp [hnone, hnone']
  have hkeep : ∀ c ∈ host, decide (c ≠ ':') = true := fun c hc => decide_eq_true fun heq => hhost (heq ▸ hc)
  have htail : (host ++ ':' :: port).dropWhile (· ≠ ':') = ':' :: port := by
    rw [List.dropWhile_append_of_pos hkeep, List.dropWhile_cons_of_neg (by simp)]
  have hhead : (host ++ ':' :: port).takeWhile (· ≠ ':') = host := by
    rw [List.takeWhile_append_of_pos hkeep, List.takeWhile_cons_of_neg (by simp), List.append_nil]
  rw [withoutPort, if_pos hcount, htail, hhead, List.drop_succ_cons, List.drop_zero, if_pos hport]

/-- Either a port was cut off, or there is none. -/
theorem withoutPort_cases (cs : List Char) :
    (∃ port, cs = withoutPort cs ++ ':' :: port ∧ ':' ∉ withoutPort cs ∧ isPort port = true) ∨
      withoutPort cs = cs ∧ ∀ host port, cs = host ++ ':' :: port → ':' ∉ host → isPort port = false := by
  by_cases h : ∃ host port, cs = host ++ ':' :: port ∧ ':' ∉ host ∧ isPort port = true
  · obtain ⟨host, port, rfl, hhost, hport⟩ := h
    rw [withoutPort_of_port hhost hport]
    exact .inl ⟨port, rfl, hhost, hport⟩
  · have hnone : ∀ host port, cs = host ++ ':' :: port → ':' ∉ host → isPort port = false := fun host port hcs hhost =>
      Bool.eq_false_iff.mpr fun hport => h ⟨host, port, hcs, hhost, hport⟩
    refine .inr ⟨?_, hnone⟩
    unfold withoutPort
    split
    · next hcount =>
      have hmem : ':' ∈ cs := List.count_pos_iff.mp (by omega)
      obtain ⟨host, port, hcs, hhost⟩ := List.eq_append_cons_of_mem hmem
      have hkeep : ∀ c ∈ host, decide (c ≠ ':') = true := fun c hc => decide_eq_true fun heq => hhost (heq ▸ hc)
      have hrest : (cs.dropWhile (· ≠ ':')).drop 1 = port := by
        rw [hcs, List.dropWhile_append_of_pos hkeep, List.dropWhile_cons_of_neg (by simp), List.drop_succ_cons, List.drop_zero]
      rw [hrest, hnone host port hcs hhost]
      rfl
    · rfl

/-! ## Hosts -/

/-- A bracketed address is found up to its bracket. -/
theorem takeWhile_bracket {inside : List Char} (hinside : ']' ∉ inside) (rest : List Char) :
    ('[' :: (inside ++ ']' :: rest)).takeWhile (· ≠ ']') ++ [']'] = '[' :: (inside ++ [']']) := by
  have hkeep : ∀ c ∈ '[' :: inside, decide (c ≠ ']') = true := by
    intro c hc
    refine decide_eq_true fun heq => ?_
    rcases List.mem_cons.mp (heq ▸ hc) with hbracket | hmem
    · exact absurd hbracket (by decide)
    · exact hinside hmem
  rw [← List.cons_append, List.takeWhile_append_of_pos hkeep, List.takeWhile_cons_of_neg (by simp), List.append_nil,
    List.cons_append]

/-- A text that starts with a bracket and has a closing one, taken apart at the first of these. -/
theorem bracket_split {cs : List Char} (h : cs.head? = some '[' ∧ ']' ∈ cs) :
    ∃ inside rest, cs = '[' :: (inside ++ ']' :: rest) ∧ ']' ∉ inside := by
  cases cs with
  | nil => nomatch h.1
  | cons c cs =>
    obtain rfl := Option.some.inj h.1
    rcases List.mem_cons.mp h.2 with hbracket | hmem
    · exact absurd hbracket (by decide)
    · obtain ⟨inside, rest, rfl, hinside⟩ := List.eq_append_cons_of_mem hmem
      exact ⟨inside, rest, rfl, hinside⟩

/-- A bracketed authority is reduced to its address, for good. -/
theorem bareHost_bracketed {cs : List Char} (h : cs.head? = some '[' ∧ ']' ∈ cs) : bareHost (bareHost cs) = bareHost cs := by
  obtain ⟨inside, rest, rfl, hinside⟩ := bracket_split h
  have hfirst : bareHost ('[' :: (inside ++ ']' :: rest)) = '[' :: (inside ++ [']']) := by
    rw [bareHost, if_pos h, takeWhile_bracket hinside]
  rw [hfirst, bareHost, if_pos ⟨rfl, by simp⟩]
  exact takeWhile_bracket hinside []

/-- What the trimming leaves when a part that is not blank is at the end. -/
theorem trimList_of_not_blank {left core gap : List Char} (hleft : Blank left)
    (hcore : ∀ c ∈ core.head?, Text.isWhitespace c = false) (hne : core ≠ []) (hgap : ¬ Blank gap) :
    ∃ gap', gap' ≠ [] ∧ Text.trimList (left ++ (core ++ gap)) = core ++ gap' := by
  obtain ⟨right, hsplit, hright⟩ := Text.trimEndMatches_split Text.isWhitespace gap
  have hlast : ∀ c ∈ (Text.trimEndMatches Text.isWhitespace gap).getLast?, Text.isWhitespace c = false := by
    intro c hc
    rw [Text.trimEndMatches, List.getLast?_reverse] at hc
    exact Text.head?_dropWhile _ c hc
  have hkept : Text.trimEndMatches Text.isWhitespace gap ≠ [] := by
    intro hnil
    rw [hnil, List.nil_append] at hsplit
    exact hgap (hsplit ▸ hright)
  refine ⟨_, hkept, ?_⟩
  have htext : left ++ (core ++ gap) = left ++ (core ++ Text.trimEndMatches Text.isWhitespace gap) ++ right := by
    conv_lhs => rw [hsplit]
    simp
  rw [htext]
  refine Text.trimMatches_append hleft ⟨?_, ?_⟩ hright
  · rw [List.head?_append_of_ne_nil _ hne]
    exact hcore
  · rw [List.getLast?_append_of_ne_nil _ hkept]
    exact hlast

section

variable {cs : List Char}

/-- What stands after a bracket, when the port is cut off: the rest, or the rest before the only port. -/
theorem withoutPort_bracket {left inside rest : List Char} (hcs : cs = left ++ '[' :: (inside ++ ']' :: rest))
    (hrest : ¬ Blank rest) (hport : ∀ gap port, rest = gap ++ ':' :: port → Blank gap → isPort port = true → 1 < cs.count ':') :
    ∃ gap, ¬ Blank gap ∧ withoutPort cs = left ++ (('[' :: (inside ++ [']'])) ++ gap) := by
  rcases withoutPort_cases cs with ⟨port, hsplit, hhost, hdigits⟩ | ⟨hsame, -⟩
  · have hbracket : ']' ∉ ':' :: port := by
      intro hmem
      rcases List.mem_cons.mp hmem with hcolon | hmem
      · exact absurd hcolon (by decide)
      · exact not_mem_port hdigits (by decide) hmem
    have hwhole : (left ++ ('[' :: (inside ++ [']']))) ++ rest = withoutPort cs ++ ':' :: port := by
      rw [← hsplit, hcs]
      simp
    have hone : cs.count ':' = 1 := by
      have hnone : (withoutPort cs).count ':' = 0 := List.count_eq_zero.mpr hhost
      have hnone' : port.count ':' = 0 := List.count_eq_zero.mpr (not_mem_port hdigits (by decide))
      rw [hsplit, List.count_append, hnone, List.count_cons_self, hnone']
    rcases List.append_eq_append_iff.mp hwhole with ⟨gap, hhost', hgap⟩ | ⟨tail, htext, htail⟩
    · refine ⟨gap, fun hblank => ?_, by rw [hhost', List.append_assoc]⟩
      have hmore := hport gap port hgap hblank hdigits
      omega
    · cases tail with
      | nil =>
        refine ⟨[], fun hblank => ?_, by rw [← List.append_assoc, htext, List.append_nil, List.append_nil]⟩
        have hmore := hport [] port htail.symm hblank hdigits
        omega
      | cons c tail =>
        -- the port would hold the bracket
        have hend : ']' ∈ c :: tail := by
          have hlast : (left ++ ('[' :: (inside ++ [']']))).getLast? = some ']' := by
            rw [← List.cons_append, ← List.append_assoc, List.getLast?_concat]
          rw [htext, List.getLast?_append_of_ne_nil _ (List.cons_ne_nil c tail)] at hlast
          exact List.mem_of_getLast? hlast
        exact absurd (htail ▸ List.mem_append_left rest hend) hbracket
  · exact ⟨rest, hrest, by rw [hsame, hcs]; simp⟩

/-- Of an indented bracketed address more is left the first time than the second time. -/
theorem not_idem_of_indented (hcs : ¬ (cs.head? = some '[' ∧ ']' ∈ cs)) (h : IndentedBracket cs) :
    bareHost (bareHost cs) ≠ bareHost cs := by
  obtain ⟨left, inside, rest, -, hleft, htext, hinside, hrest, hport⟩ := h
  obtain ⟨gap, hgap, hhost⟩ := withoutPort_bracket htext hrest hport
  have hbracket : ∀ c ∈ ('[' :: (inside ++ [']'])).head?, Text.isWhitespace c = false := by
    intro c hc
    exact Option.some.inj hc ▸ (by decide)
  obtain ⟨gap', hne, htrim⟩ := trimList_of_not_blank hleft hbracket (List.cons_ne_nil _ _) hgap
  have hfirst : bareHost cs = '[' :: (inside ++ ']' :: gap') := by
    rw [bareHost, if_neg hcs, hhost, htrim]
    simp
  rw [hfirst, bareHost, if_pos ⟨rfl, by simp⟩, takeWhile_bracket hinside]
  intro heq
  have hlength := congrArg List.length heq
  have hpos := List.length_pos_of_ne_nil hne
  simp only [List.length_cons, List.length_append, List.length_nil] at hlength
  omega

/-- A port with white space behind it is cut off the second time. -/
theorem not_idem_of_spaced (hcs : ¬ (cs.head? = some '[' ∧ ']' ∈ cs)) (h : SpacedPort cs) :
    bareHost (bareHost cs) ≠ bareHost cs := by
  obtain ⟨host, port, right, htext, hhost, hdigits, hne, hright⟩ := h
  have hspaced : isPort (port ++ right) = false := by
    refine Bool.eq_false_iff.mpr fun hport => ?_
    obtain ⟨c, hc⟩ := List.exists_mem_of_ne_nil right hne
    exact not_mem_port hport (isDigit_of_isWhitespace (hright c hc)) (List.mem_append_right port hc)
  have hwhole : withoutPort cs = cs := by
    rcases withoutPort_cases cs with ⟨port', hsplit, hhost', hport'⟩ | ⟨hsame, -⟩
    · have hcolon : ':' ∉ port ++ right := by
        rw [List.mem_append, not_or]
        exact ⟨not_mem_port hdigits (by decide), Blank.not_mem hright (by decide)⟩
      obtain ⟨-, -, rfl⟩ := (List.append_cons_inj_of_notMem hhost hcolon).mp (htext.symm.trans hsplit)
      rw [hspaced] at hport'
      nomatch hport'
    · exact hsame
  obtain ⟨last, hlast⟩ : ∃ last, port.getLast? = some last := by
    refine ⟨_, List.getLast?_eq_some_getLast fun hnil => ?_⟩
    rw [hnil] at hdigits
    nomatch hdigits
  have hdigit : last.isDigit = true := by
    simp only [isPort, Bool.and_eq_true, List.all_eq_true] at hdigits
    exact hdigits.2 last (List.mem_of_getLast? hlast)
  have hdark : ∀ c, c.isDigit = true → Text.isWhitespace c = false := by
    intro c hc
    refine Bool.eq_false_iff.mpr fun hspace => ?_
    rw [isDigit_of_isWhitespace hspace] at hc
    nomatch hc
  have hend : ((host.dropWhile Text.isWhitespace) ++ ':' :: port).getLast? = some last := by
    rw [List.getLast?_append_of_ne_nil _ (List.cons_ne_nil _ _), List.getLast?_cons, hlast, Option.getD_some]
  have hfirst : bareHost cs = (host.dropWhile Text.isWhitespace) ++ ':' :: port := by
    have hparts : cs = host.takeWhile Text.isWhitespace ++ (host.dropWhile Text.isWhitespace ++ ':' :: port) ++ right := by
      rw [htext, List.append_assoc, List.append_assoc, ← List.append_assoc, List.takeWhile_append_dropWhile]
      simp
    rw [bareHost, if_neg hcs, hwhole, hparts]
    refine Text.trimMatches_append (fun c hc => List.mem_takeWhile_imp hc) ⟨fun c hc => ?_, fun c hc => ?_⟩ hright
    · cases hhead : host.dropWhile Text.isWhitespace with
      | nil =>
        rw [hhead] at hc
        exact Option.some.inj hc ▸ (by decide)
      | cons d host' =>
        rw [hhead] at hc
        exact Text.head?_dropWhile host c (by rw [hhead]; exact hc)
    · rw [hend] at hc
      exact Option.some.inj hc ▸ hdark last hdigit
  have hhost' : ':' ∉ host.dropWhile Text.isWhitespace := fun hmem => hhost ((List.dropWhile_sublist _).subset hmem)
  intro heq
  rw [hfirst, bareHost] at heq
  split at heq
  · -- a bracket would be at the end, where a digit is
    rw [← heq, List.getLast?_concat] at hend
    rw [← Option.some.inj hend] at hdigit
    exact absurd hdigit (by decide)
  · rw [withoutPort_of_port hhost' hdigits] at heq
    refine hhost' (trimList_subset _ ?_)
    rw [heq]
    simp

/-- With no white space in the way what is left is left the second time. -/
theorem idem_of_plain (hcs : ¬ (cs.head? = some '[' ∧ ']' ∈ cs)) (hbracket : ¬ IndentedBracket cs) (hport : ¬ SpacedPort cs) :
    bareHost (bareHost cs) = bareHost cs := by
  obtain ⟨left, right, hhost, hleft, hright, htrimmed⟩ := Text.trimList_split (withoutPort cs)
  have hfirst : bareHost cs = Text.trimList (withoutPort cs) := by rw [bareHost, if_neg hcs]
  rw [hfirst]
  generalize Text.trimList (withoutPort cs) = core at hhost htrimmed ⊢
  rw [bareHost]
  split
  case isTrue h =>
    obtain ⟨inside, rest, rfl, hinside⟩ := bracket_split h
    rw [takeWhile_bracket hinside]
    by_contra hlonger
    have hnotBlank : ¬ Blank rest := by
      intro hblank
      cases hlast : rest.getLast? with
      | none =>
        rw [List.getLast?_eq_none_iff.mp hlast] at hlonger
        exact hlonger rfl
      | some c =>
        have hend : ('[' :: (inside ++ ']' :: rest)).getLast? = some c := by
          rw [← List.cons_append, List.getLast?_append_of_ne_nil _ (List.cons_ne_nil _ _), List.getLast?_cons, hlast,
            Option.getD_some]
        have hspace := hblank c (List.mem_of_getLast? hlast)
        rw [htrimmed.2 c hend] at hspace
        nomatch hspace
    have hnotBlank' : ∀ more, ¬ Blank (rest ++ (right ++ more)) := fun more hblank =>
      hnotBlank fun c hc => hblank c (List.mem_append_left _ hc)
    rcases withoutPort_cases cs with ⟨port', hsplit, hcolon, hdigits⟩ | ⟨hwhole, hnone⟩
    · have htext : cs = left ++ '[' :: (inside ++ ']' :: (rest ++ (right ++ ':' :: port'))) := by
        rw [hsplit, hhost]
        simp
      refine hbracket ⟨left, inside, _, fun hnil => hcs ?_, hleft, htext, hinside, hnotBlank' _,
        fun gap port hgap hblank hport' => ?_⟩
      · rw [htext, hnil]
        exact ⟨rfl, by simp⟩
      · -- the port that is looked for is the one that was cut off
        rw [hhost] at hcolon
        have hcolon' : ':' ∉ rest ++ right := fun hmem => hcolon (by
          rcases List.mem_append.mp hmem with hmem | hmem <;> simp [hmem])
        rw [← List.append_assoc] at hgap
        obtain ⟨hsame, -, -⟩ := (List.append_cons_inj_of_notMem hcolon' (not_mem_port hdigits (by decide))).mp hgap
        exact absurd (fun c hc => (hsame ▸ hblank) c (List.mem_append_left right hc)) hnotBlank
    · have htext : cs = left ++ '[' :: (inside ++ ']' :: (rest ++ (right ++ []))) := by
        rw [← hwhole, hhost]
        simp
      refine hbracket ⟨left, inside, _, fun hnil => hcs ?_, hleft, htext, hinside, hnotBlank' _, fun gap port hgap _ hport' => ?_⟩
      · rw [htext, hnil]
        exact ⟨rfl, by simp⟩
      · by_contra hfew
        have hsplit : cs = (left ++ '[' :: (inside ++ ']' :: gap)) ++ ':' :: port := by
          rw [htext, hgap]
          simp
        have hfront : ':' ∉ left ++ '[' :: (inside ++ ']' :: gap) := by
          intro hmem
          have hpos := List.count_pos_iff.mpr hmem
          rw [hsplit, List.count_append, List.count_cons_self] at hfew
          omega
        rw [hnone _ port hsplit hfront] at hport'
        nomatch hport'
  case isFalse h =>
    have hsame : withoutPort core = core := by
      rcases withoutPort_cases core with ⟨port, hsplit, hcolon, hdigits⟩ | ⟨hsame, -⟩
      · rcases withoutPort_cases cs with ⟨port', -, hcolon', -⟩ | ⟨hwhole, hnone⟩
        · refine absurd ?_ hcolon'
          rw [hhost, hsplit]
          simp
        · rw [hwhole, hsplit] at hhost
          have hfront : ':' ∉ left ++ withoutPort core := by
            rw [List.mem_append, not_or]
            exact ⟨Blank.not_mem hleft (by decide), hcolon⟩
          by_cases hright' : right = []
          · have hlast := hnone (left ++ withoutPort core) port (by rw [hhost, hright']; simp) hfront
            rw [hdigits] at hlast
            nomatch hlast
          · exact absurd ⟨left ++ withoutPort core, port, right, by rw [hhost]; simp, hfront, hdigits, hright', hright⟩ hport
      · exact hsame
    rw [hsame]
    exact Text.trimMatches_self htrimmed

end

/-- A service has one identity: its normalised name stays, and declared under that name it has the same node. -/
def Canonical (raw : String) : Prop :=
  normalizeService (normalizeService raw) = normalizeService raw ∧
    ∀ service : TopologyService, service.name = normalizeService raw →
      (service.normalized normalizeService).node.id = "svc:" ++ normalizeService raw

theorem toList_normalizeService_twice (raw : String) :
    (normalizeService (normalizeService raw)).toList = bareHost (bareHost (authority raw.toList)) := by
  have hhost := (hostText_authority raw.toList).mono (bareHost_subset _)
  rw [normalizeService, normalizeService, String.toList_ofList, String.toList_ofList, hhost.authority_self]

/-- A name is canonical exactly when no white space is in the way of its authority's brackets and port. -/
theorem normalizeService_canonical_iff (raw : String) : Canonical raw ↔ PlainAuthority (authority raw.toList) := by
  have hidem : Canonical raw ↔ bareHost (bareHost (authority raw.toList)) = bareHost (authority raw.toList) := by
    have hlist : normalizeService (normalizeService raw) = normalizeService raw ↔
        bareHost (bareHost (authority raw.toList)) = bareHost (authority raw.toList) := by
      rw [← String.toList_inj, toList_normalizeService_twice, normalizeService, String.toList_ofList]
    refine ⟨fun h => hlist.mp h.1, fun h => ⟨hlist.mpr h, fun service hname => ?_⟩⟩
    change "svc:" ++ normalizeService service.name = "svc:" ++ normalizeService raw
    rw [hname, hlist.mpr h]
  rw [hidem, PlainAuthority]
  by_cases hcs : (authority raw.toList).head? = some '[' ∧ ']' ∈ authority raw.toList
  · exact iff_of_true (bareHost_bracketed hcs) (.inl hcs)
  · constructor
    · exact fun h => .inr ⟨fun hbad => not_idem_of_indented hcs hbad h, fun hbad => not_idem_of_spaced hcs hbad h⟩
    · rintro (hbad | ⟨hbracket, hport⟩)
      · exact absurd hbad hcs
      · exact idem_of_plain hcs hbracket hport

/-- A target with white space after its port is normalised to a name that is normalised to another one. -/
theorem normalizeService_canonical_false : ¬ ∀ raw, Canonical raw := by
  intro hclaim
  have hfirst : normalizeService "demo-app:8080 " = "demo-app:8080" := by decide
  have hsecond : normalizeService "demo-app:8080" = "demo-app" := by decide
  have hidem := (hclaim "demo-app:8080 ").1
  rw [hfirst, hsecond] at hidem
  exact absurd hidem (by decide)

end Tumult
