import Mathlib

/-!
# Spans of a text

Positions in a text are counted in the bytes of its characters. A slice between two positions is there when both are character
boundaries. A text is cut into tokens when each token stands for a part of it, one after the other, with gaps between them.
-/

namespace Spans

/-- The bytes of a text in UTF-8. -/
def bytes (cs : List Char) : Nat := (cs.map Char.utf8Size).sum

@[simp] theorem bytes_nil : bytes [] = 0 := rfl

@[simp] theorem bytes_cons (c : Char) (cs : List Char) : bytes (c :: cs) = c.utf8Size + bytes cs := List.sum_cons

@[simp] theorem bytes_append (cs ds : List Char) : bytes (cs ++ ds) = bytes cs + bytes ds := by
  rw [bytes, List.map_append, List.sum_append, bytes, bytes]

theorem bytes_pos {cs : List Char} (h : cs ≠ []) : 0 < bytes cs := by
  cases cs with
  | nil => exact absurd rfl h
  | cons c cs =>
    have hc := c.utf8Size_pos
    rw [bytes_cons]
    omega

/-- The text from a position on; none within a character, and none behind the end. -/
def dropBytes : Nat → List Char → Option (List Char)
  | 0, cs => some cs
  | _ + 1, [] => none
  | n + 1, c :: cs => if c.utf8Size ≤ n + 1 then dropBytes (n + 1 - c.utf8Size) cs else none

/-- The text up to a position. -/
def takeBytes : Nat → List Char → Option (List Char)
  | 0, _ => some []
  | _ + 1, [] => none
  | n + 1, c :: cs => if c.utf8Size ≤ n + 1 then (takeBytes (n + 1 - c.utf8Size) cs).map (c :: ·) else none

/-- The text between two positions. -/
def slice (cs : List Char) (start stop : Nat) : Option (List Char) :=
  if start ≤ stop then (dropBytes start cs).bind (takeBytes (stop - start)) else none

theorem dropBytes_append (before cs : List Char) : dropBytes (bytes before) (before ++ cs) = some cs := by
  induction before with
  | nil => rw [bytes_nil, List.nil_append, dropBytes]
  | cons c before ih =>
    obtain ⟨n, hn⟩ := Nat.exists_eq_add_one_of_ne_zero (show bytes (c :: before) ≠ 0 from (bytes_pos (List.cons_ne_nil _ _)).ne')
    have hrest : n + 1 - c.utf8Size = bytes before := by
      rw [bytes_cons] at hn
      omega
    have hfits : c.utf8Size ≤ n + 1 := by
      rw [← hn, bytes_cons]
      exact Nat.le_add_right _ _
    rw [hn, List.cons_append, dropBytes, if_pos hfits, hrest, ih]

theorem takeBytes_append (mid cs : List Char) : takeBytes (bytes mid) (mid ++ cs) = some mid := by
  induction mid with
  | nil => rw [bytes_nil, takeBytes]
  | cons c mid ih =>
    obtain ⟨n, hn⟩ := Nat.exists_eq_add_one_of_ne_zero (show bytes (c :: mid) ≠ 0 from (bytes_pos (List.cons_ne_nil _ _)).ne')
    have hrest : n + 1 - c.utf8Size = bytes mid := by
      rw [bytes_cons] at hn
      omega
    have hfits : c.utf8Size ≤ n + 1 := by
      rw [← hn, bytes_cons]
      exact Nat.le_add_right _ _
    rw [hn, List.cons_append, takeBytes, if_pos hfits, hrest, ih, Option.map_some]

/-- The text up to a position is the part before it that has so many bytes (induction on the text). -/
theorem takeBytes_eq_some {n : Nat} {cs mid : List Char} :
    takeBytes n cs = some mid ↔ ∃ after, cs = mid ++ after ∧ bytes mid = n := by
  constructor
  · intro h
    fun_induction takeBytes n cs generalizing mid with
    | case1 cs => exact ⟨cs, by cases h; rfl, by cases h; rfl⟩
    | case2 => nomatch h
    | case3 n c cs hfits ih =>
      obtain ⟨mid', hmid', rfl⟩ := Option.map_eq_some_iff.mp h
      obtain ⟨after, rfl, hbytes⟩ := ih hmid'
      refine ⟨after, rfl, ?_⟩
      rw [bytes_cons, hbytes]
      omega
    | case4 => nomatch h
  · rintro ⟨after, rfl, rfl⟩
    exact takeBytes_append mid after

/-- A part of a text is its slice. -/
theorem slice_append (before mid after : List Char) :
    slice (before ++ (mid ++ after)) (bytes before) (bytes before + bytes mid) = some mid := by
  rw [slice, if_pos (Nat.le_add_right _ _), dropBytes_append, Option.bind_some, Nat.add_sub_cancel_left, takeBytes_append]

/-! ## Tokens -/

variable {τ : Type*} (start stop : τ → Nat) (Fits : τ → List Char → Prop)

/-- The tokens stand one after the other in a text that begins at the position, each for a part that is not empty and fits it. -/
inductive Cut : Nat → List Char → List τ → Prop
  | done (pos : Nat) (cs : List Char) : Cut pos cs []
  | token (pos : Nat) (gap mid : List Char) {cs : List Char} {t : τ} {ts : List τ} (hne : mid ≠ []) (hfits : Fits t mid)
      (hstart : start t = pos + bytes gap) (hstop : stop t = pos + bytes gap + bytes mid)
      (rest : Cut (pos + bytes gap + bytes mid) cs ts) : Cut pos (gap ++ (mid ++ cs)) (t :: ts)

variable {start stop : τ → Nat} {Fits : τ → List Char → Prop} {pos : Nat} {cs : List Char} {ts : List τ}

/-- Characters before the first token are a gap. -/
theorem Cut.skip (gap : List Char) (h : Cut start stop Fits (pos + bytes gap) cs ts) : Cut start stop Fits pos (gap ++ cs) ts := by
  cases h with
  | done => exact .done _ _
  | token _ gap' mid hne hfits hstart hstop rest =>
    rw [← List.append_assoc]
    refine .token pos (gap ++ gap') mid hne hfits ?_ ?_ ?_
    · rw [hstart, bytes_append, Nat.add_assoc]
    · rw [hstop, bytes_append, Nat.add_assoc pos]
    · rwa [bytes_append, ← Nat.add_assoc]

/-- Every token stands for a part of the text (induction on the tokens). -/
theorem Cut.located (h : Cut start stop Fits pos cs ts) {t : τ} (ht : t ∈ ts) :
    ∃ before mid after, cs = before ++ (mid ++ after) ∧ mid ≠ [] ∧ Fits t mid ∧ start t = pos + bytes before ∧
      stop t = pos + bytes before + bytes mid := by
  induction h with
  | done => exact absurd ht List.not_mem_nil
  | token pos gap mid hne hfits hstart hstop rest ih =>
    rcases List.mem_cons.mp ht with rfl | ht
    · exact ⟨gap, mid, _, rfl, hne, hfits, hstart, hstop⟩
    · obtain ⟨before, mid', after, rfl, hne', hfits', hstart', hstop'⟩ := ih ht
      refine ⟨gap ++ mid ++ before, mid', after, by simp, hne', hfits', ?_, ?_⟩
      · rw [hstart', bytes_append, bytes_append]
        omega
      · rw [hstop', bytes_append, bytes_append]
        omega

theorem Cut.le_start (h : Cut start stop Fits pos cs ts) {t : τ} (ht : t ∈ ts) : pos ≤ start t := by
  obtain ⟨before, -, -, -, -, -, hstart, -⟩ := h.located ht
  omega

/-- The tokens do not overlap, and stand in the order of their positions (induction on them). -/
theorem Cut.pairwise (h : Cut start stop Fits pos cs ts) : ts.Pairwise fun a b => stop a ≤ start b := by
  induction h with
  | done => exact .nil
  | token pos gap mid hne hfits hstart hstop rest ih =>
    exact .cons (fun t ht => hstop ▸ rest.le_start ht) ih

/-- The slice of a token is the part it stands for. -/
theorem Cut.slice (h : Cut start stop Fits 0 cs ts) {t : τ} (ht : t ∈ ts) :
    start t < stop t ∧ ∃ mid, slice cs (start t) (stop t) = some mid ∧ Fits t mid := by
  obtain ⟨before, mid, after, rfl, hne, hfits, hstart, hstop⟩ := h.located ht
  rw [Nat.zero_add] at hstart hstop
  have hpos := bytes_pos hne
  refine ⟨by omega, mid, ?_, hfits⟩
  rw [hstart, hstop]
  exact slice_append before mid after

end Spans
