import Mathlib

/-!
# Text, roles and errors

The string operations of the standard library that checks and parsers rest on, the roles of the access control, and the errors of
the tools.
-/

namespace Tumult

namespace Text

/-- `char::is_whitespace`: the Unicode property `White_Space`. -/
def isWhitespace (c : Char) : Bool :=
  (9 ≤ c.toNat && c.toNat ≤ 13) || c.toNat = 32 || c.toNat = 0x85 || c.toNat = 0xA0 || c.toNat = 0x1680 ||
    (0x2000 ≤ c.toNat && c.toNat ≤ 0x200A) || c.toNat = 0x2028 || c.toNat = 0x2029 || c.toNat = 0x202F || c.toNat = 0x205F ||
    c.toNat = 0x3000

/-- `str::trim`, on characters. -/
def trimList (cs : List Char) : List Char := ((cs.dropWhile isWhitespace).reverse.dropWhile isWhitespace).reverse

/-- `str::trim`. -/
def trim (s : String) : String := String.ofList (trimList s.toList)

/-- `trim_end_matches`, on characters. -/
def trimEndMatches (p : Char → Bool) (cs : List Char) : List Char := (cs.reverse.dropWhile p).reverse

/-- A text without its last characters of a kind, and those. -/
theorem trimEndMatches_split (p : Char → Bool) (cs : List Char) :
    ∃ tail, cs = trimEndMatches p cs ++ tail ∧ ∀ c ∈ tail, p c = true := by
  refine ⟨(cs.reverse.takeWhile p).reverse, ?_, fun c hc => List.mem_takeWhile_imp (List.mem_reverse.mp hc)⟩
  unfold trimEndMatches
  rw [← List.reverse_append, List.takeWhile_append_dropWhile, List.reverse_reverse]

/-- A text begins and ends with characters of another kind. -/
def Trimmed (p : Char → Bool) (cs : List Char) : Prop := (∀ c ∈ cs.head?, p c = false) ∧ ∀ c ∈ cs.getLast?, p c = false

theorem dropWhile_of_head? {p : Char → Bool} {cs : List Char} (h : ∀ c ∈ cs.head?, p c = false) : cs.dropWhile p = cs := by
  cases cs with
  | nil => rfl
  | cons c cs => exact List.dropWhile_cons_of_neg (by simp [h c rfl])

theorem head?_dropWhile {p : Char → Bool} (cs : List Char) : ∀ c ∈ (cs.dropWhile p).head?, p c = false := by
  intro c hc
  have hfirst := List.head?_dropWhile_not p cs
  rw [Option.mem_def.mp hc] at hfirst
  simpa using hfirst

/-- A text that begins and ends with characters of another kind is not trimmed. -/
theorem trimMatches_self {p : Char → Bool} {cs : List Char} (h : Trimmed p cs) : trimEndMatches p (cs.dropWhile p) = cs := by
  rw [dropWhile_of_head? h.1, trimEndMatches, dropWhile_of_head? (by rw [List.head?_reverse]; exact h.2), List.reverse_reverse]

/-- What is left of a text that is trimmed begins and ends with characters of another kind. -/
theorem trimmed_trimMatches (p : Char → Bool) (cs : List Char) : Trimmed p (trimEndMatches p (cs.dropWhile p)) := by
  refine ⟨fun c hc => ?_, fun c hc => ?_⟩
  · obtain ⟨tail, htail, -⟩ := trimEndMatches_split p (cs.dropWhile p)
    refine head?_dropWhile cs c ?_
    rw [htail]
    exact List.mem_head?_append_of_mem_head? hc
  · rw [trimEndMatches, List.getLast?_reverse] at hc
    exact head?_dropWhile _ c hc

/-- Characters of the kind around a text are trimmed. -/
theorem trimMatches_append {p : Char → Bool} {left cs right : List Char} (hleft : ∀ c ∈ left, p c = true) (h : Trimmed p cs)
    (hright : ∀ c ∈ right, p c = true) : trimEndMatches p ((left ++ cs ++ right).dropWhile p) = cs := by
  rw [List.append_assoc, List.dropWhile_append_of_pos hleft]
  cases cs with
  | nil =>
    have hnone : right.dropWhile p = [] := List.dropWhile_eq_nil_iff.mpr hright
    simp [hnone, trimEndMatches]
  | cons c cs =>
    have hstart : ((c :: cs) ++ right).dropWhile p = (c :: cs) ++ right := dropWhile_of_head? h.1
    have hback : ∀ c ∈ right.reverse, p c = true := fun c hc => hright c (List.mem_reverse.mp hc)
    rw [hstart, trimEndMatches, List.reverse_append, List.dropWhile_append_of_pos hback,
      dropWhile_of_head? (by rw [List.head?_reverse]; exact h.2), List.reverse_reverse]

/-- A text without the white space around it, and that. -/
theorem trimList_split (cs : List Char) : ∃ left right, cs = left ++ trimList cs ++ right ∧
    (∀ c ∈ left, isWhitespace c = true) ∧ (∀ c ∈ right, isWhitespace c = true) ∧ Trimmed isWhitespace (trimList cs) := by
  obtain ⟨right, hright, hspace⟩ := trimEndMatches_split isWhitespace (cs.dropWhile isWhitespace)
  refine ⟨cs.takeWhile isWhitespace, right, ?_, fun c hc => List.mem_takeWhile_imp hc, hspace, trimmed_trimMatches isWhitespace cs⟩
  change cs = cs.takeWhile isWhitespace ++ trimEndMatches isWhitespace (cs.dropWhile isWhitespace) ++ right
  rw [List.append_assoc, ← hright, List.takeWhile_append_dropWhile]

/-- The first word of `split_whitespace`. -/
def firstField (cs : List Char) : Option String :=
  match (cs.dropWhile isWhitespace).takeWhile (!isWhitespace ·) with
  | [] => none
  | word => some (String.ofList word)

/-- `to_ascii_lowercase`. -/
def toAsciiLowercase (s : String) : String := String.ofList (s.toList.map Char.toLower)

end Text

/-- Roles, least first. -/
inductive Role where
  | viewer
  | operator
  | approver
  | admin
  deriving DecidableEq, Repr

namespace Role

/-- The place of a role in the order. -/
def rank : Role → Nat
  | viewer => 0
  | operator => 1
  | approver => 2
  | admin => 3

instance : LE Role := ⟨fun a b => a.rank ≤ b.rank⟩

instance (a b : Role) : Decidable (a ≤ b) := inferInstanceAs (Decidable (a.rank ≤ b.rank))

/-- A role by its name, in any case and between white space; an unknown name is refused. -/
def parse (s : String) : Option Role :=
  match Text.toAsciiLowercase (Text.trim s) with
  | "viewer" => some viewer
  | "operator" => some operator
  | "approver" => some approver
  | "admin" => some admin
  | _ => none

/-- The canonical name. -/
def asStr : Role → String
  | viewer => "viewer"
  | operator => "operator"
  | approver => "approver"
  | admin => "admin"

/-- A role parses back from its name. -/
theorem parse_asStr (r : Role) : parse r.asStr = some r := by
  cases r <;> decide +kernel

end Role

/-- The errors of a tool; the texts of the file system and of the database are left out. -/
inductive ToolError where
  | io
  | parse (message : String)
  | validation (message : String)
  | execution (message : String)
  | store
  | notFound (message : String)
  | path (message : String)
  | invalidInput (message : String)
  | alreadyExists (message : String)
  deriving DecidableEq, Repr

end Tumult
