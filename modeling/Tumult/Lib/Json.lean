import Mathlib

/-!
# Compact JSON text: rendering that can be read back

The rendering of strings, integers and nulls as a compact JSON writer emits them, as lists of characters. The one property a
hash over JSON text needs is that the text determines the value, also when more text follows: an encoder with that property is
`PrefixFree`, and a record rendered field by field is read back field by field (`PrefixFree.field`).
-/

namespace JsonText

/-! ## Encoders that determine their value -/

/-- An encoder whose output determines the value and where the output ends, whatever text follows. -/
def PrefixFree {α : Type*} (enc : α → List Char) : Prop :=
  ∀ a b x y, enc a ++ x = enc b ++ y → a = b ∧ x = y

/-- One field of an object: the text up to the value, then the value. -/
def field (name : String) (value : List Char) : List Char := name.toList ++ value

/-- A prefix-free value makes a prefix-free field. -/
theorem PrefixFree.field {α : Type*} {enc : α → List Char} (h : PrefixFree enc) (name : String) :
    PrefixFree (fun a => JsonText.field name (enc a)) := by
  intro a b x y hxy
  simp only [JsonText.field, List.append_assoc] at hxy
  exact h a b x y (List.append_cancel_left hxy)

/-! ## Strings -/

/-- The hexadecimal digit of a value below sixteen, lower case. -/
def hexDigit (n : Nat) : Char := if n < 10 then Char.ofNat (48 + n) else Char.ofNat (87 + n)

/-- One character of a string as the compact writer escapes it. -/
def escapeChar (c : Char) : List Char :=
  if c = '"' then ['\\', '"']
  else if c = '\\' then ['\\', '\\']
  else if c.toNat = 8 then ['\\', 'b']
  else if c.toNat = 9 then ['\\', 't']
  else if c.toNat = 10 then ['\\', 'n']
  else if c.toNat = 12 then ['\\', 'f']
  else if c.toNat = 13 then ['\\', 'r']
  else if c.toNat < 32 then ['\\', 'u', '0', '0', hexDigit (c.toNat / 16), hexDigit (c.toNat % 16)]
  else [c]

/-- The characters of a string, each escaped. -/
def escape (s : List Char) : List Char := s.flatMap escapeChar

/-- A string between quotes. -/
def quote (s : String) : List Char := '"' :: (escape s.toList ++ ['"'])

/-- The value of a lower-case hexadecimal digit. -/
def hexValue (c : Char) : Nat := if c.toNat < 58 then c.toNat - 48 else c.toNat - 87

/-- Reads one escaped character back. -/
def unescapeChar : List Char → Option (Char × List Char)
  | '\\' :: 'u' :: '0' :: '0' :: h :: l :: rest => some (Char.ofNat (16 * hexValue h + hexValue l), rest)
  | '\\' :: 'b' :: rest => some (Char.ofNat 8, rest)
  | '\\' :: 't' :: rest => some (Char.ofNat 9, rest)
  | '\\' :: 'n' :: rest => some (Char.ofNat 10, rest)
  | '\\' :: 'f' :: rest => some (Char.ofNat 12, rest)
  | '\\' :: 'r' :: rest => some (Char.ofNat 13, rest)
  | '\\' :: c :: rest => some (c, rest)
  | c :: rest => some (c, rest)
  | [] => none

/-- A control character is read back from its escape. -/
theorem unescapeChar_escapeChar_control (n : Fin 32) (rest : List Char) :
    unescapeChar (escapeChar (Char.ofNat n) ++ rest) = some (Char.ofNat n, rest) := by
  fin_cases n <;> rfl

/-- Every character is read back from its escape, whatever follows. -/
theorem unescapeChar_escapeChar (c : Char) (rest : List Char) :
    unescapeChar (escapeChar c ++ rest) = some (c, rest) := by
  by_cases hctl : c.toNat < 32
  · have h := unescapeChar_escapeChar_control ⟨c.toNat, hctl⟩ rest
    rwa [Char.ofNat_toNat] at h
  by_cases hq : c = '"'
  · subst hq; rfl
  by_cases hb : c = '\\'
  · subst hb; rfl
  have he : escapeChar c = [c] := by
    unfold escapeChar
    rw [if_neg hq, if_neg hb, if_neg (by omega), if_neg (by omega), if_neg (by omega), if_neg (by omega),
      if_neg (by omega), if_neg hctl]
  rw [he]
  unfold unescapeChar
  split <;> simp_all

/-- The escape of a character neither is empty nor starts with a quote, so it cannot be taken for the end of a string. -/
theorem escapeChar_ne_quote (c : Char) (x y : List Char) : escapeChar c ++ x ≠ '"' :: y := by
  intro h
  have hread := unescapeChar_escapeChar c x
  rw [h] at hread
  have hc : c = '"' := by
    have : some ('"', y) = some (c, x) := hread
    simpa using (congrArg (Option.map Prod.fst) this).symm
  subst hc
  have : ['\\', '"'] ++ x = '"' :: y := h
  simp at this

/-- The text of a string up to its closing quote determines the string and the rest (induction on the string). -/
theorem escape_quote_inj (s t x y : List Char) (h : escape s ++ '"' :: x = escape t ++ '"' :: y) : s = t ∧ x = y := by
  induction s generalizing t with
  | nil =>
    cases t with
    | nil => simpa [escape] using h
    | cons d t =>
      simp only [escape, List.flatMap_nil, List.nil_append, List.flatMap_cons, List.append_assoc] at h
      exact absurd h.symm (escapeChar_ne_quote d _ _)
  | cons c s ih =>
    cases t with
    | nil =>
      simp only [escape, List.flatMap_nil, List.nil_append, List.flatMap_cons, List.append_assoc] at h
      exact absurd h (escapeChar_ne_quote c _ _)
    | cons d t =>
      simp only [escape, List.flatMap_cons, List.append_assoc] at h
      have hc := unescapeChar_escapeChar c (escape s ++ '"' :: x)
      have hd := unescapeChar_escapeChar d (escape t ++ '"' :: y)
      simp only [escape] at hc hd
      rw [h, hd] at hc
      simp only [Option.some.injEq, Prod.mk.injEq] at hc
      obtain ⟨rfl, hrest⟩ := hc
      obtain ⟨rfl, hxy⟩ := ih t hrest.symm
      exact ⟨rfl, hxy⟩

/-- A quoted string is prefix-free. -/
theorem quote_prefixFree : PrefixFree quote := by
  intro s t x y h
  simp only [quote, List.cons_append, List.append_assoc, List.cons.injEq, true_and] at h
  obtain ⟨hst, hxy⟩ := escape_quote_inj s.toList t.toList x y h
  exact ⟨String.toList_inj.mp hst, hxy⟩

/-! ## Nulls and integers -/

/-- An optional string: the string, or `null`. -/
def quoteOrNull : Option String → List Char
  | none => "null".toList
  | some s => quote s

/-- An optional string is prefix-free: `null` does not start with a quote. -/
theorem quoteOrNull_prefixFree : PrefixFree quoteOrNull := by
  intro a b x y h
  cases a with
  | none =>
    cases b with
    | none => exact ⟨rfl, List.append_cancel_left h⟩
    | some t => simp [quoteOrNull, quote] at h
  | some s =>
    cases b with
    | none => simp [quoteOrNull, quote] at h
    | some t =>
      obtain ⟨rfl, hxy⟩ := quote_prefixFree s t x y h
      exact ⟨rfl, hxy⟩

/-- An integer in decimal, followed by the comma that ends it. -/
def intComma (n : Int) : List Char := (toString n).toList ++ [',']

/-- No decimal digit is a comma. -/
theorem comma_not_mem_repr (n : Nat) : ',' ∉ n.repr.toList := by
  rw [Nat.toList_repr]
  intro h
  have := Nat.isDigit_of_mem_toDigits (by decide) (by decide) h
  exact absurd this (by decide)

/-- The decimal text of an integer holds no comma. -/
theorem comma_not_mem_int (n : Int) : ',' ∉ (toString n).toList := by
  cases n with
  | ofNat n => exact comma_not_mem_repr n
  | negSucc n =>
    have he : (toString (Int.negSucc n)).toList = '-' :: (Nat.repr (n + 1)).toList := by
      change ("-" ++ Nat.repr (n + 1)).toList = _
      simp
    rw [he, List.mem_cons, not_or]
    exact ⟨by decide, comma_not_mem_repr (n + 1)⟩

/-- Two texts without a separator, each followed by one, agree before it and after it. -/
theorem split_at_separator {sep : Char} {a b x y : List Char} (ha : sep ∉ a) (hb : sep ∉ b)
    (h : a ++ sep :: x = b ++ sep :: y) : a = b ∧ x = y := by
  induction a generalizing b with
  | nil =>
    cases b with
    | nil => exact ⟨rfl, (List.cons.inj h).2⟩
    | cons d b => exact absurd (List.mem_cons.mpr (Or.inl (List.cons.inj h).1)) hb
  | cons c a ih =>
    cases b with
    | nil => exact absurd (List.mem_cons.mpr (Or.inl (List.cons.inj h).1.symm)) ha
    | cons d b =>
      obtain ⟨hcd, hrest⟩ := List.cons.inj h
      obtain ⟨hab, hxy⟩ := ih (fun m => ha (List.mem_cons_of_mem c m)) (fun m => hb (List.mem_cons_of_mem d m)) hrest
      exact ⟨by rw [hcd, hab], hxy⟩

/-- An integer with its comma is prefix-free. -/
theorem intComma_prefixFree : PrefixFree intComma := by
  intro a b x y h
  simp only [intComma, List.append_assoc, List.singleton_append] at h
  obtain ⟨hab, hxy⟩ := split_at_separator (comma_not_mem_int a) (comma_not_mem_int b) h
  exact ⟨Int.repr_injective (String.toList_inj.mp hab), hxy⟩

end JsonText
