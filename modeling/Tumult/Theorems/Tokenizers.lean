import Tumult.Query.SqlGuard

/-!
# The two readings of a generated query

The validation and the rewriting read the same words: the second reader is the first one with positions, and its tokens cut the
text.
-/

namespace Tumult.SqlGuard

variable (isAlphanumeric : Char → Bool)

theorem takeWordAt_texts (current : List Char) (start stop : Nat) :
    (takeWordAt current start stop).map (·.text) = takeWord current := by
  unfold takeWordAt takeWord
  split <;> rfl

/-- Without their positions the tokens are the words (induction on the text). -/
theorem tokenizePositionsFrom_texts (len : Nat) (mode : Mode) (current : List Char) (currentStart stringStart i : Nat)
    (cs : List Char) :
    (tokenizePositionsFrom isAlphanumeric len mode current currentStart stringStart i cs).map (·.text) =
      tokenizeFrom isAlphanumeric mode current cs := by
  induction cs generalizing mode current currentStart stringStart i with
  | nil => cases mode <;> exact takeWordAt_texts current currentStart len
  | cons c cs ih =>
    cases mode with
    | escaped => exact ih ..
    | inString =>
      unfold tokenizePositionsFrom tokenizeFrom
      split
      · split
        · exact ih ..
        · rw [List.map_cons, ih]
      · exact ih ..
    | outside =>
      unfold tokenizePositionsFrom tokenizeFrom
      split
      · rw [List.map_append, takeWordAt_texts, ih]
      · split
        · exact ih ..
        · rw [List.map_append, List.map_append, takeWordAt_texts, ih]
          split <;> rfl

/-! ## Positions -/

/-- The inside of a literal: its quotes come in twos. -/
inductive Doubled : List Char → Prop
  | nil : Doubled []
  | char {body : List Char} {c : Char} (h : Doubled body) (hc : c ≠ '\'') : Doubled (body ++ [c])
  | quotes {body : List Char} (h : Doubled body) : Doubled (body ++ ['\'', '\''])

/-- A string literal with its quotes. -/
def IsLiteral (mid : List Char) : Prop := ∃ body, mid = '\'' :: (body ++ ['\'']) ∧ Doubled body

/-- The part of the text a token stands for: its text, and for a placeholder a string literal. -/
def PosTok.Fits (t : PosTok) (mid : List Char) : Prop :=
  t.text = String.ofList mid ∨ t.text = "?str?" ∧ t.word = false ∧ IsLiteral mid

/-- The tokens cut a text that begins at the position. -/
abbrev Cuts : Nat → List Char → List PosTok → Prop := Spans.Cut PosTok.start PosTok.stop PosTok.Fits

/-- A word is cut off. -/
theorem cuts_word {pos : Nat} {current cs : List Char} {start : Nat} {ts : List PosTok} (hstart : current ≠ [] → start = pos)
    (h : Cuts (pos + Spans.bytes current) cs ts) :
    Cuts pos (current ++ cs) (takeWordAt current start (pos + Spans.bytes current) ++ ts) := by
  unfold takeWordAt
  split
  · next hnil =>
    subst hnil
    exact h
  · next hne =>
    rw [hstart hne]
    exact .token pos [] current hne (.inl rfl) rfl rfl h

/-- What a reader has behind it in each mode: the word, or the literal so far. -/
inductive Behind (pos : Nat) : Mode → List Char → Nat → Nat → List Char → Prop
  | outside (current : List Char) (currentStart stringStart : Nat) (hstart : current ≠ [] → currentStart = pos) :
      Behind pos .outside current currentStart stringStart current
  | inString {body : List Char} (currentStart : Nat) (hbody : Doubled body) :
      Behind pos .inString [] currentStart pos ('\'' :: body)
  | escaped {body : List Char} (currentStart : Nat) (hbody : Doubled body) :
      Behind pos .escaped [] currentStart pos ('\'' :: (body ++ ['\'']))

/-- From what it has behind it a reader cuts the rest of the text (induction on the rest). -/
theorem Behind.cuts {len pos currentStart stringStart : Nat} {mode : Mode} {current read cs : List Char}
    (h : Behind pos mode current currentStart stringStart read) (hnext : mode = .escaped → cs.head? = some '\'')
    (hlen : len = pos + Spans.bytes read + Spans.bytes cs) :
    Cuts pos (read ++ cs)
      (tokenizePositionsFrom isAlphanumeric len mode current currentStart stringStart (pos + Spans.bytes read) cs) := by
  induction cs generalizing pos mode current currentStart stringStart read with
  | nil =>
    cases h with
    | outside _ _ _ hstart =>
      have hword : Cuts pos (current ++ []) (takeWordAt current currentStart (pos + Spans.bytes current) ++ []) :=
        cuts_word hstart (.done _ _)
      rw [List.append_nil (takeWordAt _ _ _)] at hword
      rw [tokenizePositionsFrom, hlen, Spans.bytes_nil, Nat.add_zero]
      exact hword
    | inString _ _ => exact .done _ _
    | escaped _ _ => nomatch hnext rfl
  | cons c cs ih =>
    rw [Spans.bytes_cons, ← Nat.add_assoc] at hlen
    -- the character belongs to what is read
    have hgo : ∀ {mode' current' start' start''}, Behind pos mode' current' start' start'' (read ++ [c]) →
        (mode' = .escaped → cs.head? = some '\'') → Cuts pos (read ++ c :: cs)
          (tokenizePositionsFrom isAlphanumeric len mode' current' start' start'' (pos + Spans.bytes read + c.utf8Size) cs) := by
      intro mode' current' start' start'' hbehind hnext'
      have hbytes : pos + Spans.bytes (read ++ [c]) = pos + Spans.bytes read + c.utf8Size := by
        rw [Spans.bytes_append, Spans.bytes_cons, Spans.bytes_nil, Nat.add_zero, Nat.add_assoc]
      have hrest := ih hbehind hnext' (by rw [hbytes, hlen])
      rwa [hbytes, List.append_assoc, List.singleton_append] at hrest
    -- the rest is read from the start
    have hfresh : ∀ start' start'', Cuts (pos + Spans.bytes read + c.utf8Size) cs
        (tokenizePositionsFrom isAlphanumeric len .outside [] start' start'' (pos + Spans.bytes read + c.utf8Size) cs) :=
      fun start' start'' => ih (.outside [] start' start'' fun hne => absurd rfl hne) (fun hmode => nomatch hmode) hlen
    cases h with
    | escaped _ hbody =>
      obtain rfl : c = '\'' := Option.some.inj (hnext rfl)
      have hquotes : Behind pos .inString [] currentStart pos _ := .inString currentStart hbody.quotes
      exact hgo (by simpa using hquotes) fun hmode => nomatch hmode
    | inString _ hbody =>
      unfold tokenizePositionsFrom
      split
      · next hquote =>
        subst hquote
        split
        · next hescaped => exact hgo (.escaped currentStart hbody) fun _ => hescaped
        · rename_i body _
          have hend : Spans.bytes ('\'' :: (body ++ ['\''])) = Spans.bytes ('\'' :: body) + 1 := by
            rw [← List.cons_append, Spans.bytes_append]
            rfl
          have hliteral : Cuts pos ([] ++ (('\'' :: (body ++ ['\''])) ++ cs))
              (⟨"?str?", pos, pos + Spans.bytes ('\'' :: body) + 1, false⟩ :: _) :=
            .token pos [] _ (List.cons_ne_nil _ _) (.inr ⟨rfl, rfl, body, rfl, hbody⟩) rfl (by rw [hend]; rfl)
              (by rw [hend]; exact hfresh currentStart pos)
          simpa using hliteral
      · next hchar => exact hgo (.inString currentStart (hbody.char hchar)) fun hmode => nomatch hmode
    | outside _ _ _ hstart =>
      unfold tokenizePositionsFrom
      split
      · next hquote =>
        subst hquote
        exact cuts_word hstart (ih (.inString currentStart .nil) (fun hmode => nomatch hmode) hlen)
      · split
        · refine hgo (.outside _ _ stringStart fun _ => ?_) fun hmode => nomatch hmode
          split
          · next hnil => rw [hnil, Spans.bytes_nil, Nat.add_zero]
          · next hne => exact hstart hne
        · rw [List.append_assoc]
          refine cuts_word hstart ?_
          split
          · exact .skip [c] (hfresh currentStart stringStart)
          · exact .token _ [] [c] (List.cons_ne_nil _ _) (.inl rfl) rfl rfl (hfresh currentStart stringStart)

/-- The tokens of a text cut it. -/
theorem cuts_tokenizePositions (sql : String) : Cuts 0 sql.toList (tokenizePositions isAlphanumeric sql) := by
  have hall := Behind.cuts isAlphanumeric (.outside [] 0 0 fun hne => absurd rfl hne) (fun hmode => nomatch hmode)
    (show Spans.bytes sql.toList = 0 + Spans.bytes [] + Spans.bytes sql.toList from (Nat.zero_add _).symm)
  exact hall

/-- The two readers read the same words, and the spans of the second one stand one after the other on character boundaries; the part
of the text in a span is the text of its token, and for the placeholder of a string the literal. -/
theorem tokenizers_agree (sql : String) :
    (tokenizePositions isAlphanumeric sql).map (·.text) = tokenize isAlphanumeric sql ∧
      (tokenizePositions isAlphanumeric sql).Pairwise (fun a b => a.stop ≤ b.start) ∧
      ∀ t ∈ tokenizePositions isAlphanumeric sql, t.start < t.stop ∧
        ∃ mid, Spans.slice sql.toList t.start t.stop = some mid ∧
          (t.text = String.ofList mid ∨ t.text = "?str?" ∧ t.word = false ∧ IsLiteral mid) := by
  have hcuts := cuts_tokenizePositions isAlphanumeric sql
  exact ⟨tokenizePositionsFrom_texts isAlphanumeric _ .outside [] 0 0 0 sql.toList, hcuts.pairwise, fun t ht => hcuts.slice ht⟩

/-- The slice of a placeholder is not its text. -/
theorem tokenizers_slices_false :
    ¬ ∀ sql : String, ∀ t ∈ tokenizePositions Char.isAlphanum sql, Spans.slice sql.toList t.start t.stop = some t.text.toList := by
  intro hclaim
  have htokens : tokenizePositions Char.isAlphanum "'a'" = [⟨"?str?", 0, 3, false⟩] := by decide
  have hslice := hclaim "'a'" ⟨"?str?", 0, 3, false⟩ (htokens ▸ List.mem_cons_self)
  exact absurd hslice (by decide)

end Tumult.SqlGuard
