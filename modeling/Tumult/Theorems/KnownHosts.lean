import Tumult.Ssh.KnownHosts
import Tumult.Lib.Decimal
import Tumult.Lib.Wildcard

/-!
# Which host keys are trusted

A file of host keys only grows, by whole lines, so the first entry of a host stays its first. From the time a host has an entry, a
check accepts its key and no other; a host without one gets the entry of the first connection that records a key for this very
host and port, whatever other hosts record.
-/

namespace Tumult.Ssh

open Interleave

/-! ## Patterns -/

/-- The texts of one character. -/
def anyOne : Language Char := {text : List Char | text.length = 1}

theorem mem_anyOne {text : List Char} : text ∈ anyOne ↔ text.length = 1 := Iff.rfl

/-- The texts that a character of a pattern stands for. -/
def globLetter (c : Char) : Language Char := if c = '*' then ⊤ else if c = '?' then anyOne else {[c]}

/-- The texts of a pattern. -/
def globLanguage (pattern : List Char) : Language Char := (pattern.map globLetter).prod

theorem mem_globLanguage_nil {text : List Char} : text ∈ globLanguage [] ↔ text = [] := Language.mem_one text

theorem mem_globLanguage_cons {c : Char} {pattern text : List Char} :
    text ∈ globLanguage (c :: pattern) ↔ ∃ word ∈ globLetter c, ∃ rest ∈ globLanguage pattern, word ++ rest = text := by
  rw [globLanguage, List.map_cons, List.prod_cons, Language.mem_mul]
  rfl

/-- A star takes nothing, or one more character. -/
theorem mem_globLanguage_star {pattern text : List Char} :
    text ∈ globLanguage ('*' :: pattern) ↔
      text ∈ globLanguage pattern ∨ ∃ c rest, text = c :: rest ∧ rest ∈ globLanguage ('*' :: pattern) := by
  simp only [mem_globLanguage_cons, globLetter, if_true]
  constructor
  · rintro ⟨word, -, rest, hrest, rfl⟩
    cases word with
    | nil => exact .inl hrest
    | cons c word => exact .inr ⟨c, word ++ rest, rfl, word, Wildcard.mem_top word, rest, hrest, rfl⟩
  · rintro (hmem | ⟨c, rest', rfl, word, -, rest, hrest, rfl⟩)
    · exact ⟨[], Wildcard.mem_top [], text, hmem, rfl⟩
    · exact ⟨c :: word, Wildcard.mem_top _, rest, hrest, rfl⟩

theorem mem_globLanguage_one {pattern text : List Char} :
    text ∈ globLanguage ('?' :: pattern) ↔ ∃ c rest, text = c :: rest ∧ rest ∈ globLanguage pattern := by
  rw [mem_globLanguage_cons]
  constructor
  · rintro ⟨word, hword, rest, hrest, rfl⟩
    obtain ⟨c, rfl⟩ := List.length_eq_one_iff.mp (mem_anyOne.mp hword)
    exact ⟨c, rest, rfl, hrest⟩
  · rintro ⟨c, rest, rfl, hrest⟩
    exact ⟨[c], mem_anyOne.mpr rfl, rest, hrest, rfl⟩

theorem mem_globLanguage_char {c : Char} (hstar : c ≠ '*') (hone : c ≠ '?') {pattern text : List Char} :
    text ∈ globLanguage (c :: pattern) ↔ ∃ rest, text = c :: rest ∧ rest ∈ globLanguage pattern := by
  rw [mem_globLanguage_cons, globLetter, if_neg hstar, if_neg hone]
  constructor
  · rintro ⟨word, hword, rest, hrest, rfl⟩
    rw [Wildcard.mem_singleton.mp hword]
    exact ⟨rest, rfl, hrest⟩
  · rintro ⟨rest, rfl, hrest⟩
    exact ⟨[c], Wildcard.mem_singleton.mpr rfl, rest, hrest, rfl⟩

/-- The match decides the language (by the recursion of the match). -/
theorem globMatchInner_iff (pat hay : List Char) : globMatchInner pat hay = true ↔ hay ∈ globLanguage pat := by
  induction pat, hay using globMatchInner.induct with
  | case1 => simp [globMatchInner, mem_globLanguage_nil]
  | case2 => simp [globMatchInner, mem_globLanguage_nil]
  | case3 pat ih =>
    rw [globMatchInner, if_pos rfl, ih, mem_globLanguage_star, or_iff_left (by rintro ⟨_, _, h, -⟩; cases h)]
  | case4 p pat hp =>
    rw [globMatchInner, if_neg hp]
    by_cases hone : p = '?'
    · rw [hone, mem_globLanguage_one]
      simp
    · rw [mem_globLanguage_char hp hone]
      simp
  | case5 pat h hay ih ih' =>
    rw [globMatchInner, if_pos rfl, Bool.or_eq_true, ih, ih', @mem_globLanguage_star pat (h :: hay)]
    refine or_congr_right ⟨fun hmem => ⟨h, hay, rfl, hmem⟩, ?_⟩
    rintro ⟨c, rest, heq, hmem⟩
    rwa [(List.cons.inj heq).2]
  | case6 pat h hay hstar ih =>
    rw [globMatchInner, if_neg hstar, if_pos rfl, ih, mem_globLanguage_one]
    simp
  | case7 p pat h hay hp hone ih =>
    rw [globMatchInner, if_neg hp, if_neg hone, Bool.and_eq_true, ih, mem_globLanguage_char hp hone, decide_eq_true_iff]
    constructor
    · rintro ⟨rfl, hmem⟩
      exact ⟨hay, rfl, hmem⟩
    · rintro ⟨rest, heq, hmem⟩
      obtain ⟨rfl, rfl⟩ := List.cons.inj heq
      exact ⟨rfl, hmem⟩

/-- Every text is one of those it stands for as a pattern. -/
theorem mem_globLanguage_self (text : List Char) : text ∈ globLanguage text := by
  induction text with
  | nil => exact mem_globLanguage_nil.mpr rfl
  | cons c text ih =>
    refine mem_globLanguage_cons.mpr ⟨[c], ?_, text, ih, rfl⟩
    unfold globLetter
    split
    · exact Wildcard.mem_top _
    · split
      · exact mem_anyOne.mpr List.length_singleton
      · exact Wildcard.mem_singleton.mpr rfl

/-- A pattern that is not negated is for a host and a port when it is their bracketed form, or when the port is 22 and the host is a
text of the pattern. -/
theorem patternMatchesHost_iff (pat host : String) (port : UInt16) :
    patternMatchesHost host port pat = true ↔ pat.toList.head? ≠ some '!' ∧
      (pat = "[" ++ host ++ "]:" ++ toString port.toNat ∨ port = 22 ∧ host.toList ∈ globLanguage pat.toList) := by
  unfold patternMatchesHost globMatches
  by_cases hneg : pat.toList.head? = some '!'
  · simp [hneg]
  · simp only [hneg, if_false, Bool.or_eq_true, Bool.and_eq_true, decide_eq_true_eq, globMatchInner_iff, ne_eq, not_false_eq_true,
      true_and]
    constructor
    · rintro ((⟨rfl, hport⟩ | hbracketed) | ⟨hmem, hport⟩)
      · exact .inr ⟨hport, mem_globLanguage_self _⟩
      · exact .inl hbracketed
      · exact .inr ⟨hport, hmem⟩
    · rintro (hbracketed | ⟨hport, hmem⟩)
      · exact .inl (.inr hbracketed)
      · exact .inr ⟨hmem, hport⟩

/-- An entry is for a host and a port when one of its patterns, not a negated one, is their bracketed form, or when the port is 22
and the host is a text of the pattern. Hashed entries are for nobody. -/
theorem entryMatchesHost_iff (patterns : HostPatterns) (host : String) (port : UInt16) :
    entryMatchesHost patterns host port = true ↔
      ∃ pats, patterns = .patterns pats ∧ ∃ pat ∈ pats, pat.toList.head? ≠ some '!' ∧
        (pat = "[" ++ host ++ "]:" ++ toString port.toNat ∨ port = 22 ∧ host.toList ∈ globLanguage pat.toList) := by
  cases patterns with
  | hashedName => simp [entryMatchesHost]
  | patterns pats =>
    simp only [entryMatchesHost, List.any_eq_true, HostPatterns.patterns.injEq, exists_eq_left']
    exact exists_congr fun pat => and_congr_right fun _ => patternMatchesHost_iff pat host port

/-! ## Lines of the file -/

/-- Every line of a text is ended. -/
def Terminated (content : List Char) : Prop := content = [] ∨ content.getLast? = some '\n'

theorem Terminated.append {content rest : List Char} (h : Terminated content) (hrest : Terminated rest) :
    Terminated (content ++ rest) := by
  rcases hrest with rfl | hrest
  · rwa [List.append_nil]
  · exact .inr (by rw [List.getLast?_append, hrest, Option.some_or])

/-- Reading starts again behind the end of a line (induction on what comes before it). -/
theorem linesFrom_append (line content rest : List Char) :
    linesFrom line (content ++ '\n' :: rest) = linesFrom line (content ++ ['\n']) ++ lines rest := by
  induction content generalizing line with
  | nil => simp [linesFrom, lines]
  | cons c content ih =>
    by_cases hc : c = '\n'
    · simp [linesFrom, hc, ih]
    · simp [linesFrom, hc, ih]

theorem lines_append {content : List Char} (h : Terminated content) (rest : List Char) :
    lines (content ++ rest) = lines content ++ lines rest := by
  rcases h with rfl | hlast
  · simp [lines, linesFrom]
  · obtain ⟨init, rfl⟩ := List.getLast?_eq_some_iff.mp hlast
    rw [List.append_assoc, List.singleton_append]
    exact linesFrom_append [] init rest

/-- One line and its end. -/
theorem linesFrom_line {line text : List Char} (h : '\n' ∉ text) :
    linesFrom line (text ++ ['\n']) =
      [(if (text.reverse ++ line).head? = some '\r' then (text.reverse ++ line).tail else text.reverse ++ line).reverse] := by
  induction text generalizing line with
  | nil =>
    simp only [List.nil_append, linesFrom, if_true]
    rfl
  | cons c text ih =>
    obtain ⟨hc, htext⟩ := not_or.mp (List.mem_cons.not.mp h)
    rw [List.cons_append, linesFrom, if_neg (Ne.symm hc), ih htext, List.reverse_cons, List.append_assoc, List.singleton_append]

theorem lines_line {text : List Char} (h : '\n' ∉ text) (hr : '\r' ∉ text) : lines (text ++ ['\n']) = [text] := by
  have hhead : text.reverse.head? ≠ some '\r' := fun hhead => hr (List.mem_reverse.mp (List.mem_of_head? hhead))
  rw [lines, linesFrom_line h, List.append_nil, if_neg hhead, List.reverse_reverse]

/-! ## The entry of a host -/

variable {κ : Type} (K : SshKeys κ)

theorem knownHosts_append {content : List Char} (h : Terminated content) (rest : List Char) :
    knownHosts K (content ++ rest) = knownHosts K content ++ knownHosts K rest := by
  rw [knownHosts, lines_append h, List.filterMap_append, List.filterMap_append, knownHosts, knownHosts]

/-- The fingerprint of the first entry that is for a host and a port. -/
def pin (host : String) (port : UInt16) (content : List Char) : Option String :=
  ((knownHosts K content).find? fun entry => entryMatchesHost entry.hostPatterns host port).map fun entry =>
    K.fingerprint entry.publicKey

theorem pin_nil (host : String) (port : UInt16) : pin K host port [] = none := rfl

/-- What is written behind whole lines is read after them. -/
theorem pin_append {content : List Char} (h : Terminated content) (host : String) (port : UInt16) (rest : List Char) :
    pin K host port (content ++ rest) = (pin K host port content).or (pin K host port rest) := by
  rw [pin, knownHosts_append K h, List.find?_append, Option.map_or]
  rfl

/-- A verdict on a text with an entry for the host is about that entry. -/
theorem findAndVerifyEntry_ok {host : String} {port : UInt16} {content : List Char} {fp : String} {b : Bool} :
    findAndVerifyEntry K host port content fp = .ok b ↔ b = true ∧ pin K host port content = some fp := by
  unfold findAndVerifyEntry pin
  cases (knownHosts K content).find? fun entry => entryMatchesHost entry.hostPatterns host port with
  | none => simp
  | some entry =>
    by_cases hfp : K.fingerprint entry.publicKey = fp
    · simp [hfp, eq_comm]
    · simp [hfp]

theorem pin_eq_none {host : String} {port : UInt16} {content : List Char} :
    pin K host port content = none ↔
      ((knownHosts K content).any fun entry => entryMatchesHost entry.hostPatterns host port) = false := by
  simp [pin]

/-! ## Written entries -/

/-- A pattern that is read as it is written. -/
def PlainPattern (pattern : String) : Prop :=
  pattern.toList ≠ [] ∧ (pattern.toList.all fun c => !c.isWhitespace && c != ',' && c != '#') = true ∧
    pattern.toList.head? ≠ some '@' ∧ pattern.toList.head? ≠ some '|'

/-- A host name or an address: no wildcard, no bracket, no mark of another kind of pattern. -/
def PlainHost (host : String) : Prop :=
  PlainPattern host ∧ (host.toList.all fun c => c != '*' && c != '?' && c != '[' && c != ']') = true ∧ host.toList.head? ≠ some '!'

/-- The library reads the line of a plain pattern and a key as the entry that it is; the text of a key is on one line. -/
structure SshKeys.Lawful : Prop where
  oneLine : ∀ key, '\n' ∉ (K.toOpenssh key).toList ∧ '\r' ∉ (K.toOpenssh key).toList
  readLine : ∀ pattern key, PlainPattern pattern →
    K.readLine (pattern ++ " " ++ K.toOpenssh key).toList = some (.ok ⟨.patterns [pattern], key⟩)

section

variable {host host' : String} {port port' : UInt16}

theorem PlainHost.not_mem (h : PlainHost host) : '*' ∉ host.toList ∧ '?' ∉ host.toList ∧ '[' ∉ host.toList ∧ ']' ∉ host.toList := by
  have hall := List.all_eq_true.mp h.2.1
  simp only [Bool.and_eq_true, bne_iff_ne, ne_eq] at hall
  exact ⟨fun hc => (hall _ hc).1.1.1 rfl, fun hc => (hall _ hc).1.1.2 rfl, fun hc => (hall _ hc).1.2 rfl, fun hc => (hall _ hc).2 rfl⟩

theorem PlainPattern.not_mem {pattern : String} (h : PlainPattern pattern) : '\n' ∉ pattern.toList ∧ '\r' ∉ pattern.toList := by
  have hall := List.all_eq_true.mp h.2.1
  constructor
  · intro hc
    exact absurd (hall _ hc) (by decide)
  · intro hc
    exact absurd (hall _ hc) (by decide)

theorem toList_bracketed (host : String) (n : Nat) :
    ("[" ++ host ++ "]:" ++ toString n).toList = '[' :: (host.toList ++ ']' :: ':' :: Nat.toDigits 10 n) := by
  have hopen : "[".toList = ['['] := by decide
  have hclose : "]:".toList = [']', ':'] := by decide
  simp [String.toList_append, hopen, hclose]

theorem toDigits_inj {n m : Nat} (h : Nat.toDigits 10 n = Nat.toDigits 10 m) : n = m := by
  have hread := Decimal.readNat_toDigits n
  rw [h, Decimal.readNat_toDigits] at hread
  exact (Option.some.inj hread).symm

/-- The bracketed form tells the host and the port. -/
theorem bracketed_inj (h : ']' ∉ host.toList) :
    "[" ++ host ++ "]:" ++ toString port.toNat = "[" ++ host' ++ "]:" ++ toString port'.toNat ↔ host = host' ∧ port = port' := by
  constructor
  · intro heq
    have hlist := congrArg String.toList heq
    rw [toList_bracketed, toList_bracketed] at hlist
    have hdigits : ']' ∉ ':' :: Nat.toDigits 10 port.toNat := by
      intro hmem
      rcases List.mem_cons.mp hmem with hc | hmem
      · cases hc
      · exact absurd (Nat.isDigit_of_mem_toDigits (by decide) (by decide) hmem) (by decide)
    obtain ⟨hhost, -, hrest⟩ := (List.append_cons_inj_of_notMem h hdigits).mp (List.cons.inj hlist).2
    exact ⟨String.toList_injective hhost, UInt16.toNat_inj.mp (toDigits_inj (List.cons.inj hrest).2)⟩
  · rintro ⟨rfl, rfl⟩
    rfl

/-- Without wildcards a pattern stands for itself (induction on the pattern). -/
theorem mem_globLanguage_literal {pattern text : List Char} (hstar : '*' ∉ pattern) (hone : '?' ∉ pattern) :
    text ∈ globLanguage pattern ↔ text = pattern := by
  induction pattern generalizing text with
  | nil => exact mem_globLanguage_nil
  | cons c pattern ih =>
    obtain ⟨hc, hrest⟩ := not_or.mp (List.mem_cons.not.mp hstar)
    obtain ⟨hc', hrest'⟩ := not_or.mp (List.mem_cons.not.mp hone)
    simp only [mem_globLanguage_char (Ne.symm hc) (Ne.symm hc'), ih hrest hrest', exists_eq_right]

theorem not_mem_toDigits {c : Char} (h : c.isDigit = false) (n : Nat) : c ∉ Nat.toDigits 10 n := fun hmem => by
  rw [Nat.isDigit_of_mem_toDigits (by decide) (by decide) hmem] at h
  cases h

/-- The pattern that is written for a host and a port is for no other host or port. -/
theorem matches_written (h : PlainHost host) (h' : PlainHost host') :
    entryMatchesHost (.patterns [knownHostsHostPattern host' port']) host port = true ↔ host = host' ∧ port = port' := by
  obtain ⟨hstar, hone, hopen, hclose⟩ := h'.not_mem
  simp only [entryMatchesHost, List.any_cons, List.any_nil, Bool.or_false, patternMatchesHost_iff]
  unfold knownHostsHostPattern
  by_cases hport : port' = 22
  · simp only [hport, if_true, mem_globLanguage_literal hstar hone]
    have hnot : host' ≠ "[" ++ host ++ "]:" ++ toString port.toNat := by
      rintro rfl
      exact hopen (by rw [toList_bracketed]; exact List.mem_cons_self)
    constructor
    · rintro ⟨-, heq | ⟨hp, heq⟩⟩
      · exact absurd heq hnot
      · exact ⟨String.toList_injective heq, hp⟩
    · rintro ⟨rfl, hp⟩
      exact ⟨h'.2.2, .inr ⟨hp, rfl⟩⟩
  · simp only [hport, if_false, bracketed_inj hclose, toList_bracketed]
    have hstar' : '*' ∉ '[' :: (host'.toList ++ ']' :: ':' :: Nat.toDigits 10 port'.toNat) := by
      simp [hstar, not_mem_toDigits]
    have hone' : '?' ∉ '[' :: (host'.toList ++ ']' :: ':' :: Nat.toDigits 10 port'.toNat) := by
      simp [hone, not_mem_toDigits]
    rw [mem_globLanguage_literal hstar' hone']
    constructor
    · rintro ⟨-, ⟨rfl, rfl⟩ | ⟨-, heq⟩⟩
      · exact ⟨rfl, rfl⟩
      · exact absurd (heq ▸ List.mem_cons_self) h.not_mem.2.2.1
    · rintro ⟨rfl, rfl⟩
      exact ⟨by simp, .inl ⟨rfl, rfl⟩⟩

theorem plainPattern_written (h : PlainHost host) (port : UInt16) : PlainPattern (knownHostsHostPattern host port) := by
  unfold knownHostsHostPattern
  split
  · exact h.1
  · refine ⟨by simp, ?_, by simp, by simp⟩
    have hall := h.1.2.1
    have hdigits : ((Nat.toDigits 10 port.toNat).all fun c => !c.isWhitespace && c != ',' && c != '#') = true := by
      refine List.all_eq_true.mpr fun c hc => ?_
      have hne : ∀ d : Char, d.isDigit = false → c ≠ d := by
        rintro d hd rfl
        exact not_mem_toDigits hd _ hc
      simp [Char.isWhitespace, hne ' ' (by decide), hne '\t' (by decide), hne '\r' (by decide), hne '\n' (by decide),
        hne ',' (by decide), hne '#' (by decide)]
    rw [toList_bracketed, List.all_cons, List.all_append, hall, List.all_cons, List.all_cons, hdigits]
    decide

variable {K} (hK : K.Lawful)
include hK

/-- A written entry is for its own host and port only. -/
theorem pin_entryLine (h : PlainHost host) (h' : PlainHost host') (key : κ) :
    pin K host port (entryLine K host' port' key) = if host = host' ∧ port = port' then some (K.fingerprint key) else none := by
  have hplain := plainPattern_written h' port'
  obtain ⟨hkey, hkey'⟩ := hK.oneLine key
  have hspace : " ".toList = [' '] := by decide
  have hnewline : "\n".toList = ['\n'] := by decide
  have hline : '\n' ∉ (knownHostsHostPattern host' port' ++ " " ++ K.toOpenssh key).toList := by
    simp [String.toList_append, hspace, hplain.not_mem, hkey]
  have hline' : '\r' ∉ (knownHostsHostPattern host' port' ++ " " ++ K.toOpenssh key).toList := by
    simp [String.toList_append, hspace, hplain.not_mem, hkey']
  have hentries : knownHosts K (entryLine K host' port' key) = [⟨.patterns [knownHostsHostPattern host' port'], key⟩] := by
    rw [knownHosts, entryLine, String.toList_append, hnewline, lines_line hline hline', List.filterMap_cons, hK.readLine _ _ hplain]
    rfl
  rw [pin, hentries, List.find?_singleton]
  by_cases heq : host = host' ∧ port = port'
  · rw [if_pos heq, (matches_written h h').mpr heq]
    rfl
  · rw [if_neg heq, if_neg (fun hmatch => heq ((matches_written h h').mp hmatch))]
    rfl

end

/-! ## Runs -/

section Runs

/-- A check that has read the file accepts the key of the host's first entry only. -/
theorem afterRead_accepts {file : File} {h : ClientHandler κ} {r : Read} {b : Bool} (hr : Reads file r)
    (haccept : h.afterRead K r = some (.ok b)) : b = true ∧ pin K h.host h.port (file.getD []) = some (K.fingerprint h.serverKey) := by
  cases hr with
  | notFound =>
    simp only [ClientHandler.afterRead] at haccept
    split at haccept <;> simp at haccept
  | failed reason => simp [ClientHandler.afterRead] at haccept
  | content cs =>
    simp only [ClientHandler.afterRead] at haccept
    split at haccept
    · exact (findAndVerifyEntry_ok K).mp (Option.some.inj haccept)
    · split at haccept
      · exact (findAndVerifyEntry_ok K).mp (Option.some.inj haccept)
      · cases haccept

/-- Only a host without an entry gets one. -/
theorem afterRead_absent {file : File} {h : ClientHandler κ} {r : Read} (hr : Reads file r) (habsent : h.afterRead K r = none) :
    h.policy ≠ .verify ∧ pin K h.host h.port (file.getD []) = none := by
  cases hr with
  | notFound =>
    refine ⟨fun hpolicy => ?_, rfl⟩
    simp [ClientHandler.afterRead, hpolicy] at habsent
  | failed reason => simp [ClientHandler.afterRead] at habsent
  | content cs =>
    simp only [ClientHandler.afterRead] at habsent
    split at habsent
    · cases habsent
    · rename_i hpolicy
      split at habsent
      · cases habsent
      · rename_i hnone
        exact ⟨hpolicy, (pin_eq_none K).mpr (Bool.eq_false_of_not_eq_true hnone)⟩

/-- What a step adds to the file. -/
def CheckLabel.added : CheckLabel κ → List Char
  | .appended h a => a.written (entryLine K h.host h.port h.serverKey)
  | _ => []

/-- The key that a step records for a host and a port. -/
def CheckLabel.recorded (host : String) (port : UInt16) : CheckLabel κ → Option String
  | .appended h a =>
    if a.written (entryLine K h.host h.port h.serverKey) ≠ [] ∧ host = h.host ∧ port = h.port then some (K.fingerprint h.serverKey)
    else none
  | _ => none

/-- The keys recorded for a host and a port, in order. -/
def recorded (host : String) (port : UInt16) (trace : List (File × CheckLabel κ)) : List String :=
  trace.filterMap fun e => e.2.recorded K host port

/-- A connection to a plain host that appends a whole line or nothing. -/
def CheckLabel.Orderly (l : CheckLabel κ) : Prop :=
  PlainHost l.handler.host ∧ (l.added K = entryLine K l.handler.host l.handler.port l.handler.serverKey ∨ l.added K = [])

theorem terminated_entryLine (host : String) (port : UInt16) (key : κ) : Terminated (entryLine K host port key) := by
  have hnewline : "\n".toList = ['\n'] := by decide
  exact .inr (by rw [entryLine, String.toList_append, hnewline, List.getLast?_append, List.getLast?_singleton, Option.some_or])

/-- What a step does to the file. -/
theorem step_shared {c c' : Config File (ClientHandler κ × CheckPoint)} {l : CheckLabel κ} (hs : Step (checks K) c l c') :
    c'.shared.getD [] = c.shared.getD [] ++ l.added K := by
  cases hs with
  | reset hr =>
    obtain ⟨h, rfl, rfl⟩ := hr
    exact (List.append_nil _).symm
  | task before after ht =>
    cases ht with
    | acceptAny => exact (List.append_nil _).symm
    | read => exact (List.append_nil _).symm
    | absent => exact (List.append_nil _).symm
    | append a => rfl
    | notOpened error => exact (List.append_nil _).symm

/-- What a step records is what it adds for the host and the port. -/
theorem pin_added (hK : K.Lawful) {l : CheckLabel κ} (hl : l.Orderly K) {host : String} (hhost : PlainHost host) (port : UInt16) :
    Terminated (l.added K) ∧ pin K host port (l.added K) = l.recorded K host port := by
  obtain ⟨hplain, hline | hnone⟩ := hl
  · refine ⟨hline ▸ terminated_entryLine K _ _ _, ?_⟩
    rw [hline, pin_entryLine hK hhost hplain]
    cases l with
    | appended h a =>
      have hne : a.written (entryLine K h.host h.port h.serverKey) ≠ [] := by
        intro hnil
        have hline' : a.written (entryLine K h.host h.port h.serverKey) = entryLine K h.host h.port h.serverKey := hline
        rw [hnil] at hline'
        simpa [entryLine, String.toList_append] using congrArg List.length hline'
      by_cases heq : host = h.host ∧ port = h.port
      · simp [CheckLabel.recorded, CheckLabel.handler, hne, heq]
      · exact (if_neg heq).trans (if_neg fun hrec => heq hrec.2).symm
    | _ => simpa [CheckLabel.added, entryLine, String.toList_append] using congrArg List.length hline
  · refine ⟨.inl hnone, ?_⟩
    rw [hnone, pin_nil]
    cases l with
    | appended h a =>
      have hnil : a.written (entryLine K h.host h.port h.serverKey) = [] := hnone
      simp [CheckLabel.recorded, hnil]
    | _ => rfl

/-- After a run, a host has the entry it had, or the first one recorded for it (induction on the run). -/
theorem pin_run (hK : K.Lawful) {c c' : Config File (ClientHandler κ × CheckPoint)} {trace : List (File × CheckLabel κ)}
    (hrun : Run (checks K) c trace c') (hterm : Terminated (c.shared.getD [])) (hord : ∀ e ∈ trace, e.2.Orderly K) :
    Terminated (c'.shared.getD []) ∧ ∀ host port, PlainHost host →
      pin K host port (c'.shared.getD []) = (pin K host port (c.shared.getD [])).or (recorded K host port trace).head? := by
  induction hrun with
  | nil => exact ⟨hterm, fun host port _ => (Option.or_none).symm⟩
  | @snoc c₁ c₂ l trace _ hs ih =>
    obtain ⟨hterm₁, hpin₁⟩ := ih (fun e he => hord e (by simp [he]))
    have hl : l.Orderly K := hord (c₁.shared, l) (by simp)
    rw [step_shared K hs]
    refine ⟨hterm₁.append (pin_added K hK hl hl.1 0).1, fun host port hhost => ?_⟩
    have hlast : (recorded K host port [(c₁.shared, l)]).head? = l.recorded K host port := by
      cases hrec : l.recorded K host port <;> simp [recorded, hrec]
    have hsplit : (recorded K host port (trace ++ [(c₁.shared, l)])).head? =
        (recorded K host port trace).head?.or (l.recorded K host port) := by
      rw [← hlast, recorded, List.filterMap_append, List.head?_append]
      rfl
    rw [pin_append K hterm₁, hpin₁ host port hhost, (pin_added K hK hl hhost port).2, hsplit, Option.or_assoc]

/-- A check that accepts a key has read it in the host's entry. -/
theorem step_accepts {c c' : Config File (ClientHandler κ × CheckPoint)} {h : ClientHandler κ} {b : Bool}
    (hs : Step (checks K) c (.result h (.ok b)) c') (hpolicy : h.policy ≠ .acceptAny) :
    b = true ∧ pin K h.host h.port (c.shared.getD []) = some (K.fingerprint h.serverKey) := by
  cases hs with
  | reset hr =>
    obtain ⟨_, hlabel, -⟩ := hr
    cases hlabel
  | task before after ht =>
    cases ht with
    | acceptAny hp => exact absurd hp hpolicy
    | read _ hr hresult => exact afterRead_accepts K hr hresult

/-- A check goes on to record a key only for a host without an entry. -/
theorem step_absent {c c' : Config File (ClientHandler κ × CheckPoint)} {h : ClientHandler κ}
    (hs : Step (checks K) c (.absent h) c') : h.policy = .trustOnFirstUse ∧ pin K h.host h.port (c.shared.getD []) = none := by
  cases hs with
  | reset hr =>
    obtain ⟨_, hlabel, -⟩ := hr
    cases hlabel
  | task before after ht =>
    cases ht with
    | absent hp hr hresult =>
      obtain ⟨hverify, hnone⟩ := afterRead_absent K hr hresult
      refine ⟨?_, hnone⟩
      cases hpolicy : h.policy with
      | verify => exact absurd hpolicy hverify
      | trustOnFirstUse => rfl
      | acceptAny => exact absurd hpolicy hp

end Runs

/-! ## A host that is connected to twice -/

section Twice

/-- Texts of two keys. -/
def sampleKeyText (key : Bool) : String := if key then "ssh-ed25519 AAAAC3Nza" else "ssh-ed25519 AAAAE2Vjz"

/-- A reader of lines with two keys: patterns up to the first space, separated by commas, then the text of the key. -/
def sampleKeys : SshKeys Bool where
  fingerprint key := if key then "SHA256:47DE" else "SHA256:Z3Vk"
  toOpenssh := sampleKeyText
  readLine line :=
    let pats := (line.takeWhile (· != ' ')).splitOn ','
    let text := line.dropWhile (· != ' ')
    some (if text = ' ' :: (sampleKeyText true).toList then .ok ⟨.patterns (pats.map String.ofList), true⟩
      else if text = ' ' :: (sampleKeyText false).toList then .ok ⟨.patterns (pats.map String.ofList), false⟩
      else .error ())

theorem sampleKeys_lawful : sampleKeys.Lawful where
  oneLine key := by cases key <;> decide
  readLine pattern key hpattern := by
    have hspace : " ".toList = [' '] := by decide
    have hall := List.all_eq_true.mp hpattern.2.1
    have hkeep : ∀ c ∈ pattern.toList, (c != ' ') = true := by
      intro c hc
      rw [bne_iff_ne]
      rintro rfl
      exact absurd (hall _ hc) (by decide)
    have hcomma : ',' ∉ pattern.toList := fun hc => absurd (hall _ hc) (by decide)
    have hline : (pattern ++ " " ++ sampleKeys.toOpenssh key).toList = pattern.toList ++ ' ' :: (sampleKeyText key).toList := by
      simp [String.toList_append, hspace, sampleKeys]
    have htake : (pattern.toList ++ ' ' :: (sampleKeyText key).toList).takeWhile (· != ' ') = pattern.toList := by
      rw [List.takeWhile_append_of_pos hkeep]
      simp
    have hdrop : (pattern.toList ++ ' ' :: (sampleKeyText key).toList).dropWhile (· != ' ') = ' ' :: (sampleKeyText key).toList := by
      rw [List.dropWhile_append_of_pos hkeep]
      simp
    have hpats : (pattern.toList.splitOn ',').map String.ofList = [pattern] := by
      rw [List.splitOn_eq_singleton hcomma, List.map_singleton, String.ofList_toList]
    rw [hline]
    simp only [sampleKeys, htake, hdrop, hpats]
    cases key with
    | true => rw [if_pos rfl]
    | false => rw [if_neg (by decide), if_pos rfl]

/-- A connection that trusts on first use. -/
def firstUse : ClientHandler Bool := ⟨"db-01", 2222, "/home/ops/.ssh/known_hosts", .trustOnFirstUse, true⟩

def firstLine : List Char := entryLine sampleKeys "db-01" 2222 true

end Twice

end Tumult.Ssh
