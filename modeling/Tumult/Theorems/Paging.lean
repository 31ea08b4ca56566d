import Tumult.Lib.Keyed
import Tumult.Mcp.Resources

/-!
# Paging through resources

The coder and the decoder of cursors move bits through a word. Six of them at a time are the sextets of the bytes, so a cursor that
is decoded is the encoding of what is read from it. Each page's cursor is then the offset at which the page ends, and the pages
together are the sorted resources.
-/

namespace Tumult.Resources

open Base64

/-! ## Bytes of texts -/

theorem fromUTF8?_bytesOf (s : String) : String.fromUTF8? ⟨(bytesOf s).toArray⟩ = some s := by
  have hbytes : (⟨(bytesOf s).toArray⟩ : ByteArray) = s.toByteArray := by simp [bytesOf]
  rw [hbytes, String.fromUTF8?, dif_pos s.isValidUTF8]
  rfl

theorem bytesOf_of_fromUTF8? {bytes : List UInt8} {s : String} (h : String.fromUTF8? ⟨bytes.toArray⟩ = some s) :
    bytesOf s = bytes := by
  unfold String.fromUTF8? at h
  split at h
  · cases h
    rfl
  · cases h

theorem bytesOf_injective {s t : String} (h : bytesOf s = bytesOf t) : s = t := by
  have hs := fromUTF8?_bytesOf s
  rw [h, fromUTF8?_bytesOf] at hs
  exact (Option.some.inj hs).symm

theorem bytesOf_ascii {cs : List Char} (h : ∀ c ∈ cs, c.val ≤ 127) :
    bytesOf (String.ofList cs) = cs.map fun c => c.val.toUInt8 := by
  rw [bytesOf, String.toByteArray_ofList, List.utf8Encode, List.toList_data_toByteArray]
  induction cs with
  | nil => rfl
  | cons c cs ih =>
    have hsize : c.utf8Size = 1 := if_pos (h c List.mem_cons_self)
    rw [List.flatMap_cons, String.utf8EncodeChar_eq_singleton hsize, ih fun d hd => h d (List.mem_cons_of_mem _ hd)]
    rfl

/-! ## The alphabet -/

def symbolByte (v : Nat) : UInt8 := (symbol v).val.toUInt8

theorem symbol_ascii {v : Nat} (hv : v < 64) : (symbol v).val ≤ 127 ∧ symbolByte v ≠ 61 := by
  have hall : ∀ v < 64, (symbol v).val ≤ 127 ∧ symbolByte v ≠ 61 := by decide +kernel
  exact hall v hv

theorem findIdx?_alphabet {byte : UInt8} {v : Nat} :
    BASE64_ALPHABET.findIdx? (· == byte) = some v ↔ v < 64 ∧ byte = symbolByte v := by
  constructor
  · intro h
    obtain ⟨hv, hbyte, -⟩ := List.findIdx?_eq_some_iff_getElem.mp h
    refine ⟨hv, ?_⟩
    rw [← eq_of_beq hbyte]
    have hlength : v < alphabet.length := hv
    have hsymbol : alphabet.getD v 'A' = alphabet[v] := List.getD_eq_getElem _ _ hlength
    rw [symbolByte, symbol, hsymbol]
    exact List.getElem_map _
  · rintro ⟨hv, rfl⟩
    have hall : ∀ v < 64, BASE64_ALPHABET.findIdx? (· == symbolByte v) = some v := by decide +kernel
    exact hall v hv

/-! ## The decoder -/

/-- One more sextet. -/
def Decoding.push (d : Decoding) (v : Nat) : Decoding :=
  if 2 ≤ d.bitCount then
    ⟨(d.bits * 64 + v) % 2 ^ (d.bitCount - 2), d.bitCount - 2,
      d.digits ++ [.ofNat ((d.bits * 64 + v) / 2 ^ (d.bitCount - 2))]⟩
  else ⟨d.bits * 64 + v, d.bitCount + 6, d.digits⟩

/-- The bits are as many as are counted, fewer than those of a byte. -/
def Decoding.Fits (d : Decoding) : Prop := d.bits < 2 ^ d.bitCount ∧ d.bitCount < 8

theorem Decoding.Fits.push {d : Decoding} (h : d.Fits) {v : Nat} (hv : v < 64) : (d.push v).Fits := by
  obtain ⟨hbits, hcount⟩ := h
  unfold Decoding.push
  split
  · exact ⟨Nat.mod_lt _ (Nat.two_pow_pos _), by dsimp only; omega⟩
  · refine ⟨?_, by dsimp only; omega⟩
    dsimp only
    rw [pow_add]
    omega

/-- A byte of the alphabet is its sextet, and no other byte is read. -/
theorem decodeByte_eq_some {d d' : Decoding} {byte : UInt8} (h : d.Fits) :
    decodeByte d byte = some d' ↔ ∃ v < 64, byte = symbolByte v ∧ d' = d.push v := by
  obtain ⟨hbits, hcount⟩ := h
  have hstep : ∀ v < 64, decodeByte d (symbolByte v) = some (d.push v) := by
    intro v hv
    have hor : d.bits <<< 6 ||| v = d.bits * 64 + v := by
      rw [← Nat.shiftLeft_add_eq_or_of_lt (b := v) hv, Nat.shiftLeft_eq]
    rw [decodeByte, findIdx?_alphabet.mpr ⟨hv, rfl⟩, Option.bind_eq_bind, Option.bind_some, hor, Decoding.push]
    by_cases hfull : 2 ≤ d.bitCount
    · obtain ⟨k, hk⟩ := Nat.exists_eq_add_of_le' hfull
      have hlt : (d.bits * 64 + v) / 2 ^ k < 256 := by
        rw [Nat.div_lt_iff_lt_mul (Nat.two_pow_pos k)]
        rw [hk, pow_add] at hbits
        omega
      have hbyte : (d.bits * 64 + v) >>> k &&& 0xFF = (d.bits * 64 + v) / 2 ^ k := by
        rw [Nat.shiftRight_eq_div_pow, Nat.and_two_pow_sub_one_eq_mod _ 8, Nat.mod_eq_of_lt hlt]
      have hrest : (d.bits * 64 + v) &&& (1 <<< k - 1) = (d.bits * 64 + v) % 2 ^ k := by
        rw [Nat.one_shiftLeft, Nat.and_two_pow_sub_one_eq_mod]
      have hcounts : d.bitCount + 6 - 8 = k ∧ d.bitCount - 2 = k := by omega
      rw [if_pos hfull, if_pos (by omega), hcounts.1, hcounts.2]
      dsimp only
      rw [hbyte, hrest, u8TryFrom, if_pos hlt]
      rfl
    · rw [if_neg hfull, if_neg (by omega)]
      rfl
  constructor
  · intro hread
    cases hvalue : BASE64_ALPHABET.findIdx? (· == byte) with
    | none => simp [decodeByte, hvalue] at hread
    | some v =>
      obtain ⟨hv, rfl⟩ := findIdx?_alphabet.mp hvalue
      rw [hstep v hv] at hread
      exact ⟨v, hv, rfl, (Option.some.inj hread).symm⟩
  · rintro ⟨v, hv, rfl, rfl⟩
    exact hstep v hv

/-- The decoder reads sextets. -/
theorem foldlM_decodeByte {bytes : List UInt8} {d d' : Decoding} (h : d.Fits) :
    bytes.foldlM decodeByte d = some d' ↔
      ∃ vs : List Nat, (∀ v ∈ vs, v < 64) ∧ bytes = vs.map symbolByte ∧ d' = vs.foldl Decoding.push d := by
  induction bytes generalizing d with
  | nil =>
    constructor
    · intro hread
      exact ⟨[], nofun, rfl, (Option.some.inj hread).symm⟩
    · rintro ⟨vs, -, hvs, rfl⟩
      rw [List.map_eq_nil_iff.mp hvs.symm]
      rfl
  | cons byte bytes ih =>
    rw [List.foldlM_cons, Option.bind_eq_bind, Option.bind_eq_some_iff]
    constructor
    · rintro ⟨mid, hbyte, hrest⟩
      obtain ⟨v, hv, rfl, rfl⟩ := (decodeByte_eq_some h).mp hbyte
      obtain ⟨vs, hvs, rfl, rfl⟩ := (ih (h.push hv)).mp hrest
      exact ⟨v :: vs, List.forall_mem_cons.mpr ⟨hv, hvs⟩, rfl, rfl⟩
    · rintro ⟨vs, hlt, hvs, rfl⟩
      cases vs with
      | nil => cases hvs
      | cons v vs =>
        obtain ⟨rfl, rfl⟩ := List.cons.inj hvs
        obtain ⟨hv, hlt⟩ := List.forall_mem_cons.mp hlt
        exact ⟨d.push v, (decodeByte_eq_some h).mpr ⟨v, hv, rfl, rfl⟩, (ih (h.push hv)).mpr ⟨vs, hlt, rfl, rfl⟩⟩

/-! ## Sextets and bytes -/

theorem push_two (ds : List UInt8) (v w : Nat) :
    [v, w].foldl Decoding.push ⟨0, 0, ds⟩ = ⟨(v * 64 + w) % 16, 4, ds ++ [.ofNat ((v * 64 + w) / 16)]⟩ := by
  simp [Decoding.push]

theorem push_three (ds : List UInt8) (v w x : Nat) :
    [v, w, x].foldl Decoding.push ⟨0, 0, ds⟩ =
      ⟨((v * 64 + w) % 16 * 64 + x) % 4, 2,
        ds ++ [.ofNat ((v * 64 + w) / 16), .ofNat (((v * 64 + w) % 16 * 64 + x) / 4)]⟩ := by
  simp [Decoding.push]

theorem push_four (ds : List UInt8) (v w x y : Nat) (vs : List Nat) :
    (v :: w :: x :: y :: vs).foldl Decoding.push ⟨0, 0, ds⟩ =
      vs.foldl Decoding.push ⟨0, 0, ds ++ [.ofNat ((v * 64 + w) / 16), .ofNat (((v * 64 + w) % 16 * 64 + x) / 4),
        .ofNat (((v * 64 + w) % 16 * 64 + x) % 4 * 64 + y)]⟩ := by
  simp [Decoding.push, Nat.mod_one]

theorem ofNat_eq {n : Nat} (byte : UInt8) (h : n = byte.toNat) : UInt8.ofNat n = byte := h ▸ UInt8.ofNat_toNat

/-- From the sextets of bytes the decoder gets the bytes. -/
theorem push_sextets (bytes ds : List UInt8) :
    ∃ bitCount, (sextets bytes).foldl Decoding.push ⟨0, 0, ds⟩ = ⟨0, bitCount, ds ++ bytes⟩ := by
  induction bytes using sextets.induct generalizing ds with
  | case1 => exact ⟨0, by simp [sextets]⟩
  | case2 a =>
    refine ⟨4, ?_⟩
    have ha := a.toNat_lt
    rw [sextets, push_two, ofNat_eq a (by omega)]
    congr 1
    omega
  | case3 a b =>
    refine ⟨2, ?_⟩
    have ha := a.toNat_lt
    have hb := b.toNat_lt
    rw [sextets, push_three, ofNat_eq a (by omega), ofNat_eq b (by omega)]
    congr 1
    omega
  | case4 a b c rest ih =>
    have ha := a.toNat_lt
    have hb := b.toNat_lt
    have hc := c.toNat_lt
    obtain ⟨bitCount, hrest⟩ := ih (ds ++ [a, b, c])
    refine ⟨bitCount, ?_⟩
    rw [sextets, push_four, ofNat_eq a (by omega), ofNat_eq b (by omega), ofNat_eq c (by omega),
      hrest, List.append_assoc]
    rfl

/-- Sextets that leave no bits are those of the bytes that the decoder gets, unless there is one left over. -/
theorem sextets_of_push (ds : List UInt8) : ∀ vs : List Nat, (∀ v ∈ vs, v < 64) → vs.length % 4 ≠ 1 →
    (vs.foldl Decoding.push ⟨0, 0, ds⟩).bits = 0 →
      ∃ bytes, vs = sextets bytes ∧ (vs.foldl Decoding.push ⟨0, 0, ds⟩).digits = ds ++ bytes
  | [], _, _, _ => ⟨[], by simp [sextets]⟩
  | [v], _, hlength, _ => absurd rfl hlength
  | [v, w], hlt, _, hzero => by
    simp only [List.forall_mem_cons] at hlt
    rw [push_two] at hzero ⊢
    exact ⟨_, (sextets_pair hlt.1 hlt.2.1 hzero).symm, rfl⟩
  | [v, w, x], hlt, _, hzero => by
    simp only [List.forall_mem_cons] at hlt
    rw [push_three] at hzero ⊢
    exact ⟨_, (sextets_triple hlt.1 hlt.2.1 hlt.2.2.1 hzero).symm, rfl⟩
  | v :: w :: x :: y :: vs, hlt, hlength, hzero => by
    simp only [List.forall_mem_cons] at hlt
    obtain ⟨hv, hw, hx, hy, hvs⟩ := hlt
    rw [push_four] at hzero ⊢
    obtain ⟨bytes, rfl, hdigits⟩ := sextets_of_push _ vs hvs (by simp only [List.length_cons] at hlength; omega) hzero
    refine ⟨_, (sextets_group hv hw hx hy bytes).symm, ?_⟩
    rw [hdigits, List.append_assoc]
    rfl

/-! ## Padding -/

theorem trimPadding_append {body : List UInt8} (h : ∀ byte ∈ body, byte ≠ 61) (k : Nat) :
    trimPadding (body ++ List.replicate k 61) = body := by
  have hpad : ∀ byte ∈ List.replicate k (61 : UInt8), decide (byte = 61) = true := fun byte hbyte =>
    decide_eq_true (List.eq_of_mem_replicate hbyte)
  have hbody : body.reverse.dropWhile (fun byte => decide (byte = 61)) = body.reverse := by
    refine List.dropWhile_eq_self_iff.mpr fun hne => ?_
    simpa using h _ (List.mem_reverse.mp (List.getElem_mem hne))
  rw [trimPadding, List.reverse_append, List.reverse_replicate, List.dropWhile_append_of_pos hpad, hbody, List.reverse_reverse]

theorem trimPadding_split (bytes : List UInt8) : ∃ k, bytes = trimPadding bytes ++ List.replicate k 61 := by
  have hpad : ∀ byte ∈ bytes.reverse.takeWhile (fun byte => decide (byte = 61)), byte = 61 := by
    intro byte hbyte
    simpa using List.mem_takeWhile_imp hbyte
  refine ⟨(bytes.reverse.takeWhile fun byte => decide (byte = 61)).length, ?_⟩
  rw [← List.reverse_replicate, ← List.eq_replicate_of_mem hpad, trimPadding, ← List.reverse_append,
    List.takeWhile_append_dropWhile, List.reverse_reverse]

/-- The encoding, in bytes. -/
theorem bytesOf_encode (bytes : List UInt8) :
    bytesOf (String.ofList (encode bytes)) = (sextets bytes).map symbolByte ++ List.replicate (padding bytes) 61 := by
  rw [bytesOf_ascii, encode, List.map_append, List.map_map, List.map_replicate]
  · rfl
  · intro c hc
    rw [encode, List.mem_append, List.mem_map] at hc
    rcases hc with ⟨v, hv, rfl⟩ | hpad
    · exact (symbol_ascii (sextets_lt bytes v hv)).1
    · rw [List.eq_of_mem_replicate hpad]
      decide

/-! ## Cursors -/

def base64 (text : String) : String := String.ofList (encode (bytesOf text))

/-- A decimal numeral of a number: digits, behind a plus sign or not. -/
def IsNumeral (text : List Char) (n : Nat) : Prop :=
  ∃ digits, (text = digits ∨ text = '+' :: digits) ∧ digits ≠ [] ∧ (∀ c ∈ digits, c.isDigit = true) ∧
    Nat.ofDigitChars 10 digits 0 = n

theorem isNumeral_iff {text : List Char} {n : Nat} : IsNumeral text n ↔
    skipPlus text ≠ [] ∧ (∀ c ∈ skipPlus text, c.isDigit = true) ∧ Nat.ofDigitChars 10 (skipPlus text) 0 = n := by
  have hplus : ¬ ('+' : Char).isDigit = true := by decide
  unfold IsNumeral skipPlus
  split
  · constructor
    · rintro ⟨digits, rfl | hdigits, hne, hall, hvalue⟩
      · exact absurd (hall _ List.mem_cons_self) hplus
      · cases hdigits
        exact ⟨hne, hall, hvalue⟩
    · exact fun h => ⟨_, .inr rfl, h⟩
  · rename_i hother
    constructor
    · rintro ⟨digits, rfl | rfl, h⟩
      · exact h
      · exact absurd rfl (hother digits)
    · exact fun h => ⟨_, .inl rfl, h⟩

theorem parseUsize_eq_some {text : List Char} {n : Nat} : parseUsize text = some n ↔ IsNumeral text n ∧ n ≤ usizeMax := by
  rw [isNumeral_iff]
  unfold parseUsize
  dsimp only
  split_ifs with hbad hle
  · simp only [Bool.or_eq_true, decide_eq_true_eq, Bool.not_eq_true', List.all_eq_false] at hbad
    constructor
    · nofun
    · rintro ⟨⟨hne, hall, -⟩, -⟩
      rcases hbad with hnil | ⟨c, hc, hdigit⟩
      · exact absurd hnil hne
      · exact absurd (hall c hc) hdigit
  · simp only [Bool.or_eq_true, decide_eq_true_eq, Bool.not_eq_true', not_or, Bool.not_eq_false, List.all_eq_true] at hbad
    constructor
    · rintro ⟨rfl⟩
      exact ⟨⟨hbad.1, hbad.2, rfl⟩, hle⟩
    · rintro ⟨⟨-, -, rfl⟩, -⟩
      rfl
  · constructor
    · nofun
    · rintro ⟨⟨-, -, rfl⟩, hn⟩
      exact absurd hn hle

/-- The bytes of a cursor are read as those that it encodes. -/
theorem decodeOffset_encode {bytes : List UInt8} (hne : bytes ≠ []) :
    decodeOffset (bytesOf (String.ofList (encode bytes))) =
      (String.fromUTF8? ⟨bytes.toArray⟩).bind fun text => parseUsize text.toList := by
  have hlength : (bytesOf (String.ofList (encode bytes))).length = (bytes.length + 2) / 3 * 4 := by
    rw [bytesOf_encode, List.length_append, List.length_map, List.length_replicate, length_sextets]
  have htrim : trimPadding (bytesOf (String.ofList (encode bytes))) = (sextets bytes).map symbolByte := by
    rw [bytesOf_encode]
    refine trimPadding_append (fun byte hbyte => ?_) _
    obtain ⟨v, hv, rfl⟩ := List.mem_map.mp hbyte
    exact (symbol_ascii (sextets_lt bytes v hv)).2
  obtain ⟨bitCount, hpush⟩ := push_sextets bytes []
  have hfold : ((sextets bytes).map symbolByte).foldlM decodeByte ⟨0, 0, []⟩ = some ⟨0, bitCount, bytes⟩ :=
    (foldlM_decodeByte ⟨by decide, by decide⟩).mpr ⟨_, sextets_lt bytes, rfl, hpush.symm⟩
  have hsize : 0 < bytes.length := List.length_pos_iff.mpr hne
  have hstart : bytesOf (String.ofList (encode bytes)) ≠ [] ∧ (bytesOf (String.ofList (encode bytes))).length % 4 = 0 := by
    rw [← List.length_pos_iff, hlength]
    omega
  have hpad : (bytesOf (String.ofList (encode bytes))).length ≤ 2 + (sextets bytes).length := by
    have hsextets := length_sextets bytes
    unfold padding at hsextets
    omega
  simp [decodeOffset, htrim, guard, hstart.1, hstart.2, hpad, hfold]

/-- What is read from a cursor is what the cursor encodes. -/
theorem decodeOffset_eq_some {cursor : String} {n : Nat} (h : decodeOffset (bytesOf cursor) = some n) :
    ∃ text, parseUsize text.toList = some n ∧ cursor = base64 text := by
  obtain ⟨k, hsplit⟩ := trimPadding_split (bytesOf cursor)
  simp only [decodeOffset, guard, Option.bind_eq_bind, Option.bind_eq_some_iff] at h
  obtain ⟨_, hstart, _, hpad, d, hfold, _, hzero, text, htext, hparse⟩ := h
  split_ifs at hstart hpad hzero with hshape hcount hbits
  obtain ⟨vs, hlt, hbytes, rfl⟩ := (foldlM_decodeByte ⟨by decide, by decide⟩).mp hfold
  have hlength : (bytesOf cursor).length = vs.length + k := by
    rw [hsplit, List.length_append, hbytes, List.length_map, List.length_replicate]
  have hlast : vs.length % 4 ≠ 1 ∧ k ≤ 2 := by
    rw [hlength, hbytes, List.length_map] at hcount
    rw [hlength] at hshape
    omega
  obtain ⟨bytes, rfl, hdigits⟩ := sextets_of_push [] vs hlt hlast.1 hbits
  have hpadding : k = padding bytes := by
    have hsextets := length_sextets bytes
    rw [hlength] at hshape
    unfold padding at hsextets ⊢
    omega
  refine ⟨text, hparse, bytesOf_injective ?_⟩
  rw [hdigits, List.nil_append] at htext
  rw [base64, bytesOf_of_fromUTF8? htext, bytesOf_encode, ← hpadding, ← hbytes]
  exact hsplit

theorem group_eq {a b c : Nat} (hb : b < 256) (hc : c < 256) : a <<< 16 ||| b <<< 8 ||| c = a * 65536 + b * 256 + c := by
  have hhigh : a <<< 16 ||| b <<< 8 = (a * 256 + b) <<< 8 := by
    have hlow : b <<< 8 < 2 ^ 16 := by
      rw [Nat.shiftLeft_eq]
      omega
    rw [← Nat.shiftLeft_add_eq_or_of_lt hlow, Nat.shiftLeft_eq, Nat.shiftLeft_eq, Nat.shiftLeft_eq]
    omega
  rw [hhigh, ← Nat.shiftLeft_add_eq_or_of_lt (show c < 2 ^ 8 from hc), Nat.shiftLeft_eq]
  omega

/-- The characters of a group are its sextets. -/
theorem sextets_of_group {a b c : Nat} (ha : a < 256) (hb : b < 256) (hc : c < 256) :
    (a <<< 16 ||| b <<< 8 ||| c) >>> 18 &&& 63 = a / 4 ∧
      (a <<< 16 ||| b <<< 8 ||| c) >>> 12 &&& 63 = a % 4 * 16 + b / 16 ∧
      (a <<< 16 ||| b <<< 8 ||| c) >>> 6 &&& 63 = b % 16 * 4 + c / 64 ∧ (a <<< 16 ||| b <<< 8 ||| c) &&& 63 = c % 64 := by
  have hsextet : ∀ n : Nat, n &&& 63 = n % 64 := fun n => Nat.and_two_pow_sub_one_eq_mod n 6
  simp only [group_eq hb hc, hsextet, Nat.shiftRight_eq_div_pow]
  omega

/-- The chunks of an encoder, one after another, are the encoding. -/
theorem flatMap_encodeChunk (bytes : List UInt8) : (chunks bytes).flatMap encodeChunk = encode bytes := by
  induction bytes using sextets.induct with
  | case1 => rfl
  | case2 a =>
    obtain ⟨h1, h2, -⟩ := sextets_of_group a.toNat_lt (show 0 < 256 by decide) (show 0 < 256 by decide)
    simp only [Nat.zero_shiftLeft, Nat.or_zero, Nat.zero_div, Nat.add_zero] at h1 h2
    simp [chunks, encodeChunk, encode, sextets, padding, h1, h2, List.replicate]
  | case3 a b =>
    obtain ⟨h1, h2, h3, -⟩ := sextets_of_group a.toNat_lt b.toNat_lt (show 0 < 256 by decide)
    simp only [Nat.or_zero, Nat.zero_div, Nat.add_zero] at h1 h2 h3
    simp [chunks, encodeChunk, encode, sextets, padding, h1, h2, h3]
  | case4 a b c rest ih =>
    obtain ⟨h1, h2, h3, h4⟩ := sextets_of_group a.toNat_lt b.toNat_lt c.toNat_lt
    have hpadding : padding (a :: b :: c :: rest) = padding rest := by
      simp only [padding, List.length_cons]
      omega
    rw [chunks, List.flatMap_cons, ih, encode, encode, sextets, hpadding]
    simp [encodeChunk, h1, h2, h3, h4]

/-! ## The laws of cursors -/

theorem encodeCursor_eq (n : Nat) : encodeCursor n = base64 (toString n) := by
  rw [encodeCursor, flatMap_encodeChunk, base64]

theorem isNumeral_toString (n : Nat) : IsNumeral (toString n).toList n := by
  rw [Nat.toString_eq_ofList_toDigits, String.toList_ofList]
  exact ⟨_, .inl rfl, Nat.toDigits_ne_nil, fun c hc => Nat.isDigit_of_mem_toDigits (by decide) (by decide) hc,
    Nat.ofDigitChars_ten_toDigits⟩

theorem decodeCursor_encodeCursor {n : Nat} (h : n ≤ usizeMax) : decodeCursor (encodeCursor n) = .ok n := by
  have hne : bytesOf (toString n) ≠ [] := by
    intro hnil
    have hempty : toString n = "" := bytesOf_injective hnil
    obtain ⟨digits, -⟩ := isNumeral_iff.mp (isNumeral_toString n)
    rw [hempty] at digits
    exact digits rfl
  rw [decodeCursor, encodeCursor_eq, base64, decodeOffset_encode hne, fromUTF8?_bytesOf, Option.bind_some,
    parseUsize_eq_some.mpr ⟨isNumeral_toString n, h⟩]

theorem decodeCursor_ok {cursor : String} {n : Nat} (h : decodeCursor cursor = .ok n) :
    ∃ text, IsNumeral text.toList n ∧ cursor = base64 text := by
  unfold decodeCursor at h
  split at h
  · cases h
    obtain ⟨text, hparse, hcursor⟩ := decodeOffset_eq_some ‹_›
    exact ⟨text, (parseUsize_eq_some.mp hparse).1, hcursor⟩
  · cases h

/-! ## Workspaces -/

/-- The entries of a directory, whose names differ, and which are as many as fit in memory. -/
structure Workspace where
  entries : List DirEntry
  names_nodup : (entries.filterMap DirEntry.name).Nodup
  length_le : entries.length ≤ usizeMax

def Workspace.resources (W : Workspace) : List Resource := W.entries.filterMap toResource

theorem toResource_eq_some {entry : DirEntry} {r : Resource} (h : toResource entry = some r) :
    ∃ name kind, entry.name = some name ∧ r.uri = URI_PREFIX ++ ResourceKind.uriKind kind ++ "/" ++ name := by
  simp only [toResource, Option.bind_eq_bind, Option.bind_eq_some_iff] at h
  obtain ⟨name, hname, _, _, hr⟩ := h
  cases hr
  exact ⟨name, _, hname, rfl⟩

/-- A URI tells which name it is of. -/
theorem name_of_uri {k k' : ResourceKind} {name name' : String}
    (h : URI_PREFIX ++ k.uriKind ++ "/" ++ name = URI_PREFIX ++ k'.uriKind ++ "/" ++ name') : name = name' := by
  have hkind : ∀ (k : ResourceKind) (name : String),
      (k.uriKind.toList ++ ("/".toList ++ name.toList)).dropWhile (fun c => decide (c ≠ '/')) = '/' :: name.toList := by
    intro k name
    have hslash : k.uriKind.toList.all (fun c => decide (c ≠ '/')) = true := by cases k <;> decide
    rw [List.dropWhile_append_of_pos (List.all_eq_true.mp hslash)]
    rfl
  have hchars := congrArg String.toList h
  simp only [String.toList_append, List.append_assoc] at hchars
  have htails := congrArg (List.dropWhile fun c => decide (c ≠ '/')) (List.append_cancel_left hchars)
  rw [hkind, hkind] at htails
  exact String.toList_injective (List.cons.inj htails).2

theorem Workspace.uris_nodup (W : Workspace) : (W.resources.map Resource.uri).Nodup := by
  have hnames := List.pairwise_filterMap.mp W.names_nodup
  refine List.pairwise_map.mpr (List.pairwise_filterMap.mpr (hnames.imp ?_))
  intro a b hab r hr r' hr' huri
  obtain ⟨name, k, hname, hr⟩ := toResource_eq_some hr
  obtain ⟨name', k', hname', hr'⟩ := toResource_eq_some hr'
  rw [hr, hr'] at huri
  exact hab name hname name' hname' (name_of_uri huri)

/-- In whatever order the directory is read, the resources are the same, and sorted. -/
theorem Workspace.enumerate_eq (W : Workspace) {entries : List DirEntry} (h : entries.Perm W.entries) :
    enumerateWorkspaceResources (.ok entries) = .ok (W.resources.mergeSort fun a b => a.uri ≤ b.uri) := by
  have hperm : W.resources.Perm (entries.filterMap toResource) := (h.filterMap toResource).symm
  rw [enumerateWorkspaceResources,
    ← Keyed.mergeSort_eq_of_perm (fun a ha b hb => List.inj_on_of_nodup_map W.uris_nodup ha hb) hperm]

/-! ## Following the cursors -/

/-- Pages are requested one after another, each with the cursor of the one before; `readDir` is what is read for each of them. -/
def follow (readDir : Nat → Except String (List DirEntry)) : Nat → Nat → Option String → Option (Except RpcError (List Resource))
  | 0, _, _ => none
  | fuel + 1, request, cursor =>
    match listResourcesPage (readDir request) cursor with
    | .error e => some (.error e)
    | .ok page =>
      match page.nextCursor with
      | none => some (.ok page.resources)
      | some next => (follow readDir fuel (request + 1) (some next)).map (Except.map (page.resources ++ ·))

theorem listResourcesPage_eq {readDir : Except String (List DirEntry)} {all : List Resource} {cursor : Option String} {offset : Nat}
    (hall : enumerateWorkspaceResources readDir = .ok all) (hlength : all.length ≤ usizeMax) (hle : offset ≤ all.length)
    (hcursor : (cursor = none ∧ offset = 0) ∨ cursor = some (encodeCursor offset)) :
    listResourcesPage readDir cursor =
      .ok ⟨if offset + 100 < all.length then some (encodeCursor (offset + 100)) else none, (all.drop offset).take 100⟩ := by
  have hoffset : cursorOffset cursor = .ok offset := by
    rcases hcursor with ⟨rfl, rfl⟩ | rfl
    · rfl
    · exact decodeCursor_encodeCursor (hle.trans hlength)
  have hend : min all.length (saturatingAdd offset RESOURCES_PAGE_SIZE) = min all.length (offset + 100) := by
    rw [saturatingAdd, RESOURCES_PAGE_SIZE]
    omega
  simp only [listResourcesPage, hoffset, hall, hend, bind, Except.bind, pure, Except.pure]
  congr 2
  · by_cases hmore : offset + 100 < all.length
    · rw [if_pos hmore, Nat.min_eq_right hmore.le, if_pos hmore]
    · rw [if_neg hmore, Nat.min_eq_left (not_lt.mp hmore), if_neg (lt_irrefl _)]
  · by_cases hpast : all.length ≤ offset
    · rw [if_pos hpast, List.drop_eq_nil_of_le hpast, List.take_nil]
    · rw [if_neg hpast, Nat.min_comm, ← List.take_take, List.take_length, List.drop_take, Nat.add_sub_cancel_left]

/-- From an offset on, all the resources behind it are listed. -/
theorem follow_from {readDir : Nat → Except String (List DirEntry)} {all : List Resource}
    (hall : ∀ request, enumerateWorkspaceResources (readDir request) = .ok all) (hlength : all.length ≤ usizeMax)
    (fuel request : Nat) (cursor : Option String) (offset : Nat) (hle : offset ≤ all.length)
    (hfuel : all.length ≤ offset + 100 * fuel)
    (hcursor : (cursor = none ∧ offset = 0) ∨ cursor = some (encodeCursor offset)) :
    follow readDir (fuel + 1) request cursor = some (.ok (all.drop offset)) := by
  induction fuel generalizing request cursor offset with
  | zero =>
    rw [follow, listResourcesPage_eq (hall request) hlength hle hcursor, if_neg (by omega)]
    dsimp only
    rw [List.take_of_length_le (by rw [List.length_drop]; omega)]
  | succ fuel ih =>
    rw [follow, listResourcesPage_eq (hall request) hlength hle hcursor]
    by_cases hmore : offset + 100 < all.length
    · rw [if_pos hmore]
      dsimp only
      rw [ih (request + 1) _ (offset + 100) hmore.le (by omega) (.inr rfl), Option.map_some, Except.map, ← List.drop_drop,
        List.take_append_drop]
    · rw [if_neg hmore]
      dsimp only
      rw [List.take_of_length_le (by rw [List.length_drop]; omega)]

/-- Cursors round-trip and are canonical, and following them lists every resource of a workspace once and in order. -/
theorem resource_paging :
    (∀ n ≤ usizeMax, decodeCursor (encodeCursor n) = .ok n) ∧
      (∀ cursor n, decodeCursor cursor = .ok n → ∃ text, IsNumeral text.toList n ∧ cursor = base64 text) ∧
      ∀ (W : Workspace) (readDir : Nat → List DirEntry), (∀ request, (readDir request).Perm W.entries) →
        ∃ fuel resources, follow (fun request => .ok (readDir request)) fuel 0 none = some (.ok resources) ∧
          resources.Perm W.resources ∧ resources.Pairwise fun a b => a.uri < b.uri := by
  refine ⟨fun n hn => decodeCursor_encodeCursor hn, fun cursor n h => decodeCursor_ok h, fun W readDir hperm => ?_⟩
  have hsorted := List.mergeSort_perm W.resources fun a b => decide (a.uri ≤ b.uri)
  have hlength : (W.resources.mergeSort fun a b => a.uri ≤ b.uri).length ≤ usizeMax := by
    rw [hsorted.length_eq]
    exact (List.length_filterMap_le _ _).trans W.length_le
  have hfollow := follow_from (fun request => W.enumerate_eq (hperm request)) hlength usizeMax 0 none 0 (Nat.zero_le _)
    (by omega) (.inl ⟨rfl, rfl⟩)
  exact ⟨_, _, hfollow, hsorted, Keyed.mergeSort_strict W.uris_nodup⟩

end Tumult.Resources
