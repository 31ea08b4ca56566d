import Tumult.Lib.Base64

/-!
# Cursors

The cursor of a page of resources is the offset of the page, in digits and encoded in base64.
-/

namespace Tumult.Resources

/-! ## Errors and machine words -/

inductive RpcErrorCode where
  | invalidParams
  | invalidRequest
  | internalError
  deriving DecidableEq, Repr

structure RpcError where
  code : RpcErrorCode
  message : String
  deriving DecidableEq, Repr

def usizeMax : Nat := 2 ^ 64 - 1

def saturatingAdd (a b : Nat) : Nat := min (a + b) usizeMax

def bytesOf (s : String) : List UInt8 := s.toByteArray.data.toList

/-- `u8::try_from` -/
def u8TryFrom (n : Nat) : Option UInt8 := if n < 256 then some (.ofNat n) else none

def skipPlus : List Char → List Char
  | '+' :: digits => digits
  | digits => digits

/-- `str::parse::<usize>`: digits, behind a plus sign or not. -/
def parseUsize (text : List Char) : Option Nat :=
  let digits := skipPlus text
  if digits = [] || !digits.all Char.isDigit then none
  else if Nat.ofDigitChars 10 digits 0 ≤ usizeMax then some (Nat.ofDigitChars 10 digits 0)
  else none

/-! ## Cursors -/

def BASE64_ALPHABET : List UInt8 := Base64.alphabet.map fun c => c.val.toUInt8

/-- `chunks(3)` -/
def chunks : List UInt8 → List (List UInt8)
  | [] => []
  | a :: b :: c :: rest => [a, b, c] :: chunks rest
  | rest => [rest]

def encodeChunk (chunk : List UInt8) : List Char :=
  let b1 := chunk[1]?.map UInt8.toNat
  let b2 := chunk[2]?.map UInt8.toNat
  let group := (chunk.headD 0).toNat <<< 16 ||| b1.getD 0 <<< 8 ||| b2.getD 0
  [Base64.symbol (group >>> 18 &&& 63), Base64.symbol (group >>> 12 &&& 63),
    if b1.isSome then Base64.symbol (group >>> 6 &&& 63) else '=', if b2.isSome then Base64.symbol (group &&& 63) else '=']

def encodeCursor (offset : Nat) : String := String.ofList ((chunks (bytesOf (toString offset))).flatMap encodeChunk)

/-- The bits that are not yet part of a byte, how many they are, and the bytes. -/
structure Decoding where
  bits : Nat
  bitCount : Nat
  digits : List UInt8
  deriving DecidableEq

/-- The bits are fewer than sixteen, so that the shift loses none. -/
def decodeByte (d : Decoding) (byte : UInt8) : Option Decoding := do
  let value ← BASE64_ALPHABET.findIdx? (· == byte)
  let bits := d.bits <<< 6 ||| value
  let bitCount := d.bitCount + 6
  if 8 ≤ bitCount then
    let bitCount := bitCount - 8
    let out ← u8TryFrom (bits >>> bitCount &&& 0xFF)
    pure ⟨bits &&& (1 <<< bitCount - 1), bitCount, d.digits ++ [out]⟩
  else pure ⟨bits, bitCount, d.digits⟩

/-- `trim_end_matches('=')`, on bytes. -/
def trimPadding (bytes : List UInt8) : List UInt8 := (bytes.reverse.dropWhile (· = 61)).reverse

def decodeOffset (cursor : List UInt8) : Option Nat := do
  guard (cursor ≠ [] ∧ cursor.length % 4 = 0)
  let trimmed := trimPadding cursor
  guard (cursor.length - trimmed.length ≤ 2)
  let d ← trimmed.foldlM decodeByte ⟨0, 0, []⟩
  -- non-canonical padding bits
  guard (d.bits = 0)
  let text ← String.fromUTF8? ⟨d.digits.toArray⟩
  parseUsize text.toList

/-- Whatever the cursor fails at, the error is the same. -/
def decodeCursor (cursor : String) : Except RpcError Nat :=
  match decodeOffset (bytesOf cursor) with
  | some offset => .ok offset
  | none => .error ⟨.invalidParams, "invalid pagination cursor: " ++ cursor⟩

end Tumult.Resources
