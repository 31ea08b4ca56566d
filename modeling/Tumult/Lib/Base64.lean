import Mathlib

/-!
# Base64

The encoding of bytes in characters of six bits each: three bytes are four characters, and what is left over at the end is padded.
-/

namespace Base64

def alphabet : List Char := "ABCDEFGHIJKLMNOPQRSTUVWXYZabcdefghijklmnopqrstuvwxyz0123456789+/".toList

def symbol (v : Nat) : Char := alphabet.getD v 'A'

/-- The bits of the bytes, six by six, with zeros at the end. -/
def sextets : List UInt8 → List Nat
  | [] => []
  | [a] => [a.toNat / 4, a.toNat % 4 * 16]
  | [a, b] => [a.toNat / 4, a.toNat % 4 * 16 + b.toNat / 16, b.toNat % 16 * 4]
  | a :: b :: c :: rest =>
    a.toNat / 4 :: (a.toNat % 4 * 16 + b.toNat / 16) :: (b.toNat % 16 * 4 + c.toNat / 64) :: (c.toNat % 64) :: sextets rest

/-- How many characters short of a multiple of four the sextets are. -/
def padding (bytes : List UInt8) : Nat := (3 - bytes.length % 3) % 3

def encode (bytes : List UInt8) : List Char := (sextets bytes).map symbol ++ List.replicate (padding bytes) '='

theorem length_sextets (bytes : List UInt8) : (sextets bytes).length + padding bytes = (bytes.length + 2) / 3 * 4 := by
  fun_induction sextets bytes with
  | case1 => rfl
  | case2 a => simp [padding]
  | case3 a b => simp [padding]
  | case4 a b c rest ih =>
    simp only [padding, List.length_cons] at ih ⊢
    omega

theorem sextets_lt (bytes : List UInt8) : ∀ v ∈ sextets bytes, v < 64 := by
  fun_induction sextets bytes with
  | case1 => nofun
  | case2 a =>
    have ha := a.toNat_lt
    simp only [List.forall_mem_cons, List.not_mem_nil, IsEmpty.forall_iff, implies_true, and_true]
    omega
  | case3 a b =>
    have ha := a.toNat_lt
    have hb := b.toNat_lt
    simp only [List.forall_mem_cons, List.not_mem_nil, IsEmpty.forall_iff, implies_true, and_true]
    omega
  | case4 a b c rest ih =>
    have ha := a.toNat_lt
    have hb := b.toNat_lt
    have hc := c.toNat_lt
    simp only [List.forall_mem_cons]
    exact ⟨by omega, by omega, by omega, by omega, ih⟩

/-- The bytes of four sextets, before those of more of them. -/
theorem sextets_group {v w x y : Nat} (hv : v < 64) (hw : w < 64) (hx : x < 64) (hy : y < 64) (rest : List UInt8) :
    sextets (.ofNat ((v * 64 + w) / 16) :: .ofNat (((v * 64 + w) % 16 * 64 + x) / 4) ::
      .ofNat (((v * 64 + w) % 16 * 64 + x) % 4 * 64 + y) :: rest) = v :: w :: x :: y :: sextets rest := by
  simp only [sextets, UInt8.toNat_ofNat', List.cons.injEq, and_true]
  omega

theorem sextets_pair {v w : Nat} (hv : v < 64) (hw : w < 64) (hzero : (v * 64 + w) % 16 = 0) :
    sextets [.ofNat ((v * 64 + w) / 16)] = [v, w] := by
  simp only [sextets, UInt8.toNat_ofNat', List.cons.injEq, and_true]
  omega

theorem sextets_triple {v w x : Nat} (hv : v < 64) (hw : w < 64) (hx : x < 64)
    (hzero : ((v * 64 + w) % 16 * 64 + x) % 4 = 0) :
    sextets [.ofNat ((v * 64 + w) / 16), .ofNat (((v * 64 + w) % 16 * 64 + x) / 4)] = [v, w, x] := by
  simp only [sextets, UInt8.toNat_ofNat', List.cons.injEq, and_true]
  omega

end Base64
