import Mathlib

/-!
# Internet addresses

The addresses of both families, how a text is read as one, and which of them are local. A text of IPv6 has up to eight groups, with
`::` for groups that are zero, and may end in an address of IPv4.
-/

namespace Tumult.Net

/-! ## Addresses -/

instance byte_neZero : NeZero 256 := ⟨by decide⟩

instance group_neZero : NeZero 65536 := ⟨by decide⟩

structure Ipv4Addr where
  a : Fin 256
  b : Fin 256
  c : Fin 256
  d : Fin 256
  deriving DecidableEq, Repr

structure Ipv6Addr where
  segments : List (Fin 65536)
  length_eq : segments.length = 8
  deriving DecidableEq, Repr

inductive IpAddr where
  | v4 (addr : Ipv4Addr)
  | v6 (addr : Ipv6Addr)
  deriving DecidableEq, Repr

/-- The address as a number of 32 bits. -/
def Ipv4Addr.toNat (addr : Ipv4Addr) : Nat := ((addr.a * 256 + addr.b) * 256 + addr.c) * 256 + addr.d

/-- The address as a number of 128 bits. -/
def Ipv6Addr.toNat (addr : Ipv6Addr) : Nat := addr.segments.foldl (fun n segment => n * 65536 + segment) 0

/-- The address of IPv4 that a mapped address of IPv6, `::ffff:a.b.c.d`, stands for. -/
def Ipv6Addr.toIpv4Mapped (addr : Ipv6Addr) : Option Ipv4Addr :=
  match addr.segments with
  | [0, 0, 0, 0, 0, 65535, ab, cd] =>
    some ⟨⟨ab / 256, by omega⟩, ⟨ab % 256, by omega⟩, ⟨cd / 256, by omega⟩, ⟨cd % 256, by omega⟩⟩
  | _ => none

/-- The address of IPv4 within an address, if it is one that is mapped. -/
def IpAddr.embedded : IpAddr → Option Ipv4Addr
  | .v4 _ => none
  | .v6 addr => addr.toIpv4Mapped

/-- The address that a connection reaches. -/
def IpAddr.reached (ip : IpAddr) : IpAddr := (ip.embedded.map .v4).getD ip

/-! ## Local addresses -/

/-- The number begins with the bits of the prefix. -/
def InPrefix (width addr base len : Nat) : Prop := addr / 2 ^ (width - len) = base / 2 ^ (width - len)

instance (width addr base len : Nat) : Decidable (InPrefix width addr base len) := inferInstanceAs (Decidable (_ = _))

/-- Loopback `127.0.0.0/8`, unspecified `0.0.0.0`, private `10.0.0.0/8`, `172.16.0.0/12` and `192.168.0.0/16`, or link-local
`169.254.0.0/16`. -/
def Ipv4Addr.Local (addr : Ipv4Addr) : Prop :=
  InPrefix 32 addr.toNat 0x7f000000 8 ∨ addr.toNat = 0 ∨ InPrefix 32 addr.toNat 0x0a000000 8 ∨
    InPrefix 32 addr.toNat 0xac100000 12 ∨ InPrefix 32 addr.toNat 0xc0a80000 16 ∨ InPrefix 32 addr.toNat 0xa9fe0000 16

/-- Loopback `::1`, unspecified `::`, unique-local `fc00::/7`, or link-local `fe80::/10`. -/
def Ipv6Addr.Local (addr : Ipv6Addr) : Prop :=
  addr.toNat = 1 ∨ addr.toNat = 0 ∨ InPrefix 128 addr.toNat (0xfc00 * 2 ^ 112) 7 ∨ InPrefix 128 addr.toNat (0xfe80 * 2 ^ 112) 10

def IpAddr.Local : IpAddr → Prop
  | .v4 addr => addr.Local
  | .v6 addr => addr.Local

instance (addr : Ipv4Addr) : Decidable addr.Local := inferInstanceAs (Decidable (_ ∨ _))

instance (addr : Ipv6Addr) : Decidable addr.Local := inferInstanceAs (Decidable (_ ∨ _))

instance : (ip : IpAddr) → Decidable ip.Local
  | .v4 addr => inferInstanceAs (Decidable addr.Local)
  | .v6 addr => inferInstanceAs (Decidable addr.Local)

/-! ## Texts -/

/-- The value of a digit; letters are digits of radix 16. -/
def digitOf (radix : Nat) (c : Char) : Option Nat :=
  let value :=
    if c.isDigit then c.toNat - '0'.toNat
    else if 'a' ≤ c ∧ c ≤ 'z' then c.toNat - 'a'.toNat + 10
    else if 'A' ≤ c ∧ c ≤ 'Z' then c.toNat - 'A'.toNat + 10
    else radix
  if value < radix then some value else none

/-- A number below a bound, with so many digits at most, and what stands behind it. -/
def readNumber (radix maxDigits bound : Nat) (allowZeroPrefix : Bool) (cs : List Char) : Option (Fin bound × List Char) :=
  let digits := cs.takeWhile fun c => (digitOf radix c).isSome
  let value := (digits.filterMap (digitOf radix)).foldl (fun n digit => n * radix + digit) 0
  if digits = [] || maxDigits < digits.length then none
  else if !allowZeroPrefix && digits.head? = some '0' && 1 < digits.length then none
  else if h : value < bound then some (⟨value, h⟩, cs.drop digits.length)
  else none

def readGivenChar (given : Char) : List Char → Option (List Char)
  | [] => none
  | c :: cs => if c = given then some cs else none

/-- The separator, which stands before all but the first. -/
def readSeparator (separator : Char) (index : Nat) (cs : List Char) : Option (List Char) :=
  if index = 0 then some cs else readGivenChar separator cs

def readIpv4Addr (cs : List Char) : Option (Ipv4Addr × List Char) := do
  let (a, cs) ← readNumber 10 3 256 false cs
  let (b, cs) ← readNumber 10 3 256 false (← readGivenChar '.' cs)
  let (c, cs) ← readNumber 10 3 256 false (← readGivenChar '.' cs)
  let (d, cs) ← readNumber 10 3 256 false (← readGivenChar '.' cs)
  pure (⟨a, b, c, d⟩, cs)

/-- Read groups, so many at most, the first of them being the one at `index`; whether the last one is an address of IPv4, and what
stands behind them. -/
def readGroups : Nat → Nat → List Char → List (Fin 65536) × Bool × List Char
  | 0, _, cs => ([], false, cs)
  | left + 1, index, cs =>
    -- an embedded address takes the place of two groups
    match if 0 < left then (readSeparator ':' index cs).bind readIpv4Addr else none with
    | some (addr, rest) => ([⟨addr.a * 256 + addr.b, by omega⟩, ⟨addr.c * 256 + addr.d, by omega⟩], true, rest)
    | none =>
      match (readSeparator ':' index cs).bind (readNumber 16 4 65536 true) with
      | some (group, rest) =>
        let (groups, endsInIpv4, rest) := readGroups left (index + 1) rest
        (group :: groups, endsInIpv4, rest)
      | none => ([], false, cs)

def readIpv6Addr (cs : List Char) : Option (Ipv6Addr × List Char) := do
  let (head, headIpv4, cs) := readGroups 8 0 cs
  if h : head.length = 8 then pure (⟨head, h⟩, cs)
  else if headIpv4 then none
  else
    let cs ← readGivenChar ':' cs
    let cs ← readGivenChar ':' cs
    let (tail, _, cs) := readGroups (8 - (head.length + 1)) 0 cs
    let segments := head ++ List.replicate (8 - head.length - tail.length) 0 ++ tail
    if h : segments.length = 8 then pure (⟨segments, h⟩, cs) else none

/-- `text.parse::<IpAddr>()` -/
def IpAddr.parse (text : String) : Option IpAddr :=
  match readIpv4Addr text.toList with
  | some (addr, rest) => if rest = [] then some (.v4 addr) else none
  | none =>
    match readIpv6Addr text.toList with
    | some (addr, rest) => if rest = [] then some (.v6 addr) else none
    | none => none

end Tumult.Net
