import Mathlib.Data.Nat.Basic

/-!
# IP addresses and networks

Addresses and networks in the notation of Python's `ipaddress`: an IPv4 address is four decimal
octets, an IPv6 address up to eight groups of hex digits with one `::`, a network an address and a
prefix length (or an IPv4 mask). A network is kept with its host bits cleared (`Block.clear`) and
tells its addresses by a mask; `Block.contains_of_iff` says what the mask means, bit by bit.
-/

namespace Ip

/-! ## Blocks -/

/-- The mask of the first `p` bits of an address of `w` bits. -/
def netmask (w p : ℕ) : BitVec w := BitVec.allOnes w ^^^ (BitVec.allOnes w >>> p)

theorem getMsbD_netmask (w p i : ℕ) :
    (netmask w p).getMsbD i = (decide (i < w) && decide (i < p)) := by
  rw [netmask, BitVec.getMsbD_xor, BitVec.getMsbD_ushiftRight, BitVec.getMsbD_allOnes,
    BitVec.getMsbD_allOnes]
  by_cases hw : i < w
  · by_cases hp : i < p
    · simp [hw, hp]
    · have : i - p < w := by omega
      simp [hw, hp, this]
  · simp [hw]

/-- The addresses of `w` bits that agree with a base on their first bits. -/
structure Block (w : ℕ) where
  base : BitVec w
  prefixLength : ℕ
  /-- the host bits of the base are zero -/
  clear : base &&& netmask w prefixLength = base

namespace Block

variable {w : ℕ}

/-- The block around an address, whose host bits are cleared. -/
def of (address : BitVec w) (length : ℕ) : Block w where
  base := address &&& netmask w length
  prefixLength := length
  clear := by rw [BitVec.and_assoc, BitVec.and_self]

def contains (block : Block w) (address : BitVec w) : Bool :=
  address &&& netmask w block.prefixLength == block.base

/-- **A block contains the addresses that have its first bits.** -/
theorem contains_iff (block : Block w) (address : BitVec w) :
    block.contains address = true ↔
      ∀ i < block.prefixLength, address.getMsbD i = block.base.getMsbD i := by
  rw [contains, beq_iff_eq]
  constructor
  · intro h i hi
    rw [← h, BitVec.getMsbD_and, getMsbD_netmask]
    by_cases hw : i < w
    · simp [hw, hi]
    · rw [BitVec.getMsbD_of_ge _ _ (Nat.not_lt.mp hw), Bool.false_and]
  · intro h
    rw [← block.clear]
    apply BitVec.eq_of_getMsbD_eq
    intro i _
    rw [BitVec.getMsbD_and, BitVec.getMsbD_and, getMsbD_netmask]
    by_cases hi : i < block.prefixLength
    · rw [h i hi]
    · simp [hi]

end Block

/-! ## Addresses and networks -/

inductive Address where
  | v4 (bits : BitVec 32)
  | v6 (bits : BitVec 128)
  deriving DecidableEq

inductive Network where
  | v4 (block : Block 32)
  | v6 (block : Block 128)

namespace Network

/-- `address in network`: a network has no address of the other version. -/
def contains : Network → Address → Bool
  | .v4 block, .v4 bits => block.contains bits
  | .v6 block, .v6 bits => block.contains bits
  | _, _ => false

/-- An address belongs to a network when it is of its version and has its first bits. -/
def Covers : Network → Address → Prop
  | .v4 block, .v4 bits => ∀ i < block.prefixLength, bits.getMsbD i = block.base.getMsbD i
  | .v6 block, .v6 bits => ∀ i < block.prefixLength, bits.getMsbD i = block.base.getMsbD i
  | _, _ => False

theorem contains_iff (network : Network) (address : Address) :
    network.contains address = true ↔ network.Covers address := by
  cases network with
  | v4 block =>
    cases address with
    | v4 bits => exact block.contains_iff bits
    | v6 bits => exact iff_of_false Bool.false_ne_true id
  | v6 block =>
    cases address with
    | v4 bits => exact iff_of_false Bool.false_ne_true id
    | v6 bits => exact block.contains_iff bits

instance (network : Network) (address : Address) : Decidable (network.Covers address) :=
  decidable_of_iff _ (network.contains_iff address)

end Network

/-! ## Reading IPv4 -/

/-- One decimal octet: at most three ASCII digits, without leading zeros. -/
def parseOctet (octet : List Char) : Option ℕ :=
  let value := octet.foldl (fun n c => n * 10 + (c.toNat - '0'.toNat)) 0
  if octet ≠ [] ∧ octet.all Char.isDigit ∧ octet.length ≤ 3 ∧
      (octet = ['0'] ∨ octet.head? ≠ some '0') ∧ value ≤ 255 then
    some value
  else none

def ipv4FromString (text : List Char) : Option (BitVec 32) := do
  let octets := text.splitOn '.'
  if octets.length = 4 then
    let values ← octets.mapM parseOctet
    some (BitVec.ofNat 32 (values.foldl (fun n octet => n * 256 + octet) 0))
  else none

/-! ## Reading IPv6 -/

def hexDigit (c : Char) : Option ℕ :=
  if c.isDigit then some (c.toNat - '0'.toNat)
  else if 'a' ≤ c ∧ c ≤ 'f' then some (c.toNat - 'a'.toNat + 10)
  else if 'A' ≤ c ∧ c ≤ 'F' then some (c.toNat - 'A'.toNat + 10)
  else none

/-- One group: one to four hex digits. -/
def parseHextet (hextet : List Char) : Option ℕ := do
  let digits ← hextet.mapM hexDigit
  if hextet ≠ [] ∧ hextet.length ≤ 4 then
    some (digits.foldl (fun n digit => n * 16 + digit) 0)
  else none

/-- An IPv4 address at the end stands for its two groups. -/
def expandIpv4Suffix (parts : List (List Char)) : Option (List (List Char)) :=
  match parts.getLast? with
  | some last =>
    if '.' ∈ last then do
      let bits ← ipv4FromString last
      some (parts.dropLast ++
        [Nat.toDigits 16 (bits.toNat / 65536), Nat.toDigits 16 (bits.toNat % 65536)])
    else some parts
  | none => some parts

/-- The groups on one side of `::`; an empty group stands there alone, at an end of the text. -/
def groupsBeside (parts : List (List Char)) (atEnd : Option (List Char)) :
    Option (List (List Char)) :=
  if atEnd = some [] then
    if parts.length = 1 then some [] else none
  else some parts

def ipv6FromString (text : List Char) : Option (BitVec 128) := do
  let parts := text.splitOn ':'
  if parts.length < 3 then none
  let parts ← expandIpv4Suffix parts
  if 9 < parts.length then none
  -- the places of `::`, the ends of the text aside
  let skips := (List.range parts.length).filter fun i =>
    0 < i ∧ i + 1 < parts.length ∧ parts[i]? = some []
  let groups ← match skips with
    | [] => if parts.length = 8 then parts.mapM parseHextet else none
    | [skip] => do
      let high ← groupsBeside (parts.take skip) parts.head?
      let low ← groupsBeside (parts.drop (skip + 1)) parts.getLast?
      if 8 ≤ high.length + low.length then none
      let high ← high.mapM parseHextet
      let low ← low.mapM parseHextet
      some (high ++ List.replicate (8 - (high.length + low.length)) 0 ++ low)
    | _ => none
  some (BitVec.ofNat 128 (groups.foldl (fun n group => n * 65536 + group) 0))

/-- The text before a scope, which is not empty and has no second `%`. -/
def splitScopeId (text : List Char) : Option (List Char) :=
  match text.splitOn '%' with
  | [address] => some address
  | [address, scope] => if scope = [] then none else some address
  | _ => none

/-! ## Reading addresses and networks -/

def parseIpv6 (text : List Char) : Option (BitVec 128) := splitScopeId text >>= ipv6FromString

/-- `ipaddress.ip_address`; nothing where it raises `ValueError`. -/
def ipAddress (text : String) : Option Address :=
  if '/' ∈ text.toList then none
  else (ipv4FromString text.toList).map .v4 <|> (parseIpv6 text.toList).map .v6

/-- A prefix length in ASCII digits, at most the width of an address. -/
def prefixFromPrefixString (width : ℕ) (text : List Char) : Option ℕ :=
  let value := text.foldl (fun n c => n * 10 + (c.toNat - '0'.toNat)) 0
  if text ≠ [] ∧ text.all Char.isDigit ∧ value ≤ width then some value else none

/-- The length of a netmask, or else of the hostmask whose complement it is. -/
def prefixFromIpString (text : List Char) : Option ℕ := do
  let mask ← ipv4FromString text
  let lengths := List.range 33
  lengths.find? (fun length => netmask 32 length = mask) <|>
    lengths.find? (fun length => netmask 32 length = ~~~mask)

/-- `ipaddress.ip_network(text, strict=False)`; nothing where it raises `ValueError`. -/
def ipNetwork (text : String) : Option Network :=
  let (address, mask) := match text.toList.splitOn '/' with
    | [address] => (some address, none)
    | [address, mask] => (some address, some mask)
    | _ => (none, none)
  let ipv4 := do
    let bits ← address >>= ipv4FromString
    let length ← match mask with
      | some mask => prefixFromPrefixString 32 mask <|> prefixFromIpString mask
      | none => some 32
    some (Network.v4 (.of bits length))
  let ipv6 := do
    let bits ← address >>= parseIpv6
    let length ← match mask with
      | some mask => prefixFromPrefixString 128 mask
      | none => some 128
    some (Network.v6 (.of bits length))
  ipv4 <|> ipv6

end Ip
