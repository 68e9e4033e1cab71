-- Package net/netip as far as the program uses it: addresses of 4 or 16 bytes, and prefixes. An
-- IPv4 address in its 16-byte form is an IPv6 address here.
import Vproxy.AddrNumbers

open go go.net

namespace go.netip

/-! ## Addresses -/

/-- `Addr.Is4`. The zero `Addr` has no bytes. -/
def is4 (a : Addr) : Bool := a.bytes.length == 4

/-- `Addr.Is6`. -/
def is6 (a : Addr) : Bool := a.bytes.length == 16

/-- `AddrFromSlice`. -/
def addrFromSlice (ip : IP) : Option Addr :=
  if ip.length = 4 ∨ ip.length = 16 then some ⟨ip, []⟩ else none

/-- `Addr.IsLoopback`. -/
def isLoopback (a : Addr) : Bool := net.isLoopback a.bytes

def ipv4Unspecified : Addr := ⟨[0, 0, 0, 0], []⟩

def ipv6Unspecified : Addr := ⟨List.replicate 16 0, []⟩

/-- `Addr.IsUnspecified`. -/
def isUnspecified (a : Addr) : Bool := a == ipv4Unspecified || a == ipv6Unspecified

/-! ## Prefixes -/

/-- A prefix that is not valid has 0 for its bits plus one. -/
structure Prefix where
  addr : Addr
  bitsPlusOne : Nat
  deriving DecidableEq, Repr

def Prefix.isValid (p : Prefix) : Bool := 0 < p.bitsPlusOne

/-- `Prefix.Bits` of a valid prefix. -/
def Prefix.bits (p : Prefix) : Nat := p.bitsPlusOne - 1

/-- `PrefixFrom`. The zone is dropped. -/
def prefixFrom (a : Addr) (bits : Nat) : Prefix :=
  ⟨⟨a.bytes, []⟩, if a.bytes ≠ [] ∧ bits ≤ 8 * a.bytes.length then bits + 1 else 0⟩

/-- `Prefix.Contains`. -/
def Prefix.contains (p : Prefix) (a : Addr) : Bool :=
  p.isValid && a.zone == [] && a.bytes.length == p.addr.bytes.length &&
    maskIP a.bytes (cidrMask p.bits a.bytes.length) ==
      maskIP p.addr.bytes (cidrMask p.bits a.bytes.length)

/-- `ParsePrefix`. The number has no sign and no zero in front. -/
def parsePrefix (s : Str) : Option Prefix := do
  let i ← lastIndex s '/'
  let a ← parseAddr (s.take i)
  let bitsStr := s.drop (i + 1)
  if a.zone ≠ [] ∨ bitsStr = [] ∨ ¬ bitsStr.all isDigit ∨
      (1 < bitsStr.length ∧ bitsStr.head? = some '0') ∨ 8 * a.bytes.length < decimal bitsStr then
    none
  else some (prefixFrom a (decimal bitsStr))

end go.netip
