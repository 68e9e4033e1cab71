-- The addresses of package net: their bytes, the texts that are read as addresses, CIDR
-- networks, and the text host:port.
import Vproxy.Strings

namespace go.net

/-! ## The bytes of an address -/

/-- A `net.IP`: the 4 or the 16 bytes of an address. -/
abbrev IP := List UInt8

/-- The bytes before an IPv4 address in its 16-byte form. -/
def v4InV6Prefix : IP := [0, 0, 0, 0, 0, 0, 0, 0, 0, 0, 0xff, 0xff]

/-- `IP.To4`. -/
def to4 (ip : IP) : Option IP :=
  if ip.length = 4 then some ip
  else if ip.length = 16 ∧ ip.take 12 = v4InV6Prefix then some (ip.drop 12)
  else none

/-- `IP.To16`. -/
def to16 (ip : IP) : Option IP :=
  if ip.length = 4 then some (v4InV6Prefix ++ ip)
  else if ip.length = 16 then some ip
  else none

def ipv6loopback : IP := [0, 0, 0, 0, 0, 0, 0, 0, 0, 0, 0, 0, 0, 0, 0, 1]

/-- Byte `i` of an address. -/
def byte (ip : IP) (i : Nat) : UInt8 := ip.getD i 0

/-- `IP.IsLoopback`. -/
def isLoopback (ip : IP) : Bool :=
  match to4 ip with
  | some a => byte a 0 == 127
  | none => ip == ipv6loopback

/-- `IP.IsLinkLocalUnicast`. -/
def isLinkLocalUnicast (ip : IP) : Bool :=
  match to4 ip with
  | some a => byte a 0 == 169 && byte a 1 == 254
  | none => ip.length == 16 && byte ip 0 == 0xfe && byte ip 1 &&& 0xc0 == 0x80

/-- `IP.IsLinkLocalMulticast`. -/
def isLinkLocalMulticast (ip : IP) : Bool :=
  match to4 ip with
  | some a => byte a 0 == 224 && byte a 1 == 0 && byte a 2 == 0
  | none => ip.length == 16 && byte ip 0 == 0xff && byte ip 1 &&& 0x0f == 0x02

/-- `IP.IsPrivate`. -/
def isPrivate (ip : IP) : Bool :=
  match to4 ip with
  | some a => byte a 0 == 10 || (byte a 0 == 172 && byte a 1 &&& 0xf0 == 16) ||
      (byte a 0 == 192 && byte a 1 == 168)
  | none => ip.length == 16 && byte ip 0 &&& 0xfe == 0xfc

/-- `IP.Equal`: an IPv4 address equals its 16-byte form. -/
def ipEqual (ip x : IP) : Bool :=
  if ip.length = x.length then ip = x
  else if ip.length = 4 ∧ x.length = 16 then x.take 12 = v4InV6Prefix ∧ ip = x.drop 12
  else if ip.length = 16 ∧ x.length = 4 then ip.take 12 = v4InV6Prefix ∧ ip.drop 12 = x
  else false

theorem exists_cons_cons {α : Type} {l : List α} (h : 2 ≤ l.length) :
    ∃ x y rest, l = x :: y :: rest := by
  match l, h with
  | x :: y :: rest, _ => exact ⟨x, y, rest, rfl⟩

/-! ## The text of an address -/

/-- A `netip.Addr`: the bytes that were read, and the zone of an IPv6 address. -/
structure Addr where
  bytes : IP
  zone : Str
  deriving DecidableEq, Repr

/-- One field of a dotted address: digits without a leading zero, at most 255. -/
def parseOctet (s : Str) : Option UInt8 :=
  if s = [] ∨ ¬ s.all isDigit then none
  else if 1 < s.length ∧ s.head? = some '0' then none
  else if decimal s > 255 then none
  else some (UInt8.ofNat (decimal s))

/-- `netip.parseIPv4`. -/
def parseIPv4 (s : Str) : Option IP :=
  match s.splitOn '.' with
  | [a, b, c, d] => do
    let a ← parseOctet a
    let b ← parseOctet b
    let c ← parseOctet c
    let d ← parseOctet d
    some [a, b, c, d]
  | _ => none

def hexVal (c : Char) : Option Nat :=
  if isDigit c then some (digitVal c)
  else if 'a' ≤ c ∧ c ≤ 'f' then some (c.toNat - 'a'.toNat + 10)
  else if 'A' ≤ c ∧ c ≤ 'F' then some (c.toNat - 'A'.toNat + 10)
  else none

def isHex (c : Char) : Bool := (hexVal c).isSome

/-- The value of a row of hex digits. -/
def hexNum (s : Str) : Nat := s.foldl (fun n c => 16 * n + (hexVal c).getD 0) 0

/-- The two bytes of a group. -/
def groupBytes (g : Nat) : IP := [UInt8.ofNat (g / 256), UInt8.ofNat g]

/-- The loop of `netip.parseIPv6`: at most `n` more groups of `s`. It gives the bytes read,
the place of `::` among them, and the text that is left. -/
def parseGroups : Nat → Str → IP → Option Nat → Option (IP × Option Nat × Str)
  | 0, s, acc, e => some (acc, e, s)
  | n + 1, s, acc, e =>
    let ds := s.takeWhile isHex
    if ds = [] ∨ 4 < ds.length then none
    else
      match s.drop ds.length with
      | '.' :: _ =>
        -- an IPv4 address may stand for the last four bytes
        if (e = none ∧ acc.length ≠ 12) ∨ 16 < acc.length + 4 then none
        else (parseIPv4 s).map (fun v4 => (acc ++ v4, e, []))
      | [] => some (acc ++ groupBytes (hexNum ds), e, [])
      | [':'] => none
      | ':' :: ':' :: more =>
        let acc := acc ++ groupBytes (hexNum ds)
        if e.isSome then none
        else if more = [] then some (acc, some acc.length, [])
        else parseGroups n more acc (some acc.length)
      | ':' :: more => parseGroups n more (acc ++ groupBytes (hexNum ds)) e
      | _ => none

/-- The end of `netip.parseIPv6`: zeros fill the place of `::`. -/
def expand : IP × Option Nat × Str → Option IP
  | (acc, e, []) =>
    if acc.length < 16 then
      e.map (fun k => acc.take k ++ List.replicate (16 - acc.length) 0 ++ acc.drop k)
    else if e.isSome then none
    else some acc
  | _ => none

/-- `netip.parseIPv6` of the text before the zone. -/
def parseIPv6 (s : Str) : Option IP :=
  match s with
  | [':', ':'] => some (List.replicate 16 0)
  | ':' :: ':' :: rest => (parseGroups 8 rest [] (some 0)).bind expand
  | _ => (parseGroups 8 s [] none).bind expand

/-- `netip.ParseAddr`. -/
def parseAddr (s : Str) : Option Addr :=
  match s.find? (fun c => c = '.' ∨ c = ':' ∨ c = '%') with
  | some '.' => (parseIPv4 s).map (fun ip => ⟨ip, []⟩)
  | some ':' =>
    match cut s '%' with
    | none => (parseIPv6 s).map (fun ip => ⟨ip, []⟩)
    | some (_, []) => none
    | some (addr, zone) => (parseIPv6 addr).map (fun ip => ⟨ip, zone⟩)
  | _ => none

/-- `net.ParseIP`: the 16-byte form of an address without a zone. -/
def parseIP (s : Str) : Option IP :=
  match parseAddr s with
  | some ⟨ip, []⟩ => to16 ip
  | _ => none

theorem parseAddr_of_parseIP {s : Str} {ip : IP} (h : parseIP s = some ip) :
    ∃ b, parseAddr s = some ⟨b, []⟩ ∧ to16 b = some ip := by
  unfold parseIP at h
  split at h
  · rename_i b hb
    exact ⟨b, hb, h⟩
  · cases h

theorem length_parseIPv4 {s : Str} {ip : IP} (h : parseIPv4 s = some ip) : ip.length = 4 := by
  unfold parseIPv4 at h
  split at h
  · simp only [Option.bind_eq_bind, Option.bind_eq_some_iff, Option.some.injEq] at h
    obtain ⟨a, -, b, -, c, -, d, -, rfl⟩ := h
    rfl
  · cases h

/-- A turn of the loop: the rest is an IPv4 address, or a group of hexadecimal digits comes
first and ends the text or stands before more groups. -/
theorem parseGroups_cases {n : Nat} {s : Str} {acc : IP} {e : Option Nat}
    {r : IP × Option Nat × Str} (h : parseGroups (n + 1) s acc e = some r) :
    (∃ v4, parseIPv4 s = some v4 ∧ acc.length + 4 ≤ 16 ∧ r = (acc ++ v4, e, [])) ∨
      ∃ ds rest e', s = ds ++ rest ∧ (∀ c ∈ ds, isHex c) ∧
        (((rest = [] ∨ rest = [':', ':']) ∧ r = (acc ++ groupBytes (hexNum ds), e', [])) ∨
          ∃ more, (rest = ':' :: more ∨ rest = ':' :: ':' :: more) ∧
            parseGroups n more (acc ++ groupBytes (hexNum ds)) e' = some r) := by
  have hfront : s = s.takeWhile isHex ++ s.drop (s.takeWhile isHex).length :=
    (List.prefix_iff_eq_append.mp (List.takeWhile_prefix _)).symm
  have hhex : ∀ c ∈ s.takeWhile isHex, isHex c := fun c hc => List.mem_takeWhile_imp hc
  unfold parseGroups at h
  dsimp only at h
  split at h
  · cases h
  split at h
  · split at h
    · cases h
    · rename_i hroom
      obtain ⟨v4, hv4, rfl⟩ := Option.map_eq_some_iff.mp h
      exact .inl ⟨v4, hv4, by omega, rfl⟩
  · rename_i hrest
    exact .inr ⟨_, _, e, hfront, hhex, .inl ⟨.inl hrest, (Option.some.inj h).symm⟩⟩
  · cases h
  · rename_i more hrest
    split at h
    · cases h
    split at h
    · rename_i hmore
      rw [hmore] at hrest
      exact .inr ⟨_, _, _, hfront, hhex, .inl ⟨.inr hrest, (Option.some.inj h).symm⟩⟩
    · exact .inr ⟨_, _, _, hfront, hhex, .inr ⟨more, .inr hrest, h⟩⟩
  · rename_i more _ _ hrest
    exact .inr ⟨_, _, e, hfront, hhex, .inr ⟨more, .inl hrest, h⟩⟩
  · cases h

/-- Eight groups are at most sixteen bytes. -/
theorem length_parseGroups {n : Nat} {s : Str} {acc : IP} {e : Option Nat}
    {r : IP × Option Nat × Str} (h : parseGroups n s acc e = some r)
    (hacc : acc.length + 2 * n ≤ 16) : r.1.length ≤ 16 := by
  induction n generalizing s acc e with
  | zero =>
    obtain rfl := Option.some.inj h
    exact hacc
  | succ n ih =>
    have hgroup : ∀ g, (acc ++ groupBytes g).length + 2 * n ≤ 16 := by
      intro g
      simp only [List.length_append, groupBytes, List.length_cons, List.length_nil]
      omega
    obtain ⟨v4, hv4, hroom, rfl⟩ | ⟨ds, rest, e', -, -, ⟨-, rfl⟩ | ⟨more, -, hmore⟩⟩ :=
      parseGroups_cases h
    · rw [List.length_append, length_parseIPv4 hv4]
      exact hroom
    · exact Nat.le_trans (Nat.le_add_right _ _) (hgroup _)
    · exact ih hmore (hgroup _)

theorem length_expand {r : IP × Option Nat × Str} {ip : IP} (h : expand r = some ip)
    (hr : r.1.length ≤ 16) : ip.length = 16 := by
  unfold expand at h
  split at h
  · split at h
    · obtain ⟨k, -, rfl⟩ := Option.map_eq_some_iff.mp h
      simp only [List.length_append, List.length_take, List.length_replicate, List.length_drop]
      dsimp only at hr
      omega
    · split at h
      · cases h
      · cases h
        dsimp only at hr
        omega
  · cases h

theorem length_parseIPv6 {s : Str} {ip : IP} (h : parseIPv6 s = some ip) : ip.length = 16 := by
  have hread : ∀ {s : Str} {e : Option Nat}, (parseGroups 8 s [] e).bind expand = some ip →
      ip.length = 16 := by
    intro s e hs
    obtain ⟨r, hr, hip⟩ := Option.bind_eq_some_iff.mp hs
    exact length_expand hip (length_parseGroups hr (by simp))
  unfold parseIPv6 at h
  split at h
  · cases h
    rfl
  · exact hread h
  · exact hread h

/-- An address has four bytes or sixteen. -/
theorem length_parseAddr {s : Str} {a : Addr} (h : parseAddr s = some a) :
    a.bytes.length = 4 ∨ a.bytes.length = 16 := by
  unfold parseAddr at h
  split at h
  · obtain ⟨ip, hip, rfl⟩ := Option.map_eq_some_iff.mp h
    exact Or.inl (length_parseIPv4 hip)
  · split at h
    · obtain ⟨ip, hip, rfl⟩ := Option.map_eq_some_iff.mp h
      exact Or.inr (length_parseIPv6 hip)
    · cases h
    · obtain ⟨ip, hip, rfl⟩ := Option.map_eq_some_iff.mp h
      exact Or.inr (length_parseIPv6 hip)
  · cases h

theorem length_parseIP {s : Str} {ip : IP} (h : parseIP s = some ip) : ip.length = 16 := by
  unfold parseIP at h
  split at h
  · unfold to16 at h
    split at h
    · rename_i hlen
      cases h
      simp [v4InV6Prefix, hlen]
    · split at h
      · rename_i hlen
        cases h
        exact hlen
      · cases h
  · cases h

/-! ## Networks -/

/-- A `net.IPNet`. -/
structure IPNet where
  ip : IP
  mask : List UInt8
  deriving DecidableEq, Repr

/-- Byte `i` of a mask of `ones` leading ones. -/
def maskByte (ones i : Nat) : UInt8 :=
  if 8 * (i + 1) ≤ ones then 255
  else if ones ≤ 8 * i then 0
  else UInt8.ofNat (256 - 2 ^ (8 - (ones - 8 * i)))

/-- `net.CIDRMask` of `bytes` bytes. -/
def cidrMask (ones bytes : Nat) : List UInt8 := (List.range bytes).map (maskByte ones)

/-- The leading ones of a mask, as `IPMask.Size` counts them. -/
def maskOnes : List UInt8 → Nat
  | [] => 0
  | b :: rest =>
    if b = 255 then 8 + maskOnes rest
    else ((List.range 8).takeWhile (fun i => b.toNat.testBit (7 - i))).length

/-- `IP.Mask`, for an address and a mask of the same length. -/
def maskIP (ip : IP) (mask : List UInt8) : IP := List.zipWith (· &&& ·) ip mask

theorem and_255 (a : UInt8) : a &&& 255 = a := by
  apply UInt8.toNat_inj.mp
  rw [UInt8.toNat_and]
  exact Nat.and_two_pow_sub_one_of_lt_two_pow a.toNat_lt

theorem maskIP_ones (ip : IP) : maskIP ip (List.replicate ip.length 255) = ip := by
  induction ip with
  | nil => rfl
  | cons a ip ih =>
    rw [List.length_cons, List.replicate_succ]
    exact congrArg₂ List.cons (and_255 a) ih

theorem maskIP_zeros (ip : IP) :
    maskIP ip (List.replicate ip.length 0) = List.replicate ip.length 0 := by
  induction ip with
  | nil => rfl
  | cons a ip ih =>
    rw [List.length_cons, List.replicate_succ]
    exact congrArg₂ List.cons UInt8.and_zero ih

/-- `net.ParseCIDR`, the network alone. -/
def parseCIDR (s : Str) : Option IPNet := do
  let (addr, bits) ← cut s '/'
  let a ← parseAddr addr
  if a.zone ≠ [] ∨ bits = [] ∨ ¬ bits.all isDigit ∨ 8 * a.bytes.length < decimal bits then none
  else
    let mask := cidrMask (decimal bits) a.bytes.length
    some ⟨maskIP a.bytes mask, mask⟩

/-- A parsed network is a masked address, with a mask of the same length. -/
theorem parseCIDR_spec {s : Str} {n : IPNet} (h : parseCIDR s = some n) :
    ∃ ip ones, (ip.length = 4 ∨ ip.length = 16) ∧ ones ≤ 8 * ip.length ∧
      n = ⟨maskIP ip (cidrMask ones ip.length), cidrMask ones ip.length⟩ := by
  unfold parseCIDR at h
  simp only [Option.bind_eq_bind, Option.bind_eq_some_iff] at h
  obtain ⟨⟨addr, bits⟩, -, a, ha, h⟩ := h
  split at h
  · cases h
  · rename_i hbits
    simp only [not_or, Nat.not_lt] at hbits
    exact ⟨a.bytes, decimal bits, length_parseAddr ha, hbits.2.2.2, (Option.some.inj h).symm⟩

theorem length_parseCIDR {s : Str} {n : IPNet} (h : parseCIDR s = some n) :
    (n.ip.length = 4 ∨ n.ip.length = 16) ∧ n.mask.length = n.ip.length := by
  obtain ⟨ip, ones, hlen, -, rfl⟩ := parseCIDR_spec h
  simp [maskIP, cidrMask, hlen]

/-- `net.networkNumberAndMask`. -/
def networkNumberAndMask (n : IPNet) : IP × List UInt8 :=
  match to4 n.ip with
  | some ip => (ip, if n.mask.length = 16 then n.mask.drop 12 else n.mask)
  | none => (n.ip, n.mask)

/-- `IPNet.Contains`. -/
def netContains (n : IPNet) (ip : IP) : Bool :=
  let (nn, m) := networkNumberAndMask n
  let ip := (to4 ip).getD ip
  ip.length == nn.length && m.length == nn.length && maskIP nn m == maskIP ip m

/-- A network has its own address. -/
theorem netContains_self {n : IPNet} (hmask : n.mask.length = n.ip.length) :
    netContains n n.ip := by
  unfold netContains networkNumberAndMask
  cases h4 : to4 n.ip with
  | some a =>
    unfold to4 at h4
    split at h4
    · cases h4
      simp [*]
    · split at h4
      · cases h4
        simp [*]
      · cases h4
  | none => simp [hmask]

theorem length_to4 {ip a : IP} (h : to4 ip = some a) : a.length = 4 := by
  unfold to4 at h
  split at h
  · cases h
    assumption
  · split at h
    · rename_i hmapped
      cases h
      simp [hmapped.1]
    · cases h

theorem length_to16 {ip a : IP} (h : to16 ip = some a) : a.length = 16 := by
  unfold to16 at h
  split at h
  · rename_i h4
    cases h
    rw [List.length_append, h4]
    rfl
  · split at h
    · rename_i h16
      cases h
      exact h16
    · cases h

theorem to4_to16 {ip ip' : IP} (h : to16 ip = some ip') : to4 ip' = to4 ip := by
  unfold to16 at h
  split at h
  · rename_i hlen
    cases h
    simp [to4, hlen, v4InV6Prefix]
  · split at h
    · cases h
      rfl
    · cases h

/-- An address that is not IPv4 has its long form already. -/
theorem to16_of_to4_none {ip ip' : IP} (h : to16 ip = some ip') (h4 : to4 ip = none) : ip' = ip := by
  have hlen : ip.length ≠ 4 := by
    intro hlen
    simp [to4, hlen] at h4
  unfold to16 at h
  rw [if_neg hlen] at h
  split at h <;> simp_all

/-- A network has the long form of an address when it has the address. -/
theorem netContains_to16 {ip ip' : IP} (h : to16 ip = some ip') (n : IPNet) :
    netContains n ip' = netContains n ip := by
  unfold netContains
  rw [to4_to16 h]
  cases h4 : to4 ip with
  | some a => rfl
  | none =>
    rw [to16_of_to4_none h h4]

theorem isLoopback_to16 {ip ip' : IP} (h : to16 ip = some ip') : isLoopback ip' = isLoopback ip := by
  unfold isLoopback
  rw [to4_to16 h]
  cases h4 : to4 ip with
  | some a => rfl
  | none => rw [to16_of_to4_none h h4]

/-! ## Zones -/

theorem mem_parseIPv4 {s : Str} {ip : IP} (h : parseIPv4 s = some ip) {c : Char} (hc : c ∈ s) :
    isDigit c ∨ c = '.' := by
  have hoctet : ∀ {part : Str} {b : UInt8}, parseOctet part = some b → ∀ d ∈ part, isDigit d := by
    intro part b hpart d hd
    unfold parseOctet at hpart
    split at hpart
    · cases hpart
    · rename_i hdigits
      simp only [not_or, not_not] at hdigits
      exact List.all_eq_true.mp hdigits.2 d hd
  unfold parseIPv4 at h
  split at h
  · rename_i w x y z hsplit
    obtain ⟨_, hw, h⟩ := Option.bind_eq_some_iff.mp h
    obtain ⟨_, hx, h⟩ := Option.bind_eq_some_iff.mp h
    obtain ⟨_, hy, h⟩ := Option.bind_eq_some_iff.mp h
    obtain ⟨_, hz, -⟩ := Option.bind_eq_some_iff.mp h
    have hs : ['.'].intercalate [w, x, y, z] = s := hsplit ▸ List.intercalate_splitOn '.'
    rw [← hs] at hc
    simp only [List.intercalate, List.intersperse_cons_cons, List.intersperse_singleton,
      List.flatten_cons, List.flatten_nil, List.append_nil, List.mem_append,
      List.mem_singleton] at hc
    rcases hc with hc | rfl | hc | rfl | hc | rfl | hc
    · exact .inl (hoctet hw c hc)
    · exact .inr rfl
    · exact .inl (hoctet hx c hc)
    · exact .inr rfl
    · exact .inl (hoctet hy c hc)
    · exact .inr rfl
    · exact .inl (hoctet hz c hc)
  · cases h

/-- `ParseIP` takes no zone. -/
theorem parseIP_of_zone {s : Str} (h : '%' ∈ s) : parseIP s = none := by
  unfold parseIP
  split
  · rename_i ip haddr
    exfalso
    unfold parseAddr at haddr
    split at haddr
    · obtain ⟨ip', hip, -⟩ := Option.map_eq_some_iff.mp haddr
      rcases mem_parseIPv4 hip h with hdigit | hdot
      · exact absurd hdigit (by decide)
      · cases hdot
    · split at haddr
      · rename_i hcut
        simp [cut, h] at hcut
      · cases haddr
      · rename_i hne hcut
        obtain ⟨_, _, heq⟩ := Option.map_eq_some_iff.mp haddr
        exact hne (Addr.mk.inj heq).2
    · cases haddr
  · rfl

/-- Without a zone, `ParseIP` takes what `ParseAddr` takes. -/
theorem parseIP_of_plain {s : Str} {a : Addr} (h : '%' ∉ s) (haddr : parseAddr s = some a) :
    parseIP s = to16 a.bytes := by
  have hzone : a.zone = [] := by
    unfold parseAddr at haddr
    split at haddr
    · obtain ⟨ip, -, rfl⟩ := Option.map_eq_some_iff.mp haddr
      rfl
    · split at haddr
      · obtain ⟨ip, -, rfl⟩ := Option.map_eq_some_iff.mp haddr
        rfl
      · cases haddr
      · rename_i hcut
        simp [cut, h] at hcut
    · cases haddr
  obtain ⟨ip, zone⟩ := a
  obtain rfl : zone = [] := hzone
  unfold parseIP
  rw [haddr]

/-! ## The characters of an address -/

theorem isHex_of_isDigit {c : Char} (h : isDigit c) : isHex c := by simp [isHex, hexVal, h]

theorem mem_parseGroups {n : Nat} {s : Str} {acc : IP} {e : Option Nat}
    {r : IP × Option Nat × Str} (h : parseGroups n s acc e = some r) {c : Char} (hc : c ∈ s) :
    c ∈ r.2.2 ∨ isHex c ∨ c = ':' ∨ c = '.' := by
  induction n generalizing s acc e with
  | zero =>
    obtain rfl := Option.some.inj h
    exact .inl hc
  | succ n ih =>
    obtain ⟨v4, hv4, -, -⟩ | ⟨ds, rest, e', rfl, hds, hcases⟩ := parseGroups_cases h
    · rcases mem_parseIPv4 hv4 hc with hdigit | hdot
      · exact .inr (.inl (isHex_of_isDigit hdigit))
      · exact .inr (.inr (.inr hdot))
    rcases List.mem_append.mp hc with hc | hc
    · exact .inr (.inl (hds c hc))
    obtain ⟨rfl | rfl, -⟩ | ⟨more, rfl | rfl, hmore⟩ := hcases
    · cases hc
    · exact .inr (.inr (.inl (by simpa using hc)))
    · rcases List.mem_cons.mp hc with hc | hc
      · exact .inr (.inr (.inl hc))
      · exact ih hmore hc
    · rw [List.mem_cons, List.mem_cons, ← or_assoc, or_self] at hc
      rcases hc with hc | hc
      · exact .inr (.inr (.inl hc))
      · exact ih hmore hc

theorem mem_parseIPv6 {s : Str} {ip : IP} (h : parseIPv6 s = some ip) {c : Char} (hc : c ∈ s) :
    isHex c ∨ c = ':' ∨ c = '.' := by
  have hread : ∀ {t : Str} {e : Option Nat}, (parseGroups 8 t [] e).bind expand = some ip →
      c ∈ t → isHex c ∨ c = ':' ∨ c = '.' := by
    intro t e ht hmem
    obtain ⟨⟨acc, e', rest⟩, hr, hip⟩ := Option.bind_eq_some_iff.mp ht
    unfold expand at hip
    split at hip
    · rename_i hnil
      obtain ⟨-, -, rfl⟩ := Prod.mk.injEq .. ▸ hnil
      exact (mem_parseGroups hr hmem).resolve_left List.not_mem_nil
    · cases hip
  unfold parseIPv6 at h
  split at h
  · simp only [List.mem_cons, List.not_mem_nil, or_false, or_self] at hc
    exact .inr (.inl hc)
  · rw [List.mem_cons, List.mem_cons] at hc
    rcases hc with hc | hc | hc
    · exact .inr (.inl hc)
    · exact .inr (.inl hc)
    · exact hread h hc
  · exact hread h hc

/-- The text of an address is of hexadecimal digits, colons and dots. -/
theorem mem_parseIP {s : Str} {ip : IP} (h : parseIP s = some ip) {c : Char} (hc : c ∈ s) :
    isHex c ∨ c = ':' ∨ c = '.' := by
  have hzone : '%' ∉ s := by
    intro hmem
    rw [parseIP_of_zone hmem] at h
    cases h
  obtain ⟨b, hb, -⟩ := parseAddr_of_parseIP h
  unfold parseAddr at hb
  split at hb
  · obtain ⟨ip', hip, -⟩ := Option.map_eq_some_iff.mp hb
    rcases mem_parseIPv4 hip hc with hdigit | hdot
    · exact .inl (isHex_of_isDigit hdigit)
    · exact .inr (.inr hdot)
  · split at hb
    · obtain ⟨ip', hip, -⟩ := Option.map_eq_some_iff.mp hb
      exact mem_parseIPv6 hip hc
    · cases hb
    · rename_i hcut
      simp [cut, hzone] at hcut
  · cases hb

theorem slash_notMem_of_parseIP {s : Str} {ip : IP} (h : parseIP s = some ip) : '/' ∉ s := by
  intro hmem
  exact absurd (mem_parseIP h hmem) (by decide)

/-! ## Socket addresses -/

/-- A `net.TCPAddr` or `net.UDPAddr` without a zone. -/
structure SocketAddr where
  ip : IP
  port : UInt16
  deriving DecidableEq, Repr

/-! ## The text host:port -/

/-- `net.JoinHostPort`. -/
def joinHostPort (host port : Str) : Str :=
  if ':' ∈ host then '[' :: host ++ ("]:" : Str) ++ port else host ++ ':' :: port

/-- `net.SplitHostPort`; an error is `none`. -/
def splitHostPort (s : Str) : Option (Str × Str) :=
  match lastIndex s ':' with
  | none => none
  | some i =>
    if s.head? = some '[' then
      let close := s.idxOf ']'
      if close + 1 ≠ i ∨ '[' ∈ s.drop 1 ∨ ']' ∈ s.drop (close + 1) then none
      else some ((s.take close).drop 1, s.drop (i + 1))
    else if ':' ∈ s.take i ∨ '[' ∈ s ∨ ']' ∈ s then none
    else some (s.take i, s.drop (i + 1))

/-- A host without brackets. -/
def Plain (host : Str) : Prop := '[' ∉ host ∧ ']' ∉ host

instance (host : Str) : Decidable (Plain host) := inferInstanceAs (Decidable (_ ∧ _))

/-- The two forms of a text that is split. -/
theorem splitHostPort_eq_some {s host port : Str} (h : splitHostPort s = some (host, port)) :
    Plain host ∧ Plain port ∧ ':' ∉ port ∧
      (s = ('[' :: host ++ [']']) ++ ':' :: port ∨ s = host ++ ':' :: port) := by
  unfold splitHostPort at h
  split at h
  · cases h
  rename_i i hlast
  obtain ⟨a, b, rfl, hcolon, rfl⟩ := lastIndex_eq_some hlast
  dsimp only at h
  split at h
  · rename_i hhead
    split at h
    · cases h
    · rename_i hok
      simp only [not_or, ne_eq, not_not] at hok
      obtain ⟨hclose, hopen, hrest⟩ := hok
      obtain ⟨rfl, rfl⟩ := Prod.mk.inj (Option.some.inj h)
      have hmem : ']' ∈ a ++ ':' :: b := by
        rw [← List.idxOf_lt_length_iff]
        simp only [List.length_append, List.length_cons]
        omega
      -- The text before the first closing bracket is the opening one and the host.
      obtain ⟨p, q, hpq, hp⟩ := List.eq_append_cons_of_mem hmem
      have hidx : (a ++ ':' :: b).idxOf ']' = p.length := by
        rw [hpq, List.idxOf_append_of_notMem hp, List.idxOf_cons_self, Nat.add_zero]
      rw [hidx] at hclose hrest ⊢
      obtain ⟨rfl, -⟩ : a = p ++ [']'] ∧ ':' :: b = q := by
        apply List.append_inj
        · simpa using hpq
        · simpa using hclose.symm
      cases p with
      | nil => simp at hhead
      | cons c host =>
        obtain rfl : c = '[' := by simpa using hhead
        simp at hp hopen hrest
        simp [Plain, hp, hopen, hrest, hcolon]
  · split at h
    · cases h
    · rename_i hok
      simp only [not_or] at hok
      obtain ⟨hhost, hopen, hclose⟩ := hok
      obtain ⟨rfl, rfl⟩ := Prod.mk.inj (Option.some.inj h)
      simp at hopen hclose
      simp [Plain, hopen, hclose, hcolon]

/-- A host that was split off has no brackets. -/
theorem plain_splitHostPort {s host port : Str} (h : splitHostPort s = some (host, port)) :
    Plain host :=
  (splitHostPort_eq_some h).1

/-- Host and port are parts of the text. -/
theorem mem_splitHostPort {s host port : Str} (h : splitHostPort s = some (host, port))
    {c : Char} (hc : c ∈ host ∨ c ∈ port) : c ∈ s := by
  obtain ⟨-, -, -, rfl | rfl⟩ := splitHostPort_eq_some h
  · rcases hc with hc | hc <;> simp [hc]
  · rcases hc with hc | hc <;> simp [hc]

theorem colon_of_splitHostPort {s host port : Str} (h : splitHostPort s = some (host, port)) :
    ':' ∈ s := by
  obtain ⟨-, -, -, rfl | rfl⟩ := splitHostPort_eq_some h <;> simp

theorem splitHostPort_brackets {host port : Str} (hhost : Plain host) (hport : Plain port)
    (hcolon : ':' ∉ port) :
    splitHostPort ('[' :: host ++ ("]:" : Str) ++ port) = some (host, port) := by
  obtain ⟨hopen, hclose⟩ := hhost
  obtain ⟨hopen', hclose'⟩ := hport
  have htext : '[' :: host ++ ("]:" : Str) ++ port = ('[' :: host ++ [']']) ++ ':' :: port := by
    simp
  have hidx : (('[' :: host ++ [']']) ++ ':' :: port).idxOf ']' = host.length + 1 := by
    rw [List.append_assoc, List.idxOf_append_of_notMem (by simpa using hclose)]
    simp
  unfold splitHostPort
  rw [htext, lastIndex_append _ _ _ hcolon]
  dsimp only
  rw [if_pos (by simp), hidx, if_neg]
  · simp
  · simp [hopen, hopen', hclose']

theorem splitHostPort_colon {host port : Str} (hhost : Plain host) (hport : Plain port)
    (hcolon' : ':' ∉ host) (hcolon : ':' ∉ port) :
    splitHostPort (host ++ ':' :: port) = some (host, port) := by
  obtain ⟨hopen, hclose⟩ := hhost
  obtain ⟨hopen', hclose'⟩ := hport
  have hhead : (host ++ ':' :: port).head? ≠ some '[' := by
    cases host with
    | nil => simp
    | cons c rest =>
      simp only [List.mem_cons, not_or] at hopen
      simpa using Ne.symm hopen.1
  unfold splitHostPort
  rw [lastIndex_append _ _ _ hcolon]
  dsimp only
  rw [if_neg hhead, if_neg]
  · simp
  · simp [hcolon', hopen, hopen', hclose, hclose']

/-- A host with a colon and without brackets is not split off. -/
theorem splitHostPort_colons {host port : Str} (hhost : Plain host) (hcolon' : ':' ∈ host)
    (hcolon : ':' ∉ port) : splitHostPort (host ++ ':' :: port) = none := by
  have hhead : (host ++ ':' :: port).head? ≠ some '[' := by
    cases host with
    | nil => simp
    | cons c rest =>
      have hopen := hhost.1
      simp only [List.mem_cons, not_or] at hopen
      simpa using Ne.symm hopen.1
  unfold splitHostPort
  rw [lastIndex_append _ _ _ hcolon]
  dsimp only
  rw [if_neg hhead, if_pos]
  exact Or.inl (by simpa using hcolon')

theorem splitHostPort_joinHostPort {host port : Str} (hhost : Plain host) (hport : Plain port)
    (hcolon : ':' ∉ port) : splitHostPort (joinHostPort host port) = some (host, port) := by
  unfold joinHostPort
  split
  · exact splitHostPort_brackets hhost hport hcolon
  · rename_i hplain
    exact splitHostPort_colon hhost hport hplain hcolon

/-- The text of a number has neither brackets nor a colon. -/
theorem plain_itoa (n : Nat) : Plain (itoa n) ∧ ':' ∉ itoa n := by
  have hdigit : ∀ c ∈ itoa n, c.isDigit := fun _ h =>
    Nat.isDigit_of_mem_toDigits (by decide) (by decide) h
  refine ⟨⟨fun h => ?_, fun h => ?_⟩, fun h => ?_⟩ <;> exact absurd (hdigit _ h) (by decide)

end go.net
