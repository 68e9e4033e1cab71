-- The fake-IP pool. A new domain takes the next address of the pool, and after the
-- last address the cursor starts over. The log of the domains in the order of their
-- first query says what both maps hold, so the laws below hold for every run.
import Vproxy.AddrNumbers
import Vproxy.Runs
import Vproxy.CyclicSlots
import Vproxy.Words
import Mathlib.Logic.Function.Basic

open go go.net runs cyclic_slots words

namespace vproxy.dns

/-! ## The pool -/

def uint32ToIP (v : UInt32) : IP :=
  [UInt8.ofNat (v.toNat / 2 ^ 24), UInt8.ofNat (v.toNat / 2 ^ 16),
    UInt8.ofNat (v.toNat / 2 ^ 8), UInt8.ofNat v.toNat]

structure FakeIPPool where
  subnet : IPNet
  minIP : UInt32
  maxIP : UInt32
  current : UInt32
  ipToDomain : UInt32 → Option Str
  domainToIP : Str → Option UInt32

/-- `NewFakeIPPool`. The shift drops the bit that leaves the 32-bit word. -/
def newFakeIPPool (cidr : Str) : Option FakeIPPool := do
  let ipnet ← parseCIDR cidr
  let ones := maskOnes ipnet.mask
  let bits := 8 * ipnet.mask.length
  let total := UInt32.ofNat (2 ^ (bits - ones))
  let minIP := beUint32 ipnet.ip
  some
    { subnet := ipnet
      minIP := minIP + 2 -- skip network and .1
      maxIP := minIP + total - 2
      current := minIP + 2
      ipToDomain := fun _ => none
      domainToIP := fun _ => none }

def FakeIPPool.getIP (p : FakeIPPool) (domain : Str) : IP × FakeIPPool :=
  match p.domainToIP domain with
  | some ip => (uint32ToIP ip, p)
  | none =>
    let ip := p.current
    let next := p.current + 1
    (uint32ToIP ip,
      { p with
        current := if next > p.maxIP then p.minIP else next
        domainToIP := Function.update p.domainToIP domain (some ip)
        ipToDomain := Function.update p.ipToDomain ip (some domain) })

/-- `GetDomain`; an address without a domain gives the empty string. The callers pass an
address of the pool, so `To4` gives its four bytes. -/
def FakeIPPool.getDomain (p : FakeIPPool) (ip : IP) : Str :=
  (p.ipToDomain (beUint32 ((to4 ip).getD []))).getD []

def FakeIPPool.isFakeIP (p : FakeIPPool) (ip : IP) : Bool := netContains p.subnet ip

/-- The pool after the queries of the list, in order. -/
def FakeIPPool.queried (p : FakeIPPool) (ds : List Str) : FakeIPPool :=
  run (fun p d => (p.getIP d).2) p ds

/-- The two maps are inverse to each other. -/
def FakeIPPool.Inverse (p : FakeIPPool) : Prop :=
  ∀ d ip, p.domainToIP d = some ip ↔ p.ipToDomain ip = some d

/-- A query and the reverse lookup of its answer give the domain back. -/
def FakeIPPool.RoundTrips (p : FakeIPPool) : Prop :=
  ∀ d, (p.getIP d).2.getDomain (p.getIP d).1 = d

/-! ## Words and bytes -/

theorem beUint32_uint32ToIP (v : UInt32) : beUint32 (uint32ToIP v) = v := by
  apply UInt32.toNat_inj.mp
  have hv := v.toNat_lt
  rw [uint32ToIP, toNat_beUint32]
  simp only [UInt8.toNat_ofNat']
  omega

theorem to4_uint32ToIP (v : UInt32) : to4 (uint32ToIP v) = some (uint32ToIP v) := by
  simp [to4, uint32ToIP]

/-- The reverse lookup of an answer reads the slot that the answer came from. -/
theorem getDomain_uint32ToIP (p : FakeIPPool) (v : UInt32) :
    p.getDomain (uint32ToIP v) = (p.ipToDomain v).getD [] := by
  simp [FakeIPPool.getDomain, to4_uint32ToIP, beUint32_uint32ToIP]

/-! ## The pool holds the log -/

/-- The addresses that the pool hands out. -/
def FakeIPPool.size (p : FakeIPPool) : Nat := p.maxIP.toNat + 1 - p.minIP.toNat

/-- The range of the pool is not empty and ends before the last 32-bit word. -/
structure FakeIPPool.Sound (p : FakeIPPool) : Prop where
  min_le : p.minIP.toNat ≤ p.maxIP.toNat
  max_lt : p.maxIP.toNat < 2 ^ 32 - 1

/-- The address of slot `s`. -/
def FakeIPPool.addr (p : FakeIPPool) (s : Nat) : UInt32 := p.minIP + UInt32.ofNat s

/-- The slot of an address. -/
def FakeIPPool.slot (p : FakeIPPool) (ip : UInt32) : Nat := (ip - p.minIP).toNat

/-- The pool `p` came from `p0` by the queries of the log. -/
structure Holds (p0 : FakeIPPool) (log : List Str) (p : FakeIPPool) : Prop where
  min_eq : p.minIP = p0.minIP
  max_eq : p.maxIP = p0.maxIP
  nodup : log.Nodup
  current_eq : p.current = p0.addr (log.length % p0.size)
  forward : ∀ d, p.domainToIP d = (slotOf p0.size log d).map p0.addr
  backward : ∀ ip, p.ipToDomain ip = owner p0.size log (p0.slot ip)

section

variable {p0 p : FakeIPPool} {log : List Str}

theorem size_pos (h : p0.Sound) : 0 < p0.size := by
  have := h.min_le
  unfold FakeIPPool.size
  omega

theorem toNat_addr (h : p0.Sound) {s : Nat} (hs : s < p0.size) :
    (p0.addr s).toNat = p0.minIP.toNat + s := by
  have := h.max_lt
  unfold FakeIPPool.size at hs
  unfold FakeIPPool.addr
  rw [UInt32.toNat_add, UInt32.toNat_ofNat']
  omega

theorem slot_addr (h : p0.Sound) {s : Nat} (hs : s < p0.size) : p0.slot (p0.addr s) = s := by
  have := h.max_lt
  unfold FakeIPPool.size at hs
  unfold FakeIPPool.slot FakeIPPool.addr
  rw [UInt32.add_comm, UInt32.add_sub_cancel, UInt32.toNat_ofNat']
  omega

/-- Slot and address determine each other. -/
theorem slot_eq_iff (h : p0.Sound) {s : Nat} (hs : s < p0.size) (ip : UInt32) :
    s = p0.slot ip ↔ ip = p0.addr s := by
  constructor
  · rintro rfl
    simp [FakeIPPool.slot, FakeIPPool.addr, UInt32.add_comm p0.minIP]
  · rintro rfl
    exact (slot_addr h hs).symm

theorem addr_injective (h : p0.Sound) {s t : Nat} (hs : s < p0.size) (ht : t < p0.size)
    (heq : p0.addr s = p0.addr t) : s = t := by
  rw [← slot_addr h hs, heq, slot_addr h ht]

/-- The cursor after slot `s` is at the next slot of the ring. -/
theorem next_addr (h : p0.Sound) {s : Nat} (hs : s < p0.size) :
    (if p0.addr s + 1 > p0.maxIP then p0.minIP else p0.addr s + 1) =
      p0.addr ((s + 1) % p0.size) := by
  have hmax := h.max_lt
  have haddr := toNat_addr h hs
  have hnext : (p0.addr s + 1).toNat = p0.minIP.toNat + s + 1 := by
    unfold FakeIPPool.size at hs
    rw [UInt32.toNat_add, haddr]
    simp only [UInt32.toNat_one]
    omega
  by_cases hlast : s + 1 = p0.size
  · rw [hlast, Nat.mod_self, if_pos]
    · simp [FakeIPPool.addr]
    · rw [gt_iff_lt, UInt32.lt_iff_toNat_lt, hnext]
      unfold FakeIPPool.size at hlast
      omega
  · have hlt : s + 1 < p0.size := by omega
    rw [Nat.mod_eq_of_lt hlt, if_neg]
    · apply UInt32.toNat_inj.mp
      rw [hnext, toNat_addr h hlt]
      omega
    · rw [gt_iff_lt, UInt32.lt_iff_toNat_lt, hnext]
      unfold FakeIPPool.size at hlt
      omega

/-- One query keeps the pool in step with the log. -/
theorem getIP_holds (h : p0.Sound) (hp : Holds p0 log p) (d : Str) :
    Holds p0 (seen log d) (p.getIP d).2 := by
  unfold FakeIPPool.getIP seen
  rw [hp.forward d]
  by_cases hd : d ∈ log
  · obtain ⟨s, hs⟩ := Option.isSome_iff_exists.mp (slotOf_isSome (n := p0.size) |>.mpr hd)
    simpa [hs, hd] using hp
  · have hnone : slotOf p0.size log d = none := by
      rw [← Option.not_isSome_iff_eq_none, slotOf_isSome]
      exact hd
    have hlt := Nat.mod_lt log.length (size_pos h)
    simp only [hnone, Option.map_none, hd, if_false]
    refine ⟨hp.min_eq, hp.max_eq, List.nodup_cons.mpr ⟨hd, hp.nodup⟩, ?_, ?_, ?_⟩
    · rw [hp.current_eq, hp.min_eq, hp.max_eq, next_addr h hlt, List.length_cons,
        Nat.mod_add_mod]
    · intro e
      unfold slotOf
      dsimp only
      by_cases hde : d = e
      · simp [hde, hp.current_eq]
      · rw [Function.update_of_ne (Ne.symm hde), if_neg hde]
        exact hp.forward e
    · intro ip
      unfold owner
      dsimp only
      rw [hp.current_eq]
      by_cases hip : ip = p0.addr (log.length % p0.size)
      · rw [hip, Function.update_self, slot_addr h hlt, if_pos rfl]
      · rw [Function.update_of_ne hip, if_neg (fun hs => hip ((slot_eq_iff h hlt ip).mp hs))]
        exact hp.backward ip

theorem queried_holds (h : p0.Sound) (hp : Holds p0 log p) (ds : List Str) :
    Holds p0 (ds.foldl seen log) (p.queried ds) := by
  induction ds generalizing p log with
  | nil => exact hp
  | cons d rest ih => exact ih (getIP_holds h hp d)

/-- The maps of the pool are inverse when slots and owners of the log are. -/
theorem inverse_iff_log (h : p0.Sound) (hp : Holds p0 log p) :
    p.Inverse ↔ cyclic_slots.Inverse p0.size log := by
  constructor
  · intro hi d s
    have hfwd := hp.forward d
    constructor
    · intro hs
      have hlt := slotOf_lt (size_pos h) hs
      rw [hs, Option.map_some] at hfwd
      have hback := (hi d _).mp hfwd
      rwa [hp.backward, slot_addr h hlt] at hback
    · intro hs
      have hlt : s < p0.size := owner_lt (size_pos h) hs
      have hback : p.ipToDomain (p0.addr s) = some d := by
        rw [hp.backward, slot_addr h hlt]
        exact hs
      have hd := (hi d _).mpr hback
      rw [hfwd, Option.map_eq_some_iff] at hd
      obtain ⟨t, ht, hts⟩ := hd
      rw [ht, addr_injective h (slotOf_lt (size_pos h) ht) hlt hts]
  · intro hi d ip
    rw [hp.forward, hp.backward, ← hi d, Option.map_eq_some_iff]
    constructor
    · rintro ⟨s, hs, rfl⟩
      rw [slot_addr h (slotOf_lt (size_pos h) hs)]
      exact hs
    · intro hs
      exact ⟨_, hs, ((slot_eq_iff h (slotOf_lt (size_pos h) hs) ip).mp rfl).symm⟩

/-- With inverse maps, the reverse lookup of an answer gives the domain back. -/
theorem roundTrips_of_inverse (hi : p.Inverse) : p.RoundTrips := by
  intro d
  unfold FakeIPPool.getIP
  cases hd : p.domainToIP d with
  | some ip =>
    simp only
    rw [getDomain_uint32ToIP, (hi d ip).mp hd, Option.getD_some]
  | none =>
    simp only
    rw [getDomain_uint32ToIP]
    simp

end

/-! ## The range of an IPv4 pool -/

/-- The low bits that a mask clears are clear. -/
theorem toNat_and_mod {b m : UInt8} {k : Nat} (h : m.toNat % 2 ^ k = 0) :
    (b &&& m).toNat % 2 ^ k = 0 := by
  rw [UInt8.toNat_and, Nat.and_mod_two_pow, h, Nat.and_zero]

/-- The bits of byte `i` that the mask clears. -/
theorem maskByte_mod (ones i : Nat) : (maskByte ones i).toNat % 2 ^ (8 - (ones - 8 * i)) = 0 := by
  unfold maskByte
  split
  · have hnone : 8 - (ones - 8 * i) = 0 := by omega
    rw [hnone, Nat.pow_zero, Nat.mod_one]
  · split
    · exact Nat.zero_mod _
    · have hk : 8 - (ones - 8 * i) ≤ 8 := by omega
      have hpos := Nat.two_pow_pos (8 - (ones - 8 * i))
      generalize 8 - (ones - 8 * i) = k at hk hpos ⊢
      have hdvd : 2 ^ k ∣ 256 := Nat.pow_dvd_pow 2 hk
      have hlt : 256 - 2 ^ k < 2 ^ 8 := Nat.sub_lt (by decide) hpos
      rw [UInt8.toNat_ofNat', Nat.mod_eq_of_lt hlt]
      exact Nat.mod_eq_zero_of_dvd (Nat.dvd_sub hdvd (Nat.dvd_refl _))

/-- A byte whose low bits are clear, at its place in the word. -/
theorem size_dvd_byte {ones i x : Nat} (hi : i < 4) (hx : x < 2 ^ 8)
    (h : x % 2 ^ (8 - (ones - 8 * i)) = 0) : 2 ^ (32 - ones) ∣ 2 ^ (24 - 8 * i) * x := by
  rcases Nat.lt_or_ge (8 * i) ones with hlt | hge
  · have hexp : 32 - ones ≤ 24 - 8 * i + (8 - (ones - 8 * i)) := by omega
    refine Nat.dvd_trans (Nat.pow_dvd_pow 2 hexp) ?_
    rw [Nat.pow_add]
    exact Nat.mul_dvd_mul_left _ (Nat.dvd_of_mod_eq_zero h)
  · have hall : 8 - (ones - 8 * i) = 8 := by omega
    rw [hall, Nat.mod_eq_of_lt hx] at h
    rw [h, Nat.mul_zero]
    exact Nat.dvd_zero _

/-- The network address is a multiple of the size of the network. -/
theorem network_mod (ones : Nat) (a b c d : UInt8) :
    (beUint32 (maskIP [a, b, c, d] (cidrMask ones 4))).toNat % 2 ^ (32 - ones) = 0 := by
  have hword : maskIP [a, b, c, d] (cidrMask ones 4) =
      [a &&& maskByte ones 0, b &&& maskByte ones 1, c &&& maskByte ones 2,
        d &&& maskByte ones 3] := rfl
  have hbyte : ∀ (x : UInt8) (i : Nat), i < 4 →
      2 ^ (32 - ones) ∣ 2 ^ (24 - 8 * i) * (x &&& maskByte ones i).toNat := fun x i hi =>
    size_dvd_byte hi (UInt8.toNat_lt _) (toNat_and_mod (maskByte_mod ones i))
  have hlast := hbyte d 3 (by decide)
  rw [Nat.pow_zero, Nat.one_mul] at hlast
  have hsum := Nat.dvd_add (Nat.dvd_add (Nat.dvd_add (hbyte a 0 (by decide))
    (hbyte b 1 (by decide))) (hbyte c 2 (by decide))) hlast
  rw [hword, toNat_beUint32]
  exact Nat.mod_eq_zero_of_dvd hsum

/-- The first and the last address of an IPv4 pool. -/
theorem newFakeIPPool_range {cidr : Str} {p : FakeIPPool} (h : newFakeIPPool cidr = some p)
    (h4 : p.subnet.mask.length = 4) (hones : maskOnes p.subnet.mask ≤ 30) :
    ∃ base, base = (beUint32 p.subnet.ip).toNat ∧
      base + 2 ^ (32 - maskOnes p.subnet.mask) ≤ 2 ^ 32 ∧ p.minIP.toNat = base + 2 ∧
      p.maxIP.toNat = base + 2 ^ (32 - maskOnes p.subnet.mask) - 2 := by
  unfold newFakeIPPool at h
  simp only [Option.bind_eq_bind, Option.bind_eq_some_iff, Option.some.injEq] at h
  obtain ⟨n, hn, rfl⟩ := h
  obtain ⟨ip, ones, -, hle, rfl⟩ := parseCIDR_spec hn
  simp only [cidrMask, List.length_map, List.length_range] at h4
  obtain ⟨a, b, c, d, rfl⟩ : ∃ a b c d, ip = [a, b, c, d] := List.length_eq_four.mp h4
  have hmask : maskOnes (cidrMask ones 4) = ones := maskOnes_cidrMask hle
  simp only [List.length_cons, List.length_nil, Nat.zero_add, Nat.reduceAdd, hmask] at hones ⊢
  have hmod := network_mod ones a b c d
  have hlt := (beUint32 (maskIP [a, b, c, d] (cidrMask ones 4))).toNat_lt
  have hbits : 8 * (cidrMask ones 4).length = 32 := by simp [cidrMask]
  rw [hbits]
  generalize beUint32 (maskIP [a, b, c, d] (cidrMask ones 4)) = base at *
  refine ⟨base.toNat, rfl, ?_⟩
  rw [UInt32.toNat_sub, UInt32.toNat_add, UInt32.toNat_add, UInt32.toNat_ofNat']
  simp only [UInt32.toNat_ofNat]
  have hsize : 2 ^ 2 ≤ 2 ^ (32 - ones) := Nat.pow_le_pow_right (by decide) (by omega)
  have hfits : 2 ^ (32 - ones) ≤ 2 ^ 32 - base.toNat :=
    Nat.le_of_dvd (Nat.sub_pos_of_lt hlt)
      (Nat.dvd_sub (Nat.pow_dvd_pow 2 (by omega)) (Nat.dvd_of_mod_eq_zero hmod))
  generalize 2 ^ (32 - ones) = size at hsize hfits ⊢
  omega

theorem newFakeIPPool_sound {cidr : Str} {p : FakeIPPool} (h : newFakeIPPool cidr = some p)
    (h4 : p.subnet.mask.length = 4) (hones : maskOnes p.subnet.mask ≤ 30) :
    p.Sound ∧ p.size = 2 ^ (32 - maskOnes p.subnet.mask) - 3 := by
  obtain ⟨base, -, hle, hmin, hmax⟩ := newFakeIPPool_range h h4 hones
  have hpow : 2 ^ 2 ≤ 2 ^ (32 - maskOnes p.subnet.mask) :=
    Nat.pow_le_pow_right (by omega) (by omega)
  refine ⟨⟨?_, ?_⟩, ?_⟩
  · omega
  · omega
  · unfold FakeIPPool.size
    omega

/-- A new pool holds the empty log. -/
theorem newFakeIPPool_holds {cidr : Str} {p : FakeIPPool} (h : newFakeIPPool cidr = some p) :
    Holds p [] p := by
  unfold newFakeIPPool at h
  simp only [Option.bind_eq_bind, Option.bind_eq_some_iff, Option.some.injEq] at h
  obtain ⟨n, -, rfl⟩ := h
  refine ⟨rfl, rfl, List.nodup_nil, ?_, fun _ => rfl, fun _ => rfl⟩
  simp [FakeIPPool.addr]

/-! ## The law of the pool -/

/-- The maps stay inverse, and answers lead back, exactly as long as the pool has had no more
domains than addresses. One more domain takes an address without taking it from its owner. -/
theorem pool_is_bijection_until_the_wrap {cidr : Str} {p : FakeIPPool} (ds : List Str)
    (h : newFakeIPPool cidr = some p) (h4 : p.subnet.mask.length = 4)
    (hones : maskOnes p.subnet.mask ≤ 30) :
    ((p.queried ds).Inverse ∧ (p.queried ds).RoundTrips) ↔
      ds.dedup.length ≤ 2 ^ (32 - maskOnes p.subnet.mask) - 3 := by
  obtain ⟨hsound, hsize⟩ := newFakeIPPool_sound h h4 hones
  have hp := queried_holds hsound (newFakeIPPool_holds h) ds
  rw [← hsize, ← length_logOf ds]
  have hlog : (p.queried ds).Inverse ↔ (logOf ds).length ≤ p.size :=
    (inverse_iff_log hsound hp).trans (inverse_iff (size_pos hsound) hp.nodup)
  constructor
  · intro hi
    exact hlog.mp hi.1
  · intro hl
    have hi := hlog.mpr hl
    exact ⟨hi, roundTrips_of_inverse hi⟩

/-- A /29 pool has five addresses, so three queries of two domains keep it a bijection. -/
theorem small_pool_is_bijection :
    ∃ p, newFakeIPPool "10.0.0.0/29" = some p ∧
      (p.queried ["a.com", "b.com", "a.com"]).Inverse ∧
      (p.queried ["a.com", "b.com", "a.com"]).RoundTrips := by
  obtain ⟨p, hp⟩ : ∃ p, newFakeIPPool "10.0.0.0/29" = some p := ⟨_, rfl⟩
  have hmask : p.subnet.mask = [255, 255, 255, 248] := by
    cases hp
    decide
  refine ⟨p, hp, (pool_is_bijection_until_the_wrap _ hp ?_ ?_).mpr ?_⟩
  all_goals
    rw [hmask]
    decide

/-- In a /30 pool the second domain takes the address of the first, whose own entry stays. -/
theorem second_domain_takes_the_address :
    ∃ p, newFakeIPPool "10.0.0.0/30" = some p ∧
      ¬ (p.queried ["a.com", "b.com"]).Inverse ∧
      (p.queried ["a.com", "b.com"]).domainToIP "a.com" = some 0x0a000002 ∧
      (p.queried ["a.com", "b.com"]).getDomain [10, 0, 0, 2] = ("b.com" : Str) := by
  obtain ⟨p, hp⟩ : ∃ p, newFakeIPPool "10.0.0.0/30" = some p := ⟨_, rfl⟩
  have hfwd : (p.queried ["a.com", "b.com"]).domainToIP "a.com" = some 0x0a000002 := by
    cases hp
    decide
  have hback : (p.queried ["a.com", "b.com"]).ipToDomain 0x0a000002 = some ("b.com" : Str) := by
    cases hp
    decide
  refine ⟨p, hp, fun hi => ?_, hfwd, ?_⟩
  · have := (hi _ _).mp hfwd
    rw [hback] at this
    exact absurd (Option.some.inj this) (by decide)
  · exact congrArg (Option.getD · []) hback

end vproxy.dns
