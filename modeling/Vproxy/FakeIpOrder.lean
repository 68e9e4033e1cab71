-- The order in which a fake-IP pool hands out its addresses. The domain that comes after `k`
-- others gets the address `k` places after the first, counted around the pool, and it keeps
-- it. An address leads back to the last domain that got it.
import Vproxy.FakeIp

open go go.net runs cyclic_slots words

namespace vproxy.dns

/-- Some query of the run gives the domain this address. -/
def Received (p : FakeIPPool) (ds : List Str) (d : Str) (ip : IP) : Prop :=
  ∃ front rest, ds = front ++ d :: rest ∧ ((p.queried front).getIP d).1 = ip

/-! ## Answers and slots -/

theorem uint32ToIP_injective : Function.Injective uint32ToIP :=
  Function.LeftInverse.injective beUint32_uint32ToIP

theorem uint32ToIP_beUint32 {ip : IP} (h : ip.length = 4) : uint32ToIP (beUint32 ip) = ip := by
  obtain ⟨a, b, c, d, rfl⟩ := List.length_eq_four.mp h
  have ha := a.toNat_lt
  have hb := b.toNat_lt
  have hc := c.toNat_lt
  have hd := d.toNat_lt
  simp only [uint32ToIP, toNat_beUint32, List.cons.injEq, and_true, ← UInt8.toNat_inj,
    UInt8.toNat_ofNat']
  omega

section

variable {p p0 : FakeIPPool} {log ds : List Str}

/-- The answer to a query is the address of the slot that the domain has after it. -/
theorem getIP_answer (hp : Holds p0 log p) (d : Str) :
    ∃ s, slotOf p0.size (seen log d) d = some s ∧ (p.getIP d).1 = uint32ToIP (p0.addr s) := by
  unfold FakeIPPool.getIP
  rw [hp.forward d]
  by_cases hd : d ∈ log
  · obtain ⟨s, hs⟩ := Option.isSome_iff_exists.mp (slotOf_isSome (n := p0.size) |>.mpr hd)
    refine ⟨s, ?_, ?_⟩
    · rw [seen, if_pos hd, hs]
    · rw [hs, Option.map_some]
  · have hnone : slotOf p0.size log d = none := by
      rw [← Option.not_isSome_iff_eq_none, slotOf_isSome]
      exact hd
    refine ⟨log.length % p0.size, ?_, ?_⟩
    · rw [seen, if_neg hd, slotOf, if_pos rfl]
    · rw [hnone, Option.map_none, hp.current_eq]

/-- Each answer of a run is the address of the slot that the domain has at its end. -/
theorem received_iff_slot (h : p.Sound) (hp : Holds p [] p) {d : Str} {ip : IP} :
    Received p ds d ip ↔
      ∃ s, slotOf p.size (logOf ds) d = some s ∧ ip = uint32ToIP (p.addr s) := by
  have hanswer : ∀ front rest, ds = front ++ d :: rest →
      ∃ s, slotOf p.size (logOf ds) d = some s ∧
        ((p.queried front).getIP d).1 = uint32ToIP (p.addr s) := by
    rintro front rest rfl
    obtain ⟨s, hs, hip⟩ := getIP_answer (queried_holds h hp front) d
    refine ⟨s, ?_, hip⟩
    -- What comes later leaves the slot as it is.
    have hlog : logOf (front ++ d :: rest) = rest.foldl seen (seen (front.foldl seen []) d) := by
      simp [logOf]
    have hlater := slotOf_suffix (n := p.size) (foldl_seen_suffix rest (seen (front.foldl seen []) d))
      (foldl_seen_nodup rest (seen_nodup d (foldl_seen_nodup front List.nodup_nil)))
      (mem_seen.mpr (.inl rfl))
    rw [hlog, hlater, hs]
  constructor
  · rintro ⟨front, rest, hds, rfl⟩
    exact hanswer front rest hds
  · rintro ⟨s, hs, rfl⟩
    have hd : d ∈ ds := mem_logOf.mp (slotOf_isSome.mp (Option.isSome_of_eq_some hs))
    obtain ⟨front, rest, hds⟩ := List.append_of_mem hd
    obtain ⟨t, ht, hip⟩ := hanswer front rest hds
    rw [hs] at ht
    obtain rfl := Option.some.inj ht
    exact ⟨front, rest, hds, hip⟩

/-- The domains get the addresses in turn. -/
theorem received_iff (h : p.Sound) (hp : Holds p [] p) {d : Str} {ip : IP} :
    Received p ds d ip ↔
      ∃ k, ds.eraseDups[k]? = some d ∧ ip = uint32ToIP (p.addr (k % p.size)) := by
  have hnd : (logOf ds).Nodup := foldl_seen_nodup ds List.nodup_nil
  rw [received_iff_slot h hp, ← reverse_logOf]
  constructor
  · rintro ⟨s, hs, rfl⟩
    obtain ⟨k, hk, rfl⟩ := (slotOf_eq_some_iff hnd).mp hs
    exact ⟨k, hk, rfl⟩
  · rintro ⟨k, hk, rfl⟩
    exact ⟨_, (slotOf_eq_some_iff hnd).mpr ⟨k, hk, rfl⟩, rfl⟩

/-! ## The way back -/

/-- The reverse lookup finds the newest domain that got the address. -/
theorem getDomain_eq_find (h : p.Sound) (hp : Holds p [] p) (v : UInt32) :
    (p.queried ds).getDomain (uint32ToIP v) =
      ((logOf ds).find? fun d => slotOf p.size (logOf ds) d = some (p.slot v)).getD [] := by
  have hholds := queried_holds h hp ds
  rw [getDomain_uint32ToIP, hholds.backward]
  exact congrArg (Option.getD · []) (owner_eq_find hholds.nodup _)

theorem received_iff_slot_eq (h : p.Sound) (hp : Holds p [] p) {d : Str} {v : UInt32} :
    Received p ds d (uint32ToIP v) ↔ slotOf p.size (logOf ds) d = some (p.slot v) := by
  rw [received_iff_slot h hp]
  constructor
  · rintro ⟨s, hs, hv⟩
    have hslot := (slot_eq_iff h (slotOf_lt (size_pos h) hs) v).mpr (uint32ToIP_injective hv)
    rw [hs, hslot]
  · intro hs
    have haddr := (slot_eq_iff h (slotOf_lt (size_pos h) hs) v).mp rfl
    exact ⟨p.slot v, hs, congrArg uint32ToIP haddr⟩

/-! ## Where the addresses lie -/

/-- The size of the pool, in the arithmetic of the words. -/
theorem toNat_size (h : p.Sound) : (p.maxIP - p.minIP + 1).toNat = p.size := by
  have hle := h.min_le
  have hlt := h.max_lt
  rw [UInt32.toNat_add, UInt32.toNat_sub_of_le _ _ (UInt32.le_iff_toNat_le.mpr hle)]
  unfold FakeIPPool.size
  simp only [UInt32.toNat_one]
  omega

end

theorem number_uint32ToIP (v : UInt32) : number (uint32ToIP v) = v.toNat := by
  have hv := v.toNat_lt
  simp only [uint32ToIP, number_cons, number_nil, UInt8.toNat_ofNat', List.length_cons,
    List.length_nil]
  omega

/-- An IPv4 network starts at its address and has the numbers that its mask leaves free. -/
theorem range_v4 {cidr : Str} {n : IPNet} (h : parseCIDR cidr = some n) (h4 : n.mask.length = 4) :
    n.range = ⟨32, (beUint32 n.ip).toNat,
      (beUint32 n.ip).toNat + (2 ^ (32 - maskOnes n.mask) - 1)⟩ := by
  obtain ⟨ip, ones, -, hle, rfl⟩ := parseCIDR_spec h
  simp only [length_cidrMask] at h4
  rw [h4] at hle ⊢
  obtain ⟨a, b, c, d, rfl⟩ := List.length_eq_four.mp h4
  have hmod := network_mod ones a b c d
  have hlen : (maskIP [a, b, c, d] (cidrMask ones 4)).length = 4 := rfl
  have hnet : networkNumberAndMask
      ⟨maskIP [a, b, c, d] (cidrMask ones 4), cidrMask ones 4⟩ =
      (maskIP [a, b, c, d] (cidrMask ones 4), cidrMask ones 4) := rfl
  unfold IPNet.range
  rw [hnet]
  dsimp only
  generalize maskIP [a, b, c, d] (cidrMask ones 4) = net at hmod hlen
  have hnum : number net = (beUint32 net).toNat := by
    rw [← number_uint32ToIP, uint32ToIP_beUint32 hlen]
  unfold block
  dsimp only
  rw [hlen, hnum, maskOnes_cidrMask hle, Nat.div_mul_cancel (Nat.dvd_of_mod_eq_zero hmod)]

theorem newFakeIPPool_subnet {cidr : Str} {p : FakeIPPool} (h : newFakeIPPool cidr = some p) :
    parseCIDR cidr = some p.subnet := by
  unfold newFakeIPPool at h
  simp only [Option.bind_eq_bind, Option.bind_eq_some_iff, Option.some.injEq] at h
  obtain ⟨n, hn, rfl⟩ := h
  exact hn

/-- The addresses of the pool lie in its network, and none of them is the first, the second or
the last address there. -/
theorem addr_in_subnet {cidr : Str} {p : FakeIPPool} (h : newFakeIPPool cidr = some p)
    (h4 : p.subnet.mask.length = 4) (hones : maskOnes p.subnet.mask ≤ 30) {s : Nat}
    (hs : s < p.size) :
    p.isFakeIP (uint32ToIP (p.addr s)) ∧
      number (uint32ToIP (p.addr s)) ∉
        [p.subnet.range.first, p.subnet.range.first + 1, p.subnet.range.last] := by
  obtain ⟨hsound, hsize⟩ := newFakeIPPool_sound h h4 hones
  obtain ⟨base, hbase, hle, hmin, hmax⟩ := newFakeIPPool_range h h4 hones
  have hcidr := newFakeIPPool_subnet h
  have hrange := range_v4 hcidr h4
  have hnum : number (uint32ToIP (p.addr s)) = base + 2 + s := by
    rw [number_uint32ToIP, toNat_addr hsound hs, hmin]
  have hnumeric : numeric (uint32ToIP (p.addr s)) = ⟨32, base + 2 + s⟩ := by
    rw [numeric, to4_uint32ToIP]
    exact congrArg (Numeric.mk 32) hnum
  rw [← hbase] at hrange
  constructor
  · refine (netContains_iff hcidr (.inl rfl)).mpr ?_
    rw [hnumeric, hrange]
    refine ⟨rfl, ?_, ?_⟩
    · dsimp only
      omega
    · dsimp only
      omega
  · rw [hnum, hrange]
    simp only [List.mem_cons, List.not_mem_nil, or_false]
    omega

/-! ## The law of the order -/

/-- The pool hands out its addresses in turn, and each address leads back to the last domain
that got it. -/
theorem allocation_is_cyclic {cidr : Str} {p : FakeIPPool} (h : newFakeIPPool cidr = some p)
    (h4 : p.subnet.mask.length = 4) (hones : maskOnes p.subnet.mask ≤ 30) (ds : List Str) :
    (∀ d ip, Received p ds d ip ↔ ∃ k, ds.eraseDups[k]? = some d ∧
      ip = uint32ToIP (p.minIP + UInt32.ofNat (k % (p.maxIP - p.minIP + 1).toNat))) ∧
    (∀ d ip, Received p ds d ip → p.isFakeIP ip ∧
      number ip ∉ [p.subnet.range.first, p.subnet.range.first + 1, p.subnet.range.last]) ∧
    ∀ ip v, to4 ip = some v →
      (∀ older d newer, ds.eraseDups = older ++ d :: newer → Received p ds d v →
        (∀ e ∈ newer, ¬ Received p ds e v) → (p.queried ds).getDomain ip = d) ∧
      ((∀ d, ¬ Received p ds d v) → (p.queried ds).getDomain ip = []) := by
  obtain ⟨hsound, -⟩ := newFakeIPPool_sound h h4 hones
  have hp := newFakeIPPool_holds h
  refine ⟨?_, ?_, ?_⟩
  · intro d ip
    rw [toNat_size hsound]
    exact received_iff hsound hp
  · intro d ip hreceived
    obtain ⟨k, -, rfl⟩ := (received_iff hsound hp).mp hreceived
    exact addr_in_subnet h h4 hones (Nat.mod_lt k (size_pos hsound))
  · intro ip v hv
    have hword : uint32ToIP (beUint32 v) = v := uint32ToIP_beUint32 (length_to4 hv)
    have hlookup : (p.queried ds).getDomain ip =
        (p.queried ds).getDomain (uint32ToIP (beUint32 v)) := by
      unfold FakeIPPool.getDomain
      rw [hv, to4_uint32ToIP, hword]
    rw [hlookup, getDomain_eq_find hsound hp, ← hword]
    simp only [received_iff_slot_eq hsound hp, beUint32_uint32ToIP]
    constructor
    · intro older d newer hsplit hd hnewer
      rw [← reverse_logOf, List.reverse_eq_iff, List.reverse_append, List.reverse_cons,
        List.append_assoc] at hsplit
      have hskip : newer.reverse.find?
          (fun d => slotOf p.size (logOf ds) d = some (p.slot (beUint32 v))) = none := by
        rw [List.find?_eq_none]
        intro e he
        simpa using hnewer e (List.mem_reverse.mp he)
      -- The lookup skips the newer domains and stops at `d`.
      conv_lhs =>
        arg 1
        arg 2
        rw [hsplit]
      rw [List.find?_append, hskip, Option.none_or, List.singleton_append,
        List.find?_cons_of_pos (by simpa using hd), Option.getD_some]
    · intro hnone
      rw [List.find?_eq_none.mpr (by simpa using fun d _ => hnone d)]
      rfl

/-- A pool of one address gives it to each new domain, and the address leads back to the last. -/
theorem one_address_goes_to_the_last :
    ∃ p, newFakeIPPool "10.0.0.0/30" = some p ∧
      Received p ["a.com", "b.com"] "a.com" [10, 0, 0, 2] ∧
      Received p ["a.com", "b.com"] "b.com" [10, 0, 0, 2] ∧
      (p.queried ["a.com", "b.com"]).getDomain [10, 0, 0, 2] = ("b.com" : Str) := by
  obtain ⟨p, hp⟩ : ∃ p, newFakeIPPool "10.0.0.0/30" = some p := ⟨_, rfl⟩
  have hmask : p.subnet.mask = [255, 255, 255, 252] := by
    cases hp
    decide
  have hmin : p.minIP = 0x0a000002 := by
    cases hp
    decide
  have hmax : p.maxIP = 0x0a000002 := by
    cases hp
    decide
  obtain ⟨horder, -, hback⟩ := allocation_is_cyclic hp (by rw [hmask]; decide)
    (by rw [hmask]; decide) ["a.com", "b.com"]
  have hfirst : Received p ["a.com", "b.com"] "a.com" [10, 0, 0, 2] := by
    refine (horder _ _).mpr ⟨0, by decide, ?_⟩
    rw [hmin, hmax]
    decide
  have hsecond : Received p ["a.com", "b.com"] "b.com" [10, 0, 0, 2] := by
    refine (horder _ _).mpr ⟨1, by decide, ?_⟩
    rw [hmin, hmax]
    decide
  refine ⟨p, hp, hfirst, hsecond, ?_⟩
  refine (hback [10, 0, 0, 2] [10, 0, 0, 2] rfl).1 ["a.com"] "b.com" [] ?_ hsecond ?_
  · decide
  · exact nofun

end vproxy.dns
