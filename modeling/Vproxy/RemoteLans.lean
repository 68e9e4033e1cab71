-- The remote LANs that entries register, against the addresses that the entries denote. A
-- literal becomes a network of one address, but an IPv4 address in its IPv6 spelling gets the
-- length of the short form and becomes the block of all addresses that start with 32 zero bits.
import Vproxy.DomainRules

open go go.net

namespace vproxy

/-! ## What an entry denotes -/

/-- The entry is a network with this address, or a text of this address. -/
def DenotesIP (entry : Str) (ip : IP) : Prop :=
  (∃ n, parseCIDR entry = some n ∧ netContains n ip = true) ∨ parseIP entry = some ip

/-- The entry is an IPv4 address in its IPv6 spelling. -/
def MappedLiteral (entry : Str) : Prop :=
  ∃ b, parseAddr entry = some ⟨b, []⟩ ∧ b.length = 16 ∧ (to4 b).isSome

/-- The address is of IPv6 and starts with 32 zero bits. -/
def InZeroBlock (ip : IP) : Prop := to4 ip = none ∧ ip.take 4 = List.replicate 4 0

/-! ## The network of a literal -/

/-- The network of the addresses that agree with this one in the leading bits. -/
def leadingNet (b : IP) (ones : Nat) : IPNet :=
  ⟨maskIP b (cidrMask ones b.length), cidrMask ones b.length⟩

theorem parseCIDR_literal {entry : Str} {b : IP} (haddr : parseAddr entry = some ⟨b, []⟩)
    (hslash : '/' ∉ entry) (bits : Str) (hempty : bits ≠ []) (hdigits : bits.all isDigit)
    (hbits : decimal bits ≤ 8 * b.length) :
    parseCIDR (entry ++ '/' :: bits) = some (leadingNet b (decimal bits)) := by
  have hok : ¬ (([] : Str) ≠ [] ∨ bits = [] ∨ ¬ bits.all isDigit ∨
      8 * b.length < decimal bits) := by
    simp only [hempty, hdigits, ne_eq, not_true_eq_false, false_or, not_lt]
    exact hbits
  unfold parseCIDR
  rw [cut_append hslash]
  dsimp only [Option.bind_eq_bind, Option.bind_some]
  rw [haddr]
  dsimp only [Option.bind_some]
  rw [if_neg hok]
  rfl

/-- The length of the pasted text comes from the short form, the address from the text. -/
theorem remoteNet_literal {entry : Str} {b ip : IP} (haddr : parseAddr entry = some ⟨b, []⟩)
    (hlong : to16 b = some ip) :
    remoteNet entry = some (leadingNet b (if (to4 ip).isNone then 128 else 32)) := by
  have hip : parseIP entry = some ip := by
    unfold parseIP
    rw [haddr]
    exact hlong
  have hslash := slash_notMem_of_parseIP hip
  have hlen : b.length = 4 ∨ b.length = 16 := length_parseAddr haddr
  unfold remoteNet
  rw [if_neg hslash, hip]
  dsimp only
  cases h4 : (to4 ip).isNone with
  | true =>
    have hb : b.length = 16 := by
      refine hlen.resolve_left fun hshort => ?_
      rw [to4_to16 hlong] at h4
      simp [to4, hshort] at h4
    have hbits : decimal "128" ≤ 8 * b.length := by
      rw [hb]
      decide
    exact parseCIDR_literal haddr hslash "128" (by decide) (by decide) hbits
  | false =>
    have hbits : decimal "32" ≤ 8 * b.length := by
      have hdec : decimal "32" = 32 := by decide
      omega
    exact parseCIDR_literal haddr hslash "32" (by decide) (by decide) hbits

/-- A network is asked only for its number and its mask. -/
theorem netContains_congr {n n' : IPNet} (h : networkNumberAndMask n = networkNumberAndMask n')
    (ip : IP) : netContains n ip = netContains n' ip := by
  unfold netContains
  rw [h]

/-- A literal in its own form becomes the network of its address. -/
theorem remoteNet_own {entry : Str} {ip : IP} (h : parseIP entry = some ip)
    (hown : ¬ MappedLiteral entry) :
    ∃ n, remoteNet entry = some n ∧ ∀ x, netContains n x = netContains (hostNet ip) x := by
  obtain ⟨b, haddr, hlong⟩ := parseAddr_of_parseIP h
  refine ⟨_, remoteNet_literal haddr hlong, netContains_congr ?_⟩
  have hones := maskIP_ones b
  cases h4 : to4 ip with
  | some a =>
    have hb : to4 b = some a := by rw [← to4_to16 hlong, h4]
    have hlen : b.length = 4 :=
      (length_parseAddr haddr).resolve_right fun hlen => hown ⟨b, haddr, hlen, by rw [hb]; rfl⟩
    have hmask : cidrMask 32 4 = List.replicate 4 255 := by decide
    have hsame : b = a := by simpa [to4, hlen] using hb
    rw [hlen] at hones
    simp only [networkNumberAndMask, leadingNet, hostNet, hlen, Option.isNone_some,
      Bool.false_eq_true, if_false, hmask, hones, hb, h4]
    rfl
  | none =>
    have hb : ip = b := to16_of_to4_none hlong (by rw [← to4_to16 hlong, h4])
    have hlen : b.length = 16 := hb ▸ length_parseIP h
    have hmask : cidrMask 128 16 = List.replicate 16 255 := by decide
    rw [hlen] at hones
    simp only [leadingNet, hostNet, hlen, Option.isNone_none, if_true, hmask, hones, hb]

/-- The mask of 32 leading bits keeps four bytes. -/
theorem maskIP_leading {ip : IP} (h : ip.length = 16) :
    maskIP ip (cidrMask 32 16) = ip.take 4 ++ List.replicate 12 0 := by
  have hmask : cidrMask 32 16 = List.replicate 4 255 ++ List.replicate 12 0 := by decide
  have hones := maskIP_ones (ip.take 4)
  have hzeros := maskIP_zeros (ip.drop 4)
  have htake : (ip.take 4).length = 4 := by simp [h]
  have hdrop : (ip.drop 4).length = 12 := by simp [h]
  rw [htake] at hones
  rw [hdrop] at hzeros
  unfold maskIP at hones hzeros ⊢
  rw [hmask]
  conv_lhs => rw [← List.take_append_drop 4 ip]
  rw [List.zipWith_append (by simp [htake]), hones, hzeros]

/-- An IPv4 address in its IPv6 spelling becomes the block of the addresses with 32 leading
zero bits. -/
theorem remoteNet_mapped {entry : Str} (h : MappedLiteral entry) :
    ∃ n, remoteNet entry = some n ∧
      ∀ x : IP, x.length = 16 → (netContains n x = true ↔ InZeroBlock x) := by
  obtain ⟨b, haddr, hlen, h4⟩ := h
  have hlong : to16 b = some b := by simp [to16, hlen]
  refine ⟨_, remoteNet_literal haddr hlong, ?_⟩
  have hfront : b.take 12 = v4InV6Prefix := by
    by_contra hne
    simp [to4, hlen, hne] at h4
  have hnet : leadingNet b (if (to4 b).isNone then 128 else 32) =
      ⟨List.replicate 16 0, cidrMask 32 16⟩ := by
    have hzero : b.take 4 = List.replicate 4 0 := by
      rw [show b.take 4 = (b.take 12).take 4 by rw [List.take_take]; rfl, hfront]
      rfl
    have hsome : (to4 b).isNone = false := by simp [h4]
    simp only [leadingNet, hsome, Bool.false_eq_true, if_false, hlen, maskIP_leading hlen, hzero]
    rfl
  intro x hx
  have hnumber : networkNumberAndMask ⟨List.replicate 16 0, cidrMask 32 16⟩ =
      (List.replicate 16 0, cidrMask 32 16) := rfl
  have hzeros : maskIP (List.replicate 16 0) (cidrMask 32 16) =
      List.replicate 4 0 ++ List.replicate 12 0 := by decide
  rw [hnet]
  unfold netContains InZeroBlock
  rw [hnumber]
  dsimp only
  rw [hzeros]
  cases hx4 : to4 x with
  | some a => simp [length_to4 hx4]
  | none =>
    simp only [Option.getD_none, maskIP_leading hx, Bool.and_eq_true, beq_iff_eq,
      List.append_cancel_right_eq, true_and]
    constructor
    · rintro ⟨-, hsame⟩
      exact hsame.symm
    · intro hsame
      exact ⟨⟨by simp [hx], by decide⟩, hsame.symm⟩

/-! ## The law -/

theorem remoteNet_cidr {entry : Str} (hip : parseIP entry = none) :
    remoteNet entry = if '/' ∈ entry then parseCIDR entry else none := by
  unfold remoteNet
  rw [hip]

theorem slash_mem_of_parseCIDR {s : Str} {n : IPNet} (h : parseCIDR s = some n) : '/' ∈ s := by
  by_contra hslash
  simp [parseCIDR, cut, hslash] at h

/-- No text is both an address and a network. -/
theorem parseCIDR_of_parseIP {s : Str} {ip : IP} (h : parseIP s = some ip) :
    parseCIDR s = none := by
  rw [Option.eq_none_iff_forall_ne_some]
  intro n hn
  exact slash_notMem_of_parseIP h (slash_mem_of_parseCIDR hn)

/-- An IPv4 address in its IPv6 spelling denotes the IPv4 address. -/
theorem MappedLiteral.denotes {entry : Str} {ip : IP} (h : MappedLiteral entry)
    (hdenotes : DenotesIP entry ip) : parseIP entry = some ip ∧ ¬ InZeroBlock ip := by
  obtain ⟨b, haddr, hlen, h4⟩ := h
  have hip : parseIP entry = some b := by
    unfold parseIP
    rw [haddr]
    simp [to16, hlen]
  have hsame : parseIP entry = some ip := by
    rcases hdenotes with ⟨n, hn, -⟩ | hsame
    · rw [parseCIDR_of_parseIP hip] at hn
      cases hn
    · exact hsame
  obtain rfl := Option.some.inj (hip.symm.trans hsame)
  refine ⟨hsame, ?_⟩
  rintro ⟨hnone, -⟩
  rw [hnone] at h4
  cases h4

/-- What an entry registers: what it denotes, or the block of zeros. -/
theorem registers_iff (entry : Str) {ip : IP} (hlen : ip.length = 16) :
    (∃ n, remoteNet entry = some n ∧ netContains n ip = true) ↔
      (MappedLiteral entry ∧ InZeroBlock ip) ∨ (¬ MappedLiteral entry ∧ DenotesIP entry ip) := by
  by_cases hmapped : MappedLiteral entry
  · obtain ⟨n, hn, hblock⟩ := remoteNet_mapped hmapped
    simp [hn, hblock ip hlen, hmapped]
  cases hip : parseIP entry with
  | some own =>
    obtain ⟨n, hn, hsame⟩ := remoteNet_own hip hmapped
    have hcidr := parseCIDR_of_parseIP hip
    have hown : netContains n ip = true ↔ own = ip := by
      rw [hsame, netContains_hostNet (length_parseIP hip) hlen]
      exact eq_comm
    simp [DenotesIP, hn, hown, hmapped, hip, hcidr]
  | none =>
    have hcidr : ∀ n, remoteNet entry = some n ↔ parseCIDR entry = some n := by
      intro n
      rw [remoteNet_cidr hip]
      split
      · rfl
      · rename_i hslash
        exact ⟨nofun, fun hn => absurd (slash_mem_of_parseCIDR hn) hslash⟩
    simp [DenotesIP, hcidr, hmapped, hip]

section

variable [Unicode]

/-- The match is PROXY because the address lies in a remote LAN. -/
def RuleManager.ProxiesByLAN (rm : RuleManager) (ctx : MatchContext) : Prop :=
  ∃ ip, parseIP ctx.host = some ip ∧ rm.inRemoteLAN ip ∧ rm.matchContext ctx = (.proxy, [])

theorem proxiesByLAN_iff {rm : RuleManager} {ctx : MatchContext} {ip : IP} (hport : ctx.port ≠ 53)
    (hlocal : ¬ isLocalName ctx.host) (hip : parseIP ctx.host = some ip) :
    rm.ProxiesByLAN ctx ↔ rm.inRemoteLAN ip := by
  constructor
  · rintro ⟨ip', hip', hin, -⟩
    obtain rfl := Option.some.inj (hip.symm.trans hip')
    exact hin
  · intro hin
    refine ⟨ip, hip, hin, ?_⟩
    rw [matchContext_ip hip (by simp [hport]) hlocal, if_pos hin]

theorem inRemoteLAN_fresh (rules entries : List Str) (ip : IP) :
    ((newRuleManager rules).setRemoteLANs entries).inRemoteLAN ip ↔
      ∃ e ∈ entries, ∃ n, remoteNet (trimSpace e) = some n ∧ netContains n ip = true := by
  have hblank : remoteNet [] = none := by decide
  rw [newRuleManager_eq]
  simp only [RuleManager.setRemoteLANs, RuleManager.inRemoteLAN, List.nil_append, List.any_eq_true,
    List.mem_filterMap, remoteEntries, List.mem_filter, List.mem_map]
  constructor
  · rintro ⟨n, ⟨_, ⟨⟨e, he, rfl⟩, -⟩, hn⟩, hin⟩
    exact ⟨e, he, n, hn, hin⟩
  · rintro ⟨e, he, n, hn, hin⟩
    refine ⟨n, ⟨trimSpace e, ⟨⟨e, he, rfl⟩, ?_⟩, hn⟩, hin⟩
    simp only [ne_eq, decide_eq_true_eq]
    intro hempty
    rw [hempty, hblank] at hn
    cases hn

/-- Entries for remote LANs take the addresses they denote, and no other, up to IPv4 addresses in
their IPv6 spelling: such an entry must not denote the address and the address must not start with
32 zero bits, or another entry denotes it. -/
theorem remote_lans_are_denoted_iff (rules entries : List Str) (ctx : MatchContext) (ip : IP)
    (hip : parseIP ctx.host = some ip) (hlocal : ¬ isLocalName ctx.host) (hport : ctx.port ≠ 53) :
    (((newRuleManager rules).setRemoteLANs entries).ProxiesByLAN ctx ↔
        ∃ e ∈ entries, DenotesIP (trimSpace e) ip) ↔
      (∃ e ∈ entries, ¬ MappedLiteral (trimSpace e) ∧ DenotesIP (trimSpace e) ip) ∨
        ∀ e ∈ entries, MappedLiteral (trimSpace e) →
          ¬ InZeroBlock ip ∧ parseIP (trimSpace e) ≠ some ip := by
  rw [proxiesByLAN_iff hport hlocal hip, inRemoteLAN_fresh]
  simp only [registers_iff _ (length_parseIP hip)]
  constructor
  · intro hlaw
    by_cases hother : ∃ e ∈ entries, ¬ MappedLiteral (trimSpace e) ∧ DenotesIP (trimSpace e) ip
    · exact .inl hother
    refine .inr fun e he hmapped => ⟨fun hzero => ?_, fun hsame => ?_⟩
    · -- The block takes the address, and no entry denotes it.
      obtain ⟨e', he', hdenotes⟩ := hlaw.mp ⟨e, he, .inl ⟨hmapped, hzero⟩⟩
      by_cases hmapped' : MappedLiteral (trimSpace e')
      · exact (hmapped'.denotes hdenotes).2 hzero
      · exact hother ⟨e', he', hmapped', hdenotes⟩
    · -- The entry denotes the address, and no network takes it.
      obtain ⟨e', he', hnet⟩ := hlaw.mpr ⟨e, he, .inr hsame⟩
      obtain ⟨-, hzero⟩ | ⟨hmapped', hdenotes⟩ := hnet
      · exact (hmapped.denotes (.inr hsame)).2 hzero
      · exact hother ⟨e', he', hmapped', hdenotes⟩
  · rintro (⟨e, he, hmapped, hdenotes⟩ | hall)
    · exact ⟨fun _ => ⟨e, he, hdenotes⟩, fun _ => ⟨e, he, .inr ⟨hmapped, hdenotes⟩⟩⟩
    constructor
    · rintro ⟨e, he, ⟨hmapped, hzero⟩ | ⟨-, hdenotes⟩⟩
      · exact absurd hzero (hall e he hmapped).1
      · exact ⟨e, he, hdenotes⟩
    · rintro ⟨e, he, hdenotes⟩
      by_cases hmapped : MappedLiteral (trimSpace e)
      · exact absurd (hmapped.denotes hdenotes).1 (hall e he hmapped).2
      · exact ⟨e, he, .inr ⟨hmapped, hdenotes⟩⟩

end

/-- An entry of one address takes the address. -/
theorem one_address_is_proxied :
    ((newRuleManager []).setRemoteLANs ["192.168.50.7"]).ProxiesByLAN
      { MatchContext.blank with host := "192.168.50.7" } := by
  have hip : parseIP "192.168.50.7" = some (v4InV6Prefix ++ [192, 168, 50, 7]) := by decide
  have hmapped : ¬ MappedLiteral (trimSpace "192.168.50.7") := by
    rintro ⟨b, haddr, hlen, -⟩
    have hshort : parseAddr (trimSpace "192.168.50.7") = some ⟨[192, 168, 50, 7], []⟩ := by decide
    obtain ⟨rfl, -⟩ := Addr.mk.inj (Option.some.inj (hshort.symm.trans haddr))
    cases hlen
  have hdenotes : DenotesIP (trimSpace "192.168.50.7") (v4InV6Prefix ++ [192, 168, 50, 7]) :=
    .inr (by decide)
  exact ((remote_lans_are_denoted_iff [] ["192.168.50.7"]
    { MatchContext.blank with host := "192.168.50.7" } _ hip (by decide) (by decide)).mpr
      (.inl ⟨_, List.mem_singleton_self _, hmapped, hdenotes⟩)).mpr
        ⟨_, List.mem_singleton_self _, hdenotes⟩

/-- The same address in its IPv6 spelling is not taken, and another one is. -/
theorem mapped_spelling_is_lost :
    DenotesIP "::ffff:192.168.50.7" (v4InV6Prefix ++ [192, 168, 50, 7]) ∧
      parseIP "192.168.50.7" = some (v4InV6Prefix ++ [192, 168, 50, 7]) ∧
      ¬ ((newRuleManager []).setRemoteLANs ["::ffff:192.168.50.7"]).ProxiesByLAN
        { MatchContext.blank with host := "192.168.50.7" } ∧
      ((newRuleManager []).setRemoteLANs ["::ffff:192.168.50.7"]).matchContext
        { MatchContext.blank with host := "192.168.50.7" } = (.direct, []) ∧
      ((newRuleManager []).setRemoteLANs ["::ffff:192.168.50.7"]).matchContext
        { MatchContext.blank with host := "::2" } = (.proxy, []) := by
  have hdirect : ((newRuleManager []).setRemoteLANs ["::ffff:192.168.50.7"]).matchContext
      { MatchContext.blank with host := "192.168.50.7" } = (.direct, []) := by decide +kernel
  refine ⟨.inr (by decide), by decide, ?_, hdirect, by decide +kernel⟩
  rintro ⟨-, -, -, hproxy⟩
  rw [hdirect] at hproxy
  cases hproxy

end vproxy
