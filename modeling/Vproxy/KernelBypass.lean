-- Two filters over the same destinations: the hooks in the kernel let some of them pass
-- without the proxy, and the router decides for the others. The law says exactly where the
-- kernel lets something pass that the router would not send directly.
import Vproxy.Redirect
import Vproxy.Router
import Vproxy.AddrText

open go go.net words vproxy.ebpf

namespace vproxy

/-! ## The hooks -/

inductive Hook where
  | connect4
  | sendmsg4
  | connect6
  | sendmsg6
  deriving DecidableEq, Repr

def Hook.family : Hook → Family
  | .connect4 => .inet
  | .sendmsg4 => .inet
  | .connect6 => .inet6
  | .sendmsg6 => .inet6

def Hook.run : Hook → Maps → SockAddr → Maps × SockAddr
  | .connect4 => sock4Connect
  | .sendmsg4 => sock4Sendmsg
  | .connect6 => sock6Connect
  | .sendmsg6 => sock6Sendmsg

/-- The hook lets the destination pass as it is. -/
def Hook.passes (h : Hook) (m : Maps) (ctx : SockAddr) : Bool := bypass h.family m ctx

/-- A destination that passes is left alone. -/
theorem run_of_passes {h : Hook} {m : Maps} {ctx : SockAddr} (hp : h.passes m ctx) :
    h.run m ctx = (m, ctx) := by
  cases h <;> exact if_pos hp

/-! ## What the kernel calls local -/

/-- The ranges of the default bypass list, and those of `is_local_ipv6`. -/
def kernelLocal : Family → IP → Bool
  | .inet, ip => byte ip 0 == 127 || byte ip 0 == 10 ||
      (byte ip 0 == 172 && byte ip 1 &&& 0xf0 == 16) ||
      (byte ip 0 == 192 && byte ip 1 == 168) || (byte ip 0 == 169 && byte ip 1 == 254)
  | .inet6, ip => ip == ipv6loopback || (byte ip 0 == 0xfe && byte ip 1 &&& 0xc0 == 0x80) ||
      byte ip 0 &&& 0xfe == 0xfc

/-- The lookup in the default entries. -/
theorem isCidrBypassV4_eq {m : Maps} (hm : m.cidrBypassMap = defaultBypass) (a b c d : UInt8) :
    isCidrBypassV4 m (leWord a b c d) = kernelLocal .inet [a, b, c, d] := by
  have h8 : cidrMask 8 4 = [255, 0, 0, 0] := by decide
  have h12 : cidrMask 12 4 = [255, 240, 0, 0] := by decide
  have h16 : cidrMask 16 4 = [255, 255, 0, 0] := by decide
  have h240 : (16 : UInt8) &&& 240 = 16 := by decide
  unfold isCidrBypassV4 kernelLocal
  rw [hm, leBytes_leWord, Bool.eq_iff_iff]
  simp [defaultBypass, h8, h12, h16, maskIP, and_255, byte, h240]
  grind

/-- The byte-swapped mask of 127.0.0.0/8 tests the first byte. -/
theorem loopback_mask (a b c d : UInt8) :
    leWord a b c d &&& swap32 0xFF000000 = swap32 0x7F000000 ↔ a = 127 := by
  have hmask : swap32 0xFF000000 = leWord 255 0 0 0 := by decide
  have hnet : swap32 0x7F000000 = leWord 127 0 0 0 := by decide
  rw [hmask, hnet, leWord_and, leWord_inj, and_255]
  simp

/-- The byte-swapped masks of fe80::/10 and fc00::/7 test the first bytes. -/
theorem linkLocal_mask (a b c d : UInt8) :
    leWord a b c d &&& swap32 0xFFC00000 = swap32 0xFE800000 ↔ a = 0xfe ∧ b &&& 0xc0 = 0x80 := by
  have hmask : swap32 0xFFC00000 = leWord 255 0xc0 0 0 := by decide
  have hnet : swap32 0xFE800000 = leWord 0xfe 0x80 0 0 := by decide
  rw [hmask, hnet, leWord_and, leWord_inj, and_255]
  simp

theorem uniqueLocal_mask (a b c d : UInt8) :
    leWord a b c d &&& swap32 0xFE000000 = swap32 0xFC000000 ↔ a &&& 0xfe = 0xfc := by
  have hmask : swap32 0xFE000000 = leWord 0xfe 0 0 0 := by decide
  have hnet : swap32 0xFC000000 = leWord 0xfc 0 0 0 := by decide
  rw [hmask, hnet, leWord_and, leWord_inj]
  simp

theorem bytes_injective {v w : Words4} (h : v.bytes = w.bytes) : v = w := by
  simp only [Words4.bytes, leBytes, List.cons_append, List.nil_append, List.cons.injEq,
    and_true] at h
  obtain ⟨h0, h1, h2, h3, h4, h5, h6, h7, h8, h9, h10, h11, h12, h13, h14, h15⟩ := h
  obtain ⟨v0, v1, v2, v3⟩ := v
  obtain ⟨w0, w1, w2, w3⟩ := w
  rw [Words4.mk.injEq]
  refine ⟨?_, ?_, ?_, ?_⟩ <;> apply leBytes_injective <;> simp_all [leBytes]

theorem isLocalIpv6_eq (ctx : SockAddr) :
    isLocalIpv6 ctx = kernelLocal .inet6 ctx.userIp6.bytes := by
  have hw0 := leWord_leBytes ctx.userIp6.w0
  have hloop : (ctx.userIp6.w0 = 0 ∧ ctx.userIp6.w1 = 0 ∧ ctx.userIp6.w2 = 0 ∧
      ctx.userIp6.w3 = swap32 1) ↔ ctx.userIp6.bytes = ipv6loopback := by
    have hbytes : ipv6loopback = Words4.bytes ⟨0, 0, 0, swap32 1⟩ := by decide
    rw [hbytes]
    constructor
    · rintro ⟨h0, h1, h2, h3⟩
      rw [Words4.bytes, h0, h1, h2, h3]
      rfl
    · intro h
      rw [bytes_injective h]
      exact ⟨rfl, rfl, rfl, rfl⟩
  have hlink := linkLocal_mask (byteAt ctx.userIp6.w0 0) (byteAt ctx.userIp6.w0 1)
    (byteAt ctx.userIp6.w0 2) (byteAt ctx.userIp6.w0 3)
  have hula := uniqueLocal_mask (byteAt ctx.userIp6.w0 0) (byteAt ctx.userIp6.w0 1)
    (byteAt ctx.userIp6.w0 2) (byteAt ctx.userIp6.w0 3)
  rw [hw0] at hlink hula
  have hb0 : byte ctx.userIp6.bytes 0 = byteAt ctx.userIp6.w0 0 := rfl
  have hb1 : byte ctx.userIp6.bytes 1 = byteAt ctx.userIp6.w0 1 := rfl
  simp only [isLocalIpv6, kernelLocal, hb0, hb1, hloop, hlink, hula]
  by_cases h1 : ctx.userIp6.bytes = ipv6loopback
  · simp [h1]
  · by_cases h2 : byteAt ctx.userIp6.w0 0 = 0xfe ∧ byteAt ctx.userIp6.w0 1 &&& 0xc0 = 0x80
    · simp [h2]
    · by_cases h3 : byteAt ctx.userIp6.w0 0 &&& 0xfe = 0xfc
      · simp [h3]
      · rw [if_neg h1, if_neg h2, if_neg h3]
        simp only [not_and] at h2
        simp [h1, h3]
        exact h2

/-- A socket without the mark passes to a local address, or to port 53. -/
theorem passes_iff {h : Hook} {m : Maps} {ctx : SockAddr} (hm : m.cidrBypassMap = defaultBypass)
    (hmark : isBypassSocket m ctx = false) :
    h.passes m ctx =
      (kernelLocal h.family (ctx.addr h.family).ip || (ctx.addr h.family).port == 53) := by
  have hport : (ctx.userPort == swap16 53) = (swap16 ctx.userPort == 53) := by
    rw [Bool.eq_iff_iff, beq_iff_eq, beq_iff_eq, ← swap16_inj, swap16_swap16]
  unfold Hook.passes
  cases h.family with
  | inet =>
    have hw := leWord_leBytes ctx.userIp4
    have hloop := loopback_mask (byteAt ctx.userIp4 0) (byteAt ctx.userIp4 1)
      (byteAt ctx.userIp4 2) (byteAt ctx.userIp4 3)
    have hcidr := isCidrBypassV4_eq hm (byteAt ctx.userIp4 0) (byteAt ctx.userIp4 1)
      (byteAt ctx.userIp4 2) (byteAt ctx.userIp4 3)
    rw [hw] at hloop hcidr
    have hmask : (ctx.userIp4 &&& swap32 0xFF000000 == swap32 0x7F000000) =
        (byteAt ctx.userIp4 0 == 127) := by
      rw [Bool.eq_iff_iff, beq_iff_eq, beq_iff_eq]
      exact hloop
    simp only [bypass, bypass4, hmark, hmask, hport, hcidr, SockAddr.addr, Bool.false_or]
    rw [show leBytes ctx.userIp4 = [byteAt ctx.userIp4 0, byteAt ctx.userIp4 1,
      byteAt ctx.userIp4 2, byteAt ctx.userIp4 3] from rfl]
    cases hb : (byteAt ctx.userIp4 0 == 127)
    · simp [Bool.or_comm]
    · simp [kernelLocal, byte, hb]
  | inet6 =>
    simp only [bypass, bypass6, hmark, hport, isLocalIpv6_eq, SockAddr.addr, Bool.false_or]

/-! ## What the router calls private -/

/-- 172.16.0.0/12, by mask and by range. -/
theorem range_of_mask {b : UInt8} (h : b &&& 0xf0 = 16) : 16 ≤ b ∧ b ≤ 31 := by
  have hall : ∀ n < 256, n &&& 240 = 16 → 16 ≤ n ∧ n ≤ 31 := by decide +kernel
  have hnat := congrArg UInt8.toNat h
  rw [UInt8.toNat_and] at hnat
  exact hall b.toNat b.toNat_lt hnat

/-- An address that the kernel calls local is private to the router. -/
theorem isPrivateIP_of_kernelLocal (ctx : SockAddr) (family : Family)
    (h : kernelLocal family (ctx.addr family).ip = true) :
    isPrivateIP (ctx.addr family).ip = true := by
  cases family with
  | inet =>
    simp only [SockAddr.addr, leBytes] at h ⊢
    simp only [kernelLocal, byte, List.getD_cons_zero, List.getD_cons_succ, Bool.or_eq_true,
      Bool.and_eq_true, beq_iff_eq] at h
    simp only [isPrivateIP, isLoopback, isLinkLocalUnicast, isLinkLocalMulticast, to4,
      List.length_cons, List.length_nil, byte, List.getD_cons_zero, List.getD_cons_succ]
    rcases h with (((h | h) | ⟨h, h'⟩) | ⟨h, h'⟩) | ⟨h, h'⟩
    · simp [h]
    · simp [h]
    · simp [h, range_of_mask h']
    · simp [h, h']
    · simp [h, h']
  | inet6 =>
    simp only [SockAddr.addr] at h ⊢
    have hlen : ctx.userIp6.bytes.length = 16 := rfl
    generalize ctx.userIp6.bytes = ip at h hlen ⊢
    simp only [kernelLocal, Bool.or_eq_true, Bool.and_eq_true, beq_iff_eq] at h
    have h4 : to4 ip = none := by
      unfold to4
      rw [if_neg (by omega), if_neg]
      rintro ⟨-, htake⟩
      -- a mapped address begins with zeros, and is none of the local ones
      have hip : ip = v4InV6Prefix ++ ip.drop 12 := by rw [← htake, List.take_append_drop]
      rw [hip] at h
      simp [byte, v4InV6Prefix, ipv6loopback] at h
    unfold isPrivateIP isLoopback isLinkLocalUnicast isLinkLocalMulticast
    rw [h4]
    rcases h with (h | ⟨h, h'⟩) | h
    · simp [h]
    · simp [h, h', hlen]
    · simp [h, hlen]

theorem length_addr (ctx : SockAddr) (family : Family) :
    (ctx.addr family).ip.length = 4 ∨ (ctx.addr family).ip.length = 16 := by
  cases family
  · exact Or.inl rfl
  · exact Or.inr rfl

/-- The text of an address reads back as an address that the router cannot tell from it. -/
theorem parseIP_text {ip : IP} (h : ip.length = 4 ∨ ip.length = 16) :
    ∃ ip', parseIP (ipString ip) = some ip' ∧ isPrivateIP ip' = isPrivateIP ip ∧
      ∀ n, netContains n ip' = netContains n ip := by
  rw [parseIP_ipString h]
  rcases h with h | h
  · have h4 : to4 ip = some ip := by simp [to4, h]
    have h4' : to4 (v4InV6Prefix ++ ip) = some ip := by simp [to4, h, v4InV6Prefix]
    refine ⟨v4InV6Prefix ++ ip, by simp [to16, h], ?_, ?_⟩
    · simp [isPrivateIP, isLoopback, isLinkLocalUnicast, isLinkLocalMulticast, h4, h4']
    · intro n
      simp [netContains, h4, h4']
  · exact ⟨ip, by simp [to16, h], rfl, fun _ => rfl⟩

/-! ## The two filters -/

section

variable [Unicode]

/-- The context of the router for a destination. -/
def contextOf (dst : SocketAddr) : MatchContext :=
  { MatchContext.blank with host := ipString dst.ip, port := dst.port.toNat }

/-- The router sends DNS directly, or the address is 127.0.0.1 or ::1. If it is another
local address, no remote LAN has it. If it is not local, the port is not that of DNS, or no
remote LAN has the address and it is private or goes out directly by the rules. -/
def Agrees (rm : RuleManager) (family : Family) (dst : SocketAddr) : Prop :=
  (rm.directDNS ∧ dst.port = 53) ∨ isLocalName (ipString dst.ip) ∨
    if kernelLocal family dst.ip then rm.inRemoteLAN dst.ip = false
    else dst.port = 53 → rm.inRemoteLAN dst.ip = false ∧
      (isPrivateIP dst.ip ∨ (rm.byRules (contextOf dst)).1 = .direct)

/-- What a hook lets pass is what the router sends directly, exactly for the destinations
on which the two agree. -/
theorem kernel_bypass_follows_the_router (rm : RuleManager) (h : Hook) (m : Maps)
    (ctx : SockAddr) (hm : addDefaults [] = some m.cidrBypassMap)
    (hmark : isBypassSocket m ctx = false) :
    (h.passes m ctx = true → (rm.matchContext (contextOf (ctx.addr h.family))).1 = .direct) ↔
      Agrees rm h.family (ctx.addr h.family) := by
  have hdefault : m.cidrBypassMap = defaultBypass := by
    rw [addDefaults_eq] at hm
    exact (Option.some.inj hm).symm
  rw [passes_iff hdefault hmark]
  have hlocal := isPrivateIP_of_kernelLocal ctx h.family
  obtain ⟨ip', hparse, hpriv, hnets⟩ := parseIP_text (length_addr ctx h.family)
  generalize ctx.addr h.family = dst at hlocal hparse hpriv hnets ⊢
  have hlan : rm.inRemoteLAN ip' = rm.inRemoteLAN dst.ip := by
    unfold RuleManager.inRemoteLAN
    simp only [hnets]
  have hport : (contextOf dst).port = 53 ↔ dst.port = 53 := by
    change (dst.port.toNat : Int) = 53 ↔ dst.port = 53
    rw [← UInt16.toNat_inj]
    exact Nat.cast_inj (R := Int) (n := 53)
  unfold Agrees
  by_cases hdns : rm.directDNS && (contextOf dst).port = 53
  · have hdirect : rm.matchContext (contextOf dst) = (.direct, []) := if_pos hdns
    simp only [Bool.and_eq_true, decide_eq_true_eq, hport] at hdns
    simp [hdirect, hdns]
  · by_cases hname : isLocalName (ipString dst.ip)
    · have hdirect : rm.matchContext (contextOf dst) = (.direct, []) :=
        (if_neg hdns).trans (if_pos hname)
      simp [hdirect, hname]
    · rw [matchContext_ip hparse hdns hname, hlan, hpriv]
      simp only [Bool.and_eq_true, decide_eq_true_eq, hport] at hdns
      simp only [hdns, hname, false_or]
      by_cases hk : kernelLocal h.family dst.ip
      · have hp := hlocal hk
        cases hl : rm.inRemoteLAN dst.ip <;> simp [hk, hp]
      · simp only [hk, Bool.false_or, beq_iff_eq, Bool.false_eq_true, if_false, false_or]
        apply imp_congr_right
        intro _
        cases hl : rm.inRemoteLAN dst.ip <;> cases hp : isPrivateIP dst.ip <;> simp

end

/-- The maps after `Load`. -/
def loadedMaps : Maps :=
  ⟨.empty, .empty, .empty, defaultBypass, ⟨12345, 0xff, false, 0, 0, ⟨0, 0, 0, 0⟩⟩⟩

/-- A connect to port 443 of an address. -/
def connectCtx (a b c d : UInt8) : SockAddr where
  userIp4 := leWord a b c d
  userIp6 := ⟨0, 0, 0, 0⟩
  userPort := swap16 443
  protocol := .tcp
  mark := some 0
  srcPort := 0
  cookie := 1
  task := ⟨7, []⟩

/-- Without remote LANs a private address passes both. -/
theorem private_address_passes_both :
    Hook.passes .connect4 loadedMaps (connectCtx 192 168 1 1) = true ∧
      ((newRuleManager ["DEFAULT,PROXY"]).matchContext
        (contextOf ((connectCtx 192 168 1 1).addr .inet))).1 = .direct := by
  have hpass : Hook.passes .connect4 loadedMaps (connectCtx 192 168 1 1) = true := by decide
  have hagree : Agrees (newRuleManager ["DEFAULT,PROXY"]) .inet
      ((connectCtx 192 168 1 1).addr .inet) := by
    unfold Agrees
    decide
  exact ⟨hpass, (kernel_bypass_follows_the_router _ .connect4 loadedMaps _ (by decide)
    (by decide)).mpr hagree hpass⟩

/-- The kernel lets a remote LAN pass that the router sends to the tunnel. -/
theorem remote_lan_passes_the_kernel :
    Hook.passes .connect4 loadedMaps (connectCtx 192 168 50 7) = true ∧
      (((newRuleManager []).setRemoteLANs ["192.168.50.0/24"]).matchContext
        (contextOf ((connectCtx 192 168 50 7).addr .inet))).1 = .proxy := by
  decide

end vproxy
