-- The hooks in the kernel and the iptables rules that stand in for them, on the same
-- traffic. A packet walks through the chains that setup leaves, is marked, comes back over
-- the loopback device and is taken there; the law says exactly where the two differ.
import Vproxy.IptablesHistory
import Vproxy.KernelBypass

open go go.net words netfilter vproxy.ebpf

namespace vproxy.iptables

/-! ## Packets -/

/-- A packet of a process in the cgroup, as it goes out. -/
structure Packet where
  proto : Proto
  mark : UInt32
  dst : IP
  port : UInt16
  deriving DecidableEq

def Packet.ver (p : Packet) : Ver := if p.dst.length = 4 then .v4 else .v6

/-- The destination lies in the network of this text. -/
def inNetwork (cidr : Str) (dst : IP) : Bool :=
  match parseCIDR cidr with
  | some n => n.ip.length = dst.length && maskIP dst n.mask = n.ip
  | none => false

/-- The program writes no test but these. -/
def Test.holds (p : Packet) : Test → Bool
  | .proto q => p.proto = q
  | .mark m => p.mark.toNat = m
  | .dst cidr => inNetwork cidr p.dst
  | .cgroup path => path = "vproxy"
  | .other _ => false

/-- What becomes of a packet that a rule takes. -/
inductive Capture where
  | redirect (toPorts : Str)
  | dnat (toDestination : Str)
  | tproxy (onPort onIp : Str)
  deriving DecidableEq

variable {F : Type}

/-- A packet in a chain of the program, which has no jumps. It comes out with its mark, or is
taken. -/
def walk : List (Rule F) → Packet → Packet × Option Capture
  | [], p => (p, none)
  | r :: rest, p =>
    if r.tests.all (Test.holds p) then
      match r.target with
      | .ret => (p, none)
      | .redirect toPorts => (p, some (.redirect toPorts))
      | .dnat toDestination => (p, some (.dnat toDestination))
      | .setMark m => walk rest { p with mark := UInt32.ofNat m }
      | .tproxy onPort onIp mark mask =>
        ({ p with mark := p.mark &&& ~~~ UInt32.ofNat mask ^^^ UInt32.ofNat mark },
          some (.tproxy onPort onIp))
      | .jump _ | .other _ => walk rest p
    else walk rest p

section

variable [DecidableEq F]

/-- A packet at a chain of the system: the hook, when it is there, sends it into `own`. -/
def through (s : Net F) (system : Chain F) (hook : Rule F) (own : Chain F) (p : Packet) :
    Packet × Option Capture :=
  if hook ∈ (s.chain system).getD [] ∧ hook.tests.all (Test.holds p) then
    walk ((s.chain own).getD []) p
  else (p, none)

/-- A policy rule for the mark sends the packet to table 100, and that to the loopback
device. -/
def comesBack (s : Net F) (p : Packet) : Bool :=
  .fwmark p.mark.toNat 100 ∈ s.entries (.rules p.ver) &&
    localRoute ∈ s.entries (.table100 p.ver)

/-- What the chains of the program do with a packet that goes out: OUTPUT of the mangle table,
OUTPUT of the nat table, and PREROUTING for what comes back. -/
def capture (s : Net F) (p : Packet) : Option Capture :=
  let v := p.ver
  let p := (through s (mangleOutput v) markHook (markChain v) p).1
  match (through s (natOutput v) (redirectHook p.proto) (redirectChain v) p).2 with
  | some c => some c
  | none =>
    if comesBack s p then (through s (manglePrerouting v) tproxyHook (tproxyChain v) p).2 else none

/-! ## The chains after setup -/

/-- The networks that both chains leave alone. -/
def bypassNets : Ver → List Str
  | .v4 => ["127.0.0.0/8", "10.0.0.0/8", "172.16.0.0/12", "192.168.0.0/16", "169.254.0.0/16"]
  | .v6 => ["::1/128", "fc00::/7", "fe80::/10"]

def tproxyOnIp : Ver → Str
  | .v4 => "127.0.0.1"
  | .v6 => "::1"

variable [Fintype F]

theorem chain_redirect (s : Net F) (target : Str) (v : Ver) :
    (setupRules s target false).1.chain (redirectChain v) =
      some (returnMarked :: (bypassNets v).map returnTo ++ [⟨[.proto .tcp], .redirect target⟩]) := by
  rw [chain_setupRules]
  cases v <;> cases s.chain _ <;> rfl

theorem chain_mark (s : Net F) (target : Str) (v : Ver) :
    (setupRules s target false).1.chain (markChain v) =
      some (returnMarked :: (bypassNets v).map returnTo ++ [⟨[], .setMark 1⟩]) := by
  rw [chain_setupRules]
  cases v <;> cases s.chain _ <;> rfl

theorem chain_tproxy (s : Net F) (target : Str) (v : Ver) :
    (setupRules s target false).1.chain (tproxyChain v) =
      some [⟨[.proto .udp, .mark 1], .tproxy target (tproxyOnIp v) 1 1⟩] := by
  rw [chain_setupRules]
  cases v <;> cases s.chain _ <;> rfl

/-- A hook that setup hangs in again is there. -/
theorem mem_hooked {s : Net F} {target : Str} {c : Chain F} {r : Rule F} (hc : isBuiltin c = true)
    (h : ∀ l, ((setupLines target false).map Line.cmd).foldl (act c) (some l) =
      some (l.erase r ++ [r])) :
    r ∈ ((setupRules s target false).1.chain c).getD [] := by
  obtain ⟨l, hl⟩ := Option.isSome_iff_exists.mp (s.isSome_builtin c hc)
  rw [chain_setupRules, hl, h l]
  simp

theorem mem_mangleOutput (s : Net F) (target : Str) (v : Ver) :
    markHook ∈ ((setupRules s target false).1.chain (mangleOutput v)).getD [] := by
  cases v <;> exact mem_hooked rfl fun _ => rfl

theorem mem_natOutput (s : Net F) (target : Str) (v : Ver) :
    redirectHook .tcp ∈ ((setupRules s target false).1.chain (natOutput v)).getD [] := by
  cases v <;> exact mem_hooked rfl fun _ => rfl

theorem mem_manglePrerouting (s : Net F) (target : Str) (v : Ver) :
    tproxyHook ∈ ((setupRules s target false).1.chain (manglePrerouting v)).getD [] := by
  cases v <;> exact mem_hooked rfl fun _ => rfl

theorem mem_entries (s : Net F) (target : Str) (e : Place) :
    ownEntry e ∈ (setupRules s target false).1.entries e := by
  have hadd : ∀ l, ((setupLines (F := F) target false).map Line.cmd).foldl
      (actEntries (host F) e) l = if ownEntry e ∈ l then l else putEntry e (ownEntry e) l := by
    intro l
    cases e <;> rename_i v <;> cases v <;> rfl
  rw [entries_setupRules, hadd]
  split
  · assumption
  · exact (host F).mem_put e _ _

/-! ## Walks -/

omit [DecidableEq F] [Fintype F] in
/-- A stretch of bypasses lets out what lies in one of the networks. -/
theorem walk_returnTo (nets : List Str) (rest : List (Rule F)) (p : Packet) :
    walk (nets.map returnTo ++ rest) p =
      if nets.any (inNetwork · p.dst) then (p, none) else walk rest p := by
  induction nets with
  | nil => rfl
  | cons cidr nets ih =>
    rw [List.map_cons, List.cons_append, walk, ih]
    cases h : inNetwork cidr p.dst <;> simp [returnTo, Test.holds, h]

/-- The packet has the mark of the proxy, or goes to a network that the chains leave alone. -/
def Packet.bypassed (p : Packet) : Bool :=
  p.mark.toNat = bypassMark || (bypassNets p.ver).any (inNetwork · p.dst)

omit [DecidableEq F] [Fintype F] in
theorem walk_bypasses (p : Packet) (last : Rule F) :
    walk (returnMarked :: (bypassNets p.ver).map returnTo ++ [last]) p =
      if p.bypassed then (p, none) else walk [last] p := by
  rw [List.cons_append, walk, walk_returnTo]
  cases h : decide (p.mark.toNat = bypassMark) <;>
    simp_all [returnMarked, Test.holds, Packet.bypassed]

/-! ## What is taken -/

variable (s : Net F) (target : Str) {p : Packet}

theorem capture_tcp (h : p.proto = .tcp) :
    capture (setupRules s target false).1 p =
      if p.bypassed then none else some (.redirect target) := by
  have hmark : (through (setupRules s target false).1 (mangleOutput p.ver) markHook
      (markChain p.ver) p).1 = p := by
    unfold through
    rw [if_neg]
    simp [markHook, Test.holds, h]
  have hback : (through (setupRules s target false).1 (manglePrerouting p.ver) tproxyHook
      (tproxyChain p.ver) p).2 = none := by
    unfold through
    rw [if_neg]
    simp [tproxyHook, Test.holds, h]
  have hnat : through (setupRules s target false).1 (natOutput p.ver) (redirectHook p.proto)
      (redirectChain p.ver) p = if p.bypassed then (p, none) else (p, some (.redirect target)) := by
    unfold through
    rw [h, if_pos ⟨mem_natOutput s target p.ver, by simp [redirectHook, Test.holds, h]⟩,
      chain_redirect, Option.getD_some, walk_bypasses]
    simp [walk, Test.holds, h]
  unfold capture
  dsimp only
  rw [hmark, hnat, hback]
  cases p.bypassed <;> simp

/-- The mark of a datagram after OUTPUT of the mangle table. -/
theorem marked_udp (h : p.proto = .udp) :
    (through (setupRules s target false).1 (mangleOutput p.ver) markHook (markChain p.ver) p).1 =
      if p.bypassed then p else { p with mark := 1 } := by
  unfold through
  rw [if_pos ⟨mem_mangleOutput s target p.ver, by simp [markHook, Test.holds, h]⟩, chain_mark,
    Option.getD_some, walk_bypasses]
  cases p.bypassed
  · simp [walk]
  · simp

/-- The nat table takes no datagram. -/
theorem nat_udp (h : p.proto = .udp) :
    (through (setupRules s target false).1 (natOutput p.ver) (redirectHook p.proto)
      (redirectChain p.ver) p).2 = none := by
  unfold through
  split
  · rw [chain_redirect, Option.getD_some, walk_bypasses]
    cases p.bypassed <;> simp [walk, Test.holds, h]
  · rfl

theorem back_udp (h : p.proto = .udp) :
    (if comesBack (setupRules s target false).1 p then
      (through (setupRules s target false).1 (manglePrerouting p.ver) tproxyHook
        (tproxyChain p.ver) p).2 else none) =
      if p.mark = 1 then some (.tproxy target (tproxyOnIp p.ver)) else none := by
  by_cases hone : p.mark = 1
  · have hrule := mem_entries s target (.rules p.ver)
    have hroute := mem_entries s target (.table100 p.ver)
    have hcomes : comesBack (setupRules s target false).1 p = true := by
      unfold comesBack
      rw [Bool.and_eq_true, decide_eq_true_eq, decide_eq_true_eq, hone]
      exact ⟨hrule, hroute⟩
    rw [if_pos hcomes, if_pos hone]
    unfold through
    rw [if_pos ⟨mem_manglePrerouting s target p.ver, by simp [tproxyHook, Test.holds, h, hone]⟩,
      chain_tproxy, Option.getD_some]
    simp [walk, Test.holds, h, hone]
  · have hmark : ¬ p.mark.toNat = 1 := fun heq => hone (UInt32.toNat_inj.mp heq)
    have hout : (through (setupRules s target false).1 (manglePrerouting p.ver) tproxyHook
        (tproxyChain p.ver) p).2 = none := by
      unfold through
      rw [if_neg (by simp [tproxyHook, Test.holds, hmark])]
    rw [if_neg hone, hout]
    exact ite_self _

theorem capture_udp (h : p.proto = .udp) :
    capture (setupRules s target false).1 p =
      if p.bypassed && p.mark ≠ 1 then none else some (.tproxy target (tproxyOnIp p.ver)) := by
  unfold capture
  dsimp only
  rw [marked_udp s target h]
  cases hb : p.bypassed with
  | true =>
    simp only [if_true]
    rw [nat_udp s target h]
    dsimp only
    rw [back_udp s target h]
    by_cases hone : p.mark = 1 <;> simp [hone]
  | false =>
    have hudp : ({ p with mark := 1 } : Packet).proto = .udp := h
    simp only [Bool.false_eq_true, if_false]
    rw [show p.ver = ({ p with mark := 1 } : Packet).ver from rfl, nat_udp s target hudp]
    dsimp only
    rw [back_udp s target hudp]
    simp

end

end vproxy.iptables

namespace vproxy

open iptables

/-! ## The same networks -/

theorem bypassNets_v4 (a b c d : UInt8) :
    (bypassNets .v4).any (inNetwork · [a, b, c, d]) = kernelLocal .inet [a, b, c, d] := by
  have h127 : parseCIDR "127.0.0.0/8" = some ⟨[127, 0, 0, 0], [255, 0, 0, 0]⟩ := by decide
  have h10 : parseCIDR "10.0.0.0/8" = some ⟨[10, 0, 0, 0], [255, 0, 0, 0]⟩ := by decide
  have h172 : parseCIDR "172.16.0.0/12" = some ⟨[172, 16, 0, 0], [255, 240, 0, 0]⟩ := by decide
  have h192 : parseCIDR "192.168.0.0/16" = some ⟨[192, 168, 0, 0], [255, 255, 0, 0]⟩ := by decide
  have h169 : parseCIDR "169.254.0.0/16" = some ⟨[169, 254, 0, 0], [255, 255, 0, 0]⟩ := by decide
  rw [Bool.eq_iff_iff]
  unfold bypassNets inNetwork kernelLocal
  simp only [List.any_cons, List.any_nil, h127, h10, h172, h192, h169, maskIP,
    List.zipWith_cons_cons, List.zipWith_nil_left, and_255, byte, List.getD_cons_zero,
    List.getD_cons_succ]
  simp [or_assoc]

theorem bypassNets_v6 {ip : IP} (h : ip.length = 16) :
    (bypassNets .v6).any (inNetwork · ip) = kernelLocal .inet6 ip := by
  have hloop : parseCIDR "::1/128" = some ⟨ipv6loopback, List.replicate 16 255⟩ := by decide
  have hula : parseCIDR "fc00::/7" =
      some ⟨0xfc :: 0 :: List.replicate 14 0, 0xfe :: 0 :: List.replicate 14 0⟩ := by decide
  have hlink : parseCIDR "fe80::/10" =
      some ⟨0xfe :: 0x80 :: List.replicate 14 0, 255 :: 0xc0 :: List.replicate 14 0⟩ := by decide
  have hones := maskIP_ones ip
  obtain ⟨a, b, rest, rfl⟩ := exists_cons_cons (l := ip) (by omega)
  have hrest : rest.length = 14 := by simpa using h
  have hzeros := maskIP_zeros rest
  rw [h] at hones
  rw [hrest] at hzeros
  unfold maskIP at hzeros
  have hlen : ipv6loopback.length = 16 := rfl
  rw [Bool.eq_iff_iff]
  unfold bypassNets inNetwork kernelLocal
  simp only [List.any_cons, List.any_nil, hloop, hula, hlink, hones]
  unfold maskIP
  simp only [List.zipWith_cons_cons, hzeros, and_255, byte, List.getD_cons_zero,
    List.getD_cons_succ, hlen, h]
  simp [or_assoc, or_comm]

theorem kernelLocal_mapped {ip a : IP} (hlen : ip.length = 16) (h : to4 ip = some a) :
    kernelLocal .inet6 ip = false := by
  have hmapped : ip.take 12 = v4InV6Prefix := by
    unfold to4 at h
    rw [if_neg (by omega)] at h
    split at h
    · rename_i hm
      exact hm.2
    · cases h
  have hip : ip = v4InV6Prefix ++ ip.drop 12 := by rw [← hmapped, List.take_append_drop]
  rw [hip]
  simp [kernelLocal, byte, v4InV6Prefix, ipv6loopback]

/-! ## One socket, two filters -/

def protocolOf : Proto → Protocol
  | .tcp => .tcp
  | .udp => .udp

/-- The socket of the context, with this protocol and this mark. -/
def socketOf (proto : Proto) (mark : UInt32) (ctx : SockAddr) : SockAddr :=
  { ctx with protocol := protocolOf proto, mark := some mark }

/-- The packet that goes to the destination; an IPv4 address in its IPv6 form is IPv4 on the
wire. -/
def packetTo (proto : Proto) (mark : UInt32) (dst : SocketAddr) : Packet :=
  ⟨proto, mark, (to4 dst.ip).getD dst.ip, dst.port⟩

/-- The networks that the chains leave alone, for a packet on the wire. -/
def wireLocal (family : Family) (ip : IP) : Bool :=
  match family, to4 ip with
  | .inet6, some a => kernelLocal .inet a
  | _, _ => kernelLocal family ip

theorem any_bypassNets (proto : Proto) (mark : UInt32) (ctx : SockAddr) (family : Family) :
    (bypassNets (packetTo proto mark (ctx.addr family)).ver).any
        (inNetwork · (packetTo proto mark (ctx.addr family)).dst) =
      wireLocal family (ctx.addr family).ip := by
  have hv4 : ∀ a : IP, a.length = 4 →
      (bypassNets (Packet.ver ⟨proto, mark, a, (ctx.addr family).port⟩)).any (inNetwork · a) =
        kernelLocal .inet a := by
    intro a ha
    obtain ⟨w, x, y, z, rfl⟩ := List.length_eq_four.mp ha
    exact bypassNets_v4 w x y z
  unfold packetTo wireLocal
  cases family with
  | inet => exact hv4 (ctx.addr .inet).ip rfl
  | inet6 =>
    cases h4 : to4 (ctx.addr .inet6).ip with
    | some a => exact hv4 a (length_to4 h4)
    | none => exact bypassNets_v6 rfl

/-- What `Load` writes in local mode. -/
structure LocalMode (m : Maps) : Prop where
  cidrs : addDefaults [] = some m.cidrBypassMap
  mark : m.configMap.bypassMark = 0xff
  here : m.configMap.isRemoteTproxy = false

/-- The mark is that of the proxy. Or else, for a datagram with mark 1, the port is not 53 and the
address not local; for an IPv4 address in its IPv6 form the port is 53 just when the address is
local; and for the rest port 53 is used at a local address only. -/
def Alike (proto : Proto) (mark : UInt32) (family : Family) (dst : SocketAddr) : Prop :=
  mark = 0xff ∨
    if proto = .udp ∧ mark = 1 then dst.port ≠ 53 ∧ kernelLocal family dst.ip = false
    else
      match family, to4 dst.ip with
      | .inet6, some a => dst.port = 53 ↔ kernelLocal .inet a = true
      | _, _ => dst.port = 53 → kernelLocal family dst.ip = true

theorem redirects_iff {m : Maps} (hm : LocalMode m) (h : Hook) (proto : Proto) (mark : UInt32)
    (ctx : SockAddr) :
    redirects h.family m (socketOf proto mark ctx) = true ↔
      mark ≠ 0xff ∧ kernelLocal h.family (ctx.addr h.family).ip = false ∧
        (ctx.addr h.family).port ≠ 53 := by
  have hdefault : m.cidrBypassMap = defaultBypass := by
    have hcidrs := hm.cidrs
    rw [addDefaults_eq] at hcidrs
    exact (Option.some.inj hcidrs).symm
  have haddr : (socketOf proto mark ctx).addr h.family = ctx.addr h.family := by
    cases h.family <;> rfl
  have hsocket : isBypassSocket m (socketOf proto mark ctx) = true ↔ mark = 0xff := by
    unfold isBypassSocket socketOf
    rw [hm.mark]
    simp
  unfold redirects
  rw [hm.here]
  by_cases hmark : mark = 0xff
  · have hpass : bypass h.family m (socketOf proto mark ctx) = true := by
      have hself := hsocket.mpr hmark
      cases h.family <;> simp [bypass, bypass4, bypass6, hself]
    rw [hpass]
    simp [hmark]
  · have hself : isBypassSocket m (socketOf proto mark ctx) = false := by
      rw [← Bool.not_eq_true, hsocket]
      exact hmark
    have hpass := passes_iff (h := h) hdefault hself
    rw [haddr] at hpass
    unfold Hook.passes at hpass
    rw [hpass]
    simp [hmark]

theorem bypassed_packetTo {mark : UInt32} (hmark : mark ≠ 0xff) (proto : Proto) (ctx : SockAddr)
    (family : Family) :
    (packetTo proto mark (ctx.addr family)).bypassed = wireLocal family (ctx.addr family).ip := by
  have hne : ¬ mark.toNat = bypassMark := fun heq => hmark (UInt32.toNat_inj.mp heq)
  unfold Packet.bypassed
  rw [any_bypassNets]
  simp [packetTo, hne]

/-- The hook and the chains leave the same addresses alone, but for port 53 and for IPv4
addresses in their IPv6 form. -/
theorem alike_of_unmarked (family : Family) (ctx : SockAddr) :
    ((kernelLocal family (ctx.addr family).ip = false ∧ (ctx.addr family).port ≠ 53) ↔
        wireLocal family (ctx.addr family).ip = false) ↔
      match family, to4 (ctx.addr family).ip with
      | .inet6, some a => (ctx.addr family).port = 53 ↔ kernelLocal .inet a = true
      | _, _ => (ctx.addr family).port = 53 → kernelLocal family (ctx.addr family).ip = true := by
  unfold wireLocal
  cases family with
  | inet =>
    dsimp only
    cases kernelLocal .inet (ctx.addr .inet).ip <;> simp
  | inet6 =>
    cases h4 : to4 (ctx.addr .inet6).ip with
    | some a =>
      dsimp only
      rw [kernelLocal_mapped rfl h4]
      cases kernelLocal .inet a <;> simp
    | none =>
      dsimp only
      cases kernelLocal .inet6 (ctx.addr .inet6).ip <;> simp

/-- Marked for the proxy, a datagram is taken when it comes back, wherever it goes. -/
theorem capture_packetTo {F : Type} [DecidableEq F] [Fintype F] (s : Net F) (target : Str)
    (proto : Proto) (mark : UInt32) (ctx : SockAddr) (family : Family) :
    (capture (setupRules s target false).1 (packetTo proto mark (ctx.addr family))).isSome = true ↔
      mark ≠ 0xff ∧
        (wireLocal family (ctx.addr family).ip = false ∨ proto = .udp ∧ mark = 1) := by
  by_cases hmark : mark = 0xff
  · have hbypassed : (packetTo proto mark (ctx.addr family)).bypassed = true := by
      simp [Packet.bypassed, packetTo, hmark, bypassMark]
    cases proto with
    | tcp =>
      rw [capture_tcp s target rfl, hbypassed]
      simp [hmark]
    | udp =>
      rw [capture_udp s target rfl, hbypassed]
      simp [packetTo, hmark]
  · have hlocal := bypassed_packetTo hmark proto ctx family
    cases proto with
    | tcp =>
      rw [capture_tcp s target rfl, hlocal]
      cases wireLocal family (ctx.addr family).ip <;> simp [hmark]
    | udp =>
      have hone : (packetTo .udp mark (ctx.addr family)).mark = 1 ↔ mark = 1 := by
        simp [packetTo, UInt32.ext_iff]
      rw [capture_udp s target rfl, hlocal]
      cases wireLocal family (ctx.addr family).ip <;> simp [hmark, hone]

/-- A hook redirects a connection or datagram just when the chains take its packet, exactly for
the traffic on which the two are alike. -/
theorem hooks_and_chains_take_the_same {F : Type} [DecidableEq F] [Fintype F] (s : Net F)
    (target : Str) (m : Maps) (hm : LocalMode m) (h : Hook) (proto : Proto) (mark : UInt32)
    (ctx : SockAddr) :
    (redirects h.family m (socketOf proto mark ctx) = true ↔
        (capture (setupRules s target false).1
          (packetTo proto mark (ctx.addr h.family))).isSome = true) ↔
      Alike proto mark h.family (ctx.addr h.family) := by
  rw [redirects_iff hm, capture_packetTo]
  unfold Alike
  by_cases hmark : mark = 0xff
  · simp [hmark]
  simp only [ne_eq, hmark, not_false_eq_true, true_and, false_or]
  split
  · rename_i hdatagram
    simp only [hdatagram, and_self, or_true, iff_true]
    exact and_comm
  · rename_i hdatagram
    simp only [hdatagram, or_false]
    exact alike_of_unmarked h.family ctx

theorem localMode_loadedMaps : LocalMode loadedMaps where
  cidrs := rfl
  mark := rfl
  here := rfl

/-- Web traffic to a public address is taken by both. -/
theorem both_take_web_traffic :
    redirects .inet loadedMaps (socketOf .tcp 0 (connectCtx 93 184 216 34)) = true ∧
      (capture (setupRules dockerNet "12345" false).1
        (packetTo .tcp 0 ((connectCtx 93 184 216 34).addr .inet))).isSome = true := by
  have hhook : redirects .inet loadedMaps (socketOf .tcp 0 (connectCtx 93 184 216 34)) = true := by
    decide
  have halike : Alike .tcp 0 .inet ((connectCtx 93 184 216 34).addr .inet) := by
    unfold Alike
    decide
  exact ⟨hhook, ((hooks_and_chains_take_the_same dockerNet "12345" loadedMaps localMode_loadedMaps
    .connect4 .tcp 0 (connectCtx 93 184 216 34)).mpr halike).mp hhook⟩

/-- A datagram for port 53 of an address. -/
def queryCtx (a b c d : UInt8) : SockAddr :=
  { connectCtx a b c d with userPort := swap16 53, protocol := .udp }

/-- A query to a public name server passes the hooks, and the chains take it. -/
theorem queries_are_taken_by_the_chains_only :
    redirects .inet loadedMaps (socketOf .udp 0 (queryCtx 8 8 8 8)) = false ∧
      capture (setupRules dockerNet "12345" false).1
        (packetTo .udp 0 ((queryCtx 8 8 8 8).addr .inet)) = some (.tproxy "12345" "127.0.0.1") := by
  have hbypassed : (packetTo .udp 0 ((queryCtx 8 8 8 8).addr .inet)).bypassed = false := by decide
  refine ⟨by decide, ?_⟩
  rw [capture_udp dockerNet "12345" rfl, hbypassed]
  rfl

end vproxy
