-- Traffic of the proxy that comes back to the proxy. Transparent TCP drops a connection to its
-- own address unless it comes from the TUN stack, and transparent UDP drops a datagram to its own
-- port. But a connection that was wrapped for peeking no longer looks like one of the TUN stack,
-- and only the loopback addresses count as the own ones of the UDP listener.
import Vproxy.FakeIpRestore
import Vproxy.UdpRedirect
import Mathlib.Data.Set.Basic

open go go.net go.regexp

namespace vproxy

/-! ## Transparent TCP -/

/-- After the fake address, the target is an address at port 443, so `forward` looks for an SNI. -/
def LooksForSNI (w : World) (target : Str) : Prop :=
  (parseIP (hostPort (restore w.pool target).1).1).isSome ∧
    (hostPort (restore w.pool target).1).2 = "443"

instance (w : World) (target : Str) : Decidable (LooksForSNI w target) :=
  inferInstanceAs (Decidable (_ ∧ _))

theorem peeking_resolve (w : World) (c : Client) (target : Str) :
    (resolve w c target).peeking ↔ LooksForSNI w target := by
  have hpeeking : (resolve w c target).peeking =
      ((parseIP (hostPort (restore w.pool target).1).1).isSome &&
        (hostPort (restore w.pool target).1).2 = "443") := by
    unfold resolve
    dsimp only
    split
    · split <;> rfl
    · rfl
  rw [hpeeking, Bool.and_eq_true, decide_eq_true_eq]
  rfl

/-- Without a name in the SNI the target stays what it is after the fake address. -/
theorem resolve_nameless {w : World} {c : Client} (h : c.sni.getD [] = []) (target : Str) :
    (resolve w c target).target = (restore w.pool target).1 := by
  unfold resolve
  dsimp only
  rw [h, ite_self]
  rfl

theorem isLoop_iff (w : World) (c : Client) (target : Str) :
    isLoop c (resolve w c target) ↔
      (resolve w c target).target = c.localAddr ∧ (c.isTUN → LooksForSNI w target) := by
  rw [← peeking_resolve w c target]
  unfold isLoop isTUNConn
  cases c.isTUN <;> simp

section

variable [Regexp] [Unicode]

/-- A loop is dropped before the rules are asked, and nothing else is. -/
theorem forward_drops_iff (ph : ProxyHandler) (w : World) (c : Client) (target : Str) :
    (ph.forward w c target).events = [] ↔ isLoop c (resolve w c target) := by
  unfold ProxyHandler.forward
  dsimp only
  split
  · rename_i hloop
    exact iff_of_true rfl hloop
  · rename_i hloop
    exact iff_of_false (List.cons_ne_nil _ _) hloop

/-- Loop detection drops exactly the connections to their own address that are not from the TUN
stack, but for those TUN connections that were looked at for an SNI. -/
theorem loop_detection_is_exact_iff (ph : ProxyHandler) (w : World) (c : Client) (target : Str) :
    ((ph.forward w c target).events = [] ↔
      ¬ c.isTUN ∧ (resolve w c target).target = c.localAddr) ↔
    ¬ (c.isTUN ∧ LooksForSNI w target ∧ (resolve w c target).target = c.localAddr) := by
  rw [forward_drops_iff, isLoop_iff]
  by_cases htun : c.isTUN
  · simp only [htun, not_true_eq_false, false_and, iff_false, true_and, not_and]
    constructor
    · intro h hsni htarget
      exact h htarget (fun _ => hsni)
    · intro h htarget hsni
      exact h (hsni trivial) htarget
  · simp [htun]

/-- The TUN stack gives a connection the destination as its local address. Such a connection to
an ordinary address at port 443 is dropped when it shows no name. -/
theorem forward_drops_nameless_tls (ph : ProxyHandler) {w : World} {c : Client}
    (hreal : (restore w.pool c.localAddr).1 = c.localAddr)
    (haddr : LooksForSNI w c.localAddr) (hsni : c.sni.getD [] = []) :
    (ph.forward w c c.localAddr).events = [] := by
  rw [forward_drops_iff, isLoop_iff, resolve_nameless hsni, hreal]
  exact ⟨rfl, fun _ => haddr⟩

end

/-- A TLS connection of the TUN stack. -/
def tunClient : Client := { anyClient with localAddr := "192.0.2.1:443", isTUN := true }

/-- A connection of the TUN stack to an address at port 443 without an SNI is dropped as a
loop. -/
theorem tun_connection_dropped_as_loop :
    tunClient.isTUN ∧ (resolve poolWorld tunClient "192.0.2.1:443").target = "192.0.2.1:443" ∧
      (allProxied.forward poolWorld tunClient "192.0.2.1:443").events = [] := by
  refine ⟨rfl, by decide +kernel, ?_⟩
  exact forward_drops_nameless_tls allProxied (by decide +kernel) (by decide +kernel) rfl

/-! ## Transparent UDP -/

/-- What a turn of the loop of `serveTransparentUDP` has in hand: the destination of the control
message, that of the map with the error of the lookup, whether the DNS hijacker answers, and
whether a session is there. -/
structure UdpTurn where
  ebpfMode : Bool
  cmsgDst : Option SocketAddr
  ebpfDst : Option SocketAddr
  lookupErr : Bool
  hijacked : Bool
  session : Bool

def UdpTurn.dst (g : UdpTurn) : Option SocketAddr :=
  ebpf.resolveUDPTarget g.ebpfMode g.cmsgDst g.ebpfDst g.lookupErr

/-- What becomes of the datagram. -/
inductive UdpFate where
  | dropped
  | answered
  | relayed
  | dialed (events : List Event)
  deriving DecidableEq

section

variable [Regexp] [Unicode]

/-- One turn of the loop. -/
def ProxyHandler.udpTurn (ph : ProxyHandler) (w : World) (c : Client) (transPort : UInt16)
    (g : UdpTurn) : UdpFate :=
  match g.dst with
  | none => .dropped
  | some dst =>
    if ebpf.isSelfProxyTarget transPort dst then .dropped
    else if dst.port = 53 && g.hijacked then .answered
    else if g.session then .relayed
    else .dialed (ph.serveTransparentUDP w c dst false false).events

/-- A datagram with a destination is dropped only by the guard. -/
theorem udpTurn_dropped_iff (ph : ProxyHandler) (w : World) (c : Client) {transPort : UInt16}
    {g : UdpTurn} {dst : SocketAddr} (h : g.dst = some dst) :
    ph.udpTurn w c transPort g = .dropped ↔ dst.port = transPort ∧ isLoopback dst.ip := by
  have hself : ebpf.isSelfProxyTarget transPort dst ↔
      dst.port = transPort ∧ isLoopback dst.ip := by
    rw [ebpf.isSelfProxyTarget, Bool.and_eq_true, beq_iff_eq]
  rw [← hself]
  unfold ProxyHandler.udpTurn
  rw [h]
  dsimp only
  split
  · rename_i hown
    exact iff_of_true rfl hown
  · rename_i hown
    refine iff_of_false ?_ hown
    intro hdropped
    split at hdropped
    · cases hdropped
    split at hdropped
    · cases hdropped
    · cases hdropped

omit [Regexp] [Unicode] in
/-- In both modes a datagram may be resolved to any destination. -/
theorem exists_turn (mode : Bool) (dst : SocketAddr) :
    ∃ g : UdpTurn, g.ebpfMode = mode ∧ g.dst = some dst := by
  refine ⟨⟨mode, some dst, none, true, false, false⟩, rfl, ?_⟩
  unfold UdpTurn.dst ebpf.resolveUDPTarget
  simp

/-- The listener drops what goes to a local address at its own port, exactly when the local
addresses are all loopback addresses. -/
theorem listener_drops_own_traffic_iff (ph : ProxyHandler) (w : World) (c : Client)
    (transPort : UInt16) (mode : Bool) (locals : Set IP) :
    (∀ (g : UdpTurn) (dst : SocketAddr), g.ebpfMode = mode → g.dst = some dst →
      dst.ip ∈ locals → dst.port = transPort → ph.udpTurn w c transPort g = .dropped) ↔
    ∀ ip ∈ locals, isLoopback ip := by
  constructor
  · intro hdrops ip hip
    obtain ⟨g, hmode, hdst⟩ := exists_turn mode ⟨ip, transPort⟩
    have hdropped := hdrops g _ hmode hdst hip rfl
    exact ((udpTurn_dropped_iff ph w c hdst).mp hdropped).2
  · intro hloopback g dst _ hdst hip hport
    exact (udpTurn_dropped_iff ph w c hdst).mpr ⟨hport, hloopback dst.ip hip⟩

end

/-- A datagram to an address of the LAN at the own port. -/
def lanTurn : UdpTurn := ⟨false, some ⟨[192, 168, 1, 5], 10080⟩, none, true, false, false⟩

/-- The proxy dials its own listener at a LAN address. -/
theorem own_lan_address_is_dialed :
    lanTurn.dst = some ⟨[192, 168, 1, 5], 10080⟩ ∧
      allProxied.udpTurn poolWorld anyClient 10080 lanTurn =
        .dialed [.matched ⟨"192.168.1.5", 10080, [], 0, []⟩, .dialDirect "192.168.1.5:10080"] := by
  refine ⟨by decide +kernel, by decide +kernel⟩

end vproxy
