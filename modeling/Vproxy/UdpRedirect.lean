-- UDP in eBPF mode. A hook stores the destination of a send under the source port and
-- sends the datagram to the listener; the proxy reads one datagram at a time and takes
-- the destination out of the map. The law says when the two belong together.
import Vproxy.Redirect
import Vproxy.Mailslots
import Vproxy.Runs

open go go.net words runs

namespace vproxy.ebpf

/-! ## The decisions of the handler -/

/-- `resolveUDPTarget`: a hit of the map decides, otherwise the control message. -/
def resolveUDPTarget (ebpfMode : Bool) (cmsgDst ebpfDst : Option SocketAddr) (lookupErr : Bool) :
    Option SocketAddr :=
  if ebpfMode ∧ lookupErr = false ∧ ebpfDst.isSome then ebpfDst else cmsgDst

def isSelfProxyTarget (transPort : UInt16) (dst : SocketAddr) : Bool :=
  dst.port == transPort && isLoopback dst.ip

/-! ## Sockets, datagrams and the proxy -/

/-- A UDP socket of a client. The port is zero before the kernel binds it. -/
structure Socket where
  family : Family
  ip : IP
  port : UInt16
  mark : UInt32
  task : Task
  /-- After a connect: where the datagrams go, and what the client named. -/
  peer : Option (SocketAddr × SocketAddr)
  ip_family : familyOf ip = family

/-- An address as the client passes it to the kernel, in network order. -/
structure Dest where
  ip4 : UInt32
  ip6 : Words4
  port : UInt16

/-- A datagram in the queue of a listener: its sender, the address it was sent to after
the rewrite, and the destination that the client named. -/
structure Datagram where
  src : SocketAddr
  sentTo : SocketAddr
  named : SocketAddr
  deriving DecidableEq

def Datagram.key (g : Datagram) : UDPOrigKey := ⟨g.src.port, familyOf g.src.ip⟩

structure Udp where
  maps : Maps
  transPort : UInt16
  sockets : Nat → Socket
  /-- One listener for each family. -/
  queue : Family → List Datagram
  /-- The upstream of a session, by source and destination. -/
  sessions : SocketAddr × SocketAddr → Option SocketAddr
  /-- The datagrams that went out, each with where it went. -/
  forwarded : List (Datagram × SocketAddr)

/-- The context that a hook sees. -/
def Socket.ctx (s : Socket) (d : Dest) : SockAddr where
  userIp4 := d.ip4
  userIp6 := d.ip6
  userPort := d.port
  protocol := .udp
  mark := some s.mark
  srcPort := s.port
  cookie := 0
  task := s.task

/-- A bound socket keeps its port; the kernel gives `port` to one that is not bound. -/
def Socket.autobind (s : Socket) (port : UInt16) : Socket :=
  if s.port = 0 then { s with port } else s

/-- What happens around one step of the proxy: whether the read reports a control message,
whether the DNS hijacker answers, and whether the dial and the spoofing socket succeed. -/
structure Weather where
  cmsg : Bool
  answered : Bool
  dialed : Bool
  spoofed : Bool

inductive UdpAct where
  | socket (id : Nat) (s : Socket)
  | connect (id : Nat) (d : Dest) (port : UInt16)
  | sendto (id : Nat) (d : Dest) (port : UInt16) (room : Bool)
  | send (id : Nat) (room : Bool)
  | receive (family : Family) (w : Weather)
  | expire (session : SocketAddr × SocketAddr)

/-! ## The step -/

/-- A datagram reaches the proxy when it is sent to the listener, and the queue has room. -/
def Udp.deliver (u : Udp) (family : Family) (g : Datagram) (room : Bool) : Udp :=
  if room ∧ g.sentTo = listener u.transPort family then
    { u with queue := Function.update u.queue family (u.queue family ++ [g]) }
  else u

/-- The end of the loop of `serveTransparentUDP`: the datagram goes to the upstream of its
session, and a new session is dialled at the destination. -/
def Udp.relay (u : Udp) (g : Datagram) (dst : SocketAddr) (w : Weather) : Udp :=
  if dst.port = 53 ∧ w.answered then u
  else
    match u.sessions (g.src, dst) with
    | some upstream => { u with forwarded := (g, upstream) :: u.forwarded }
    | none =>
      if w.dialed ∧ w.spoofed then
        { u with
          sessions := Function.update u.sessions (g.src, dst) (some dst)
          forwarded := (g, dst) :: u.forwarded }
      else u

/-- One turn of the loop of `serveTransparentUDP`. -/
def Udp.serve (u : Udp) (g : Datagram) (w : Weather) : Udp :=
  let found := lookupUDPOrigDst u.maps.udpOrigDst g.src
  let u := { u with maps := { u.maps with udpOrigDst := found.rest } }
  match resolveUDPTarget true (if w.cmsg then some g.sentTo else none) found.addr
      found.addr.isNone with
  | none => u
  | some dst => if isSelfProxyTarget u.transPort dst then u else u.relay g dst w

def udpStep (u : Udp) : UdpAct → Udp
  | .socket id s => { u with sockets := Function.update u.sockets id s }
  | .connect id d port =>
    -- the hook runs before the kernel binds the socket
    let s := u.sockets id
    let (maps, ctx) := connectHook s.family u.maps (s.ctx d)
    let peer := some (ctx.addr s.family, (s.ctx d).addr s.family)
    { u with maps, sockets := Function.update u.sockets id { s.autobind port with peer } }
  | .sendto id d port room =>
    let s := (u.sockets id).autobind port
    let (maps, ctx) := sendmsgHook s.family u.maps (s.ctx d)
    { u with maps, sockets := Function.update u.sockets id s }.deliver s.family
      ⟨⟨s.ip, s.port⟩, ctx.addr s.family, (s.ctx d).addr s.family⟩ room
  | .send id room =>
    -- no hook: the address was rewritten at the connect
    let s := u.sockets id
    match s.peer with
    | some (sentTo, named) => u.deliver s.family ⟨⟨s.ip, s.port⟩, sentTo, named⟩ room
    | none => u
  | .receive family w =>
    match u.queue family with
    | g :: rest => { u with queue := Function.update u.queue family rest }.serve g w
    | [] => u
  | .expire session => { u with sessions := Function.update u.sessions session none }

/-! ## What a hook stores -/

/-- The destination that the map has for a key. -/
def Maps.slot (m : Maps) (k : UDPOrigKey) : Option SocketAddr :=
  (m.udpOrigDst.lookup k).map OriginalDst.toAddr

theorem sendmsgHook_maps (family : Family) (m : Maps) (ctx : SockAddr) :
    (sendmsgHook family m ctx).1 =
      if redirects family m ctx then storeUDP m ctx (stored family ctx) else m := by
  cases family with
  | inet => exact hook_maps _ _ _ m ctx
  | inet6 => exact hook_maps _ _ _ m ctx

/-- A connect of a UDP socket stores what a send stores. -/
theorem connectHook_eq_sendmsgHook {family : Family} {m : Maps} (ctx : SockAddr)
    (h : ctx.protocol = .udp) : connectHook family m ctx = sendmsgHook family m ctx := by
  cases family <;>
  simp [connectHook, sendmsgHook, sock4Connect, sock6Connect, sock4Sendmsg, sock6Sendmsg, hook,
    storeConnect, h]

/-- After a hook, a slot has the destination of this send or what it had before. -/
theorem slot_sendmsgHook {family : Family} {m : Maps} {ctx : SockAddr} {k : UDPOrigKey}
    {d : SocketAddr} (h : (sendmsgHook family m ctx).1.slot k = some d) :
    (redirects family m ctx ∧ k = ⟨ctx.srcPort, family⟩ ∧ d = ctx.addr family) ∨
      m.slot k = some d := by
  rw [sendmsgHook_maps] at h
  split at h
  · rename_i hr
    unfold Maps.slot storeUDP at h
    rw [Option.map_eq_some_iff] at h
    obtain ⟨e, he, rfl⟩ := h
    rw [family_stored] at he
    rcases BoundedMap.lookup_update_cases he with ⟨rfl, rfl⟩ | hold
    · exact Or.inl ⟨hr, rfl, toAddr_stored family ctx⟩
    · exact Or.inr (by rw [Maps.slot, hold, Option.map_some])
  · exact Or.inr h

/-- After a hook that redirects, the slot of the socket has this destination, or the map
was full and the slot is empty. -/
theorem slot_redirected {family : Family} {m : Maps} {ctx : SockAddr}
    (h : redirects family m ctx) :
    (sendmsgHook family m ctx).1.slot ⟨ctx.srcPort, family⟩ = none ∨
      (sendmsgHook family m ctx).1.slot ⟨ctx.srcPort, family⟩ = some (ctx.addr family) := by
  rw [sendmsgHook_maps, if_pos h]
  unfold Maps.slot storeUDP
  rw [family_stored]
  by_cases hroom : m.udpOrigDst.HasRoom ⟨ctx.srcPort, family⟩
  · right
    simp only [BoundedMap.lookup_update_self _ hroom, Option.map_some, toAddr_stored]
  · left
    simp only [BoundedMap.update_of_full _ hroom]
    unfold BoundedMap.HasRoom at hroom
    rw [not_or, Option.not_isSome_iff_eq_none] at hroom
    rw [hroom.1, Option.map_none]

/-! ## The rule that keeps them together -/

/-- The first datagram of the key that waits. -/
def Udp.waiting (u : Udp) (k : UDPOrigKey) : Option Datagram :=
  mailslots.first Datagram.key (u.queue k.family) k

/-- A hook may write the slot of `k`: the first datagram of `k` that waits, if there is one,
was sent to the same destination. -/
def Udp.MayStore (u : Udp) (k : UDPOrigKey) (d : SocketAddr) : Prop :=
  ∀ g ∈ u.waiting k, g.named = d

/-- A datagram may be queued without a write: its slot is empty or has its destination, or
another datagram of the key waits before it. -/
def Udp.MayQueue (u : Udp) (k : UDPOrigKey) (d : SocketAddr) : Prop :=
  u.maps.slot k = none ∨ u.maps.slot k = some d ∨ (u.waiting k).isSome

/-- The condition on a step, in the state before it. -/
def Udp.InTurn (u : Udp) : UdpAct → Prop
  | .connect id d _ =>
    let s := u.sockets id
    redirects s.family u.maps (s.ctx d) →
      u.MayStore ⟨s.port, s.family⟩ ((s.ctx d).addr s.family)
  | .sendto id d port _ =>
    let s := (u.sockets id).autobind port
    (redirects s.family u.maps (s.ctx d) →
        u.MayStore ⟨s.port, s.family⟩ ((s.ctx d).addr s.family)) ∧
      (¬ redirects s.family u.maps (s.ctx d) →
        u.MayQueue ⟨s.port, s.family⟩ ((s.ctx d).addr s.family))
  | .send id _ =>
    let s := u.sockets id
    ∀ p ∈ s.peer, u.MayQueue ⟨s.port, s.family⟩ p.2
  | _ => True

instance (u : Udp) (k : UDPOrigKey) (d : SocketAddr) : Decidable (u.MayStore k d) :=
  inferInstanceAs (Decidable (∀ g ∈ u.waiting k, g.named = d))

instance (u : Udp) (k : UDPOrigKey) (d : SocketAddr) : Decidable (u.MayQueue k d) :=
  inferInstanceAs (Decidable (_ ∨ _ ∨ _))

instance (u : Udp) (a : UdpAct) : Decidable (u.InTurn a) :=
  match a with
  | .connect _ _ _ => inferInstanceAs (Decidable (_ → _))
  | .sendto _ _ _ _ => inferInstanceAs (Decidable ((_ → _) ∧ (_ → _)))
  | .send id _ => inferInstanceAs (Decidable (∀ p ∈ (u.sockets id).peer, _))
  | .socket _ _ => inferInstanceAs (Decidable True)
  | .receive _ _ => inferInstanceAs (Decidable True)
  | .expire _ => inferInstanceAs (Decidable True)

/-- What holds in every state of a run in turn. -/
structure Udp.Inv (u : Udp) : Prop where
  families : ∀ family, ∀ g ∈ u.queue family, familyOf g.src.ip = family
  sentTo : ∀ family, ∀ g ∈ u.queue family, g.sentTo = listener u.transPort family
  agree : ∀ family, mailslots.Agree Datagram.key Datagram.named u.maps.slot (u.queue family)
  sessions : ∀ p d, u.sessions p = some d → d = p.2
  attributed : ∀ e ∈ u.forwarded, e.2 = e.1.named

/-! ## Each step keeps it -/

section

variable {u : Udp} {family : Family} {g : Datagram}

theorem Udp.Inv.withMaps (h : u.Inv) {maps : Maps}
    (hagree : ∀ f, mailslots.Agree Datagram.key Datagram.named maps.slot (u.queue f)) :
    { u with maps }.Inv :=
  ⟨h.families, h.sentTo, hagree, h.sessions, h.attributed⟩

theorem Udp.Inv.withSockets (h : u.Inv) (sockets : Nat → Socket) : { u with sockets }.Inv :=
  ⟨h.families, h.sentTo, h.agree, h.sessions, h.attributed⟩

/-- The first datagram of a key waits in the queue of the family of the key. -/
theorem Udp.Inv.waiting_of_first (h : u.Inv) {f : Family} {k : UDPOrigKey}
    (hg : mailslots.first Datagram.key (u.queue f) k = some g) : g ∈ u.waiting k := by
  unfold mailslots.first at hg
  have hmem := List.mem_of_find?_eq_some hg
  have hkey : g.key = k := by simpa using List.find?_some hg
  have hf : k.family = f := by
    rw [← hkey]
    exact h.families f g hmem
  rw [Option.mem_def, Udp.waiting, hf]
  exact hg

/-- A hook keeps slots and queues together when it may store. -/
theorem Udp.Inv.agree_hook (h : u.Inv) (ctx : SockAddr)
    (hmay : redirects family u.maps ctx → u.MayStore ⟨ctx.srcPort, family⟩ (ctx.addr family))
    (f : Family) :
    mailslots.Agree Datagram.key Datagram.named (sendmsgHook family u.maps ctx).1.slot
      (u.queue f) := by
  by_cases hr : redirects family u.maps ctx
  · apply (h.agree f).store
    · intro k d hk
      rcases slot_sendmsgHook hk with ⟨-, hkey, hd⟩ | hold
      · exact Or.inl ⟨hkey, hd⟩
      · exact Or.inr hold
    · intro g hg
      exact hmay hr g (h.waiting_of_first hg)
  · rw [sendmsgHook_maps, if_neg hr]
    exact h.agree f

/-- A datagram may join its queue when its slot is empty or its own, or another waits. -/
theorem Udp.Inv.deliver (h : u.Inv) (hfam : familyOf g.src.ip = family)
    (hmay : u.MayQueue g.key g.named) (room : Bool) : (u.deliver family g room).Inv := by
  unfold Udp.deliver
  split
  · rename_i hto
    have hqueue : ∀ f, ∀ x ∈ Function.update u.queue family (u.queue family ++ [g]) f,
        x ∈ u.queue f ∨ (f = family ∧ x = g) := by
      intro f x hx
      by_cases hf : f = family
      · subst hf
        rw [Function.update_self, List.mem_append, List.mem_singleton] at hx
        exact hx.imp_right (fun hxg => ⟨rfl, hxg⟩)
      · rw [Function.update_of_ne hf] at hx
        exact Or.inl hx
    refine ⟨?_, ?_, ?_, h.sessions, h.attributed⟩
    · intro f x hx
      rcases hqueue f x hx with hold | ⟨rfl, rfl⟩
      · exact h.families f x hold
      · exact hfam
    · intro f x hx
      rcases hqueue f x hx with hold | ⟨rfl, rfl⟩
      · exact h.sentTo f x hold
      · exact hto.2
    · intro f
      by_cases hf : f = family
      · subst hf
        simp only [Function.update_self]
        apply (h.agree f).push
        have hkey : g.key.family = f := hfam
        unfold Udp.MayQueue Udp.waiting at hmay
        rw [hkey] at hmay
        exact hmay
      · simp only [Function.update_of_ne hf]
        exact h.agree f
  · exact h

/-- A relay sends the datagram to the resolved destination. -/
theorem Udp.Inv.relay (h : u.Inv) {dst : SocketAddr} (hdst : dst = g.named) (w : Weather) :
    (u.relay g dst w).Inv := by
  unfold Udp.relay
  split
  · exact h
  · split
    · rename_i upstream hs
      refine ⟨h.families, h.sentTo, h.agree, h.sessions, ?_⟩
      intro e he
      rcases List.mem_cons.mp he with rfl | hold
      · rw [← hdst]
        exact h.sessions _ _ hs
      · exact h.attributed e hold
    · split
      · refine ⟨h.families, h.sentTo, h.agree, ?_, ?_⟩
        · intro p d hp
          dsimp only at hp
          by_cases hpk : p = (g.src, dst)
          · rw [hpk, Function.update_self] at hp
            rw [hpk, ← Option.some.inj hp]
          · rw [Function.update_of_ne hpk] at hp
            exact h.sessions p d hp
        · intro e he
          rcases List.mem_cons.mp he with rfl | hold
          · exact hdst
          · exact h.attributed e hold
      · exact h

/-- The address of a listener is a target of the proxy itself. -/
theorem isSelfProxyTarget_listener (port : UInt16) (f : Family) :
    isSelfProxyTarget port (listener port f) := by
  cases f <;> simp only [isSelfProxyTarget, listener, beq_self_eq_true, Bool.true_and] <;> decide

/-- What a lookup leaves in the map: the slots of all other keys. -/
theorem slot_taken {m : Maps} {g : Datagram} {k : UDPOrigKey} {d : SocketAddr}
    (hk : Maps.slot { m with
      udpOrigDst := (takeOrigDst m.udpOrigDst g.key g.src.port).rest } k = some d) :
    k ≠ g.key ∧ m.slot k = some d := by
  unfold Maps.slot at hk
  rw [lookup_rest_takeOrigDst] at hk
  by_cases hkey : k = g.key
  · rw [if_pos hkey] at hk
    cases hk
  · rw [if_neg hkey] at hk
    exact ⟨hkey, hk⟩

/-- The first datagram of a queue leaves, and its slot with it. -/
theorem Udp.Inv.taken (h : u.Inv) {rest : List Datagram} (hq : u.queue family = g :: rest) :
    Udp.Inv { u with
      queue := Function.update u.queue family rest
      maps := { u.maps with
        udpOrigDst := (takeOrigDst u.maps.udpOrigDst g.key g.src.port).rest } } := by
  have hagree := h.agree family
  rw [hq] at hagree
  have hsub : ∀ f, ∀ x ∈ Function.update u.queue family rest f, x ∈ u.queue f := by
    intro f x hx
    by_cases hf : f = family
    · subst hf
      rw [Function.update_self] at hx
      simp [hq, hx]
    · rwa [Function.update_of_ne hf] at hx
  refine ⟨fun f x hx => h.families f x (hsub f x hx), fun f x hx => h.sentTo f x (hsub f x hx),
    ?_, h.sessions, h.attributed⟩
  intro f
  by_cases hf : f = family
  · subst hf
    simp only [Function.update_self]
    exact hagree.take fun k d hk => slot_taken hk
  · simp only [Function.update_of_ne hf]
    exact (h.agree f).sub fun k d hk => (slot_taken hk).2

/-- The proxy takes the first datagram of a queue and what the map has for it. -/
theorem Udp.Inv.serve (h : u.Inv) {rest : List Datagram} (hq : u.queue family = g :: rest)
    (w : Weather) :
    ({ u with queue := Function.update u.queue family rest }.serve g w).Inv := by
  have hg : g ∈ u.queue family := by simp [hq]
  have hagree := h.agree family
  rw [hq] at hagree
  have haddr := addr_takeOrigDst u.maps.udpOrigDst g.key g.src.port
  have hinv := h.taken hq
  unfold Udp.serve lookupUDPOrigDst
  change Udp.Inv (match resolveUDPTarget true (if w.cmsg then some g.sentTo else none)
    (takeOrigDst u.maps.udpOrigDst g.key g.src.port).addr
    (takeOrigDst u.maps.udpOrigDst g.key g.src.port).addr.isNone with
    | none => _
    | some dst => _)
  rw [haddr]
  cases hslot : (u.maps.udpOrigDst.lookup g.key).map OriginalDst.toAddr with
  | some d =>
    simp only [resolveUDPTarget, Option.isNone_some, Option.isSome_some, and_self, if_true]
    split
    · exact hinv
    · exact hinv.relay (hagree.head hslot).symm w
  | none =>
    -- a miss leaves the address of the listener, which the proxy drops
    have hself := isSelfProxyTarget_listener u.transPort family
    rw [← h.sentTo family g hg] at hself
    cases w.cmsg with
    | false => exact hinv
    | true =>
      simp only [resolveUDPTarget, Option.isSome_none, Bool.false_eq_true, and_false, if_false,
        if_true, hself]
      exact hinv

theorem udpStep_inv (h : u.Inv) {a : UdpAct} (ha : u.InTurn a) : (udpStep u a).Inv := by
  cases a with
  | socket id s => exact h.withSockets _
  | connect id d port =>
    have hagree := h.agree_hook ((u.sockets id).ctx d) ha
    simp only [udpStep, connectHook_eq_sendmsgHook ((u.sockets id).ctx d) rfl]
    exact (h.withMaps hagree).withSockets _
  | sendto id d port room =>
    simp only [udpStep]
    simp only [Udp.InTurn] at ha
    generalize (u.sockets id).autobind port = s at ha ⊢
    have hkey : (⟨s.port, familyOf s.ip⟩ : UDPOrigKey) = ⟨s.port, s.family⟩ := by rw [s.ip_family]
    by_cases hr : redirects s.family u.maps (s.ctx d)
    · have hinv := (h.withMaps (h.agree_hook (s.ctx d) ha.1)).withSockets
        (Function.update u.sockets id s)
      refine hinv.deliver s.ip_family ?_ room
      unfold Datagram.key
      rw [hkey]
      exact (slot_redirected hr).imp_right Or.inl
    · have hsame : (sendmsgHook s.family u.maps (s.ctx d)).1 = u.maps := by
        rw [sendmsgHook_maps, if_neg hr]
      rw [hsame]
      refine (h.withSockets _).deliver s.ip_family ?_ room
      unfold Datagram.key
      rw [hkey]
      exact ha.2 hr
  | send id room =>
    simp only [udpStep]
    cases hp : (u.sockets id).peer with
    | none => exact h
    | some p =>
      refine h.deliver (u.sockets id).ip_family ?_ room
      unfold Datagram.key
      rw [(u.sockets id).ip_family]
      exact ha p hp
  | receive family w =>
    simp only [udpStep]
    cases hq : u.queue family with
    | nil => exact h
    | cons g rest => exact h.serve hq w
  | expire session =>
    refine ⟨h.families, h.sentTo, h.agree, ?_, h.attributed⟩
    intro p d hp
    simp only [udpStep] at hp
    by_cases hps : p = session
    · rw [hps, Function.update_self] at hp
      cases hp
    · rw [Function.update_of_ne hps] at hp
      exact h.sessions p d hp

end

/-! ## Runs -/

/-- The state after `Load`: no entry, no datagram, no session. -/
def udpStart (config : Config) (cidrs : List LPMCIDRKey) (transPort : UInt16)
    (sockets : Nat → Socket) : Udp where
  maps := ⟨.empty, .empty, .empty, cidrs, config⟩
  transPort := transPort
  sockets := sockets
  queue := fun _ => []
  sessions := fun _ => none
  forwarded := []

theorem udpStart_inv (config : Config) (cidrs : List LPMCIDRKey) (transPort : UInt16)
    (sockets : Nat → Socket) : (udpStart config cidrs transPort sockets).Inv where
  families := by simp [udpStart]
  sentTo := by simp [udpStart]
  agree := fun _ => mailslots.agree_nil
  sessions := by simp [udpStart]
  attributed := by simp [udpStart]

/-- Every datagram that the proxy forwards goes where its own sender sent it, as long as no
hook writes the slot of a datagram that waits for another destination, and no datagram
without a hook finds a slot of another send. -/
theorem datagrams_go_where_they_were_sent (config : Config) (cidrs : List LPMCIDRKey)
    (transPort : UInt16) (sockets : Nat → Socket) (acts : List UdpAct)
    (h : Along udpStep Udp.InTurn (udpStart config cidrs transPort sockets) acts) :
    ∀ e ∈ (run udpStep (udpStart config cidrs transPort sockets) acts).forwarded,
      e.2 = e.1.named :=
  (run_invariant Udp.Inv (fun _ _ hu ha => udpStep_inv hu ha)
    (udpStart_inv config cidrs transPort sockets) h).attributed

section

/-- A client on 127.0.0.1:40000. -/
def client : Socket where
  family := .inet
  ip := [127, 0, 0, 1]
  port := 40000
  mark := 0
  task := ⟨7, []⟩
  peer := none
  ip_family := rfl

/-- The proxy on port 12345 with the default bypass list, and one client. -/
def oneClient : Udp :=
  udpStart ⟨12345, 0xff, false, 0, 0, ⟨0, 0, 0, 0⟩⟩ defaultBypass 12345 (fun _ => client)

def dest (a b c d : UInt8) : Dest := ⟨leWord a b c d, ⟨0, 0, 0, 0⟩, swap16 443⟩

def fair : Weather := ⟨false, false, true, true⟩

/-- Sends and reads that take turns. -/
theorem two_sends_in_turn :
    let acts := [.sendto 0 (dest 1 1 1 1) 0 true, .receive .inet fair,
      .sendto 0 (dest 8 8 8 8) 0 true, .receive .inet fair]
    (run udpStep oneClient acts).forwarded.length = 2 ∧
      ∀ e ∈ (run udpStep oneClient acts).forwarded, e.2 = e.1.named := by
  refine ⟨by decide, datagrams_go_where_they_were_sent _ _ _ _ _ (by decide)⟩

/-- Two sends before the first read: the first datagram goes to the second destination. -/
theorem first_datagram_takes_the_second_destination :
    ∃ e ∈ (run udpStep oneClient [.sendto 0 (dest 1 1 1 1) 0 true,
        .sendto 0 (dest 8 8 8 8) 0 true, .receive .inet fair]).forwarded,
      e.1.named = ⟨[1, 1, 1, 1], 443⟩ ∧ e.2 = ⟨[8, 8, 8, 8], 443⟩ := by
  decide

end

end vproxy.ebpf
