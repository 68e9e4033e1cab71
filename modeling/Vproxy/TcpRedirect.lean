-- TCP in eBPF mode. The connect hook files the destination under the cookie of the
-- socket, the established connection moves it under its four addresses, and the proxy
-- takes it out after the accept. The law says when no connection loses its entry.
import Vproxy.Redirect
import Vproxy.Runs
import Mathlib.Data.List.Pairwise

open go go.net words runs

namespace vproxy.ebpf

/-! ## Connections -/

inductive Phase where
  | connecting
  | established
  | accepted
  deriving DecidableEq, Repr

/-- The end of the client; the port is in host order. -/
structure ClientEnd where
  ip4 : UInt32
  ip6 : Words4
  port : UInt16
  deriving DecidableEq

/-- A connection: what its connect named, and the address that the hook left. -/
structure Conn where
  family : Family
  ctx : SockAddr
  remote : SockAddr
  client : ClientEnd
  redirected : Bool
  phase : Phase

def Conn.cookie (c : Conn) : UInt64 := c.ctx.cookie

/-- The destination that the connect named. -/
def Conn.named (c : Conn) : SocketAddr := c.ctx.addr c.family

/-- What the sockops program sees of the established connection. -/
def Conn.skops (c : Conn) : SockOps where
  activeEstablished := true
  cookie := c.cookie
  family := c.family
  localPort := c.client.port.toUInt32
  remotePort := c.remote.userPort.toUInt32 <<< 16
  localIp4 := c.client.ip4
  remoteIp4 := c.remote.userIp4
  localIp6 := c.client.ip6
  remoteIp6 := c.remote.userIp6

def Conn.key (c : Conn) : TCP4TupleKey := sockopsKey c.skops

/-- An IPv4 address as a listener reports it: in four bytes, or mapped to sixteen by a
listener for both families. -/
def reported (mapped : Bool) (family : Family) (a : SocketAddr) : SocketAddr :=
  if mapped ∧ family = .inet then ⟨v4InV6Prefix ++ a.ip, a.port⟩ else a

/-- `conn.LocalAddr()` of the accepted connection. -/
def Conn.localAddr (c : Conn) (mapped : Bool) : SocketAddr :=
  reported mapped c.family (c.remote.addr c.family)

/-- `conn.RemoteAddr()` of the accepted connection. -/
def Conn.remoteAddr (c : Conn) (mapped : Bool) : SocketAddr :=
  reported mapped c.family
    (match c.family with
    | .inet => ⟨leBytes c.client.ip4, c.client.port⟩
    | .inet6 => ⟨c.client.ip6.bytes, c.client.port⟩)

/-! ## The step -/

structure Tcp where
  maps : Maps
  live : List Conn
  /-- What each accept was told, newest first. -/
  resolved : List (Conn × Option SocketAddr)

inductive TcpAct where
  | connect (family : Family) (ctx : SockAddr) (client : ClientEnd)
  | establish (cookie : UInt64)
  | fail (cookie : UInt64)
  | accept (cookie : UInt64) (mapped : Bool)
  | close (cookie : UInt64)

def Tcp.find (t : Tcp) (cookie : UInt64) (phase : Phase) : Option Conn :=
  t.live.find? (fun c => decide (c.cookie = cookie ∧ c.phase = phase))

def Tcp.others (t : Tcp) (cookie : UInt64) : List Conn :=
  t.live.filter (fun c => decide (c.cookie ≠ cookie))

/-- The connection that a connect starts. -/
def Tcp.conn (t : Tcp) (family : Family) (ctx : SockAddr) (client : ClientEnd) : Conn where
  family := family
  ctx := ctx
  remote := (connectHook family t.maps ctx).2
  client := client
  redirected := redirects family t.maps ctx
  phase := .connecting

def tcpStep (t : Tcp) : TcpAct → Tcp
  | .connect family ctx client =>
    { t with
      maps := (connectHook family t.maps ctx).1
      live := t.conn family ctx client :: t.live }
  | .establish cookie =>
    match t.find cookie .connecting with
    | some c =>
      { t with
        maps := vproxySockops t.maps c.skops
        live := { c with phase := .established } :: t.others cookie }
    | none => t
  | .fail cookie =>
    -- no program runs: the entry of the cookie stays
    match t.find cookie .connecting with
    | some _ => { t with live := t.others cookie }
    | none => t
  | .accept cookie mapped =>
    match t.find cookie .established with
    | some c =>
      let found := lookupTCPOrigDst t.maps.tcpOrigDst (c.localAddr mapped) (c.remoteAddr mapped)
      { maps := { t.maps with tcpOrigDst := found.rest }
        live := { c with phase := .accepted } :: t.others cookie
        resolved := (c, found.addr) :: t.resolved }
    | none => t
  | .close cookie =>
    { t with live := t.live.filter (fun c => decide (c.cookie ≠ cookie ∨ c.phase = .connecting)) }

/-! ## Both sides compute the same key -/

theorem bytes_word (w : UInt32) : Words4.bytes ⟨w, 0, 0, 0⟩ = padded (leBytes w) := by
  have h0 : leBytes 0 = [0, 0, 0, 0] := by decide
  have hlen : (leBytes w).length = 4 := rfl
  simp [Words4.bytes, padded, h0, hlen]

theorem to4_leBytes (w : UInt32) : to4 (leBytes w) = some (leBytes w) := by
  simp [to4, leBytes]

theorem to4_mapped (w : UInt32) : to4 (v4InV6Prefix ++ leBytes w) = some (leBytes w) := by
  simp [to4, leBytes, v4InV6Prefix]

theorem length_bytes (w : Words4) : w.bytes.length = 16 := rfl

theorem to16_bytes (w : Words4) : to16 w.bytes = some w.bytes := by
  simp [to16, length_bytes]

theorem padded_bytes (w : Words4) : padded w.bytes = w.bytes := by
  simp [padded, length_bytes]

/-- The connection reaches an address of the family of its socket, not a mapped one. -/
def Conn.Native (c : Conn) : Prop := familyOf (c.remote.addr c.family).ip = c.family

instance (c : Conn) : Decidable c.Native := inferInstanceAs (Decidable (_ = _))

theorem native_of_listener {c : Conn} {port : UInt16}
    (h : c.remote.addr c.family = listener port c.family) : c.Native := by
  unfold Conn.Native
  rw [h]
  cases c.family <;> rfl

/-- The key that the Go side computes from the accepted connection is the one under which
the sockops program filed it. -/
theorem acceptedKey_eq {c : Conn} (h : c.Native) (mapped : Bool) :
    acceptedKey (c.localAddr mapped) (c.remoteAddr mapped) = c.key := by
  unfold Conn.key sockopsKey acceptedKey Conn.localAddr Conn.remoteAddr Conn.skops reported
  unfold Conn.Native at h
  cases hf : c.family with
  | inet =>
    cases mapped <;>
      simp [SockAddr.addr, familyOf, to4_leBytes, to4_mapped, bytes_word, swap32_upper]
  | inet6 =>
    have hnot4 : to4 c.remote.userIp6.bytes = none := by
      rw [hf] at h
      by_contra hn
      rw [← ne_eq, ← Option.isSome_iff_ne_none] at hn
      simp [familyOf, SockAddr.addr, hn] at h
    simp [SockAddr.addr, familyOf, hnot4, to16_bytes, padded_bytes, swap32_upper]

/-! ## The rule and the invariant -/

/-- Cookies and four-tuples are unique among the live connections. -/
def Conn.Apart (c d : Conn) : Prop := c.cookie ≠ d.cookie ∧ c.key ≠ d.key

instance (c d : Conn) : Decidable (c.Apart d) := inferInstanceAs (Decidable (_ ∧ _))

/-- What the kernel grants a step: a new connection is apart from the live ones, and an
accepted one that no hook redirected is of the family of its socket. -/
def Tcp.Granted (t : Tcp) : TcpAct → Prop
  | .connect family ctx client =>
    ctx.protocol = .tcp ∧ ∀ c ∈ t.live, (t.conn family ctx client).Apart c
  | .accept cookie _ => ∀ c ∈ t.find cookie .established, ¬ c.redirected → c.Native
  | _ => True

/-- The maps have room for the write of the step. -/
def Tcp.Roomy (t : Tcp) : TcpAct → Prop
  | .connect family ctx _ =>
    redirects family t.maps ctx → t.maps.tcpCookieMap.HasRoom ctx.cookie
  | .establish cookie =>
    ∀ c ∈ t.find cookie .connecting, c.redirected → t.maps.tcpOrigDst.HasRoom c.key
  | _ => True

/-- What holds in every state: the maps have for each connection its own destination. -/
structure Tcp.Inv (t : Tcp) : Prop where
  apart : t.live.Pairwise Conn.Apart
  native : ∀ c ∈ t.live, c.redirected → c.Native
  connecting : ∀ c ∈ t.live, c.redirected → c.phase = .connecting →
    t.maps.tcpCookieMap.lookup c.cookie = some (stored c.family c.ctx)
  established : ∀ c ∈ t.live, c.redirected → c.phase = .established →
    t.maps.tcpOrigDst.lookup c.key = some (stored c.family c.ctx)
  resolved : ∀ e ∈ t.resolved, e.1.redirected → e.2 = some e.1.named

section

variable {t : Tcp}

instance : Std.Symm Conn.Apart := ⟨fun _ _ h => ⟨h.1.symm, h.2.symm⟩⟩

theorem mem_others {c : Conn} {cookie : UInt64} (h : c ∈ t.others cookie) :
    c ∈ t.live ∧ c.cookie ≠ cookie := by
  simpa [Tcp.others] using h

theorem find_spec {c : Conn} {cookie : UInt64} {phase : Phase}
    (h : t.find cookie phase = some c) :
    c ∈ t.live ∧ c.cookie = cookie ∧ c.phase = phase := by
  unfold Tcp.find at h
  have hc := List.find?_some h
  simp only [decide_eq_true_eq] at hc
  exact ⟨List.mem_of_find?_eq_some h, hc⟩

/-- Two live connections are apart or the same. -/
theorem Tcp.Inv.apart_of_ne (h : t.Inv) {c d : Conn} (hc : c ∈ t.live) (hd : d ∈ t.live)
    (hne : d.cookie ≠ c.cookie) : d.Apart c := by
  have hcd : d ≠ c := fun heq => hne (by rw [heq])
  exact h.apart.forall hd hc hcd

/-- Part of the live connections keeps the invariant. -/
theorem Tcp.Inv.sublist (h : t.Inv) {live : List Conn} (hsub : live.Sublist t.live) :
    { t with live }.Inv where
  apart := h.apart.sublist hsub
  native := fun c hc => h.native c (hsub.subset hc)
  connecting := fun c hc => h.connecting c (hsub.subset hc)
  established := fun c hc => h.established c (hsub.subset hc)
  resolved := h.resolved

theorem connectHook_tcp (family : Family) (m : Maps) {ctx : SockAddr} (h : ctx.protocol = .tcp) :
    (connectHook family m ctx).1 =
      if redirects family m ctx then
        { m with tcpCookieMap := m.tcpCookieMap.update ctx.cookie (stored family ctx) }
      else m := by
  cases family with
  | inet =>
    refine (hook_maps _ _ _ m ctx).trans ?_
    simp only [storeConnect, h]
    rfl
  | inet6 =>
    refine (hook_maps _ _ _ m ctx).trans ?_
    simp only [storeConnect, h]
    rfl

theorem Tcp.Inv.connect (h : t.Inv) {family : Family} {ctx : SockAddr} {client : ClientEnd}
    (hg : t.Granted (.connect family ctx client))
    (hr : t.Roomy (.connect family ctx client)) :
    (tcpStep t (.connect family ctx client)).Inv := by
  obtain ⟨htcp, hapart⟩ := hg
  have hmaps := connectHook_tcp family t.maps htcp
  have horig : (connectHook family t.maps ctx).1.tcpOrigDst = t.maps.tcpOrigDst := by
    rw [hmaps]
    split <;> rfl
  have hcookie : ∀ c ∈ t.live, (connectHook family t.maps ctx).1.tcpCookieMap.lookup c.cookie =
      t.maps.tcpCookieMap.lookup c.cookie := by
    intro c hc
    rw [hmaps]
    split
    · exact t.maps.tcpCookieMap.lookup_update_ne _ (hapart c hc).1.symm
    · rfl
  refine ⟨List.pairwise_cons.mpr ⟨hapart, h.apart⟩, ?_, ?_, ?_, h.resolved⟩
  · intro c hc hred
    rcases List.mem_cons.mp hc with rfl | hold
    · exact native_of_listener (addr_connectHook hred)
    · exact h.native c hold hred
  · intro c hc hred hphase
    rcases List.mem_cons.mp hc with rfl | hold
    · have hred' : redirects family t.maps ctx := hred
      simp only [tcpStep]
      rw [hmaps, if_pos hred']
      exact BoundedMap.lookup_update_self _ (hr hred')
    · simp only [tcpStep]
      rw [hcookie c hold]
      exact h.connecting c hold hred hphase
  · intro c hc hred hphase
    rcases List.mem_cons.mp hc with rfl | hold
    · cases hphase
    · simp only [tcpStep, horig]
      exact h.established c hold hred hphase

/-- A connection in a new phase and the others are as the live ones were. -/
theorem Tcp.Inv.moved (h : t.Inv) {c : Conn} (hc : c ∈ t.live) (phase : Phase) :
    (({ c with phase } : Conn) :: t.others c.cookie).Pairwise Conn.Apart ∧
      ∀ d ∈ ({ c with phase } : Conn) :: t.others c.cookie, d.redirected → d.Native := by
  refine ⟨List.pairwise_cons.mpr ⟨?_, h.apart.sublist List.filter_sublist⟩, ?_⟩
  · intro d hd
    obtain ⟨hlive, hne⟩ := mem_others hd
    obtain ⟨hcookie, hkey⟩ := h.apart_of_ne hc hlive hne
    exact ⟨hcookie.symm, hkey.symm⟩
  · intro d hd hred
    rcases List.mem_cons.mp hd with rfl | hold
    · exact h.native c hc hred
    · exact h.native d (mem_others hold).1 hred

/-- The sockops program leaves the entry of the established connection as it should be, and
every other entry alone. -/
theorem sockops_spec (m : Maps) (c : Conn) :
    (∀ k, k ≠ c.key → (vproxySockops m c.skops).tcpOrigDst.lookup k = m.tcpOrigDst.lookup k) ∧
    (∀ k, k ≠ c.cookie →
      (vproxySockops m c.skops).tcpCookieMap.lookup k = m.tcpCookieMap.lookup k) ∧
    ∀ d, m.tcpCookieMap.lookup c.cookie = some d →
      (vproxySockops m c.skops).tcpOrigDst = m.tcpOrigDst.update c.key d := by
  have hactive : c.skops.activeEstablished = true := rfl
  have hcookie : c.skops.cookie = c.cookie := rfl
  unfold vproxySockops
  rw [if_pos hactive, hcookie]
  cases hd : m.tcpCookieMap.lookup c.cookie with
  | none =>
    refine ⟨fun _ _ => rfl, fun _ _ => rfl, ?_⟩
    intro d h
    cases h
  | some d =>
    refine ⟨fun k hk => m.tcpOrigDst.lookup_update_ne d hk,
      fun k hk => m.tcpCookieMap.lookup_delete_ne hk, ?_⟩
    intro e he
    rw [Option.some.inj he]
    rfl

theorem Tcp.Inv.establish (h : t.Inv) {cookie : UInt64} (hr : t.Roomy (.establish cookie)) :
    (tcpStep t (.establish cookie)).Inv := by
  simp only [tcpStep]
  cases hfind : t.find cookie .connecting with
  | none => exact h
  | some c =>
    obtain ⟨hc, rfl, hphase⟩ := find_spec hfind
    obtain ⟨horig, hcookie, hmoved⟩ := sockops_spec t.maps c
    obtain ⟨hapart, hnative⟩ := h.moved hc .established
    refine ⟨hapart, hnative, ?_, ?_, h.resolved⟩
    · intro d hd hred hdphase
      rcases List.mem_cons.mp hd with rfl | hold
      · cases hdphase
      · obtain ⟨hlive, hne⟩ := mem_others hold
        exact (hcookie _ hne).trans (h.connecting d hlive hred hdphase)
    · intro d hd hred hdphase
      rcases List.mem_cons.mp hd with rfl | hold
      · have hmaps := hmoved _ (h.connecting c hc hred hphase)
        exact (congrArg (BoundedMap.lookup · c.key) hmaps).trans
          (BoundedMap.lookup_update_self _ (hr c hfind hred))
      · obtain ⟨hlive, hne⟩ := mem_others hold
        exact (horig _ (h.apart_of_ne hc hlive hne).2).trans (h.established d hlive hred hdphase)

theorem Tcp.Inv.accept (h : t.Inv) {cookie : UInt64} {mapped : Bool}
    (hg : t.Granted (.accept cookie mapped)) :
    (tcpStep t (.accept cookie mapped)).Inv := by
  simp only [tcpStep]
  cases hfind : t.find cookie .established with
  | none => exact h
  | some c =>
    obtain ⟨hc, rfl, hphase⟩ := find_spec hfind
    have hkey := acceptedKey_eq (c := c) (by_cases (h.native c hc) (hg c hfind)) mapped
    obtain ⟨hapart, hnative⟩ := h.moved hc .accepted
    refine ⟨hapart, hnative, ?_, ?_, ?_⟩
    · intro d hd hred hdphase
      rcases List.mem_cons.mp hd with rfl | hold
      · cases hdphase
      · exact h.connecting d (mem_others hold).1 hred hdphase
    · intro d hd hred hdphase
      rcases List.mem_cons.mp hd with rfl | hold
      · cases hdphase
      · obtain ⟨hlive, hne⟩ := mem_others hold
        simp only [lookupTCPOrigDst, hkey, lookup_rest_takeOrigDst]
        rw [if_neg (h.apart_of_ne hc hlive hne).2]
        exact h.established d hlive hred hdphase
    · intro e he hred
      rcases List.mem_cons.mp he with rfl | hold
      · simp only [lookupTCPOrigDst, addr_takeOrigDst, hkey, h.established c hc hred hphase,
          Option.map_some, toAddr_stored]
        rfl
      · exact h.resolved e hold hred

theorem tcpStep_inv (h : t.Inv) {a : TcpAct} (hg : t.Granted a) (hr : t.Roomy a) :
    (tcpStep t a).Inv := by
  cases a with
  | connect family ctx client => exact h.connect hg hr
  | establish cookie => exact h.establish hr
  | fail cookie =>
    simp only [tcpStep]
    cases t.find cookie .connecting with
    | none => exact h
    | some c => exact h.sublist List.filter_sublist
  | accept cookie mapped => exact h.accept hg
  | close cookie => exact h.sublist List.filter_sublist

end

/-! ## Runs -/

/-- The state after `Load`: empty maps and no connection. -/
def tcpStart (config : Config) (cidrs : List LPMCIDRKey) : Tcp where
  maps := ⟨.empty, .empty, .empty, cidrs, config⟩
  live := []
  resolved := []

theorem tcpStart_inv (config : Config) (cidrs : List LPMCIDRKey) :
    (tcpStart config cidrs).Inv where
  apart := List.Pairwise.nil
  native := by simp [tcpStart]
  connecting := by simp [tcpStart]
  established := by simp [tcpStart]
  resolved := by simp [tcpStart]

/-- Every accepted connection that a hook redirected is resolved to the destination of its
own connect, as long as the maps have room whenever a hook or the sockops program writes. -/
theorem connections_resolve_to_their_own_destination (config : Config) (cidrs : List LPMCIDRKey)
    (acts : List TcpAct)
    (h : Along tcpStep (fun t a => t.Granted a ∧ t.Roomy a) (tcpStart config cidrs) acts) :
    ∀ e ∈ (run tcpStep (tcpStart config cidrs) acts).resolved,
      e.1.redirected → e.2 = some e.1.named :=
  (run_invariant Tcp.Inv (fun _ _ ht ha => tcpStep_inv ht ha.1 ha.2)
    (tcpStart_inv config cidrs) h).resolved

section

/-- The proxy on port 12345 with the default bypass list. -/
def proxyStart : Tcp := tcpStart ⟨12345, 0xff, false, 0, 0, ⟨0, 0, 0, 0⟩⟩ defaultBypass

/-- The connect number `i` of a client, to 1.2.3.4:443. -/
def connectTo (i : Nat) : SockAddr where
  userIp4 := leWord 1 2 3 4
  userIp6 := ⟨0, 0, 0, 0⟩
  userPort := swap16 443
  protocol := .tcp
  mark := some 0
  srcPort := 0
  cookie := UInt64.ofNat i
  task := ⟨7, []⟩

def clientEnd : ClientEnd := ⟨leWord 127 0 0 1, ⟨0, 0, 0, 0⟩, 40000⟩

instance (t : Tcp) (a : TcpAct) : Decidable (t.Granted a) :=
  match a with
  | .connect _ _ _ => inferInstanceAs (Decidable (_ ∧ _))
  | .accept cookie _ => inferInstanceAs (Decidable (∀ c ∈ t.find cookie .established, _))
  | .establish _ => inferInstanceAs (Decidable True)
  | .fail _ => inferInstanceAs (Decidable True)
  | .close _ => inferInstanceAs (Decidable True)

instance (t : Tcp) (a : TcpAct) : Decidable (t.Roomy a) :=
  match a with
  | .connect _ _ _ => inferInstanceAs (Decidable (_ → _))
  | .establish cookie => inferInstanceAs (Decidable (∀ c ∈ t.find cookie .connecting, _))
  | .accept _ _ => inferInstanceAs (Decidable True)
  | .fail _ => inferInstanceAs (Decidable True)
  | .close _ => inferInstanceAs (Decidable True)

/-- A failed connect and a connection that is accepted. -/
theorem one_connection_resolves :
    let acts := [.connect .inet (connectTo 0) clientEnd, .fail 0,
      .connect .inet (connectTo 1) clientEnd, .establish 1, .accept 1 false]
    (run tcpStep proxyStart acts).resolved.length = 1 ∧
      ∀ e ∈ (run tcpStep proxyStart acts).resolved, e.1.redirected → e.2 = some e.1.named := by
  refine ⟨by decide, connections_resolve_to_their_own_destination _ _ _ (by decide)⟩

/-- After `n` failed connects the cookie map has `n` entries and nothing else is left. -/
def Leaked (n : Nat) (t : Tcp) : Prop :=
  ∃ m, t = { proxyStart with maps := { proxyStart.maps with tcpCookieMap := m } } ∧ m.size = n ∧
    ∀ i, n ≤ i → i < 2 ^ 64 → m.lookup (UInt64.ofNat i) = none

def leak (n : Nat) : List TcpAct :=
  (List.range n).flatMap fun i => [.connect .inet (connectTo i) clientEnd, .fail (UInt64.ofNat i)]

/-- The hook redirects this connect, whatever the cookie map has. -/
theorem redirects_connectTo (i : Nat) (m : BoundedMap UInt64 OriginalDst maxEntries) :
    redirects .inet { proxyStart.maps with tcpCookieMap := m } (connectTo i) = true := by
  change redirects .inet proxyStart.maps (connectTo 0) = true
  decide

theorem leaked_step {n : Nat} {t : Tcp} (h : Leaked n t) (hn : n < maxEntries) :
    Leaked (n + 1) (run tcpStep t
      [.connect .inet (connectTo n) clientEnd, .fail (UInt64.ofNat n)]) := by
  obtain ⟨m, rfl, hsize, hnew⟩ := h
  have hmax : maxEntries < 2 ^ 64 := by decide
  refine ⟨m.update (UInt64.ofNat n) (stored .inet (connectTo n)), ?_, ?_, ?_⟩
  · have htcp : (connectTo n).protocol = .tcp := rfl
    simp only [run_cons, run_nil, tcpStep, connectHook_tcp _ _ htcp, redirects_connectTo, if_true]
    simp [Tcp.find, Tcp.others, Tcp.conn, Conn.cookie, connectTo, proxyStart, tcpStart]
  · rw [BoundedMap.size_update_new _ (hnew n (Nat.le_refl n) (by omega)) (by omega), hsize]
  · intro i hi hlt
    rw [BoundedMap.lookup_update_ne]
    · exact hnew i (by omega) hlt
    · intro heq
      have := congrArg UInt64.toNat heq
      rw [UInt64.toNat_ofNat', UInt64.toNat_ofNat', Nat.mod_eq_of_lt hlt,
        Nat.mod_eq_of_lt (by omega)] at this
      omega

/-- Failed connects fill the cookie map, within what the kernel grants. -/
theorem leaked_run {n : Nat} (hn : n ≤ maxEntries) :
    Along tcpStep Tcp.Granted proxyStart (leak n) ∧
      Leaked n (run tcpStep proxyStart (leak n)) := by
  induction n with
  | zero => exact ⟨trivial, .empty, rfl, rfl, fun _ _ _ => rfl⟩
  | succ n ih =>
    obtain ⟨halong, hleaked⟩ := ih (by omega)
    have hsplit : leak (n + 1) = leak n ++
        [.connect .inet (connectTo n) clientEnd, .fail (UInt64.ofNat n)] := by
      simp [leak, List.range_succ]
    rw [hsplit, run_append, along_append]
    refine ⟨⟨halong, ?_⟩, leaked_step hleaked (by omega)⟩
    obtain ⟨m, hm, -, -⟩ := hleaked
    rw [hm]
    exact ⟨⟨rfl, by simp [proxyStart, tcpStart]⟩, trivial, trivial⟩

/-- A connection that finds the cookie map full is redirected, established and accepted,
and its destination is lost. -/
theorem lost_when_full {m : BoundedMap UInt64 OriginalDst maxEntries} {i : Nat}
    (hfull : ¬ m.HasRoom (UInt64.ofNat i)) {t : Tcp}
    (ht : t = { proxyStart with maps := { proxyStart.maps with tcpCookieMap := m } }) :
    let acts := [.connect .inet (connectTo i) clientEnd, .establish (UInt64.ofNat i),
      .accept (UInt64.ofNat i) false]
    Along tcpStep Tcp.Granted t acts ∧
      ∃ e ∈ (run tcpStep t acts).resolved, e.1.redirected ∧ e.2 = none := by
  have hnone : m.lookup (UInt64.ofNat i) = none := by
    unfold BoundedMap.HasRoom at hfull
    rw [not_or, Option.not_isSome_iff_eq_none] at hfull
    exact hfull.1
  have hmaps : t.maps = { proxyStart.maps with tcpCookieMap := m } := by rw [ht]
  have hlive : t.live = [] := by rw [ht]; rfl
  have hred : redirects .inet t.maps (connectTo i) = true := by
    rw [hmaps]
    exact redirects_connectTo i m
  -- the three steps, each from the one before
  let c := t.conn .inet (connectTo i) clientEnd
  have h1 : tcpStep t (.connect .inet (connectTo i) clientEnd) = { t with live := [c] } := by
    have hsame : (connectHook .inet t.maps (connectTo i)).1 = t.maps := by
      rw [connectHook_tcp _ _ rfl, if_pos hred, hmaps]
      simp only [connectTo, BoundedMap.update_of_full _ hfull]
    simp only [tcpStep, hsame, hlive, c]
  have h2 : tcpStep { t with live := [c] } (.establish (UInt64.ofNat i)) =
      { t with live := [{ c with phase := .established }] } := by
    have hfind : Tcp.find { t with live := [c] } (UInt64.ofNat i) .connecting = some c := by
      simp [Tcp.find, c, Tcp.conn, Conn.cookie, connectTo]
    have hothers : Tcp.others { t with live := [c] } (UInt64.ofNat i) = [] := by
      simp [Tcp.others, c, Tcp.conn, Conn.cookie, connectTo]
    have hsock : vproxySockops t.maps c.skops = t.maps := by
      have hcookie : t.maps.tcpCookieMap.lookup c.skops.cookie = none := by
        rw [hmaps]
        exact hnone
      unfold vproxySockops
      rw [hcookie]
      simp
    simp only [tcpStep, hfind, hothers, hsock]
  have hfind : Tcp.find { t with live := [{ c with phase := .established }] } (UInt64.ofNat i)
      .established = some { c with phase := .established } := by
    simp [Tcp.find, c, Tcp.conn, Conn.cookie, connectTo]
  refine ⟨⟨⟨rfl, by simp [hlive]⟩, trivial, ?_, trivial⟩, ?_⟩
  · rw [h1, h2]
    intro d hd hnot
    rw [hfind] at hd
    rw [← Option.some.inj hd] at hnot
    exact absurd hred hnot
  · simp only [run_cons, run_nil]
    rw [h1, h2]
    simp only [tcpStep, hfind]
    refine ⟨_, List.mem_cons_self, hred, ?_⟩
    rw [lookupTCPOrigDst, addr_takeOrigDst, hmaps]
    rfl

/-- A connection after 65536 failed connects is redirected, established and accepted, and
its destination is lost. -/
theorem failed_connects_lose_the_next_destination :
    ∃ acts, Along tcpStep Tcp.Granted proxyStart acts ∧
      ∃ e ∈ (run tcpStep proxyStart acts).resolved, e.1.redirected ∧ e.2 = none := by
  obtain ⟨n, hn⟩ : ∃ n, n = maxEntries := ⟨_, rfl⟩
  obtain ⟨halong, m, hm, hsize, hnew⟩ := leaked_run (Nat.le_of_eq hn)
  have hlt : n < 2 ^ 64 := by
    rw [hn]
    decide
  have hfull : ¬ m.HasRoom (UInt64.ofNat n) := by
    unfold BoundedMap.HasRoom
    rw [hnew n (Nat.le_refl n) hlt, hsize]
    simp [hn]
  obtain ⟨hlast, hlost⟩ := lost_when_full hfull hm
  refine ⟨leak n ++ _, along_append.mpr ⟨halong, hlast⟩, ?_⟩
  rw [run_append]
  exact hlost

end

end vproxy.ebpf
