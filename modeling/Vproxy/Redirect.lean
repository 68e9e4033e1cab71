-- The kernel hooks that send a client to the proxy (redirect.c) and the Go side that
-- reads their maps (loader.go). A hook leaves the address of the socket alone, or it
-- stores the address in a map and writes the address of the proxy in its place.
import Vproxy.Words
import Vproxy.BoundedMap
import Vproxy.NetAddr

open go go.net words

namespace vproxy.ebpf

/-! ## Maps -/

inductive Family where
  | inet
  | inet6
  deriving DecidableEq, Repr

inductive Protocol where
  | tcp
  | udp
  | other
  deriving DecidableEq, Repr

/-- Four words, as an address of either family is stored. -/
structure Words4 where
  w0 : UInt32
  w1 : UInt32
  w2 : UInt32
  w3 : UInt32
  deriving DecidableEq, Repr

def Words4.bytes (w : Words4) : List UInt8 :=
  leBytes w.w0 ++ leBytes w.w1 ++ leBytes w.w2 ++ leBytes w.w3

/-- The process that made the system call: `bpf_get_current_pid_tgid` and
`bpf_get_current_comm`. -/
structure Task where
  pid : UInt32
  comm : List UInt8
  deriving DecidableEq, Repr

/-- `struct original_dst`; the port is in network order. -/
structure OriginalDst where
  ip : Words4
  port : UInt16
  family : Family
  task : Task
  deriving DecidableEq, Repr

/-- `struct udp_orig_key`; the port is in host order. -/
structure UDPOrigKey where
  srcPort : UInt16
  family : Family
  deriving DecidableEq, Repr

/-- `struct tcp_4tuple_key`; the addresses are sixteen bytes, the ports in host order. -/
structure TCP4TupleKey where
  clientIP : List UInt8
  proxyIP : List UInt8
  clientPort : UInt16
  proxyPort : UInt16
  family : Family
  deriving DecidableEq, Repr

/-- `struct lpm_cidr_key`. -/
structure LPMCIDRKey where
  prefixlen : Nat
  addr : List UInt8
  deriving DecidableEq, Repr

/-- The values of `config_map` that the hooks read. -/
structure Config where
  proxyPort : UInt16
  bypassMark : UInt32
  isRemoteTproxy : Bool
  upstreamIp4 : UInt32
  upstreamPort : UInt16
  upstreamIp6 : Words4
  deriving DecidableEq, Repr

/-- `max_entries` of the three hash maps. -/
def maxEntries : Nat := 65536

structure Maps where
  tcpCookieMap : BoundedMap UInt64 OriginalDst maxEntries
  tcpOrigDst : BoundedMap TCP4TupleKey OriginalDst maxEntries
  udpOrigDst : BoundedMap UDPOrigKey OriginalDst maxEntries
  cidrBypassMap : List LPMCIDRKey
  configMap : Config

/-! ## The context of a hook -/

/-- `struct bpf_sock_addr`. The address and the port are in network order. -/
structure SockAddr where
  userIp4 : UInt32
  userIp6 : Words4
  userPort : UInt16
  protocol : Protocol
  /-- `sk->mark`, of a context with a socket. -/
  mark : Option UInt32
  /-- `sk->src_port`, in host order; zero before the socket is bound. -/
  srcPort : UInt16
  cookie : UInt64
  task : Task

def isBypassSocket (m : Maps) (ctx : SockAddr) : Bool := ctx.mark == some m.configMap.bypassMark

/-- A lookup of a whole address in the LPM trie: some entry agrees on its leading bits. -/
def isCidrBypassV4 (m : Maps) (addrNet : UInt32) : Bool :=
  m.cidrBypassMap.any (fun k =>
    maskIP k.addr (cidrMask k.prefixlen 4) == maskIP (leBytes addrNet) (cidrMask k.prefixlen 4))

def isLocalIpv6 (ctx : SockAddr) : Bool :=
  if ctx.userIp6.w0 = 0 ∧ ctx.userIp6.w1 = 0 ∧ ctx.userIp6.w2 = 0 ∧ ctx.userIp6.w3 = swap32 1 then
    true -- ::1
  else if ctx.userIp6.w0 &&& swap32 0xFFC00000 = swap32 0xFE800000 then true -- fe80::/10
  else if ctx.userIp6.w0 &&& swap32 0xFE000000 = swap32 0xFC000000 then true -- fc00::/7
  else false

/-! ## The hooks -/

/-- The tests of `sock4_connect` and `sock4_sendmsg` before they redirect. -/
def bypass4 (m : Maps) (ctx : SockAddr) : Bool :=
  isBypassSocket m ctx ||
    ctx.userIp4 &&& swap32 0xFF000000 == swap32 0x7F000000 ||
    ctx.userPort == swap16 53 ||
    isCidrBypassV4 m ctx.userIp4

/-- The tests of `sock6_connect` and `sock6_sendmsg`. -/
def bypass6 (m : Maps) (ctx : SockAddr) : Bool :=
  isBypassSocket m ctx || isLocalIpv6 ctx || ctx.userPort == swap16 53

/-- What an IPv4 hook stores: the other words stay zero. -/
def dst4 (ctx : SockAddr) : OriginalDst := ⟨⟨ctx.userIp4, 0, 0, 0⟩, ctx.userPort, .inet, ctx.task⟩

def dst6 (ctx : SockAddr) : OriginalDst := ⟨ctx.userIp6, ctx.userPort, .inet6, ctx.task⟩

/-- The write of `udp_orig_dst`. -/
def storeUDP (m : Maps) (ctx : SockAddr) (dst : OriginalDst) : Maps :=
  { m with udpOrigDst := m.udpOrigDst.update ⟨ctx.srcPort, dst.family⟩ dst }

/-- The write of a connect hook: by cookie for TCP, by source port for UDP. -/
def storeConnect (m : Maps) (ctx : SockAddr) (dst : OriginalDst) : Maps :=
  match ctx.protocol with
  | .tcp => { m with tcpCookieMap := m.tcpCookieMap.update ctx.cookie dst }
  | .udp => storeUDP m ctx dst
  | .other => m

/-- The address after an IPv4 hook: that of the remote proxy, or 127.0.0.1 and the port
of the proxy. -/
def redirected4 (c : Config) (ctx : SockAddr) : SockAddr :=
  if c.isRemoteTproxy then
    { ctx with userIp4 := c.upstreamIp4, userPort := swap16 c.upstreamPort }
  else { ctx with userIp4 := swap32 0x7F000001, userPort := swap16 c.proxyPort }

def redirected6 (c : Config) (ctx : SockAddr) : SockAddr :=
  if c.isRemoteTproxy then
    { ctx with userIp6 := c.upstreamIp6, userPort := swap16 c.upstreamPort }
  else { ctx with userIp6 := ⟨0, 0, 0, swap32 1⟩, userPort := swap16 c.proxyPort }

/-- A hook with its tests, its write and its rewrite. A remote proxy needs no map. -/
def hook (bypass : Maps → SockAddr → Bool) (store : Maps → SockAddr → Maps)
    (redirected : Config → SockAddr → SockAddr) (m : Maps) (ctx : SockAddr) : Maps × SockAddr :=
  if bypass m ctx then (m, ctx)
  else (if m.configMap.isRemoteTproxy then m else store m ctx, redirected m.configMap ctx)

/-- A hook stores the address when it sends the socket to the local proxy. -/
theorem hook_maps (bypass : Maps → SockAddr → Bool) (store : Maps → SockAddr → Maps)
    (redirected : Config → SockAddr → SockAddr) (m : Maps) (ctx : SockAddr) :
    (hook bypass store redirected m ctx).1 =
      if !bypass m ctx && !m.configMap.isRemoteTproxy then store m ctx else m := by
  unfold hook
  by_cases hb : bypass m ctx
  · simp [hb]
  · by_cases hr : m.configMap.isRemoteTproxy <;> simp [hb, hr]

def sock4Connect : Maps → SockAddr → Maps × SockAddr :=
  hook bypass4 (fun m ctx => storeConnect m ctx (dst4 ctx)) redirected4

def sock4Sendmsg : Maps → SockAddr → Maps × SockAddr :=
  hook bypass4 (fun m ctx => storeUDP m ctx (dst4 ctx)) redirected4

def sock6Connect : Maps → SockAddr → Maps × SockAddr :=
  hook bypass6 (fun m ctx => storeConnect m ctx (dst6 ctx)) redirected6

def sock6Sendmsg : Maps → SockAddr → Maps × SockAddr :=
  hook bypass6 (fun m ctx => storeUDP m ctx (dst6 ctx)) redirected6

/-- The fields of `struct bpf_sock_ops` that the program reads. The local port is in host
order; the remote port is in network order, in the upper half of its word. -/
structure SockOps where
  activeEstablished : Bool
  cookie : UInt64
  family : Family
  localPort : UInt32
  remotePort : UInt32
  localIp4 : UInt32
  remoteIp4 : UInt32
  localIp6 : Words4
  remoteIp6 : Words4

def sockopsKey (skops : SockOps) : TCP4TupleKey where
  clientIP :=
    match skops.family with
    | .inet => Words4.bytes ⟨skops.localIp4, 0, 0, 0⟩
    | .inet6 => skops.localIp6.bytes
  proxyIP :=
    match skops.family with
    | .inet => Words4.bytes ⟨skops.remoteIp4, 0, 0, 0⟩
    | .inet6 => skops.remoteIp6.bytes
  clientPort := skops.localPort.toUInt16
  proxyPort := (swap32 skops.remotePort).toUInt16
  family := skops.family

/-- `vproxy_sockops`: an established connection takes its entry from the cookie to the
four addresses. -/
def vproxySockops (m : Maps) (skops : SockOps) : Maps :=
  if skops.activeEstablished then
    match m.tcpCookieMap.lookup skops.cookie with
    | some dst =>
      { m with
        tcpOrigDst := m.tcpOrigDst.update (sockopsKey skops) dst
        tcpCookieMap := m.tcpCookieMap.delete skops.cookie }
    | none => m
  else m

/-! ## The Go side -/

def OriginalDst.toNetIP (d : OriginalDst) : IP :=
  match d.family with
  | .inet6 => d.ip.bytes
  | .inet => leBytes d.ip.w0

/-- `ToTCPAddr` and `ToUDPAddr`: the port in host order. -/
def OriginalDst.toAddr (d : OriginalDst) : SocketAddr := ⟨d.toNetIP, swap16 d.port⟩

/-- The command up to the first zero byte. -/
def OriginalDst.processName (d : OriginalDst) : List UInt8 := d.task.comm.takeWhile (· ≠ 0)

/-- What a lookup gives: the address, the map without the entry, and what
`RecordProcessMetadata` is told. -/
structure Lookup (κ : Type) where
  addr : Option SocketAddr
  rest : BoundedMap κ OriginalDst maxEntries
  recorded : Option (UInt16 × UInt32 × List UInt8)

/-- The read of both lookups. -/
def takeOrigDst {κ : Type} [DecidableEq κ] (m : BoundedMap κ OriginalDst maxEntries) (k : κ)
    (sourcePort : UInt16) : Lookup κ :=
  match m.lookupAndDelete k with
  | (none, _) => ⟨none, m, none⟩
  | (some dst, rest) =>
    ⟨some dst.toAddr, rest,
      if 0 < dst.task.pid then some (sourcePort, dst.task.pid, dst.processName) else none⟩

/-- A lookup gives what the map has for the key. -/
theorem addr_takeOrigDst {κ : Type} [DecidableEq κ] (m : BoundedMap κ OriginalDst maxEntries)
    (k : κ) (port : UInt16) :
    (takeOrigDst m k port).addr = (m.lookup k).map OriginalDst.toAddr := by
  unfold takeOrigDst BoundedMap.lookupAndDelete
  cases m.lookup k <;> rfl

/-- After a lookup the key is gone, and every other key is as before. -/
theorem lookup_rest_takeOrigDst {κ : Type} [DecidableEq κ]
    (m : BoundedMap κ OriginalDst maxEntries) (k j : κ) (port : UInt16) :
    (takeOrigDst m k port).rest.lookup j = if j = k then none else m.lookup j := by
  unfold takeOrigDst BoundedMap.lookupAndDelete
  by_cases hj : j = k
  · rw [if_pos hj, hj]
    cases hk : m.lookup k with
    | none => exact hk
    | some dst => exact m.lookup_delete_self k
  · rw [if_neg hj]
    cases m.lookup k with
    | none => rfl
    | some dst => exact m.lookup_delete_ne hj

def familyOf (ip : IP) : Family := if (to4 ip).isSome then .inet else .inet6

/-- Sixteen bytes with the address at the front. -/
def padded (ip : IP) : List UInt8 := ip ++ List.replicate (16 - ip.length) 0

/-- The key of `LookupTCPOrigDst`, from the two ends of the accepted connection. -/
def acceptedKey (localAddr remoteAddr : SocketAddr) : TCP4TupleKey :=
  let family := familyOf localAddr.ip
  let bytes : IP → List UInt8 := fun ip =>
    match family with
    | .inet => padded ((to4 ip).getD [])
    | .inet6 => padded ((to16 ip).getD [])
  ⟨bytes remoteAddr.ip, bytes localAddr.ip, remoteAddr.port, localAddr.port, family⟩

def lookupTCPOrigDst (m : BoundedMap TCP4TupleKey OriginalDst maxEntries)
    (localAddr remoteAddr : SocketAddr) : Lookup TCP4TupleKey :=
  takeOrigDst m (acceptedKey localAddr remoteAddr) remoteAddr.port

def lookupUDPOrigDst (m : BoundedMap UDPOrigKey OriginalDst maxEntries) (src : SocketAddr) :
    Lookup UDPOrigKey :=
  takeOrigDst m ⟨src.port, familyOf src.ip⟩ src.port

/-! ## The hooks by family -/

def bypass : Family → Maps → SockAddr → Bool
  | .inet => bypass4
  | .inet6 => bypass6

/-- The hook redirects to the local proxy, so it stores the address. -/
def redirects (family : Family) (m : Maps) (ctx : SockAddr) : Bool :=
  !bypass family m ctx && !m.configMap.isRemoteTproxy

def connectHook : Family → Maps → SockAddr → Maps × SockAddr
  | .inet => sock4Connect
  | .inet6 => sock6Connect

def sendmsgHook : Family → Maps → SockAddr → Maps × SockAddr
  | .inet => sock4Sendmsg
  | .inet6 => sock6Sendmsg

/-- The address in a context. -/
def SockAddr.addr (ctx : SockAddr) : Family → SocketAddr
  | .inet => ⟨leBytes ctx.userIp4, swap16 ctx.userPort⟩
  | .inet6 => ⟨ctx.userIp6.bytes, swap16 ctx.userPort⟩
/-- The listener: 127.0.0.1 or ::1, on the transparent port. -/
def listener (transPort : UInt16) : Family → SocketAddr
  | .inet => ⟨[127, 0, 0, 1], transPort⟩
  | .inet6 => ⟨ipv6loopback, transPort⟩

/-- What a hook stores. -/
def stored : Family → SockAddr → OriginalDst
  | .inet => dst4
  | .inet6 => dst6

theorem toAddr_stored (family : Family) (ctx : SockAddr) :
    (stored family ctx).toAddr = ctx.addr family := by
  cases family <;> rfl

theorem family_stored (family : Family) (ctx : SockAddr) : (stored family ctx).family = family := by
  cases family <;> rfl

/-- A hook that redirects sends the socket to the listener of its family. -/
theorem addr_connectHook {family : Family} {m : Maps} {ctx : SockAddr}
    (h : redirects family m ctx) :
    (connectHook family m ctx).2.addr family = listener m.configMap.proxyPort family := by
  simp only [redirects, Bool.and_eq_true, Bool.not_eq_true'] at h
  obtain ⟨hb, hr⟩ := h
  cases family with
  | inet =>
    simp only [bypass] at hb
    simp only [connectHook, sock4Connect, hook, hb, hr, redirected4, SockAddr.addr, listener,
      Bool.false_eq_true, if_false, swap16_swap16]
    rw [show leBytes (swap32 0x7F000001) = [127, 0, 0, 1] by decide]
  | inet6 =>
    simp only [bypass] at hb
    simp only [connectHook, sock6Connect, hook, hb, hr, redirected6, SockAddr.addr, listener,
      Bool.false_eq_true, if_false, swap16_swap16]
    rw [show Words4.bytes ⟨0, 0, 0, swap32 1⟩ = ipv6loopback by decide]

/-! ## The bypass list -/

def parseCIDRKey (cidr : Str) : Option LPMCIDRKey := do
  let ipNet ← parseCIDR cidr
  let v4 ← to4 ipNet.ip
  some ⟨maskOnes ipNet.mask, v4⟩

def defaultCIDRs : List Str :=
  ["127.0.0.0/8", "10.0.0.0/8", "172.16.0.0/12", "192.168.0.0/16", "169.254.0.0/16"]

/-- `CIDRManager.AddDefaults`: each entry of the list, in order. -/
def addDefaults (m : List LPMCIDRKey) : Option (List LPMCIDRKey) :=
  defaultCIDRs.foldlM (fun m cidr => (parseCIDRKey cidr).map (fun k => m ++ [k])) m

/-- The entries of `cidr_bypass_map` after `Load`. -/
def defaultBypass : List LPMCIDRKey :=
  [⟨8, [127, 0, 0, 0]⟩, ⟨8, [10, 0, 0, 0]⟩, ⟨12, [172, 16, 0, 0]⟩, ⟨16, [192, 168, 0, 0]⟩,
    ⟨16, [169, 254, 0, 0]⟩]

theorem addDefaults_eq : addDefaults [] = some defaultBypass := by decide

end vproxy.ebpf
