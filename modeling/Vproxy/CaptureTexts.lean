-- The target strings of captured connections. Each way of capturing a destination has its
-- own way of writing it: the kernel maps and the socket option (tproxy_linux.go), the
-- forwarders of the TUN stacks (tproxy_linux.go, tproxy_windows.go) and the lookup in pf
-- (tproxy_darwin.go). What reads the string splits it into a host and a port.
import Vproxy.OrigDstRecord

open go go.net words vproxy.ebpf

namespace vproxy

/-! ## Captured destinations -/

/-- An address as the kernel or the TUN stack holds it. -/
inductive RawAddr where
  | inet (addr : Vector UInt8 4)
  | inet6 (addr : Vector UInt8 16)
  deriving DecidableEq

def RawAddr.bytes : RawAddr → IP
  | .inet addr => addr.toList
  | .inet6 addr => addr.toList

/-- The port of two bytes in network order. -/
def portOf (hi lo : UInt8) : UInt16 := UInt16.ofNat (beUint16 [hi, lo])

/-- What a capture path finds: a record of the kernel maps, the answer of the socket
option, the endpoint of a forwarder, or the answer of pf, which has the bytes of an IPv4
address in front. -/
inductive Capture where
  | ebpf (dst : OriginalDst)
  | cookieMap (dst : OriginalDst)
  | sockopt (addr : RawAddr) (hi lo : UInt8)
  | linuxUDP (addr : RawAddr) (port : UInt16)
  | windowsTCP (addr : RawAddr) (port : UInt16)
  | windowsUDP (addr : RawAddr) (port : UInt16)
  | pf (af : Family) (rdaddr : Vector UInt8 16) (hi lo : UInt8)

/-- The bytes that pf answers with. -/
def pfBytes (af : Family) (rdaddr : Vector UInt8 16) : IP :=
  match af with
  | .inet => rdaddr.toList.take 4
  | .inet6 => rdaddr.toList

/-- The destination that was captured. -/
def Capture.destination : Capture → SocketAddr
  | .ebpf dst => dst.toAddr
  | .cookieMap dst => dst.toAddr
  | .sockopt addr hi lo => ⟨addr.bytes, portOf hi lo⟩
  | .linuxUDP addr port => ⟨addr.bytes, port⟩
  | .windowsTCP addr port => ⟨addr.bytes, port⟩
  | .windowsUDP addr port => ⟨addr.bytes, port⟩
  | .pf af rdaddr hi lo => ⟨pfBytes af rdaddr, portOf hi lo⟩

/-! ## Target strings -/

/-- `TCPAddr.String`. -/
def tcpAddrString (addr : SocketAddr) : Str :=
  joinHostPort (ipString addr.ip) (itoa addr.port.toNat)

/-- `net.IPv4`, in sixteen bytes. -/
def netIPv4 (v4 : IP) : IP := v4InV6Prefix ++ v4

/-- `GetOriginalDstFromFile`, after the socket option. -/
def getOriginalDstFromFile (addr : RawAddr) (port : UInt16) : Str :=
  match addr with
  | .inet addr => ipString (netIPv4 addr.toList) ++ ':' :: itoa port.toNat
  | .inet6 addr => '[' :: ipString addr.toList ++ ("]:" : Str) ++ itoa port.toNat

/-- `Address.String` of package tcpip: a text of the address without brackets, which has colons
for IPv6 and none for IPv4. -/
class Tcpip where
  string : RawAddr → Str
  plain : ∀ addr, Plain (string addr)
  parseIP_string : ∀ addr, parseIP (string addr) = to16 addr.bytes
  colon_iff : ∀ addr, ':' ∈ string addr ↔ addr.bytes.length = 16

/-- IPv4 in decimal and IPv6 in groups, also a mapped address. -/
def groupedString : RawAddr → Str
  | .inet addr => dotted addr.toList
  | .inet6 addr => appendTo6 (groups addr.toList)

theorem groupedString_inet (addr : Vector UInt8 4) :
    groupedString (.inet addr) = ipString addr.toList := by
  rw [ipString, to4, if_pos (by simp), groupedString]

theorem groupedString_spec (addr : RawAddr) :
    Plain (groupedString addr) ∧ parseIP (groupedString addr) = to16 addr.bytes ∧
      (':' ∈ groupedString addr ↔ addr.bytes.length = 16) := by
  cases addr with
  | inet addr =>
    have hlen : addr.toList.length = 4 := by simp
    rw [groupedString_inet]
    exact ⟨plain_ipString (Or.inl hlen), parseIP_ipString (Or.inl hlen),
      iff_of_false (colon_not_mem_ipString hlen) (by simp [RawAddr.bytes])⟩
  | inet6 addr =>
    have hlen : addr.toList.length = 16 := by simp
    refine ⟨(plain_appendTo6 hlen).2, ?_, iff_of_true (plain_appendTo6 hlen).1 hlen⟩
    rw [groupedString, parseIP_appendTo6 hlen, RawAddr.bytes, to16, if_neg (by omega), if_pos hlen]

instance grouped : Tcpip where
  string := groupedString
  plain addr := (groupedString_spec addr).1
  parseIP_string addr := (groupedString_spec addr).2.1
  colon_iff addr := (groupedString_spec addr).2.2

/-- The UDP forwarder of Linux answers DNS itself. -/
def linuxUDPTarget [Tcpip] (addr : RawAddr) (port : UInt16) : Option Str :=
  if port = 53 then none else some (Tcpip.string addr ++ ':' :: itoa port.toNat)

/-- The UDP forwarder of Windows answers DNS to the two addresses of its own. -/
def windowsUDPTarget [Tcpip] (addr : RawAddr) (port : UInt16) : Option Str :=
  if port = 53 ∧ (Tcpip.string addr = "198.18.0.1" ∨ Tcpip.string addr = "198.18.0.2") then none
  else some (joinHostPort (Tcpip.string addr) (itoa port.toNat))

/-- `GetOriginalDst` of Darwin, after the lookup. -/
def darwinTarget (af : Family) (rdaddr : Vector UInt8 16) (port : UInt16) : Str :=
  let targetIP := match af with
    | .inet => netIPv4 (rdaddr.toList.take 4)
    | .inet6 => rdaddr.toList
  ipString targetIP ++ ':' :: itoa port.toNat

/-- The string that is handed to `forward` or to the UDP handler, where one is. A TCP
connection of a TUN stack is asked for its local address. -/
def Capture.target [Tcpip] : Capture → Option Str
  | .ebpf dst => some (tcpAddrString (readOriginalDst (originalDstBytes dst)).toTCPAddr)
  | .cookieMap dst => some (mapText (originalDstBytes dst))
  | .sockopt addr hi lo => some (getOriginalDstFromFile addr (portOf hi lo))
  | .linuxUDP addr port => linuxUDPTarget addr port
  | .windowsTCP addr port => some (tcpAddrString ⟨addr.bytes, port⟩)
  | .windowsUDP addr port => windowsUDPTarget addr port
  | .pf af rdaddr hi lo => some (darwinTarget af rdaddr (portOf hi lo))

/-! ## What the strings are split into -/

theorem length_bytes (addr : RawAddr) : addr.bytes.length = 4 ∨ addr.bytes.length = 16 := by
  cases addr with
  | inet addr => exact Or.inl (by simp [RawAddr.bytes])
  | inet6 addr => exact Or.inr (by simp [RawAddr.bytes])

/-- A text that splits into a host of the address and the port. -/
theorem isTextOf_of_split {text host : Str} {addr : SocketAddr}
    (hsplit : splitHostPort text = some (host, itoa addr.port.toNat))
    (hhost : parseIP host = to16 addr.ip) : IsTextOf text addr :=
  ⟨host, _, hsplit, hhost, parseUint_itoa (UInt16.toNat_lt _)⟩

theorem not_isTextOf_of_split {text : Str} {addr : SocketAddr} (h : splitHostPort text = none) :
    ¬ IsTextOf text addr := by
  rintro ⟨host, port, hsplit, -⟩
  rw [h] at hsplit
  cases hsplit

theorem isTextOf_tcpAddrString {addr : SocketAddr}
    (h : addr.ip.length = 4 ∨ addr.ip.length = 16) : IsTextOf (tcpAddrString addr) addr := by
  obtain ⟨hport, hcolon⟩ := plain_itoa addr.port.toNat
  exact isTextOf_of_split (splitHostPort_joinHostPort (plain_ipString h) hport hcolon)
    (parseIP_ipString h)

/-- The text of an IPv4 address in sixteen bytes is that of its four bytes. -/
theorem ipString_of_to4 {ip v4 : IP} (h : to4 ip = some v4) : ipString ip = ipString v4 := by
  rw [ipString, h, ipString, to4, if_pos (length_to4 h)]

theorem ipString_netIPv4 {v4 : IP} (h : v4.length = 4) : ipString (netIPv4 v4) = ipString v4 :=
  ipString_of_to4 (by simp [to4, netIPv4, h, v4InV6Prefix])

/-- An address of IPv4 and a port, with a colon between them. -/
theorem isTextOf_colon {ip : IP} (h : ip.length = 4) (port : UInt16) :
    IsTextOf (ipString ip ++ ':' :: itoa port.toNat) ⟨ip, port⟩ := by
  obtain ⟨hport, hcolon⟩ := plain_itoa port.toNat
  exact isTextOf_of_split
    (splitHostPort_colon (plain_ipString (Or.inl h)) hport (colon_not_mem_ipString h) hcolon)
    (parseIP_ipString (Or.inl h))

theorem isTextOf_getOriginalDstFromFile (addr : RawAddr) (port : UInt16) :
    IsTextOf (getOriginalDstFromFile addr port) ⟨addr.bytes, port⟩ := by
  cases addr with
  | inet addr =>
    have hlen : addr.toList.length = 4 := by simp
    rw [getOriginalDstFromFile, ipString_netIPv4 hlen]
    exact isTextOf_colon hlen port
  | inet6 addr =>
    have hlen : addr.toList.length = 4 ∨ addr.toList.length = 16 := Or.inr (by simp)
    obtain ⟨hport, hcolon⟩ := plain_itoa port.toNat
    exact isTextOf_of_split (splitHostPort_brackets (plain_ipString hlen) hport hcolon)
      (parseIP_ipString hlen)

/-- An IPv6 address, a colon and a port are not split. -/
theorem not_isTextOf_colons {host : Str} {addr : SocketAddr} (hhost : Plain host)
    (hcolon : ':' ∈ host) (port : Nat) : ¬ IsTextOf (host ++ ':' :: itoa port) addr :=
  not_isTextOf_of_split (splitHostPort_colons hhost hcolon (plain_itoa port).2)

/-- What the Linux forwarder hands over is right for IPv4; it hands nothing over for DNS. -/
theorem linuxUDPTarget_iff [Tcpip] (addr : RawAddr) (port : UInt16) :
    (∀ text, linuxUDPTarget addr port = some text → IsTextOf text ⟨addr.bytes, port⟩) ↔
      port = 53 ∨ addr.bytes.length = 4 := by
  unfold linuxUDPTarget
  by_cases hdns : port = 53
  · simp [hdns]
  simp only [hdns, if_false, Option.some.injEq, forall_eq', false_or]
  have hplain := Tcpip.plain addr
  rcases length_bytes addr with hlen | hlen
  · obtain ⟨hport, hdigits⟩ := plain_itoa port.toNat
    have hcolon : ':' ∉ Tcpip.string addr := by
      rw [Tcpip.colon_iff]
      omega
    exact iff_of_true (isTextOf_of_split (splitHostPort_colon hplain hport hcolon hdigits)
      (Tcpip.parseIP_string addr)) hlen
  · have hcolon : ':' ∈ Tcpip.string addr := (Tcpip.colon_iff addr).mpr hlen
    exact iff_of_false (not_isTextOf_colons hplain hcolon _) (by omega)

theorem windowsUDPTarget_isTextOf [Tcpip] (addr : RawAddr) (port : UInt16) (text : Str)
    (h : windowsUDPTarget addr port = some text) : IsTextOf text ⟨addr.bytes, port⟩ := by
  unfold windowsUDPTarget at h
  split at h
  · cases h
  · cases h
    obtain ⟨hport, hcolon⟩ := plain_itoa port.toNat
    exact isTextOf_of_split (splitHostPort_joinHostPort (Tcpip.plain addr) hport hcolon)
      (Tcpip.parseIP_string addr)

/-- What the Darwin lookup hands over is right for an address that is written in IPv4. -/
theorem darwinTarget_iff (af : Family) (rdaddr : Vector UInt8 16) (port : UInt16) :
    IsTextOf (darwinTarget af rdaddr port) ⟨pfBytes af rdaddr, port⟩ ↔
      (to4 (pfBytes af rdaddr)).isSome := by
  cases af with
  | inet =>
    have hlen : (rdaddr.toList.take 4).length = 4 := by simp
    have h4 : (to4 (rdaddr.toList.take 4)).isSome := by rw [to4, if_pos hlen, Option.isSome_some]
    refine iff_of_true ?_ h4
    simp only [darwinTarget, ipString_netIPv4 hlen]
    exact isTextOf_colon hlen port
  | inet6 =>
    have hlen : rdaddr.toList.length = 16 := by simp
    simp only [darwinTarget, pfBytes]
    cases h4 : to4 rdaddr.toList with
    | some v4 =>
      refine iff_of_true ?_ rfl
      have hv4 := length_to4 h4
      obtain ⟨hport, hcolon⟩ := plain_itoa port.toNat
      apply isTextOf_of_split _ (parseIP_ipString (Or.inr hlen))
      rw [ipString_of_to4 h4]
      exact splitHostPort_colon (plain_ipString (Or.inl hv4)) hport (colon_not_mem_ipString hv4)
        hcolon
    | none =>
      have htext : ipString rdaddr.toList = appendTo6 (groups rdaddr.toList) := by
        rw [ipString, h4]
        exact if_pos hlen
      obtain ⟨hcolon, hplain⟩ := plain_appendTo6 hlen
      rw [htext]
      exact iff_of_false (not_isTextOf_colons hplain hcolon _) (by simp)

/-- The destinations that survive: on the cookie map path those whose words read the same in
both byte orders, on the Linux UDP path IPv4 and what is not handed over, and on the Darwin
path those that are written in IPv4. -/
def Capture.Survives : Capture → Prop
  | .cookieMap dst => Mirrors dst.toNetIP
  | .linuxUDP addr port => port = 53 ∨ addr.bytes.length = 4
  | .pf af rdaddr _ _ => (to4 (pfBytes af rdaddr)).isSome
  | .ebpf _ | .sockopt _ _ _ | .windowsTCP _ _ | .windowsUDP _ _ => True

/-- A captured destination is split off the string that is handed over, on every path,
exactly when it survives that path. -/
theorem captured_target_is_split_iff [Tcpip] (c : Capture) :
    (∀ text, c.target = some text → IsTextOf text c.destination) ↔ c.Survives := by
  cases c with
  | ebpf dst =>
    simp only [Capture.target, Option.some.injEq, forall_eq', Capture.destination,
      Capture.Survives, iff_true, toTCPAddr_read]
    exact isTextOf_tcpAddrString (length_toNetIP dst)
  | cookieMap dst =>
    simp only [Capture.target, Option.some.injEq, forall_eq', Capture.destination]
    exact isTextOf_mapText_iff dst
  | sockopt addr hi lo =>
    simp only [Capture.target, Option.some.injEq, forall_eq', Capture.destination,
      Capture.Survives, iff_true]
    exact isTextOf_getOriginalDstFromFile addr _
  | linuxUDP addr port => exact linuxUDPTarget_iff addr port
  | windowsTCP addr port =>
    simp only [Capture.target, Option.some.injEq, forall_eq', Capture.destination,
      Capture.Survives, iff_true]
    exact isTextOf_tcpAddrString (length_bytes addr)
  | windowsUDP addr port => exact iff_of_true (windowsUDPTarget_isTextOf addr port) trivial
  | pf af rdaddr hi lo =>
    simp only [Capture.target, Option.some.injEq, forall_eq', Capture.destination]
    exact darwinTarget_iff af rdaddr _

/-- A UDP destination of IPv6 in the TUN stack of Linux. -/
def docAddr : RawAddr := .inet6 #v[0x20, 0x01, 0x0d, 0xb8, 0, 0, 0, 0, 0, 0, 0, 0, 0, 0, 0, 1]

theorem ipv6_udp_target_is_not_split :
    (Capture.linuxUDP docAddr 443).target = some ("2001:db8::1:443" : Str) ∧
      ¬ IsTextOf "2001:db8::1:443" (Capture.linuxUDP docAddr 443).destination := by
  refine ⟨by decide, ?_⟩
  exact not_isTextOf_of_split (by decide)

end vproxy
