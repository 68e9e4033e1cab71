-- The address of a remote TPROXY server on its way through config_map (writeConfig in
-- loader.go, the cfg_ helpers of redirect.c). Go reads the address as a number, and a hook
-- stores the number where the kernel wants the bytes. So each four bytes come out in the
-- other order.
import Vproxy.Redirect

open go go.net words

namespace vproxy.ebpf

/-! ## The map -/

/-- `config_map`: an array of sixteen words, which both sides read in the order of the host. -/
abbrev ConfigMap := Fin 16 → UInt64

/-- The two words of an address that `writeConfig` makes of sixteen bytes. -/
def beWords (ip6 : IP) : UInt64 × UInt64 :=
  ((beUint32 (ip6.take 4)).toUInt64 <<< 32 ||| (beUint32 ((ip6.drop 4).take 4)).toUInt64,
    (beUint32 ((ip6.drop 8).take 4)).toUInt64 <<< 32 ||| (beUint32 ((ip6.drop 12).take 4)).toUInt64)

/-- The upstream address in the three words of the map. -/
def upstreamWords (upstreamIP : Option IP) : UInt32 × UInt64 × UInt64 :=
  match upstreamIP with
  | none => (0, 0, 0)
  | some ip =>
    match to4 ip, to16 ip with
    | some ip4, _ => (beUint32 ip4, 0, 0)
    | none, some ip6 => (0, beWords ip6)
    | none, none => (0, 0, 0)

/-- `writeConfig`, where every write goes through. -/
def writeConfig (m : ConfigMap) (proxyPort : UInt16) (bypassMark : UInt32)
    (verbose isRemoteTProxy : Bool) (upstreamIP : Option IP) (upstreamPort : UInt16) : ConfigMap :=
  let m := Function.update m 0 proxyPort.toUInt64
  let m := Function.update m 1 bypassMark.toUInt64
  let m := Function.update m 2 (if verbose then 1 else 0)
  let m := Function.update m 3 (if isRemoteTProxy then 1 else 0)
  let m := Function.update m 5 upstreamPort.toUInt64
  let (ip4Val, ip6Val0, ip6Val1) := upstreamWords upstreamIP
  let m := Function.update m 4 ip4Val.toUInt64
  let m := Function.update m 6 ip6Val0
  Function.update m 7 ip6Val1

/-! ## The hooks read it -/

def cfgProxyPort (m : ConfigMap) : UInt32 := (m 0).toUInt32

def cfgBypassMark (m : ConfigMap) : UInt32 := (m 1).toUInt32

def cfgIsRemoteTproxy (m : ConfigMap) : Bool := (m 3).toUInt32 != 0

def cfgUpstreamIp4 (m : ConfigMap) : UInt32 := (m 4).toUInt32

def cfgUpstreamPort (m : ConfigMap) : UInt32 := (m 5).toUInt32

def cfgUpstreamIp6 (m : ConfigMap) : Words4 where
  w0 := (m 6 >>> 32).toUInt32
  w1 := (m 6).toUInt32
  w2 := (m 7 >>> 32).toUInt32
  w3 := (m 7).toUInt32

/-- What the hooks have of the map; a port is cut to sixteen bits where it is used. -/
def ConfigMap.config (m : ConfigMap) : Config where
  proxyPort := (cfgProxyPort m).toUInt16
  bypassMark := cfgBypassMark m
  isRemoteTproxy := cfgIsRemoteTproxy m
  upstreamIp4 := cfgUpstreamIp4 m
  upstreamPort := (cfgUpstreamPort m).toUInt16
  upstreamIp6 := cfgUpstreamIp6 m

/-! ## The address that a hook writes -/

/-- Sixteen bytes through the two words of the map. -/
theorem bytes_beWords {ip6 : IP} (h : ip6.length = 16) :
    Words4.bytes ⟨((beWords ip6).1 >>> 32).toUInt32, (beWords ip6).1.toUInt32,
      ((beWords ip6).2 >>> 32).toUInt32, (beWords ip6).2.toUInt32⟩ = mirrored ip6 := by
  have h0 : (ip6.take 4).length = 4 := by simp [h]
  have h1 : ((ip6.drop 4).take 4).length = 4 := by simp [h]
  have h2 : ((ip6.drop 8).take 4).length = 4 := by simp [h]
  have h3 : ((ip6.drop 12).take 4).length = 4 := by simp [h]
  have hsplit : ip6 = ip6.take 4 ++ ((ip6.drop 4).take 4 ++ ((ip6.drop 8).take 4 ++
      ((ip6.drop 12).take 4 ++ []))) := by
    have hnext : ∀ k, (ip6.drop k).take 4 ++ ip6.drop (k + 4) = ip6.drop k := by
      intro k
      rw [← List.drop_drop, List.take_append_drop]
    have hend : ip6.drop (12 + 4) = [] := List.drop_eq_nil_of_le (Nat.le_of_eq h)
    rw [← hend, hnext 12, hnext 8, hnext 4, List.take_append_drop]
  have hmirrored : mirrored ip6 = (ip6.take 4).reverse ++ (((ip6.drop 4).take 4).reverse ++
      (((ip6.drop 8).take 4).reverse ++ (((ip6.drop 12).take 4).reverse ++ mirrored []))) := by
    rw [← mirrored_append h3, ← mirrored_append h2, ← mirrored_append h1, ← mirrored_append h0,
      ← hsplit]
  rw [hmirrored]
  simp only [Words4.bytes, beWords, high_pack, low_pack, leBytes_beUint32 h0, leBytes_beUint32 h1,
    leBytes_beUint32 h2, leBytes_beUint32 h3, mirrored, List.append_nil, List.append_assoc]

/-! ## The written configuration -/

section

variable (m : ConfigMap) (proxyPort : UInt16) (bypassMark : UInt32) (verbose : Bool) (ip : IP)
  (port : UInt16)

theorem isRemoteTproxy_written (remote : Bool) :
    (writeConfig m proxyPort bypassMark verbose remote (some ip) port).config.isRemoteTproxy =
      remote := by
  cases remote <;> rfl

theorem upstreamPort_written :
    (writeConfig m proxyPort bypassMark verbose true (some ip) port).config.upstreamPort =
      port := by
  change port.toUInt64.toUInt32.toUInt16 = port
  simp

theorem upstreamIp4_written :
    (writeConfig m proxyPort bypassMark verbose true (some ip) port).config.upstreamIp4 =
      (upstreamWords (some ip)).1 := by
  change (upstreamWords (some ip)).1.toUInt64.toUInt32 = _
  simp

theorem upstreamIp6_written :
    (writeConfig m proxyPort bypassMark verbose true (some ip) port).config.upstreamIp6 =
      ⟨((upstreamWords (some ip)).2.1 >>> 32).toUInt32, (upstreamWords (some ip)).2.1.toUInt32,
        ((upstreamWords (some ip)).2.2 >>> 32).toUInt32, (upstreamWords (some ip)).2.2.toUInt32⟩ :=
  rfl

end

/-! ## The address that comes out -/

/-- The bytes of an upstream for the hooks of a family. An IPv6 upstream is not an IPv4 address
in sixteen bytes. -/
def upstreamBytes (ip : IP) : Family → Option IP
  | .inet => to4 ip
  | .inet6 => if (to4 ip).isSome then none else to16 ip

section

variable {family : Family} {old : ConfigMap} {m : Maps} {ctx : SockAddr} {ip bytes : IP}
  {proxyPort port : UInt16} {bypassMark : UInt32} {verbose : Bool}

/-- A hook that does not bypass writes the mirrored address and the port. -/
theorem addr_hooks_remote
    (hm : m.configMap =
      (writeConfig old proxyPort bypassMark verbose true (some ip) port).config)
    (hip : upstreamBytes ip family = some bytes) (hb : bypass family m ctx = false) :
    (connectHook family m ctx).2.addr family = ⟨mirrored bytes, port⟩ ∧
      (sendmsgHook family m ctx).2.addr family = ⟨mirrored bytes, port⟩ := by
  cases family with
  | inet =>
    have hwords : (upstreamWords (some ip)).1 = beUint32 bytes := by
      simp only [upstreamBytes] at hip
      simp only [upstreamWords, hip]
    have hlen : bytes.length = 4 := length_to4 hip
    have hmirrored : leBytes (beUint32 bytes) = mirrored bytes := by
      rw [leBytes_beUint32 hlen, ← List.append_nil bytes, mirrored_append hlen]
      simp [mirrored]
    simp only [bypass] at hb
    simp only [connectHook, sendmsgHook, sock4Connect, sock4Sendmsg, hook, hb, redirected4, hm,
      isRemoteTproxy_written, upstreamIp4_written, upstreamPort_written, SockAddr.addr, hwords,
      hmirrored, swap16_swap16, if_true, Bool.false_eq_true, if_false, and_self]
  | inet6 =>
    have hnone : to4 ip = none ∧ to16 ip = some bytes := by
      simp only [upstreamBytes] at hip
      split at hip
      · cases hip
      · rename_i h4
        exact ⟨Option.not_isSome_iff_eq_none.mp h4, hip⟩
    have hwords : (upstreamWords (some ip)).2 = beWords bytes := by
      simp only [upstreamWords, hnone.1, hnone.2]
    have hmirrored := bytes_beWords (length_to16 hnone.2)
    simp only [bypass] at hb
    simp only [connectHook, sendmsgHook, sock6Connect, sock6Sendmsg, hook, hb, redirected6, hm,
      isRemoteTproxy_written, upstreamIp6_written, upstreamPort_written, SockAddr.addr, hwords,
      hmirrored, swap16_swap16, if_true, Bool.false_eq_true, if_false, and_self]

/-- A destination that is not bypassed goes to the upstream address exactly when each four bytes
of the address are the same from both ends. -/
theorem upstream_survives_iff_mirrored
    (hm : m.configMap =
      (writeConfig old proxyPort bypassMark verbose true (some ip) port).config)
    (hip : upstreamBytes ip family = some bytes) (hb : bypass family m ctx = false) :
    ((connectHook family m ctx).2.addr family = ⟨bytes, port⟩ ↔ Mirrors bytes) ∧
      ((sendmsgHook family m ctx).2.addr family = ⟨bytes, port⟩ ↔ Mirrors bytes) := by
  obtain ⟨hconnect, hsendmsg⟩ := addr_hooks_remote hm hip hb
  rw [hconnect, hsendmsg, SocketAddr.mk.injEq, mirrored_eq_self]
  simp

end

/-- The maps after `Load` for a remote server at port 7893. -/
def remoteMaps (ip : IP) : Maps :=
  ⟨.empty, .empty, .empty, defaultBypass,
    (writeConfig (fun _ => 0) 12345 0xff false true (some ip) 7893).config⟩

/-- A connect to 93.184.216.34:443 or to 2606:2800::1:443. -/
def webCtx : SockAddr where
  userIp4 := leWord 93 184 216 34
  userIp6 := ⟨leWord 0x26 0x06 0x28 0x00, 0, 0, leWord 0 0 0 1⟩
  userPort := swap16 443
  protocol := .tcp
  mark := some 0
  srcPort := 0
  cookie := 1
  task := ⟨7, []⟩

/-- The address 10.8.8.10 gets through. -/
theorem mirrored_upstream_survives :
    (connectHook .inet (remoteMaps [10, 8, 8, 10]) webCtx).2.addr .inet =
      ⟨[10, 8, 8, 10], 7893⟩ := by
  have hip : upstreamBytes [10, 8, 8, 10] .inet = some [10, 8, 8, 10] := by decide
  have hb : bypass .inet (remoteMaps [10, 8, 8, 10]) webCtx = false := by decide
  exact (upstream_survives_iff_mirrored rfl hip hb).1.mpr ⟨rfl, rfl, trivial⟩

/-- For the upstream 192.168.1.5 the traffic goes to 5.1.168.192, and for 2001:db8::1 it goes to
b80d:120:0:0:0:0:100:0. -/
theorem upstream_is_turned :
    (connectHook .inet (remoteMaps [192, 168, 1, 5]) webCtx).2.addr .inet =
        ⟨[5, 1, 168, 192], 7893⟩ ∧
      (connectHook .inet6 (remoteMaps
        [0x20, 0x01, 0x0d, 0xb8, 0, 0, 0, 0, 0, 0, 0, 0, 0, 0, 0, 1]) webCtx).2.addr .inet6 =
        ⟨[0xb8, 0x0d, 0x01, 0x20, 0, 0, 0, 0, 0, 0, 0, 0, 1, 0, 0, 0], 7893⟩ := by
  decide

end vproxy.ebpf
