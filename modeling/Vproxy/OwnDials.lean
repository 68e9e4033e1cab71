-- The connections of the wrapper itself (SetDialerControl in log.go, ControlDialer in client.go,
-- StartTransparent in handler.go). The wrapper is in the cgroup of its command, so the hooks see
-- its connections too, and let pass only what has the mark. Which control a dial gets is decided by
-- the last call of SetDialerControl.
import Vproxy.Wrapper
import Vproxy.KernelBypass

open go go.net words vproxy.ebpf

namespace vproxy.wrapper

/-! ## Dialer controls -/

/-- What a control does to a socket before it is connected. -/
inductive Control where
  | mark
  | bindToDevice (name : Str)
  deriving DecidableEq, Repr

/-- `ebpf.enabled`, and the control, which `socks.DefaultDialerControl` has as well. -/
structure Dialers where
  enabled : Bool
  control : Option Control
  deriving DecidableEq, Repr

/-- `ebpf.GetDialerControl`. -/
def Dialers.ebpfControl (d : Dialers) : Option Control := if d.enabled then some .mark else none

/-- `tproxy.GetDialerControl`, for the interface of the default route. -/
def tproxyControl (iface : Option Str) : Option Control := iface.map .bindToDevice

def Dialers.setDialerControl (d : Dialers) (f : Option Control) : Dialers := { d with control := f }

/-- The two places of `RunWrapper` that set the control. -/
inductive Startup where
  /-- `SetEnabled(true)` and `SetDialerControl(ebpf.GetDialerControl())`. -/
  | enable
  | startTransparent (iface : Option Str)
  deriving DecidableEq, Repr

def Dialers.step (d : Dialers) : Startup → Dialers
  | .enable =>
    let d := { d with enabled := true }
    d.setDialerControl d.ebpfControl
  | .startTransparent iface => d.setDialerControl (tproxyControl iface)

/-- The calls of a wrapper, in their order. -/
def startups (w : Setting) (iface : Option Str) : List Startup :=
  (if (needs w).ebpf && w.enabled && w.linux then [.enable] else []) ++
    if ((needs w).ebpf || w.skipPrivileged) && (w.useTun || w.enabled) && w.linux &&
      (needs w).transparent && w.tproxy.isNone && !w.skipPrivileged then [.startTransparent iface]
    else []

def dialers (w : Setting) (iface : Option Str) : Dialers :=
  runs.run Dialers.step ⟨false, none⟩ (startups w iface)

/-! ## Dials -/

/-- `net.Dialer` with `GetDialerControl()`, and `ControlDialer` with the same argument. -/
inductive Dialer where
  | net
  | socks
  deriving DecidableEq, Repr

/-- The control of a dial. A nil control of the SOCKS client is replaced, and none is used for a
loopback address. -/
def Dialers.dialControl (d : Dialers) (k : Dialer) (ip : IP) : Option Control :=
  match k with
  | .net => d.control
  | .socks => if isLoopback ip then none else (d.control.or d.control).or d.ebpfControl

/-- The socket of a dial as a hook sees it. -/
def dialed (ctx : SockAddr) (control : Option Control) : SockAddr :=
  { ctx with mark := some (if control = some .mark then 0xff else 0) }

/-- `ebpf.Load` of the wrapper. -/
def wrapperConfig (w : Setting) : ebpf.Config :=
  (writeConfig (fun _ => 0) (.ofNat w.transPort) 0xff false false none 0).config

theorem wrapperConfig_eq (w : Setting) :
    (wrapperConfig w).proxyPort = .ofNat w.transPort ∧ (wrapperConfig w).bypassMark = 0xff ∧
      (wrapperConfig w).isRemoteTproxy = false := by
  refine ⟨?_, rfl, rfl⟩
  change (UInt16.ofNat w.transPort).toUInt64.toUInt32.toUInt16 = _
  simp

/-! ## Which dials are marked -/

/-- A wrapper that loads the hooks enables the mark, and then starts the bridge, if the upstream is
no TPROXY server. -/
theorem startups_of_unloaded {w : Setting} {ans : Answers} (h : fate w ans = .unloaded)
    (iface : Option Str) :
    startups w iface =
      .enable :: if w.tproxy.isNone then [.startTransparent iface] else [] := by
  unfold fate at h
  split at h
  · cases h
  rename_i hneeds
  split at h
  · cases h
  rename_i henabled
  split at h
  · cases h
  rename_i hdaemon
  simp only [Bool.or_eq_true, Bool.not_eq_true', not_or, Bool.not_eq_false] at hneeds henabled
  obtain ⟨⟨hneeds, hlinux⟩, -⟩ := hneeds
  have htransparent := (useTun_of_needs hneeds).2
  unfold startups
  cases htproxy : w.tproxy with
  | none =>
    have hskip : w.skipPrivileged = false := by simpa [htproxy] using hdaemon
    simp [hneeds, henabled, hlinux, htransparent, hskip]
  | some u => simp [hneeds, henabled, hlinux]

/-- The bridge takes the mark away, and the SOCKS client only finds it again where there is no
default route. -/
theorem dialControl_of_unloaded {w : Setting} {ans : Answers} (h : fate w ans = .unloaded)
    (iface : Option Str) (k : Dialer) {ip : IP} (hip : isLoopback ip = false) :
    (dialers w iface).dialControl k ip = some .mark ↔
      w.tproxy.isSome = true ∨ k = .socks ∧ iface = none := by
  unfold dialers
  rw [startups_of_unloaded h]
  cases htproxy : w.tproxy with
  | some u => cases k <;> simp [Dialers.step, Dialers.dialControl, Dialers.setDialerControl,
      Dialers.ebpfControl, hip]
  | none => cases k <;> cases iface <;> simp [Dialers.step, Dialers.dialControl,
      Dialers.setDialerControl, Dialers.ebpfControl, tproxyControl, hip]

/-! ## The law -/

/-- A loopback address is local for the hooks. -/
theorem kernelLocal_of_isLoopback {family : Family} {ip : IP} (hfamily : familyOf ip = family)
    (hlength : family = .inet → ip.length = 4) (h : isLoopback ip = true) :
    kernelLocal family ip = true := by
  unfold isLoopback at h
  unfold familyOf at hfamily
  cases hto4 : to4 ip with
  | some a =>
    rw [hto4] at h hfamily
    obtain rfl : Family.inet = family := hfamily
    have ha : a = ip := by
      rw [to4, if_pos (hlength rfl)] at hto4
      exact (Option.some.inj hto4).symm
    subst ha
    simp only [kernelLocal]
    simp [show byte a 0 = 127 by simpa using h]
  | none =>
    rw [hto4] at h hfamily
    obtain rfl : Family.inet6 = family := hfamily
    simp only [kernelLocal]
    simp [show ip = ipv6loopback by simpa using h]

/-- The hook for a connect of this family. -/
def connectOf : Family → Hook
  | .inet => .connect4
  | .inet6 => .connect6

theorem addr_connectHook_marked {family : Family} {m : Maps} {ctx : SockAddr}
    (h : isBypassSocket m ctx = true) : (connectHook family m ctx).2.addr family =
      ctx.addr family := by
  have hpasses : (connectOf family).passes m ctx = true := by
    cases family <;> simp [connectOf, Hook.passes, Hook.family, bypass, bypass4, bypass6, h]
  have hrun : connectHook family m ctx = (m, ctx) := by
    cases family <;> exact run_of_passes hpasses
  rw [hrun]

theorem addr_connectHook_unmarked {family : Family} {m : Maps} {ctx : SockAddr}
    (hcidrs : m.cidrBypassMap = defaultBypass) (hremote : m.configMap.isRemoteTproxy = false)
    (h : isBypassSocket m ctx = false)
    (haddr : kernelLocal family (ctx.addr family).ip = false)
    (hport : (ctx.addr family).port ≠ 53) :
    (connectHook family m ctx).2.addr family = listener m.configMap.proxyPort family := by
  have hpasses : bypass family m ctx = false := by
    have hiff := passes_iff (h := connectOf family) hcidrs h
    cases family <;>
    · simp only [connectOf, Hook.family, Hook.passes, haddr, Bool.false_or] at hiff
      rw [hiff, beq_eq_false_iff_ne]
      exact hport
  exact addr_connectHook (by simp [redirects, hpasses, hremote])

/-- The hooks of a wrapper send its own connection to its own listener, unless the upstream is a
TPROXY server, or the SOCKS client finds no default route. -/
theorem own_dial_address {w : Setting} {ans : Answers} (hfate : fate w ans = .unloaded)
    (iface : Option Str) (k : Dialer) {family : Family} {m : Maps}
    (hcidrs : m.cidrBypassMap = defaultBypass) (hconfig : m.configMap = wrapperConfig w)
    {ctx : SockAddr} (hfamily : familyOf (ctx.addr family).ip = family)
    (haddr : kernelLocal family (ctx.addr family).ip = false)
    (hport : (ctx.addr family).port ≠ 53) :
    (connectHook family m (dialed ctx ((dialers w iface).dialControl k
      (ctx.addr family).ip))).2.addr family =
      if w.tproxy.isSome ∨ k = .socks ∧ iface = none then ctx.addr family
      else listener (.ofNat w.transPort) family := by
  obtain ⟨hproxyPort, hbypassMark, hremote⟩ := wrapperConfig_eq w
  rw [← hconfig] at hproxyPort hbypassMark hremote
  have hloopback : isLoopback (ctx.addr family).ip = false := by
    by_contra h
    have hlocal := kernelLocal_of_isLoopback hfamily (by rintro rfl; rfl)
      (Bool.not_eq_false _ ▸ h)
    rw [haddr] at hlocal
    cases hlocal
  have hmarked := dialControl_of_unloaded hfate iface k hloopback
  generalize (dialers w iface).dialControl k (ctx.addr family).ip = control at hmarked ⊢
  have hsame : (dialed ctx control).addr family = ctx.addr family := by cases family <;> rfl
  have hsocket : isBypassSocket m (dialed ctx control) = decide (control = some .mark) := by
    unfold isBypassSocket dialed
    rw [hbypassMark]
    by_cases hcontrol : control = some .mark <;> simp [hcontrol]
  by_cases hcontrol : control = some .mark
  · rw [if_pos (hmarked.mp hcontrol),
      addr_connectHook_marked (hsocket.trans (decide_eq_true hcontrol)), hsame]
  · rw [if_neg (fun h => hcontrol (hmarked.mpr h)), ← hproxyPort]
    exact addr_connectHook_unmarked hcidrs hremote (hsocket.trans (decide_eq_false hcontrol))
      (by rw [hsame]; exact haddr) (by rw [hsame]; exact hport)

/-- The wrapper with the hooks. -/
def hookedSetting : Setting := { wgetSetting with forceIptables := false }

def hookedMaps : Maps :=
  ⟨.empty, .empty, .empty, defaultBypass, wrapperConfig hookedSetting⟩

/-- Its connection to a public upstream comes back to its own port. -/
theorem public_upstream_comes_back :
    (connectHook .inet hookedMaps (dialed (connectCtx 203 0 113 5)
      ((dialers hookedSetting (some "eth0")).dialControl .socks
        ((connectCtx 203 0 113 5).addr .inet).ip))).2.addr .inet = listener 1081 .inet := by
  have hfate : fate hookedSetting rootAnswers = .unloaded := by decide +kernel
  have hfamily : familyOf ((connectCtx 203 0 113 5).addr .inet).ip = .inet := by decide
  have haddr : kernelLocal .inet ((connectCtx 203 0 113 5).addr .inet).ip = false := by decide
  have hport : ((connectCtx 203 0 113 5).addr .inet).port ≠ 53 := by decide
  have hdial := own_dial_address hfate (some "eth0") .socks
    (rfl : hookedMaps.cidrBypassMap = defaultBypass) rfl hfamily haddr hport
  rw [hdial, if_neg (by decide +kernel)]
  rfl

end vproxy.wrapper
