-- Starting and stopping the TUN stack on Linux (tproxy_linux.go). The device variable also says
-- whether the stack runs. A start that fails at its link endpoint or its NIC leaves the variable
-- set to a closed device, and one that fails at the routes waits for a lock that it holds itself.
import Vproxy.Strings
import Vproxy.Runs

open go runs

namespace vproxy.tun

/-! ## The calls -/

/-- A stack with a device below it. -/
structure NetStack where
  device : Nat
  nic : Bool
  tcpForwarder : Bool
  udpForwarder : Bool
  deriving DecidableEq, Repr

/-- The variables of the package. The devices have numbers in the order of their creation. -/
structure TunState where
  /-- `mu` is locked. -/
  mu : Bool
  /-- `poolOnce` is done. -/
  poolOnce : Bool
  tunDevice : Option Nat
  ipStack : Option NetStack
  created : Nat
  closed : List Nat
  deriving DecidableEq, Repr

def initial : TunState := ⟨false, false, none, none, 0, []⟩

/-- The steps that may fail, with their errors, and the name of the device. -/
structure Env where
  pool : Option Str
  device : Option Str
  name : Str
  endpoint : Option Str
  nic : Option Str
  addr : Option Str
  link : Option Str
  deriving DecidableEq, Repr

inductive Outcome where
  | started
  | failed (err : Str)
  /-- The call waits for a lock that another call holds. -/
  | blocked
  /-- The call waits for a lock that it holds itself. -/
  | deadlocked
  deriving DecidableEq, Repr

/-- `mu.Lock()` that does not wait. -/
def TunState.lock (s : TunState) : Option TunState := if s.mu then none else some { s with mu := true }

def TunState.unlock (s : TunState) : TunState := { s with mu := false }

/-- `Close` of a device. -/
def TunState.close (s : TunState) (d : Nat) : TunState := { s with closed := d :: s.closed }

/-- `Cleanup`, unless it waits for the lock. -/
def TunState.cleanup (s : TunState) : Option TunState := do
  let s ← s.lock
  match s.tunDevice with
  | some d => some { s.close d with tunDevice := none }.unlock
  | none => some s.unlock

/-- The error of `dns.InitGlobalPool`, which tries once. -/
def TunState.initGlobalPool (s : TunState) (e : Env) : Option Str :=
  if s.poolOnce then none else e.pool

def setupRoutingLinux (e : Env) : Option Str :=
  match e.addr with
  | some err => some ("failed to assign IPv4 to " ++ e.name ++ ": " ++ err)
  | none =>
    match e.link with
    | some err => some ("failed to set " ++ e.name ++ " link up: " ++ err)
    | none => none

/-- `StartLinuxTransparent` behind the creation of the device `d`. -/
def TunState.startStack (s : TunState) (e : Env) (d : Nat) : TunState × Outcome :=
  let s := { s with tunDevice := some d, ipStack := some ⟨d, false, false, false⟩ }
  match e.endpoint with
  | some err => ((s.close d).unlock, .failed ("failed to create fdbased link endpoint: " ++ err))
  | none =>
    match e.nic with
    | some err => ((s.close d).unlock, .failed ("failed to create NIC: " ++ err))
    | none =>
      let s := { s with ipStack := some ⟨d, true, true, true⟩ }
      match setupRoutingLinux e with
      | some err =>
        match s.cleanup with
        | none => (s, .deadlocked)
        | some s => (s.unlock, .failed ("failed to setup routing: " ++ err))
      | none => (s.unlock, .started)

/-- `StartLinuxTransparent`. -/
def TunState.startLinuxTransparent (s : TunState) (e : Env) : TunState × Outcome :=
  match s.lock with
  | none => (s, .blocked)
  | some s =>
    if s.tunDevice.isSome then (s.unlock, .started)
    else
      let poolErr := s.initGlobalPool e
      let s := { s with poolOnce := true }
      match poolErr with
      | some err => (s.unlock, .failed ("failed to init Fake-IP pool: " ++ err))
      | none =>
        match e.device with
        | some err =>
          (s.unlock, .failed ("failed to create TUN device: " ++ err ++ " (are you root?)"))
        | none => { s with created := s.created + 1 }.startStack e s.created

inductive Call where
  | start (e : Env)
  | cleanup

/-- The state after a call. A call that waits for ever changes nothing more. -/
def TunState.step (s : TunState) : Call → TunState
  | .start e => (s.startLinuxTransparent e).1
  | .cleanup => s.cleanup.getD s

/-! ## All or nothing -/

/-- A device is open, with both forwarders on its stack. -/
def TunState.Running (s : TunState) : Prop :=
  ∃ d, s.tunDevice = some d ∧ d ∉ s.closed ∧ s.ipStack = some ⟨d, true, true, true⟩

/-- The variable is empty and every device is closed. -/
def TunState.Stopped (s : TunState) : Prop :=
  s.tunDevice = none ∧ ∀ d < s.created, d ∈ s.closed

/-- What a call promises. -/
def AllOrNothing (s : TunState) : Call → Prop
  | .start e =>
    match (s.startLinuxTransparent e).2 with
    | .started => (s.startLinuxTransparent e).1.Running
    | .failed _ => (s.startLinuxTransparent e).1.Stopped
    | .blocked => True
    | .deadlocked => False
  | .cleanup => True

/-- The call creates a device, and no later step fails. -/
def Smooth (s : TunState) : Call → Prop
  | .start e =>
    s.tunDevice = none → s.initGlobalPool e = none → e.device = none →
      e.endpoint = none ∧ e.nic = none ∧ setupRoutingLinux e = none
  | .cleanup => True

/-- The stack runs or is stopped, and nobody holds the lock. -/
structure TunState.Good (s : TunState) : Prop where
  unlocked : s.mu = false
  known : ∀ d, d ∈ s.closed ∨ s.tunDevice = some d → d < s.created
  others : ∀ d < s.created, s.tunDevice ≠ some d → d ∈ s.closed
  running : s.tunDevice ≠ none → s.Running

theorem good_initial : initial.Good :=
  ⟨rfl, fun _ h => h.elim nofun nofun, nofun, fun h => absurd rfl h⟩

section

variable {s : TunState}

theorem TunState.lock_of_unlocked (h : s.mu = false) : s.lock = some { s with mu := true } := by
  simp [TunState.lock, h]

theorem TunState.cleanup_of_locked (h : s.mu = true) : s.cleanup = none := by
  simp [TunState.cleanup, TunState.lock, h]

/-! ## One call -/

theorem TunState.Good.cleanup (h : s.Good) : (s.step .cleanup).Good := by
  obtain ⟨hmu, hknown, hothers, -⟩ := h
  unfold TunState.step TunState.cleanup
  rw [TunState.lock_of_unlocked hmu]
  cases hdev : s.tunDevice with
  | none =>
    refine ⟨rfl, ?_, ?_, fun hne => absurd rfl hne⟩
    · rintro d (hd | hd)
      · exact hknown d (.inl hd)
      · cases hd
    · intro d hd _
      exact hothers d hd (by rw [hdev]; exact nofun)
  | some d =>
    refine ⟨rfl, ?_, ?_, fun hne => absurd rfl hne⟩
    · rintro d' (hd | hd)
      · rcases List.mem_cons.mp hd with rfl | hd
        · exact hknown d' (.inr hdev)
        · exact hknown d' (.inl hd)
      · cases hd
    · intro d' hd _
      by_cases heq : d' = d
      · exact List.mem_cons.mpr (.inl heq)
      · refine List.mem_cons_of_mem d (hothers d' hd ?_)
        rw [hdev]
        exact fun hsame => heq (Option.some.inj hsame).symm

/-- A start where the stack runs changes nothing. -/
theorem TunState.start_running (hmu : s.mu = false) (hdev : s.tunDevice ≠ none) (e : Env) :
    s.startLinuxTransparent e = (s, .started) := by
  unfold TunState.startLinuxTransparent
  rw [TunState.lock_of_unlocked hmu]
  dsimp only
  rw [if_pos (Option.isSome_iff_ne_none.mpr hdev)]
  obtain ⟨mu, pool, dev, stack, created, closed⟩ := s
  obtain rfl : mu = false := hmu
  rfl

/-- A start that does not get to the device leaves the stack stopped. -/
theorem TunState.start_early (hmu : s.mu = false) (hdev : s.tunDevice = none) {e : Env}
    (hearly : ¬ (s.initGlobalPool e = none ∧ e.device = none)) :
    ∃ err, s.startLinuxTransparent e = ({ s with poolOnce := true }, .failed err) := by
  obtain ⟨mu, pool, dev, stack, created, closed⟩ := s
  obtain rfl : mu = false := hmu
  obtain rfl : dev = none := hdev
  unfold TunState.startLinuxTransparent
  rw [TunState.lock_of_unlocked rfl]
  have hsame : TunState.initGlobalPool ⟨true, pool, none, stack, created, closed⟩ e =
      TunState.initGlobalPool ⟨false, pool, none, stack, created, closed⟩ e := rfl
  dsimp only
  rw [hsame]
  cases hpool : TunState.initGlobalPool ⟨false, pool, none, stack, created, closed⟩ e with
  | some err => exact ⟨_, rfl⟩
  | none =>
    cases hdevice : e.device with
    | some err => exact ⟨_, rfl⟩
    | none => exact absurd ⟨hpool, hdevice⟩ hearly

/-- A start that creates a device goes on to its stack. -/
theorem TunState.start_device (hmu : s.mu = false) (hdev : s.tunDevice = none) {e : Env}
    (hpool : s.initGlobalPool e = none) (hdevice : e.device = none) :
    s.startLinuxTransparent e =
      { s with mu := true, poolOnce := true, created := s.created + 1 }.startStack e s.created := by
  obtain ⟨mu, pool, dev, stack, created, closed⟩ := s
  obtain rfl : mu = false := hmu
  obtain rfl : dev = none := hdev
  unfold TunState.startLinuxTransparent
  rw [TunState.lock_of_unlocked rfl]
  have hlocked : TunState.initGlobalPool ⟨true, pool, none, stack, created, closed⟩ e = none := hpool
  dsimp only
  rw [hlocked, hdevice]
  rfl

theorem TunState.startStack_starts (e : Env) (d : Nat) (hendpoint : e.endpoint = none)
    (hnic : e.nic = none) (hrouting : setupRoutingLinux e = none) :
    s.startStack e d =
      ({ s with mu := false, tunDevice := some d, ipStack := some ⟨d, true, true, true⟩ },
        .started) := by
  unfold TunState.startStack
  rw [hendpoint, hnic, hrouting]
  rfl

/-- A later failure leaves the variable set, or the call waits for itself. -/
theorem TunState.startStack_fails (hmu : s.mu = true) {e : Env} {d : Nat}
    (h : ¬ (e.endpoint = none ∧ e.nic = none ∧ setupRoutingLinux e = none)) :
    (s.startStack e d).2 = .deadlocked ∨
      ∃ err, (s.startStack e d).2 = .failed err ∧ (s.startStack e d).1.tunDevice = some d := by
  unfold TunState.startStack
  cases hendpoint : e.endpoint with
  | some err => exact .inr ⟨_, rfl, rfl⟩
  | none =>
    cases hnic : e.nic with
    | some err => exact .inr ⟨_, rfl, rfl⟩
    | none =>
      cases hrouting : setupRoutingLinux e with
      | some err =>
        have hwaits : { s with
            tunDevice := some d, ipStack := some ⟨d, true, true, true⟩ }.cleanup = none :=
          TunState.cleanup_of_locked hmu
        dsimp only
        rw [hwaits]
        exact .inl rfl
      | none => exact absurd ⟨hendpoint, hnic, hrouting⟩ h

/-- What a start comes to. -/
theorem TunState.Good.start_cases (h : s.Good) (e : Env) :
    (s.startLinuxTransparent e = (s, .started) ∧ s.tunDevice ≠ none) ∨
    (∃ err, s.startLinuxTransparent e = ({ s with poolOnce := true }, .failed err) ∧
      s.tunDevice = none ∧ ¬ (s.initGlobalPool e = none ∧ e.device = none)) ∨
    s.tunDevice = none ∧ s.initGlobalPool e = none ∧ e.device = none ∧
      s.startLinuxTransparent e =
        { s with mu := true, poolOnce := true, created := s.created + 1 }.startStack e
          s.created := by
  by_cases hdev : s.tunDevice = none
  · by_cases hearly : s.initGlobalPool e = none ∧ e.device = none
    · exact .inr (.inr ⟨hdev, hearly.1, hearly.2, start_device h.unlocked hdev hearly.1 hearly.2⟩)
    · obtain ⟨err, hstart⟩ := start_early h.unlocked hdev hearly
      exact .inr (.inl ⟨err, hstart, hdev, hearly⟩)
  · exact .inl ⟨start_running h.unlocked hdev e, hdev⟩

theorem TunState.Good.allOrNothing_iff (h : s.Good) (c : Call) : AllOrNothing s c ↔ Smooth s c := by
  cases c with
  | cleanup => exact Iff.rfl
  | start e =>
    unfold AllOrNothing Smooth
    dsimp only
    rcases h.start_cases e with ⟨hstart, hdev⟩ | ⟨err, hstart, hdev, hearly⟩ |
      ⟨hdev, hpool, hdevice, hstart⟩
    · rw [hstart]
      exact ⟨fun _ hnone => absurd hnone hdev, fun _ => h.running hdev⟩
    · rw [hstart]
      refine ⟨fun _ _ hpool hdevice => absurd ⟨hpool, hdevice⟩ hearly, fun _ => ⟨hdev, ?_⟩⟩
      intro d hd
      exact h.others d hd (by rw [hdev]; exact nofun)
    · rw [hstart]
      by_cases hlater : e.endpoint = none ∧ e.nic = none ∧ setupRoutingLinux e = none
      · rw [startStack_starts e _ hlater.1 hlater.2.1 hlater.2.2]
        refine ⟨fun _ _ _ _ => hlater, fun _ => ⟨s.created, rfl, ?_, rfl⟩⟩
        intro hclosed
        exact Nat.lt_irrefl _ (h.known _ (.inl hclosed))
      · refine ⟨fun hall => ?_, fun hsmooth => absurd (hsmooth hdev hpool hdevice) hlater⟩
        exfalso
        generalize hlocked : { s with mu := true, poolOnce := true, created := s.created + 1 } = t
          at hall
        have hmu : t.mu = true := by rw [← hlocked]
        rcases startStack_fails hmu hlater with hdead | ⟨err, hfailed, hset⟩
        · rw [hdead] at hall
          exact hall
        · rw [hfailed] at hall
          exact absurd (hset.symm.trans hall.1) nofun

theorem TunState.Good.step (h : s.Good) {c : Call} (hc : Smooth s c) : (s.step c).Good := by
  cases c with
  | cleanup => exact h.cleanup
  | start e =>
    unfold TunState.step
    dsimp only
    rcases h.start_cases e with ⟨hstart, -⟩ | ⟨err, hstart, hdev, -⟩ |
      ⟨hdev, hpool, hdevice, hstart⟩
    · rw [hstart]
      exact h
    · rw [hstart]
      exact ⟨h.unlocked, h.known, h.others, h.running⟩
    · obtain ⟨hendpoint, hnic, hrouting⟩ := hc hdev hpool hdevice
      rw [hstart, startStack_starts e _ hendpoint hnic hrouting]
      refine ⟨rfl, ?_, ?_, ?_⟩
      · rintro d (hd | hd)
        · exact Nat.lt_succ_of_lt (h.known d (.inl hd))
        · obtain rfl := Option.some.inj hd
          exact Nat.lt_succ_self _
      · intro d hd hne
        have hold : d < s.created := by
          refine Nat.lt_of_le_of_ne (Nat.le_of_lt_succ hd) ?_
          rintro rfl
          exact hne rfl
        exact h.others d hold (by rw [hdev]; exact nofun)
      · refine fun _ => ⟨s.created, rfl, ?_, rfl⟩
        intro hclosed
        exact Nat.lt_irrefl _ (h.known _ (.inl hclosed))

end

/-- Along every sequence of calls, each start is all or nothing and waits for no lock of its own
exactly if no start that has created a device meets an error after it. -/
theorem start_is_all_or_nothing (calls : List Call) :
    Along TunState.step AllOrNothing initial calls ↔ Along TunState.step Smooth initial calls :=
  along_congr_of_invariant TunState.Good (fun _ c h => h.allOrNothing_iff c)
    (fun _ _ h hc => h.step hc) good_initial calls

/-- An environment where every step succeeds. -/
def calm : Env := ⟨none, none, "vproxy-tun", none, none, none, none⟩

/-- A start that cannot set the address waits for itself. A start without a link endpoint fails
and leaves its closed device in the variable, and the next one takes it for a running stack. -/
theorem failed_start_is_not_undone :
    (initial.startLinuxTransparent { calm with addr := some "exit status 2" }).2 = .deadlocked ∧
    ∃ s err, initial.startLinuxTransparent { calm with endpoint := some "bad fd" } =
        (s, .failed err) ∧ s.tunDevice = some 0 ∧ 0 ∈ s.closed ∧
      s.startLinuxTransparent calm = (s, .started) := by
  refine ⟨by decide, _, _, rfl, ?_⟩
  decide

end vproxy.tun
