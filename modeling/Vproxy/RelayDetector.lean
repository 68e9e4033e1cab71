-- The relay detector of the Windows driver (driver_windows.go) beside the predicate of the
-- handler that it copies (isForwardedRelay). The detector keeps the servers of the start and
-- knows two names of this machine; the handler looks at the servers of the moment.
import Vproxy.BlockPolicy
import Vproxy.Runs

open go go.net go.url go.regexp runs

namespace vproxy

/-! ## The decision -/

/-- What `conn.RemoteAddr()` is; a nil address is no address at all. -/
inductive RemoteAddr where
  | tcp (ip : IP)
  | udp (ip : IP)
  | other

/-- The source address, unless it is nil. -/
def sourceIP : Option RemoteAddr → Option IP
  | some (.tcp ip) => if ip = [] then none else some ip
  | some (.udp ip) => if ip = [] then none else some ip
  | _ => none

/-- The address of native applications on the TUN device. -/
def wintunIP : IP := (parseIP "198.18.0.1").getD []

/-- The body of both functions, from the answer of their own `hasLocalUpstream`. -/
def forwardedRelay (hasLocalUpstream : Bool) (conn : Option RemoteAddr) (isFakeIP : Bool)
    (pid : Int) : Bool :=
  if isFakeIP || 0 < pid || !hasLocalUpstream then false
  else
    match sourceIP conn with
    | none => false
    | some srcIP => if !ipEqual srcIP wintunIP && isPrivate srcIP then true else pid = 0

/-- The rest of the body lets a connection count as forwarded. -/
def CouldForward (conn : Option RemoteAddr) (isFakeIP : Bool) (pid : Int) : Prop :=
  isFakeIP = false ∧ pid ≤ 0 ∧ ∃ srcIP, sourceIP conn = some srcIP ∧
    (pid = 0 ∨ ipEqual srcIP wintunIP = false ∧ isPrivate srcIP = true)

theorem forwardedRelay_iff (hasLocal : Bool) (conn : Option RemoteAddr) (isFakeIP : Bool)
    (pid : Int) :
    forwardedRelay hasLocal conn isFakeIP pid = true ↔
      hasLocal = true ∧ CouldForward conn isFakeIP pid := by
  unfold forwardedRelay CouldForward
  cases hasLocal with
  | false => simp
  | true =>
    cases isFakeIP with
    | true => simp
    | false =>
      by_cases hpid : 0 < pid
      · simp [hpid]
      · cases hsrc : sourceIP conn with
        | none => simp
        | some srcIP =>
          have hle : pid ≤ 0 := by omega
          simp [hpid, hle, or_comm]

/-- Two answers of `hasLocalUpstream` make a difference only where a connection could count as
forwarded. -/
theorem forwardedRelay_eq_iff (a b : Bool) (conn : Option RemoteAddr) (isFakeIP : Bool)
    (pid : Int) :
    forwardedRelay a conn isFakeIP pid = forwardedRelay b conn isFakeIP pid ↔
      (CouldForward conn isFakeIP pid → (a = true ↔ b = true)) := by
  rw [Bool.eq_iff_iff, forwardedRelay_iff, forwardedRelay_iff]
  constructor
  · intro h hcould
    simpa [hcould] using h
  · intro h
    by_cases hcould : CouldForward conn isFakeIP pid
    · simp [hcould, h hcould]
    · simp [hcould]

/-! ## The two functions -/

structure WindowsRelayDetector where
  servers : List Str

def newRelayDetector (servers : List Str) : WindowsRelayDetector := ⟨servers⟩

def WindowsRelayDetector.hasLocalUpstream (r : WindowsRelayDetector) : Bool :=
  r.servers.any fun server => (parse server).any fun u =>
    u.hostname = ("localhost" : Str) || u.hostname = ("127.0.0.1" : Str)

def WindowsRelayDetector.isForwardedRelay (r : WindowsRelayDetector) :
    Option RemoteAddr → Bool → Int → Bool :=
  forwardedRelay r.hasLocalUpstream

/-- Some server of the list has a host with this property. -/
def SomeHost (P : Str → Prop) (servers : List Str) : Prop :=
  ∃ server ∈ servers, ∃ u, parse server = some u ∧ P u.hostname

/-- The two names that the detector knows. -/
def DetectorName (host : Str) : Prop := host = "localhost" ∨ host = "127.0.0.1"

/-- Every name of this machine that is an address, and its usual name. -/
def LoopbackName (host : Str) : Prop :=
  host = "localhost" ∨ ∃ ip, parseIP host = some ip ∧ isLoopback ip = true

theorem any_parse_iff {P : Str → Prop} {p : Str → Bool} (h : ∀ host, p host = true ↔ P host)
    (servers : List Str) :
    (servers.any fun server => (parse server).any fun u => p u.hostname) = true ↔
      SomeHost P servers := by
  unfold SomeHost
  rw [List.any_eq_true]
  refine exists_congr fun server => and_congr_right fun _ => ?_
  cases parse server with
  | none => simp
  | some u => simp [h]

theorem detector_hasLocalUpstream_iff (r : WindowsRelayDetector) :
    r.hasLocalUpstream = true ↔ SomeHost DetectorName r.servers := by
  apply any_parse_iff (p := fun host => host = "localhost" || host = "127.0.0.1")
  intro host
  rw [Bool.or_eq_true, decide_eq_true_eq, decide_eq_true_eq]
  rfl

theorem isLoopbackUpstream_iff (host : Str) : isLoopbackUpstream host = true ↔ LoopbackName host := by
  unfold isLoopbackUpstream LoopbackName
  rw [Bool.or_eq_true, decide_eq_true_eq]
  cases parseIP host <;> simp

section

variable [Regexp]

theorem handler_hasLocalUpstream_iff (ph : ProxyHandler) :
    ph.hasLocalUpstream = true ↔ SomeHost LoopbackName ph.sm.servers :=
  any_parse_iff isLoopbackUpstream_iff ph.sm.servers

def ProxyHandler.isForwardedRelay (ph : ProxyHandler) : Option RemoteAddr → Bool → Int → Bool :=
  forwardedRelay ph.hasLocalUpstream

/-! ## A handler with its detector -/

/-- A handler and the detector that `NewProxyHandler` gives it. -/
structure WindowsHandler where
  ph : ProxyHandler
  relayDetector : WindowsRelayDetector

/-- The detector gets the servers of the start. -/
def newWindowsHandler (sm : ServerManager) (rm : RuleManager)
    (socksPort httpPort transPort webPort : Int) : WindowsHandler where
  ph := newProxyHandler sm rm socksPort httpPort transPort webPort
  relayDetector := newRelayDetector sm.servers

/-- `UpdateServers` leaves the detector alone. -/
def WindowsHandler.updateServers (h : WindowsHandler) (upstreams : List Str) : WindowsHandler :=
  { h with ph := h.ph.updateServers upstreams }

/-- The client, with the detector where `forward` and `handleUDP` ask it. -/
def WindowsHandler.client (h : WindowsHandler) (conn : Option RemoteAddr) (c : Client) : Client :=
  { c with relay := h.relayDetector.isForwardedRelay conn }

theorem run_updateServers (h : WindowsHandler) (lists : List (List Str)) :
    (run WindowsHandler.updateServers h lists).relayDetector = h.relayDetector ∧
      (run WindowsHandler.updateServers h lists).ph.sm.servers =
        lists.getLast?.getD h.ph.sm.servers := by
  induction lists using List.reverseRecOn with
  | nil => exact ⟨rfl, rfl⟩
  | append_singleton lists servers ih =>
    rw [runs.run_append]
    refine ⟨ih.1, ?_⟩
    rw [List.getLast?_concat]
    rfl

/-- After any updates the detector decides as the handler would, exactly when the connection
could not count as forwarded at all, or the servers of the start have one of the two names
just when the servers of the moment have a name of this machine. -/
theorem detectors_agree (sm : ServerManager) (rm : RuleManager)
    (socksPort httpPort transPort webPort : Int) (lists : List (List Str))
    (conn : Option RemoteAddr) (isFakeIP : Bool) (pid : Int) :
    let h := run WindowsHandler.updateServers
      (newWindowsHandler sm rm socksPort httpPort transPort webPort) lists
    h.relayDetector.isForwardedRelay conn isFakeIP pid = h.ph.isForwardedRelay conn isFakeIP pid ↔
      (CouldForward conn isFakeIP pid →
        (SomeHost DetectorName sm.servers ↔
          SomeHost LoopbackName (lists.getLast?.getD sm.servers))) := by
  intro h
  obtain ⟨hdetector, hservers⟩ := run_updateServers
    (newWindowsHandler sm rm socksPort httpPort transPort webPort) lists
  unfold WindowsRelayDetector.isForwardedRelay ProxyHandler.isForwardedRelay
  rw [forwardedRelay_eq_iff, detector_hasLocalUpstream_iff, handler_hasLocalUpstream_iff,
    hdetector, hservers]
  rfl

end

/-- A connection from a guest system. -/
def guestConn : Option RemoteAddr := some (.tcp [172, 20, 0, 5])

/-- A start with a relay on this machine, and a list without one. -/
def movedHandler (lists : List (List Str)) : WindowsHandler :=
  run WindowsHandler.updateServers
    (newWindowsHandler (newServerManager ["http://127.0.0.1:7890"] [] 30).sm
      (newRuleManager ["DEFAULT,PROXY"]) 0 8118 0 0) lists

/-- The upstream moves away from this machine. The detector still calls the connection
forwarded, and it goes out directly though the rules send it to the upstream. -/
theorem detector_keeps_the_old_servers :
    let h := movedHandler [["socks5://10.1.1.1:1080"]]
    h.relayDetector.isForwardedRelay guestConn false 0 = true ∧
      h.ph.isForwardedRelay guestConn false 0 = false ∧
      .dialDirect "192.0.2.1:8443" ∈
        (h.ph.forward quietWorld (h.client guestConn curl) "192.0.2.1:8443").events ∧
      .dialDirect "192.0.2.1:8443" ∉
        (h.ph.dialTarget quietWorld "192.0.2.1:8443" [] 0).events := by
  decide +kernel

end vproxy
