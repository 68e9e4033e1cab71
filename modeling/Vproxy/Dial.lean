-- Dialling (dialTarget, dialTargetUDP, dialDirect). A dial matches its target against the
-- rules and then goes out directly, is refused, or tries the upstreams. What it does is
-- written down as a list of events.
import Vproxy.Handler
import Vproxy.FakeIp

open go go.net go.url go.regexp

namespace vproxy

/-! ## Events -/

/-- What a path does for a request that can be seen from outside, and each match. -/
inductive Event where
  | matched (ctx : MatchContext)
  | dialDirect (target : Str)
  | dialUpstream (server target : Str)
  | dialRewrite (targetURL : Str)
  | refused
  deriving DecidableEq

def Event.isDial : Event → Bool
  | .dialDirect _ => true
  | .dialUpstream _ _ => true
  | .dialRewrite _ => true
  | _ => false

/-- The pool of fake addresses, and what the network and the system answer. -/
structure World where
  pool : Option dns.FakeIPPool
  /-- `tproxy.GetProcessNameByPort`: the process that listens on a port. -/
  byPort : Int → Option (Str × Int)
  /-- The address that the resolver of `dialDirect` finds for a name. -/
  lookup : Str → Option Str
  /-- `GetBestServer` in each attempt, and whether the dial of the attempt succeeds. -/
  best : Nat → Str
  answers : Nat → Bool
  direct : Bool
  tls : Bool
  /-- A rewritten request is sent to its target. -/
  sends : Str → Bool

inductive Transport where
  | tcp
  | udp
  deriving DecidableEq

/-- The events of a dial, and whether it gives a connection. -/
structure Dialed where
  events : List Event
  conn : Bool

/-- `net.SplitHostPort` with the error ignored. -/
def hostPort (target : Str) : Str × Str := (splitHostPort target).getD ([], [])

/-! ## Local upstreams -/

def isLoopbackUpstream (host : Str) : Bool :=
  host = "localhost" || (parseIP host).any isLoopback

/-- `filepath.Base`. -/
def base (path : Str) : Str :=
  let stripped := (path.reverse.dropWhile (· == '/')).reverse
  if path = [] then "."
  else if stripped = [] then "/"
  else (stripped.reverse.takeWhile (· ≠ '/')).reverse

section

variable [Regexp] [Unicode]

def ProxyHandler.hasLocalUpstream (ph : ProxyHandler) : Bool :=
  ph.sm.servers.any fun server => (parse server).any fun u => isLoopbackUpstream u.hostname

/-- The process that listens on the port of a local upstream is the process of the client. -/
def sameProcess (relay : Str × Int) (process : Str) (pid : Int) : Bool :=
  (0 < relay.2 && pid = relay.2) ||
    (relay.1 ≠ [] && process ≠ [] &&
      (relay.1 = process || equalFold (base relay.1) (base process)))

def ProxyHandler.isLocalRelay (ph : ProxyHandler) (byPort : Int → Option (Str × Int))
    (process : Str) (pid : Int) : Bool :=
  0 < pid && ph.sm.servers.any fun server => (parse server).any fun u =>
    isLoopbackUpstream u.hostname && u.port ≠ [] && (atoi u.port).2 &&
      (byPort (atoi u.port).1).any fun relay => sameProcess relay process pid

def ProxyHandler.needsProcessMetadata (ph : ProxyHandler) : Bool :=
  ph.rm.hasProcessMetadataRules || ph.hasLocalUpstream

end

/-! ## Direct dials -/

/-- The target that `dialDirect` dials: a name is looked up first, and so is the domain of a
fake address. -/
def directTarget (w : World) (target : Str) : Str :=
  match splitHostPort target with
  | none => target
  | some (host, port) =>
    let domain :=
      match parseIP host, w.pool with
      | some ip, some pool => if pool.isFakeIP ip then pool.getDomain ip else []
      | some _, none => []
      | none, _ => host
    if domain ≠ [] then joinHostPort ((w.lookup domain).getD domain) port else target

/-- A direct dial. The attempts of `dialDirect` all go to the same target and are one event. -/
def dialDirect (w : World) : Transport → Str → Dialed
  | .tcp, target => ⟨[.dialDirect (directTarget w target)], w.direct⟩
  | .udp, target => ⟨[.dialDirect target], w.direct⟩

/-! ## Upstreams -/

/-- The upstream when no server is active. Only the TCP path passes over the proxy itself. -/
def fallbackServer : Transport → ServerManager → Option Str
  | .tcp, sm =>
    (sm.servers.find? fun s => !isSelfUpstream sm.selfPorts s).filter fun s => decide (s ≠ [])
  | .udp, sm => sm.servers.head?

def supports : Transport → Str → Bool
  | .tcp, scheme => scheme = "socks5" || scheme = "http"
  | .udp, scheme => scheme = "socks5"

/-- The upstream that attempt `i` dials, if it comes to that. -/
def attemptServer (t : Transport) (sm : ServerManager) (w : World) (i : Nat) : Option URL := do
  let upstreamURL ← if w.best i ≠ [] then some (w.best i) else fallbackServer t sm
  let u ← parse upstreamURL
  if supports t u.scheme then some u else none

/-- The loop over the attempts, from attempt `i` with `n` attempts left. -/
def dialAttempts (t : Transport) (sm : ServerManager) (w : World) (target : Str) :
    Nat → Nat → Dialed
  | 0, _ => ⟨[], false⟩
  | n + 1, i =>
    match attemptServer t sm w i with
    | none => ⟨[], false⟩
    | some u =>
      let rest := if w.answers i then ⟨[], true⟩ else dialAttempts t sm w target n (i + 1)
      ⟨.dialUpstream u.host target :: rest.events, rest.conn⟩

/-- The attempts all dial an upstream for the target. -/
theorem mem_dialAttempts {t : Transport} {sm : ServerManager} {w : World} {target : Str} {e : Event}
    {n i : Nat} (h : e ∈ (dialAttempts t sm w target n i).events) :
    ∃ server, e = .dialUpstream server target := by
  induction n generalizing i with
  | zero => simp [dialAttempts] at h
  | succ n ih =>
    unfold dialAttempts at h
    split at h
    · cases h
    · rename_i u hu
      obtain rfl | h := List.mem_cons.mp h
      · exact ⟨u.host, rfl⟩
      · split at h
        · cases h
        · exact ih h

section

variable [Regexp] [Unicode]

def ProxyHandler.retryCount (ph : ProxyHandler) : Nat :=
  if ph.dialRetryCount ≤ 0 then 3 else ph.dialRetryCount.toNat

/-- The context of a dial. -/
def dialContext (target process : Str) (pid : Int) : MatchContext :=
  ⟨(hostPort target).1, (atoi (hostPort target).2).1, process, pid, []⟩

/-- What a dial does for the action of its match. -/
def ProxyHandler.dialAction (ph : ProxyHandler) (w : World) (t : Transport) (target : Str) :
    RuleAction → Dialed
  | .direct => dialDirect w t target
  | .block => ⟨[.refused], false⟩
  | _ => dialAttempts t ph.sm w target ph.retryCount 0

def ProxyHandler.dial (ph : ProxyHandler) (w : World) (t : Transport) (target process : Str)
    (pid : Int) : Dialed :=
  if ph.isLocalRelay w.byPort process pid then dialDirect w t target
  else
    let ctx := dialContext target process pid
    let d := ph.dialAction w t target (ph.rm.matchContext ctx).1
    ⟨.matched ctx :: d.events, d.conn⟩

def ProxyHandler.dialTarget (ph : ProxyHandler) (w : World) (target process : Str) (pid : Int) :
    Dialed :=
  ph.dial w .tcp target process pid

def ProxyHandler.dialTargetUDP (ph : ProxyHandler) (w : World) (target process : Str)
    (pid : Int) : Dialed :=
  ph.dial w .udp target process pid

def ProxyHandler.dialTargetTLS (ph : ProxyHandler) (w : World) (target process : Str)
    (pid : Int) : Dialed :=
  let target := if ':' ∈ target then target else joinHostPort target "443"
  let d := ph.dialTarget w target process pid
  ⟨d.events, d.conn && w.tls⟩

theorem dialTargetTLS_events {ph : ProxyHandler} {w : World} {target process : Str} {pid : Int}
    (hcolon : ':' ∈ target) :
    (ph.dialTargetTLS w target process pid).events =
      (ph.dialTarget w target process pid).events := by
  unfold ProxyHandler.dialTargetTLS
  rw [if_pos hcolon]

end

end vproxy
