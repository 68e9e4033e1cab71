-- The six paths by which a request comes in: SOCKS, HTTP CONNECT, plain HTTP, transparent
-- TCP, transparent UDP and TUN UDP (serveSocks, serveHTTP, forward, serveTransparentUDP,
-- handleUDP). Each gives the target it has in hand at the end and its events.
import Vproxy.Dial
import Vproxy.MitmLoop
import Vproxy.AddrText

open go go.net go.url go.regexp

namespace vproxy

/-- The client of a request, and what happens on its connection. -/
structure Client where
  /-- What the process inspector reports for the socket of the client. -/
  process : Str
  pid : Int
  localAddr : Str
  /-- The connection comes from the TUN stack. -/
  isTUN : Bool
  /-- The name that `sniffSNI` finds; `none` is an error. -/
  sni : Option Str
  /-- The certificate is made, and the answer to CONNECT is written. -/
  cert : Bool
  established : Bool
  /-- `IsForwardedRelay`, for a fake address or not and a pid. -/
  relay : Bool → Int → Bool
  /-- The URIs of the requests inside an intercepted connection. -/
  inner : List Str

structure Outcome where
  host : Str
  port : Str
  events : List Event

/-- The domain of a fake address in place of the address, and whether it was one. -/
def restore (pool : Option dns.FakeIPPool) (target : Str) : Str × Bool :=
  match pool, splitHostPort target with
  | some pool, some (host, port) =>
    match parseIP host with
    | some ip =>
      if pool.isFakeIP ip && pool.getDomain ip ≠ [] then
        (joinHostPort (pool.getDomain ip) port, true)
      else (target, false)
    | none => (target, false)
  | _, _ => (target, false)

/-- The target of `forward` after the fake address and the SNI, and whether the connection was
wrapped in a `PeekingConn` to look for the SNI. -/
structure Resolved where
  target : Str
  host : Str
  port : Str
  isFakeIP : Bool
  peeking : Bool

def resolve (w : World) (c : Client) (target : Str) : Resolved :=
  let (target, isFakeIP) := restore w.pool target
  let (host, port) := hostPort target
  let peeking := (parseIP host).isSome && port = "443"
  let sniffed := if peeking then c.sni.getD [] else []
  if sniffed ≠ [] then ⟨joinHostPort sniffed port, sniffed, port, isFakeIP, peeking⟩
  else ⟨target, host, port, isFakeIP, peeking⟩

/-- `IsTUNConn` is a test of the type, and a wrapped connection has another type. -/
def isTUNConn (c : Client) (r : Resolved) : Bool := c.isTUN && !r.peeking

/-- The connection goes back to the listener it came from. -/
def isLoop (c : Client) (r : Resolved) : Bool := r.target = c.localAddr && !isTUNConn c r

section

variable [Regexp] [Unicode]

/-- The process and the pid that a path works with. -/
def ProxyHandler.metadata (ph : ProxyHandler) (c : Client) : Str × Int :=
  if ph.needsProcessMetadata then (c.process, c.pid) else ([], 0)

/-- The context of the checks that leave the port out. -/
def ProxyHandler.gateContext (ph : ProxyHandler) (c : Client) (host : Str) : MatchContext :=
  ⟨host, 0, (ph.metadata c).1, (ph.metadata c).2, []⟩

def ProxyHandler.gate (ph : ProxyHandler) (c : Client) (host : Str) : RuleAction :=
  (ph.rm.matchContext (ph.gateContext c host)).1

def ProxyHandler.isRewriteHost (ph : ProxyHandler) (host : Str) : Bool :=
  ph.rewriteEngine.any fun re => isInterceptHost re host

/-- The connection to this host is intercepted. -/
def ProxyHandler.intercepts (ph : ProxyHandler) (c : Client) (host : Str) : Bool :=
  ph.gate c host = .intercept || ph.gate c host = .map || ph.isRewriteHost host

/-! ## Rewritten requests -/

/-- The dial of `forwardRewriteRequest`. -/
def rewriteEvents (w : World) (targetURL : Str) : List Event :=
  if (parse targetURL).isSome && w.sends targetURL then [.dialRewrite targetURL] else []

/-- The dials of the loop over the requests of an intercepted connection. -/
def ProxyHandler.mitmEvents (ph : ProxyHandler) (w : World) (host : Str) (server : Bool) :
    List Str → List Event
  | [] => []
  | uri :: rest =>
    match ph.branch host server uri with
    | .rewrite targetURL => rewriteEvents w targetURL ++ ph.mitmEvents w host server rest
    | .badGateway => []
    | _ => ph.mitmEvents w host server rest

theorem mem_mitmEvents {ph : ProxyHandler} {w : World} {host : Str} {server : Bool}
    {uris : List Str} {e : Event} (h : e ∈ ph.mitmEvents w host server uris) :
    ∃ targetURL, e = .dialRewrite targetURL := by
  induction uris with
  | nil => cases h
  | cons uri rest ih =>
    unfold ProxyHandler.mitmEvents at h
    split at h
    · obtain h | h := List.mem_append.mp h
      · unfold rewriteEvents at h
        split at h
        · exact ⟨_, List.mem_singleton.mp h⟩
        · cases h
      · exact ih h
    · cases h
    · exact ih h

/-! ## The paths -/

def ProxyHandler.serveSocks (ph : ProxyHandler) (w : World) (target : Str) : Outcome :=
  let (host, port) := hostPort target
  ⟨host, port, (ph.dialTarget w target [] 0).events⟩

/-- The end of `forward`, when the connection is neither a loop nor blocked. -/
def ProxyHandler.forwardEvents (ph : ProxyHandler) (w : World) (c : Client) (r : Resolved) :
    List Event :=
  let (process, pid) := ph.metadata c
  if r.port = "443" && ph.intercepts c r.host && c.cert then
    let d := ph.dialTargetTLS w r.target process pid
    d.events ++ ph.mitmEvents w r.host d.conn c.inner
  else if r.port = "80" && ph.intercepts c r.host then
    let d := ph.dialTarget w r.target process pid
    d.events ++ ph.mitmEvents w r.host d.conn c.inner
  else if c.relay r.isFakeIP pid then (dialDirect w .tcp r.target).events
  else (ph.dialTarget w r.target process pid).events

def ProxyHandler.forward (ph : ProxyHandler) (w : World) (c : Client) (target : Str) : Outcome :=
  let r := resolve w c target
  if isLoop c r then ⟨r.host, r.port, []⟩
  else
    ⟨r.host, r.port, .matched (ph.gateContext c r.host) ::
      if ph.gate c r.host = .block then [.refused] else ph.forwardEvents w c r⟩

/-- The host of a request without its port. -/
def hostOnly (reqHost : Str) : Str := ((splitHostPort reqHost).map Prod.fst).getD reqHost

def ProxyHandler.serveConnect (ph : ProxyHandler) (w : World) (c : Client) (reqHost : Str) :
    Outcome :=
  let (process, pid) := ph.metadata c
  let (host, port) := hostPort reqHost
  let matched := .matched (ph.gateContext c (hostOnly reqHost))
  if ph.gate c (hostOnly reqHost) = .block then ⟨host, port, [matched, .refused]⟩
  else if ph.intercepts c (hostOnly reqHost) then
    let d := if ph.isRewriteHost (hostOnly reqHost) then ⟨[], false⟩
      else ph.dialTargetTLS w reqHost process pid
    let inner := if c.established && c.cert then ph.mitmEvents w reqHost d.conn c.inner else []
    ⟨host, port, matched :: d.events ++ inner⟩
  else if c.established then
    let out := ph.forward w c reqHost
    { out with events := matched :: out.events }
  else ⟨host, port, [matched]⟩

/-- The target that a plain request is forwarded to. -/
def plainTarget (reqHost : Str) : Str :=
  if ':' ∈ reqHost then reqHost else joinHostPort reqHost "80"

/-- The URL of a plain request, from the text of its URL and its request URI. -/
def plainURL (reqHost url requestURI : Str) : Str :=
  if contains url "://" then url else "http://" ++ reqHost ++ requestURI

/-- A plain request that no rewrite takes. -/
def ProxyHandler.servePlainByRules (ph : ProxyHandler) (w : World) (c : Client) (reqHost : Str) :
    List Event :=
  let (process, pid) := ph.metadata c
  .matched (ph.gateContext c (hostOnly reqHost)) ::
    if ph.gate c (hostOnly reqHost) = .block then [.refused]
    else (ph.dialTarget w (plainTarget reqHost) process pid).events

def ProxyHandler.servePlain (ph : ProxyHandler) (w : World) (c : Client)
    (reqHost url requestURI : Str) : Outcome :=
  let (host, port) := hostPort (plainTarget reqHost)
  match ph.matchRewrite (plainURL reqHost url requestURI) (hostOnly reqHost) with
  | none => ⟨host, port, ph.servePlainByRules w c reqHost⟩
  | some res =>
    match res.action with
    | .mock => ⟨host, port, []⟩
    | .proxy =>
      if res.targetURL ≠ [] then ⟨host, port, rewriteEvents w res.targetURL⟩
      else ⟨host, port, ph.servePlainByRules w c reqHost⟩

/-- A datagram whose destination is resolved and is not the proxy itself. A DNS query that is
answered and a session that is there need no dial. -/
def ProxyHandler.serveTransparentUDP (ph : ProxyHandler) (w : World) (c : Client)
    (dst : SocketAddr) (hijacked session : Bool) : Outcome :=
  let (process, pid) := ph.metadata c
  let target := joinHostPort (ipString dst.ip) (itoa dst.port.toNat)
  let (host, port) := hostPort target
  if dst.port = 53 && hijacked then ⟨host, port, []⟩
  else if session then ⟨host, port, []⟩
  else ⟨host, port, (ph.dialTargetUDP w target process pid).events⟩

def ProxyHandler.handleUDP (ph : ProxyHandler) (w : World) (c : Client) (target : Str) : Outcome :=
  let (process, pid) := ph.metadata c
  let (target, isFakeIP) := restore w.pool target
  let (host, port) := hostPort target
  if c.relay isFakeIP pid then ⟨host, port, (dialDirect w .udp target).events⟩
  else ⟨host, port, (ph.dialTargetUDP w target process pid).events⟩

end

/-! ## Targets -/

/-- A host without brackets and a port split again. -/
theorem hostPort_joinHostPort {host port : Str} (hhost : Plain host) (hport : Plain port)
    (hcolon : ':' ∉ port) : hostPort (joinHostPort host port) = (host, port) := by
  rw [hostPort, splitHostPort_joinHostPort hhost hport hcolon]
  rfl

/-- The resolved target splits into the resolved host and port. -/
theorem hostPort_resolve (w : World) {c : Client}
    (hsni : ∀ name, c.sni = some name → Plain name) (target : Str) :
    hostPort (resolve w c target).target =
      ((resolve w c target).host, (resolve w c target).port) := by
  unfold resolve
  dsimp only
  split
  · rename_i hip
    simp only [Bool.and_eq_true, decide_eq_true_eq] at hip
    cases hname : c.sni with
    | none => rfl
    | some name =>
      by_cases hempty : name = []
      · simp [hempty]
      · rw [Option.getD_some, if_pos hempty, hip.2]
        exact hostPort_joinHostPort (hsni name hname) (by decide) (by decide)
  · rfl

theorem colon_mem_of_splitHostPort {s : Str} (h : (splitHostPort s).isSome) : ':' ∈ s := by
  by_contra hcolon
  simp [splitHostPort, lastIndex, hcolon] at h

theorem hostOnly_eq {reqHost : Str} (h : (splitHostPort reqHost).isSome) :
    hostOnly reqHost = (hostPort reqHost).1 := by
  obtain ⟨hp, heq⟩ := Option.isSome_iff_exists.mp h
  simp [hostOnly, hostPort, heq]

/-- The host of a plain request is the host of its target. -/
theorem hostOnly_plainTarget {reqHost : Str}
    (h : (splitHostPort reqHost).isSome ∨ ':' ∉ reqHost ∧ Plain reqHost) :
    hostOnly reqHost = (hostPort (plainTarget reqHost)).1 := by
  unfold plainTarget
  obtain h | ⟨hcolon, hplain⟩ := h
  · rw [if_pos (colon_mem_of_splitHostPort h), hostOnly_eq h]
  · have hnone : splitHostPort reqHost = none := by simp [splitHostPort, lastIndex, hcolon]
    rw [if_neg hcolon, hostPort_joinHostPort hplain (by decide) (by decide), hostOnly, hnone]
    rfl

end vproxy
