-- No upstream is the proxy itself. The guard of the upstream manager reads the host and port
-- of a server on its own, and three callers choose servers each in its own way. The law says
-- for which lists none of them comes to a port of the proxy.
import Vproxy.BlockPolicy

open go go.net go.url go.regexp runs

namespace vproxy

/-! ## The addresses of the proxy -/

/-- The host is this machine. The zone of an address does not count. -/
def LoopbackHost (host : Str) : Prop :=
  host = "localhost" ∨ (parseAddr host).any (fun a => isLoopback a.bytes) = true

/-- The address is one of the ports on this machine. -/
def OwnAddress (ports : List Int) (address : Str) : Prop :=
  ∃ host port n, splitHostPort address = some (host, port) ∧ LoopbackHost host ∧
    atoi port = (n, true) ∧ 0 < n ∧ n ∈ ports

/-- The server is dialled at one of the ports. -/
def IsSelf (ports : List Int) (server : Str) : Prop := OwnAddress ports (dialAddr server).1

/-- The guard reads the server in another way than the dial: it has no host as a URL, it is an
https URL without a port, or its address has a zone. -/
def Unguarded (server : Str) : Prop :=
  match parse server with
  | none => True
  | some u => u.host = [] ∨ (u.scheme = "https" ∧ ':' ∉ u.host) ∨ '%' ∈ u.hostname

/-! ## The guard -/

/-- The test of the guard for a loopback host. -/
theorem guard_host (host : Str) (h : LoopbackHost host) :
    (host = "localhost" ∨ (parseIP host).any isLoopback = true) ↔ '%' ∉ host := by
  constructor
  · rintro (rfl | hip) hzone
    · exact absurd hzone (by decide)
    · rw [parseIP_of_zone hzone] at hip
      cases hip
  · intro hplain
    refine h.imp_right fun haddr => ?_
    obtain ⟨a, ha, hloop⟩ := (Option.any_eq_true _ _).mp haddr
    obtain ⟨ip, hip⟩ : ∃ ip, to16 a.bytes = some ip := by
      unfold to16
      rcases length_parseAddr ha with hlen | hlen <;> simp [hlen]
    rw [parseIP_of_plain hplain ha, hip]
    exact (isLoopback_to16 hip).trans hloop

theorem guard_port {ports : List Int} {n : Int} (hpos : 0 < n) (hmem : n ∈ ports) :
    ports.any (fun sp => decide (0 < sp ∧ sp = n)) = true :=
  List.any_eq_true.mpr ⟨n, hmem, by simp [hpos]⟩

/-- The guard for a URL whose host and port are known. -/
theorem isSelfUpstream_of_parse {ports : List Int} {server : Str} {u : URL} {n : Int}
    (hparse : parse server = some u) (hhost : LoopbackHost u.hostname)
    (hport : (atoi (if u.port = [] then selfDefaultPort u.scheme else u.port)).1 = n)
    (hpos : 0 < n) (hmem : n ∈ ports) :
    isSelfUpstream ports server = true ↔ '%' ∉ u.hostname := by
  have hne : ports ≠ [] := List.ne_nil_of_mem hmem
  rw [← guard_host _ hhost]
  unfold isSelfUpstream
  rw [if_neg hne, hparse]
  dsimp only
  split
  · rename_i hloop
    rw [hport]
    exact iff_of_true (guard_port hpos hmem) hloop
  · rename_i hloop
    exact iff_of_false Bool.false_ne_true hloop

/-- The port that the probe adds is the one that the guard takes, but for https. -/
theorem probeDefaultPort_cases (scheme : Str) :
    probeDefaultPort scheme = [] ∨ ∃ port, probeDefaultPort scheme = ':' :: port ∧
      port.all isDigit ∧ port = if scheme = "https" then ("443" : Str) else selfDefaultPort scheme := by
  unfold probeDefaultPort selfDefaultPort
  split
  · rename_i h
    exact .inr ⟨"80", rfl, by decide, by simp [h]⟩
  split
  · exact .inr ⟨"443", rfl, by decide, by simp⟩
  split
  · exact .inr ⟨"1080", rfl, by decide, by simp⟩
  split
  · exact .inr ⟨"10080", rfl, by decide, by simp⟩
  · exact .inl rfl

theorem isSelfUpstream_no_host {ports : List Int} {server : Str} {u : URL}
    (hparse : parse server = some u) (hhost : u.host = []) :
    isSelfUpstream ports server = false := by
  have hname : u.hostname = [] := by
    unfold URL.hostname
    rw [hhost]
    rfl
  have hnot : ¬ (u.hostname = "localhost" ∨ (parseIP u.hostname).any isLoopback = true) := by
    rw [hname]
    decide
  unfold isSelfUpstream
  rw [hparse]
  dsimp only
  rw [if_neg hnot, ite_self]

theorem isSelfUpstream_no_port {ports : List Int} {server : Str} {u : URL}
    (hparse : parse server = some u)
    (hport : (atoi (if u.port = [] then selfDefaultPort u.scheme else u.port)).1 = 0) :
    isSelfUpstream ports server = false := by
  have hnone : ports.any (fun sp => decide (0 < sp ∧ sp = 0)) = false := by
    rw [List.any_eq_false]
    intro sp _ hsp
    have hboth := of_decide_eq_true hsp
    omega
  unfold isSelfUpstream
  rw [hparse]
  dsimp only
  rw [hport, hnone, ite_self, ite_self]

/-- Among the servers that are dialled at a port of the proxy, the guard misses the unguarded. -/
theorem isSelfUpstream_iff {ports : List Int} {server : Str} (h : IsSelf ports server) :
    isSelfUpstream ports server = true ↔ ¬ Unguarded server := by
  obtain ⟨host, port, n, hsplit, hhost, hport, hpos, hmem⟩ := h
  have hne : port ≠ [] := by
    rintro rfl
    cases hport
  unfold Unguarded
  unfold dialAddr at hsplit
  cases hparse : parse server with
  | none => simp [isSelfUpstream, hparse]
  | some u =>
    rw [hparse] at hsplit
    dsimp only at hsplit ⊢
    split at hsplit
    · rename_i hempty
      rw [isSelfUpstream_no_host hparse hempty]
      simp [hempty]
    rename_i hsome
    split at hsplit
    · -- The host has its port, and the guard splits it as the dial does.
      rename_i hcolon
      obtain hnil | ⟨a, -, ha⟩ := parse_host hparse
      · exact absurd hnil hsome
      have hboth : splitHost u.host = (host, port) := splitHost_eq hsplit (parseHost_port ha hsplit)
      have hname : u.hostname = host := congrArg Prod.fst hboth
      have hport' : u.port = port := congrArg Prod.snd hboth
      rw [isSelfUpstream_of_parse hparse (hname ▸ hhost)
        (by rw [hport', if_neg hne, hport]) hpos hmem]
      simp [hsome, hcolon]
    · -- The probe adds a port, and the guard takes its own.
      rename_i hcolon
      obtain hnone | ⟨default, hdefault, hdigits, hvalue⟩ := probeDefaultPort_cases u.scheme
      · rw [hnone, List.append_nil] at hsplit
        exact absurd (colon_of_splitHostPort hsplit) hcolon
      rw [hdefault] at hsplit
      obtain ⟨hboth, rfl⟩ := splitHost_eq_of_append hcolon hdigits hsplit
      have hname : u.hostname = host := congrArg Prod.fst hboth
      have hport' : u.port = [] := congrArg Prod.snd hboth
      by_cases hscheme : u.scheme = "https"
      · rw [isSelfUpstream_no_port hparse]
        · simp [hscheme, hcolon]
        · rw [hport', if_pos rfl, hscheme]
          rfl
      · rw [if_neg hscheme] at hvalue
        rw [isSelfUpstream_of_parse hparse (hname ▸ hhost)
          (by rw [hport', if_pos rfl, ← hvalue, hport]) hpos hmem]
        simp only [hsome, hscheme, false_and, false_or]

/-! ## Tests -/

/-- The servers that a test dials, in order, up to the first that answers. -/
def probed (selfPorts : List Int) (probe : Str × Str → Bool) : List Str → List Str
  | [] => []
  | addr :: rest =>
    if isSelfUpstream selfPorts addr then probed selfPorts probe rest
    else if probe (dialAddr addr) then [addr]
    else addr :: probed selfPorts probe rest

theorem mem_probed {selfPorts : List Int} {probe : Str × Str → Bool} {servers : List Str} {s : Str}
    (h : s ∈ probed selfPorts probe servers) :
    s ∈ servers ∧ isSelfUpstream selfPorts s = false := by
  induction servers with
  | nil => cases h
  | cons addr rest ih =>
    unfold probed at h
    split at h
    · exact ⟨List.mem_cons_of_mem _ (ih h).1, (ih h).2⟩
    rename_i hself
    split at h
    · obtain rfl := List.mem_singleton.mp h
      exact ⟨List.mem_cons_self, Bool.not_eq_true _ ▸ hself⟩
    · rcases List.mem_cons.mp h with rfl | h
      · exact ⟨List.mem_cons_self, Bool.not_eq_true _ ▸ hself⟩
      · exact ⟨List.mem_cons_of_mem _ (ih h).1, (ih h).2⟩

/-- When none answers, a test dials them all. -/
theorem probed_all {selfPorts : List Int} {servers : List Str} {s : Str} (h : s ∈ servers)
    (hself : isSelfUpstream selfPorts s = false) :
    s ∈ probed selfPorts (fun _ => false) servers := by
  induction servers with
  | nil => cases h
  | cons addr rest ih =>
    unfold probed
    rcases List.mem_cons.mp h with rfl | h
    · simp [hself]
    · split
      · exact ih h
      · simp [ih h]

/-- The action leaves the list as it is. -/
def UpstreamAct.Keeps (servers : List Str) : UpstreamAct → Prop
  | .updateServers servers' => servers' = servers
  | _ => True

/-- The manager can come to this state with the list and the ports fixed. -/
def Reached (servers : List Str) (ports : List Int) (w : Upstreams) : Prop :=
  ∃ interval acts,
    Along upstreamStep (fun _ a => a.Keeps servers) (newServerManager servers ports interval) acts ∧
      w = run upstreamStep (newServerManager servers ports interval) acts

/-- What every test and every published server come from. -/
structure Upstreams.From (servers : List Str) (ports : List Int) (w : Upstreams) : Prop where
  servers_eq : w.sm.servers = servers
  ports_eq : w.sm.selfPorts = ports
  active : w.sm.activeServer = [] ∨
    w.sm.activeServer ∈ servers ∧ isSelfUpstream ports w.sm.activeServer = false
  snapshots : ∀ id snap, ⟨id, .probing snap⟩ ∈ w.runs → snap = servers

theorem from_spawn {servers : List Str} {ports : List Int} {w : Upstreams}
    (h : w.From servers ports) : w.spawn.From servers ports := by
  refine ⟨h.servers_eq, h.ports_eq, h.active, ?_⟩
  intro id snap hrun
  rcases List.mem_cons.mp hrun with heq | hold
  · cases heq
  · exact h.snapshots id snap hold

theorem from_step {servers : List Str} {ports : List Int} {w : Upstreams} {a : UpstreamAct}
    (h : w.From servers ports) (ha : a.Keeps servers) :
    (upstreamStep w a).From servers ports := by
  cases a with
  | updateServers servers' =>
    obtain rfl : servers' = servers := ha
    apply from_spawn
    exact ⟨rfl, h.ports_eq, h.active, h.snapshots⟩
  | reportSuccess addr now =>
    simp only [upstreamStep]
    split
    · exact ⟨h.servers_eq, h.ports_eq, h.active, h.snapshots⟩
    · exact h
  | reportFailure addr =>
    simp only [upstreamStep]
    split
    · apply from_spawn
      exact ⟨h.servers_eq, h.ports_eq, .inl rfl, h.snapshots⟩
    · exact h
  | tick => exact from_spawn h
  | snapshot id now =>
    simp only [upstreamStep]
    split
    · split
      · exact ⟨h.servers_eq, h.ports_eq, h.active,
          fun i snap hrun => h.snapshots i snap (mem_without hrun).1⟩
      · refine ⟨h.servers_eq, h.ports_eq, h.active, ?_⟩
        intro i snap hrun
        rcases List.mem_cons.mp hrun with heq | hold
        · cases heq
          exact h.servers_eq
        · exact h.snapshots i snap (mem_without hold).1
    · exact h
  | publish id probe =>
    simp only [upstreamStep]
    split
    · rename_i i snap hfind
      obtain rfl := h.snapshots _ _ (List.mem_of_find?_eq_some hfind)
      refine ⟨h.servers_eq, h.ports_eq, ?_, fun j snap hrun => h.snapshots j snap (mem_without hrun).1⟩
      rw [← h.ports_eq]
      exact findServer_spec w.sm.selfPorts probe snap
    · exact h

theorem from_reached {servers : List Str} {ports : List Int} {w : Upstreams}
    (h : Reached servers ports w) : w.From servers ports := by
  obtain ⟨interval, acts, hkeeps, rfl⟩ := h
  refine run_invariant (Upstreams.From servers ports) (fun _ _ hw ha => from_step hw ha) ?_ hkeeps
  exact ⟨rfl, rfl, .inl rfl, by simp [newServerManager]⟩

/-! ## Dials -/

/-- The server of attempt `i`, if the attempt dials it. -/
def attemptUpstream (t : Transport) (sm : ServerManager) (w : World) (i : Nat) : Option Str :=
  (if w.best i ≠ [] then some (w.best i) else fallbackServer t sm).filter
    fun s => (parse s).any fun u => supports t u.scheme

theorem attemptServer_eq (t : Transport) (sm : ServerManager) (w : World) (i : Nat) :
    attemptServer t sm w i = (attemptUpstream t sm w i).bind parse := by
  have hchosen : ∀ chosen : Option Str, (chosen.bind fun s => (parse s).bind fun u =>
      if supports t u.scheme then some u else none) =
      (chosen.filter fun s => (parse s).any fun u => supports t u.scheme).bind parse := by
    rintro (_ | s)
    · rfl
    cases hparse : parse s with
    | none => simp [hparse, Option.filter]
    | some u => cases hsupports : supports t u.scheme <;> simp [hparse, hsupports, Option.filter]
  unfold attemptServer attemptUpstream
  split
  · exact hchosen (some (w.best i))
  · exact hchosen (fallbackServer t sm)

/-- The servers that the attempts dial, from attempt `i` with `n` attempts left. -/
def attemptUpstreams (t : Transport) (sm : ServerManager) (w : World) : Nat → Nat → List Str
  | 0, _ => []
  | n + 1, i =>
    match attemptUpstream t sm w i with
    | none => []
    | some s => s :: if w.answers i then [] else attemptUpstreams t sm w n (i + 1)

/-- Where a server is dialled by the attempts. -/
def hostOf (server : Str) : Str := (parse server).elim [] URL.host

theorem dialAttempts_events (t : Transport) (sm : ServerManager) (w : World) (target : Str)
    (n i : Nat) :
    (dialAttempts t sm w target n i).events =
      (attemptUpstreams t sm w n i).map (fun s => .dialUpstream (hostOf s) target) := by
  induction n generalizing i with
  | zero => rfl
  | succ n ih =>
    unfold dialAttempts attemptUpstreams
    rw [attemptServer_eq]
    cases hup : attemptUpstream t sm w i with
    | none => rfl
    | some s =>
      obtain ⟨u, hu⟩ : ∃ u, parse s = some u := by
        have hsome := (Option.filter_eq_some_iff.mp hup).2
        obtain ⟨u, hu, -⟩ := (Option.any_eq_true _ _).mp hsome
        exact ⟨u, hu⟩
      rw [Option.bind_some, hu]
      dsimp only
      rw [List.map_cons, hostOf, hu]
      cases w.answers i with
      | true => rfl
      | false => exact congrArg _ (ih (i + 1))

theorem mem_attemptUpstreams {t : Transport} {sm : ServerManager} {w : World} {n i : Nat} {s : Str}
    (h : s ∈ attemptUpstreams t sm w n i) : ∃ j, attemptUpstream t sm w j = some s := by
  induction n generalizing i with
  | zero => cases h
  | succ n ih =>
    unfold attemptUpstreams at h
    split at h
    · cases h
    · rename_i s' hup
      rcases List.mem_cons.mp h with rfl | h
      · exact ⟨i, hup⟩
      · split at h
        · cases h
        · exact ih h

def IsSocks5 (server : Str) : Prop := ∃ u, parse server = some u ∧ u.scheme = "socks5"

theorem supports_udp {server : Str} :
    (parse server).any (fun u => supports .udp u.scheme) = true ↔ IsSocks5 server := by
  unfold IsSocks5
  rw [Option.any_eq_true]
  simp only [supports, decide_eq_true_eq]

section

variable [Regexp] [Unicode]

/-- The servers that a dial tries. -/
def ProxyHandler.upstreams (ph : ProxyHandler) (w : World) (t : Transport) (target process : Str)
    (pid : Int) : List Str :=
  if ph.isLocalRelay w.byPort process pid then []
  else
    match (ph.rm.matchContext (dialContext target process pid)).1 with
    | .direct | .block => []
    | _ => attemptUpstreams t ph.sm w ph.retryCount 0

/-- These are the dials of an upstream among the events of a dial. -/
theorem upstream_dials (ph : ProxyHandler) (w : World) (t : Transport) (target process : Str)
    (pid : Int) :
    (ph.dial w t target process pid).events.filter (fun e => e matches .dialUpstream _ _) =
      (ph.upstreams w t target process pid).map (fun s => .dialUpstream (hostOf s) target) := by
  unfold ProxyHandler.dial ProxyHandler.upstreams
  split
  · cases t <;> rfl
  · dsimp only
    rw [List.filter_cons_of_neg Bool.false_ne_true]
    unfold ProxyHandler.dialAction
    cases (ph.rm.matchContext (dialContext target process pid)).1 with
    | direct => cases t <;> rfl
    | block => rfl
    | proxy | intercept | map =>
      dsimp only
      rw [dialAttempts_events, List.filter_eq_self]
      intro e he
      obtain ⟨s, -, rfl⟩ := List.mem_map.mp he
      rfl

/-- The servers that the proxy uses, with the list and the ports fixed. -/
inductive Uses (servers : List Str) (ports : List Int) : Str → Prop
  | probed {w : Upstreams} {id : Nat} {snap : List Str} {probe : Str × Str → Bool} {s : Str} :
      Reached servers ports w → ⟨id, .probing snap⟩ ∈ w.runs → s ∈ probed ports probe snap →
        Uses servers ports s
  | published {w : Upstreams} :
      Reached servers ports w → w.sm.activeServer ≠ [] → Uses servers ports w.sm.activeServer
  | dialled {ph : ProxyHandler} {w : World} {t : Transport} {target process : Str} {pid : Int}
      {s : Str} :
      ph.sm.servers = servers → ph.sm.selfPorts = ports →
        (∀ i, ∃ m, Reached servers ports m ∧ w.best i = m.sm.activeServer) →
          s ∈ ph.upstreams w t target process pid → Uses servers ports s

/-- Every server that is used passed the guard, but for the first of the list, which UDP takes
as it is. -/
theorem uses_cases {servers : List Str} {ports : List Int} {s : Str} (h : Uses servers ports s) :
    (s ∈ servers ∧ isSelfUpstream ports s = false) ∨
      (servers.head? = some s ∧ IsSocks5 s) := by
  cases h with
  | probed hw hrun hs =>
    obtain rfl := (from_reached hw).snapshots _ _ hrun
    exact .inl (mem_probed hs)
  | published hw hne => exact .inl ((from_reached hw).active.resolve_left hne)
  | @dialled ph w t target process pid _ hservers hports hbest hs =>
    obtain ⟨j, hup⟩ : ∃ j, attemptUpstream t ph.sm w j = some s := by
      unfold ProxyHandler.upstreams at hs
      split at hs
      · cases hs
      split at hs
      · cases hs
      · cases hs
      · exact mem_attemptUpstreams hs
    obtain ⟨hchoice, hsupports⟩ := Option.filter_eq_some_iff.mp hup
    split at hchoice
    · rename_i hne
      obtain ⟨m, hm, hactive⟩ := hbest j
      obtain rfl := Option.some.inj hchoice
      left
      rw [hactive] at hne ⊢
      exact (from_reached hm).active.resolve_left hne
    · subst hservers hports
      cases t with
      | tcp =>
        obtain ⟨hfind, -⟩ := Option.filter_eq_some_iff.mp hchoice
        exact .inl ⟨List.mem_of_find?_eq_some hfind, by simpa using List.find?_some hfind⟩
      | udp => exact .inr ⟨hchoice, supports_udp.mp hsupports⟩

/-- No server that the guard misses is a port of the proxy, and neither is the first server when
it is a socks5 server. -/
def NoneIsSelf (servers : List Str) (ports : List Int) : Prop :=
  (∀ s ∈ servers, Unguarded s → ¬ IsSelf ports s) ∧
    ∀ s, servers.head? = some s → IsSocks5 s → ¬ IsSelf ports s

theorem uses_unguarded {servers : List Str} {ports : List Int} {s : Str} (h : s ∈ servers)
    (hself : isSelfUpstream ports s = false) : Uses servers ports s := by
  have hne : servers ≠ [] := List.ne_nil_of_mem h
  have hrun : (⟨0, .probing servers⟩ : TestRun) ∈
      (run upstreamStep (newServerManager servers ports 0) [.tick, .snapshot 0 0]).runs := by
    simp [upstreamStep, newServerManager, Upstreams.spawn, ServerManager.earlyExit, hne]
  refine .probed ⟨0, [.tick, .snapshot 0 0], ?_, rfl⟩ hrun (probed_all h hself)
  exact ⟨trivial, trivial, trivial⟩

/-- A handler with this list whose rules send everything to the upstreams. -/
def bareHandler (servers : List Str) (ports : List Int) : ProxyHandler :=
  newProxyHandler (newServerManager servers ports 0).sm ⟨[], [], .proxy, true⟩ 0 0 0 0

theorem uses_head {servers : List Str} {ports : List Int} {s : Str} (h : servers.head? = some s)
    (hsocks : IsSocks5 s) : Uses servers ports s := by
  have hattempt : attemptUpstream .udp (bareHandler servers ports).sm quietWorld 0 = some s := by
    rw [attemptUpstream, if_neg (by simp [quietWorld]), Option.filter_eq_some_iff]
    exact ⟨h, supports_udp.mpr hsocks⟩
  have hdials : (bareHandler servers ports).upstreams quietWorld .udp [] [] 0 = [s] := by
    have hrelay : (bareHandler servers ports).isLocalRelay quietWorld.byPort [] 0 = false := rfl
    have hproxy : ((bareHandler servers ports).rm.matchContext (dialContext [] [] 0)).1 = .proxy :=
      rfl
    have hcount : (bareHandler servers ports).retryCount = 2 + 1 := rfl
    unfold ProxyHandler.upstreams
    rw [hrelay, hproxy, hcount]
    simp only [Bool.false_eq_true, if_false, attemptUpstreams, hattempt]
    rfl
  have hmem : s ∈ (bareHandler servers ports).upstreams quietWorld .udp [] [] 0 := by
    rw [hdials]
    exact List.mem_singleton_self s
  refine .dialled rfl rfl ?_ hmem
  intro i
  exact ⟨newServerManager servers ports 0, ⟨0, [], trivial, rfl⟩, rfl⟩

/-- No server that the proxy tests, publishes or dials is the proxy itself, exactly for these
lists. -/
theorem no_upstream_is_the_proxy (servers : List Str) (ports : List Int) :
    (∀ s, Uses servers ports s → ¬ IsSelf ports s) ↔ NoneIsSelf servers ports := by
  constructor
  · intro hall
    constructor
    · intro s hs hmissed hself
      have hpass : isSelfUpstream ports s = false := by
        rw [← Bool.not_eq_true, isSelfUpstream_iff hself]
        exact not_not.mpr hmissed
      exact hall s (uses_unguarded hs hpass) hself
    · intro s hs hsocks
      exact hall s (uses_head hs hsocks)
  · rintro ⟨hmissed, hhead⟩ s huses hself
    rcases uses_cases huses with ⟨hs, hpass⟩ | ⟨hs, hsocks⟩
    · rw [← Bool.not_eq_true, isSelfUpstream_iff hself, not_not] at hpass
      exact hmissed s hs hpass hself
    · exact hhead s hs hsocks hself

end

/-- With its own socks port as the only upstream, the proxy dials itself for UDP; and it tests and
publishes its own http port when the upstream is written without a scheme. -/
theorem proxy_is_its_own_upstream :
    ((bareHandler ["socks5://127.0.0.1:1080"] [1080]).dialTargetUDP quietWorld
        "93.184.216.34:443" [] 0).events =
      [.matched ⟨"93.184.216.34", 443, [], 0, []⟩,
        .dialUpstream "127.0.0.1:1080" "93.184.216.34:443"] ∧
      (run upstreamStep (newServerManager ["127.0.0.1:8118"] [8118] 30)
        [.tick, .snapshot 0 0, .publish 0 (fun _ => true)]).sm.activeServer =
          ("127.0.0.1:8118" : Str) := by
  constructor <;> decide +kernel

end vproxy
