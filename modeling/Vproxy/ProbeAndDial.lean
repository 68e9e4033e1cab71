-- The probe and the dial of an upstream. The test of a server and the dial through it each make
-- an address of the configured text. The law says for which texts a server that a test may
-- publish is one that the dial can use, at the same address.
import Vproxy.SelfUpstream

open go go.net go.url go.regexp runs

namespace vproxy

/-! ## What a test may publish -/

/-- A TCP dial needs an address with a host and a port. -/
def Dialable (address : Str) : Prop := (splitHostPort address).isSome

instance (address : Str) : Decidable (Dialable address) := inferInstanceAs (Decidable (_ = true))

/-- The outcomes of the probes that the network can give. -/
def UpstreamAct.Possible : UpstreamAct → Prop
  | .publish _ probe => ∀ d, probe d = true → Dialable d.1
  | _ => True

/-- Some tests of some list make this server the active one. -/
def MayBeActive (ports : List Int) (s : Str) : Prop :=
  s ≠ [] ∧ ∃ servers interval acts,
    Along upstreamStep (fun _ a => a.Possible) (newServerManager servers ports interval) acts ∧
      (run upstreamStep (newServerManager servers ports interval) acts).sm.activeServer = s

/-- The guard lets the server through, and its address can be dialled. -/
def Probeable (ports : List Int) (s : Str) : Prop :=
  isSelfUpstream ports s = false ∧ Dialable (dialAddr s).1

theorem probeable_findServer {ports : List Int} {probe : Str × Str → Bool} {servers : List Str}
    (hprobe : ∀ d, probe d = true → Dialable d.1) :
    findServer ports probe servers = [] ∨ Probeable ports (findServer ports probe servers) := by
  unfold findServer
  cases h : servers.find? (fun addr => !isSelfUpstream ports addr && probe (dialAddr addr)) with
  | none => exact .inl rfl
  | some a =>
    have ha := List.find?_some h
    simp only [Bool.and_eq_true, Bool.not_eq_true'] at ha
    exact .inr ⟨ha.1, hprobe _ ha.2⟩

/-- The active server has passed a probe. -/
structure Upstreams.Probed (ports : List Int) (w : Upstreams) : Prop where
  ports_eq : w.sm.selfPorts = ports
  active : w.sm.activeServer = [] ∨ Probeable ports w.sm.activeServer

theorem probed_step {ports : List Int} {w : Upstreams} {a : UpstreamAct} (h : w.Probed ports)
    (ha : a.Possible) : (upstreamStep w a).Probed ports := by
  cases a with
  | updateServers servers => exact ⟨h.ports_eq, h.active⟩
  | reportSuccess addr now =>
    simp only [upstreamStep]
    split
    · exact ⟨h.ports_eq, h.active⟩
    · exact h
  | reportFailure addr =>
    simp only [upstreamStep]
    split
    · exact ⟨h.ports_eq, .inl rfl⟩
    · exact h
  | tick => exact ⟨h.ports_eq, h.active⟩
  | snapshot id now =>
    simp only [upstreamStep]
    split
    · split
      · exact ⟨h.ports_eq, h.active⟩
      · exact ⟨h.ports_eq, h.active⟩
    · exact h
  | publish id probe =>
    simp only [upstreamStep]
    split
    · refine ⟨h.ports_eq, ?_⟩
      rw [← h.ports_eq]
      exact probeable_findServer ha
    · exact h

theorem mayBeActive_iff (ports : List Int) (s : Str) : MayBeActive ports s ↔ Probeable ports s := by
  constructor
  · rintro ⟨hne, servers, interval, acts, hpossible, rfl⟩
    have hprobed := run_invariant (Upstreams.Probed ports) (fun _ _ hw ha => probed_step hw ha)
      ⟨rfl, .inl rfl⟩ hpossible
    exact hprobed.active.resolve_left hne
  · rintro ⟨hself, hdial⟩
    have hne : s ≠ [] := by
      rintro rfl
      exact absurd hdial (by decide)
    -- A list with this server only, which is tested once and answers.
    refine ⟨hne, [s], 0, [.tick, .snapshot 0 0, .publish 0 fun d => (splitHostPort d.1).isSome], ?_, ?_⟩
    · exact ⟨trivial, trivial, fun d hd => hd, trivial⟩
    · have hfind : findServer ports (fun d => (splitHostPort d.1).isSome) [s] = s := by
        have hprobe : (splitHostPort (dialAddr s).1).isSome = true := hdial
        simp [findServer, hself, hprobe]
      simpa [upstreamStep, newServerManager, Upstreams.spawn, ServerManager.earlyExit,
        Upstreams.without] using hfind

/-! ## What the dial makes of it -/

section

variable [Regexp] [Unicode]

/-- While the server is active, a dial that goes through the upstreams goes to the address that
the test has probed. -/
def DialsAsProbed (s : Str) : Prop :=
  ∀ (ph : ProxyHandler) (w : World) (target process : Str) (pid : Int), (∀ i, w.best i = s) →
    ph.isLocalRelay w.byPort process pid = false →
    (ph.rm.matchContext (dialContext target process pid)).1 ∉ [RuleAction.direct, .block] →
      ∃ dials, (ph.dialTarget w target process pid).events =
          .matched (dialContext target process pid) :: dials ∧
        dials ≠ [] ∧ ∀ e ∈ dials, e = .dialUpstream (dialAddr s).1 target

/-- The dial takes the text for a URL with a host, a port and a scheme that it supports. -/
def Usable (s : Str) : Prop :=
  ∃ u, parse s = some u ∧ ':' ∈ u.host ∧ supports .tcp u.scheme = true

/-- A dial that goes through the upstreams consists of its attempts. -/
theorem dialTarget_proxied {ph : ProxyHandler} {w : World} {target process : Str} {pid : Int}
    (hrelay : ph.isLocalRelay w.byPort process pid = false)
    (haction : (ph.rm.matchContext (dialContext target process pid)).1 ∉
      [RuleAction.direct, .block]) :
    ph.dialTarget w target process pid =
      ⟨.matched (dialContext target process pid) ::
        (dialAttempts .tcp ph.sm w target ph.retryCount 0).events,
        (dialAttempts .tcp ph.sm w target ph.retryCount 0).conn⟩ := by
  unfold ProxyHandler.dialTarget ProxyHandler.dial
  rw [if_neg (by rw [hrelay]; exact Bool.false_ne_true)]
  dsimp only
  unfold ProxyHandler.dialAction
  cases haction' : (ph.rm.matchContext (dialContext target process pid)).1 with
  | direct => simp [haction'] at haction
  | block => simp [haction'] at haction
  | proxy | intercept | map => rfl

omit [Regexp] [Unicode] in
theorem attemptServer_active (sm : ServerManager) {w : World} {s : Str} {i : Nat} (hne : s ≠ [])
    (hbest : w.best i = s) :
    attemptServer .tcp sm w i =
      (parse s).bind fun u => if supports .tcp u.scheme then some u else none := by
  unfold attemptServer
  rw [hbest, if_pos hne]
  rfl

omit [Regexp] [Unicode] in
/-- The attempts of one server all go to its host. -/
theorem dialAttempts_one {t : Transport} {sm : ServerManager} {w : World} {u : URL}
    (h : ∀ i, attemptServer t sm w i = some u) (target : Str) (n i : Nat) :
    ∀ e ∈ (dialAttempts t sm w target n i).events, e = .dialUpstream u.host target := by
  induction n generalizing i with
  | zero => exact nofun
  | succ n ih =>
    rw [dialAttempts, h]
    intro e he
    rcases List.mem_cons.mp he with rfl | he
    · rfl
    · split at he
      · cases he
      · exact ih (i + 1) e he

/-- A server that is dialled as probed is usable. -/
theorem usable_of_dialsAsProbed {s : Str} (h : Dialable (dialAddr s).1) (hne : s ≠ [])
    (hdials : DialsAsProbed s) : Usable s := by
  -- A handler whose rules send everything to the upstreams.
  have hproxy : ((bareHandler [] []).rm.matchContext (dialContext [] [] 0)).1 ∉
      [RuleAction.direct, .block] := by
    have hdefault : ((bareHandler [] []).rm.matchContext (dialContext [] [] 0)).1 = .proxy := rfl
    rw [hdefault]
    decide
  obtain ⟨dials, hevents, hsome, hall⟩ :=
    hdials (bareHandler [] []) { quietWorld with best := fun _ => s } [] [] 0 (fun _ => rfl) rfl
      hproxy
  rw [dialTarget_proxied rfl hproxy] at hevents
  obtain rfl := (List.cons.inj hevents).2
  obtain ⟨n, hn⟩ := retryCount_pos (bareHandler [] [])
  have hfirst := attemptServer_active (bareHandler [] []).sm (i := 0) hne
    (show { quietWorld with best := fun _ => s }.best 0 = s from rfl)
  rw [hn, dialAttempts, hfirst] at hsome hall
  cases hparse : parse s with
  | none =>
    rw [hparse] at hsome
    exact absurd rfl hsome
  | some u =>
    rw [hparse, Option.bind_some] at hsome hall
    by_cases hsupports : supports .tcp u.scheme = true
    · rw [if_pos hsupports] at hall
      have hhost : u.host = (dialAddr s).1 := by
        have hevent := hall _ List.mem_cons_self
        exact (Event.dialUpstream.inj hevent).1
      obtain ⟨⟨host, port⟩, hsplit⟩ := Option.isSome_iff_exists.mp h
      exact ⟨u, hparse, hhost ▸ colon_of_splitHostPort hsplit, hsupports⟩
    · rw [if_neg hsupports] at hsome
      exact absurd rfl hsome

/-- The test and the dial take a usable server for the same address. -/
theorem Usable.dialsAsProbed {s : Str} (hne : s ≠ []) : Usable s → DialsAsProbed s := by
  rintro ⟨u, hparse, hcolon, hsupports⟩ ph w target process pid hbest hrelay haction
  have hattempt : ∀ i, attemptServer .tcp ph.sm w i = some u := by
    intro i
    rw [attemptServer_active _ hne (hbest i), hparse, Option.bind_some, if_pos hsupports]
  have hhost : (dialAddr s).1 = u.host := by
    have hsome : u.host ≠ [] := List.ne_nil_of_mem hcolon
    rw [dialAddr, hparse]
    dsimp only
    rw [if_neg hsome, if_pos hcolon]
  obtain ⟨n, hn⟩ := retryCount_pos ph
  refine ⟨_, congrArg Dialed.events (dialTarget_proxied hrelay haction), ?_, ?_⟩
  · rw [hn, dialAttempts, hattempt]
    exact List.cons_ne_nil _ _
  · rw [hhost]
    exact dialAttempts_one hattempt target _ 0

theorem dialsAsProbed_iff {s : Str} (h : Dialable (dialAddr s).1) : DialsAsProbed s ↔ Usable s := by
  have hne : s ≠ [] := by
    rintro rfl
    exact absurd h (by decide)
  exact ⟨usable_of_dialsAsProbed h hne, Usable.dialsAsProbed hne⟩

/-- Every server that a test may publish is dialled as it was probed, exactly for those texts that
the guard drops, that cannot be probed, or that are URLs with a port and a scheme of a proxy. -/
theorem active_server_is_dialled_as_probed (ports : List Int) (s : Str) :
    (MayBeActive ports s → DialsAsProbed s) ↔
      isSelfUpstream ports s = true ∨ ¬ Dialable (dialAddr s).1 ∨ Usable s := by
  rw [mayBeActive_iff]
  unfold Probeable
  by_cases hdial : Dialable (dialAddr s).1
  · rw [dialsAsProbed_iff hdial]
    cases isSelfUpstream ports s <;> simp [hdial]
  · simp [hdial]

end

/-- A server without a scheme is published, and the dial then fails on it. A server without a port
is probed at the port of its scheme, and dialled without one. -/
theorem published_server_is_not_dialled :
    (run upstreamStep (newServerManager ["10.0.0.9:8118"] [] 30)
        [.tick, .snapshot 0 0, .publish 0 (fun d => d.1 == ("10.0.0.9:8118" : Str))]).sm.activeServer =
      ("10.0.0.9:8118" : Str) ∧
    ((bareHandler [] []).dialTarget { quietWorld with best := fun _ => "10.0.0.9:8118" }
        "93.184.216.34:443" [] 0).events = [.matched ⟨"93.184.216.34", 443, [], 0, []⟩] ∧
    (run upstreamStep (newServerManager ["socks5://10.0.0.9"] [] 30)
        [.tick, .snapshot 0 0, .publish 0 (fun d => d.1 == ("10.0.0.9:1080" : Str))]).sm.activeServer =
      ("socks5://10.0.0.9" : Str) ∧
    ((bareHandler [] []).dialTarget { quietWorld with best := fun _ => "socks5://10.0.0.9" }
        "93.184.216.34:443" [] 0).events =
      [.matched ⟨"93.184.216.34", 443, [], 0, []⟩, .dialUpstream "10.0.0.9" "93.184.216.34:443"] := by
  refine ⟨?_, ?_, ?_, ?_⟩ <;> decide +kernel

end vproxy
