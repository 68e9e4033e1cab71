-- BLOCK on the six paths. A path enforces BLOCK when it dials only what the full match of
-- its target does not block, and refuses only what that match blocks. The paths differ in
-- what they leave out of their own matches, and the law says when that does not show.
import Vproxy.Ingress

open go go.net go.url go.regexp

namespace vproxy

/-! ## Requests -/

inductive Request where
  | socks (target : Str)
  | connect (reqHost : Str)
  | plain (reqHost url requestURI : Str)
  | forward (target : Str)
  | transparentUDP (dst : SocketAddr) (hijacked session : Bool)
  | handleUDP (target : Str)

/-- The target is a host and a port, or for a plain request a host alone. The other paths
read their text in one way only. -/
def Request.WellFormed : Request → Prop
  | .connect reqHost => (splitHostPort reqHost).isSome
  | .plain reqHost _ _ => (splitHostPort reqHost).isSome ∨ ':' ∉ reqHost ∧ Plain reqHost
  | _ => True

/-! ## Attempts -/

/-- An upstream is dialled when the first attempt finds one. -/
theorem isDial_dialAttempts (w : World) (t : Transport) (sm : ServerManager) (target : Str)
    (n : Nat) :
    (dialAttempts t sm w target (n + 1) 0).events.any Event.isDial ↔
      (attemptServer t sm w 0).isSome := by
  unfold dialAttempts
  split
  · simp_all
  · simp_all [Event.isDial]

section

variable [Regexp]

theorem retryCount_pos (ph : ProxyHandler) : ∃ n, ph.retryCount = n + 1 := by
  unfold ProxyHandler.retryCount
  split
  · exact ⟨2, rfl⟩
  · exact ⟨ph.dialRetryCount.toNat - 1, by omega⟩

/-- The refusal of a dial comes from the action alone. -/
theorem refused_dialAction (ph : ProxyHandler) (w : World) (t : Transport) (target : Str)
    (a : RuleAction) : .refused ∈ (ph.dialAction w t target a).events ↔ a = .block := by
  have hattempts : .refused ∉ (dialAttempts t ph.sm w target ph.retryCount 0).events :=
    fun h => by
      obtain ⟨server, heq⟩ := mem_dialAttempts h
      cases heq
  cases a with
  | direct => cases t <;> simp [ProxyHandler.dialAction, dialDirect]
  | block => simp [ProxyHandler.dialAction]
  | proxy => simpa [ProxyHandler.dialAction] using hattempts
  | intercept => simpa [ProxyHandler.dialAction] using hattempts
  | map => simpa [ProxyHandler.dialAction] using hattempts

/-- DIRECT goes out, and an action for the upstreams when there is one. -/
theorem isDial_dialAction (ph : ProxyHandler) (w : World) (t : Transport) (target : Str)
    (a : RuleAction) : (ph.dialAction w t target a).events.any Event.isDial ↔
      a = .direct ∨ a ≠ .block ∧ (attemptServer t ph.sm w 0).isSome := by
  obtain ⟨n, hn⟩ := retryCount_pos ph
  have hattempts := isDial_dialAttempts w t ph.sm target n
  cases a with
  | direct => cases t <;> simp [ProxyHandler.dialAction, dialDirect, Event.isDial]
  | block => simp [ProxyHandler.dialAction, Event.isDial]
  | proxy => simpa [ProxyHandler.dialAction, hn] using hattempts
  | intercept => simpa [ProxyHandler.dialAction, hn] using hattempts
  | map => simpa [ProxyHandler.dialAction, hn] using hattempts

variable [Unicode]

/-! ## The rule -/

def ProxyHandler.serve (ph : ProxyHandler) (w : World) (c : Client) : Request → Outcome
  | .socks target => ph.serveSocks w target
  | .connect reqHost => ph.serveConnect w c reqHost
  | .plain reqHost url requestURI => ph.servePlain w c reqHost url requestURI
  | .forward target => ph.forward w c target
  | .transparentUDP dst hijacked session => ph.serveTransparentUDP w c dst hijacked session
  | .handleUDP target => ph.handleUDP w c target

/-- The full match of a target for the process that the inspector reports. -/
def ProxyHandler.reference (ph : ProxyHandler) (c : Client) (host port : Str) : RuleAction :=
  (ph.rm.matchContext ⟨host, (atoi port).1, c.process, c.pid, []⟩).1

structure EnforcesBlock (ph : ProxyHandler) (c : Client) (out : Outcome) : Prop where
  dials : out.events.any Event.isDial → ph.reference c out.host out.port ≠ .block
  refuses : .refused ∈ out.events → ph.reference c out.host out.port = .block

/-- The rule on DNS sends the port out directly. -/
def dnsDirect (rm : RuleManager) (port : Str) : Bool := rm.directDNS && (atoi port).1 = 53

/-! ## Matches with parts left out -/

variable {ph : ProxyHandler} {w : World} {c : Client}

/-- The metadata is left out only where no rule looks at it. -/
theorem matchContext_metadata (host : Str) (port : Int) :
    ph.rm.matchContext ⟨host, port, (ph.metadata c).1, (ph.metadata c).2, []⟩ =
      ph.rm.matchContext ⟨host, port, c.process, c.pid, []⟩ := by
  unfold ProxyHandler.metadata
  split
  · rfl
  · rename_i hneeds
    have hrules : ph.rm.hasProcessMetadataRules = false := by
      simp only [ProxyHandler.needsProcessMetadata, Bool.or_eq_true, not_or] at hneeds
      simpa using hneeds.1
    exact (matchContext_process hrules ⟨host, port, c.process, c.pid, []⟩).symm

/-- The full match is the match without the port, but for the rule on DNS. -/
theorem reference_eq (host port : Str) :
    ph.reference c host port = if dnsDirect ph.rm port then .direct else ph.gate c host := by
  unfold ProxyHandler.reference ProxyHandler.gate ProxyHandler.gateContext
  rw [matchContext_metadata, matchContext_port]
  unfold dnsDirect
  split <;> rfl

theorem reference_ne_block {host : Str} (port : Str) (h : ph.gate c host ≠ .block) :
    ph.reference c host port ≠ .block := by
  rw [reference_eq]
  split
  · exact RuleAction.noConfusion
  · exact h

theorem reference_of_gate_block {host : Str} (port : Str) (h : ph.gate c host = .block) :
    ph.reference c host port = .block ↔ ¬ dnsDirect ph.rm port := by
  rw [reference_eq, h]
  split <;> simp_all

/-- The match of a dial with the metadata is the full match. -/
theorem action_dialContext (target : Str) :
    (ph.rm.matchContext (dialContext target (ph.metadata c).1 (ph.metadata c).2)).1 =
      ph.reference c (hostPort target).1 (hostPort target).2 := by
  unfold dialContext ProxyHandler.reference
  rw [matchContext_metadata]

/-! ## What a dial does -/

/-- A client that is no local relay is none without its metadata either. -/
theorem isLocalRelay_metadata (h : ph.isLocalRelay w.byPort c.process c.pid = false) :
    ph.isLocalRelay w.byPort (ph.metadata c).1 (ph.metadata c).2 = false := by
  unfold ProxyHandler.metadata
  split
  · exact h
  · rfl

variable (t : Transport) (target : Str) {process : Str} {pid : Int}

theorem dial_eq (hrelay : ph.isLocalRelay w.byPort process pid = false) :
    (ph.dial w t target process pid).events =
      .matched (dialContext target process pid) :: (ph.dialAction w t target
        (ph.rm.matchContext (dialContext target process pid)).1).events := by
  unfold ProxyHandler.dial
  rw [if_neg (by simp [hrelay])]

/-- A dial refuses exactly what its own match blocks. -/
theorem refused_dial (hrelay : ph.isLocalRelay w.byPort process pid = false) :
    .refused ∈ (ph.dial w t target process pid).events ↔
      (ph.rm.matchContext (dialContext target process pid)).1 = .block := by
  rw [dial_eq t target hrelay, List.mem_cons, refused_dialAction]
  simp

/-- A dial goes out when its match is DIRECT, and for the rest when there is an upstream. -/
theorem isDial_dial (hrelay : ph.isLocalRelay w.byPort process pid = false) :
    (ph.dial w t target process pid).events.any Event.isDial ↔
      (ph.rm.matchContext (dialContext target process pid)).1 = .direct ∨
        (ph.rm.matchContext (dialContext target process pid)).1 ≠ .block ∧
          (attemptServer t ph.sm w 0).isSome := by
  rw [dial_eq t target hrelay, List.any_cons, ← isDial_dialAction ph w t target]
  simp [Event.isDial]

/-- A dial with the metadata enforces BLOCK. -/
theorem dial_enforces (hrelay : ph.isLocalRelay w.byPort c.process c.pid = false) :
    EnforcesBlock ph c ⟨(hostPort target).1, (hostPort target).2,
      (ph.dial w t target (ph.metadata c).1 (ph.metadata c).2).events⟩ := by
  have hmeta := isLocalRelay_metadata hrelay
  refine ⟨fun hdial => ?_, fun hrefused => ?_⟩
  · rw [isDial_dial t target hmeta, action_dialContext] at hdial
    obtain h | h := hdial
    · exact h ▸ RuleAction.noConfusion
    · exact h.1
  · rw [refused_dial t target hmeta, action_dialContext] at hrefused
    exact hrefused

/-! ## The paths -/

variable {host port : Str} {events : List Event}

theorem enforces_nil : EnforcesBlock ph c ⟨host, port, []⟩ := ⟨by simp, by simp⟩

/-- A match is neither a dial nor a refusal. -/
theorem enforces_matched (ctx : MatchContext) :
    EnforcesBlock ph c ⟨host, port, .matched ctx :: events⟩ ↔
      EnforcesBlock ph c ⟨host, port, events⟩ := by
  refine ⟨fun h => ⟨fun hd => h.dials ?_, fun hr => h.refuses ?_⟩,
    fun h => ⟨fun hd => h.dials ?_, fun hr => h.refuses ?_⟩⟩
  · simpa [Event.isDial] using hd
  · simpa using hr
  · simpa [Event.isDial] using hd
  · simpa using hr

/-- What the check without the port lets pass may be dialled. -/
theorem enforces_of_allowed (hgate : ph.gate c host ≠ .block) (h : .refused ∉ events) :
    EnforcesBlock ph c ⟨host, port, events⟩ :=
  ⟨fun _ => reference_ne_block port hgate, fun hr => absurd hr h⟩

/-- What it refuses is blocked unless the rule on DNS applies. -/
theorem enforces_refusal (hgate : ph.gate c host = .block) :
    EnforcesBlock ph c ⟨host, port, [.refused]⟩ ↔ ¬ dnsDirect ph.rm port := by
  rw [← reference_of_gate_block port hgate]
  refine ⟨fun h => h.refuses (by simp), fun h => ⟨?_, fun _ => h⟩⟩
  simp [Event.isDial]

theorem refused_mitmEvents (server : Bool) (uris : List Str) :
    .refused ∉ ph.mitmEvents w host server uris := by
  intro h
  obtain ⟨targetURL, heq⟩ := mem_mitmEvents h
  cases heq

/-- A dial refuses nothing that the check without the port lets pass. -/
theorem refused_of_allowed (hrelay : ph.isLocalRelay w.byPort c.process c.pid = false)
    (hgate : ph.gate c (hostPort target).1 ≠ .block) :
    .refused ∉ (ph.dialTarget w target (ph.metadata c).1 (ph.metadata c).2).events := by
  intro hrefused
  exact reference_ne_block _ hgate ((dial_enforces .tcp target hrelay).refuses hrefused)

/-- The connection is a loop, or its check does not refuse what the rule on DNS lets out. -/
def ProxyHandler.ForwardEnforced (ph : ProxyHandler) (w : World) (c : Client) (target : Str) :
    Prop :=
  let r := resolve w c target
  isLoop c r ∨ ¬ (ph.gate c r.host = .block ∧ dnsDirect ph.rm r.port)

theorem refused_forwardEvents (hrelay : ph.isLocalRelay w.byPort c.process c.pid = false)
    (r : Resolved) (hsplit : hostPort r.target = (r.host, r.port))
    (hgate : ph.gate c r.host ≠ .block) : .refused ∉ ph.forwardEvents w c r := by
  have hdial : .refused ∉
      (ph.dialTarget w r.target (ph.metadata c).1 (ph.metadata c).2).events := by
    apply refused_of_allowed r.target hrelay
    rwa [hsplit]
  unfold ProxyHandler.forwardEvents
  dsimp only
  split
  · rename_i htls
    simp only [Bool.and_eq_true, decide_eq_true_eq] at htls
    have hcolon : ':' ∈ r.target := by
      apply colon_mem_of_splitHostPort
      by_contra hnone
      simp_all [hostPort]
    rw [dialTargetTLS_events hcolon, List.mem_append, not_or]
    exact ⟨hdial, refused_mitmEvents _ _⟩
  · split
    · rw [List.mem_append, not_or]
      exact ⟨hdial, refused_mitmEvents _ _⟩
    · split
      · simp [dialDirect]
      · exact hdial

/-- Transparent TCP enforces BLOCK exactly when its check does not refuse DNS. -/
theorem forward_enforces (hrelay : ph.isLocalRelay w.byPort c.process c.pid = false)
    (hsni : ∀ name, c.sni = some name → Plain name) (target : Str) :
    EnforcesBlock ph c (ph.forward w c target) ↔ ph.ForwardEnforced w c target := by
  have hsplit := hostPort_resolve w hsni target
  unfold ProxyHandler.forward ProxyHandler.ForwardEnforced
  dsimp only
  generalize resolve w c target = r at hsplit ⊢
  split
  · rename_i hloop
    exact iff_of_true enforces_nil (Or.inl hloop)
  · rename_i hloop
    rw [enforces_matched]
    simp only [hloop, Bool.false_eq_true, false_or]
    split
    · rename_i hgate
      rw [enforces_refusal hgate]
      simp [hgate]
    · rename_i hgate
      simp only [hgate, false_and, not_false_eq_true, iff_true]
      exact enforces_of_allowed hgate (refused_forwardEvents hrelay r hsplit hgate)

/-- CONNECT refuses no DNS, and the rest is up to `forward` when nothing is intercepted. -/
def ProxyHandler.ConnectEnforced (ph : ProxyHandler) (w : World) (c : Client) (reqHost : Str) :
    Prop :=
  let (host, port) := hostPort reqHost
  if ph.gate c host = .block then ¬ dnsDirect ph.rm port
  else ph.intercepts c host = false → c.established → ph.ForwardEnforced w c reqHost

theorem connect_enforces (hrelay : ph.isLocalRelay w.byPort c.process c.pid = false)
    (hsni : ∀ name, c.sni = some name → Plain name) {reqHost : Str}
    (hreq : (splitHostPort reqHost).isSome) :
    EnforcesBlock ph c (ph.serveConnect w c reqHost) ↔ ph.ConnectEnforced w c reqHost := by
  unfold ProxyHandler.serveConnect ProxyHandler.ConnectEnforced
  dsimp only
  rw [hostOnly_eq hreq]
  split
  · rename_i hgate
    rw [enforces_matched, enforces_refusal hgate]
  · rename_i hgate
    split
    · rename_i hcept
      simp only [hcept, Bool.true_eq_false, false_implies, iff_true]
      apply enforces_of_allowed hgate
      have hinner : .refused ∉ (if c.established && c.cert then ph.mitmEvents w reqHost
          (if ph.isRewriteHost (hostPort reqHost).1 then ⟨[], false⟩ else
            ph.dialTargetTLS w reqHost (ph.metadata c).1 (ph.metadata c).2).conn c.inner
          else []) := by
        split
        · exact refused_mitmEvents _ _
        · simp
      simp only [List.mem_append, List.mem_cons, not_or]
      refine ⟨⟨by simp, ?_⟩, hinner⟩
      split
      · simp
      · rw [dialTargetTLS_events (colon_mem_of_splitHostPort hreq)]
        exact refused_of_allowed reqHost hrelay hgate
    · rename_i hcept
      split
      · rename_i hest
        simp only [hcept, hest, forall_const, ← forward_enforces hrelay hsni]
        exact enforces_matched _
      · rename_i hest
        simp only [hest, Bool.false_eq_true, false_implies, implies_true, iff_true]
        exact (enforces_matched _).mpr enforces_nil

/-- A request that a rewrite sends on is not blocked, and other requests are refused only
outside the rule on DNS. -/
def ProxyHandler.PlainEnforced (ph : ProxyHandler) (w : World) (c : Client)
    (reqHost url requestURI : Str) : Prop :=
  let (host, port) := hostPort (plainTarget reqHost)
  match ph.matchRewrite (plainURL reqHost url requestURI) host with
  | none => ¬ (ph.gate c host = .block ∧ dnsDirect ph.rm port)
  | some res =>
    match res.action with
    | .mock => True
    | .proxy =>
      if res.targetURL ≠ [] then
        (parse res.targetURL).isSome → w.sends res.targetURL → ph.reference c host port ≠ .block
      else ¬ (ph.gate c host = .block ∧ dnsDirect ph.rm port)

theorem plain_by_rules_enforces (hrelay : ph.isLocalRelay w.byPort c.process c.pid = false)
    {reqHost : Str} (hhost : hostOnly reqHost = (hostPort (plainTarget reqHost)).1) :
    EnforcesBlock ph c ⟨(hostPort (plainTarget reqHost)).1, (hostPort (plainTarget reqHost)).2,
      ph.servePlainByRules w c reqHost⟩ ↔
      ¬ (ph.gate c (hostPort (plainTarget reqHost)).1 = .block ∧
        dnsDirect ph.rm (hostPort (plainTarget reqHost)).2) := by
  unfold ProxyHandler.servePlainByRules
  dsimp only
  rw [enforces_matched, hhost]
  split
  · rename_i hgate
    rw [enforces_refusal hgate]
    simp [hgate]
  · rename_i hgate
    simp only [hgate, false_and, not_false_eq_true, iff_true]
    exact enforces_of_allowed hgate (refused_of_allowed _ hrelay hgate)

theorem plain_enforces (hrelay : ph.isLocalRelay w.byPort c.process c.pid = false)
    {reqHost : Str} (url requestURI : Str)
    (hhost : hostOnly reqHost = (hostPort (plainTarget reqHost)).1) :
    EnforcesBlock ph c (ph.servePlain w c reqHost url requestURI) ↔
      ph.PlainEnforced w c reqHost url requestURI := by
  have hrules := plain_by_rules_enforces hrelay hhost
  unfold ProxyHandler.servePlain ProxyHandler.PlainEnforced
  dsimp only
  rw [hhost]
  cases ph.matchRewrite (plainURL reqHost url requestURI) (hostPort (plainTarget reqHost)).1 with
  | none => exact hrules
  | some res =>
    obtain ⟨action, targetURL, localFile⟩ := res
    cases action with
    | mock => exact iff_of_true enforces_nil trivial
    | proxy =>
      dsimp only
      by_cases hempty : targetURL = []
      · rw [if_neg (not_not.mpr hempty), if_neg (not_not.mpr hempty)]
        exact hrules
      · rw [if_pos hempty, if_pos hempty]
        unfold rewriteEvents
        split
        · rename_i hsent
          simp only [Bool.and_eq_true] at hsent
          refine ⟨fun h _ _ => h.dials rfl, fun h => ⟨fun _ => h hsent.1 hsent.2, ?_⟩⟩
          simp
        · rename_i hsent
          simp only [Bool.and_eq_true, not_and] at hsent
          exact iff_of_true enforces_nil (fun hparse hsends => absurd hsends (hsent hparse))

/-- The match without process and pid blocks what the full match blocks. Where it blocks too
little, no upstream can be dialled. -/
def ProxyHandler.SocksEnforced (ph : ProxyHandler) (w : World) (c : Client) (target : Str) :
    Prop :=
  let full := ph.reference c (hostPort target).1 (hostPort target).2
  let own := (ph.rm.matchContext (dialContext target [] 0)).1
  (own = .block → full = .block) ∧
    (full = .block → own = .block ∨ own ≠ .direct ∧ attemptServer .tcp ph.sm w 0 = none)

theorem socks_enforces (target : Str) :
    EnforcesBlock ph c (ph.serveSocks w target) ↔ ph.SocksEnforced w c target := by
  have hrelay : ph.isLocalRelay w.byPort [] 0 = false := rfl
  have hdial := isDial_dial .tcp target hrelay
  have hrefused := refused_dial .tcp target hrelay
  unfold ProxyHandler.serveSocks ProxyHandler.SocksEnforced ProxyHandler.dialTarget
  dsimp only
  constructor
  · rintro ⟨hdials, hrefuses⟩
    refine ⟨fun hown => hrefuses (hrefused.mpr hown), fun hfull => ?_⟩
    by_contra hcon
    simp only [not_or, not_and] at hcon
    refine hdials (hdial.mpr ?_) hfull
    by_cases hdirect : (ph.rm.matchContext (dialContext target [] 0)).1 = .direct
    · exact Or.inl hdirect
    · exact Or.inr ⟨hcon.1, Option.isSome_iff_ne_none.mpr (hcon.2 hdirect)⟩
  · rintro ⟨hown, hfull⟩
    refine ⟨fun hd hblock => ?_, fun hr => hown (hrefused.mp hr)⟩
    obtain hsame | ⟨hnot, hnone⟩ := hfull hblock
    · obtain hdirect | ⟨hallow, -⟩ := hdial.mp hd
      · rw [hsame] at hdirect
        cases hdirect
      · exact hallow hsame
    · obtain hdirect | ⟨-, hsome⟩ := hdial.mp hd
      · exact hnot hdirect
      · simp [hnone] at hsome

theorem transparentUDP_enforces (hrelay : ph.isLocalRelay w.byPort c.process c.pid = false)
    (dst : SocketAddr) (hijacked session : Bool) :
    EnforcesBlock ph c (ph.serveTransparentUDP w c dst hijacked session) := by
  unfold ProxyHandler.serveTransparentUDP
  dsimp only
  split
  · exact enforces_nil
  split
  · exact enforces_nil
  · exact dial_enforces .udp _ hrelay

/-- A datagram of a forwarded relay, which goes out without a match, is not blocked. -/
def ProxyHandler.HandleUDPEnforced (ph : ProxyHandler) (w : World) (c : Client) (target : Str) :
    Prop :=
  let (target, isFakeIP) := restore w.pool target
  c.relay isFakeIP (ph.metadata c).2 →
    ph.reference c (hostPort target).1 (hostPort target).2 ≠ .block

theorem handleUDP_enforces (hrelay : ph.isLocalRelay w.byPort c.process c.pid = false)
    (target : Str) :
    EnforcesBlock ph c (ph.handleUDP w c target) ↔ ph.HandleUDPEnforced w c target := by
  unfold ProxyHandler.handleUDP ProxyHandler.HandleUDPEnforced
  dsimp only
  split
  · rename_i hforwarded
    refine ⟨fun h _ => h.dials rfl, fun h => ⟨fun _ => h hforwarded, ?_⟩⟩
    simp [dialDirect]
  · rename_i hforwarded
    exact iff_of_true (dial_enforces .udp _ hrelay) (fun h => absurd h hforwarded)

/-! ## The law -/

/-- What each path asks of a request, on the state before it. -/
def ProxyHandler.EnforcedWhen (ph : ProxyHandler) (w : World) (c : Client) : Request → Prop
  | .socks target => ph.SocksEnforced w c target
  | .connect reqHost => ph.ConnectEnforced w c reqHost
  | .plain reqHost url requestURI => ph.PlainEnforced w c reqHost url requestURI
  | .forward target => ph.ForwardEnforced w c target
  | .transparentUDP _ _ _ => True
  | .handleUDP target => ph.HandleUDPEnforced w c target

/-- For a client that is no local relay, each path enforces BLOCK exactly on the requests
where its own matches do not differ from the full match. -/
theorem paths_enforce_block (ph : ProxyHandler) (w : World) (c : Client) (req : Request)
    (hrelay : ph.isLocalRelay w.byPort c.process c.pid = false)
    (hsni : ∀ name, c.sni = some name → Plain name) (hreq : req.WellFormed) :
    EnforcesBlock ph c (ph.serve w c req) ↔ ph.EnforcedWhen w c req := by
  cases req with
  | socks target => exact socks_enforces target
  | connect reqHost => exact connect_enforces hrelay hsni hreq
  | plain reqHost url requestURI =>
    exact plain_enforces hrelay url requestURI (hostOnly_plainTarget hreq)
  | forward target => exact forward_enforces hrelay hsni target
  | transparentUDP dst hijacked session =>
    exact iff_of_true (transparentUDP_enforces hrelay dst hijacked session) trivial
  | handleUDP target => exact handleUDP_enforces hrelay target

end

/-! ## A blocked process -/

/-- A handler with one rule, which blocks a process. -/
def curlBlocked : ProxyHandler :=
  setupServices ⟨0, 8118, 0⟩ { bareConfig [] [] with rules := ["PROCESS,curl,BLOCK"] }

def quietWorld : World where
  pool := none
  byPort _ := none
  lookup _ := none
  best _ := []
  answers _ := true
  direct := true
  tls := true
  sends _ := true

def curl : Client where
  process := "/usr/bin/curl"
  pid := 7
  localAddr := "127.0.0.1:10080"
  isTUN := false
  sni := none
  cert := true
  established := true
  relay _ _ := false
  inner := []

/-- Transparent TCP refuses the process, and that is right. -/
theorem forward_refuses_curl :
    .refused ∈ (curlBlocked.forward quietWorld curl "192.0.2.1:443").events ∧
      EnforcesBlock curlBlocked curl
        (curlBlocked.serve quietWorld curl (.forward "192.0.2.1:443")) := by
  have hrelay : curlBlocked.isLocalRelay quietWorld.byPort curl.process curl.pid = false := by
    decide +kernel
  have hsni : ∀ name, curl.sni = some name → Plain name := by
    intro name hname
    cases (show none = some name from hname)
  have hwhen : curlBlocked.ForwardEnforced quietWorld curl "192.0.2.1:443" := by
    unfold ProxyHandler.ForwardEnforced
    right
    decide +kernel
  refine ⟨by decide +kernel, ?_⟩
  exact (paths_enforce_block curlBlocked quietWorld curl (.forward "192.0.2.1:443") hrelay hsni
    True.intro).mpr hwhen

/-- SOCKS dials for the same process, which the full match blocks. -/
theorem socks_dials_for_curl :
    (curlBlocked.serve quietWorld curl (.socks "192.0.2.1:443")).events =
        [.matched ⟨"192.0.2.1", 443, [], 0, []⟩, .dialDirect "192.0.2.1:443"] ∧
      curlBlocked.reference curl "192.0.2.1" "443" = .block ∧
      ¬ EnforcesBlock curlBlocked curl
        (curlBlocked.serve quietWorld curl (.socks "192.0.2.1:443")) := by
  refine ⟨by decide +kernel, by decide +kernel, fun h => ?_⟩
  exact absurd (by decide +kernel) (h.dials (by decide +kernel))

end vproxy
