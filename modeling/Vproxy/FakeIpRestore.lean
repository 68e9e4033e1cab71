-- Fake addresses on the paths that may meet one. A path restores the domain of a fake
-- address when all its matches are for the domain and all its upstream dials carry it.
-- Transparent TCP and TUN UDP do so, SOCKS and transparent UDP do not.
import Vproxy.Ingress
import Mathlib.Tactic.SplitIfs

open go go.net go.url go.regexp

namespace vproxy

/-! ## Requests to a fake address -/

/-- The paths, with what transparent UDP finds out about the datagram. -/
inductive FakePath where
  | forward
  | handleUDP
  | transparentUDP (hijacked session : Bool)
  | socks
  deriving DecidableEq

/-- The text of a destination. -/
def dstText (dst : SocketAddr) : Str := joinHostPort (ipString dst.ip) (itoa dst.port.toNat)

/-- Every match is for the domain, and every upstream is asked for the domain and the port. -/
structure Restored (domain port : Str) (events : List Event) : Prop where
  matches_domain : ∀ ctx, .matched ctx ∈ events → ctx.host = domain
  dials_domain : ∀ server target, .dialUpstream server target ∈ events →
    target = joinHostPort domain port

/-- The address lies in the pool and stands for the domain. -/
structure StandsFor (pool : dns.FakeIPPool) (ip : IP) (domain : Str) : Prop where
  length : ip.length = 4 ∨ ip.length = 16
  fake : pool.isFakeIP ip = true
  domain_eq : pool.getDomain ip = domain
  nonempty : domain ≠ []

theorem hostPort_dstText {dst : SocketAddr} (h : dst.ip.length = 4 ∨ dst.ip.length = 16) :
    splitHostPort (dstText dst) = some (ipString dst.ip, itoa dst.port.toNat) :=
  splitHostPort_joinHostPort (plain_ipString h) (plain_itoa _).1 (plain_itoa _).2

/-- The domain takes the place of the address. -/
theorem restore_dstText {pool : dns.FakeIPPool} {dst : SocketAddr} {domain : Str}
    (h : StandsFor pool dst.ip domain) :
    restore (some pool) (dstText dst) = (joinHostPort domain (itoa dst.port.toNat), true) := by
  obtain ⟨ip, hip⟩ : ∃ ip, to16 dst.ip = some ip := by
    rcases h.length with hlen | hlen <;> simp [to16, hlen]
  have hfake : pool.isFakeIP ip = true := by
    unfold dns.FakeIPPool.isFakeIP
    rw [netContains_to16 hip]
    exact h.fake
  have hdomain : pool.getDomain ip = domain := by
    rw [← h.domain_eq, dns.FakeIPPool.getDomain, dns.FakeIPPool.getDomain, to4_to16 hip]
  unfold restore
  rw [hostPort_dstText h.length]
  dsimp only
  rw [parseIP_ipString h.length, hip]
  simp [hfake, hdomain, h.nonempty]

theorem colon_mem_joinHostPort (host port : Str) : ':' ∈ joinHostPort host port := by
  unfold joinHostPort
  split <;> simp

/-- The split of a domain and a port gives the domain back when it has no brackets. -/
theorem hostPort_join_eq_iff {domain port : Str} (hne : domain ≠ []) (hport : Plain port)
    (hcolon : ':' ∉ port) : (hostPort (joinHostPort domain port)).1 = domain ↔ Plain domain := by
  constructor
  · intro heq
    unfold hostPort at heq
    cases hs : splitHostPort (joinHostPort domain port) with
    | none => exact absurd (by simpa [hs] using heq) (Ne.symm hne)
    | some hp =>
      have hplain := plain_splitHostPort hs
      rw [hs] at heq
      exact heq ▸ hplain
  · intro hplain
    rw [hostPort_joinHostPort hplain hport hcolon]

/-! ## The target of transparent TCP -/

/-- A connection to port 443 whose domain reads as an address takes the name of the SNI
instead, when there is one and it is another. -/
def sniffedAway (c : Client) (domain port : Str) : Prop :=
  port = "443" ∧ (parseIP domain).isSome ∧ c.sni.getD [] ≠ [] ∧ c.sni.getD [] ≠ domain

theorem resolve_host (w : World) (c : Client) (target : Str) :
    (resolve w c target).host =
      if ((parseIP (hostPort (restore w.pool target).1).1).isSome ∧
          (hostPort (restore w.pool target).1).2 = "443") ∧ c.sni.getD [] ≠ [] then c.sni.getD []
      else (hostPort (restore w.pool target).1).1 := by
  unfold resolve
  simp only [Bool.and_eq_true, decide_eq_true_eq]
  split_ifs <;> simp_all

/-- The host of `forward` is the domain when the domain has no brackets and stays. -/
theorem resolve_host_iff {w : World} {c : Client} {pool : dns.FakeIPPool} {dst : SocketAddr}
    {domain : Str} (hw : w.pool = some pool) (hfake : StandsFor pool dst.ip domain)
    (hsni : ∀ name, c.sni = some name → Plain name) :
    (resolve w c (dstText dst)).host = domain ↔
      Plain domain ∧ ¬ sniffedAway c domain (itoa dst.port.toNat) := by
  have hport := plain_itoa dst.port.toNat
  have hsplit := hostPort_join_eq_iff hfake.nonempty hport.1 hport.2
  rw [resolve_host, hw, restore_dstText hfake]
  unfold sniffedAway
  by_cases hplain : Plain domain
  · rw [hostPort_joinHostPort hplain hport.1 hport.2]
    dsimp only
    split
    · rename_i hsniff
      simp [hplain, hsniff]
    · rename_i hsniff
      simp only [hplain, true_and, true_iff]
      exact fun haway => hsniff ⟨⟨haway.2.1, haway.1⟩, haway.2.2.1⟩
  · simp only [hplain, false_and, iff_false]
    split
    · rename_i hsniff
      intro heq
      cases hname : c.sni with
      | none => simp [hname] at hsniff
      | some name =>
        rw [hname, Option.getD_some] at heq
        exact hplain (heq ▸ hsni name hname)
    · exact fun heq => hplain (hsplit.mp heq)

/-- Then the target of `forward` is the domain with the port. -/
theorem resolve_target {w : World} {c : Client} {pool : dns.FakeIPPool} {dst : SocketAddr}
    {domain : Str} (hw : w.pool = some pool) (hfake : StandsFor pool dst.ip domain)
    (hplain : Plain domain) (hhost : (resolve w c (dstText dst)).host = domain) :
    (resolve w c (dstText dst)).target = joinHostPort domain (itoa dst.port.toNat) := by
  have hport := plain_itoa dst.port.toNat
  have hhp := hostPort_joinHostPort hplain hport.1 hport.2
  unfold resolve at hhost ⊢
  rw [hw, restore_dstText hfake] at hhost ⊢
  dsimp only at hhost ⊢
  rw [hhp] at hhost ⊢
  dsimp only at hhost ⊢
  split_ifs at hhost ⊢ <;> simp_all

/-! ## Dials -/

section

variable {domain port : Str} {es es' : List Event}

theorem restored_append (h : Restored domain port es) (h' : Restored domain port es') :
    Restored domain port (es ++ es') := by
  refine ⟨fun ctx hmem => ?_, fun server target hmem => ?_⟩
  · exact (List.mem_append.mp hmem).elim (h.matches_domain ctx) (h'.matches_domain ctx)
  · exact (List.mem_append.mp hmem).elim (h.dials_domain server target)
      (h'.dials_domain server target)

theorem restored_nil : Restored domain port [] := ⟨by simp, by simp⟩

/-- A match asks for its host. -/
theorem restored_matched (ctx : MatchContext) :
    Restored domain port (.matched ctx :: es) ↔ ctx.host = domain ∧ Restored domain port es := by
  refine ⟨fun h => ⟨h.matches_domain ctx (by simp), ?_, ?_⟩, fun ⟨hhost, h⟩ => ⟨?_, ?_⟩⟩
  · exact fun ctx' hmem => h.matches_domain ctx' (List.mem_cons_of_mem _ hmem)
  · exact fun server target hmem => h.dials_domain server target (List.mem_cons_of_mem _ hmem)
  · intro ctx' hmem
    obtain heq | hmem := List.mem_cons.mp hmem
    · cases heq
      exact hhost
    · exact h.matches_domain ctx' hmem
  · intro server target hmem
    obtain heq | hmem := List.mem_cons.mp hmem
    · cases heq
    · exact h.dials_domain server target hmem

theorem restored_dialDirect (w : World) (t : Transport) (target : Str) :
    Restored domain port (dialDirect w t target).events := by
  cases t <;> exact ⟨by simp [dialDirect], by simp [dialDirect]⟩

end

section

variable [Regexp] {ph : ProxyHandler} {w : World} {c : Client} {domain port : Str}

theorem restored_dialAction (t : Transport) (a : RuleAction) :
    Restored domain port (ph.dialAction w t (joinHostPort domain port) a).events := by
  have hattempts : Restored domain port
      (dialAttempts t ph.sm w (joinHostPort domain port) ph.retryCount 0).events := by
    refine ⟨fun ctx hmem => ?_, fun server target hmem => ?_⟩
    · obtain ⟨server, heq⟩ := mem_dialAttempts hmem
      cases heq
    · obtain ⟨server', heq⟩ := mem_dialAttempts hmem
      exact (Event.dialUpstream.inj heq).2
  cases a with
  | direct => exact restored_dialDirect w t _
  | block => exact ⟨by simp [ProxyHandler.dialAction], by simp [ProxyHandler.dialAction]⟩
  | proxy => exact hattempts
  | intercept => exact hattempts
  | map => exact hattempts

variable [Unicode]

theorem restored_mitmEvents (host : Str) (server : Bool) (uris : List Str) :
    Restored domain port (ph.mitmEvents w host server uris) := by
  refine ⟨fun ctx hmem => ?_, fun upstream target hmem => ?_⟩ <;>
  · obtain ⟨targetURL, heq⟩ := mem_mitmEvents hmem
    cases heq

/-- A dial is for the domain when it goes to a local relay or its own split finds the domain. -/
theorem restored_dial {target process : Str} {pid : Int} (t : Transport)
    (htarget : (hostPort target).1 = domain → target = joinHostPort domain port) :
    Restored domain port (ph.dial w t target process pid).events ↔
      ph.isLocalRelay w.byPort process pid ∨ (hostPort target).1 = domain := by
  unfold ProxyHandler.dial
  by_cases hrelay : ph.isLocalRelay w.byPort process pid
  · rw [if_pos hrelay]
    exact iff_of_true (restored_dialDirect w t target) (Or.inl hrelay)
  · rw [if_neg hrelay]
    dsimp only
    rw [restored_matched]
    simp only [hrelay, Bool.false_eq_true, false_or]
    refine ⟨fun h => h.1, fun hhost => ⟨hhost, ?_⟩⟩
    rw [htarget hhost]
    exact restored_dialAction t _

/-! ## The paths -/

/-- With the domain in hand the end of `forward` restores it. -/
theorem restored_forwardEvents (r : Resolved) (htarget : r.target = joinHostPort domain port)
    (hsplit : (hostPort (joinHostPort domain port)).1 = domain) :
    Restored domain port (ph.forwardEvents w c r) := by
  have hdial : Restored domain port
      (ph.dialTarget w r.target (ph.metadata c).1 (ph.metadata c).2).events := by
    rw [htarget]
    exact (restored_dial .tcp (fun _ => rfl)).mpr (Or.inr hsplit)
  unfold ProxyHandler.forwardEvents
  dsimp only
  split
  · rw [dialTargetTLS_events (htarget ▸ colon_mem_joinHostPort domain port)]
    exact restored_append hdial (restored_mitmEvents _ _ _)
  split
  · exact restored_append hdial (restored_mitmEvents _ _ _)
  split
  · exact restored_dialDirect w .tcp _
  · exact hdial

variable {pool : dns.FakeIPPool} {dst : SocketAddr}

theorem forward_restores (hw : w.pool = some pool) (hfake : StandsFor pool dst.ip domain)
    (hsni : ∀ name, c.sni = some name → Plain name) :
    Restored domain (itoa dst.port.toNat) (ph.forward w c (dstText dst)).events ↔
      isLoop c (resolve w c (dstText dst)) ∨
        Plain domain ∧ ¬ sniffedAway c domain (itoa dst.port.toNat) := by
  have hport := plain_itoa dst.port.toNat
  rw [← resolve_host_iff hw hfake hsni]
  unfold ProxyHandler.forward
  dsimp only
  split
  · rename_i hloop
    exact iff_of_true restored_nil (Or.inl hloop)
  · rename_i hloop
    simp only [hloop, Bool.false_eq_true, false_or, restored_matched]
    refine ⟨fun h => h.1, fun hhost => ⟨hhost, ?_⟩⟩
    have hplain := ((resolve_host_iff hw hfake hsni).mp hhost).1
    split
    · exact ⟨by simp, by simp⟩
    · apply restored_forwardEvents _ (resolve_target hw hfake hplain hhost)
      exact (hostPort_join_eq_iff hfake.nonempty hport.1 hport.2).mpr hplain

theorem handleUDP_restores (hw : w.pool = some pool) (hfake : StandsFor pool dst.ip domain) :
    Restored domain (itoa dst.port.toNat) (ph.handleUDP w c (dstText dst)).events ↔
      c.relay true (ph.metadata c).2 ∨
        ph.isLocalRelay w.byPort (ph.metadata c).1 (ph.metadata c).2 ∨ Plain domain := by
  have hport := plain_itoa dst.port.toNat
  unfold ProxyHandler.handleUDP
  rw [hw, restore_dstText hfake]
  dsimp only
  split
  · rename_i hforwarded
    exact iff_of_true (restored_dialDirect w .udp _) (Or.inl hforwarded)
  · rename_i hforwarded
    simp only [hforwarded, Bool.false_eq_true, false_or]
    rw [← hostPort_join_eq_iff hfake.nonempty hport.1 hport.2]
    exact restored_dial .udp (fun _ => rfl)

/-- A dial for the text of the address is for the domain only when that is the same text. -/
theorem restored_dial_dstText (hlen : dst.ip.length = 4 ∨ dst.ip.length = 16) (t : Transport)
    (process : Str) (pid : Int) :
    Restored domain (itoa dst.port.toNat) (ph.dial w t (dstText dst) process pid).events ↔
      ph.isLocalRelay w.byPort process pid ∨ ipString dst.ip = domain := by
  have hhost : (hostPort (dstText dst)).1 = ipString dst.ip := by
    rw [hostPort, hostPort_dstText hlen]
    rfl
  rw [restored_dial t, hhost]
  intro heq
  rw [← heq, hhost]
  rfl

/-! ## The law -/

def ProxyHandler.serveFake (ph : ProxyHandler) (w : World) (c : Client) (dst : SocketAddr) :
    FakePath → List Event
  | .forward => (ph.forward w c (dstText dst)).events
  | .handleUDP => (ph.handleUDP w c (dstText dst)).events
  | .transparentUDP hijacked session => (ph.serveTransparentUDP w c dst hijacked session).events
  | .socks => (ph.serveSocks w (dstText dst)).events

/-- What each path asks of the domain and of the state before the request. The paths that
do not restore ask that the domain is the text of the address. -/
def ProxyHandler.RestoredWhen (ph : ProxyHandler) (w : World) (c : Client) (dst : SocketAddr)
    (domain : Str) : FakePath → Prop
  | .forward => isLoop c (resolve w c (dstText dst)) ∨
      Plain domain ∧ ¬ sniffedAway c domain (itoa dst.port.toNat)
  | .handleUDP => c.relay true (ph.metadata c).2 ∨
      ph.isLocalRelay w.byPort (ph.metadata c).1 (ph.metadata c).2 ∨ Plain domain
  | .transparentUDP hijacked session => (dst.port = 53 && hijacked) ∨ session ∨
      ph.isLocalRelay w.byPort (ph.metadata c).1 (ph.metadata c).2 ∨ ipString dst.ip = domain
  | .socks => ipString dst.ip = domain

/-- A path restores the domain of a fake address exactly under its condition. -/
theorem fake_addresses_are_restored (ph : ProxyHandler) (w : World) (c : Client)
    (pool : dns.FakeIPPool) (dst : SocketAddr) (domain : Str) (path : FakePath)
    (hw : w.pool = some pool) (hfake : StandsFor pool dst.ip domain)
    (hsni : ∀ name, c.sni = some name → Plain name) :
    Restored domain (itoa dst.port.toNat) (ph.serveFake w c dst path) ↔
      ph.RestoredWhen w c dst domain path := by
  cases path with
  | forward => exact forward_restores hw hfake hsni
  | handleUDP => exact handleUDP_restores hw hfake
  | socks =>
    unfold ProxyHandler.serveFake ProxyHandler.RestoredWhen ProxyHandler.serveSocks
    dsimp only
    rw [ProxyHandler.dialTarget, restored_dial_dstText hfake.length]
    simp [ProxyHandler.isLocalRelay]
  | transparentUDP hijacked session =>
    unfold ProxyHandler.serveFake ProxyHandler.RestoredWhen ProxyHandler.serveTransparentUDP
    dsimp only
    split
    · rename_i hanswered
      exact iff_of_true restored_nil (Or.inl hanswered)
    split
    · rename_i hsession
      exact iff_of_true restored_nil (Or.inr (Or.inl hsession))
    · rename_i hanswered hsession
      simp only [hanswered, hsession, Bool.false_eq_true, false_or]
      exact restored_dial_dstText hfake.length .udp _ _

end

/-! ## One fake address -/

/-- A pool in which 198.18.0.2 stands for a.cn. -/
def onePool : dns.FakeIPPool where
  subnet := ⟨[198, 18, 0, 0], [255, 254, 0, 0]⟩
  minIP := 0xC6120002
  maxIP := 0xC613FFFE
  current := 0xC6120003
  ipToDomain ip := if ip = 0xC6120002 then some "a.cn" else none
  domainToIP d := if d = "a.cn" then some 0xC6120002 else none

def poolWorld : World where
  pool := some onePool
  byPort _ := none
  lookup _ := none
  best _ := "socks5://192.0.2.9:1080"
  answers _ := true
  direct := true
  tls := true
  sends _ := true

def anyClient : Client where
  process := []
  pid := 0
  localAddr := "127.0.0.1:10080"
  isTUN := false
  sni := none
  cert := true
  established := true
  relay _ _ := false
  inner := []

/-- A handler that proxies everything. -/
def allProxied : ProxyHandler :=
  setupServices ⟨0, 8118, 0⟩ { bareConfig [] [] with rules := ["FINAL,PROXY"] }

theorem standsFor_onePool : StandsFor onePool [198, 18, 0, 2] "a.cn" :=
  ⟨Or.inl rfl, by decide, by decide, by decide⟩

/-- Transparent TCP asks the upstream for the domain. -/
theorem forward_restores_the_domain :
    .dialUpstream "192.0.2.9:1080" "a.cn:443" ∈
        allProxied.serveFake poolWorld anyClient ⟨[198, 18, 0, 2], 443⟩ .forward ∧
      Restored "a.cn" "443"
        (allProxied.serveFake poolWorld anyClient ⟨[198, 18, 0, 2], 443⟩ .forward) := by
  have hsni : ∀ name, anyClient.sni = some name → Plain name := by
    intro name hname
    cases (show none = some name from hname)
  refine ⟨by decide +kernel, ?_⟩
  apply (fake_addresses_are_restored allProxied poolWorld anyClient onePool ⟨[198, 18, 0, 2], 443⟩
    "a.cn" .forward rfl standsFor_onePool hsni).mpr
  right
  refine ⟨by decide, fun haway => ?_⟩
  exact absurd haway.2.1 (by decide)

/-- SOCKS and transparent UDP ask it for the fake address. -/
theorem socks_dials_the_fake_address :
    allProxied.serveFake poolWorld anyClient ⟨[198, 18, 0, 2], 443⟩ .socks =
        [.matched ⟨"198.18.0.2", 443, [], 0, []⟩,
          .dialUpstream "192.0.2.9:1080" "198.18.0.2:443"] ∧
      allProxied.serveFake poolWorld anyClient ⟨[198, 18, 0, 2], 443⟩
          (.transparentUDP false false) =
        [.matched ⟨"198.18.0.2", 443, [], 0, []⟩,
          .dialUpstream "192.0.2.9:1080" "198.18.0.2:443"] ∧
      ∀ path ∈ [FakePath.socks, .transparentUDP false false], ¬ Restored "a.cn" "443"
        (allProxied.serveFake poolWorld anyClient ⟨[198, 18, 0, 2], 443⟩ path) := by
  have hsocks : allProxied.serveFake poolWorld anyClient ⟨[198, 18, 0, 2], 443⟩ .socks =
      [.matched ⟨"198.18.0.2", 443, [], 0, []⟩,
        .dialUpstream "192.0.2.9:1080" "198.18.0.2:443"] := by decide +kernel
  have hudp : allProxied.serveFake poolWorld anyClient ⟨[198, 18, 0, 2], 443⟩
      (.transparentUDP false false) = [.matched ⟨"198.18.0.2", 443, [], 0, []⟩,
        .dialUpstream "192.0.2.9:1080" "198.18.0.2:443"] := by decide +kernel
  refine ⟨hsocks, hudp, ?_⟩
  simp only [List.mem_cons, List.not_mem_nil, or_false, forall_eq_or_imp, forall_eq, hsocks, hudp]
  have hdiffer : ¬ Restored "a.cn" "443" [.matched ⟨"198.18.0.2", 443, [], 0, []⟩,
      .dialUpstream "192.0.2.9:1080" "198.18.0.2:443"] := by
    intro h
    have hhost := h.matches_domain _ List.mem_cons_self
    exact absurd hhost (by decide)
  exact ⟨hdiffer, hdiffer⟩

end vproxy
