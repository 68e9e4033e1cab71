-- A reload against a restart. A reload builds the rule manager from the rules alone, so
-- remote LANs are lost, and a posted configuration leaves the rewrites as they were. With
-- no remote LANs, and for a post with rewrites that answer alike, the two are the same.
import Vproxy.Handler
import Vproxy.AddrText

open go go.net go.regexp

namespace vproxy

/-! ## Texts of addresses and names -/

/-- The long text of an address is no name of this machine. -/
theorem not_isLocalName_joinGroups {ip : IP} (h : ip.length = 16) :
    ¬ isLocalName (joinGroups (groups ip)) := by
  have h8 : (groups ip).length = 8 := length_groups (n := 8) h
  have hcolon := colon_mem_joinGroups h8
  obtain ⟨g, rest, hgs⟩ := List.exists_cons_of_ne_nil (List.ne_nil_of_length_eq_add_one h8)
  obtain ⟨c, t, htext, hc⟩ := joinGroups_cons (groups_lt ip g (by simp [hgs])) rest
  rw [← hgs] at htext
  intro hlocal
  simp only [isLocalName, Bool.or_eq_true, decide_eq_true_eq] at hlocal
  obtain (hname | hname) | hname := hlocal
  · rw [hname] at hcolon
    exact absurd hcolon (by decide)
  · rw [hname] at hcolon
    exact absurd hcolon (by decide)
  · rw [hname] at htext
    exact hc (List.cons.inj htext).1.symm

/-- A name below `a.` is no address. -/
theorem parseIP_name (s : Str) : parseIP ('a' :: '.' :: s) = none := by
  have hsplit : ('a' :: '.' :: s).splitOn '.' = ['a'] :: s.splitOn '.' := by
    simp [List.splitOn, List.splitOnP_cons_eq_if_modifyHead]
  have hoctet : parseOctet ['a'] = none := by decide
  have hv4 : parseIPv4 ('a' :: '.' :: s) = none := by
    unfold parseIPv4
    rw [hsplit]
    split
    · rename_i h
      obtain ⟨rfl, -⟩ := List.cons.inj h
      simp [hoctet]
    · rfl
  simp [parseIP, parseAddr, hv4]

section router

variable [Unicode]

/-! ## Remote LANs always change some decision -/

/-- Blank entries change nothing. -/
theorem setRemoteLANs_blank (rm : RuleManager) {lans : List Str}
    (h : ∀ e ∈ lans, trimSpace e = []) : rm.setRemoteLANs lans = rm := by
  have hnone : remoteEntries lans = [] := by
    simpa [remoteEntries, List.filter_eq_nil_iff] using h
  simp [RuleManager.setRemoteLANs, hnone]

/-- Without rules and remote LANs everything goes out directly. -/
theorem matchContext_no_rules (direct : Bool) (ctx : MatchContext) :
    ((newRuleManager []).setDirectDNS direct).matchContext ctx = (.direct, []) := by
  unfold RuleManager.matchContext
  split
  · rfl
  split
  · rfl
  split
  · split
    · rename_i h
      cases h
    split
    · rfl
    · rfl
  · rfl

/-- Every remote network has an address that it sends to the proxy. -/
theorem remote_net_is_proxied (rm : RuleManager) {entry : Str} {n : IPNet}
    (hn : remoteNet entry = some n) (hmem : n ∈ rm.remoteLANs) :
    ∃ ctx, (rm.matchContext ctx).1 = .proxy := by
  obtain ⟨s, hs⟩ := remoteNet_spec hn
  obtain ⟨hlen, hmask⟩ := length_parseCIDR hs
  obtain ⟨ip, hip, h16⟩ : ∃ ip, to16 n.ip = some ip ∧ ip.length = 16 := by
    rcases hlen with h | h
    · exact ⟨v4InV6Prefix ++ n.ip, by simp [to16, h], by simp [h, v4InV6Prefix]⟩
    · exact ⟨n.ip, by simp [to16, h], h⟩
  have hcontains : netContains n ip = true := by
    rw [netContains_to16 hip]
    exact netContains_self hmask
  refine ⟨{ MatchContext.blank with host := joinGroups (groups ip) }, ?_⟩
  rw [matchContext_ip (parseIP_joinGroups h16) (by simp [MatchContext.blank])
    (not_isLocalName_joinGroups h16), if_pos]
  exact List.any_eq_true.mpr ⟨n, hmem, hcontains⟩

/-- So has every remote domain a name. -/
theorem remote_domain_is_proxied (rm : RuleManager) {entry : Str}
    (hmem : remoteRule entry ∈ rm.rules) (hall : ∀ r ∈ rm.rules, r.action = .proxy) :
    ∃ ctx, (rm.matchContext ctx).1 = .proxy := by
  let q := trimPrefix entry "*"
  obtain ⟨s, hfits⟩ : ∃ s, domainFits q ('a' :: '.' :: s) := by
    unfold domainFits
    by_cases hdot : hasPrefix q "."
    · obtain ⟨s, hs⟩ := List.isPrefixOf_iff_prefix.mp hdot
      refine ⟨s, ?_⟩
      rw [if_pos hdot, ← hs]
      simp [hasSuffix, List.suffix_cons]
    · refine ⟨q, ?_⟩
      rw [if_neg hdot]
      simp [hasSuffix, List.suffix_cons]
  let ctx : MatchContext := { MatchContext.blank with host := 'a' :: '.' :: s }
  refine ⟨ctx, ?_⟩
  have hfind : ∃ r, rm.rules.find? (fun r => r.fits ctx) = some r := by
    apply Option.isSome_iff_exists.mp
    rw [List.find?_isSome]
    exact ⟨remoteRule entry, hmem, Bool.and_eq_true_iff.mpr ⟨rfl, hfits⟩⟩
  obtain ⟨r, hr⟩ := hfind
  have hrules : (rm.byRules ctx).1 = .proxy := by
    unfold RuleManager.byRules
    rw [hr]
    exact hall r (List.mem_of_find?_eq_some hr)
  have hlocal : ¬ isLocalName ctx.host := by simp [isLocalName, ctx]
  unfold RuleManager.matchContext
  rw [if_neg (by simp [ctx, MatchContext.blank]), if_neg hlocal, parseIP_name s]
  exact hrules

/-- An entry that is not blank sends something to the proxy, even when there are no rules. -/
theorem remote_entry_is_proxied {lans : List Str} (direct : Bool)
    (h : ¬ ∀ e ∈ lans, trimSpace e = []) :
    ∃ ctx, ((((newRuleManager []).setRemoteLANs lans).setDirectDNS direct).matchContext ctx).1 =
      .proxy := by
  simp only [not_forall] at h
  obtain ⟨e, he, hblank⟩ := h
  have hentry : trimSpace e ∈ remoteEntries lans := by
    simp only [remoteEntries, List.mem_filter, List.mem_map, decide_eq_true_eq]
    exact ⟨⟨e, he, rfl⟩, hblank⟩
  cases hn : remoteNet (trimSpace e) with
  | some n =>
    apply remote_net_is_proxied _ hn
    exact List.mem_append_right _ (List.mem_filterMap.mpr ⟨_, hentry, hn⟩)
  | none =>
    have hfilter : trimSpace e ∈ (remoteEntries lans).filter (fun x => (remoteNet x).isNone) :=
      List.mem_filter.mpr ⟨hentry, by simp [hn]⟩
    apply remote_domain_is_proxied _ (List.mem_append_left _ (List.mem_map_of_mem hfilter))
    intro r hr
    obtain hr | hr := List.mem_append.mp hr
    · obtain ⟨x, -, rfl⟩ := List.mem_map.mp hr
      rfl
    · cases hr

end router

/-! ## The law -/

section reload

variable [Regexp] [Unicode]

/-- The two handlers decide alike. -/
structure SameDecisions (ph ph' : ProxyHandler) : Prop where
  rules : ∀ ctx, ph.rm.matchContext ctx = ph'.rm.matchContext ctx
  rewrites : ∀ reqURL host, ph.matchRewrite reqURL host = ph'.matchRewrite reqURL host

/-- Two lists of rewrites answer every request alike. -/
def SameRewrites (r r' : List Str) : Prop :=
  ∀ reqURL host, (newRewriteEngine r).bind (fun re => re.matchRequest reqURL host) =
    (newRewriteEngine r').bind (fun re => re.matchRequest reqURL host)

/-- A handler that is set up answers with the engine of its rewrites. -/
theorem matchRewrite_setupServices (a : App) (cfg : Config) (reqURL host : Str) :
    (setupServices a cfg).matchRewrite reqURL host =
      (newRewriteEngine cfg.rewrites).bind (fun re => re.matchRequest reqURL host) := by
  by_cases h : cfg.rewrites = []
  · simp [ProxyHandler.matchRewrite, setupServices, newProxyHandler, h, newRewriteEngine,
      RewriteEngine.matchRequest, RewriteEngine.empty, firstHit]
  · simp [ProxyHandler.matchRewrite, setupServices, h]

theorem rm_reload (ph : ProxyHandler) (kind : Reload) (cfg : Config) :
    (ph.reload kind cfg).rm =
      (newRuleManager cfg.rules).setDirectDNS (cfg.directDNS.getD true) := by
  cases kind <;> rfl

theorem rm_setupServices (a : App) (cfg : Config) :
    (setupServices a cfg.withDefaults).rm =
      ((newRuleManager cfg.rules).setRemoteLANs cfg.remoteLANs).setDirectDNS
        (cfg.directDNS.getD true) := by
  by_cases h : cfg.remoteLANs = []
  · have hblank : (newRuleManager cfg.rules).setRemoteLANs [] = newRuleManager cfg.rules :=
      setRemoteLANs_blank _ (by simp)
    simp [setupServices, Config.withDefaults, newProxyHandler, h, hblank]
  · simp [setupServices, Config.withDefaults, newProxyHandler, h]

/-- After a reload the answers are those of the new rewrites, or for a post of the old. -/
theorem matchRewrite_reload (a : App) (kind : Reload) (c0 c1 : Config)
    (h : (newRewriteEngine c1.rewrites).isSome) (reqURL host : Str) :
    ((setupServices a c0.withDefaults).reload kind c1).matchRewrite reqURL host =
      (newRewriteEngine (if kind = .post then c0.rewrites else c1.rewrites)).bind
        (fun re => re.matchRequest reqURL host) := by
  cases kind with
  | post => exact matchRewrite_setupServices a c0.withDefaults reqURL host
  | watch =>
    obtain ⟨re, hre⟩ := Option.isSome_iff_exists.mp h
    by_cases hne : c1.rewrites = []
    · simp [ProxyHandler.matchRewrite, ProxyHandler.reload, ProxyHandler.watchConfig,
        Config.withDefaults, hne, newRewriteEngine, RewriteEngine.matchRequest,
        RewriteEngine.empty, firstHit]
    · simp [ProxyHandler.matchRewrite, ProxyHandler.reload, ProxyHandler.watchConfig,
        Config.withDefaults, hne, hre]

/-- A reload is a restart for all configurations with these remote LANs and rewrites exactly
when the remote LANs are blank and, for a post, the old and the new rewrites answer alike. -/
theorem reload_is_restart (a : App) (kind : Reload) (lans r0 r1 : List Str)
    (h1 : (newRewriteEngine r1).isSome) :
    (∀ c0 c1 : Config, c0.rewrites = r0 → c1.rewrites = r1 → c1.remoteLANs = lans →
      SameDecisions ((setupServices a c0.withDefaults).reload kind c1)
        (setupServices a c1.withDefaults)) ↔
      (∀ e ∈ lans, trimSpace e = []) ∧ (kind = .post → SameRewrites r0 r1) := by
  constructor
  · intro hall
    have hsame := hall (bareConfig r0 []) (bareConfig r1 lans) rfl rfl rfl
    constructor
    · -- Otherwise the restarted handler sends to the proxy what the reloaded one sends directly.
      by_contra hblank
      obtain ⟨ctx, hctx⟩ := remote_entry_is_proxied true hblank
      have hrules := hsame.rules ctx
      rw [rm_reload, rm_setupServices] at hrules
      change ((newRuleManager []).setDirectDNS true).matchContext ctx =
        (((newRuleManager []).setRemoteLANs lans).setDirectDNS true).matchContext ctx at hrules
      rw [← hrules, matchContext_no_rules] at hctx
      cases hctx
    · rintro rfl reqURL host
      have hrewrite := hsame.rewrites reqURL host
      rw [matchRewrite_reload a .post _ _ h1, matchRewrite_setupServices] at hrewrite
      exact hrewrite
  · rintro ⟨hblank, hpost⟩ c0 c1 rfl rfl rfl
    refine ⟨fun ctx => ?_, fun reqURL host => ?_⟩
    · rw [rm_reload, rm_setupServices, setRemoteLANs_blank _ hblank]
    · rw [matchRewrite_reload a kind c0 c1 h1, matchRewrite_setupServices]
      cases kind with
      | watch => rfl
      | post => exact hpost rfl reqURL host

end reload

/-- A watched file with a new rewrite and no remote LANs. -/
theorem watched_rewrite_is_restart :
    SameDecisions
      ((setupServices ⟨0, 8118, 0⟩ (bareConfig [] []).withDefaults).reload .watch
        (bareConfig ["https://a.cn/x file:///y"] []))
      (setupServices ⟨0, 8118, 0⟩ (bareConfig ["https://a.cn/x file:///y"] []).withDefaults) :=
  (reload_is_restart ⟨0, 8118, 0⟩ .watch [] [] ["https://a.cn/x file:///y"]
    (by decide +kernel)).mpr ⟨by simp, by simp⟩ (bareConfig [] []) (bareConfig _ []) rfl rfl rfl

/-- A reload sends a remote LAN directly, and a restart sends it to the proxy. A post keeps a
rewrite that the new configuration does not have. -/
theorem reload_loses_remote_lans :
    (∀ kind, ((setupServices ⟨0, 8118, 0⟩ (bareConfig [] ["10.0.0.0/8"]).withDefaults).reload kind
        (bareConfig [] ["10.0.0.0/8"])).rm.matchContext
          { MatchContext.blank with host := "10.1.2.3" } = (.direct, [])) ∧
      (setupServices ⟨0, 8118, 0⟩ (bareConfig [] ["10.0.0.0/8"]).withDefaults).rm.matchContext
        { MatchContext.blank with host := "10.1.2.3" } = (.proxy, []) ∧
      ((setupServices ⟨0, 8118, 0⟩ (bareConfig ["https://a.cn/x file:///y"] []).withDefaults).reload
        .post (bareConfig [] [])).matchRewrite "https://a.cn/x" "a.cn" =
          some ⟨.mock, [], "/y"⟩ := by
  refine ⟨fun kind => ?_, by decide +kernel, by decide +kernel⟩
  cases kind <;> decide +kernel

end vproxy
