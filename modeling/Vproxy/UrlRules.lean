-- Rules for URLs, on a connection of which only the host is known. The rule of a URL should
-- take the host of the URL and no other. It takes every host whose name stands somewhere in
-- the pattern, and there is always one that is not its own.
import Vproxy.Ingress
import Vproxy.TypedRules

open go go.net go.url go.regexp

namespace vproxy

section

variable [Unicode]

/-! ## The hosts a rule takes -/

/-- The match takes its action and its target from this rule. -/
def RuleManager.Selects (rm : RuleManager) (ctx : MatchContext) (r : Rule) : Prop :=
  rm.rules.find? (fun r => r.fits ctx) = some r ∧ rm.matchContext ctx = (r.action, r.target)

/-- A text that is neither an address nor this machine. -/
structure IsOrdinaryName (host : Str) : Prop where
  ne_nil : host ≠ []
  not_address : parseIP host = none
  not_local : host ≠ "localhost"

/-- An absolute URL of the web, with this host. -/
def IsWebURL (pattern host : Str) : Prop :=
  ∃ u, parse pattern = some u ∧ (u.scheme = "http" ∨ u.scheme = "https") ∧
    host ≠ [] ∧ u.hostname = host

omit [Unicode] in
theorem IsWebURL.host_part {pattern host : Str} (h : IsWebURL pattern host)
    (hplain : '%' ∉ pattern) : host <:+: pattern := by
  obtain ⟨u, hparse, -, -, rfl⟩ := h
  exact hostname_part hplain hparse

theorem fits_url {r : Rule} {pattern : Str} (htype : r.type = .url pattern) {ctx : MatchContext}
    (hurl : ctx.url = []) (hhost : ctx.host ≠ []) : r.fits ctx = true ↔ ctx.host <:+: pattern := by
  unfold Rule.fits
  rw [htype]
  simp [hurl, hhost, contains_iff]

/-- The only rule takes the host or the default does. -/
theorem matchContext_only {rm : RuleManager} {r : Rule} (hrules : rm.rules = [r])
    {ctx : MatchContext} (hport : ctx.port ≠ 53) (hname : IsOrdinaryName ctx.host) :
    rm.matchContext ctx = if r.fits ctx then (r.action, r.target) else (rm.defaultAction, []) := by
  rw [matchContext_name (by simp [hport]) hname.not_address hname.not_local]
  unfold RuleManager.byRules
  rw [hrules]
  cases hfits : r.fits ctx <;> simp [hfits]

theorem selects_iff {rm : RuleManager} {r : Rule} (hrules : rm.rules = [r])
    {ctx : MatchContext} (hport : ctx.port ≠ 53) (hname : IsOrdinaryName ctx.host) :
    rm.Selects ctx r ↔ r.fits ctx = true := by
  unfold RuleManager.Selects
  rw [matchContext_only hrules hport hname, hrules]
  constructor
  · rintro ⟨hfind, -⟩
    simpa using hfind
  · intro hfits
    simp [hfits]

theorem url_rule_selected_iff {rm : RuleManager} {r : Rule} {pattern host : Str}
    (hrules : rm.rules = [r]) (htype : r.type = .url pattern) (hname : IsOrdinaryName host) :
    rm.Selects { MatchContext.blank with host := host } r ↔ host <:+: pattern := by
  rw [selects_iff hrules (by simp [MatchContext.blank]) hname]
  exact fits_url htype rfl hname.ne_nil

/-- The only rule is for a URL, and a host is no address and not this machine. The rule takes
this host just when it is the host of the URL, unless another host stands in the pattern or the
pattern has its own host in escapes only. -/
theorem url_rule_keeps_to_its_host_iff (rm : RuleManager) (r : Rule) (pattern own host : Str)
    (hrules : rm.rules = [r]) (htype : r.type = .url pattern) (hurl : IsWebURL pattern own)
    (hname : IsOrdinaryName host) :
    (rm.Selects { MatchContext.blank with host := host } r ↔ host = own) ↔
      (host <:+: pattern → host = own) ∧
        ('%' ∈ pattern → host = own → host <:+: pattern) := by
  rw [url_rule_selected_iff hrules htype hname]
  constructor
  · intro hlaw
    exact ⟨hlaw.mp, fun _ => hlaw.mpr⟩
  · rintro ⟨honly, hown⟩
    refine ⟨honly, ?_⟩
    intro heq
    by_cases hplain : '%' ∈ pattern
    · exact hown hplain heq
    · rw [heq]
      exact hurl.host_part hplain

/-! ## Entries and connections -/

variable [Regexp]

/-- A connection is intercepted when its host stands in the pattern, for an action that
intercepts and no rewrites. -/
theorem intercepts_iff_in_pattern {ph : ProxyHandler} (c : Client) {r : Rule} {pattern host : Str}
    (hrules : ph.rm.rules = [r]) (htype : r.type = .url pattern)
    (haction : r.action = .intercept ∨ r.action = .map)
    (hdefault : ph.rm.defaultAction ≠ .intercept ∧ ph.rm.defaultAction ≠ .map)
    (hrewrite : ph.isRewriteHost host = false) (hname : IsOrdinaryName host) :
    ph.intercepts c host = true ↔ host <:+: pattern := by
  have hfits : r.fits (ph.gateContext c host) = true ↔ host <:+: pattern :=
    fits_url htype rfl hname.ne_nil
  unfold ProxyHandler.intercepts ProxyHandler.gate
  rw [hrewrite, matchContext_only hrules (by simp [ProxyHandler.gateContext]) hname, ← hfits]
  cases r.fits (ph.gateContext c host) <;> simp [haction, hdefault]

end

/-! ## One mapped file -/

/-- The rule that serves one script from a file. -/
def scriptRule : Rule :=
  ⟨.url "https://api.example.com/js/main.js", .map, "file:///tmp/main.js"⟩

def scriptRules : RuleManager :=
  newRuleManager ["MAP,https://api.example.com/js/main.js,file:///tmp/main.js"]

theorem scriptRules_rules : scriptRules.rules = [scriptRule] := by decide +kernel

theorem isWebURL_script : IsWebURL "https://api.example.com/js/main.js" "api.example.com" :=
  ⟨⟨"https", "api.example.com", "/js/main.js", []⟩, by decide +kernel, .inr rfl, by decide,
    by decide +kernel⟩

/-- The rule takes the host of the script. -/
theorem script_rule_takes_its_host :
    scriptRules.Selects { MatchContext.blank with host := "api.example.com" } scriptRule := by
  have hname : IsOrdinaryName "api.example.com" := ⟨by decide, by decide +kernel, by decide⟩
  refine ((url_rule_keeps_to_its_host_iff scriptRules scriptRule _ _ _ scriptRules_rules rfl
    isWebURL_script hname).mpr ⟨fun _ => rfl, ?_⟩).mpr rfl
  intro hpercent
  exact absurd hpercent (by decide)

/-- The rule also takes the domain above, and TLS to that host is terminated. -/
theorem script_rule_takes_the_domain_above :
    scriptRules.rules = [scriptRule] ∧
      IsWebURL "https://api.example.com/js/main.js" "api.example.com" ∧
      IsOrdinaryName "example.com" ∧
      scriptRules.Selects { MatchContext.blank with host := "example.com" } scriptRule ∧
      ∀ (ph : ProxyHandler) (c : Client), ph.rm = scriptRules → ph.rewriteEngine = none →
        ph.intercepts c "example.com" = true := by
  have hname : IsOrdinaryName "example.com" := ⟨by decide, by decide +kernel, by decide⟩
  have hin : ("example.com" : Str) <:+: "https://api.example.com/js/main.js" := by
    rw [← contains_iff]
    decide
  refine ⟨scriptRules_rules, isWebURL_script, hname, ?_, ?_⟩
  · exact (url_rule_selected_iff scriptRules_rules rfl hname).mpr hin
  · rintro ph c hrm hengine
    have hdefault : scriptRules.defaultAction = .direct := by decide +kernel
    refine (intercepts_iff_in_pattern c (hrm ▸ scriptRules_rules) rfl (.inr rfl) ?_ ?_ hname).mpr hin
    · rw [hrm, hdefault]
      decide
    · simp [ProxyHandler.isRewriteHost, hengine]

end vproxy
