-- Rules for domains. A rule takes the hosts that end in the labels of its pattern. It compares
-- them as texts, so another spelling of a name, in other letters or with a dot at the end, is
-- another host.
import Vproxy.RouterReference

open go go.net

namespace vproxy

/-! ## Labels -/

/-- The labels of a name, from left to right. -/
def labels (name : Str) : List Str := name.splitOn '.'

theorem intercalate_append {α : Type} (sep : List α) {front rest : List (List α)}
    (hfront : front ≠ []) (hrest : rest ≠ []) :
    sep.intercalate (front ++ rest) = sep.intercalate front ++ sep ++ sep.intercalate rest := by
  induction front with
  | nil => exact absurd rfl hfront
  | cons first more ih =>
    by_cases hmore : more = []
    · rw [hmore, List.singleton_append, List.intercalate_cons_of_ne_nil hrest,
        List.intercalate_singleton]
    · rw [List.cons_append, List.intercalate_cons_of_ne_nil (by simp [hmore]), ih hmore,
        List.intercalate_cons_of_ne_nil hmore]
      simp only [List.append_assoc]

/-- The labels of one name end those of another when the names are the same, or the other goes
on in front with a dot. -/
theorem labels_suffix_iff (name host : Str) :
    labels name <:+ labels host ↔ host = name ∨ '.' :: name <:+ host := by
  constructor
  · rintro ⟨front, hfront⟩
    have hhost : ['.'].intercalate (front ++ labels name) = host := by
      rw [hfront]
      exact List.intercalate_splitOn '.'
    have hname : ['.'].intercalate (labels name) = name := List.intercalate_splitOn '.'
    have hne : labels name ≠ [] := List.splitOn_ne_nil _ _
    by_cases hnil : front = []
    · rw [hnil, List.nil_append, hname] at hhost
      exact .inl hhost.symm
    · rw [intercalate_append _ hnil hne, hname] at hhost
      exact .inr ⟨['.'].intercalate front, by simpa using hhost⟩
  · rintro (rfl | ⟨front, rfl⟩)
    · exact List.suffix_rfl
    · exact ⟨labels front, (List.splitOn_append_cons_self front name).symm⟩

section

variable [Unicode] {rm : RuleManager}

omit [Unicode] in
theorem domainFits_dot {pattern : Str} (h : ¬ hasPrefix pattern ".") (host : Str) :
    domainFits ('.' :: pattern) host = domainFits pattern host := by
  have htrim : trimPrefix ('.' :: pattern) "." = pattern := rfl
  have hsame : trimPrefix pattern "." = pattern := if_neg h
  rw [Bool.eq_iff_iff, domainFits_iff, domainFits_iff, htrim, hsame]

theorem fits_dot {pattern : Str} (h : ¬ hasPrefix pattern ".") (a : RuleAction) (t : Str) :
    Rule.fits ⟨.domain ('.' :: pattern), a, t⟩ = Rule.fits ⟨.domain pattern, a, t⟩ := by
  funext ctx
  simp only [Rule.fits, domainFits_dot h]

/-- The manager with these rules, one of them in the middle. -/
def RuleManager.withRule (rm : RuleManager) (front : List Rule) (r : Rule) (rest : List Rule) :
    RuleManager := { rm with rules := front ++ r :: rest }

/-- A rule for a domain takes the hosts that end in its labels, whole labels only, and a dot at
the front of its pattern changes nothing. -/
theorem domain_rule_goes_by_labels :
    (∀ (rm : RuleManager) (pattern : Str) (a : RuleAction) (t host : Str),
      rm.rules = [⟨.domain pattern, a, t⟩] → a ≠ rm.defaultAction →
        host ≠ [] → parseIP host = none → host ≠ "localhost" →
          ((rm.matchContext { MatchContext.blank with host }).1 = a ↔
            labels (trimPrefix pattern ".") <:+ labels host)) ∧
    ∀ (rm : RuleManager) (front rest : List Rule) (pattern : Str) (a : RuleAction) (t : Str),
      ¬ hasPrefix pattern "." → ∀ ctx,
        (rm.withRule front ⟨.domain pattern, a, t⟩ rest).matchContext ctx =
          (rm.withRule front ⟨.domain ('.' :: pattern), a, t⟩ rest).matchContext ctx := by
  constructor
  · intro rm pattern a t host hrules hother hne hip hlocal
    rw [matchContext_name (by simp [MatchContext.blank]) hip hlocal, labels_suffix_iff,
      ← domainFits_iff]
    unfold RuleManager.byRules
    rw [hrules]
    cases hfits : domainFits pattern host with
    | true => simp [Rule.fits, hne, hfits]
    | false => simp [Rule.fits, hfits, Ne.symm hother]
  · intro rm front rest pattern a t hdot ctx
    have hfits := congrFun (fits_dot hdot a t) ctx
    refine matchContext_congr ?_ ?_ ?_
    · rfl
    · rfl
    unfold RuleManager.byRules RuleManager.withRule
    simp only [List.find?_append, List.find?_cons, hfits]
    cases front.find? (fun r => r.fits ctx) with
    | some r => rfl
    | none => cases Rule.fits ⟨.domain pattern, a, t⟩ ctx <;> rfl

end

/-- The rule takes a host below its domain, and no host that only ends in the same letters. -/
theorem subdomain_is_taken :
    ((newRuleManager ["DOMAIN,.a.cn,BLOCK"]).matchContext
      { MatchContext.blank with host := "w.a.cn" }).1 = .block ∧
    ((newRuleManager ["DOMAIN,.a.cn,BLOCK"]).matchContext
      { MatchContext.blank with host := "wa.cn" }).1 ≠ .block := by
  have hrules : (newRuleManager ["DOMAIN,.a.cn,BLOCK"]).rules = [⟨.domain ".a.cn", .block, []⟩] := by
    decide
  have hlaw := domain_rule_goes_by_labels.1 (newRuleManager ["DOMAIN,.a.cn,BLOCK"]) ".a.cn" .block []
  constructor
  · refine (hlaw "w.a.cn" hrules ?_ ?_ ?_ ?_).mpr ?_
    all_goals decide
  · rw [ne_eq, hlaw "wa.cn" hrules (by decide) (by decide) (by decide) (by decide)]
    decide

section

variable [Unicode]

/-! ## Spellings -/

/-- The name in small letters and without the dot of the root. -/
def dnsName (host : Str) : Str := (trimSuffix host ".").map Char.toLower

/-- The hosts differ at most in the case of letters and in one dot at the end. -/
def SameName (host host' : Str) : Prop := dnsName host = dnsName host'

instance (host host' : Str) : Decidable (SameName host host') :=
  inferInstanceAs (Decidable (_ = _))

/-- The text of a private address that is not one of the texts for this machine. -/
def IsPrivateText (host : Str) (ip : IP) : Prop :=
  ¬ isLocalName host ∧ parseIP host = some ip ∧ isPrivateIP ip

/-- The network of one address. -/
def hostNet (ip : IP) : IPNet := ⟨ip, List.replicate 16 255⟩

omit [Unicode] in
/-- The form that is compared determines an address. -/
theorem getD_to4_inj {ip ip' : IP} (h : ip.length = 16) (h' : ip'.length = 16)
    (heq : (to4 ip).getD ip = (to4 ip').getD ip') : ip = ip' := by
  have hcases : ∀ {x : IP}, x.length = 16 →
      (to4 x).getD x = x ∨ x = v4InV6Prefix ++ (to4 x).getD x := by
    intro x hx
    by_cases hmapped : x.take 12 = v4InV6Prefix
    · right
      rw [to4, if_neg (by omega), if_pos ⟨hx, hmapped⟩, Option.getD_some, ← hmapped,
        List.take_append_drop]
    · left
      rw [to4, if_neg (by omega), if_neg (fun hboth => hmapped hboth.2), Option.getD_none]
  have hlen : v4InV6Prefix.length = 12 := rfl
  rcases hcases h with hip | hip <;> rcases hcases h' with hip' | hip'
  · rw [← hip, heq, hip']
  · have := congrArg List.length hip'
    rw [List.length_append, ← heq, hip] at this
    omega
  · have := congrArg List.length hip
    rw [List.length_append, heq, hip'] at this
    omega
  · rw [hip, heq, ← hip']

omit [Unicode] in
theorem netContains_hostNet {ip ip' : IP} (h : ip.length = 16) (h' : ip'.length = 16) :
    netContains (hostNet ip) ip' = true ↔ ip' = ip := by
  constructor
  · intro hin
    have hnet : networkNumberAndMask (hostNet ip) =
        ((to4 ip).getD ip, List.replicate ((to4 ip).getD ip).length 255) := by
      unfold networkNumberAndMask hostNet
      cases h4 : to4 ip with
      | some a => simp [length_to4 h4]
      | none => simp [h]
    unfold netContains at hin
    rw [hnet] at hin
    simp only [Bool.and_eq_true, beq_iff_eq] at hin
    obtain ⟨⟨hlen, -⟩, hmask⟩ := hin
    rw [maskIP_ones, ← hlen, maskIP_ones] at hmask
    exact getD_to4_inj h' h hmask.symm
  · rintro rfl
    exact netContains_self (n := hostNet ip') (by simp [hostNet, h])

/-- Some manager gives the hosts different actions. -/
def Told (host host' : Str) : Prop :=
  ∃ rm : RuleManager, (rm.matchContext { MatchContext.blank with host := host }).1 ≠
    (rm.matchContext { MatchContext.blank with host := host' }).1

theorem Told.symm {host host' : Str} : Told host host' → Told host' host := by
  rintro ⟨rm, hne⟩
  exact ⟨rm, hne.symm⟩

/-- A manager with one remote LAN of one address tells the address from every other host. -/
theorem remoteLAN_tells {host host' : Str} (hlocal : ¬ isLocalName host)
    (hsome : (parseIP host).isSome) (hne : isLocalName host' ∨ parseIP host ≠ parseIP host') :
    Told host host' := by
  obtain ⟨ip, hip⟩ := Option.isSome_iff_exists.mp hsome
  have hlen := length_parseIP hip
  refine ⟨⟨[], [hostNet ip], .direct, false⟩, ?_⟩
  have hproxy : (RuleManager.matchContext ⟨[], [hostNet ip], .direct, false⟩
      { MatchContext.blank with host := host }).1 = .proxy := by
    rw [matchContext_ip hip (by simp) hlocal]
    have hin : netContains (hostNet ip) ip = true := (netContains_hostNet hlen hlen).mpr rfl
    simp [RuleManager.inRemoteLAN, hin]
  have hdirect : (RuleManager.matchContext ⟨[], [hostNet ip], .direct, false⟩
      { MatchContext.blank with host := host' }).1 = .direct := by
    refine matchContext_direct ?_ rfl
    intro hlocal' ip' hip'
    have hout : netContains (hostNet ip) ip' = false := by
      rw [← Bool.not_eq_true, netContains_hostNet hlen (length_parseIP hip')]
      rintro rfl
      exact hne.resolve_left hlocal' (hip.trans hip'.symm)
    simp [RuleManager.inRemoteLAN, hout]
  rw [hproxy, hdirect]
  decide

/-- A host that comes to the rules is told from every shorter host by a rule for it. -/
theorem domain_rule_tells {host host' : Str} (hlong : host'.length ≤ host.length)
    (hne : host ≠ host') (hlocal : ¬ isLocalName host)
    (hip : ∀ ip, parseIP host = some ip → ¬ isPrivateIP ip) : Told host host' := by
  have htrim : trimPrefix ('.' :: host) "." = host := rfl
  have hempty : host ≠ [] := by
    rintro rfl
    exact hne (List.length_eq_zero_iff.mp (Nat.le_zero.mp hlong)).symm
  have hfits : domainFits ('.' :: host) host = true := by
    rw [domainFits_iff, htrim]
    exact .inl rfl
  have hnot : domainFits ('.' :: host) host' = false := by
    rw [← Bool.not_eq_true, domainFits_iff, htrim]
    rintro (heq | hsuffix)
    · exact hne heq.symm
    · have := hsuffix.length_le
      rw [List.length_cons] at this
      omega
  refine ⟨⟨[⟨.domain ('.' :: host), .block, []⟩], [], .direct, false⟩, ?_⟩
  have hblock : (RuleManager.matchContext ⟨[⟨.domain ('.' :: host), .block, []⟩], [], .direct, false⟩
      { MatchContext.blank with host := host }).1 = .block := by
    rw [matchContext_rules (by simp) hlocal]
    · simp [RuleManager.byRules, Rule.fits, hempty, hfits]
    · exact fun ip hsome => ⟨Bool.false_ne_true, hip ip hsome⟩
  have hdirect : (RuleManager.matchContext
      ⟨[⟨.domain ('.' :: host), .block, []⟩], [], .direct, false⟩
      { MatchContext.blank with host := host' }).1 = .direct := by
    refine matchContext_direct (fun _ _ _ => Bool.false_ne_true) ?_
    simp [RuleManager.byRules, Rule.fits, hnot]
  rw [hblock, hdirect]
  decide

/-- The default tells a text for this machine from a name. -/
theorem default_tells {host host' : Str} (hlocal : isLocalName host) (hlocal' : ¬ isLocalName host')
    (hip : parseIP host' = none) : Told host host' := by
  refine ⟨⟨[], [], .block, false⟩, ?_⟩
  unfold RuleManager.matchContext
  rw [if_neg (by simp), if_pos hlocal, if_neg (by simp), if_neg hlocal', hip]
  exact nofun

omit [Unicode] in
theorem eq_of_isLocalName {host host' : Str} (hlocal : isLocalName host)
    (hlocal' : isLocalName host') (hsame : SameName host host') : host = host' := by
  have hall : ∀ a ∈ [("localhost" : Str), "127.0.0.1", "::1"],
      ∀ b ∈ [("localhost" : Str), "127.0.0.1", "::1"], SameName a b → a = b := by decide
  simp only [isLocalName, Bool.or_eq_true, decide_eq_true_eq] at hlocal hlocal'
  apply hall
  · simpa [or_assoc] using hlocal
  · simpa [or_assoc] using hlocal'
  · exact hsame

/-- Different hosts that both come to the rules are told apart. -/
theorem rules_tell {host host' : Str} (hne : host ≠ host') (hlocal : ¬ isLocalName host)
    (hlocal' : ¬ isLocalName host') (hparse : parseIP host = parseIP host')
    (hip : ∀ ip, parseIP host = some ip → ¬ isPrivateIP ip) : Told host host' := by
  rcases Nat.le_total host'.length host.length with hle | hle
  · exact domain_rule_tells hle hne hlocal hip
  · exact (domain_rule_tells hle hne.symm hlocal' (hparse ▸ hip)).symm

theorem spellings_are_told {host host' : Str} (hsame : SameName host host') (hne : host ≠ host')
    (hprivate : ¬ ∃ ip, IsPrivateText host ip ∧ IsPrivateText host' ip) : Told host host' := by
  by_cases hlocal : isLocalName host <;> by_cases hlocal' : isLocalName host'
  · exact absurd (eq_of_isLocalName hlocal hlocal' hsame) hne
  · cases hip : parseIP host' with
    | none => exact default_tells hlocal hlocal' hip
    | some ip => exact (remoteLAN_tells hlocal' (by simp [hip]) (.inl hlocal)).symm
  · cases hip : parseIP host with
    | none => exact (default_tells hlocal' hlocal hip).symm
    | some ip => exact remoteLAN_tells hlocal (by simp [hip]) (.inl hlocal')
  · by_cases hparse : parseIP host = parseIP host'
    · apply rules_tell hne hlocal hlocal' hparse
      intro ip hip hpriv
      exact hprivate ⟨ip, ⟨hlocal, hip, hpriv⟩, hlocal', hparse ▸ hip, hpriv⟩
    · cases hip : parseIP host with
      | some ip => exact remoteLAN_tells hlocal (by simp [hip]) (.inr hparse)
      | none =>
        have hsome : (parseIP host').isSome := by
          rw [← Option.ne_none_iff_isSome]
          exact fun hnone => hparse (hip.trans hnone.symm)
        exact (remoteLAN_tells hlocal' hsome (.inr (Ne.symm hparse))).symm

omit [Unicode] in
theorem length_trimSuffix_dot (s : Str) :
    (trimSuffix s ".").length + (if hasSuffix s "." then 1 else 0) = s.length := by
  unfold trimSuffix
  split
  · rename_i hdot
    have hle := (List.isSuffixOf_iff_suffix.mp hdot).length_le
    simp at hle ⊢
    omega
  · rfl

omit [Unicode] in
/-- A rule for a domain does not take the domain in another spelling. -/
theorem domainFits_respelled {pattern host : Str} (hsame : SameName pattern host)
    (hne : pattern ≠ host) (hempty : pattern ≠ []) (hdot : ¬ hasPrefix pattern ".") :
    domainFits pattern host = false := by
  have htrim : trimPrefix pattern "." = pattern := if_neg hdot
  rw [← Bool.not_eq_true, domainFits_iff, htrim]
  rintro (heq | hsuffix)
  · exact hne heq.symm
  · have hlen := congrArg List.length hsame
    simp only [dnsName, List.length_map] at hlen
    have hpattern := length_trimSuffix_dot pattern
    have hhost := length_trimSuffix_dot host
    have hle := hsuffix.length_le
    rw [List.length_cons] at hle
    -- The host is one longer, so it ends in the dot and the pattern does not.
    have hends : hasSuffix host "." = true ∧ ¬ hasSuffix pattern "." = true := by
      split at hhost <;> split at hpattern <;> first | omega | exact ⟨by assumption, by assumption⟩
    apply hends.2
    have hlong : pattern <:+ host := (List.suffix_cons '.' pattern).trans hsuffix
    have hlast : ".".toList <:+ host := List.isSuffixOf_iff_suffix.mp hends.1
    exact List.isSuffixOf_iff_suffix.mpr
      (List.suffix_of_suffix_length_le hlast hlong (List.length_pos_iff.mpr hempty))

/-- Two spellings of a name come to the same action in every manager exactly when they are the
same text, or both are texts of one private address; and no rule for a domain takes the domain
in another spelling. -/
theorem routing_goes_by_the_spelling :
    (∀ host host' : Str, SameName host host' →
      ((∀ (rm : RuleManager) (ctx : MatchContext),
        (rm.matchContext { ctx with host := host }).1 =
          (rm.matchContext { ctx with host := host' }).1) ↔
        host = host' ∨ ∃ ip, IsPrivateText host ip ∧ IsPrivateText host' ip)) ∧
    ∀ domain host : Str, SameName domain host → domain ≠ host → domain ≠ [] →
      ¬ hasPrefix domain "." → ∀ (a : RuleAction) (t : Str) (ctx : MatchContext),
        Rule.fits ⟨.domain domain, a, t⟩ { ctx with host := host } = false := by
  constructor
  · intro host host' hsame
    constructor
    · intro hall
      by_contra hnot
      rw [not_or] at hnot
      obtain ⟨rm, htold⟩ := spellings_are_told hsame hnot.1 hnot.2
      exact htold (hall rm MatchContext.blank)
    · rintro (rfl | ⟨ip, ⟨hlocal, hip, hpriv⟩, hlocal', hip', -⟩) rm ctx
      · rfl
      · by_cases hdns : rm.directDNS && ctx.port = 53
        · unfold RuleManager.matchContext
          rw [if_pos hdns, if_pos hdns]
        · have hmatch : rm.matchContext { ctx with host := host } = _ :=
            matchContext_ip hip hdns hlocal
          have hmatch' : rm.matchContext { ctx with host := host' } = _ :=
            matchContext_ip hip' hdns hlocal'
          rw [hmatch, hmatch', if_pos hpriv, if_pos hpriv]
  · intro domain host hsame hne hempty hdot a t ctx
    have hnot := domainFits_respelled hsame hne hempty hdot
    unfold Rule.fits
    dsimp only
    rw [hnot, Bool.and_false]

end

/-- A private address in capitals and in small letters comes to the same action. -/
theorem private_spellings_agree :
    SameName "FE80::A" "fe80::a" ∧
      ((newRuleManager ["DOMAIN,fe80::a,BLOCK"]).matchContext ⟨"FE80::A", 443, [], 0, []⟩).1 =
        ((newRuleManager ["DOMAIN,fe80::a,BLOCK"]).matchContext ⟨"fe80::a", 443, [], 0, []⟩).1 := by
  have hsame : SameName "FE80::A" "fe80::a" := by decide
  have hprivate : ∃ ip, IsPrivateText "FE80::A" ip ∧ IsPrivateText "fe80::a" ip :=
    ⟨[0xfe, 0x80, 0, 0, 0, 0, 0, 0, 0, 0, 0, 0, 0, 0, 0, 0x0a], ⟨by decide, by decide, by decide⟩,
      by decide, by decide, by decide⟩
  exact ⟨hsame, (routing_goes_by_the_spelling.1 _ _ hsame).mpr (.inr hprivate) _
    ⟨[], 443, [], 0, []⟩⟩

/-- A BLOCK rule takes the domain, and not the domain in capitals or with a dot at the end. -/
theorem blocked_domain_is_respelled :
    SameName "ads.com" "ADS.com" ∧ SameName "ads.com" "ads.com." ∧
      ((newRuleManager ["DOMAIN,ads.com,BLOCK"]).matchContext ⟨"ads.com", 443, [], 0, []⟩).1 =
        .block ∧
      ((newRuleManager ["DOMAIN,ads.com,BLOCK"]).matchContext ⟨"ADS.com", 443, [], 0, []⟩).1 =
        .direct ∧
      ((newRuleManager ["DOMAIN,ads.com,BLOCK"]).matchContext ⟨"ads.com.", 443, [], 0, []⟩).1 =
        .direct := by
  decide

end vproxy
