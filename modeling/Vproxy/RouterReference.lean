-- What the router is for, said without its code: which rules there are and in which order,
-- what a rule takes, which addresses are local, and what a request comes to. The router
-- does this in every state that its operations reach.
import Vproxy.RuleEntries
import Vproxy.AddrNumbers
import Vproxy.Runs
import Mathlib.Data.List.Infix
import Mathlib.Logic.Relation

open go go.net runs

namespace vproxy

/-! ## The operations after the start -/

inductive Change where
  | addPIDRule (pid : Int) (action : RuleAction)
  | setRemoteLANs (entries : List Str)
  | setDirectDNS (direct : Bool)

section

variable [Unicode]

def RuleManager.apply (rm : RuleManager) : Change → RuleManager
  | .addPIDRule pid action => rm.addPIDRule pid action
  | .setRemoteLANs entries => rm.setRemoteLANs entries
  | .setDirectDNS direct => rm.setDirectDNS direct

/-- The manager of these entries after these changes. -/
def managed (entries : List Str) (changes : List Change) : RuleManager :=
  run RuleManager.apply (newRuleManager entries) changes

/-! ## Rules and settings in their order -/

/-- The rule of an entry that adds one. -/
def ruleOf (entry : Str) : Option Rule :=
  match parseEntry entry with
  | some (.rule r) => some r
  | _ => none

/-- The action of an entry that sets the default. -/
def defaultOf (entry : Str) : Option RuleAction :=
  match parseEntry entry with
  | some (.default a) => some a
  | _ => none

/-- The rules that a change puts before the others. -/
def Change.rules : Change → List Rule
  | .addPIDRule pid action => [⟨.pid pid, action, []⟩]
  | .setRemoteLANs entries =>
    ((remoteEntries entries).filter fun e => (remoteNet e).isNone).map remoteRule
  | .setDirectDNS _ => []

/-- The remote LANs that a change registers. -/
def Change.lans : Change → List IPNet
  | .setRemoteLANs entries => (remoteEntries entries).filterMap remoteNet
  | _ => []

def Change.directDNS : Change → Option Bool
  | .setDirectDNS direct => some direct
  | _ => none

/-- The rules of later changes come first, and the configured rules keep their order. -/
def rulesInOrder (entries : List Str) (changes : List Change) : List Rule :=
  changes.reverse.flatMap Change.rules ++ entries.filterMap ruleOf

def lastDefault (entries : List Str) : RuleAction :=
  (entries.filterMap defaultOf).getLast?.getD .direct

def lastDirectDNS (changes : List Change) : Bool :=
  (changes.filterMap Change.directDNS).getLast?.getD true

theorem newRuleManager_eq (entries : List Str) :
    newRuleManager entries = ⟨entries.filterMap ruleOf, [], lastDefault entries, true⟩ := by
  induction entries using List.reverseRecOn with
  | nil => rfl
  | append_singleton entries e ih =>
    have hstep : newRuleManager (entries ++ [e]) = addEntry (newRuleManager entries) e := by
      simp [newRuleManager]
    rw [hstep, ih]
    unfold addEntry lastDefault
    cases hparse : parseEntry e with
    | none => simp [ruleOf, defaultOf, hparse]
    | some added => cases added <;> simp [ruleOf, defaultOf, hparse]

/-- The manager that the entries and the changes describe. -/
def described (entries : List Str) (changes : List Change) : RuleManager where
  rules := rulesInOrder entries changes
  remoteLANs := changes.flatMap Change.lans
  defaultAction := lastDefault entries
  directDNS := lastDirectDNS changes

theorem described_append (entries : List Str) (changes : List Change) (c : Change) :
    described entries (changes ++ [c]) = (described entries changes).apply c := by
  cases c <;>
    simp [described, RuleManager.apply, RuleManager.addPIDRule, RuleManager.setRemoteLANs,
      RuleManager.setDirectDNS, rulesInOrder, Change.rules, Change.lans, Change.directDNS,
      lastDirectDNS]

theorem managed_eq (entries : List Str) (changes : List Change) :
    managed entries changes = described entries changes := by
  unfold managed
  refine run_history (fun (changes : List Change) rm => rm = described entries changes)
    ?_ (newRuleManager_eq entries) changes
  rintro changes _ c rfl
  exact (described_append entries changes c).symm

/-! ## Where networks come from -/

/-- A network that some text gives. -/
def Parsed (n : IPNet) : Prop := ∃ s, parseCIDR s = some n

theorem parsed_lans {changes : List Change} {n : IPNet} (h : n ∈ changes.flatMap Change.lans) :
    Parsed n := by
  obtain ⟨c, -, hn⟩ := List.mem_flatMap.mp h
  cases c with
  | setRemoteLANs entries =>
    obtain ⟨e, -, he⟩ := List.mem_filterMap.mp hn
    exact remoteNet_spec he
  | addPIDRule pid action => cases hn
  | setDirectDNS direct => cases hn

theorem addPattern_ne_ipCidr {p0 pattern target t : Str} {action a : RuleAction} {n : IPNet} :
    addPattern p0 pattern action target ≠ .rule ⟨.ipCidr n, a, t⟩ := by
  unfold addPattern
  split_ifs <;> simp

/-- Only the form with a CIDR gives a rule with a network. -/
theorem Form.parsed {f : Form} {t : Str} {n : IPNet} {a : RuleAction}
    (h : f.read = some (.rule ⟨.ipCidr n, a, t⟩)) : Parsed n := by
  cases f with
  | map pattern target => exact absurd (Option.some.inj h) addPattern_ne_ipCidr
  | intercept pattern => exact absurd (Option.some.inj h) addPattern_ne_ipCidr
  | ipCidr cidr action =>
    dsimp only [Form.read] at h
    split at h
    · rename_i hcidr
      cases h
      exact ⟨cidr, hcidr⟩
    · cases h
  | typed type pattern action =>
    obtain ⟨b, -, hb⟩ := Option.map_eq_some_iff.mp h
    exact absurd hb addPattern_ne_ipCidr
  | untyped pattern action =>
    obtain ⟨b, -, hb⟩ := Option.map_eq_some_iff.mp h
    exact absurd hb addPattern_ne_ipCidr

theorem ruleOf_eq_some {e : Str} {r : Rule} : ruleOf e = some r ↔ parseEntry e = some (.rule r) := by
  unfold ruleOf
  split <;> simp_all

theorem parsed_ruleOf {e t : Str} {n : IPNet} {a : RuleAction}
    (h : ruleOf e = some ⟨.ipCidr n, a, t⟩) : Parsed n := by
  obtain ⟨-, f0, f1, more, -, hread⟩ := parseEntry_some (ruleOf_eq_some.mp h)
  exact Form.parsed hread

theorem parsed_rules {entries : List Str} {changes : List Change} {r : Rule} {n : IPNet}
    (hr : r ∈ rulesInOrder entries changes) (hn : r.type = .ipCidr n) : Parsed n := by
  rcases List.mem_append.mp hr with hchange | hentry
  · obtain ⟨c, -, hc⟩ := List.mem_flatMap.mp hchange
    cases c with
    | addPIDRule pid action =>
      rw [List.mem_singleton.mp hc] at hn
      cases hn
    | setRemoteLANs lans =>
      obtain ⟨e, -, rfl⟩ := List.mem_map.mp hc
      cases hn
    | setDirectDNS direct => cases hc
  · obtain ⟨e, -, he⟩ := List.mem_filterMap.mp hentry
    obtain ⟨type, action, target⟩ := r
    obtain rfl := hn
    exact parsed_ruleOf he

/-! ## What a rule takes -/

/-- A rule for a domain takes the domain and what lies below it, with or without a dot at its
front. A rule for a URL takes, before the URL is known, the hosts that its pattern names. -/
def Rule.Takes (r : Rule) (ctx : MatchContext) : Prop :=
  match r.type with
  | .pid pid => ctx.pid ≠ 0 ∧ ctx.pid = pid
  | .process pattern =>
    ctx.process ≠ [] ∧ (ctx.process = pattern ∨ toLower pattern <:+: toLower ctx.process)
  | .domain pattern =>
    ctx.host ≠ [] ∧ (ctx.host = trimPrefix pattern "." ∨
      '.' :: trimPrefix pattern "." <:+ ctx.host)
  | .url pattern =>
    if ctx.url ≠ [] then pattern <:+: ctx.url else ctx.host ≠ [] ∧ ctx.host <:+: pattern
  | .ipCidr n => ∃ ip, parseIP ctx.host = some ip ∧ n.range.Has (numeric ip)

omit [Unicode] in
theorem domainFits_iff (pattern host : Str) :
    domainFits pattern host = true ↔
      host = trimPrefix pattern "." ∨ '.' :: trimPrefix pattern "." <:+ host := by
  unfold domainFits
  split
  · rename_i hdot
    obtain ⟨rest, rfl⟩ := List.isPrefixOf_iff_prefix.mp hdot
    have htrim : trimPrefix ((".".toList : Str) ++ rest) "." = rest := by
      simp [trimPrefix, hasPrefix]
    rw [Bool.or_eq_true, decide_eq_true_eq, htrim]
    exact or_congr_right List.isSuffixOf_iff_suffix
  · rename_i hdot
    have htrim : trimPrefix pattern "." = pattern := if_neg hdot
    rw [Bool.or_eq_true, decide_eq_true_eq, htrim]
    exact or_congr_right List.isSuffixOf_iff_suffix

theorem fits_iff {r : Rule} (hparsed : ∀ n, r.type = .ipCidr n → Parsed n) (ctx : MatchContext) :
    r.fits ctx = true ↔ r.Takes ctx := by
  unfold Rule.fits Rule.Takes
  cases ht : r.type with
  | pid pid => simp
  | process pattern => simp [contains_iff]
  | domain pattern => simp [domainFits_iff]
  | url pattern =>
    dsimp only
    split
    · rw [Bool.or_eq_true, contains_iff]
      refine ⟨fun h => ?_, Or.inr⟩
      exact h.elim (fun hpre => (List.isPrefixOf_iff_prefix.mp hpre).isInfix) id
    · simp [contains_iff]
  | ipCidr n =>
    obtain ⟨s, hs⟩ := hparsed n ht
    dsimp only
    cases hip : parseIP ctx.host with
    | none => simp
    | some ip => simp [netContains_iff hs (Or.inr (length_parseIP hip))]

/-! ## Local addresses -/

/-- Loopback, the private networks and what is local to a link, for one or for many. The
last are the link-local groups of IPv6 with any flags. -/
def localRanges : List Range :=
  [block 32 0x7F000000 8, block 32 0x0A000000 8, block 32 0xAC100000 12, block 32 0xC0A80000 16,
    block 32 0xA9FE0000 16, block 32 0xE0000000 24, block 128 1 128,
    block 128 (0xFE80 * 2 ^ 112) 10, block 128 (0xFC00 * 2 ^ 112) 7] ++
  (List.range 16).map fun flags => block 128 ((0xFF02 + 16 * flags) * 2 ^ 112) 16

def IsLocal (a : Numeric) : Prop := ∃ r ∈ localRanges, r.Has a

end

theorem isLocal_v4 (v : Nat) :
    IsLocal ⟨32, v⟩ ↔ v / 2 ^ 24 = 127 ∨ v / 2 ^ 24 = 10 ∨ v / 2 ^ 20 = 0xAC1 ∨
      v / 2 ^ 16 = 0xC0A8 ∨ v / 2 ^ 16 = 0xA9FE ∨ v / 2 ^ 8 = 0xE00000 := by
  unfold IsLocal localRanges
  simp [has_block]

theorem isLocal_v6 (v : Nat) :
    IsLocal ⟨128, v⟩ ↔ v = 1 ∨ v / 2 ^ 118 = 0x3FA ∨ v / 2 ^ 121 = 0x7E ∨
      ∃ flags < 16, v / 2 ^ 112 = 0xFF02 + 16 * flags := by
  unfold IsLocal localRanges
  simp [has_block]

/-- What is left of a short address when its last bytes are shifted out. -/
theorem number_v4_div (a b c d : UInt8) :
    number [a, b, c, d] / 2 ^ 24 = a.toNat ∧
      number [a, b, c, d] / 2 ^ 20 = 16 * a.toNat + b.toNat / 16 ∧
      number [a, b, c, d] / 2 ^ 16 = 256 * a.toNat + b.toNat ∧
      number [a, b, c, d] / 2 ^ 8 = 256 * (256 * a.toNat + b.toNat) + c.toNat := by
  have hb := b.toNat_lt
  have hc := c.toNat_lt
  have hd := d.toNat_lt
  have hnum : number [a, b, c, d] =
      2 ^ 24 * a.toNat + 2 ^ 16 * b.toNat + 2 ^ 8 * c.toNat + d.toNat := by
    simp [number_cons]
    omega
  rw [hnum]
  refine ⟨?_, ?_, ?_, ?_⟩ <;> omega

theorem isPrivateIP_v4 {ip : IP} {a b c d : UInt8} (h : to4 ip = some [a, b, c, d]) :
    isPrivateIP ip = true ↔ IsLocal ⟨32, number [a, b, c, d]⟩ := by
  have hb := b.toNat_lt
  have hc := c.toNat_lt
  obtain ⟨h24, h20, h16, h8⟩ := number_v4_div a b c d
  have h172 : 16 * a.toNat + b.toNat / 16 = 0xAC1 ↔
      a.toNat = 172 ∧ 16 ≤ b.toNat ∧ b.toNat ≤ 31 := by omega
  have h192 : 256 * a.toNat + b.toNat = 0xC0A8 ↔ a.toNat = 192 ∧ b.toNat = 168 := by omega
  have h169 : 256 * a.toNat + b.toNat = 0xA9FE ↔ a.toNat = 169 ∧ b.toNat = 254 := by omega
  have h224 : 256 * (256 * a.toNat + b.toNat) + c.toNat = 0xE00000 ↔
      a.toNat = 224 ∧ b.toNat = 0 ∧ c.toNat = 0 := by omega
  rw [isLocal_v4, h24, h20, h16, h8, h172, h192, h169, h224]
  unfold isPrivateIP isLoopback isLinkLocalUnicast isLinkLocalMulticast
  rw [h, Bool.if_true_left, Bool.decide_eq_true]
  simp only [byte, List.getD_cons_zero, List.getD_cons_succ, Bool.or_eq_true, Bool.and_eq_true,
    beq_iff_eq, decide_eq_true_eq, ← UInt8.toNat_inj, UInt8.le_iff_toNat_le, UInt8.reduceToNat]
  -- Both sides name the same ranges, the source in an order of its own.
  clear * -
  grind

/-- The first two bytes of a long address. -/
theorem number_div {ip : IP} (h : ip.length = 16) :
    number ip / 2 ^ 112 = 256 * (byte ip 0).toNat + (byte ip 1).toNat := by
  obtain ⟨a, b, rest, rfl⟩ := exists_cons_cons (l := ip) (by omega)
  have hrest : rest.length = 14 := by simpa using h
  have hlt := number_lt rest
  rw [number_cons, number_cons, List.length_cons, hrest]
  rw [hrest] at hlt
  simp only [byte, List.getD_cons_zero, List.getD_cons_succ]
  omega

theorem number_eq_one_iff {ip : IP} (h : ip.length = 16) : number ip = 1 ↔ ip = ipv6loopback := by
  constructor
  · intro hone
    exact number_inj h (hone.trans (by decide))
  · rintro rfl
    decide

/-- The ranges of long addresses by the first two bytes. -/
theorem ranges_v6 {x y : Nat} (hy : y < 256) :
    ((256 * x + y) / 2 ^ 6 = 0x3FA ↔ x = 254 ∧ y / 64 = 2) ∧
      ((256 * x + y) / 2 ^ 9 = 0x7E ↔ x / 2 = 126) ∧
      ((∃ flags < 16, 256 * x + y = 0xFF02 + 16 * flags) ↔ x = 255 ∧ y % 16 = 2) := by
  refine ⟨by omega, by omega, ?_⟩
  constructor
  · rintro ⟨flags, hlt, heq⟩
    omega
  · rintro ⟨hfirst, hsecond⟩
    exact ⟨y / 16, by omega, by omega⟩

theorem isPrivateIP_v6 {ip : IP} (hlen : ip.length = 16) (h : to4 ip = none) :
    isPrivateIP ip = true ↔ IsLocal ⟨128, number ip⟩ := by
  have hdiv := number_div hlen
  have h10 : number ip / 2 ^ 118 = number ip / 2 ^ 112 / 2 ^ 6 := by
    rw [Nat.div_div_eq_div_mul, ← Nat.pow_add]
  have h7 : number ip / 2 ^ 121 = number ip / 2 ^ 112 / 2 ^ 9 := by
    rw [Nat.div_div_eq_div_mul, ← Nat.pow_add]
  have hbits : ∀ x < 256, (x &&& 0xc0 = 0x80 ↔ x / 64 = 2) ∧ (x &&& 0x0f = 0x02 ↔ x % 16 = 2) ∧
      (x &&& 0xfe = 0xfc ↔ x / 2 = 126) := by decide +kernel
  have h0 := (byte ip 0).toNat_lt
  have h1 := (byte ip 1).toNat_lt
  obtain ⟨hlink, hula, hflags⟩ := ranges_v6 (x := (byte ip 0).toNat) h1
  rw [isLocal_v6, number_eq_one_iff hlen, h10, h7, hdiv, hflags, hlink, hula]
  unfold isPrivateIP isLoopback isLinkLocalUnicast isLinkLocalMulticast
  rw [h, Bool.if_true_left, Bool.decide_eq_true]
  simp only [hlen, beq_self_eq_true, Bool.true_and, Bool.or_eq_true, Bool.and_eq_true, beq_iff_eq,
    ← UInt8.toNat_inj, UInt8.toNat_and, UInt8.reduceToNat, (hbits _ h0).2.2,
    (hbits _ h1).1, (hbits _ h1).2.1]
  -- As above, the same ranges in another order.
  clear * -
  grind

/-- The router calls private what lies in a local range. -/
theorem isPrivateIP_iff {ip : IP} (h : ip.length = 16) :
    isPrivateIP ip = true ↔ IsLocal (numeric ip) := by
  unfold numeric
  cases h4 : to4 ip with
  | some a =>
    obtain ⟨b0, b1, b2, b3, rfl⟩ := List.length_eq_four.mp (length_to4 h4)
    exact isPrivateIP_v4 h4
  | none => exact isPrivateIP_v6 h h4

/-! ## The reference -/

section

variable [Unicode]

/-- The host is the text of an address with this property. -/
def HostIs (P : Numeric → Prop) (host : Str) : Prop :=
  ∃ ip, parseIP host = some ip ∧ P (numeric ip)

def InRemoteLAN (changes : List Change) (a : Numeric) : Prop :=
  ∃ n ∈ changes.flatMap Change.lans, n.range.Has a

open Classical in
/-- What a request comes to. -/
noncomputable def reference (entries : List Str) (changes : List Change) (ctx : MatchContext) :
    RuleAction × Str :=
  if (lastDirectDNS changes = true ∧ ctx.port = 53) ∨
      ctx.host ∈ [("localhost" : Str), "127.0.0.1", "::1"] then (.direct, [])
  else if HostIs (InRemoteLAN changes) ctx.host then (.proxy, [])
  else if HostIs IsLocal ctx.host then (.direct, [])
  else
    match (rulesInOrder entries changes).find? fun r => r.Takes ctx with
    | some r => (r.action, r.target)
    | none => (lastDefault entries, [])

theorem inRemoteLAN_iff (entries : List Str) (changes : List Change) {ip : IP}
    (h : ip.length = 16) :
    (described entries changes).inRemoteLAN ip = true ↔ InRemoteLAN changes (numeric ip) := by
  unfold RuleManager.inRemoteLAN InRemoteLAN
  rw [List.any_eq_true]
  refine exists_congr fun n => and_congr_right fun hn => ?_
  obtain ⟨s, hs⟩ := parsed_lans hn
  exact netContains_iff hs (Or.inr h)

open Classical in
theorem byRules_eq (entries : List Str) (changes : List Change) (ctx : MatchContext) :
    (described entries changes).byRules ctx =
      match (rulesInOrder entries changes).find? fun r => r.Takes ctx with
      | some r => (r.action, r.target)
      | none => (lastDefault entries, []) := by
  have hfind : (rulesInOrder entries changes).find? (fun r => r.fits ctx) =
      (rulesInOrder entries changes).find? fun r => r.Takes ctx := by
    apply List.find?_congr
    intro r hr
    rw [Bool.eq_iff_iff, decide_eq_true_eq]
    exact fits_iff (fun n => parsed_rules hr) ctx
  exact hfind ▸ rfl

theorem matchContext_eq_reference (entries : List Str) (changes : List Change)
    (ctx : MatchContext) :
    (managed entries changes).matchContext ctx = reference entries changes ctx := by
  rw [managed_eq]
  unfold RuleManager.matchContext reference
  have hdns : ((described entries changes).directDNS && decide (ctx.port = 53)) = true ↔
      lastDirectDNS changes = true ∧ ctx.port = 53 := by
    rw [Bool.and_eq_true, decide_eq_true_eq]
    rfl
  have hname : isLocalName ctx.host = true ↔
      ctx.host ∈ [("localhost" : Str), "127.0.0.1", "::1"] := by
    simp only [isLocalName, Bool.or_eq_true, decide_eq_true_eq, List.mem_cons, List.not_mem_nil,
      or_false, or_assoc]
  by_cases h1 : lastDirectDNS changes = true ∧ ctx.port = 53
  · rw [if_pos (hdns.mpr h1), if_pos (Or.inl h1)]
  by_cases h2 : ctx.host ∈ [("localhost" : Str), "127.0.0.1", "::1"]
  · rw [if_neg (mt hdns.mp h1), if_pos (hname.mpr h2), if_pos (Or.inr h2)]
  rw [if_neg (mt hdns.mp h1), if_neg (mt hname.mp h2), if_neg (not_or.mpr ⟨h1, h2⟩), byRules_eq]
  cases hip : parseIP ctx.host with
  | none =>
    have hno : ∀ P, ¬ HostIs P ctx.host := by
      rintro P ⟨ip, hsome, -⟩
      rw [hip] at hsome
      cases hsome
    rw [if_neg (hno _), if_neg (hno _)]
  | some ip =>
    have hlen := length_parseIP hip
    have his : ∀ P, HostIs P ctx.host ↔ P (numeric ip) := by
      intro P
      simp [HostIs, hip]
    have hlan := inRemoteLAN_iff entries changes hlen
    have hpriv := isPrivateIP_iff hlen
    dsimp only
    by_cases h3 : InRemoteLAN changes (numeric ip)
    · rw [if_pos (hlan.mpr h3), if_pos ((his _).mpr h3)]
    rw [if_neg (mt hlan.mp h3), if_neg (mt (his _).mp h3)]
    by_cases h4 : IsLocal (numeric ip)
    · rw [if_pos (hpriv.mpr h4), if_pos ((his _).mpr h4)]
    · rw [if_neg (mt hpriv.mp h4), if_neg (mt (his _).mp h4)]

/-! ## Edits of the entries -/

/-- An entry that is skipped is put somewhere, or an entry that sets the default moves past
one that does not. -/
inductive Edit : List Str → List Str → Prop
  | insert (pre post : List Str) {e : Str} : Skipped e → Edit (pre ++ post) (pre ++ e :: post)
  | move (pre post : List Str) {d e : Str} : (defaultOf d).isSome → defaultOf e = none →
      Edit (pre ++ d :: e :: post) (pre ++ e :: d :: post)

theorem ruleOf_of_default {d : Str} (h : (defaultOf d).isSome) : ruleOf d = none := by
  unfold defaultOf at h
  unfold ruleOf
  split at h
  · rename_i hd
    rw [hd]
  · cases h

theorem described_edit {entries entries' : List Str} (h : Edit entries entries')
    (changes : List Change) : described entries changes = described entries' changes := by
  have hsame : entries.filterMap ruleOf = entries'.filterMap ruleOf ∧
      entries.filterMap defaultOf = entries'.filterMap defaultOf := by
    cases h with
    | insert pre post hskip =>
      have hnone := (parseEntry_eq_none _).mpr hskip
      simp [ruleOf, defaultOf, hnone]
    | move pre post hd he =>
      have hrule := ruleOf_of_default hd
      simp [List.filterMap_cons, hrule, he]
  unfold described rulesInOrder lastDefault
  rw [hsame.1, hsame.2]

theorem described_edits {entries entries' : List Str} (h : Relation.EqvGen Edit entries entries')
    (changes : List Change) : described entries changes = described entries' changes := by
  induction h with
  | rel x y h => exact described_edit h changes
  | refl x => rfl
  | symm x y _ ih => exact ih.symm
  | trans x y z _ _ ihxy ihyz => exact ihxy.trans ihyz

/-- In every state that the operations reach, the router gives what the reference gives, and
edits of this kind change no answer. -/
theorem router_follows_the_reference :
    (∀ (entries : List Str) (changes : List Change) (ctx : MatchContext),
      (managed entries changes).matchContext ctx = reference entries changes ctx) ∧
    ∀ (entries entries' : List Str), Relation.EqvGen Edit entries entries' →
      ∀ (changes : List Change) (ctx : MatchContext),
        (managed entries changes).matchContext ctx =
          (managed entries' changes).matchContext ctx := by
  refine ⟨matchContext_eq_reference, ?_⟩
  intro entries entries' h changes ctx
  rw [managed_eq, managed_eq, described_edits h]

end

/-- A comment goes in and the default moves to the end, beside a PID rule of later. -/
theorem edited_rules_answer_alike :
    (managed ["FINAL,PROXY", "a.com,BLOCK"] [.addPIDRule 7 .direct]).matchContext
        ⟨"b.org", 443, "curl", 9, []⟩ =
      (managed ["# old", "a.com,BLOCK", "FINAL,PROXY"] [.addPIDRule 7 .direct]).matchContext
        ⟨"b.org", 443, "curl", 9, []⟩ := by
  apply router_follows_the_reference.2
  apply Relation.EqvGen.trans
  · exact .rel _ _ (.move [] [] (by decide) (by decide))
  · exact .rel _ _ (.insert [] ["a.com,BLOCK", "FINAL,PROXY"] (.comment (by decide)))

end vproxy
