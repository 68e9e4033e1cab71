-- The router (router.go). Rule entries become rules, remote LANs come before them, and a
-- context takes the action of the first rule that fits it.
import Vproxy.NetAddr
import Mathlib.Data.List.Find

open go go.net

namespace vproxy

/-! ## Rules -/

inductive RuleAction where
  | direct
  | proxy
  | intercept
  | map
  | block
  deriving DecidableEq, Repr

def RuleAction.string : RuleAction → Str
  | .direct => "DIRECT"
  | .proxy => "PROXY"
  | .intercept => "INTERCEPT"
  | .map => "MAP"
  | .block => "BLOCK"

/-- `RuleType`, each with what its rules compare. -/
inductive RuleType where
  | domain (pattern : Str)
  | process (pattern : Str)
  | url (pattern : Str)
  | pid (pid : Int)
  | ipCidr (cidr : IPNet)
  deriving DecidableEq

structure Rule where
  type : RuleType
  action : RuleAction
  target : Str
  deriving DecidableEq

structure MatchContext where
  host : Str
  port : Int
  process : Str
  pid : Int
  url : Str
  deriving DecidableEq

/-- The context with nothing filled in. -/
def MatchContext.blank : MatchContext := ⟨[], 0, [], 0, []⟩

structure RuleManager where
  rules : List Rule
  remoteLANs : List IPNet
  defaultAction : RuleAction
  directDNS : Bool
  deriving DecidableEq

section

variable [Unicode]

/-! ## Reading the entries -/

/-- The action of a rule entry. -/
def parseAction (s : Str) : Option RuleAction :=
  if s = "DIRECT" then some .direct
  else if s = "PROXY" then some .proxy
  else if s = "INTERCEPT" then some .intercept
  else if s = "MAP" then some .map
  else if s = "BLOCK" then some .block
  else none

/-- The action of an `IP_CIDR` entry. -/
def parseCidrAction (s : Str) : Option RuleAction :=
  if s = "DIRECT" then some .direct
  else if s = "PROXY" then some .proxy
  else if s = "BLOCK" then some .block
  else none

/-- An entry that is empty, a comment or switched off. -/
def inactive (trimmed : Str) : Bool :=
  trimmed = [] || hasPrefix trimmed "#" || hasPrefix trimmed "//" ||
    hasPrefix (toUpper trimmed) "DISABLED,"

/-- What an entry adds: a rule, or the default action. -/
inductive Added where
  | rule (r : Rule)
  | default (a : RuleAction)

/-- The end of an entry with pattern, action and target. -/
def addPattern (p0 pattern : Str) (action : RuleAction) (target : Str) : Added :=
  if p0 = "PID" then .rule ⟨.pid (sscanfInt pattern), action, target⟩
  else if toUpper pattern = "DEFAULT" ∨ toUpper pattern = "FINAL" then .default action
  else if p0 = "PROCESS" then .rule ⟨.process pattern, action, target⟩
  else if p0 = "URL" ∨ p0 = "MAP" then .rule ⟨.url pattern, action, target⟩
  else .rule ⟨.domain pattern, action, target⟩

/-- One turn of the loop of `NewRuleManager`; a skipped entry adds nothing. -/
def parseEntry (entry : Str) : Option Added :=
  let trimmed := trimSpace entry
  if inactive trimmed then none
  else
    let parts := (trimmed.splitOn ',').map trimSpace
    match parts with
    | part0 :: part1 :: more =>
      let p0 := toUpper part0
      match more with
      | part2 :: rest =>
        if p0 = "MAP" then some (addPattern p0 part1 .map part2)
        else if p0 = "INTERCEPT" then some (addPattern p0 part1 .intercept [])
        else if p0 = "IP_CIDR" then do
          let action ← parseCidrAction (toUpper part2)
          let cidr ← parseCIDR part1
          some (.rule ⟨.ipCidr cidr, action, []⟩)
        else if rest = [] then
          (parseAction (toUpper part2)).map (fun action => addPattern p0 part1 action [])
        else (parseAction (toUpper part1)).map (fun action => addPattern p0 part0 action [])
      | [] =>
        if p0 = "INTERCEPT" then some (addPattern p0 part1 .intercept [])
        else (parseAction (toUpper part1)).map (fun action => addPattern p0 part0 action [])
    | _ => none

def addEntry (rm : RuleManager) (entry : Str) : RuleManager :=
  match parseEntry entry with
  | some (.rule r) => { rm with rules := rm.rules ++ [r] }
  | some (.default a) => { rm with defaultAction := a }
  | none => rm

def newRuleManager (entries : List Str) : RuleManager :=
  entries.foldl addEntry ⟨[], [], .direct, true⟩

/-- `AddPIDRule`: the new rule comes first. -/
def RuleManager.addPIDRule (rm : RuleManager) (pid : Int) (action : RuleAction) : RuleManager :=
  { rm with rules := ⟨.pid pid, action, []⟩ :: rm.rules }

def RuleManager.setDirectDNS (rm : RuleManager) (direct : Bool) : RuleManager :=
  { rm with directDNS := direct }

/-- The network of a remote LAN entry; `none` for a domain. -/
def remoteNet (entry : Str) : Option IPNet :=
  if '/' ∈ entry then parseCIDR entry
  else
    match parseIP entry with
    | some ip => parseCIDR (entry ++ if (to4 ip).isNone then "/128" else "/32")
    | none => none

omit [Unicode] in
theorem remoteNet_spec {entry : Str} {n : IPNet} (h : remoteNet entry = some n) :
    ∃ s, parseCIDR s = some n := by
  unfold remoteNet at h
  split at h
  · exact ⟨_, h⟩
  · split at h
    · exact ⟨_, h⟩
    · cases h

/-- The rule of a remote LAN entry that is a domain. -/
def remoteRule (entry : Str) : Rule := ⟨.domain (trimPrefix entry "*"), .proxy, []⟩

/-- The entries of remote LANs that are not blank, trimmed. -/
def remoteEntries (entries : List Str) : List Str := (entries.map trimSpace).filter (· ≠ [])

def RuleManager.setRemoteLANs (rm : RuleManager) (entries : List Str) : RuleManager :=
  let trimmed := remoteEntries entries
  { rm with
    remoteLANs := rm.remoteLANs ++ trimmed.filterMap remoteNet
    rules := (trimmed.filter (fun e => (remoteNet e).isNone)).map remoteRule ++ rm.rules }

/-! ## Matching -/

def isPrivateIP (ip : IP) : Bool :=
  if isLoopback ip || isLinkLocalUnicast ip || isLinkLocalMulticast ip then true
  else
    match to4 ip with
    | some a => byte a 0 == 10 || (byte a 0 == 172 && (16 ≤ byte a 1 && byte a 1 ≤ 31)) ||
        (byte a 0 == 192 && byte a 1 == 168)
    | none => ip.length == 16 && byte ip 0 &&& 0xfe == 0xfc

/-- The texts that always mean this machine. -/
def isLocalName (host : Str) : Bool := host = "localhost" || host = "127.0.0.1" || host = "::1"

def domainFits (pattern host : Str) : Bool :=
  if hasPrefix pattern "." then host = trimPrefix pattern "." || hasSuffix host pattern
  else host = pattern || hasSuffix host ('.' :: pattern)

/-- One turn of the loop over the rules: the rule fits the context. -/
def Rule.fits (rule : Rule) (ctx : MatchContext) : Bool :=
  match rule.type with
  | .pid pid => ctx.pid ≠ 0 && ctx.pid = pid
  | .process pattern =>
    ctx.process ≠ [] &&
      (ctx.process = pattern || contains (toLower ctx.process) (toLower pattern))
  | .domain pattern => ctx.host ≠ [] && domainFits pattern ctx.host
  | .url pattern =>
    if ctx.url ≠ [] then hasPrefix ctx.url pattern || contains ctx.url pattern
    else ctx.host ≠ [] && contains pattern ctx.host
  | .ipCidr cidr => (parseIP ctx.host).any (netContains cidr)

/-- The first rule that fits, or the default. -/
def RuleManager.byRules (rm : RuleManager) (ctx : MatchContext) : RuleAction × Str :=
  match rm.rules.find? (fun r => r.fits ctx) with
  | some r => (r.action, r.target)
  | none => (rm.defaultAction, [])

/-- The address lies in a remote LAN. -/
def RuleManager.inRemoteLAN (rm : RuleManager) (ip : IP) : Bool :=
  rm.remoteLANs.any (fun n => netContains n ip)

/-- `doMatchContext`. -/
def RuleManager.matchContext (rm : RuleManager) (ctx : MatchContext) : RuleAction × Str :=
  if rm.directDNS && ctx.port = 53 then (.direct, [])
  else if isLocalName ctx.host then (.direct, [])
  else
    match parseIP ctx.host with
    | some ip =>
      if rm.inRemoteLAN ip then (.proxy, [])
      else if isPrivateIP ip then (.direct, [])
      else rm.byRules ctx
    | none => rm.byRules ctx

def RuleManager.matchURL (rm : RuleManager) (url : Str) : RuleAction × Str :=
  rm.matchContext { MatchContext.blank with url }

def RuleManager.hasProcessMetadataRules (rm : RuleManager) : Bool :=
  rm.rules.any (fun r => match r.type with | .process _ => true | .pid _ => true | _ => false)

/-! ## What a match depends on -/

variable {rm : RuleManager}

/-- The rules count only for what they give for the context. -/
theorem matchContext_congr {rm' : RuleManager} {ctx : MatchContext}
    (hlans : rm.remoteLANs = rm'.remoteLANs) (hdns : rm.directDNS = rm'.directDNS)
    (hrules : rm.byRules ctx = rm'.byRules ctx) : rm.matchContext ctx = rm'.matchContext ctx := by
  unfold RuleManager.matchContext RuleManager.inRemoteLAN
  rw [hlans, hdns, hrules]

/-- The port counts only for the rule on DNS. -/
theorem matchContext_port (ctx : MatchContext) :
    rm.matchContext ctx =
      if rm.directDNS && ctx.port = 53 then (.direct, [])
      else rm.matchContext { ctx with port := 0 } := by
  unfold RuleManager.matchContext
  split
  · rfl
  · have hzero : ¬ (rm.directDNS && decide ((0 : Int) = 53)) := by simp
    conv_rhs => rw [if_neg hzero]
    rfl

/-- Rules without PROCESS and PID look at neither. -/
theorem matchContext_process (h : rm.hasProcessMetadataRules = false) (ctx : MatchContext) :
    rm.matchContext ctx = rm.matchContext { ctx with process := [], pid := 0 } := by
  have hrules : rm.byRules ctx = rm.byRules { ctx with process := [], pid := 0 } := by
    have hfind : rm.rules.find? (fun r => r.fits ctx) =
        rm.rules.find? (fun r => r.fits { ctx with process := [], pid := 0 }) := by
      apply List.find?_congr
      intro r hr
      have htype := List.any_eq_false.mp h r hr
      unfold Rule.fits
      cases ht : r.type <;> simp_all
    unfold RuleManager.byRules
    rw [hfind]
  unfold RuleManager.matchContext
  rw [hrules]

/-- A host that is none of this machine and no private or remote address comes to the rules. -/
theorem matchContext_rules {ctx : MatchContext} (hdns : ¬ (rm.directDNS && ctx.port = 53))
    (hlocal : ¬ isLocalName ctx.host)
    (hip : ∀ ip, parseIP ctx.host = some ip → ¬ rm.inRemoteLAN ip ∧ ¬ isPrivateIP ip) :
    rm.matchContext ctx = rm.byRules ctx := by
  unfold RuleManager.matchContext
  rw [if_neg hdns, if_neg hlocal]
  split
  · rename_i ip hsome
    rw [if_neg (hip ip hsome).1, if_neg (hip ip hsome).2]
  · rfl

/-- A host outside the remote LANs goes directly where the rules say so. -/
theorem matchContext_direct {ctx : MatchContext}
    (hlan : ¬ isLocalName ctx.host → ∀ ip, parseIP ctx.host = some ip → ¬ rm.inRemoteLAN ip)
    (hrules : (rm.byRules ctx).1 = .direct) : (rm.matchContext ctx).1 = .direct := by
  unfold RuleManager.matchContext
  split
  · rfl
  split
  · rfl
  rename_i hlocal
  split
  · rename_i ip hsome
    rw [if_neg (hlan hlocal ip hsome)]
    split
    · rfl
    · exact hrules
  · exact hrules

/-- A host that is neither an address nor this machine comes to the rules. -/
theorem matchContext_name {ctx : MatchContext} (hdns : ¬ (rm.directDNS && ctx.port = 53))
    (hip : parseIP ctx.host = none) (hlocal : ctx.host ≠ "localhost") :
    rm.matchContext ctx = rm.byRules ctx := by
  have hname : ¬ isLocalName ctx.host := by
    intro h
    simp only [isLocalName, Bool.or_eq_true, decide_eq_true_eq] at h
    rcases h with (h | h) | h
    · exact hlocal h
    · rw [h] at hip
      exact absurd hip (by decide)
    · rw [h] at hip
      exact absurd hip (by decide)
  refine matchContext_rules hdns hname ?_
  rw [hip]
  exact nofun

/-- An address that is no name of this machine, outside the rule on DNS. -/
theorem matchContext_ip {ctx : MatchContext} {ip : IP} (hip : parseIP ctx.host = some ip)
    (hdns : ¬ (rm.directDNS && ctx.port = 53)) (hname : ¬ isLocalName ctx.host) :
    rm.matchContext ctx =
      if rm.inRemoteLAN ip then (.proxy, [])
      else if isPrivateIP ip then (.direct, [])
      else rm.byRules ctx := by
  unfold RuleManager.matchContext
  rw [if_neg hdns, if_neg hname, hip]

end

end vproxy
