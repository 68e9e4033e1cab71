-- The rule for a wrapped command (main.go, ensureProcessInConfig). The command gets a PROCESS rule
-- of its own, unless its name stands somewhere in the text of an entry. The text may be that of
-- another rule, of a longer name or of an entry that is switched off.
import Vproxy.Handler
import Vproxy.JsStrings
import Vproxy.TypedRules

open go go.net js

namespace vproxy

/-! ## The call -/

/-- The entry for a process. -/
def processEntry (proc : Str) : Str := ("PROCESS," : Str) ++ proc ++ (",PROXY" : Str)

/-- `ensureProcessInConfig`: the configuration after the call, and the one that is written to the
file, where one is. -/
def ensureProcessInConfig (cfg : Config) (proc : Str) : Config × Option Config :=
  if cfg.rules.any (contains · proc) then (cfg, none)
  else
    let cfg := { cfg with rules := processEntry proc :: cfg.rules }
    (cfg, some cfg)

section

variable [Unicode]

/-- Some active PROCESS rule of these entries matches a process with this name. -/
def HasProcessRule (entries : List Str) (proc : Str) : Prop :=
  ∃ r ∈ (newRuleManager entries).rules, (∃ pattern, r.type = .process pattern) ∧
    r.fits { MatchContext.blank with process := proc } = true

/-- The command is proxied: it has a rule, the rules from before are there in their order, and a
second call changes nothing. -/
structure Wrapped (cfg : Config) (proc : Str) : Prop where
  active : HasProcessRule (ensureProcessInConfig cfg proc).1.rules proc
  kept : cfg.rules.Sublist (ensureProcessInConfig cfg proc).1.rules
  again : ensureProcessInConfig (ensureProcessInConfig cfg proc).1 proc =
    ((ensureProcessInConfig cfg proc).1, none)

/-! ## The entry -/

/-- Nothing is cut off a text that begins and ends with letters. -/
theorem trimSpace_of_ends {c d : Char} (hc : Unicode.isSpace c = false)
    (hd : Unicode.isSpace d = false) (mid : Str) :
    trimSpace (c :: (mid ++ [d])) = c :: (mid ++ [d]) := by
  unfold trimSpace
  rw [List.dropWhile_cons_of_neg (by simp [hc]), ← List.cons_append, List.reverse_append,
    List.reverse_singleton, List.singleton_append, List.dropWhile_cons_of_neg (by simp [hd])]
  simp

theorem isSpace_upper {c : Char} (h : c ∈ ("PROCESSXY" : Str)) : Unicode.isSpace c = false := by
  have hletters : ("PROCESSXY" : Str).all (fun c => c.toNat < 128 ∧ c ∉ asciiSpaces) = true := by
    decide
  obtain ⟨hascii, hnot⟩ := of_decide_eq_true (List.all_eq_true.mp hletters c h)
  rw [← Bool.not_eq_true, Unicode.isSpace_ascii c hascii]
  exact hnot

theorem trimSpace_processEntry (proc : Str) :
    trimSpace (processEntry proc) = processEntry proc := by
  have hends : processEntry proc =
      'P' :: (("ROCESS," : Str) ++ proc ++ ((",PROX" : Str) ++ ['Y'])) := rfl
  rw [hends, ← List.append_assoc]
  exact trimSpace_of_ends (isSpace_upper (by decide)) (isSpace_upper (by decide)) _

omit [Unicode] in
theorem splitOn_processEntry {proc : Str} (h : ',' ∉ proc) :
    (processEntry proc).splitOn ',' = [("PROCESS" : Str), proc, "PROXY"] := by
  have hparts : processEntry proc = ("PROCESS" : Str) ++ [','] ++ proc ++ ',' :: ("PROXY" : Str) :=
    rfl
  rw [hparts, List.append_assoc, List.append_assoc, List.singleton_append,
    List.splitOn_append_cons_self_of_not_mem (by decide),
    List.splitOn_append_cons_self_of_not_mem h, List.splitOn_eq_singleton (by decide)]

/-- The entry of a name without commas has three fields. -/
theorem isEntry_processEntry {proc : Str} (h : ',' ∉ proc) :
    Keyword.process.IsEntry (processEntry proc) (trimSpace proc) "PROXY" := by
  have hprocess : trimSpace "PROCESS" = ("PROCESS" : Str) :=
    trimSpace_of_ends (isSpace_upper (by decide)) (isSpace_upper (by decide)) "ROCES"
  have hproxy : trimSpace "PROXY" = ("PROXY" : Str) :=
    trimSpace_of_ends (isSpace_upper (by decide)) (isSpace_upper (by decide)) "ROX"
  have hupper : toUpper "PROCESS" = Keyword.process.text :=
    (toUpper_eq (ascii_of_all rfl)).trans (by decide)
  refine ⟨"PROCESS", hupper, ?_⟩
  rw [entryFields, trimSpace_processEntry, splitOn_processEntry h]
  simp only [List.map_cons, List.map_nil, hprocess, hproxy]
  rfl

theorem trimSpace_part (s : Str) : trimSpace s <:+: s := by
  have hback : trimSpace s <+: s.dropWhile Unicode.isSpace := by
    unfold trimSpace
    rw [← List.reverse_suffix, List.reverse_reverse]
    exact List.dropWhile_suffix _
  exact hback.isInfix.trans (List.dropWhile_suffix _).isInfix

/-- The rule of a process matches it, if the process has a name. -/
theorem fits_own_name (proc : Str) (a : RuleAction) (target : Str) :
    Rule.fits ⟨.process (trimSpace proc), a, target⟩ { MatchContext.blank with process := proc } =
      true ↔ proc ≠ [] := by
  have hpart : contains (toLower proc) (toLower (trimSpace proc)) = true := by
    rw [contains_iff]
    exact (trimSpace_part proc).map _
  simp [Rule.fits, hpart]

/-- What the entry adds: a rule, but for the names that stand for the default. -/
theorem ruleOf_processEntry {proc : Str} (h : ',' ∉ proc) :
    ruleOf (processEntry proc) = if SetsDefault (trimSpace proc) then none
      else some ⟨.process (trimSpace proc), .proxy, []⟩ := by
  have hupper : toUpper ("PROXY" : Str) = "PROXY" :=
    (toUpper_eq (ascii_of_all rfl)).trans (by decide)
  have haction : Keyword.process.action "PROXY" = some .proxy := by
    change parseAction (toUpper ("PROXY" : Str)) = some .proxy
    rw [hupper]
    rfl
  rw [ruleOf_typed (isEntry_processEntry h), haction]
  rfl

/-! ## The law -/

theorem hasProcessRule_cons (e : Str) (entries : List Str) (proc : Str) :
    HasProcessRule (e :: entries) proc ↔
      (∃ r, ruleOf e = some r ∧ (∃ pattern, r.type = .process pattern) ∧
        r.fits { MatchContext.blank with process := proc } = true) ∨
      HasProcessRule entries proc := by
  unfold HasProcessRule
  rw [newRuleManager_eq, newRuleManager_eq, List.filterMap_cons]
  cases ruleOf e <;> simp

/-- The entry of a process is its rule, unless its name stands for the default. -/
theorem hasProcessRule_processEntry {proc : Str} (h : ',' ∉ proc) (entries : List Str) :
    HasProcessRule (processEntry proc :: entries) proc ↔
      (proc ≠ [] ∧ ¬ SetsDefault (trimSpace proc)) ∨ HasProcessRule entries proc := by
  rw [hasProcessRule_cons, ruleOf_processEntry h]
  refine or_congr_left ?_
  by_cases hdefault : SetsDefault (trimSpace proc)
  · simp [hdefault]
  · simp only [hdefault, if_false, Option.some.injEq, exists_eq_left', fits_own_name]
    simp

omit [Unicode] in
theorem processEntry_contains (proc : Str) : contains (processEntry proc) proc = true := by
  rw [contains_iff]
  exact ⟨"PROCESS,", ",PROXY", rfl⟩

omit [Unicode] in
theorem named_after_ensure (cfg : Config) (proc : Str) :
    (ensureProcessInConfig cfg proc).1.rules.any (contains · proc) = true := by
  unfold ensureProcessInConfig
  split
  · assumption
  · simp [processEntry_contains]

omit [Unicode] in
theorem rules_after_ensure (cfg : Config) (proc : Str) :
    cfg.rules.Sublist (ensureProcessInConfig cfg proc).1.rules := by
  unfold ensureProcessInConfig
  split
  · exact List.Sublist.refl _
  · exact List.sublist_cons_self _ _

/-- A wrapped command is proxied exactly when some PROCESS rule matches it already, or when its
name stands in no entry and does not stand for the default. -/
theorem wrapped_command_is_proxied_iff (cfg : Config) (proc : Str) (h : ',' ∉ proc) :
    Wrapped cfg proc ↔
      HasProcessRule cfg.rules proc ∨
        ((∀ e ∈ cfg.rules, contains e proc = false) ∧ proc ≠ [] ∧
          ¬ SetsDefault (trimSpace proc)) := by
  have hwrapped : Wrapped cfg proc ↔
      HasProcessRule (ensureProcessInConfig cfg proc).1.rules proc := by
    constructor
    · exact Wrapped.active
    · intro hactive
      exact ⟨hactive, rules_after_ensure cfg proc, if_pos (named_after_ensure cfg proc)⟩
  rw [hwrapped]
  by_cases hnamed : cfg.rules.any (contains · proc) = true
  · have hsome : ¬ ∀ e ∈ cfg.rules, contains e proc = false := by
      obtain ⟨e, he, hcontains⟩ := List.any_eq_true.mp hnamed
      intro hnone
      rw [hnone e he] at hcontains
      cases hcontains
    rw [ensureProcessInConfig, if_pos hnamed]
    simp only [hsome, false_and, or_false]
  · have hnone : ∀ e ∈ cfg.rules, contains e proc = false := by simpa using hnamed
    rw [ensureProcessInConfig, if_neg hnamed, hasProcessRule_processEntry h, or_comm]
    exact or_congr_right (and_iff_right hnone).symm

end

/-- A configuration with these rules. -/
def rulesConfig (rules : List Str) : Config := { bareConfig [] [] with rules }

/-- A name that stands in no entry gets its rule. -/
theorem new_command_is_proxied :
    Wrapped (rulesConfig ["DOMAIN,a.cn,DIRECT"]) "curl" ∧
      (ensureProcessInConfig (rulesConfig ["DOMAIN,a.cn,DIRECT"]) "curl").1.rules =
        ["PROCESS,curl,PROXY", "DOMAIN,a.cn,DIRECT"] := by
  refine ⟨?_, by decide⟩
  apply (wrapped_command_is_proxied_iff _ _ (by decide)).mpr
  exact .inr (by decide)

/-- The name of the command stands in a domain, and it gets no rule. -/
theorem name_in_a_domain_is_no_rule :
    ensureProcessInConfig (rulesConfig ["DOMAIN,curl.se,DIRECT"]) "curl" =
        (rulesConfig ["DOMAIN,curl.se,DIRECT"], none) ∧
      (newRuleManager ["DOMAIN,curl.se,DIRECT"]).rules = [⟨.domain "curl.se", .direct, []⟩] ∧
      ¬ Wrapped (rulesConfig ["DOMAIN,curl.se,DIRECT"]) "curl" := by
  have hsame : ensureProcessInConfig (rulesConfig ["DOMAIN,curl.se,DIRECT"]) "curl" =
      (rulesConfig ["DOMAIN,curl.se,DIRECT"], none) := by decide
  have hrules : (newRuleManager ["DOMAIN,curl.se,DIRECT"]).rules =
      [⟨.domain "curl.se", .direct, []⟩] := by decide
  refine ⟨hsame, hrules, ?_⟩
  intro hwrapped
  obtain ⟨r, hr, ⟨pattern, htype⟩, -⟩ := hwrapped.active
  rw [hsame] at hr
  change r ∈ (newRuleManager ["DOMAIN,curl.se,DIRECT"]).rules at hr
  rw [hrules, List.mem_singleton] at hr
  rw [hr] at htype
  cases htype

end vproxy
