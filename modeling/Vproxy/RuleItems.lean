-- The rule items of the configuration page (rules.ts). The page reads an entry on its own and
-- switches it off and on by its text, and the router reads the text that comes out.
import Vproxy.RuleEntries
import Vproxy.JsStrings

open go go.net js

namespace vproxy

/-! ## The page -/

structure ParsedRule where
  raw : Str
  isActive : Bool
  type : Str
  pattern : Str
  action : Str
  deriving DecidableEq

/-- The text of a trimmed entry after the mark that switches it off, when it has one. Both
functions of the page strip the marks in this order. -/
def unmarked (trimmed : Str) : Option Str :=
  if startsWith trimmed "#" then some (dropFront 1 trimmed)
  else if startsWith trimmed "//" then some (dropFront 2 trimmed)
  else if startsWithFold trimmed "disabled," then some (dropFront 9 trimmed)
  else none

theorem trim_hash (e : Str) : trim ('#' :: trim e) = '#' :: trim e := by
  have hhash : isSpace '#' = false := by decide
  unfold trim
  rw [List.dropWhile_cons_of_neg (by simp [hhash]), rdropWhile_cons _ hhash,
    List.rdropWhile_idempotent]

/-! ## What the router makes of a marked entry -/

section

variable [Unicode]

theorem parseEntry_hash (t : Str) : parseEntry ('#' :: t) = none := by
  have hhash : Unicode.isSpace '#' = false := by
    rw [← isSpace_eq (by decide)]
    decide
  have htrim : trimSpace ('#' :: t) = '#' :: t.rdropWhile Unicode.isSpace := by
    change (('#' :: t).dropWhile Unicode.isSpace).rdropWhile Unicode.isSpace = _
    rw [List.dropWhile_cons_of_neg (by simp [hhash]), rdropWhile_cons _ hhash]
  apply parseEntry_of_inactive
  rw [inactive_iff, htrim]
  exact .inr (.inl (.inl rfl))

theorem parseEntry_trim {e : Str} (h : Ascii e) : parseEntry (trim e) = parseEntry e := by
  unfold parseEntry
  rw [trim_eq h, trimSpace_trimSpace]

theorem addEntry_congr {e e' : Str} (h : parseEntry e = parseEntry e') (rm : RuleManager) :
    addEntry rm e = addEntry rm e' := by
  unfold addEntry
  rw [h]

theorem newRuleManager_set {entries : List Str} {i : Nat} (hi : i < entries.length) (e : Str) :
    newRuleManager (entries.set i e) =
      (entries.drop (i + 1)).foldl addEntry (addEntry (newRuleManager (entries.take i)) e) := by
  unfold newRuleManager
  rw [List.set_eq_take_append_cons_drop, if_pos hi, List.foldl_append, List.foldl_cons]

end

/-! ## The items -/

section

variable [Casing]

/-- The type, pattern and action that the page shows. -/
def shownParts (clean : Str) (parts : List Str) : Str × Str × Str :=
  match parts with
  | part0 :: part1 :: part2 :: _ => (part0, part1, part2)
  | [part0, part1] =>
    if toUpperCase part0 = "DEFAULT" ∨ toUpperCase part0 = "FINAL" then ([], part0, part1)
    else ("DOMAIN", part0, part1)
  | _ => ([], clean, [])

def parseRuleItem (ruleStr : Str) : ParsedRule :=
  let trimmed := trim ruleStr
  let isActive := (unmarked trimmed).isNone
  let clean := (unmarked trimmed).getD trimmed
  let (type, pattern, action) := shownParts clean ((clean.splitOn ',').map trim)
  ⟨ruleStr, isActive, type, pattern, action⟩

def toggleRuleActive (ruleStr : Str) : Str :=
  if (parseRuleItem ruleStr).isActive then '#' :: trim ruleStr
  else (unmarked (trim ruleStr)).getD (trim ruleStr)

/-! ## Switching an entry off and on -/

theorem isActive_parseRuleItem (e : Str) :
    (parseRuleItem e).isActive = true ↔ unmarked (trim e) = none :=
  Option.isNone_iff_eq_none

theorem toggle_active {e : Str} (h : (parseRuleItem e).isActive = true) :
    toggleRuleActive e = '#' :: trim e :=
  if_pos h

/-- The mark comes off again, and nothing else does. -/
theorem toggle_hash (e : Str) : toggleRuleActive ('#' :: trim e) = trim e := by
  have hmarked : unmarked (trim ('#' :: trim e)) = some (trim e) := by
    rw [trim_hash]
    unfold unmarked dropFront
    rw [if_pos (by rfl), List.drop_succ_cons, List.drop_zero]
    exact congrArg some (dropWhile_trimmed isSpace e)
  have hoff : ¬ (parseRuleItem ('#' :: trim e)).isActive = true := by
    rw [isActive_parseRuleItem, hmarked]
    nofun
  unfold toggleRuleActive
  rw [if_neg hoff, hmarked]
  rfl

variable [Unicode]

/-- An entry that is switched off counts as deleted, and one that is switched off and on again
counts as it was. -/
theorem disabling_a_rule_is_deleting_it (entries : List Str) (i : Nat) (hi : i < entries.length)
    (hascii : ∀ e ∈ entries, Ascii e) (hactive : (parseRuleItem entries[i]).isActive = true)
    (ctx : MatchContext) :
    (newRuleManager (entries.set i (toggleRuleActive entries[i]))).matchContext ctx =
        (newRuleManager (entries.eraseIdx i)).matchContext ctx ∧
      (newRuleManager
          (entries.set i (toggleRuleActive (toggleRuleActive entries[i])))).matchContext ctx =
        (newRuleManager entries).matchContext ctx := by
  rw [toggle_active hactive]
  constructor
  · -- The marked entry adds nothing, as if it were not there.
    congr 1
    have hskip : ∀ rm, addEntry rm ('#' :: trim entries[i]) = rm := by
      intro rm
      unfold addEntry
      rw [parseEntry_hash]
    rw [newRuleManager_set hi, hskip, List.eraseIdx_eq_take_drop_succ]
    unfold newRuleManager
    rw [List.foldl_append]
  · congr 1
    have hsame : parseEntry (trim entries[i]) = parseEntry entries[i] :=
      parseEntry_trim (hascii _ (List.getElem_mem hi))
    rw [toggle_hash, newRuleManager_set hi, addEntry_congr hsame, ← newRuleManager_set hi,
      List.set_getElem_self]

end

/-- A proxy rule is switched off, and the host goes by the default. -/
theorem proxy_rule_is_switched_off :
    (newRuleManager ["#DOMAIN,a.cn,PROXY", "DEFAULT,BLOCK"]).matchContext
        ⟨"a.cn", 443, [], 0, []⟩ = (.block, []) ∧
      (newRuleManager ["DOMAIN,a.cn,PROXY", "DEFAULT,BLOCK"]).matchContext
        ⟨"a.cn", 443, [], 0, []⟩ = (.proxy, []) := by
  have hascii : ∀ e ∈ ([" DOMAIN,a.cn,PROXY", "DEFAULT,BLOCK"] : List Str), Ascii e := by
    intro e he
    apply ascii_of_all
    revert e
    decide
  obtain ⟨hoff, hon⟩ := disabling_a_rule_is_deleting_it [" DOMAIN,a.cn,PROXY", "DEFAULT,BLOCK"] 0
    (by decide) hascii (by decide) ⟨"a.cn", 443, [], 0, []⟩
  exact ⟨hoff.trans (by decide), hon.trans (by decide)⟩

/-! ## Types, patterns and actions by their names -/

/-- The text names the type of a rule. The keywords INTERCEPT and MAP name the types that they
stand for. -/
def NamesType (type : Str) : RuleType → Prop
  | .domain _ => type = "DOMAIN" ∨ type = "INTERCEPT"
  | .process _ => type = "PROCESS"
  | .url _ => type = "URL" ∨ type = "MAP"
  | .pid _ => type = "PID"
  | .ipCidr _ => type = "IP_CIDR"

/-- The text is the pattern of a rule: the same text, or the number or network it is read as. -/
def NamesPattern (pattern : Str) : RuleType → Prop
  | .domain p | .process p | .url p => pattern = p
  | .pid pid => atoi pattern = (pid, true)
  | .ipCidr cidr => parseCIDR pattern = some cidr

theorem parseAction_eq_some {s : Str} {a : RuleAction} (h : parseAction s = some a) :
    s = a.string := by
  unfold parseAction at h
  repeat' split at h
  all_goals cases h
  all_goals assumption

theorem parseCidrAction_eq_some {s : Str} {a : RuleAction} (h : parseCidrAction s = some a) :
    s = a.string := by
  unfold parseCidrAction at h
  repeat' split at h
  all_goals cases h
  all_goals assumption

/-- The type that the keyword `p0` gives a pattern. -/
def typeOf (p0 pattern : Str) : RuleType :=
  if p0 = "PID" then .pid (sscanfInt pattern)
  else if p0 = "PROCESS" then .process pattern
  else if p0 = "URL" ∨ p0 = "MAP" then .url pattern
  else .domain pattern

theorem namesType_typeOf (p0 pattern : Str) :
    NamesType p0 (typeOf p0 pattern) ↔
      p0 ∈ [("PID" : Str), "PROCESS", "URL", "MAP", "DOMAIN", "INTERCEPT"] := by
  unfold typeOf
  repeat' split
  all_goals simp_all [NamesType]
  rename_i hurl
  exact hurl.imp id .inl

theorem namesType_domain (p0 pattern : Str) :
    NamesType "DOMAIN" (typeOf p0 pattern) ↔
      p0 ∉ [("PID" : Str), "PROCESS", "URL", "MAP"] := by
  unfold typeOf
  repeat' split
  all_goals simp_all [NamesType]

theorem namesPattern_typeOf (p0 pattern : Str) :
    NamesPattern pattern (typeOf p0 pattern) ↔ (p0 = "PID" → (atoi pattern).2 = true) := by
  by_cases hpid : p0 = "PID"
  · unfold typeOf
    rw [if_pos hpid]
    simp only [NamesPattern, hpid, true_imp_iff]
    constructor
    · intro h
      rw [h]
    · intro h
      rw [(sscanfInt_eq h).1, ← h]
  · simp only [hpid, false_imp_iff, iff_true]
    unfold typeOf
    rw [if_neg hpid]
    repeat' split
    all_goals rfl

/-! ## What the page shows -/

section

variable [Unicode]

/-- The item shows this rule. -/
structure Shows (item : ParsedRule) (r : Rule) : Prop where
  active : item.isActive = true
  type : NamesType (toUpper item.type) r.type
  pattern : NamesPattern item.pattern r.type
  action : toUpper item.action = r.action.string

/-- Entries with these fields are shown as the router reads them. -/
def ShownRight : List Str → Prop
  | [f0, f1] =>
    if toUpper f0 = "INTERCEPT" then f0 = f1
    else toUpper f0 ∉ [("PID" : Str), "PROCESS", "URL", "MAP"]
  | f0 :: f1 :: f2 :: rest =>
    if toUpper f0 = "MAP" then toUpper f2 = "MAP"
    else if toUpper f0 = "INTERCEPT" then toUpper f2 = "INTERCEPT"
    else toUpper f0 = "IP_CIDR" ∨
      rest = [] ∧ (toUpper f0 ∈ [("DOMAIN" : Str), "PROCESS", "URL"] ∨
        toUpper f0 = "PID" ∧ (atoi f1).2 = true)
  | _ => False

theorem entryFields_eq {e : Str} (h : Ascii e) :
    ((trim e).splitOn ',').map trim = entryFields e := by
  unfold entryFields
  rw [map_trim_splitOn h.trim, trim_eq h]

theorem unmarked_of_active {e : Str} (h : Ascii e) (hactive : ¬ inactive (trimSpace e)) :
    unmarked (trim e) = none := by
  rw [inactive_iff, ← trim_eq h, toUpper_eq h.trim] at hactive
  simp only [not_or] at hactive
  obtain ⟨-, ⟨hhash, hslash⟩, hdisabled⟩ := hactive
  unfold unmarked
  exact (if_neg hhash).trans ((if_neg hslash).trans (if_neg hdisabled))

theorem addPattern_eq_rule {p0 pattern target : Str} {action : RuleAction} {r : Rule}
    (h : addPattern p0 pattern action target = .rule r) :
    r = ⟨typeOf p0 pattern, action, target⟩ ∧
      (p0 ≠ "PID" → ¬ (toUpper pattern = "DEFAULT" ∨ toUpper pattern = "FINAL")) := by
  unfold addPattern at h
  unfold typeOf
  split at h
  · cases h
    simp_all
  split at h
  · cases h
  split at h
  · cases h
    simp_all
  split at h
  · cases h
    simp_all
  · cases h
    simp_all

/-- No action is spelled as a number. -/
theorem atoi_action {s : Str} (h : Ascii s) {a : RuleAction} (hs : toUpper s = a.string) :
    (atoi s).2 = false := by
  by_contra hnum
  obtain ⟨c, hc, hdigit⟩ := (sscanfInt_eq (by simpa using hnum)).2
  have hletters : a.string.all (fun d => !isDigit d) = true := by cases a <;> decide
  have hmem : c ∈ a.string := by
    rw [← hs, toUpper_eq h]
    exact List.mem_map.mpr ⟨c, hc, toUpper_of_isDigit hdigit⟩
  have hnot := List.all_eq_true.mp hletters c hmem
  rw [hdigit] at hnot
  cases hnot

theorem ascii_field {e f : Str} (h : Ascii e) (hf : f ∈ entryFields e) : Ascii f := by
  rw [← entryFields_eq h] at hf
  obtain ⟨part, hpart, rfl⟩ := List.mem_map.mp hf
  exact Ascii.trim fun c hc => h.trim c (mem_of_mem_splitOn hpart hc)

/-- With the first field as pattern and the second as action, the second field does not name the
pattern. -/
theorem untyped_not_shown {f0 f1 f2 : Str} {a : RuleAction} (h : Ascii f1)
    (hmap : toUpper f0 ≠ "MAP") (hintercept : toUpper f0 ≠ "INTERCEPT")
    (haction : toUpper f1 = a.string) :
    ¬ (NamesType (toUpper f0) (typeOf (toUpper f0) f0) ∧
      NamesPattern f1 (typeOf (toUpper f0) f0) ∧ toUpper f2 = a.string) := by
  rintro ⟨htype, hpattern, -⟩
  rw [namesType_typeOf] at htype
  by_cases hpid : toUpper f0 = "PID"
  · unfold typeOf at hpattern
    rw [if_pos hpid] at hpattern
    have hnum := atoi_action h haction
    rw [show atoi f1 = _ from hpattern] at hnum
    cases hnum
  · have hsame : f1 = f0 := by
      unfold typeOf at hpattern
      rw [if_neg hpid] at hpattern
      repeat' split at hpattern
      all_goals exact hpattern
    rw [hsame] at haction
    rw [haction] at htype hmap hintercept
    have hkeyword : a.string = "MAP" ∨ a.string = "INTERCEPT" := by
      clear * - htype
      revert htype
      cases a <;> decide
    exact hkeyword.elim hmap hintercept

/-- An item that is switched on, with the texts it shows. -/
theorem shows_iff {e type pattern action : Str} {r : Rule} :
    Shows ⟨e, true, type, pattern, action⟩ r ↔ NamesType (toUpper type) r.type ∧
      NamesPattern pattern r.type ∧ toUpper action = r.action.string :=
  ⟨fun h => ⟨h.type, h.pattern, h.action⟩, fun h => ⟨rfl, h.1, h.2.1, h.2.2⟩⟩

end

section

variable [Casing] [Unicode]

theorem parseRuleItem_fields {e f0 f1 : Str} {more : List Str} (h : Ascii e)
    (hactive : ¬ inactive (trimSpace e)) (hf : entryFields e = f0 :: f1 :: more) :
    parseRuleItem e = ⟨e, true, (shownParts (trim e) (f0 :: f1 :: more)).1,
      (shownParts (trim e) (f0 :: f1 :: more)).2.1,
      (shownParts (trim e) (f0 :: f1 :: more)).2.2⟩ := by
  unfold parseRuleItem
  dsimp only
  rw [unmarked_of_active h hactive, Option.getD_none, entryFields_eq h, hf]
  rfl

/-- Two fields are shown as a domain rule. -/
theorem parseRuleItem_two {e f0 f1 : Str} (h : Ascii e) (hactive : ¬ inactive (trimSpace e))
    (hf : entryFields e = [f0, f1]) (hrule : ¬ (toUpper f0 = "DEFAULT" ∨ toUpper f0 = "FINAL")) :
    parseRuleItem e = ⟨e, true, "DOMAIN", f0, f1⟩ := by
  have hascii : Ascii f0 := ascii_field h (by simp [hf])
  rw [parseRuleItem_fields h hactive hf]
  unfold shownParts
  dsimp only
  rw [toUpperCase_eq hascii, if_neg hrule]

theorem shows_two {e f0 f1 : Str} (h : Ascii e) {r : Rule} (hactive : ¬ inactive (trimSpace e))
    (hf : entryFields e = [f0, f1]) (hr : (formOf f0 f1 []).read = some (.rule r)) :
    Shows (parseRuleItem e) r ↔ ShownRight [f0, f1] := by
  have hdomain : toUpper "DOMAIN" = ("DOMAIN" : Str) := toUpper_eq (ascii_of_all rfl)
  unfold formOf at hr
  unfold ShownRight
  dsimp only at hr ⊢
  split at hr
  · -- The pattern is the second field, and the page shows the first.
    rename_i hintercept
    obtain ⟨rfl, -⟩ := addPattern_eq_rule (Option.some.inj hr)
    rw [parseRuleItem_two h hactive hf (by simp [hintercept]), shows_iff, if_pos hintercept]
    constructor
    · intro hshows
      exact hshows.2.1
    · rintro rfl
      exact ⟨.inl hdomain, rfl, hintercept⟩
  · rename_i hintercept
    obtain ⟨a, haction, hadd⟩ := Option.map_eq_some_iff.mp hr
    obtain ⟨rfl, hdefault⟩ := addPattern_eq_rule hadd
    have hrule : ¬ (toUpper f0 = "DEFAULT" ∨ toUpper f0 = "FINAL") := by
      intro hname
      refine hdefault ?_ hname
      rcases hname with hname | hname <;> simp [hname]
    rw [parseRuleItem_two h hactive hf hrule, shows_iff, if_neg hintercept, hdomain,
      namesType_domain]
    constructor
    · intro hshows
      exact hshows.1
    · intro hname
      refine ⟨hname, ?_, parseAction_eq_some haction⟩
      rw [namesPattern_typeOf]
      intro hpid
      exact absurd (by simp [hpid]) hname

theorem shows_more {e f0 f1 f2 : Str} {rest : List Str} (h : Ascii e) {r : Rule}
    (hactive : ¬ inactive (trimSpace e)) (hf : entryFields e = f0 :: f1 :: f2 :: rest)
    (hr : (formOf f0 f1 (f2 :: rest)).read = some (.rule r)) :
    Shows (parseRuleItem e) r ↔ ShownRight (f0 :: f1 :: f2 :: rest) := by
  have hitem : parseRuleItem e = ⟨e, true, f0, f1, f2⟩ := parseRuleItem_fields h hactive hf
  rw [hitem, shows_iff]
  unfold formOf at hr
  unfold ShownRight
  dsimp only at hr ⊢
  split at hr
  · rename_i hmap
    obtain ⟨rfl, -⟩ := addPattern_eq_rule (Option.some.inj hr)
    rw [if_pos hmap, hmap]
    exact ⟨fun hshows => hshows.2.2, fun haction => ⟨.inr rfl, rfl, haction⟩⟩
  rename_i hmap
  rw [if_neg hmap]
  split at hr
  · rename_i hintercept
    obtain ⟨rfl, -⟩ := addPattern_eq_rule (Option.some.inj hr)
    rw [if_pos hintercept, hintercept]
    exact ⟨fun hshows => hshows.2.2, fun haction => ⟨.inr rfl, rfl, haction⟩⟩
  rename_i hintercept
  rw [if_neg hintercept]
  split at hr
  · rename_i hcidr
    unfold Form.read at hr
    dsimp only at hr
    split at hr
    · rename_i action cidr haction hnet
      cases hr
      simp only [hcidr, true_or, iff_true]
      exact ⟨rfl, hnet, parseCidrAction_eq_some haction⟩
    · cases hr
  rename_i hcidr
  split at hr
  · rename_i hrest
    obtain ⟨a, haction, hadd⟩ := Option.map_eq_some_iff.mp hr
    obtain ⟨rfl, -⟩ := addPattern_eq_rule hadd
    rw [namesType_typeOf, namesPattern_typeOf, parseAction_eq_some haction]
    simp only [List.mem_cons, hmap, hintercept, hcidr, hrest]
    grind
  · rename_i hrest
    obtain ⟨a, haction, hadd⟩ := Option.map_eq_some_iff.mp hr
    obtain ⟨rfl, -⟩ := addPattern_eq_rule hadd
    simp only [hcidr, hrest, false_and, or_false, iff_false]
    exact untyped_not_shown (ascii_field h (by simp [hf])) hmap hintercept
      (parseAction_eq_some haction)

/-- The page shows the rule that the router takes from an entry, exactly for these fields. -/
theorem page_shows_the_rule (e : Str) (hascii : Ascii e) (r : Rule)
    (h : (newRuleManager [e]).rules = [r]) :
    Shows (parseRuleItem e) r ↔ ShownRight (entryFields e) := by
  have hentry : parseEntry e = some (.rule r) := by
    have hrules : (addEntry ⟨[], [], .direct, true⟩ e).rules = [r] := h
    unfold addEntry at hrules
    split at hrules
    · rename_i r' hparse
      obtain rfl : r' = r := List.singleton_inj.mp hrules
      exact hparse
    · cases hrules
    · cases hrules
  obtain ⟨hactive, f0, f1, more, hf, hr⟩ := parseEntry_some hentry
  cases more with
  | nil =>
    rw [shows_two hascii hactive hf hr, hf]
  | cons f2 rest =>
    rw [shows_more hascii hactive hf hr, hf]

end

/-- A domain rule is shown as it is. -/
theorem domain_rule_is_shown :
    (newRuleManager ["DOMAIN, a.cn, proxy"]).rules = [⟨.domain "a.cn", .proxy, []⟩] ∧
      Shows (parseRuleItem "DOMAIN, a.cn, proxy") ⟨.domain "a.cn", .proxy, []⟩ := by
  have hrules : (newRuleManager ["DOMAIN, a.cn, proxy"]).rules =
      [⟨.domain "a.cn", .proxy, []⟩] := by decide
  have hfields : entryFields "DOMAIN, a.cn, proxy" = [("DOMAIN" : Str), "a.cn", "proxy"] := by
    decide
  have hright : ShownRight (entryFields "DOMAIN, a.cn, proxy") := by
    rw [hfields]
    unfold ShownRight
    decide
  exact ⟨hrules, (page_shows_the_rule _ (ascii_of_all (by decide)) _ hrules).mpr hright⟩

/-- An intercepted domain is shown as a rule for the domain INTERCEPT. -/
theorem intercept_rule_is_shown_wrong :
    (newRuleManager ["INTERCEPT,example.com"]).rules =
        [⟨.domain "example.com", .intercept, []⟩] ∧
      parseRuleItem "INTERCEPT,example.com" =
        ⟨"INTERCEPT,example.com", true, "DOMAIN", "INTERCEPT", "example.com"⟩ ∧
      ¬ Shows (parseRuleItem "INTERCEPT,example.com")
        ⟨.domain "example.com", .intercept, []⟩ := by
  have hitem : parseRuleItem "INTERCEPT,example.com" =
      ⟨"INTERCEPT,example.com", true, "DOMAIN", "INTERCEPT", "example.com"⟩ := by decide
  refine ⟨by decide, hitem, ?_⟩
  intro hshows
  have hpattern : (parseRuleItem "INTERCEPT,example.com").pattern = "example.com" :=
    hshows.pattern
  rw [hitem] at hpattern
  exact absurd hpattern (by decide)

/-! ## Switching an entry on -/

section

variable [Unicode]

/-- The text behind the mark for which the router skips a trimmed entry. -/
def skippedText (trimmed : Str) : Option Str :=
  if hasPrefix trimmed "#" then some (trimmed.drop 1)
  else if hasPrefix trimmed "//" then some (trimmed.drop 2)
  else if hasPrefix (toUpper trimmed) "DISABLED," then some (trimmed.drop 9)
  else none

/-- What the router skips and is not blank has one of the marks. -/
theorem isSome_skippedText {t : Str} (h : inactive t) (hne : t ≠ []) : (skippedText t).isSome := by
  unfold skippedText
  rcases ((inactive_iff t).mp h).resolve_left hne with (hmark | hmark) | hmark
  · rw [if_pos hmark, Option.isSome_some]
  · split <;> rfl
  · split
    · rfl
    · split <;> rfl

theorem skippedText_suffix {t rest : Str} (h : skippedText t = some rest) : rest <:+ t := by
  unfold skippedText at h
  split at h
  · cases h
    exact List.drop_suffix _ _
  split at h
  · cases h
    exact List.drop_suffix _ _
  split at h
  · cases h
    exact List.drop_suffix _ _
  · cases h

/-- The page finds the marks that the router finds, and cuts off the spaces behind them. -/
theorem unmarked_eq {t : Str} (h : Ascii t) :
    unmarked t = (skippedText t).map (·.dropWhile isSpace) := by
  unfold skippedText
  rw [toUpper_eq h]
  by_cases hhash : hasPrefix t "#" = true
  · rw [if_pos hhash]
    exact if_pos hhash
  by_cases hslash : hasPrefix t "//" = true
  · rw [if_neg hhash, if_pos hslash]
    exact (if_neg hhash).trans (if_pos hslash)
  rw [if_neg hhash, if_neg hslash]
  by_cases hdisabled : hasPrefix (t.map Char.toUpper) "DISABLED," = true
  · rw [if_pos hdisabled]
    exact (if_neg hhash).trans ((if_neg hslash).trans (if_pos hdisabled))
  · rw [if_neg hdisabled]
    exact (if_neg hhash).trans ((if_neg hslash).trans (if_neg hdisabled))

omit [Unicode] in
/-- The end of a trimmed text is trimmed. -/
theorem trim_of_suffix {s u : Str} (h : u <:+ trim s) : trim u = u.dropWhile isSpace := by
  unfold trim
  rw [List.rdropWhile_eq_self_iff]
  intro hne
  obtain ⟨front, hfront⟩ := (List.dropWhile_suffix isSpace).trans h
  have htrim : trim s ≠ [] := by
    rw [← hfront]
    exact List.append_ne_nil_of_right_ne_nil front hne
  have hlast := List.rdropWhile_last_not isSpace (s.dropWhile isSpace) htrim
  have hsame : (trim s).getLast htrim = (u.dropWhile isSpace).getLast hne := by
    simp only [← hfront]
    exact List.getLast_append_of_ne_nil _ hne
  rwa [← hsame]

/-- What the page makes of an entry that the router skips: the text behind the mark, trimmed. -/
theorem unmarked_skipped {e rest : Str} (hascii : Ascii e)
    (hrest : skippedText (trimSpace e) = some rest) :
    unmarked (trim e) = some (trim rest) := by
  have hsuffix : rest <:+ trim e := by
    rw [trim_eq hascii]
    exact skippedText_suffix hrest
  rw [unmarked_eq hascii.trim, trim_eq hascii, hrest, trim_of_suffix hsuffix, Option.map_some]

variable [Casing]

omit [Unicode] in
theorem toggle_inactive {e u : Str} (h : unmarked (trim e) = some u) : toggleRuleActive e = u := by
  have hoff : ¬ (parseRuleItem e).isActive = true := by
    rw [isActive_parseRuleItem, h]
    nofun
  unfold toggleRuleActive
  rw [if_neg hoff, h, Option.getD_some]

/-- The page shows the two texts as the same rule, switched on or off. -/
def SameItem (a b : ParsedRule) : Prop :=
  a.type = b.type ∧ a.pattern = b.pattern ∧ a.action = b.action

omit [Unicode] in
theorem sameItem_of_clean {e u : Str} (h : unmarked (trim e) = some u)
    (hu : unmarked (trim u) = none) (htrim : trim u = u) :
    SameItem (parseRuleItem e) (parseRuleItem u) := by
  have hclean : (unmarked (trim u)).getD (trim u) = (unmarked (trim e)).getD (trim e) := by
    rw [hu, h, htrim]
    rfl
  unfold SameItem parseRuleItem
  simp only [hclean, and_self]

/-- An entry with a mark, and with some text behind it, is no longer skipped after one switch and
is still shown as the same rule, exactly when the text behind the mark has no mark itself. -/
theorem enabling_takes_effect_iff (e : Str) (hascii : Ascii e) (hskip : inactive (trimSpace e))
    (hrest : trimSpace ((skippedText (trimSpace e)).getD []) ≠ []) :
    (¬ inactive (trimSpace (toggleRuleActive e)) ∧
        SameItem (parseRuleItem e) (parseRuleItem (toggleRuleActive e))) ↔
      ¬ inactive (trimSpace ((skippedText (trimSpace e)).getD [])) := by
  have hne : trimSpace e ≠ [] := by
    intro hblank
    rw [hblank] at hrest
    exact hrest rfl
  obtain ⟨rest, hsome⟩ := Option.isSome_iff_exists.mp (isSome_skippedText hskip hne)
  rw [hsome, Option.getD_some] at hrest ⊢
  have hascii' : Ascii rest := by
    intro c hc
    apply hascii.trim c
    rw [trim_eq hascii]
    exact (skippedText_suffix hsome).mem hc
  have hmark := unmarked_skipped hascii hsome
  have htwice : trimSpace (trimSpace rest) = trimSpace rest := trimSpace_trimSpace rest
  rw [toggle_inactive hmark, trim_eq hascii', htwice, and_iff_left_iff_imp]
  intro hactive
  rw [← trim_eq hascii']
  apply sameItem_of_clean hmark
  · have hsame : trim (trim rest) = trim rest := trimmed_twice isSpace rest
    rw [hsame]
    exact unmarked_of_active hascii' hactive
  · exact trimmed_twice isSpace rest

end

/-- An entry with one mark is switched on. -/
theorem marked_rule_is_switched_on :
    inactive "# DOMAIN,a.cn,PROXY" ∧ toggleRuleActive "# DOMAIN,a.cn,PROXY" = "DOMAIN,a.cn,PROXY" ∧
      ¬ inactive (trimSpace (toggleRuleActive "# DOMAIN,a.cn,PROXY")) := by
  have htext : skippedText (trimSpace "# DOMAIN,a.cn,PROXY") = some " DOMAIN,a.cn,PROXY" := by
    decide
  have hon := (enabling_takes_effect_iff "# DOMAIN,a.cn,PROXY" (ascii_of_all (by decide))
    (by decide) (by rw [htext]; decide)).mpr (by rw [htext]; decide)
  exact ⟨by decide, by decide, hon.1⟩

/-- Under a second mark the entry stays off, and its type is shown with the mark. -/
theorem second_mark_keeps_the_rule_off :
    inactive "##DOMAIN,a.cn,PROXY" ∧
      skippedText "##DOMAIN,a.cn,PROXY" = some "#DOMAIN,a.cn,PROXY" ∧
      toggleRuleActive "##DOMAIN,a.cn,PROXY" = "#DOMAIN,a.cn,PROXY" ∧
      inactive (toggleRuleActive "##DOMAIN,a.cn,PROXY") ∧
      (parseRuleItem "##DOMAIN,a.cn,PROXY").type = "#DOMAIN" ∧
      (parseRuleItem "#DOMAIN,a.cn,PROXY").type = "DOMAIN" := by
  decide

end vproxy
