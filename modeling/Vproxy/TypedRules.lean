-- Entries with a type and a pattern. Such an entry adds one rule, and the rule takes only what
-- its pattern matches. But the pattern DEFAULT or FINAL sets the default action of all requests,
-- whatever the type before it.
import Vproxy.RouterReference

open go go.net

namespace vproxy

/-! ## Entries with a type -/

/-- The types that stand before a pattern. -/
inductive Keyword where
  | domain
  | process
  | url
  | intercept
  | map
  deriving DecidableEq, Repr

def Keyword.name : Keyword → String
  | .domain => "DOMAIN"
  | .process => "PROCESS"
  | .url => "URL"
  | .intercept => "INTERCEPT"
  | .map => "MAP"

def Keyword.text (k : Keyword) : Str := k.name

/-- What a pattern of this type is compared with. -/
def Keyword.ruleType : Keyword → Str → RuleType
  | .domain, pattern => .domain pattern
  | .process, pattern => .process pattern
  | .url, pattern => .url pattern
  | .intercept, pattern => .domain pattern
  | .map, pattern => .url pattern

def Keyword.target : Keyword → Str → Str
  | .map, third => third
  | _, _ => []

section

variable [Unicode]

def Keyword.action : Keyword → Str → Option RuleAction
  | .intercept, _ => some .intercept
  | .map, _ => some .map
  | _, third => parseAction (toUpper third)

/-- The fields after the type: a pattern, and an action or a target but for INTERCEPT. -/
def Keyword.fields : Keyword → Str → Str → List Str
  | .intercept, pattern, _ => [pattern]
  | _, pattern, third => [pattern, third]

/-- The entry has this type and these fields. -/
def Keyword.IsEntry (k : Keyword) (e pattern third : Str) : Prop :=
  ∃ f0, toUpper f0 = k.text ∧ entryFields e = f0 :: k.fields pattern third

/-- The pattern matches the context, as the type compares them. -/
def Keyword.Matches (k : Keyword) (pattern : Str) (ctx : MatchContext) : Prop :=
  Rule.Takes ⟨k.ruleType pattern, .direct, []⟩ ctx

theorem Keyword.fits_iff_matches (k : Keyword) (pattern : Str) (a : RuleAction) (t : Str)
    (ctx : MatchContext) : Rule.fits ⟨k.ruleType pattern, a, t⟩ ctx = true ↔ k.Matches pattern ctx :=
  fits_iff (by cases k <;> exact nofun) ctx

instance (k : Keyword) (pattern : Str) (ctx : MatchContext) : Decidable (k.Matches pattern ctx) :=
  decidable_of_iff _ (k.fits_iff_matches pattern .direct [] ctx)

/-- The patterns that stand for the default. -/
def SetsDefault (pattern : Str) : Prop := toUpper pattern = "DEFAULT" ∨ toUpper pattern = "FINAL"

instance (pattern : Str) : Decidable (SetsDefault pattern) := inferInstanceAs (Decidable (_ ∨ _))

/-! ## What they add -/

omit [Unicode] in
theorem takeWhile_splitOn {s part : Str} {sep : Char} {more : List Str}
    (h : s.splitOn sep = part :: more) : part = s.takeWhile (· != sep) := by
  induction s generalizing part more with
  | nil =>
    obtain ⟨rfl, -⟩ := List.cons.inj h
    rfl
  | cons c s ih =>
    rw [List.splitOn_cons_eq_if_modifyHead] at h
    by_cases hc : c = sep
    · subst hc
      rw [if_pos (BEq.refl c)] at h
      obtain ⟨rfl, -⟩ := List.cons.inj h
      simp
    · obtain ⟨first, others, hparts⟩ := List.exists_cons_of_ne_nil (List.splitOn_ne_nil sep s)
      rw [if_neg (by simpa using hc), hparts, List.modifyHead_cons] at h
      obtain ⟨rfl, -⟩ := List.cons.inj h
      rw [List.takeWhile_cons_of_pos (by simpa using hc), ← ih hparts]

theorem trimSpace_front {s : Str} (h : ∀ c ∈ s.head?, Unicode.isSpace c = false) :
    trimSpace s <+: s := by
  have hfront : s.dropWhile Unicode.isSpace = s := by
    cases s with
    | nil => rfl
    | cons c s => exact List.dropWhile_cons_of_neg (by simp [h c rfl])
  unfold trimSpace
  rw [hfront, ← List.reverse_suffix, List.reverse_reverse]
  exact List.dropWhile_suffix _

theorem head_trimSpace {s : Str} {c : Char} (h : c ∈ (trimSpace s).head?) :
    Unicode.isSpace c = false := by
  have hfront : trimSpace s <+: s.dropWhile Unicode.isSpace := by
    unfold trimSpace
    rw [← List.reverse_suffix, List.reverse_reverse]
    exact List.dropWhile_suffix _
  obtain ⟨rest, hrest⟩ := hfront
  cases htrim : trimSpace s with
  | nil => simp [htrim] at h
  | cons d t =>
    obtain rfl : d = c := by simpa [htrim] using h
    rw [htrim] at hrest
    have hhead := List.head?_dropWhile_not Unicode.isSpace s
    rw [← hrest] at hhead
    simpa using hhead

/-- The first field stands at the front of the trimmed entry. -/
theorem firstField_front {e f0 : Str} {more : List Str} (h : entryFields e = f0 :: more) :
    f0 <+: trimSpace e := by
  obtain ⟨part, parts, hsplit⟩ := List.exists_cons_of_ne_nil (List.splitOn_ne_nil ',' (trimSpace e))
  unfold entryFields at h
  rw [hsplit, List.map_cons] at h
  obtain ⟨rfl, -⟩ := List.cons.inj h
  have hpart : part <+: trimSpace e := by
    rw [takeWhile_splitOn hsplit]
    exact List.takeWhile_prefix _
  refine (trimSpace_front ?_).trans hpart
  intro c hc
  obtain ⟨rest, hrest⟩ := hpart
  apply head_trimSpace (s := e)
  rw [← hrest]
  cases part with
  | nil => cases hc
  | cons d part => exact hc

omit [Unicode] in
/-- No type starts like a comment or like a disabled entry. -/
theorem Keyword.text_front (k : Keyword) :
    ∃ c d rest, k.text = c :: d :: rest ∧ c ≠ '#' ∧ c ≠ '/' ∧ (c ≠ 'D' ∨ d ≠ 'I') := by
  cases k <;> simp [Keyword.text, Keyword.name]

/-- An entry with a type is in use. -/
theorem Keyword.active {k : Keyword} {e f0 : Str} {more : List Str}
    (htype : toUpper f0 = k.text) (h : entryFields e = f0 :: more) : ¬ inactive (trimSpace e) := by
  obtain ⟨c, d, front, htext, hhash, hslash, hdisabled⟩ := k.text_front
  obtain ⟨rest, hrest⟩ := firstField_front h
  have hfront : toUpper (trimSpace e) = c :: d :: (front ++ toUpper rest) := by
    rw [← hrest, toUpper, List.map_append]
    change toUpper f0 ++ _ = _
    rw [htype, htext]
    rfl
  intro hoff
  rcases (inactive_iff _).mp hoff with hempty | (hmark | hmark) | hmark
  · rw [hempty] at hfront
    cases hfront
  all_goals
    obtain ⟨tail, htail⟩ := List.isPrefixOf_iff_prefix.mp hmark
    rw [← htail] at hfront
    simp [toUpper, Unicode.toUpper_ascii] at hfront
  · exact hhash hfront.1.symm
  · exact hslash hfront.1.symm
  · exact hdisabled.elim (· hfront.1.symm) (· hfront.2.1.symm)

theorem addPattern_keyword (k : Keyword) (pattern : Str) (a : RuleAction) (target : Str) :
    addPattern k.text pattern a target =
      if SetsDefault pattern then .default a else .rule ⟨k.ruleType pattern, a, target⟩ := by
  have hpid : k.text ≠ "PID" := by cases k <;> decide
  unfold addPattern SetsDefault
  rw [if_neg hpid]
  refine if_congr Iff.rfl rfl ?_
  cases k <;> simp [Keyword.text, Keyword.name, Keyword.ruleType]

theorem formOf_keyword {k : Keyword} {f0 : Str} (htype : toUpper f0 = k.text)
    (pattern third : Str) :
    ∃ f1 more, k.fields pattern third = f1 :: more ∧
      (formOf f0 f1 more).read = (k.action third).map fun a =>
        addPattern k.text pattern a (k.target third) := by
  cases k <;>
    simp [Keyword.fields, formOf, htype, Keyword.text, Keyword.name, Form.read, Keyword.action,
      Keyword.target]

/-- An entry with a type adds a rule of its type, unless its pattern stands for the default. -/
theorem parseEntry_typed {k : Keyword} {e pattern third : Str} (h : k.IsEntry e pattern third) :
    parseEntry e = (k.action third).map fun a =>
      if SetsDefault pattern then .default a
      else .rule ⟨k.ruleType pattern, a, k.target third⟩ := by
  obtain ⟨f0, htype, hfields⟩ := h
  obtain ⟨f1, more, hmore, hread⟩ := formOf_keyword htype pattern third
  rw [hmore] at hfields
  rw [parseEntry_fields (Keyword.active htype hfields) hfields, hread]
  simp only [addPattern_keyword]

theorem ruleOf_typed {k : Keyword} {e pattern third : Str} (h : k.IsEntry e pattern third) :
    ruleOf e = if SetsDefault pattern then none
      else (k.action third).map fun a => ⟨k.ruleType pattern, a, k.target third⟩ := by
  unfold ruleOf
  rw [parseEntry_typed h]
  cases k.action third <;> by_cases hdefault : SetsDefault pattern <;> simp [hdefault]

theorem defaultOf_typed {k : Keyword} {e pattern third : Str} (h : k.IsEntry e pattern third) :
    defaultOf e = if SetsDefault pattern then k.action third else none := by
  unfold defaultOf
  rw [parseEntry_typed h]
  cases k.action third <;> by_cases hdefault : SetsDefault pattern <;> simp [hdefault]

/-! ## What they change -/

theorem lastDefault_append (front rest : List Str) :
    lastDefault (front ++ rest) =
      (rest.filterMap defaultOf).getLast?.getD (lastDefault front) := by
  unfold lastDefault
  rw [List.filterMap_append, List.getLast?_append]
  cases (rest.filterMap defaultOf).getLast? <;> rfl

/-- One more entry keeps the default if it sets none, or a later entry sets it again, or it sets
the one there is. -/
theorem lastDefault_insert (front rest : List Str) (e : Str) :
    lastDefault (front ++ e :: rest) = lastDefault (front ++ rest) ↔
      defaultOf e = none ∨ (∃ d ∈ rest, (defaultOf d).isSome) ∨
        defaultOf e = some (lastDefault front) := by
  have hlast : (rest.filterMap defaultOf).getLast? = none ↔
      ¬ ∃ d ∈ rest, (defaultOf d).isSome := by
    simp
  rw [show front ++ e :: rest = (front ++ [e]) ++ rest by simp, lastDefault_append _ rest,
    lastDefault_append front rest, lastDefault_append front [e]]
  cases hrest : (rest.filterMap defaultOf).getLast? with
  | some a =>
    have hset : ∃ d ∈ rest, (defaultOf d).isSome := by
      by_contra hnone
      rw [hlast.mpr hnone] at hrest
      cases hrest
    simp [hset]
  | none =>
    have hnone := hlast.mp hrest
    cases he : defaultOf e <;> simp [he, hnone]

theorem rulesInOrder_insert (front rest : List Str) (e : Str) (changes : List Change) :
    rulesInOrder (front ++ e :: rest) changes =
      changes.reverse.flatMap Change.rules ++ front.filterMap ruleOf ++ (ruleOf e).toList ++
        rest.filterMap ruleOf := by
  unfold rulesInOrder
  cases he : ruleOf e <;> simp [he]

/-- An entry whose rule does not fit shows only in the default. -/
theorem byRules_insert {e : Str} {ctx : MatchContext} (h : ∀ r ∈ ruleOf e, r.fits ctx = false)
    (front rest : List Str) (changes : List Change)
    (hdefault : lastDefault (front ++ e :: rest) = lastDefault (front ++ rest)) :
    (described (front ++ e :: rest) changes).byRules ctx =
      (described (front ++ rest) changes).byRules ctx := by
  have hfind : (rulesInOrder (front ++ e :: rest) changes).find? (fun r => r.fits ctx) =
      (rulesInOrder (front ++ rest) changes).find? fun r => r.fits ctx := by
    have hnone : (ruleOf e).toList.find? (fun r => r.fits ctx) = none := by
      rw [List.find?_eq_none]
      intro r hr
      simp [h r (by simpa using hr)]
    rw [rulesInOrder_insert]
    simp only [rulesInOrder, List.filterMap_append, List.find?_append, hnone, Option.or_none,
      Option.or_assoc]
  unfold RuleManager.byRules
  dsimp only [described]
  rw [hfind, hdefault]

theorem fits_blank (r : Rule) : r.fits MatchContext.blank = false := by
  have hip : parseIP [] = none := by decide
  unfold Rule.fits MatchContext.blank
  cases r.type <;> simp [hip]

/-- A context with nothing filled in goes to the default. -/
theorem matchContext_blank (rm : RuleManager) :
    rm.matchContext MatchContext.blank = (rm.defaultAction, []) := by
  have hnone : rm.rules.find? (fun r => r.fits MatchContext.blank) = none := by simp [fits_blank]
  rw [matchContext_name (by simp [MatchContext.blank]) (by decide) (by decide)]
  unfold RuleManager.byRules
  rw [hnone]

theorem Keyword.not_matches_blank (k : Keyword) (pattern : Str) :
    ¬ k.Matches pattern MatchContext.blank := by
  rw [← k.fits_iff_matches pattern .direct [], fits_blank]
  exact Bool.false_ne_true

/-- What the pattern does not match, the rule of the entry does not fit. -/
theorem not_fits_of_not_matches {k : Keyword} {e pattern third : Str}
    (h : k.IsEntry e pattern third) {ctx : MatchContext} (hno : ¬ k.Matches pattern ctx) :
    ∀ r ∈ ruleOf e, r.fits ctx = false := by
  intro r hr
  rw [ruleOf_typed h] at hr
  split at hr
  · cases hr
  · obtain ⟨a, -, rfl⟩ := Option.map_eq_some_iff.mp hr
    rw [← Bool.not_eq_true, k.fits_iff_matches]
    exact hno

/-- A typed entry leaves every context alone that its pattern does not match, unless its pattern
is DEFAULT or FINAL and its action becomes a new default. -/
theorem typed_rule_keeps_to_its_pattern (k : Keyword) (e pattern third : Str)
    (h : k.IsEntry e pattern third) (front rest : List Str) (changes : List Change) :
    (∀ ctx, ¬ k.Matches pattern ctx →
      (managed (front ++ e :: rest) changes).matchContext ctx =
        (managed (front ++ rest) changes).matchContext ctx) ↔
    ¬ SetsDefault pattern ∨ k.action third = none ∨ (∃ d ∈ rest, (defaultOf d).isSome) ∨
      k.action third = some (lastDefault front) := by
  have hkeeps : lastDefault (front ++ e :: rest) = lastDefault (front ++ rest) ↔
      ¬ SetsDefault pattern ∨ k.action third = none ∨ (∃ d ∈ rest, (defaultOf d).isSome) ∨
        k.action third = some (lastDefault front) := by
    rw [lastDefault_insert, defaultOf_typed h]
    by_cases hdefault : SetsDefault pattern <;> simp [hdefault]
  rw [← hkeeps, managed_eq, managed_eq]
  constructor
  · -- A blank context shows the two defaults.
    intro hsame
    have hblank := hsame MatchContext.blank (k.not_matches_blank pattern)
    rw [matchContext_blank, matchContext_blank] at hblank
    exact (Prod.mk.inj hblank).1
  · intro hdefault ctx hno
    refine matchContext_congr ?_ ?_ ?_
    · rfl
    · rfl
    · exact byRules_insert (not_fits_of_not_matches h hno) front rest changes hdefault

end

/-- Another host keeps its rule. -/
theorem rule_before_keeps_the_next :
    (managed ["DOMAIN,a.cn,BLOCK", "b.cn,PROXY"] []).matchContext
        { MatchContext.blank with host := "b.cn" } =
      (managed ["b.cn,PROXY"] []).matchContext { MatchContext.blank with host := "b.cn" } := by
  refine (typed_rule_keeps_to_its_pattern .domain "DOMAIN,a.cn,BLOCK" "a.cn" "BLOCK" ?_ []
    ["b.cn,PROXY"] []).mpr ?_ _ ?_
  · exact ⟨"DOMAIN", by decide, by decide⟩
  · exact .inl (by decide)
  · decide

/-- A domain of the name default blocks every other host. -/
theorem domain_named_default_blocks_all :
    Keyword.domain.IsEntry "DOMAIN,default,BLOCK" "default" "BLOCK" ∧
    (¬ Keyword.domain.Matches "default" { MatchContext.blank with host := "example.com" }) ∧
    (managed [] []).matchContext { MatchContext.blank with host := "example.com" } =
      (.direct, []) ∧
    (managed ["DOMAIN,default,BLOCK"] []).matchContext
      { MatchContext.blank with host := "example.com" } = (.block, []) := by
  refine ⟨⟨"DOMAIN", ?_, ?_⟩, ?_, ?_, ?_⟩
  all_goals decide

end vproxy
