-- Targets with references to the groups of the pattern (rewrite.go, evaluateRule). The target goes
-- to the regexp package as it is written. There a reference takes letters, digits and underscores
-- behind its number for its name, and what they name is mostly nothing.
import Vproxy.Rewrite
import Vproxy.Templates

open go go.url go.regexp

namespace vproxy

/-! ## Rules with groups -/

section engine

variable [Words] [Submatches]

/-- A target with a reference is expanded from the groups of the match. -/
theorem evaluateRule_expands {rule : RewriteRule} {u : Str} {groups : List (Option Str)}
    (haction : rule.action = .proxy) (hdollar : '$' ∈ rule.target)
    (hfind : Submatches.findStringSubmatch rule.regex u = some groups) :
    evaluateRule rule u =
      some ⟨.proxy, expand (Submatches.subexpNames rule.regex) groups rule.target, []⟩ := by
  have hmatch : Regexp.matchString rule.regex u = true := by
    rw [Submatches.matchString_eq, hfind]
    rfl
  have hindex : Regexp.findStringSubmatchIndex rule.regex u ≠ [] := by
    rw [Ne, Submatches.findStringSubmatchIndex_eq_nil, hfind]
    exact Option.some_ne_none groups
  rw [evaluateRule, if_pos hmatch, haction]
  dsimp only
  rw [rewriteTarget, if_pos hdollar]
  split
  · rename_i hnil
    exact absurd hnil hindex
  · rw [Submatches.expandString_eq _ _ _ _ hfind]

/-- A target without one gets the path and the query of the URL. -/
theorem evaluateRule_appends {rule : RewriteRule} {u : Str} {groups : List (Option Str)}
    (haction : rule.action = .proxy) (hdollar : '$' ∉ rule.target)
    (hfind : Submatches.findStringSubmatch rule.regex u = some groups) :
    evaluateRule rule u = some ⟨.proxy, appendPath rule.target (pathAndQuery u), []⟩ := by
  have hmatch : Regexp.matchString rule.regex u = true := by
    rw [Submatches.matchString_eq, hfind]
    rfl
  rw [evaluateRule, if_pos hmatch, haction]
  dsimp only
  rw [rewriteTarget, if_neg hdollar]

end engine

theorem dollar_mem_text {m : Nat} {t : Template m} (h : t.refs ≠ []) : '$' ∈ t.text := by
  obtain ⟨r, refs, hrefs⟩ := List.exists_cons_of_ne_nil h
  simp [Template.text, refsText, hrefs]

/-- A path that is not empty changes what it is put after. -/
theorem appendPath_ne (target : Str) {path : Str} (h : 1 < path.length) :
    appendPath target path ≠ target := by
  intro heq
  have hlength := congrArg List.length heq
  unfold appendPath trimSuffix at hlength
  split at hlength
  · rename_i hslash
    rw [if_pos hslash.1] at hlength
    simp at hlength
    omega
  · split at hlength
    · simp only [List.length_append] at hlength
      omega
    · simp only [List.length_append] at hlength
      omega

/-! ## A pattern with as many groups as needed -/

/-- `(x?)`. -/
def optionalX : Re := .group (.seq .empty (.opt (.char 'x')))

def probeText (m : Nat) : Str := (List.replicate m ("(x?)" : Str)).flatten

/-- What the text is read as, after a frame. -/
def probeFrame (m : Nat) (f : Frame) : Frame := (fun f : Frame => f.push optionalX)^[m] f

theorem probeFrame_succ (m : Nat) (f : Frame) :
    probeFrame (m + 1) f = (probeFrame m f).push optionalX :=
  Function.iterate_succ_apply' ..

theorem parse_probe (m : Nat) : Re.parse (probeText m) = some (probeFrame m .new).seq := by
  have halts : (probeFrame m .new).alts = none := by
    induction m with
    | zero => rfl
    | succ m ih => rw [probeFrame_succ, push_alts, ih]
  have hrun : ∀ f : Frame, Parser.run ⟨.plain, f, []⟩ (probeText m) =
      some ⟨.plain, probeFrame m f, []⟩ := by
    clear halts
    induction m with
    | zero => exact fun f => rfl
    | succ m ih =>
      intro f
      have hone : Parser.run ⟨.plain, f, []⟩ "(x?)" = some ⟨.plain, f.push optionalX, []⟩ := rfl
      rw [probeText, List.replicate_succ, List.flatten_cons, run_append, hone]
      exact ih _
  rw [Re.parse, hrun]
  dsimp only
  rw [Frame.close, halts]

theorem head?_flatMap {α β : Type} {l : List α} {f : α → List β} {a : α} {b : β}
    (ha : l.head? = some a) (hb : (f a).head? = some b) : (l.flatMap f).head? = some b := by
  obtain ⟨l, rfl⟩ := List.head?_eq_some_iff.mp ha
  obtain ⟨bs, hbs⟩ := List.head?_eq_some_iff.mp hb
  simp [hbs]

/-- Where there is no `x`, every group is empty. -/
theorem paths_probe_empty (n m : Nat) {t : Str} (h : t.head? ≠ some 'x') :
    ((probeFrame m .new).seq.paths n t).head? = some ⟨t, List.replicate m (some [])⟩ := by
  have hitem : optionalX.paths n t = [⟨t, [some []]⟩] := by
    cases t with
    | nil => rfl
    | cons c t =>
      have hc : c ≠ 'x' := fun heq => h (by rw [heq]; rfl)
      simp [optionalX, Re.paths, Re.groups, Path.after, hc, taken]
  induction m with
  | zero => rfl
  | succ m ih =>
    rw [probeFrame_succ, seq_push]
    refine head?_flatMap ih ?_
    simp [hitem, Path.after, List.replicate_succ']

/-- Where there are enough of them, every group takes an `x`. -/
theorem paths_probe_full (n m j : Nat) :
    ((probeFrame m .new).seq.paths n (List.replicate (m + j) 'x')).head? =
      some ⟨List.replicate j 'x', List.replicate m (some ['x'])⟩ := by
  have hitem : ∀ t : Str, (optionalX.paths n ('x' :: t)).head? = some ⟨t, [some ['x']]⟩ := by
    intro t
    simp [optionalX, Re.paths, Path.after, taken]
  induction m generalizing j with
  | zero => rw [Nat.zero_add]; rfl
  | succ m ih =>
    have hmore : m + 1 + j = m + (j + 1) := by omega
    rw [probeFrame_succ, seq_push, hmore]
    refine head?_flatMap (ih (j + 1)) ?_
    rw [List.head?_map, List.replicate_succ, hitem]
    simp [Path.after, List.replicate_succ']

/-- The match of a text from its start, if there is one. -/
theorem firstMatch_of_head {r : Re} {u : Str} {x : Path}
    (h : (r.paths u.length u).head? = some x) :
    r.firstMatch u = some (some (taken u x.rest) :: x.groups) := by
  have htails : u.tails = u :: u.tails.tail := by cases u <;> rfl
  rw [Re.firstMatch, htails, List.findSome?_cons, h]
  rfl

/-! ## The rule of the pattern -/

def probePattern (m : Nat) : Str := '/' :: (probeText m ++ ['/'])

theorem regexParts_probe (m : Nat) : regexParts (probePattern m) = some (probeText m, []) := by
  have hlast : lastIndex (probePattern m) '/' = some ((probeText m).length + 1) :=
    lastIndex_append ('/' :: probeText m) [] '/' (List.not_mem_nil)
  have hpart : hasPrefix (probePattern m) "/" = true ∧ 2 ≤ (probePattern m).length := by
    refine ⟨rfl, ?_⟩
    simp [probePattern]
  rw [regexParts, if_pos hpart, hlast]
  simp [probePattern]

theorem build_probe [Unicode] [Regexp] {m : Nat} {prog : Regexp.Prog}
    (h : Regexp.compile (probeText m) = some prog) (target : Str) :
    ∃ rule, buildRewriteRule (probePattern m) target = some rule ∧ rule.type = .regex ∧
      rule.regex = prog := by
  rw [buildRewriteRule, classify_of_parts (regexParts_probe m)]
  dsimp only
  rw [h]
  exact ⟨_, rfl, rfl, rfl⟩

theorem target_of_build [Unicode] [Regexp] {pattern target : Str} {rule : RewriteRule}
    (h : buildRewriteRule pattern target = some rule) :
    rule.target = target ∧
      rule.action = if hasPrefix target "file://" then .mock else .proxy := by
  obtain ⟨prog, _, rfl⟩ := Option.map_eq_some_iff.mp h
  exact ⟨rfl, rfl⟩

theorem firstMatch_probe_empty (m : Nat) {u : Str} (h : u.head? ≠ some 'x') :
    (probeFrame m .new).seq.firstMatch u = some (some [] :: List.replicate m (some [])) := by
  rw [firstMatch_of_head (paths_probe_empty _ m h)]
  simp [taken]

theorem firstMatch_probe_full (m : Nat) :
    (probeFrame m .new).seq.firstMatch (List.replicate m 'x') =
      some (some (List.replicate m 'x') :: List.replicate m (some ['x'])) := by
  have hhead := firstMatch_of_head (paths_probe_full (List.replicate (m + 0) 'x').length m 0)
  rw [Nat.add_zero] at hhead
  simpa [taken] using hhead

/-- A rule that fills its target as it is meant, once from empty groups and once from groups of
one character, has references in it, and all can be read. -/
theorem readable_of_answers [Words] [Submatches] {m : Nat} {t : Template m} {rule : RewriteRule}
    (htext : rule.target = t.text) (haction : rule.action = .proxy)
    (hnames : Submatches.subexpNames rule.regex = [])
    (hempty : Submatches.findStringSubmatch rule.regex "http://a/b" =
      some (some [] :: List.replicate m (some [])))
    (hfull : Submatches.findStringSubmatch rule.regex (List.replicate m 'x') =
      some (some (List.replicate m 'x') :: List.replicate m (some ['x'])))
    (h : ∀ u whole groups, Submatches.findStringSubmatch rule.regex u = some (whole :: groups) →
      groups.length = m → evaluateRule rule u = some ⟨.proxy, t.fill groups, []⟩) :
    t.refs ≠ [] ∧ t.Readable := by
  have hrefs : t.refs ≠ [] := by
    intro hnone
    have hfront : t.text = t.front := by simp [Template.text, refsText, hnone]
    have hfill : t.fill (List.replicate m (some [])) = t.text := by
      simp [Template.fill, hfront, hnone]
    have happends := evaluateRule_appends haction (htext ▸ hfront ▸ t.front_plain) hempty
    rw [h _ _ _ hempty (List.length_replicate ..), htext] at happends
    have htarget := congrArg RewriteResult.targetURL (Option.some.inj happends)
    exact appendPath_ne t.text (by decide) (htarget.symm.trans hfill)
  have hexpand : ∀ u whole groups,
      Submatches.findStringSubmatch rule.regex u = some (whole :: groups) → groups.length = m →
      expand [] (whole :: groups) t.text = t.fill groups := by
    intro u whole groups hfind hlength
    have hexpands := evaluateRule_expands haction (htext ▸ dollar_mem_text hrefs) hfind
    rw [h _ _ _ hfind hlength, htext, hnames] at hexpands
    exact (congrArg RewriteResult.targetURL (Option.some.inj hexpands)).symm
  refine ⟨hrefs, Template.readable_of_expand ?_ (hexpand _ _ _ hfull (List.length_replicate ..))⟩
  exact hexpand _ _ _ hempty (List.length_replicate ..)

/-! ## References -/

/-- Whatever the engine, the rule and the URL, the target URL is the target with its references
replaced, iff it has one and all of them can be read. A target that is a file has no URL. -/
theorem references_expand_iff [Unicode] [Words] {m : Nat} (t : Template m) :
    (∀ [Submatches] (pattern u : Str) (rule : RewriteRule) (whole : Option Str)
        (groups : List (Option Str)),
      buildRewriteRule pattern t.text = some rule → rule.type ≠ .exact → rule.action = .proxy →
      Submatches.findStringSubmatch rule.regex u = some (whole :: groups) → groups.length = m →
      evaluateRule rule u = some ⟨.proxy, t.fill groups, []⟩) ↔
      hasPrefix t.text "file://" = true ∨ (t.refs ≠ [] ∧ t.Readable) := by
  constructor
  · intro h
    by_cases hfile : hasPrefix t.text "file://" = true
    · exact .inl hfile
    · let _engine : Submatches := withGroups
      obtain ⟨rule, hbuild, htype, hregex⟩ := build_probe (parse_probe m) t.text
      obtain ⟨htext, haction⟩ := target_of_build hbuild
      rw [if_neg hfile] at haction
      have hempty : Submatches.findStringSubmatch rule.regex "http://a/b" = _ :=
        hregex ▸ firstMatch_probe_empty m (by decide)
      have hfull : Submatches.findStringSubmatch rule.regex (List.replicate m 'x') = _ :=
        hregex ▸ firstMatch_probe_full m
      refine .inr (readable_of_answers htext haction rfl hempty hfull ?_)
      intro u whole groups hfind hlength
      refine h _ u rule whole groups hbuild ?_ haction hfind hlength
      rw [htype]
      decide
  · rintro (hfile | ⟨hrefs, hreadable⟩)
    · intro _ pattern u rule whole groups hbuild _ haction
      rw [(target_of_build hbuild).2, if_pos hfile] at haction
      cases haction
    · intro _ pattern u rule whole groups hbuild _ haction hfind _
      have htarget := (target_of_build hbuild).1
      rw [evaluateRule_expands haction (htarget ▸ dollar_mem_text hrefs) hfind, htarget,
        hreadable.expand_text]

/-- What the groups of a wildcard pattern hold, with the engine of the fragment. -/
def groupsOf (pattern u : Str) : Option (List (Option Str)) :=
  (withGroups.compile (wildcardToRegex pattern)).bind (withGroups.findStringSubmatch · u)

/-- What the rule of an entry answers, with the same engine. -/
def answerOf (pattern target u : Str) : Option RewriteResult :=
  letI := withGroups
  (buildRewriteRule pattern target).bind (evaluateRule · u)

def letterBehind : Template 1 := ⟨"http://b.cn/", [(0, "x")], by decide, by decide⟩

/-- The letter behind `$1` is taken for part of the name, and both are gone. -/
theorem letter_joins_the_reference :
    letterBehind.text = "http://b.cn/$1x" ∧
    groupsOf "https://a.cn/*" "https://a.cn/q" = some [some ("https://a.cn/q" : Str), some ['q']] ∧
    letterBehind.fill [some ['q']] = "http://b.cn/qx" ∧
    answerOf "https://a.cn/*" letterBehind.text "https://a.cn/q" =
      some ⟨.proxy, "http://b.cn/", []⟩ := by
  decide +kernel

end vproxy
