-- Targets without references (rewrite.go, evaluateRule). The path and the query of the request go
-- behind the target, whatever the target is. They should do so only behind a target that is a
-- scheme and an authority, so a target with a path or a query of its own comes out changed.
import Vproxy.Rewrite

open go go.url go.regexp

namespace vproxy

/-! ## The contract -/

/-- The scheme of a target with its colon, if it has one. -/
def schemePart (target : Str) : Str :=
  match getScheme target with
  | some (c :: scheme, _) => c :: scheme ++ [':']
  | _ => []

/-- The authority behind the scheme with its two slashes, if there is one. -/
def authorityPart (rest : Str) : Str :=
  if hasPrefix rest "//" then "//" ++ before (rest.drop 2) (("/?#" : Str).contains ·) else []

/-- The scheme and the authority of a target. -/
def siteOf (target : Str) : Str :=
  let scheme := schemePart target
  scheme ++ authorityPart (target.drop scheme.length)

def targetPath (target : Str) : Str :=
  before (target.drop (siteOf target).length) (("?#" : Str).contains ·)

/-- The text between `?` and `#`. -/
def targetQuery (target : Str) : Str :=
  ((before (target.drop (siteOf target).length) (· == '#')).dropWhile (· ≠ '?')).tail

/-- A path other than `/`, or a query. -/
def HasOwnPath (target : Str) : Prop :=
  (targetPath target ≠ [] ∧ targetPath target ≠ ['/']) ∨ targetQuery target ≠ []

instance (target : Str) : Decidable (HasOwnPath target) := inferInstanceAs (Decidable (_ ∨ _))

/-- The path of the request, or `/`, and its query. -/
def requestPart (url : URL) : Str :=
  (if url.escapedPath = [] then ['/'] else url.escapedPath) ++
    if url.rawQuery ≠ [] then '?' :: url.rawQuery else []

/-- The target URL that a request should go to. -/
def contract (target : Str) (url : URL) : Str :=
  if HasOwnPath target then target else siteOf target ++ requestPart url

/-! ## The path of an absolute URL -/

/-- An absolute URL has no path, or one that starts with a slash. -/
theorem path_of_absolute {u : Str} {url : URL} (h : parse u = some url) (habs : url.scheme ≠ []) :
    url.path = [] ∨ ∃ path, url.path = '/' :: path := by
  obtain ⟨raw, -, hraw⟩ := parse_front h
  unfold parseNoFragment at hraw
  split at hraw
  · cases hraw
  split at hraw
  · obtain rfl := Option.some.inj hraw
    exact absurd rfl habs
  split at hraw
  · cases hraw
  rename_i scheme rest hscheme
  dsimp only at hraw
  split at hraw
  · obtain rfl := Option.some.inj hraw
    exact .inl rfl
  rename_i hopaque
  split at hraw
  · cases hraw
  split at hraw
  · obtain ⟨host, -, hraw⟩ := Option.bind_eq_some_iff.mp hraw
    obtain ⟨-, -, rfl⟩ := Option.map_eq_some_iff.mp hraw
    dsimp only
    cases hpath : ((before rest (· == '?')).drop 2).dropWhile (· ≠ '/') with
    | nil => exact .inl rfl
    | cons c path =>
      have hslash := List.head?_dropWhile_not (· ≠ '/') ((before rest (· == '?')).drop 2)
      rw [hpath] at hslash
      simp only [List.head?_cons, ne_eq, decide_not, Bool.not_eq_eq_eq_not, Bool.not_false,
        decide_eq_true_eq] at hslash
      exact .inr ⟨path, by rw [hslash]⟩
  · obtain ⟨-, -, rfl⟩ := Option.map_eq_some_iff.mp hraw
    by_cases hslash : hasPrefix (before rest (· == '?')) "/" = true
    · obtain ⟨path, hpath⟩ := List.isPrefixOf_iff_prefix.mp hslash
      exact .inr ⟨path, hpath.symm⟩
    · exact absurd ⟨hslash, habs⟩ hopaque

theorem escapePath_slash (path : Str) : escapePath ('/' :: path) = '/' :: escapePath path := by
  rw [escapePath.eq_3]
  · rfl
  · intro a b rest h
    cases h

/-- So it is with the escaped path. -/
theorem escapedPath_of_absolute {u : Str} {url : URL} (h : parse u = some url)
    (habs : url.scheme ≠ []) : url.escapedPath = [] ∨ ∃ path, url.escapedPath = '/' :: path := by
  unfold URL.escapedPath
  obtain hpath | ⟨path, hpath⟩ := path_of_absolute h habs
  · rw [hpath]
    exact .inl rfl
  · right
    rw [hpath]
    split
    · exact ⟨path, rfl⟩
    · exact ⟨escapePath path, escapePath_slash path⟩

/-! ## What the code appends -/

theorem hasSuffix_slash {t : Str} (h : hasSuffix t "/" = true) : t = trimSuffix t "/" ++ ['/'] := by
  obtain ⟨front, rfl⟩ := List.isSuffixOf_iff_suffix.mp h
  rw [trimSuffix, if_pos h]
  simp

/-- Whatever the slashes are, one of them stands between the target and the path. -/
theorem appendPath_eq {u : Str} {url : URL} (h : parse u = some url) (habs : url.scheme ≠ [])
    (target : Str) :
    appendPath target (pathAndQuery u) = trimSuffix target "/" ++ requestPart url := by
  have hquery : ∀ q : Str, hasPrefix (if q ≠ [] then '?' :: q else []) "/" = false := by
    intro q
    split <;> rfl
  unfold pathAndQuery requestPart
  rw [h]
  dsimp only
  obtain hpath | ⟨path, hpath⟩ := escapedPath_of_absolute h habs
  · rw [hpath, if_pos rfl, List.nil_append]
    unfold appendPath
    rw [hquery]
    by_cases hslash : hasSuffix target "/" = true
    · rw [if_neg fun hboth => Bool.false_ne_true hboth.2, if_neg fun hnone => hnone.1 hslash,
        ← List.append_assoc, ← hasSuffix_slash hslash]
    · rw [if_neg fun hboth => Bool.false_ne_true hboth.2, if_pos ⟨hslash, Bool.false_ne_true⟩,
        trimSuffix, if_neg hslash, List.append_assoc]
      rfl
  · rw [hpath, if_neg (List.cons_ne_nil _ _)]
    generalize (if url.rawQuery ≠ [] then '?' :: url.rawQuery else []) = query
    have hfront : hasPrefix ('/' :: path ++ query) "/" = true := rfl
    unfold appendPath
    rw [hfront]
    by_cases hslash : hasSuffix target "/" = true
    · rw [if_pos ⟨hslash, rfl⟩]
    · rw [if_neg fun hboth => hslash hboth.1, if_neg fun hnone => hnone.2 rfl, trimSuffix,
        if_neg hslash]

/-- The target comes out as it was when it ends in a slash and nothing else is appended. -/
theorem append_eq_self_iff (target : Str) (url : URL) :
    trimSuffix target "/" ++ requestPart url = target ↔
      hasSuffix target "/" = true ∧ (url.escapedPath = [] ∨ url.escapedPath = ['/']) ∧
        url.rawQuery = [] := by
  have hpart : requestPart url = ['/'] ↔
      (url.escapedPath = [] ∨ url.escapedPath = ['/']) ∧ url.rawQuery = [] := by
    unfold requestPart
    by_cases hpath : url.escapedPath = []
    · by_cases hquery : url.rawQuery = [] <;> simp [hpath, hquery]
    · by_cases hquery : url.rawQuery = []
      · simp [hpath, hquery]
      · have hlength : 0 < url.escapedPath.length := List.length_pos_iff.mpr hpath
        simp only [hpath, if_false, ne_eq, hquery, not_false_eq_true, if_true, and_false, iff_false]
        intro heq
        have hsum := congrArg List.length heq
        simp only [List.length_append, List.length_cons, List.length_nil] at hsum
        omega
  rw [← hpart]
  by_cases hslash : hasSuffix target "/" = true
  · have hsplit := hasSuffix_slash hslash
    rw [and_iff_right hslash]
    constructor
    · exact fun heq => List.append_cancel_left (heq.trans hsplit)
    · intro heq
      rw [heq]
      exact hsplit.symm
  · have hne : requestPart url ≠ [] := by
      unfold requestPart
      split <;> simp_all
    rw [trimSuffix, if_neg hslash]
    refine iff_of_false (fun heq => hne ?_) fun hboth => hslash hboth.1
    simpa using heq

/-! ## The law -/

/-- A target without references is filled as it should be, exactly when it is a scheme and an
authority with at most a slash behind them, or when it has a path or a query, ends in a slash and
the request asks for nothing but the root. -/
theorem path_append_follows_contract_iff [Regexp] (rule : RewriteRule) (u : Str) (url : URL)
    (haction : rule.action = .proxy) (hdollar : '$' ∉ rule.target) (hparse : parse u = some url)
    (habs : url.scheme ≠ []) (hmatch : Regexp.matchString rule.regex u = true) :
    evaluateRule rule u = some ⟨.proxy, contract rule.target url, []⟩ ↔
      if HasOwnPath rule.target then
        hasSuffix rule.target "/" = true ∧ (url.escapedPath = [] ∨ url.escapedPath = ['/']) ∧
          url.rawQuery = []
      else trimSuffix rule.target "/" = siteOf rule.target := by
  have htarget : evaluateRule rule u =
      some ⟨.proxy, trimSuffix rule.target "/" ++ requestPart url, []⟩ := by
    rw [evaluateRule, if_pos hmatch, haction]
    dsimp only
    rw [rewriteTarget, if_neg hdollar, appendPath_eq hparse habs]
  rw [htarget]
  simp only [Option.some.injEq, RewriteResult.mk.injEq, true_and, and_true]
  unfold contract
  split
  · exact append_eq_self_iff rule.target url
  · exact List.append_left_inj (requestPart url)

/-- A rule of the small engine that takes every URL of `a.cn`. -/
def siteRule (target : Str) : RewriteRule := ⟨.exact, "a.cn", .char 'a', target, .proxy⟩

/-- A target that is a scheme and an authority gets the path and the query. -/
theorem site_target_gets_the_path :
    evaluateRule (siteRule "http://127.0.0.1:3000") "https://a.cn/x?v=2" =
      some ⟨.proxy, "http://127.0.0.1:3000/x?v=2", []⟩ := by
  have hparse : parse "https://a.cn/x?v=2" = some ⟨"https", "a.cn", "/x", "v=2"⟩ := by
    decide +kernel
  have hlaw := path_append_follows_contract_iff (siteRule "http://127.0.0.1:3000") _ _ rfl
    (by decide) hparse (by decide) (by decide +kernel)
  have hown : ¬ HasOwnPath (siteRule "http://127.0.0.1:3000").target := by decide +kernel
  rw [if_neg hown] at hlaw
  exact hlaw.mpr (by decide +kernel)

/-- A target with a path of its own does not stay as it is. -/
theorem own_path_is_extended :
    parse "https://a.cn/x" = some ⟨"https", "a.cn", "/x", []⟩ ∧
      contract "http://b.cn/api" ⟨"https", "a.cn", "/x", []⟩ = "http://b.cn/api" ∧
      (newRewriteEngine ["https://a.cn/x http://b.cn/api"]).map
        (fun re => re.matchRequest "https://a.cn/x" "a.cn") =
          some (some ⟨.proxy, "http://b.cn/api/x", []⟩) := by
  decide +kernel

end vproxy
