-- One plain request on its two ways to the rewrite engine: through forward on port 80, and as
-- an absolute URL on the proxy port (handlePlainHTTP, serveHTTP). The first way writes the URL
-- with https and the second with http, so a rule that looks at the scheme takes only one.
import Vproxy.Ingress
import Vproxy.RewriteIndex

open go go.net go.url go.regexp

namespace vproxy

/-! ## Request lines -/

/-- The text of a request line has no space and no control character. -/
def inRequestLine (s : Str) : Bool := s.all fun c => 32 < c.toNat && c.toNat ≠ 127

/-- The request URI that `ReadRequest` gives for `GET p`. -/
def readOrigin (p : Str) : Option Str := if inRequestLine p then requestURI p else none

/-- What `serveHTTP` takes from a request that is not CONNECT. -/
structure PlainRequest where
  host : Str
  /-- The text of the URL. -/
  url : Str
  requestURI : Str
deriving DecidableEq, Repr

/-- What `ReadRequest` gives for `GET http://authority` with the path and the query `p`. The
header counts when the URL has no host. -/
def readProxied (header authority p : Str) : Option PlainRequest :=
  if inRequestLine (authority ++ p) then do
    let host ← parseHost authority
    let uri ← requestURI p
    some ⟨if host = [] then header else host, "http://" ++ escapeHost authority ++ uri, uri⟩
  else none

theorem readProxied_eq_some {header authority p : Str} {req : PlainRequest}
    (h : readProxied header authority p = some req) :
    readOrigin p = some req.requestURI ∧
      req.url = "http://" ++ escapeHost authority ++ req.requestURI ∧
      ∃ host, parseHost authority = some host ∧
        req.host = if host = [] then header else host := by
  unfold readProxied at h
  split at h
  · rename_i hline
    obtain ⟨host, hhost, h⟩ := Option.bind_eq_some_iff.mp h
    obtain ⟨uri, huri, h⟩ := Option.bind_eq_some_iff.mp h
    obtain rfl := Option.some.inj h
    have hp : inRequestLine p := by
      unfold inRequestLine at hline ⊢
      rw [List.all_append, Bool.and_eq_true] at hline
      exact hline.2
    refine ⟨?_, rfl, host, hhost, rfl⟩
    rw [readOrigin, if_pos hp, huri]
  · cases h

/-! ## What the engine is asked -/

/-- The arguments of `RewriteEngine.Match`. -/
@[ext]
structure Ask where
  url : Str
  host : Str
deriving DecidableEq, Repr

/-- What `handlePlainHTTP` asks, for the host that `forward` gives it. -/
def transparentAsk (host requestURI : Str) : Ask := ⟨fullURL host requestURI, (hostNames host).1⟩

/-- What the plain branch of `serveHTTP` asks. -/
def proxiedAsk (req : PlainRequest) : Ask :=
  ⟨plainURL req.host req.url req.requestURI, hostOnly req.host⟩

/-- The host whose rules come first. -/
def Ask.bucket (a : Ask) : Str :=
  if a.host = [] then ((parse a.url).map URL.hostname).getD [] else a.host

section

variable [Regexp]

def RewriteEngine.answer (re : RewriteEngine) (a : Ask) : Option RewriteResult :=
  re.matchRequest a.url a.host

theorem answer_eq (re : RewriteEngine) (a : Ask) :
    re.answer a = firstHit (re.hostBuckets a.bucket ++ re.globalRules) a.url := by
  unfold RewriteEngine.answer RewriteEngine.matchRequest Ask.bucket firstHit
  rw [List.findSome?_append]
  by_cases hhost : a.host = []
  · cases hparse : parse a.url <;> simp [hhost]
  · simp [hhost]

/-- The rule takes both URLs or neither, and sends both to the same place. -/
def RewriteRule.TreatsAlike (rule : RewriteRule) (u v : Str) : Prop :=
  Regexp.matchString rule.regex u = Regexp.matchString rule.regex v ∧
    (Regexp.matchString rule.regex u → rule.action = .proxy →
      rewriteTarget rule u = rewriteTarget rule v)

instance (rule : RewriteRule) (u v : Str) : Decidable (rule.TreatsAlike u v) :=
  inferInstanceAs (Decidable (_ ∧ _))

theorem evaluateRule_eq_iff (rule : RewriteRule) (u v : Str) :
    evaluateRule rule u = evaluateRule rule v ↔ rule.TreatsAlike u v := by
  unfold evaluateRule RewriteRule.TreatsAlike
  cases Regexp.matchString rule.regex u <;> cases Regexp.matchString rule.regex v <;>
    cases rule.action <;> simp

theorem evaluateRule_eq_none (rule : RewriteRule) (u : Str) :
    evaluateRule rule u = none ↔ ¬ Regexp.matchString rule.regex u := by
  rw [← Option.not_isSome_iff_eq_none, evaluateRule_isSome]

/-- The two questions get the same answer from each rule that one of them comes to. -/
def RewriteEngine.TreatsAlike (re : RewriteEngine) (a b : Ask) : Prop :=
  (∀ rule ∈ re.globalRules, rule.TreatsAlike a.url b.url) ∧
    if a.bucket = b.bucket then
      ∀ rule ∈ re.hostBuckets a.bucket, rule.TreatsAlike a.url b.url
    else
      (∀ rule ∈ re.hostBuckets a.bucket, ¬ Regexp.matchString rule.regex a.url) ∧
        ∀ rule ∈ re.hostBuckets b.bucket, ¬ Regexp.matchString rule.regex b.url

/-- An engine with some of the rules, each filed where it was. -/
structure PartOf (part re : RewriteEngine) : Prop where
  buckets : ∀ host, part.hostBuckets host ⊆ re.hostBuckets host
  globals : part.globalRules ⊆ re.globalRules

/-- The engine with one rule, filed under this host. -/
def onlyFiled (host : Str) (rule : RewriteRule) : RewriteEngine :=
  ⟨fun h => if h = host then [rule] else [], [], []⟩

/-- The engine with one rule, filed under no host. -/
def onlyGlobal (rule : RewriteRule) : RewriteEngine := ⟨fun _ => [], [rule], []⟩

theorem answer_onlyFiled (host : Str) (rule : RewriteRule) (a : Ask) :
    (onlyFiled host rule).answer a =
      if a.bucket = host then evaluateRule rule a.url else none := by
  rw [answer_eq, onlyFiled]
  split <;> simp_all [firstHit]

theorem answer_onlyGlobal (rule : RewriteRule) (a : Ask) :
    (onlyGlobal rule).answer a = evaluateRule rule a.url := by
  simp [answer_eq, onlyGlobal, firstHit]

theorem onlyFiled_partOf {re : RewriteEngine} {host : Str} {rule : RewriteRule}
    (h : rule ∈ re.hostBuckets host) : PartOf (onlyFiled host rule) re := by
  refine ⟨fun g => ?_, List.nil_subset _⟩
  unfold onlyFiled
  dsimp only
  split
  · rename_i hg
    simpa [hg] using h
  · exact List.nil_subset _

theorem onlyGlobal_partOf {re : RewriteEngine} {rule : RewriteRule}
    (h : rule ∈ re.globalRules) : PartOf (onlyGlobal rule) re :=
  ⟨fun _ => List.nil_subset _, by simpa [onlyGlobal] using h⟩

theorem firstHit_congr {rules : List RewriteRule} {u v : Str}
    (h : ∀ rule ∈ rules, rule.TreatsAlike u v) : firstHit rules u = firstHit rules v := by
  induction rules with
  | nil => rfl
  | cons rule rules ih =>
    have hrule := (evaluateRule_eq_iff rule u v).mpr (h rule List.mem_cons_self)
    have hrest := ih fun r hr => h r (List.mem_cons_of_mem _ hr)
    unfold firstHit at hrest ⊢
    rw [List.findSome?_cons, List.findSome?_cons, hrule, hrest]

theorem firstHit_eq_none {rules : List RewriteRule} {u : Str}
    (h : ∀ rule ∈ rules, ¬ Regexp.matchString rule.regex u) : firstHit rules u = none := by
  unfold firstHit
  rw [List.findSome?_eq_none_iff]
  exact fun rule hrule => (evaluateRule_eq_none rule u).mpr (h rule hrule)

theorem treatsAlike_part {part re : RewriteEngine} (hpart : PartOf part re) {a b : Ask}
    (h : re.TreatsAlike a b) : part.TreatsAlike a b := by
  obtain ⟨hglobal, hfiled⟩ := h
  refine ⟨fun rule hrule => hglobal rule (hpart.globals hrule), ?_⟩
  split
  · rename_i hsame
    rw [if_pos hsame] at hfiled
    exact fun rule hrule => hfiled rule (hpart.buckets _ hrule)
  · rename_i hother
    rw [if_neg hother] at hfiled
    exact ⟨fun rule hrule => hfiled.1 rule (hpart.buckets _ hrule),
      fun rule hrule => hfiled.2 rule (hpart.buckets _ hrule)⟩

theorem answers_agree {re : RewriteEngine} {a b : Ask} (h : re.TreatsAlike a b) :
    re.answer a = re.answer b := by
  obtain ⟨hglobal, hfiled⟩ := h
  rw [answer_eq, answer_eq]
  by_cases hsame : a.bucket = b.bucket
  · rw [if_pos hsame] at hfiled
    rw [← hsame]
    apply firstHit_congr
    intro rule hrule
    rcases List.mem_append.mp hrule with hrule | hrule
    · exact hfiled rule hrule
    · exact hglobal rule hrule
  · -- The rules of either host take nothing, so both come to the rules without a host.
    rw [if_neg hsame] at hfiled
    unfold firstHit
    rw [List.findSome?_append, List.findSome?_append]
    change (firstHit _ _).or (firstHit _ _) = (firstHit _ _).or (firstHit _ _)
    rw [firstHit_eq_none hfiled.1, firstHit_eq_none hfiled.2, firstHit_congr hglobal]

/-- An engine and all its parts answer two questions alike exactly when each rule does. A rule
may hide the rules after it, so the answer of the whole engine alone says less. -/
theorem parts_agree_iff (re : RewriteEngine) (a b : Ask) :
    (∀ part, PartOf part re → part.answer a = part.answer b) ↔ re.TreatsAlike a b := by
  constructor
  · intro hall
    refine ⟨fun rule hrule => ?_, ?_⟩
    · have hagree := hall _ (onlyGlobal_partOf hrule)
      rw [answer_onlyGlobal, answer_onlyGlobal] at hagree
      exact (evaluateRule_eq_iff _ _ _).mp hagree
    · have hfiled : ∀ host, ∀ rule ∈ re.hostBuckets host,
          (if a.bucket = host then evaluateRule rule a.url else none) =
            if b.bucket = host then evaluateRule rule b.url else none := by
        intro host rule hrule
        have hagree := hall _ (onlyFiled_partOf hrule)
        rwa [answer_onlyFiled, answer_onlyFiled] at hagree
      split
      · rename_i hsame
        intro rule hrule
        have hagree := hfiled _ rule hrule
        rw [if_pos rfl, if_pos hsame.symm] at hagree
        exact (evaluateRule_eq_iff _ _ _).mp hagree
      · rename_i hother
        refine ⟨fun rule hrule => ?_, fun rule hrule => ?_⟩
        · have hagree := hfiled _ rule hrule
          rw [if_pos rfl, if_neg (Ne.symm hother)] at hagree
          exact (evaluateRule_eq_none _ _).mp hagree
        · have hagree := hfiled _ rule hrule
          rw [if_neg hother, if_pos rfl] at hagree
          exact (evaluateRule_eq_none _ _).mp hagree.symm
  · intro halike part hpart
    exact answers_agree (treatsAlike_part hpart halike)

/-! ## The two URLs -/

omit [Regexp] in
theorem transparent_url (h uri : Str) :
    (transparentAsk h uri).url = "https://" ++ (hostNames h).2 ++ uri := rfl

omit [Regexp] in
/-- The URL of a proxied request is absolute, so it is asked as it is. -/
theorem proxied_url {header authority p : Str} {req : PlainRequest}
    (h : readProxied header authority p = some req) :
    (proxiedAsk req).url = "http://" ++ escapeHost authority ++ req.requestURI := by
  obtain ⟨-, hurl, -⟩ := readProxied_eq_some h
  have habs : contains req.url "://" := by
    rw [contains_iff, hurl]
    exact ⟨"http", escapeHost authority ++ req.requestURI, by simp⟩
  rw [proxiedAsk, plainURL, if_pos habs, hurl]

omit [Regexp] in
theorem https_ne_http (x y : Str) : ("https://" : Str) ++ x ≠ "http://" ++ y := by
  intro h
  simp at h

/-- The same request is asked for under https when it comes through `forward`, and under http
when it comes as an absolute URL, however the authority of that URL writes the host. So the two
URLs are never equal. The engine and all its parts rewrite both alike exactly when each rule
does. -/
theorem plain_paths_ask_for_two_urls (re : RewriteEngine) (header h authority p uri : Str)
    (req : PlainRequest) (horigin : readOrigin p = some uri)
    (hproxied : readProxied header authority p = some req) :
    (transparentAsk h uri).url = "https://" ++ (hostNames h).2 ++ uri ∧
      (proxiedAsk req).url = "http://" ++ escapeHost authority ++ uri ∧
      (transparentAsk h uri).url ≠ (proxiedAsk req).url ∧
      ((∀ part, PartOf part re →
          part.answer (transparentAsk h uri) = part.answer (proxiedAsk req)) ↔
        re.TreatsAlike (transparentAsk h uri) (proxiedAsk req)) := by
  obtain ⟨hsame, -, -⟩ := readProxied_eq_some hproxied
  obtain rfl : uri = req.requestURI := Option.some.inj (horigin.symm.trans hsame)
  have hurl := proxied_url hproxied
  refine ⟨transparent_url _ _, hurl, ?_, parts_agree_iff re _ _⟩
  rw [transparent_url, hurl, List.append_assoc, List.append_assoc]
  exact https_ne_http _ _

end

/-- An entry without a scheme rewrites the request on both ways. -/
theorem entry_without_scheme_takes_both : ∃ re : RewriteEngine,
    newRewriteEngine ["a.cn/* http://127.0.0.1:3000/"] = some re ∧
      re.answer (transparentAsk "a.cn" "/x") =
        re.answer (proxiedAsk ⟨"a.cn", "http://a.cn/x", "/x"⟩) ∧
      (re.answer (proxiedAsk ⟨"a.cn", "http://a.cn/x", "/x"⟩)).isSome := by
  have hread : readEntry "a.cn/* http://127.0.0.1:3000/" =
      some (("a.cn/*" : Str), ("http://127.0.0.1:3000/" : Str)) := by decide +kernel
  have hbuilt : (buildRewriteRule "a.cn/*" "http://127.0.0.1:3000/").map (fun rule =>
      (rule.host, decide (rule.TreatsAlike "https://a.cn/x" "http://a.cn/x"),
        (evaluateRule rule "http://a.cn/x").isSome)) = some (("a.cn" : Str), true, true) := by
    decide +kernel
  obtain ⟨rule, hbuild, hrule⟩ := Option.map_eq_some_iff.mp hbuilt
  simp only [Prod.mk.injEq, decide_eq_true_eq] at hrule
  obtain ⟨hhost, halike, htakes⟩ := hrule
  have hbucket : (RewriteEngine.empty.addRule rule).hostBuckets "a.cn" = [rule] := by
    simp [RewriteEngine.addRule, RewriteEngine.empty, hhost]
  have hglobal : (RewriteEngine.empty.addRule rule).globalRules = [] := by
    simp [RewriteEngine.addRule, RewriteEngine.empty, hhost]
  have htransparent : transparentAsk "a.cn" "/x" = ⟨"https://a.cn/x", "a.cn"⟩ := by decide +kernel
  have hproxied : proxiedAsk ⟨"a.cn", "http://a.cn/x", "/x"⟩ = ⟨"http://a.cn/x", "a.cn"⟩ := by
    decide +kernel
  have hnamed : ∀ u : Str, (Ask.mk u "a.cn").bucket = "a.cn" := fun u => rfl
  obtain ⟨-, -, -, hlaw⟩ := plain_paths_ask_for_two_urls (RewriteEngine.empty.addRule rule) []
    "a.cn" "a.cn" "/x" "/x" ⟨"a.cn", "http://a.cn/x", "/x"⟩ (by decide +kernel) (by decide +kernel)
  refine ⟨_, newRewriteEngine_single hread hbuild,
    hlaw.mpr ?_ _ ⟨fun _ _ => id, fun _ => id⟩, ?_⟩
  · rw [htransparent, hproxied]
    refine ⟨by simp [hglobal], ?_⟩
    rw [hnamed, hnamed, if_pos rfl, hbucket]
    exact List.forall_mem_singleton.mpr halike
  · rw [hproxied, answer_eq, hnamed, hbucket, hglobal]
    simpa [firstHit] using htakes

/-- A request for a host that is intercepted is rewritten when it comes as an absolute URL, and
not when it comes through `forward`. -/
theorem http_entry_misses_forwarded_requests :
    readOrigin "/x" = some "/x" ∧
      readProxied [] "a.cn" "/x" = some ⟨"a.cn", "http://a.cn/x", "/x"⟩ ∧
      (transparentAsk "a.cn" "/x").url = "https://a.cn/x" ∧
      (proxiedAsk ⟨"a.cn", "http://a.cn/x", "/x"⟩).url = "http://a.cn/x" ∧
      (newRewriteEngine ["http://a.cn/* http://127.0.0.1:3000/"]).map (fun re =>
        (isInterceptHost re "a.cn", re.answer (transparentAsk "a.cn" "/x"),
          re.answer (proxiedAsk ⟨"a.cn", "http://a.cn/x", "/x"⟩))) =
        some (true, none, some ⟨.proxy, "http://127.0.0.1:3000/x", []⟩) := by
  decide +kernel

end vproxy
