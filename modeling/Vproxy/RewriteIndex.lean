-- Which URLs a rewrite entry means, and when a request for such a URL finds the entry.
-- The regexp of a wildcard entry takes all its URLs. The regexp of an exact entry takes
-- no scheme in front. Either is found only under the host that it is filed under, and only
-- the hosts that are named this way are intercepted.
import Vproxy.Rewrite

open go go.url go.regexp

namespace vproxy

/-! ## The URLs that a pattern means -/

/-- `u` is the pattern with each star replaced by some text without a line break. -/
inductive Fills : Str → Str → Prop
  | nil : Fills [] []
  | char {c : Char} {p u : Str} : c ≠ '*' → Fills p u → Fills (c :: p) (c :: u)
  | star {s p u : Str} : '\n' ∉ s → Fills p u → Fills ('*' :: p) (s ++ u)

theorem Fills.text {p q u : Str} (hp : '*' ∉ p) (h : Fills q u) : Fills (p ++ q) (p ++ u) := by
  induction p with
  | nil => exact h
  | cons c p ih =>
    simp only [List.mem_cons, not_or] at hp
    exact .char (Ne.symm hp.1) (ih hp.2)

/-- The pattern means `u` as it is written. -/
def Spells : RewriteType → Str → Str → Prop
  | .regex, _, _ => False
  | .wildcard, p, u => Fills p u
  | .exact, p, u => u = p ∨ ∃ rest, u = p ++ '?' :: rest ∨ u = p ++ '/' :: rest

/-- A letter, then letters, digits and `+-.`, then `://`. -/
def startsWithScheme (p : Str) : Bool :=
  let s := p.takeWhile (fun c => isLetter c || isDigit c || c == '+' || c == '-' || c == '.')
  s.head?.any isLetter && hasPrefix (p.drop s.length) "://"

/-- The pattern means `u`. A pattern without a scheme leaves the scheme open. -/
def Denotes (type : RewriteType) (p u : Str) : Prop :=
  Spells type p u ∨
    (¬ startsWithScheme p ∧ ¬ hasPrefix p "//") ∧
      ∃ rest, (u = "http://" ++ rest ∨ u = "https://" ++ rest) ∧ Spells type p rest

theorem startsWithScheme_http {p : Str} (h : hasPrefix p "http://") : startsWithScheme p := by
  obtain ⟨rest, rfl⟩ := List.isPrefixOf_iff_prefix.mp h
  rfl

theorem startsWithScheme_https {p : Str} (h : hasPrefix p "https://") : startsWithScheme p := by
  obtain ⟨rest, rfl⟩ := List.isPrefixOf_iff_prefix.mp h
  rfl

/-! ## What the patterns compile to -/

/-- The item that stands for a character of a wildcard pattern. -/
def wildItem (c : Char) : Re := if c = '*' then .group (.seq .empty (.star .any)) else .char c

theorem alts_foldl_push (item : Char → Re) (s : Str) (f : Frame) :
    (s.foldl (fun g c => g.push (item c)) f).alts = f.alts := by
  induction s generalizing f with
  | nil => rfl
  | cons c s ih => exact ih _

/-- The parts between the stars, quoted and joined, are the characters in turn. -/
theorem intercalate_parts (p : Str) :
    List.intercalate ("(.*)" : Str) ((p.splitOn '*').map quoteMeta) =
      p.flatMap (fun c => if c = '*' then ("(.*)" : Str) else quoteMeta [c]) := by
  induction p with
  | nil => rfl
  | cons c p ih =>
    obtain ⟨first, others, hparts⟩ : ∃ a l, p.splitOn '*' = a :: l :=
      List.exists_cons_of_ne_nil (List.splitOnP_ne_nil _ _)
    unfold List.splitOn at hparts ih ⊢
    rw [List.splitOnP_cons_eq_if_modifyHead, List.flatMap_cons, ← ih, hparts]
    by_cases h : c = '*'
    · simp [h, quoteMeta]
    · have hquote : quoteMeta (c :: first) = quoteMeta [c] ++ quoteMeta first := by
        simp [quoteMeta]
      cases others <;> simp [h, hquote]

theorem run_wild (p : Str) (f : Frame) (outer : List Frame) :
    Parser.run ⟨.plain, f, outer⟩
        (p.flatMap (fun c => if c = '*' then ("(.*)" : Str) else quoteMeta [c])) =
      some ⟨.plain, p.foldl (fun g c => g.push (wildItem c)) f, outer⟩ := by
  induction p generalizing f with
  | nil => rfl
  | cons c p ih =>
    rw [List.flatMap_cons, run_append]
    by_cases h : c = '*'
    · subst h
      exact ih _
    · have hitem : wildItem c = .char c := if_neg h
      rw [if_neg h, run_quoteMeta]
      simp only [List.foldl_cons, List.foldl_nil, hitem]
      exact ih _

/-- The items of a wildcard pattern can take every text that fills it. -/
theorem mem_ends_wild (n : Nat) {p u : Str} (h : Fills p u) (f : Frame) (t rest : Str)
    (hf : u ++ rest ∈ f.seq.ends n t) :
    rest ∈ (p.foldl (fun g c => g.push (wildItem c)) f).seq.ends n t := by
  induction h generalizing f with
  | nil => exact hf
  | char hc _ ih =>
    apply ih
    simpa [wildItem, hc] using hf
  | @star s p u hs _ ih =>
    apply ih
    rw [seq_push, mem_ends_seq]
    refine ⟨s ++ (u ++ rest), by simpa using hf, ?_⟩
    simpa [wildItem] using mem_ends_star_any n s (u ++ rest) hs

/-- The frame of a pattern after its `^`. -/
def anchored : Frame := Frame.new.push .bol

theorem mem_ends_anchored (n : Nat) (t rest : Str) :
    rest ∈ anchored.seq.ends n t ↔ t.length = n ∧ rest = t := by
  change rest ∈ (Re.seq .empty .bol).ends n t ↔ _
  simp

/-- The end of an exact pattern. -/
def exactEnd : Re :=
  .alt (.alt (.seq .empty .eol) (.seq .empty (.char '?'))) (.seq .empty (.char '/'))

theorem parse_exact (p : Str) :
    Re.parse ("^" ++ quoteMeta p ++ "(?:$|\\?|/)") =
      some ((p.foldl (fun g c => g.push (.char c)) anchored).push exactEnd).seq := by
  have hrun : Parser.run ⟨.plain, .new, []⟩ ("^" ++ quoteMeta p ++ "(?:$|\\?|/)") =
      some ⟨.plain, (p.foldl (fun g c => g.push (.char c)) anchored).push exactEnd, []⟩ := by
    rw [run_append, run_append]
    change ((Parser.run ⟨.plain, anchored, []⟩ (quoteMeta p)).bind _) = _
    rw [run_quoteMeta]
    rfl
  rw [Re.parse, hrun]
  simp only [Frame.close, push_alts, alts_foldl_push]
  rfl

theorem search_exact (p u : Str) :
    ((p.foldl (fun g c => g.push (.char c)) anchored).push exactEnd).seq.search u ↔
      Spells .exact p u := by
  simp only [search_iff, seq_push, mem_ends_seq, mem_ends_chars, mem_ends_anchored, exactEnd,
    mem_ends_alt, mem_ends_empty, mem_ends_eol, mem_ends_char, exists_eq_left, Spells]
  constructor
  · rintro ⟨t, ht, rest, mid, ⟨hlen, rfl⟩, hend⟩
    have hu : p ++ mid = u := ht.eq_of_length hlen
    obtain (⟨rfl, -⟩ | rfl) | rfl := hend
    · exact .inl (by simpa using hu.symm)
    · exact .inr ⟨rest, .inl hu.symm⟩
    · exact .inr ⟨rest, .inr hu.symm⟩
  · rintro (rfl | ⟨rest, rfl | rfl⟩)
    · exact ⟨u, List.suffix_rfl, [], [], by simp⟩
    · exact ⟨_, List.suffix_rfl, rest, '?' :: rest, by simp⟩
    · exact ⟨_, List.suffix_rfl, rest, '/' :: rest, by simp⟩

/-- The frame of a wildcard pattern without a scheme, after `(?:https?:)?(?://)?`. -/
def schemeOpen : Frame :=
  let http := .seq (.seq (.seq (.seq .empty (.char 'h')) (.char 't')) (.char 't')) (.char 'p')
  let scheme := .opt (.seq (.seq http (.opt (.char 's'))) (.char ':'))
  ⟨none, (anchored.push scheme).seq, some (.opt (.seq (.seq .empty (.char '/')) (.char '/')), false),
    false⟩

/-- The front of a wildcard pattern can take nothing and either scheme. -/
theorem mem_ends_schemeOpen (u rest : Str)
    (h : u = rest ∨ u = "http://" ++ rest ∨ u = "https://" ++ rest) :
    rest ∈ schemeOpen.seq.ends u.length u := by
  simp only [schemeOpen, Frame.seq, Frame.push, anchored, Frame.new, mem_ends_seq, mem_ends_empty,
    mem_ends_bol, mem_ends_opt, mem_ends_char, exists_eq_left]
  obtain rfl | rfl | rfl := h
  · exact ⟨u, ⟨u, by simp⟩, by simp⟩
  · exact ⟨"//" ++ rest, ⟨_, ⟨trivial, rfl⟩, by simp⟩, by simp⟩
  · exact ⟨"//" ++ rest, ⟨_, ⟨trivial, rfl⟩, by simp⟩, by simp⟩

/-- The frame of a wildcard pattern before its first item. -/
def wildFront (p : Str) : Frame :=
  if ¬ hasPrefix p "http://" ∧ ¬ hasPrefix p "https://" ∧ ¬ hasPrefix p "//" then schemeOpen
  else anchored

theorem parse_wildcard (p : Str) :
    Re.parse (wildcardToRegex p) =
      some ((p.foldl (fun g c => g.push (wildItem c)) (wildFront p)).push .eol).seq := by
  have hrun : Parser.run ⟨.plain, .new, []⟩ (wildcardToRegex p) =
      some ⟨.plain, (p.foldl (fun g c => g.push (wildItem c)) (wildFront p)).push .eol, []⟩ := by
    unfold wildcardToRegex wildFront
    dsimp only
    rw [intercalate_parts]
    split
    · rw [run_append, run_append]
      change ((Parser.run ⟨.plain, schemeOpen, []⟩ _).bind _) = _
      rw [run_wild]
      rfl
    · rw [run_append, run_append]
      change ((Parser.run ⟨.plain, anchored, []⟩ _).bind _) = _
      rw [run_wild]
      rfl
  have halts : (wildFront p).alts = none := by
    unfold wildFront
    split <;> rfl
  rw [Re.parse, hrun]
  simp only [Frame.close, push_alts, alts_foldl_push, halts]

/-- The regexp of a wildcard pattern takes every URL that the pattern means. -/
theorem search_wildcard (p u : Str) (h : Denotes .wildcard p u) :
    ((p.foldl (fun g c => g.push (wildItem c)) (wildFront p)).push .eol).seq.search u := by
  obtain ⟨body, hfill, hfront⟩ : ∃ body, Fills p body ∧
      body ∈ (wildFront p).seq.ends u.length u := by
    unfold wildFront
    obtain hspell | ⟨⟨hscheme, hslash⟩, rest, hu, hspell⟩ := h
    · refine ⟨u, hspell, ?_⟩
      split
      · exact mem_ends_schemeOpen u u (.inl rfl)
      · exact (mem_ends_anchored _ u u).mpr ⟨rfl, rfl⟩
    · refine ⟨rest, hspell, ?_⟩
      rw [if_pos]
      · exact mem_ends_schemeOpen u rest (.inr hu)
      · exact ⟨mt startsWithScheme_http hscheme, mt startsWithScheme_https hscheme, hslash⟩
  refine (search_iff _ u).mpr ⟨u, List.suffix_rfl, [], ?_⟩
  rw [seq_push, mem_ends_seq]
  refine ⟨[], ?_, by simp⟩
  apply mem_ends_wild u.length hfill
  simpa using hfront

section engine

variable [Regexp]

theorem matchString_exact {p u : Str} {prog : Regexp.Prog}
    (h : Regexp.compile ("^" ++ quoteMeta p ++ "(?:$|\\?|/)") = some prog) :
    Regexp.matchString prog u ↔ Spells .exact p u := by
  rw [Regexp.matchString_fragment _ _ _ h (parse_exact p), search_exact]

theorem matchString_wildcard {p u : Str} {prog : Regexp.Prog}
    (h : Regexp.compile (wildcardToRegex p) = some prog) (hd : Denotes .wildcard p u) :
    Regexp.matchString prog u := by
  rw [Regexp.matchString_fragment _ _ _ h (parse_wildcard p)]
  exact search_wildcard p u hd

/-! ## Where the engine looks -/

/-- The rules that are filed under a host, or under none. -/
def RewriteEngine.filed (re : RewriteEngine) (host : Str) : List RewriteRule :=
  if host = [] then re.globalRules else re.hostBuckets host

theorem mem_filed_addRule (re : RewriteEngine) (rule r : RewriteRule) (host : Str) :
    r ∈ (re.addRule rule).filed host ↔ r ∈ re.filed host ∨ rule.host = host ∧ r = rule := by
  unfold RewriteEngine.addRule RewriteEngine.filed
  by_cases hr : rule.host = [] <;> by_cases hh : host = []
  · simp [hr, hh]
  · simp [hr, hh, Ne.symm hh]
  · simp [hr, hh]
  · by_cases he : host = rule.host
    · simp [hr, he]
    · simp [hr, hh, he, Ne.symm he]

/-- `u` is an absolute http or https URL with the hostname `h`. -/
def RequestFor (u h : Str) : Prop :=
  ∃ url, parse u = some url ∧ (url.scheme = "http" ∨ url.scheme = "https") ∧ url.hostname = h

theorem evaluateRule_isSome (rule : RewriteRule) (u : Str) :
    (evaluateRule rule u).isSome ↔ Regexp.matchString rule.regex u := by
  unfold evaluateRule
  split
  · cases rule.action <;> simp_all
  · simp_all

/-- A request is a hit when a rule of its host, or a rule without a host, takes its URL. -/
theorem matchRequest_isSome (re : RewriteEngine) {u h : Str} (hreq : RequestFor u h) :
    (re.matchRequest u h).isSome ↔
      ∃ rule ∈ re.hostBuckets h ++ re.globalRules, Regexp.matchString rule.regex u := by
  obtain ⟨url, hparse, -, hname⟩ := hreq
  have hhost : (if h = [] then url.hostname else h) = h := by
    split <;> simp_all
  simp only [RewriteEngine.matchRequest, hparse, hhost, firstHit, Option.isSome_or,
    Bool.or_eq_true, List.findSome?_isSome_iff, evaluateRule_isSome, List.mem_append]
  grind

variable [Unicode]

/-- The entry is not skipped, and this is its rule. -/
def Builds (entry : Str) (rule : RewriteRule) : Prop :=
  ∃ pattern target, readEntry entry = some (pattern, target) ∧
    buildRewriteRule pattern target = some rule

theorem mem_filed_addEntry {re re' : RewriteEngine} {entry : Str}
    (h : re.addEntry entry = some re') (r : RewriteRule) (host : Str) :
    r ∈ re'.filed host ↔ r ∈ re.filed host ∨ Builds entry r ∧ r.host = host := by
  unfold RewriteEngine.addEntry at h
  unfold Builds
  split at h
  · rename_i hread
    obtain rfl := Option.some.inj h
    simp [hread]
  · rename_i pattern target hread
    obtain ⟨rule, hbuild, rfl⟩ := Option.map_eq_some_iff.mp h
    rw [mem_filed_addRule]
    simp only [hread, Option.some.injEq, Prod.mk.injEq]
    grind

/-- The entries add their rules and take none away. -/
theorem mem_filed_of_foldlM {entries : List Str} {re re' : RewriteEngine}
    (h : entries.foldlM RewriteEngine.addEntry re = some re') (r : RewriteRule) (host : Str) :
    r ∈ re'.filed host ↔
      r ∈ re.filed host ∨ ∃ entry ∈ entries, Builds entry r ∧ r.host = host := by
  induction entries generalizing re with
  | nil =>
    obtain rfl : re = re' := by simpa using h
    simp
  | cons entry entries ih =>
    rw [List.foldlM_cons] at h
    obtain ⟨mid, hmid, hrest⟩ := Option.bind_eq_some_iff.mp h
    rw [ih hrest, mem_filed_addEntry hmid, List.exists_mem_cons_iff, or_assoc]

/-- In an accepted list every entry has its rule filed under the host of the rule. -/
theorem mem_filed {entries : List Str} {re : RewriteEngine}
    (h : newRewriteEngine entries = some re) (r : RewriteRule) (host : Str) :
    r ∈ re.filed host ↔ ∃ entry ∈ entries, Builds entry r ∧ r.host = host := by
  have hempty : r ∉ RewriteEngine.empty.filed host := by
    unfold RewriteEngine.filed RewriteEngine.empty
    split <;> simp
  rw [mem_filed_of_foldlM h, or_iff_right hempty]

/-- The engine of one entry has its rule alone. -/
theorem newRewriteEngine_single {entry pattern target : Str} {rule : RewriteRule}
    (hread : readEntry entry = some (pattern, target))
    (hbuild : buildRewriteRule pattern target = some rule) :
    newRewriteEngine [entry] = some (RewriteEngine.empty.addRule rule) := by
  simp [newRewriteEngine, RewriteEngine.addEntry, hread, hbuild]

/-! ## When an entry is found -/

/-- The text behind `p`, or all of it when it does not start with `p`. -/
def Behind (p s rest : Str) : Prop := s = p ++ rest ∨ ¬ p <+: s ∧ rest = s

/-- The text up to the first of these characters, or all of it. -/
def UpTo (stops : List Char) (s front : Str) : Prop :=
  ∃ rest, s = front ++ rest ∧ (∀ c ∈ front, c ∉ stops) ∧ ∀ c, rest.head? = some c → c ∈ stops

omit [Regexp] [Unicode] in
theorem trimPrefix_eq_iff {s p rest : Str} : trimPrefix s p = rest ↔ Behind p s rest := by
  unfold trimPrefix Behind hasPrefix
  simp only [List.isPrefixOf_iff_prefix]
  constructor
  · rintro rfl
    split
    · rename_i h
      exact .inl (List.prefix_iff_eq_append.mp h).symm
    · rename_i h
      exact .inr ⟨h, rfl⟩
  · rintro (rfl | ⟨h, rfl⟩)
    · rw [if_pos (List.prefix_append _ _), List.drop_left]
    · rw [if_neg h]

omit [Regexp] [Unicode] in
theorem before_eq_iff {s front : Str} {stop : Char → Bool} {stops : List Char}
    (hstop : ∀ c, stop c = true ↔ c ∈ stops) : before s stop = front ↔ UpTo stops s front := by
  unfold before UpTo
  constructor
  · rintro rfl
    refine ⟨s.dropWhile (fun c => !stop c), List.takeWhile_append_dropWhile.symm, ?_, ?_⟩
    · intro c hc hmem
      have := List.mem_takeWhile_imp hc
      rw [(hstop c).mpr hmem] at this
      cases this
    · intro c hc
      have := List.head?_dropWhile_not (fun c => !stop c) s
      rw [hc] at this
      exact (hstop c).mp (by simpa using this)
  · rintro ⟨rest, rfl, hfront, hrest⟩
    have hall : ∀ c ∈ front, (!stop c) = true := by
      intro c hc
      rw [Bool.not_eq_true', ← Bool.not_eq_true, hstop]
      exact hfront c hc
    rw [List.takeWhile_append_of_pos hall]
    cases rest with
    | nil => simp
    | cons c rest =>
      have hc : stop c = true := (hstop c).mpr (hrest c rfl)
      simp [hc]

/-- The host in the text of a wildcard: behind the schemes and before a path or a port. -/
def WildcardHost (pattern host : Str) : Prop :=
  ∃ a b c text, Behind "https://" pattern a ∧ Behind "http://" a b ∧ Behind "//" b c ∧
    UpTo ['/', ':'] c text ∧ trimSpace text = host

/-- The host of the URL that the pattern is, with a scheme in front where it has none; a text that
is no URL has none. -/
def URLHost (pattern host : Str) : Prop :=
  ∃ raw, (if contains pattern "://" then raw = pattern else raw = "http://" ++ pattern) ∧
    ((∃ url, parse raw = some url ∧ UpTo [':'] url.host host) ∨ parse raw = none ∧ host = [])

/-- The entry with this pattern is found for `u`: it is filed under `h` or under no host, and
an exact pattern means `u` as it is written, with no scheme added. -/
def FoundFor (pattern u h : Str) : Prop :=
  if '*' ∈ pattern then WildcardHost pattern [] ∨ WildcardHost pattern h
  else (URLHost pattern [] ∨ URLHost pattern h) ∧ Spells .exact pattern u

omit [Regexp] in
theorem extractHostFromWildcard_iff {pattern host : Str} :
    extractHostFromWildcard pattern = host ↔ WildcardHost pattern host := by
  have hboth : ∀ s : Str, before (before s (· == '/')) (· == ':') =
      before s fun c => c == '/' || c == ':' := by
    intro s
    unfold before
    rw [List.takeWhile_takeWhile]
    congr 1
    funext c
    by_cases hslash : c = '/' <;> by_cases hcolon : c = ':' <;> simp [hslash, hcolon]
  have hstop : ∀ c : Char, (c == '/' || c == ':') = true ↔ c ∈ ['/', ':'] := by simp
  unfold extractHostFromWildcard WildcardHost
  dsimp only
  rw [hboth]
  constructor
  · rintro rfl
    exact ⟨_, _, _, _, trimPrefix_eq_iff.mp rfl, trimPrefix_eq_iff.mp rfl,
      trimPrefix_eq_iff.mp rfl, (before_eq_iff hstop).mp rfl, rfl⟩
  · rintro ⟨a, b, c, text, ha, hb, hc, htext, rfl⟩
    rw [trimPrefix_eq_iff.mpr ha, trimPrefix_eq_iff.mpr hb, trimPrefix_eq_iff.mpr hc,
      (before_eq_iff hstop).mpr htext]

omit [Regexp] [Unicode] in
theorem extractHostFromURL_iff {pattern host : Str} :
    extractHostFromURL pattern = host ↔ URLHost pattern host := by
  have hstop : ∀ c : Char, (c == ':') = true ↔ c ∈ [':'] := by simp
  have hraw : ∀ raw : Str, (if contains pattern "://" then raw = pattern
      else raw = "http://" ++ pattern) ↔
        raw = if contains pattern "://" then pattern else "http://" ++ pattern := by
    intro raw
    split <;> rfl
  unfold extractHostFromURL URLHost
  simp only [hraw, exists_eq_left]
  cases parse (if contains pattern "://" then pattern else "http://" ++ pattern) with
  | none => simp [eq_comm]
  | some url => simp [before_eq_iff hstop]

/-- For a URL that the pattern means, this is that the rule has the right host and takes `u`. -/
theorem foundFor_iff {pattern target u h : Str} {rule : RewriteRule}
    (hbuild : buildRewriteRule pattern target = some rule) (hd : Denotes rule.type pattern u) :
    FoundFor pattern u h ↔
      (rule.host = [] ∨ rule.host = h) ∧ Regexp.matchString rule.regex u := by
  unfold buildRewriteRule classify at hbuild
  dsimp only at hbuild
  split at hbuild
  · -- A regexp pattern means no URL here.
    obtain ⟨regex, -, rfl⟩ := Option.map_eq_some_iff.mp hbuild
    simp [Denotes, Spells] at hd
  · unfold FoundFor
    split at hbuild
    · rename_i hstar
      obtain ⟨regex, hcompile, rfl⟩ := Option.map_eq_some_iff.mp hbuild
      rw [if_pos hstar, ← extractHostFromWildcard_iff, ← extractHostFromWildcard_iff]
      exact (and_iff_left (matchString_wildcard hcompile hd)).symm
    · rename_i hstar
      obtain ⟨regex, hcompile, rfl⟩ := Option.map_eq_some_iff.mp hbuild
      rw [if_neg hstar, matchString_exact hcompile, ← extractHostFromURL_iff,
        ← extractHostFromURL_iff]

/-- An entry is found for a URL that it means, in every accepted list, exactly when its host
part is the hostname of the URL or empty and an exact pattern needs no scheme added. -/
theorem denoted_urls_are_found (entry pattern target u h : Str) (rule : RewriteRule)
    (hread : readEntry entry = some (pattern, target))
    (hbuild : buildRewriteRule pattern target = some rule)
    (hd : Denotes rule.type pattern u) (hreq : RequestFor u h) :
    (∀ entries re, entry ∈ entries → newRewriteEngine entries = some re →
      (re.matchRequest u h).isSome) ↔ FoundFor pattern u h := by
  rw [foundFor_iff hbuild hd]
  constructor
  · intro hall
    have hhit := hall [entry] _ (by simp) (newRewriteEngine_single hread hbuild)
    obtain ⟨r, hr, htakes⟩ := (matchRequest_isSome _ hreq).mp hhit
    unfold RewriteEngine.addRule RewriteEngine.empty at hr
    split at hr
    · by_cases hh : h = rule.host
      · obtain rfl : r = rule := by simpa [hh] using hr
        exact ⟨.inr hh.symm, htakes⟩
      · simp [hh] at hr
    · rename_i hhost
      obtain rfl : r = rule := by simpa using hr
      exact ⟨.inl (not_not.mp hhost), htakes⟩
  · rintro ⟨hhost, htakes⟩ entries re hmem hre
    have hfiled : rule ∈ re.filed rule.host :=
      (mem_filed hre rule rule.host).mpr ⟨entry, hmem, ⟨pattern, target, hread, hbuild⟩, rfl⟩
    refine (matchRequest_isSome re hreq).mpr ⟨rule, ?_, htakes⟩
    unfold RewriteEngine.filed at hfiled
    split at hfiled
    · exact List.mem_append_right _ hfiled
    · rename_i hne
      obtain rfl : rule.host = h := hhost.resolve_left hne
      exact List.mem_append_left _ hfiled

/-! ## Which hosts are intercepted -/

theorem hostBuckets_nil_addEntry {re re' : RewriteEngine} {entry : Str}
    (h : re.addEntry entry = some re') (hnil : re.hostBuckets [] = []) :
    re'.hostBuckets [] = [] := by
  unfold RewriteEngine.addEntry at h
  split at h
  · exact Option.some.inj h ▸ hnil
  · obtain ⟨rule, -, rfl⟩ := Option.map_eq_some_iff.mp h
    unfold RewriteEngine.addRule
    split
    · rename_i hhost
      simp [Ne.symm hhost, hnil]
    · exact hnil

/-- No rule is in a bucket without a name. -/
theorem hostBuckets_nil {entries : List Str} {re re' : RewriteEngine}
    (h : entries.foldlM RewriteEngine.addEntry re = some re') (hnil : re.hostBuckets [] = []) :
    re'.hostBuckets [] = [] := by
  induction entries generalizing re with
  | nil =>
    obtain rfl : re = re' := by simpa using h
    exact hnil
  | cons entry entries ih =>
    rw [List.foldlM_cons] at h
    obtain ⟨mid, hmid, hrest⟩ := Option.bind_eq_some_iff.mp h
    exact ih hrest (hostBuckets_nil_addEntry hmid hnil)

/-- Every entry of an accepted list that is not skipped compiles. -/
theorem entry_builds {entries : List Str} {re re' : RewriteEngine} {entry pattern target : Str}
    (h : entries.foldlM RewriteEngine.addEntry re = some re') (hmem : entry ∈ entries)
    (hread : readEntry entry = some (pattern, target)) :
    ∃ rule, buildRewriteRule pattern target = some rule := by
  induction entries generalizing re with
  | nil => cases hmem
  | cons first entries ih =>
    rw [List.foldlM_cons] at h
    obtain ⟨mid, hmid, hrest⟩ := Option.bind_eq_some_iff.mp h
    cases hmem with
    | head =>
      unfold RewriteEngine.addEntry at hmid
      rw [hread] at hmid
      obtain ⟨rule, hbuild, -⟩ := Option.map_eq_some_iff.mp hmid
      exact ⟨rule, hbuild⟩
    | tail _ htail => exact ih hrest htail

theorem buildRewriteRule_eq_some {pattern target : Str} {rule : RewriteRule}
    (h : buildRewriteRule pattern target = some rule) :
    rule.host = (classify pattern).2.1 ∧
      Regexp.compile (classify pattern).2.2 = some rule.regex := by
  obtain ⟨regex, hcompile, rfl⟩ := Option.map_eq_some_iff.mp h
  exact ⟨rfl, hcompile⟩

/-- Some entry that is not skipped names the host. -/
def Named (entries : List Str) (host : Str) : Prop :=
  host ≠ [] ∧ ∃ entry ∈ entries, ∃ pattern target,
    readEntry entry = some (pattern, target) ∧ (classify pattern).2.1 = host

/-- Some entry that names no host has a pattern that takes `u`. -/
def TakenAnywhere (entries : List Str) (u : Str) : Prop :=
  ∃ entry ∈ entries, ∃ pattern target regex,
    readEntry entry = some (pattern, target) ∧ (classify pattern).2.1 = [] ∧
      Regexp.compile (classify pattern).2.2 = some regex ∧ Regexp.matchString regex u

theorem isInterceptHost_iff {entries : List Str} {re : RewriteEngine}
    (h : newRewriteEngine entries = some re) (host : Str) :
    isInterceptHost re host = true ↔ Named entries host := by
  have hbucket : isInterceptHost re host = true ↔ ∃ r, r ∈ re.hostBuckets host := by
    unfold isInterceptHost
    rw [Bool.not_eq_true', List.isEmpty_eq_false_iff_exists_mem]
  unfold Named
  by_cases hhost : host = []
  · rw [hbucket, hhost, hostBuckets_nil h rfl]
    simp
  · have hfiled : re.filed host = re.hostBuckets host := if_neg hhost
    rw [hbucket, ← hfiled]
    simp only [mem_filed h, ne_eq, hhost, not_false_eq_true, true_and]
    constructor
    · rintro ⟨r, entry, hmem, ⟨pattern, target, hread, hbuild⟩, rfl⟩
      exact ⟨entry, hmem, pattern, target, hread, (buildRewriteRule_eq_some hbuild).1.symm⟩
    · rintro ⟨entry, hmem, pattern, target, hread, hname⟩
      obtain ⟨rule, hbuild⟩ := entry_builds h hmem hread
      exact ⟨rule, entry, hmem, ⟨pattern, target, hread, hbuild⟩,
        (buildRewriteRule_eq_some hbuild).1.trans hname⟩

theorem globalRules_take_iff {entries : List Str} {re : RewriteEngine}
    (h : newRewriteEngine entries = some re) (u : Str) :
    (∃ rule ∈ re.globalRules, Regexp.matchString rule.regex u) ↔ TakenAnywhere entries u := by
  have hfiled : re.globalRules = re.filed [] := rfl
  rw [hfiled]
  simp only [mem_filed h]
  constructor
  · rintro ⟨rule, ⟨entry, hmem, ⟨pattern, target, hread, hbuild⟩, hhost⟩, htakes⟩
    obtain ⟨hname, hcompile⟩ := buildRewriteRule_eq_some hbuild
    exact ⟨entry, hmem, pattern, target, rule.regex, hread, hname.symm.trans hhost, hcompile, htakes⟩
  · rintro ⟨entry, hmem, pattern, target, regex, hread, hname, hcompile, htakes⟩
    obtain ⟨rule, hbuild⟩ := entry_builds h hmem hread
    obtain ⟨hhost, hregex⟩ := buildRewriteRule_eq_some hbuild
    obtain rfl : regex = rule.regex := Option.some.inj (hcompile.symm.trans hregex)
    exact ⟨rule, ⟨entry, hmem, ⟨pattern, target, hread, hbuild⟩, hhost.trans hname⟩, htakes⟩

/-- A hit on an https URL is on an intercepted host, exactly when some entry names the host or no
entry without a host takes the URL. -/
theorem hits_are_intercepted (entries : List Str) (re : RewriteEngine) (u : Str) (url : URL)
    (h : newRewriteEngine entries = some re) (hparse : parse u = some url)
    (hscheme : url.scheme = "https") :
    ((re.matchRequest u url.hostname).isSome → isInterceptHost re url.hostname = true) ↔
      Named entries url.hostname ∨ ¬ TakenAnywhere entries u := by
  have hreq : RequestFor u url.hostname := ⟨url, hparse, .inr hscheme, rfl⟩
  rw [matchRequest_isSome re hreq, isInterceptHost_iff h, ← globalRules_take_iff h]
  by_cases hnamed : Named entries url.hostname
  · simp [hnamed]
  · -- The bucket of a host that no entry names is empty.
    have hbucket : re.hostBuckets url.hostname = [] := by
      have hnot := mt (isInterceptHost_iff h url.hostname).mp hnamed
      simpa [isInterceptHost] using hnot
    simp [hnamed, hbucket]

end engine

theorem parse_request :
    parse "https://a.cn/v1/x" = some ⟨"https", "a.cn", "/v1/x", []⟩ ∧
      (⟨"https", "a.cn", "/v1/x", []⟩ : URL).hostname = "a.cn" := by
  constructor <;> decide +kernel

/-- The rule of a path wildcard under a plain host. -/
def pathWildcard : RewriteRule :=
  (buildRewriteRule "https://a.cn/v1/*" "http://127.0.0.1/").get (by decide +kernel)

/-- A path wildcard under a plain host is found. -/
theorem path_wildcard_is_found :
    ∃ re : RewriteEngine,
      newRewriteEngine ["# API", "https://a.cn/v1/* http://127.0.0.1/"] = some re ∧
        (re.matchRequest "https://a.cn/v1/x" "a.cn").isSome := by
  obtain ⟨re, hre⟩ := Option.isSome_iff_exists.mp (show (newRewriteEngine
    ["# API", "https://a.cn/v1/* http://127.0.0.1/"]).isSome by decide +kernel)
  have hbuild : buildRewriteRule "https://a.cn/v1/*" "http://127.0.0.1/" = some pathWildcard :=
    (Option.some_get _).symm
  have htype : pathWildcard.type = .wildcard := by decide +kernel
  have hfills : Fills "https://a.cn/v1/*" "https://a.cn/v1/x" :=
    Fills.text (p := "https://a.cn/v1/") (by decide) (.star (s := ['x']) (by decide) .nil)
  have hfound : FoundFor "https://a.cn/v1/*" "https://a.cn/v1/x" "a.cn" := by
    rw [FoundFor, if_pos (by decide)]
    exact .inr ⟨"a.cn/v1/*", "a.cn/v1/*", "a.cn/v1/*", "a.cn", .inl (by decide),
      .inr ⟨by decide, rfl⟩, .inr ⟨by decide, rfl⟩, ⟨"/v1/*", by decide, by simp, by simp⟩,
      by decide +kernel⟩
  refine ⟨re, hre, (denoted_urls_are_found "https://a.cn/v1/* http://127.0.0.1/" _ _ _ _
    pathWildcard (by decide +kernel) hbuild (htype ▸ .inl hfills) ?_).mpr hfound _ re (by simp) hre⟩
  exact ⟨⟨"https", "a.cn", "/v1/x", []⟩, parse_request.1, by decide, parse_request.2⟩

/-- A wildcard in the host is filed under its own text, and no request looks there. -/
theorem host_wildcard_is_dead :
    (buildRewriteRule "*.a.cn/*" "http://127.0.0.1/").map (·.type) = some .wildcard ∧
      Denotes .wildcard "*.a.cn/*" "http://www.a.cn/x" ∧
      RequestFor "http://www.a.cn/x" "www.a.cn" ∧
      (newRewriteEngine ["*.a.cn/* http://127.0.0.1/"]).map
        (fun re => re.matchRequest "http://www.a.cn/x" "www.a.cn") = some none := by
  refine ⟨by decide +kernel, .inl ?_, ?_, by decide +kernel⟩
  · exact .star (s := "http://www") (by decide)
      (Fills.text (p := ".a.cn/") (by decide) (.star (s := ['x']) (by decide) .nil))
  · exact ⟨⟨"http", "www.a.cn", "/x", []⟩, by decide +kernel, by decide, by decide +kernel⟩

/-- The entries name the host, and a hit on it is intercepted. -/
theorem named_host_is_intercepted :
    ∃ re : RewriteEngine, newRewriteEngine ["https://a.cn/v1/* http://127.0.0.1/"] = some re ∧
      isInterceptHost re "a.cn" = true := by
  obtain ⟨re, hre⟩ := Option.isSome_iff_exists.mp (show (newRewriteEngine
    ["https://a.cn/v1/* http://127.0.0.1/"]).isSome by decide +kernel)
  have hhit : (newRewriteEngine ["https://a.cn/v1/* http://127.0.0.1/"]).all
      (fun re => (re.matchRequest "https://a.cn/v1/x" "a.cn").isSome) = true := by decide +kernel
  obtain ⟨hparse, hname⟩ := parse_request
  have hnamed : Named ["https://a.cn/v1/* http://127.0.0.1/"] "a.cn" :=
    ⟨by decide, _, List.mem_singleton_self _, "https://a.cn/v1/*", "http://127.0.0.1/",
      by decide +kernel, by decide +kernel⟩
  have hlaw := hits_are_intercepted _ re _ _ hre hparse rfl
  rw [hname] at hlaw
  rw [hre] at hhit
  exact ⟨re, hre, hlaw.mpr (.inl hnamed) hhit⟩

/-- A regexp without a host takes the URL, and the host is not intercepted. -/
theorem hit_on_a_host_that_is_not_intercepted :
    parse "https://example.com/api/x" = some ⟨"https", "example.com", "/api/x", []⟩ ∧
      (newRewriteEngine ["/\\/api\\// http://localhost:3000"]).map (fun re =>
        ((re.matchRequest "https://example.com/api/x" "example.com").isSome,
          isInterceptHost re "example.com")) = some (true, false) := by
  have hread : readEntry "/\\/api\\// http://localhost:3000" =
      some (("/\\/api\\//" : Str), ("http://localhost:3000" : Str)) := by decide +kernel
  have hparts : regexParts "/\\/api\\//" = some (("\\/api\\/" : Str), []) := by decide +kernel
  have hcleaned : unescaped "\\/api\\/" = ("/api/" : Str) := by simp [unescaped, replacePair]
  have hclass : classify "/\\/api\\//" = (.regex, [], ("\\/api\\/" : Str)) := by
    rw [classify_of_parts hparts, extractHost_of_unescaped hcleaned]
    decide +kernel
  refine ⟨by decide +kernel, ?_⟩
  simp only [newRewriteEngine, List.foldlM_cons, List.foldlM_nil, RewriteEngine.addEntry, hread,
    buildRewriteRule, hclass]
  decide +kernel

end vproxy
