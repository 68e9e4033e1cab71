-- The host of a regexp entry (rewrite.go, extractHostFromRegexPattern). The host is cut out of the
-- text of the expression, up to the first slash, bracket, colon or question mark. The entry is
-- filed under what comes out, also when that is only a part of a host or no host at all.
import Vproxy.RewriteIndex

open go go.url go.regexp

namespace vproxy

/-! ## Bodies -/

/-- The characters that do not stand for themselves in an expression. -/
def special : Str := "\\.+*?()|[]\x7b\x7d^$"

/-- A part of an expression: a character that stands for itself, an escaped character, a bar
between alternatives, a class and a group. -/
inductive RegexPiece where
  | plain (c : Char) (ordinary : c ∉ special)
  | escaped (c : Char)
  | bar
  | cls (inside : Str)
  | group (inside : Str)

def RegexPiece.text : RegexPiece → Str
  | .plain c _ => [c]
  | .escaped c => ['\\', c]
  | .bar => ['|']
  | .cls inside => '[' :: (inside ++ [']'])
  | .group inside => '(' :: (inside ++ [')'])

/-- The body of a regexp entry without repetitions: perhaps a caret, and pieces. A scheme in front
is a row of pieces like any other. -/
structure RegexBody where
  caret : Bool
  pieces : List RegexPiece

def RegexBody.text (b : RegexBody) : Str :=
  (if b.caret then ['^'] else []) ++ b.pieces.flatMap RegexPiece.text

/-! ## The place of the host -/

/-- The character that a piece is read as, where it is read as one. -/
def RegexPiece.char : RegexPiece → Option Char
  | .plain c _ => some c
  | .escaped c => if c = '/' ∨ c = '.' then some c else none
  | .bar => some '|'
  | .cls _ | .group _ => none

/-- The pieces behind a word, when they begin with it. -/
def behind : Str → List RegexPiece → Option (List RegexPiece)
  | [], ps => some ps
  | c :: word, p :: ps => if p.char = some c then behind word ps else none
  | _ :: _, [] => none

/-- The pieces behind the scheme. -/
def hostPieces (ps : List RegexPiece) : List RegexPiece :=
  let ps := (behind "https://" ps).getD ps
  let ps := (behind "http://" ps).getD ps
  (behind "//" ps).getD ps

def startsWithSlash : List RegexPiece → Bool
  | .plain c _ :: _ => c == '/'
  | _ => false

/-- What is read up to the first slash, colon, class or group. Of an escape other than that of a
dot the backslash stays. -/
def front : List RegexPiece → Str
  | [] => []
  | .plain c _ :: ps => if c = '/' ∨ c = ':' then [] else c :: front ps
  | .escaped c :: ps =>
    if c = '/' then []
    else if c = '.' then '.' :: front ps
    else if c ∈ ['(', '?', '[', ':'] then ['\\']
    -- the second backslash and the slash are taken for an escaped slash
    else if c = '\\' ∧ startsWithSlash ps then ['\\']
    else '\\' :: c :: front ps
  | .bar :: ps => '|' :: front ps
  | .cls _ :: _ | .group _ :: _ => []

/-- It counts as a host: there is a dot in it, or it is `localhost`. -/
def LooksLikeHost (t : Str) : Prop := '.' ∈ t ∨ t = "localhost"

/-! ## The cut -/

/-- The first step of `unescaped`. -/
def slashes (s : Str) : Str := replacePair '\\' '/' "/" s

theorem replacePair_nil (a b : Char) (new : Str) : replacePair a b new [] = [] := by
  rw [replacePair]

theorem replacePair_cons {a b c : Char} (new s : Str) (h : c ≠ a) :
    replacePair a b new (c :: s) = c :: replacePair a b new s := by
  cases s with
  | nil => simp [replacePair]
  | cons d rest => rw [replacePair, if_neg fun hboth => h hboth.1]

theorem replacePair_pair (a b : Char) (new s : Str) :
    replacePair a b new (a :: b :: s) = new ++ replacePair a b new s := by
  rw [replacePair, if_pos ⟨rfl, rfl⟩]

theorem replacePair_skip {a b : Char} (new : Str) {s : Str} (h : s.head? ≠ some b) :
    replacePair a b new (a :: s) = a :: replacePair a b new s := by
  cases s with
  | nil => simp [replacePair]
  | cons d rest => rw [replacePair, if_neg fun hboth => h (congrArg some hboth.2)]

theorem unescaped_cons {c : Char} (s : Str) (h : c ≠ '\\') :
    unescaped (c :: s) = c :: unescaped s := by
  rw [unescaped, replacePair_cons _ _ h, replacePair_cons _ _ h, unescaped]

theorem unescaped_slash (s : Str) : unescaped ('\\' :: '/' :: s) = '/' :: unescaped s := by
  rw [unescaped, replacePair_pair]
  exact replacePair_cons _ _ (by decide)

theorem unescaped_dot (s : Str) : unescaped ('\\' :: '.' :: s) = '.' :: unescaped s := by
  rw [unescaped, replacePair_skip _ (by simp), replacePair_cons (c := '.') _ _ (by decide),
    replacePair_pair]
  rfl

theorem unescaped_back {s : Str} (hslash : s.head? ≠ some '/')
    (hdot : (slashes s).head? ≠ some '.') : unescaped ('\\' :: s) = '\\' :: unescaped s := by
  rw [unescaped, replacePair_skip _ hslash]
  exact replacePair_skip _ hdot

/-- The first step keeps the first character, or takes it for an escaped slash. -/
theorem head?_slashes (c : Char) (s : Str) :
    (slashes (c :: s)).head? = some c ∨ (slashes (c :: s)).head? = some '/' := by
  unfold slashes
  cases s with
  | nil => simp [replacePair]
  | cons d rest =>
    rw [replacePair]
    split
    · exact Or.inr rfl
    · exact Or.inl rfl

theorem unescaped_other {c : Char} (s : Str) (hslash : c ≠ '/') (hdot : c ≠ '.') :
    unescaped ('\\' :: c :: s) = '\\' :: unescaped (c :: s) := by
  refine unescaped_back (by simpa using hslash) ?_
  obtain hsame | hslash := head?_slashes c s
  · rw [hsame]
    simpa using hdot
  · rw [hslash]
    decide

/-- The text of pieces, as it is searched for a host. -/
def cleaned (ps : List RegexPiece) : Str := unescaped (ps.flatMap RegexPiece.text)

theorem cleaned_nil : cleaned [] = [] := by
  rw [cleaned, List.flatMap_nil, unescaped, replacePair_nil, replacePair_nil]

theorem ne_of_ordinary {c d : Char} (h : c ∉ special) (hd : d ∈ special) : c ≠ d := by
  rintro rfl
  exact h hd

theorem cleaned_of_char {p : RegexPiece} {c : Char} (h : p.char = some c) (ps : List RegexPiece) :
    cleaned (p :: ps) = c :: cleaned ps := by
  cases p with
  | plain d ordinary =>
    cases h
    exact unescaped_cons _ (ne_of_ordinary ordinary (by decide))
  | escaped d =>
    rw [RegexPiece.char] at h
    split at h
    · rename_i hd
      cases h
      obtain rfl | rfl := hd
      · exact unescaped_slash _
      · exact unescaped_dot _
    · cases h
  | bar =>
    cases h
    exact unescaped_cons _ (by decide)
  | cls inside => cases h
  | group inside => cases h

/-- The text of pieces begins with a slash only where the first piece is one, and never with a
dot. -/
theorem head?_text (ps : List RegexPiece) :
    ((ps.flatMap RegexPiece.text).head? = some '/' → startsWithSlash ps = true) ∧
      (slashes (ps.flatMap RegexPiece.text)).head? ≠ some '.' := by
  have hkept : ∀ {c : Char} {s : Str}, c ≠ '.' → (slashes (c :: s)).head? ≠ some '.' := by
    intro c s hc
    obtain hsame | hslash := head?_slashes c s
    · rw [hsame]
      simpa using hc
    · rw [hslash]
      decide
  cases ps with
  | nil =>
    refine ⟨nofun, ?_⟩
    rw [List.flatMap_nil, slashes, replacePair_nil]
    nofun
  | cons p ps =>
    cases p with
    | plain c ordinary =>
      refine ⟨fun h => ?_, hkept (ne_of_ordinary ordinary (by decide))⟩
      exact beq_iff_eq.mpr (Option.some.inj h)
    | escaped c => exact ⟨fun h => absurd (Option.some.inj h) (by decide), hkept (by decide)⟩
    | bar => exact ⟨fun h => absurd (Option.some.inj h) (by decide), hkept (by decide)⟩
    | cls inside => exact ⟨fun h => absurd (Option.some.inj h) (by decide), hkept (by decide)⟩
    | group inside => exact ⟨fun h => absurd (Option.some.inj h) (by decide), hkept (by decide)⟩

/-- An escape whose backslash stays. -/
theorem cleaned_escaped {c : Char} (hslash : c ≠ '/') (hdot : c ≠ '.') (ps : List RegexPiece) :
    cleaned (.escaped c :: ps) =
      '\\' :: if c = '\\' ∧ startsWithSlash ps then cleaned ps else c :: cleaned ps := by
  have hstep : cleaned (.escaped c :: ps) = '\\' :: unescaped (c :: ps.flatMap RegexPiece.text) :=
    unescaped_other _ hslash hdot
  rw [hstep]
  congr 1
  by_cases hback : c = '\\'
  swap
  · rw [if_neg fun h => hback h.1]
    exact unescaped_cons _ hback
  subst hback
  by_cases hstarts : startsWithSlash ps = true
  · rw [if_pos ⟨rfl, hstarts⟩]
    match ps, hstarts with
    | .plain d ordinary :: ps, hstarts =>
      obtain rfl := beq_iff_eq.mp hstarts
      rw [cleaned_of_char rfl]
      exact unescaped_slash _
  · rw [if_neg fun h => hstarts h.2]
    exact unescaped_back (mt (head?_text ps).1 hstarts) (head?_text ps).2

/-- A piece that is not read as a character begins with a backslash or a bracket. -/
theorem cleaned_of_no_char {p : RegexPiece} (h : p.char = none) (ps : List RegexPiece) :
    ∃ c rest, cleaned (p :: ps) = c :: rest ∧ c ∈ ("\\[(" : Str) := by
  cases p with
  | plain c ordinary => cases h
  | escaped c =>
    rw [RegexPiece.char] at h
    split at h
    · cases h
    · rename_i hc
      rw [not_or] at hc
      exact ⟨_, _, cleaned_escaped hc.1 hc.2 ps, by decide⟩
  | bar => cases h
  | cls inside => exact ⟨'[', _, unescaped_cons _ (by decide), by decide⟩
  | group inside => exact ⟨'(', _, unescaped_cons _ (by decide), by decide⟩

/-- The word is at the begin of the cleaned text exactly when the pieces begin with it. -/
theorem cleaned_behind {word : Str} (hword : ∀ c ∈ word, c ∉ ("\\[(" : Str))
    (ps : List RegexPiece) :
    (∀ ps', behind word ps = some ps' → cleaned ps = word ++ cleaned ps') ∧
      (behind word ps = none → ¬ word <+: cleaned ps) := by
  induction word generalizing ps with
  | nil =>
    refine ⟨fun ps' h => ?_, nofun⟩
    cases h
    rfl
  | cons c word ih =>
    rw [List.forall_mem_cons] at hword
    cases ps with
    | nil =>
      refine ⟨nofun, fun _ h => ?_⟩
      rw [cleaned_nil] at h
      cases List.prefix_nil.mp h
    | cons p ps =>
      obtain ⟨hbehind, hnot⟩ := ih hword.2 ps
      rw [behind]
      by_cases hchar : p.char = some c
      · rw [if_pos hchar, cleaned_of_char hchar]
        refine ⟨fun ps' h => by rw [hbehind ps' h]; rfl, fun h hprefix => ?_⟩
        exact hnot h (List.cons_prefix_cons.mp hprefix).2
      · rw [if_neg hchar]
        refine ⟨nofun, fun _ hprefix => ?_⟩
        cases hsome : p.char with
        | some d =>
          rw [cleaned_of_char hsome] at hprefix
          exact hchar (hsome.trans (congrArg some (List.cons_prefix_cons.mp hprefix).1.symm))
        | none =>
          obtain ⟨d, rest, hcleaned, hd⟩ := cleaned_of_no_char hsome ps
          rw [hcleaned] at hprefix
          exact hword.1 ((List.cons_prefix_cons.mp hprefix).1 ▸ hd)

theorem trimPrefix_cleaned {word : Str} (hword : ∀ c ∈ word, c ∉ ("\\[(" : Str))
    (ps : List RegexPiece) :
    trimPrefix (cleaned ps) word = cleaned ((behind word ps).getD ps) := by
  obtain ⟨hbehind, hnot⟩ := cleaned_behind hword ps
  unfold trimPrefix hasPrefix
  cases h : behind word ps with
  | some ps' =>
    rw [hbehind ps' h, if_pos (by simp), List.drop_left]
    rfl
  | none =>
    rw [if_neg (by simpa using hnot h)]
    rfl

/-- The delimiters that end the host. -/
def stops (c : Char) : Bool := ("/(?[:" : Str).contains c

theorem before_of_stops {c : Char} (h : stops c = true) (s : Str) : before (c :: s) stops = [] := by
  rw [before, List.takeWhile_cons_of_neg (by simp [h])]

theorem before_of_goes {c : Char} (h : stops c = false) (s : Str) :
    before (c :: s) stops = c :: before s stops := by
  rw [before, List.takeWhile_cons_of_pos (by simp [h])]
  rfl

theorem stops_iff (c : Char) : stops c = true ↔ c = '/' ∨ c ∈ ['(', '?', '[', ':'] := by
  rw [← List.mem_cons]
  exact List.contains_iff_mem

/-- A character that stands for itself ends the host if it is a slash or a colon. -/
theorem stops_of_ordinary {c : Char} (h : c ∉ special) : stops c = true ↔ c = '/' ∨ c = ':' := by
  have hopen := ne_of_ordinary h (d := '(') (by decide)
  have hquestion := ne_of_ordinary h (d := '?') (by decide)
  have hbracket := ne_of_ordinary h (d := '[') (by decide)
  rw [stops_iff]
  simp [hopen, hquestion, hbracket]

/-- The host ends at an escape that stands for a delimiter, and goes on behind any other one. -/
theorem before_escaped {ps : List RegexPiece} (hps : before (cleaned ps) stops = front ps)
    (c : Char) : before (cleaned (.escaped c :: ps)) stops = front (.escaped c :: ps) := by
  rw [front]
  split
  · rename_i hc
    rw [hc, cleaned_of_char rfl, before_of_stops rfl]
  rename_i hslash
  split
  · rename_i hc
    rw [hc, cleaned_of_char rfl, before_of_goes rfl, hps]
  rename_i hdot
  rw [cleaned_escaped hslash hdot, before_of_goes rfl]
  by_cases hopen : c ∈ ['(', '?', '[', ':']
  · have hback : ¬ (c = '\\' ∧ startsWithSlash ps = true) := by
      rintro ⟨rfl, -⟩
      exact absurd hopen (by decide)
    rw [if_pos hopen, if_neg hback, before_of_stops ((stops_iff c).mpr (Or.inr hopen))]
  have hgoes : stops c = false := by
    rw [Bool.eq_false_iff, ne_eq, stops_iff, not_or]
    exact ⟨hslash, hopen⟩
  rw [if_neg hopen]
  by_cases hback : c = '\\' ∧ startsWithSlash ps = true
  · rw [if_pos hback, if_pos hback]
    match ps, hback.2 with
    | .plain d ordinary :: ps, hstarts =>
      obtain rfl := beq_iff_eq.mp hstarts
      rw [cleaned_of_char rfl, before_of_stops rfl]
  · rw [if_neg hback, if_neg hback, before_of_goes hgoes, hps]

theorem before_cleaned (ps : List RegexPiece) : before (cleaned ps) stops = front ps := by
  induction ps with
  | nil =>
    rw [cleaned_nil]
    rfl
  | cons p ps ih =>
    cases p with
    | plain c ordinary =>
      rw [cleaned_of_char rfl, front]
      split
      · rename_i hc
        exact before_of_stops ((stops_of_ordinary ordinary).mpr hc) _
      · rename_i hc
        rw [before_of_goes (by simpa using mt (stops_of_ordinary ordinary).mp hc), ih]
    | escaped c => exact before_escaped ih c
    | bar => rw [cleaned_of_char rfl, before_of_goes rfl, ih, front]
    | cls inside =>
      rw [front]
      exact (congrArg (before · stops) (unescaped_cons _ (by decide))).trans (before_of_stops rfl _)
    | group inside =>
      rw [front]
      exact (congrArg (before · stops) (unescaped_cons _ (by decide))).trans (before_of_stops rfl _)

/-- No piece is read as a caret. -/
theorem behind_caret (ps : List RegexPiece) : behind "^" ps = none := by
  cases ps with
  | nil => rfl
  | cons p ps =>
    refine if_neg fun h => ?_
    cases p with
    | plain c ordinary => exact ne_of_ordinary ordinary (by decide) (Option.some.inj h)
    | escaped c =>
      rw [RegexPiece.char] at h
      split at h
      · rename_i hc
        cases h
        obtain hc | hc := hc <;> cases hc
      · cases h
    | bar => cases h
    | cls inside => cases h
    | group inside => cases h

/-- Without the caret, the text of a body. -/
theorem trimPrefix_caret (b : RegexBody) :
    trimPrefix (unescaped b.text) "^" = cleaned b.pieces := by
  unfold RegexBody.text
  cases b.caret with
  | true =>
    change trimPrefix (unescaped ('^' :: b.pieces.flatMap RegexPiece.text)) "^" = _
    rw [unescaped_cons _ (by decide)]
    rfl
  | false =>
    change trimPrefix (cleaned b.pieces) "^" = _
    rw [trimPrefix_cleaned (by simp), behind_caret]
    rfl

section

variable [Unicode]

/-- The text in the place of the host of a body. -/
def RegexBody.hostText (b : RegexBody) : Str := trimSpace (front (hostPieces b.pieces))

/-- The host that is cut out of a body. -/
theorem extractHost_text (b : RegexBody) :
    extractHostFromRegexPattern b.text =
      if '.' ∈ b.hostText ∨ b.hostText = "localhost" then b.hostText else [] := by
  rw [extractHost_of_unescaped rfl]
  dsimp only
  rw [trimPrefix_caret, trimPrefix_cleaned (by simp), trimPrefix_cleaned (by simp),
    trimPrefix_cleaned (by simp)]
  exact congrArg (fun t : Str => if '.' ∈ t ∨ t = "localhost" then t else [])
    (congrArg trimSpace (before_cleaned (hostPieces b.pieces)))

end

section

variable [Regexp]

/-- The engine of one rule asks it for its own host, and for every host if it has none. -/
theorem mem_of_single (rule r : RewriteRule) (h : Str) :
    r ∈ (RewriteEngine.empty.addRule rule).hostBuckets h ++
        (RewriteEngine.empty.addRule rule).globalRules ↔
      r = rule ∧ (rule.host = [] ∨ rule.host = h) := by
  unfold RewriteEngine.addRule RewriteEngine.empty
  by_cases hnone : rule.host = []
  · simp [hnone]
  · by_cases hsame : h = rule.host
    · simp [hnone, hsame]
    · simp [hnone, hsame, Ne.symm hsame]

variable [Unicode]

/-- A regexp entry is filed under the host that is cut out of its body. -/
theorem host_of_regex {pattern target body flags : Str} {rule : RewriteRule}
    (hparts : regexParts pattern = some (body, flags))
    (hbuild : buildRewriteRule pattern target = some rule) :
    rule.type = .regex ∧ rule.host = extractHostFromRegexPattern body := by
  unfold buildRewriteRule classify at hbuild
  rw [hparts] at hbuild
  obtain ⟨regex, -, rfl⟩ := Option.map_eq_some_iff.mp hbuild
  exact ⟨rfl, rfl⟩

/-- A URL that the expression of a regexp entry matches, wherever it matches and whatever is in it,
is a hit for the entry alone exactly when the pieces in the place of the host, up to the first
slash, colon, class or group, spell nothing that counts as a host, or the hostname of the URL. -/
theorem regex_entry_is_hit_iff (entry pattern target flags u h : Str) (b : RegexBody)
    (rule : RewriteRule) (hread : readEntry entry = some (pattern, target))
    (hparts : regexParts pattern = some (b.text, flags))
    (hbuild : buildRewriteRule pattern target = some rule) (hreq : RequestFor u h)
    (hmatch : Regexp.matchString rule.regex u = true) :
    (∀ re, newRewriteEngine [entry] = some re → (re.matchRequest u h).isSome) ↔
      ¬ LooksLikeHost b.hostText ∨ b.hostText = h := by
  have hengine := newRewriteEngine_single hread hbuild
  have hhost : rule.host = [] ∨ rule.host = h ↔ ¬ LooksLikeHost b.hostText ∨ b.hostText = h := by
    rw [(host_of_regex hparts hbuild).2, extractHost_text]
    by_cases hlooks : LooksLikeHost b.hostText
    · have hne : b.hostText ≠ [] := by
        intro hnil
        rw [LooksLikeHost, hnil] at hlooks
        obtain hdot | hlocal := hlooks
        · cases hdot
        · cases hlocal
      simp only [if_pos (show '.' ∈ b.hostText ∨ b.hostText = "localhost" from hlooks), hne, hlooks,
        not_true, false_or]
    · simp only [if_neg (show ¬ ('.' ∈ b.hostText ∨ b.hostText = "localhost") from hlooks), hlooks,
        not_false_eq_true, true_or]
  rw [hengine, ← hhost]
  constructor
  · intro hall
    obtain ⟨r, hr, -⟩ := (matchRequest_isSome _ hreq).mp (hall _ rfl)
    exact ((mem_of_single rule r h).mp hr).2
  · rintro hhost re hre
    obtain rfl := Option.some.inj hre
    exact (matchRequest_isSome _ hreq).mpr
      ⟨rule, (mem_of_single rule rule h).mpr ⟨rfl, hhost⟩, hmatch⟩

end

/-! ## Two entries -/

/-- The rule of a plain host with a slash behind it. -/
def plainHost : RewriteRule :=
  (buildRewriteRule "/a\\.cn\\//" "http://b.cn").get (by decide +kernel)

/-- Its body. -/
def plainHostBody : RegexBody where
  caret := false
  pieces := [.plain 'a' (by decide), .escaped '.', .plain 'c' (by decide), .plain 'n' (by decide),
    .escaped '/']

/-- A plain host with a slash behind it is cut out whole. -/
theorem plain_host_is_hit :
    ∃ re : RewriteEngine, newRewriteEngine ["/a\\.cn\\// http://b.cn"] = some re ∧
      (re.matchRequest "https://a.cn/x" "a.cn").isSome := by
  have hbuild : buildRewriteRule "/a\\.cn\\//" "http://b.cn" = some plainHost :=
    (Option.some_get _).symm
  have hmatch : Regexp.matchString plainHost.regex "https://a.cn/x" = true := by decide +kernel
  have hread : readEntry "/a\\.cn\\// http://b.cn" =
      some (("/a\\.cn\\//" : Str), ("http://b.cn" : Str)) := by decide +kernel
  have hreq : RequestFor "https://a.cn/x" "a.cn" :=
    ⟨⟨"https", "a.cn", "/x", []⟩, by decide +kernel, .inr rfl, by decide +kernel⟩
  have hengine := newRewriteEngine_single hread hbuild
  exact ⟨_, hengine, (regex_entry_is_hit_iff _ _ _ [] _ _ plainHostBody plainHost hread
    (by decide +kernel) hbuild hreq hmatch).mpr (.inr (by decide +kernel)) _ hengine⟩

/-- Characters, groups and alternatives, and nothing else. -/
def onlyLiterals : Re → Bool
  | .empty | .char _ => true
  | .seq a b | .alt a b => onlyLiterals a && onlyLiterals b
  | .group a => onlyLiterals a
  | _ => false

/-- Two hosts in one expression. -/
def groupHostBody : RegexBody where
  caret := false
  pieces := [.plain 'w' (by decide), .plain 'w' (by decide), .plain 'w' (by decide), .escaped '.',
    .group "a|b", .escaped '.', .plain 'c' (by decide), .plain 'n' (by decide), .escaped '/']

/-- A group in the middle of the host cuts it off, and no request has the host that is left. The
expression matches right behind the scheme. -/
theorem host_before_a_group_is_missed :
    groupHostBody.text = "www\\.(a|b)\\.cn\\/" ∧
    ((Re.parse "www\\.(a|b)\\.cn\\/").map fun r =>
        (onlyLiterals r, r.ends ("https://www.a.cn/x" : Str).length "www.a.cn/x")) =
      some (true, [['x']]) ∧
    RequestFor "https://www.a.cn/x" "www.a.cn" ∧
    (newRewriteEngine ["/www\\.(a|b)\\.cn\\// http://c.cn"]).map
      (fun re => re.matchRequest "https://www.a.cn/x" "www.a.cn") = some none := by
  have hread : readEntry "/www\\.(a|b)\\.cn\\// http://c.cn" =
      some (("/www\\.(a|b)\\.cn\\//" : Str), ("http://c.cn" : Str)) := by decide +kernel
  have hparts : regexParts "/www\\.(a|b)\\.cn\\//" =
      some (("www\\.(a|b)\\.cn\\/" : Str), []) := by decide +kernel
  have htext : groupHostBody.text = "www\\.(a|b)\\.cn\\/" := by decide +kernel
  have hclass : classify "/www\\.(a|b)\\.cn\\//" =
      (RewriteType.regex, ("www." : Str), ("www\\.(a|b)\\.cn\\/" : Str)) := by
    rw [classify_of_parts hparts, ← htext, extractHost_text]
    decide +kernel
  refine ⟨htext, by decide +kernel, ?_, ?_⟩
  · exact ⟨⟨"https", "www.a.cn", "/x", []⟩, by decide +kernel, .inr rfl, by decide +kernel⟩
  · simp only [newRewriteEngine, List.foldlM_cons, List.foldlM_nil, RewriteEngine.addEntry, hread,
      buildRewriteRule, hclass]
    decide +kernel

end vproxy
