-- The rewrite engine. A rule is filed under the host that its pattern names, and a
-- request asks only the rules of its own host and the rules without a host.
import Vproxy.Regexes
import Vproxy.Urls

open go go.url go.regexp

namespace vproxy

variable [Unicode] [Regexp]

/-! ## Rules -/

inductive RewriteType
  | regex
  | wildcard
  | exact
deriving DecidableEq, Repr

inductive RewriteAction
  | proxy
  | mock
deriving DecidableEq, Repr

structure RewriteRule where
  type : RewriteType
  host : Str
  regex : Regexp.Prog
  target : Str
  action : RewriteAction

structure RewriteResult where
  action : RewriteAction
  targetURL : Str
  localFile : Str
deriving DecidableEq, Repr

/-- The pattern and the target of an entry, both empty when it has no such parts. -/
def parseRewriteEntry (entry : Str) : Str × Str :=
  let byFields :=
    match fields entry with
    | pattern :: target :: _ => (pattern, target)
    | _ => ([], [])
  if hasPrefix (toUpper entry) "MAP," then
    match splitN3 entry ',' with
    | [_, pattern, target] => (trimSpace pattern, trimSpace target)
    | _ => byFields
  else byFields

def extractHostFromRegexPattern (regexBody : Str) : Str :=
  let cleaned := replacePair '\\' '/' "/" regexBody
  let cleaned := replacePair '\\' '.' "." cleaned
  let cleaned := trimPrefix cleaned "^"
  let cleaned := trimPrefix cleaned "https://"
  let cleaned := trimPrefix cleaned "http://"
  let cleaned := trimPrefix cleaned "//"
  let hostPart := trimSpace (before cleaned (("/(?[:" : Str).contains ·))
  if '.' ∈ hostPart ∨ hostPart = "localhost" then hostPart else []

/-- What is left of a body when the escapes of slashes and dots are gone. -/
def unescaped (body : Str) : Str := replacePair '\\' '.' "." (replacePair '\\' '/' "/" body)

omit [Regexp] in
theorem extractHost_of_unescaped {body cleaned : Str} (h : unescaped body = cleaned) :
    extractHostFromRegexPattern body =
      let cleaned := trimPrefix cleaned "^"
      let cleaned := trimPrefix cleaned "https://"
      let cleaned := trimPrefix cleaned "http://"
      let cleaned := trimPrefix cleaned "//"
      let hostPart := trimSpace (before cleaned (("/(?[:" : Str).contains ·))
      if '.' ∈ hostPart ∨ hostPart = "localhost" then hostPart else [] := by
  rw [← h]
  rfl

def extractHostFromWildcard (pattern : Str) : Str :=
  let cleaned := trimPrefix pattern "https://"
  let cleaned := trimPrefix cleaned "http://"
  let cleaned := trimPrefix cleaned "//"
  let cleaned := before cleaned (· == '/')
  trimSpace (before cleaned (· == ':'))

def extractHostFromURL (rawURL : Str) : Str :=
  let rawURL := if contains rawURL "://" then rawURL else "http://" ++ rawURL
  match parse rawURL with
  | some u => before u.host (· == ':')
  | none => []

def wildcardToRegex (pattern : Str) : Str :=
  let parts := (pattern.splitOn '*').map quoteMeta
  let inner := List.intercalate ("(.*)" : Str) parts
  if ¬ hasPrefix pattern "http://" ∧ ¬ hasPrefix pattern "https://" ∧ ¬ hasPrefix pattern "//" then
    "^(?:https?:)?(?://)?" ++ inner ++ "$"
  else "^" ++ inner ++ "$"

/-- The body and the flags of a pattern `/body/flags`. -/
def regexParts (pattern : Str) : Option (Str × Str) :=
  if hasPrefix pattern "/" ∧ 2 ≤ pattern.length then
    match lastIndex pattern '/' with
    | some (i + 1) => some ((pattern.take (i + 1)).drop 1, pattern.drop (i + 2))
    | _ => none
  else none

/-- The type of a pattern, the host it is filed under, and the text that is compiled. -/
def classify (pattern : Str) : RewriteType × Str × Str :=
  match regexParts pattern with
  | some (body, flags) =>
    (.regex, extractHostFromRegexPattern body, if 'i' ∈ flags then "(?i)" ++ body else body)
  | none =>
    if '*' ∈ pattern then (.wildcard, extractHostFromWildcard pattern, wildcardToRegex pattern)
    else (.exact, extractHostFromURL pattern, "^" ++ quoteMeta pattern ++ "(?:$|\\?|/)")

omit [Regexp] in
/-- A regexp entry without flags. -/
theorem classify_of_parts {pattern body : Str} (h : regexParts pattern = some (body, [])) :
    classify pattern = (.regex, extractHostFromRegexPattern body, body) := by
  rw [classify, h]
  rfl

/-- A pattern that does not compile is an error, here `none`. -/
def buildRewriteRule (pattern target : Str) : Option RewriteRule :=
  let action := if hasPrefix target "file://" then .mock else .proxy
  let (type, host, text) := classify pattern
  (Regexp.compile text).map fun regex => ⟨type, host, regex, target, action⟩

/-! ## The engine -/

/-- A host with no bucket has no rules. -/
structure RewriteEngine where
  hostBuckets : Str → List RewriteRule
  globalRules : List RewriteRule
  allHosts : List Str

def RewriteEngine.empty : RewriteEngine := ⟨fun _ => [], [], []⟩

def RewriteEngine.addRule (re : RewriteEngine) (rule : RewriteRule) : RewriteEngine :=
  if rule.host ≠ [] then
    { re with
      hostBuckets := fun h =>
        if h = rule.host then re.hostBuckets h ++ [rule] else re.hostBuckets h
      allHosts := if rule.host ∈ re.allHosts then re.allHosts else re.allHosts ++ [rule.host] }
  else { re with globalRules := re.globalRules ++ [rule] }

/-- The pattern and the target of an entry that is not skipped. -/
def readEntry (entry : Str) : Option (Str × Str) :=
  let entry := trimSpace entry
  if entry = [] ∨ hasPrefix entry "#" then none
  else
    let (pattern, target) := parseRewriteEntry entry
    if pattern = [] ∨ target = [] then none else some (pattern, target)

def RewriteEngine.addEntry (re : RewriteEngine) (entry : Str) : Option RewriteEngine :=
  match readEntry entry with
  | none => some re
  | some (pattern, target) => (buildRewriteRule pattern target).map re.addRule

/-- One rule that does not compile refuses the whole list. -/
def newRewriteEngine (entries : List Str) : Option RewriteEngine :=
  entries.foldlM RewriteEngine.addEntry .empty

def isInterceptHost (re : RewriteEngine) (host : Str) : Bool :=
  !(re.hostBuckets host).isEmpty

/-- The path and the query that are put after a target without `$`. -/
def pathAndQuery (reqURL : Str) : Str :=
  match parse reqURL with
  | none => []
  | some u => u.escapedPath ++ if u.rawQuery ≠ [] then '?' :: u.rawQuery else []

def appendPath (targetBase path : Str) : Str :=
  if hasSuffix targetBase "/" ∧ hasPrefix path "/" then trimSuffix targetBase "/" ++ path
  else if ¬ hasSuffix targetBase "/" ∧ ¬ hasPrefix path "/" then targetBase ++ "/" ++ path
  else targetBase ++ path

def rewriteTarget (rule : RewriteRule) (reqURL : Str) : Str :=
  if '$' ∈ rule.target then
    match Regexp.findStringSubmatchIndex rule.regex reqURL with
    | [] => Regexp.replaceAllString rule.regex reqURL rule.target
    | submatches => Regexp.expandString rule.regex rule.target reqURL submatches
  else appendPath rule.target (pathAndQuery reqURL)

def evaluateRule (rule : RewriteRule) (reqURL : Str) : Option RewriteResult :=
  if Regexp.matchString rule.regex reqURL then
    match rule.action with
    | .mock => some ⟨.mock, [], trimPrefix rule.target "file://"⟩
    | .proxy => some ⟨.proxy, rewriteTarget rule reqURL, []⟩
  else none

def firstHit (rules : List RewriteRule) (reqURL : Str) : Option RewriteResult :=
  rules.findSome? (evaluateRule · reqURL)

/-- `RewriteEngine.Match`. -/
def RewriteEngine.matchRequest (re : RewriteEngine) (reqURL host : Str) : Option RewriteResult :=
  let host :=
    if host = [] then
      match parse reqURL with
      | some u => u.hostname
      | none => host
    else host
  (firstHit (re.hostBuckets host) reqURL).or (firstHit re.globalRules reqURL)

end vproxy
