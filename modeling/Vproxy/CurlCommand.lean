-- The curl command of a traced request (curl.ts). The page shows it and copies it, and the reader
-- gives it to a shell; the law says for which requests the shell reads the request out of it again.
import Vproxy.JsStrings
import Vproxy.ShellWords

open js shell

namespace vproxy.curl

/-! ## The command -/

/-- What the command is made of: the fields of a trace that are read. The headers stand in the
order of `Object.entries`. -/
structure TraceEntry where
  method : Str
  url : Str
  reqHeaders : Option (List (Str × List Str))
  reqBody : Option Str

/-- No letter beyond ASCII has a letter of these two names as its lower case. -/
def hopByHop (key : Str) : Bool :=
  let lowerKey := key.map Char.toLower
  lowerKey == "content-length" || lowerKey == "connection"

def headerPart (key val : Str) : Str :=
  let escaped := replaceAll '"' "\\\"" val
  "-H \"" ++ key ++ ": " ++ escaped ++ "\""

def headerParts (entries : List (Str × List Str)) : List Str :=
  entries.flatMap fun (key, values) =>
    if startsWith key ":" then []
    else if hopByHop key then []
    else values.map fun val => headerPart key val

def bodyParts (body : Str) : List Str :=
  if body ≠ [] ∧ trim body ≠ [] then
    let escapedBody := replaceAll '\'' "'\\''" body
    ["--data-raw '" ++ escapedBody ++ "'"]
  else []

section

variable [Casing]

def methodParts (method : Str) : List Str :=
  if method ≠ [] ∧ toUpperCase method ≠ "GET" then ["-X " ++ toUpperCase method] else []

def generateCurlCommand (trace : TraceEntry) : Str :=
  let parts : List Str := ["curl"]
  let parts := parts ++ methodParts trace.method
  let parts := parts ++ ["\"" ++ trace.url ++ "\""]
  let parts := parts ++ (trace.reqHeaders.map headerParts).getD []
  let parts := parts ++ (trace.reqBody.map bodyParts).getD []
  (" \\\n  " : Str).intercalate parts

end

/-! ## The request -/

/-- The headers that are kept, a pair for each value. -/
def kept (trace : TraceEntry) : List (Str × Str) :=
  ((trace.reqHeaders.getD []).filter fun (key, _) => !(startsWith key ":" || hopByHop key)).flatMap
    fun (key, values) => values.map fun val => (key, val)

def headerWords (key val : Str) : List Str := ["-H", key ++ ": " ++ val]

def bodyWords (body : Str) : List Str := if trim body = [] then [] else ["--data-raw", body]

section

variable [Casing]

def methodWords (method : Str) : List Str :=
  if toUpperCase method = "GET" then [] else ["-X", toUpperCase method]

/-- The words that run the request. -/
def requestWords (trace : TraceEntry) : List Str :=
  ("curl" : Str) :: methodWords trace.method ++ trace.url ::
    (kept trace).flatMap (fun (key, val) => headerWords key val) ++
      bodyWords (trace.reqBody.getD [])

end

/-! ## The parts -/

/-- The command up to the URL, without a method. -/
def start (url : Str) : Part where
  text := "curl" ++ continued ++ doubleQuoted url
  words := ["curl", url]
  same := by
    simp only [ord_append, ord_continued, ord_doubleQuoted, List.append_nil, List.flatten_cons,
      List.flatten_nil]
  closed := closed_doubleQuoted _ _

/-- The command up to the URL, with a method. -/
def startWith (method url : Str) : Part where
  text := "curl" ++ continued ++ "-X " ++ (method ++ continued ++ doubleQuoted url)
  words := ["curl", "-X", method, url]
  same := by
    have hoption : ord "-X " = ord "-X" := rfl
    simp only [ord_append, ord_continued, ord_doubleQuoted, hoption, List.append_nil,
      List.nil_append, List.flatten_cons, List.flatten_nil, List.append_assoc]
  closed := by
    rw [← List.append_assoc]
    exact closed_doubleQuoted _ _

def header (h : Str × Str) : Part where
  text := "-H " ++ doubleQuoted (h.1 ++ ": " ++ escaped h.2)
  words := headerWords h.1 h.2
  same := by
    have hoption : ord "-H " = ord "-H" := rfl
    simp only [headerWords, ord_append, ord_doubleQuoted, ord_escaped, hoption, List.append_nil,
      List.flatten_cons, List.flatten_nil]
  closed := closed_doubleQuoted _ _

def body (b : Str) : Part where
  text := "--data-raw " ++ singleQuoted (requoted b)
  words := ["--data-raw", b]
  same := by
    have hoption : ord "--data-raw " = ord "--data-raw" := rfl
    simp only [ord_append, ord_singleQuoted, ord_requoted, hoption, List.append_nil,
      List.flatten_cons, List.flatten_nil]
  closed := closed_singleQuoted _ _

def behind (trace : TraceEntry) : List Part :=
  (kept trace).map header ++
    if trim (trace.reqBody.getD []) = [] then [] else [body (trace.reqBody.getD [])]

theorem led_behind {trace : TraceEntry} {q : Part} (hq : q ∈ behind trace) : q.Led := by
  rcases List.mem_append.mp hq with h | h
  · obtain ⟨h, -, rfl⟩ := List.mem_map.mp h
    exact ⟨'-', _, _, _, by decide, rfl, rfl⟩
  · split at h
    · cases h
    · obtain rfl := List.mem_singleton.mp h
      exact ⟨'-', _, _, _, by decide, rfl, rfl⟩

theorem headerPart_eq (key val : Str) : headerPart key val = (header (key, val)).text := by
  have hopen : ("-H \"" : Str) = "-H " ++ ['"'] := rfl
  unfold headerPart
  rw [hopen, List.append_assoc, List.append_assoc, List.append_assoc, List.append_assoc,
    ← List.append_assoc ": ".toList, ← List.append_assoc key, ← List.append_assoc key]
  rfl

theorem headerParts_eq (trace : TraceEntry) :
    (trace.reqHeaders.map headerParts).getD [] = ((kept trace).map header).map Part.text := by
  unfold kept
  cases trace.reqHeaders with
  | none => rfl
  | some entries =>
    simp only [Option.map_some, Option.getD_some]
    induction entries with
    | nil => rfl
    | cons entry entries ih =>
      obtain ⟨key, values⟩ := entry
      rw [headerParts, List.flatMap_cons, ← headerParts, ih, List.filter_cons]
      by_cases hpseudo : startsWith key [':'] = true
      · simp [hpseudo]
      · by_cases hhop : hopByHop key = true
        · simp [hpseudo, hhop]
        · simp [hpseudo, hhop, headerPart_eq, Function.comp_def]

theorem bodyParts_eq (trace : TraceEntry) : (trace.reqBody.map bodyParts).getD [] =
    (if trim (trace.reqBody.getD []) = [] then [] else [body (trace.reqBody.getD [])]).map
      Part.text := by
  cases trace.reqBody with
  | none => rfl
  | some b =>
    change bodyParts b = (if trim b = [] then [] else [body b]).map Part.text
    unfold bodyParts
    by_cases hblank : trim b = []
    · rw [if_neg (fun h => h.2 hblank), if_pos hblank, List.map_nil]
    · have hne : b ≠ [] := by
        rintro rfl
        exact hblank rfl
      have hopen : ("--data-raw '" : Str) = "--data-raw " ++ ['\''] := rfl
      have htext : "--data-raw '" ++ replaceAll '\'' "'\\''" b ++ "'" = (body b).text := by
        rw [hopen, List.append_assoc, List.append_assoc]
        rfl
      rw [if_pos ⟨hne, hblank⟩, if_neg hblank, List.map_singleton]
      exact congrArg (fun t => [t]) htext

/-! ## Reading the parts -/

theorem words_start_iff (url : Str) :
    words (start url).text = some (start url).words ↔ '"' ∉ url ∧ inert url = true := by
  rw [← words_doubleQuoted_self_iff]
  exact words_behind (s := "curl" ++ continued) (a := ["curl"]) rfl

theorem words_startWith_iff (method url : Str) :
    words (startWith method url).text = some (startWith method url).words ↔
      bare method = true ∧ '"' ∉ url ∧ inert url = true := by
  rw [← words_separated_iff]
  exact words_behind (s := "curl" ++ continued ++ "-X ") (a := ["curl", "-X"]) rfl

theorem words_header_iff (h : Str × Str) : words (header h).text = some (header h).words ↔
    '"' ∉ h.1 ∧ inert (h.1 ++ ": " ++ h.2) = true := by
  have hkey : '"' ∉ h.1 ++ ": " ↔ '"' ∉ h.1 := by
    rw [List.mem_append, or_iff_left (by decide)]
  rw [← hkey, ← words_doubleQuoted_iff]
  exact words_behind (s := "-H ") (a := ["-H"]) rfl

theorem words_body (b : Str) : words (body b).text = some (body b).words :=
  (words_behind (s := "--data-raw ") (a := ["--data-raw"]) rfl).mpr (words_singleQuoted b)

theorem words_behind_iff (trace : TraceEntry) :
    (∀ q ∈ behind trace, words q.text = some q.words) ↔
      ∀ h ∈ kept trace, '"' ∉ h.1 ∧ inert (h.1 ++ ": " ++ h.2) = true := by
  have hbody : ∀ q ∈ (if trim (trace.reqBody.getD []) = [] then []
      else [body (trace.reqBody.getD [])]), words q.text = some q.words := by
    intro q hq
    split at hq
    · cases hq
    · obtain rfl := List.mem_singleton.mp hq
      exact words_body _
  unfold behind
  simp only [List.forall_mem_append, List.forall_mem_map, words_header_iff, and_iff_left hbody]

theorem behind_words (trace : TraceEntry) : (behind trace).flatMap Part.words =
    (kept trace).flatMap (fun (key, val) => headerWords key val) ++
      bodyWords (trace.reqBody.getD []) := by
  unfold behind bodyWords
  rw [List.flatMap_append, List.flatMap_map]
  split
  · rfl
  · rfl

/-- Two parts are one, with what stands between them. -/
theorem intercalate_joined (sep a b : Str) (l : List Str) :
    sep.intercalate (a :: b :: l) = sep.intercalate ((a ++ sep ++ b) :: l) := by
  cases l with
  | nil => simp [List.intercalate_cons_cons]
  | cons c l => simp [List.intercalate_cons_cons]

theorem startWith_joined (method url : Str) (rest : List Str) :
    continued.intercalate ("curl".toList :: ("-X " ++ method) :: doubleQuoted url :: rest) =
      continued.intercalate ((startWith method url).text :: rest) := by
  rw [intercalate_joined, intercalate_joined, ← List.append_assoc, List.append_assoc _ method,
    List.append_assoc _ (method ++ continued)]
  rfl

/-- Words that are missing have no ordinary characters. -/
theorem ord_missing {a x y z : Str} {rest : List Str}
    (h : ord (a :: x :: y :: z :: rest).flatten = ord (a :: z :: rest).flatten) : ord x = [] := by
  have hlength := congrArg List.length h
  simp only [List.flatten_cons, ord_append, List.length_append] at hlength
  exact List.eq_nil_of_length_eq_zero (by omega)

section

variable [Casing]

/-- The part with the URL. -/
def front (trace : TraceEntry) : Part :=
  if trace.method ≠ [] ∧ toUpperCase trace.method ≠ "GET" then
    startWith (toUpperCase trace.method) trace.url
  else start trace.url

/-- The command is its parts, with the line going on between them. -/
theorem generateCurlCommand_eq (trace : TraceEntry) :
    generateCurlCommand trace =
      continued.intercalate ((front trace :: behind trace).map Part.text) := by
  have hsep : (" \\\n  " : Str) = continued := rfl
  have hurl : "\"" ++ trace.url ++ "\"" = doubleQuoted trace.url := rfl
  unfold generateCurlCommand
  rw [headerParts_eq, bodyParts_eq, hsep, hurl, List.map_cons, behind, List.map_append, front,
    methodParts]
  split
  · exact startWith_joined _ _ _
  · exact intercalate_joined _ _ _ _

theorem words_front_iff {trace : TraceEntry}
    (h : toUpperCase trace.method = "GET" ∨ trace.method ≠ []) :
    words (front trace).text = some (front trace).words ↔
      (toUpperCase trace.method = "GET" ∨ bare (toUpperCase trace.method) = true) ∧
        '"' ∉ trace.url ∧ inert trace.url = true := by
  unfold front
  by_cases hget : toUpperCase trace.method = "GET"
  · rw [if_neg fun hmethod => hmethod.2 hget, words_start_iff,
      and_iff_right (Or.inl hget : _ ∨ bare (toUpperCase trace.method) = true)]
  · rw [if_pos ⟨h.resolve_left hget, hget⟩, words_startWith_iff, or_iff_right hget]

theorem requestWords_eq {trace : TraceEntry}
    (h : toUpperCase trace.method = "GET" ∨ trace.method ≠ []) :
    requestWords trace = (front trace :: behind trace).flatMap Part.words := by
  rw [List.flatMap_cons, behind_words]
  unfold requestWords methodWords front
  by_cases hget : toUpperCase trace.method = "GET"
  · rw [if_pos hget, if_neg fun hmethod => hmethod.2 hget]
    rfl
  · rw [if_neg hget, if_pos ⟨h.resolve_left hget, hget⟩]
    rfl

/-- An empty method is left out, so its two words are missing. -/
theorem empty_method_is_missing {trace : TraceEntry} (hget : toUpperCase trace.method ≠ "GET")
    (hmethod : trace.method = []) :
    words (generateCurlCommand trace) ≠ some (requestWords trace) := by
  intro h
  have hord := ord_words h
  rw [generateCurlCommand_eq, ord_joined, List.flatMap_cons, behind_words] at hord
  unfold requestWords methodWords front at hord
  rw [if_neg hget, if_neg fun hboth => hboth.1 hmethod] at hord
  have hoption : ord "-X" = [] := ord_missing hord
  exact absurd hoption (by decide)

/-- The shell reads the request out of the command exactly if the method is a plain word and
nothing happens to the URL and the headers in double quotes. The body always comes through. -/
theorem command_runs_request_iff (trace : TraceEntry) :
    words (generateCurlCommand trace) = some (requestWords trace) ↔
      (toUpperCase trace.method = "GET" ∨
          trace.method ≠ [] ∧ bare (toUpperCase trace.method) = true) ∧
        ('"' ∉ trace.url ∧ inert trace.url = true) ∧
          ∀ h ∈ kept trace, '"' ∉ h.1 ∧ inert (h.1 ++ ": " ++ h.2) = true := by
  by_cases h : toUpperCase trace.method = "GET" ∨ trace.method ≠ []
  · have hmethod : (toUpperCase trace.method = "GET" ∨ bare (toUpperCase trace.method) = true) ↔
        (toUpperCase trace.method = "GET" ∨
          trace.method ≠ [] ∧ bare (toUpperCase trace.method) = true) := by
      tauto
    rw [generateCurlCommand_eq, requestWords_eq h, words_joined _ _ fun q => led_behind,
      List.forall_mem_cons, words_front_iff h, words_behind_iff, hmethod, and_assoc]
  · rw [not_or, not_not] at h
    constructor
    · intro hwords
      exact absurd hwords (empty_method_is_missing h.1 h.2)
    · rintro ⟨hget | hmethod, -, -⟩
      · exact absurd hget h.1
      · exact absurd h.2 hmethod.1

end

/-- A GET request with no headers and no body. -/
def getOf (url : Str) : TraceEntry := ⟨"GET", url, none, none⟩

/-- A command substitution in the URL is run by the shell. -/
theorem url_is_run_by_the_shell :
    generateCurlCommand (getOf "http://a.cn/$(id)") = "curl \\\n  \"http://a.cn/$(id)\"" ∧
      requestWords (getOf "http://a.cn/$(id)") = ["curl", "http://a.cn/$(id)"].map String.toList ∧
      words (generateCurlCommand (getOf "http://a.cn/$(id)")) = none := by
  decide +kernel

end vproxy.curl
