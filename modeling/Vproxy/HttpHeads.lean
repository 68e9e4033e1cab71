-- Heads of HTTP requests, as a recipient reads them: a line with three fields, lines with header
-- fields, and an empty line. A head that is written from a request is read as this request, if
-- its fields hold no white space.
import Vproxy.Strings

open go

namespace http_heads

structure Request where
  method : Str
  target : Str
  version : Str
  headers : List (Str × Str)
  deriving DecidableEq

/-! ## Reading -/

/-- The white space that separates fields and lines. -/
def isSep (c : Char) : Bool := c = ' ' || c = '\t' || c = '\r' || c = '\n'

def isField (s : Str) : Bool := s ≠ [] && s.all fun c => !isSep c

def readRequestLine (line : Str) : Option (Str × Str × Str) :=
  match line.splitOn ' ' with
  | [method, target, version] =>
    if isField method && isField target && isField version then some (method, target, version)
    else none
  | _ => none

def isBlank (c : Char) : Bool := c = ' ' || c = '\t'

/-- The value of a header without the blanks around it. -/
def trimBlanks (s : Str) : Str := ((s.dropWhile isBlank).reverse.dropWhile isBlank).reverse

/-- A header field. A carriage return inside its value is not allowed. -/
def readHeader (line : Str) : Option (Str × Str) := do
  let (name, value) ← cut line ':'
  if isField name && !value.contains '\r' then some (name, trimBlanks value) else none

/-- The line without the carriage return at its end. -/
def chomp (line : Str) : Str := if line.getLast? = some '\r' then line.dropLast else line

/-- The lines, and at the end what stands behind the last newline. -/
def lines (s : Str) : List Str := (s.splitOn '\n').map chomp

/-- The header fields up to an empty line, and the lines after it. -/
def readHeaders : List Str → Option (List (Str × Str) × List Str)
  | [] => none
  | line :: rest =>
    if line = [] then some ([], rest)
    else do
      let header ← readHeader line
      let (headers, rest) ← readHeaders rest
      some (header :: headers, rest)

def readRequest : List Str → Option (Request × List Str)
  | [] => none
  | line :: rest => do
    let (method, target, version) ← readRequestLine line
    let (headers, rest) ← readHeaders rest
    some (⟨method, target, version, headers⟩, rest)

/-- The one request of the text, when nothing comes after its head. -/
def readOnly (s : Str) : Option Request :=
  match readRequest (lines s) with
  | some (r, [[]]) => some r
  | _ => none

/-! ## Writing -/

def writeLine (line : Str) : Str := line ++ "\r\n"

def requestLine (r : Request) : Str := r.method ++ " " ++ r.target ++ " " ++ r.version

def headerLine (header : Str × Str) : Str := header.1 ++ ": " ++ header.2

def writeHead (r : Request) : Str :=
  writeLine (requestLine r) ++ (r.headers.flatMap fun h => writeLine (headerLine h)) ++ "\r\n"

/-- A header that is read as it is written. -/
structure ValidHeader (header : Str × Str) : Prop where
  name : isField header.1
  colon : ':' ∉ header.1
  value : ∀ c ∈ header.2, c ≠ '\r' ∧ c ≠ '\n'
  trimmed : trimBlanks header.2 = header.2

structure Request.Valid (r : Request) : Prop where
  method : isField r.method
  target : isField r.target
  version : isField r.version
  headers : ∀ h ∈ r.headers, ValidHeader h

/-! ## Fields -/

theorem isField_iff (s : Str) : isField s ↔ s ≠ [] ∧ ∀ c ∈ s, isSep c = false := by
  simp [isField]

theorem not_mem_of_isField {s : Str} (h : isField s) {c : Char} (hc : isSep c) : c ∉ s := by
  intro hmem
  rw [((isField_iff s).mp h).2 c hmem] at hc
  cases hc

theorem splitOn_field {s : Str} (h : isField s) (rest : Str) :
    (s ++ ' ' :: rest).splitOn ' ' = s :: rest.splitOn ' ' :=
  List.splitOn_append_cons_self_of_not_mem (not_mem_of_isField h (by decide)) rest

theorem readRequestLine_requestLine {r : Request} (h : r.Valid) :
    readRequestLine (requestLine r) = some (r.method, r.target, r.version) := by
  have hsplit : (requestLine r).splitOn ' ' = [r.method, r.target, r.version] := by
    have hline : requestLine r = r.method ++ ' ' :: (r.target ++ ' ' :: r.version) := by
      simp [requestLine]
    rw [hline, splitOn_field h.method, splitOn_field h.target,
      List.splitOn_eq_singleton (not_mem_of_isField h.version (by decide))]
  unfold readRequestLine
  rw [hsplit]
  dsimp only
  rw [h.method, h.target, h.version]
  rfl

/-- The fields that are read hold no white space. -/
theorem isField_of_readRequestLine {line method target version : Str}
    (h : readRequestLine line = some (method, target, version)) :
    isField method ∧ isField target ∧ isField version := by
  unfold readRequestLine at h
  split at h
  · split at h
    · rename_i hfields
      cases h
      simpa [and_assoc] using hfields
    · cases h
  · cases h

theorem readHeader_headerLine {header : Str × Str} (h : ValidHeader header) :
    readHeader (headerLine header) = some header := by
  have hline : headerLine header = header.1 ++ ':' :: ' ' :: header.2 := by simp [headerLine]
  have hcut : cut (headerLine header) ':' = some (header.1, ' ' :: header.2) := by
    rw [hline]
    exact cut_append h.colon
  have hreturn : (' ' :: header.2).contains '\r' = false := by
    rw [List.contains_eq_mem, decide_eq_false_iff_not]
    intro hmem
    obtain heq | hmem := List.mem_cons.mp hmem
    · exact absurd heq (by decide)
    · exact (h.value _ hmem).1 rfl
  have htrim : trimBlanks (' ' :: header.2) = header.2 := h.trimmed
  unfold readHeader
  rw [hcut]
  simp only [Option.bind_eq_bind, Option.bind_some]
  rw [h.name, hreturn, htrim]
  rfl

/-! ## Lines -/

theorem chomp_append (line : Str) : chomp (line ++ ['\r']) = line := by
  unfold chomp
  rw [if_pos List.getLast?_concat, List.dropLast_concat]

theorem lines_writeLine {line : Str} (h : '\n' ∉ line) (s : Str) :
    lines (writeLine line ++ s) = line :: lines s := by
  have hline : writeLine line ++ s = (line ++ ['\r']) ++ '\n' :: s := by simp [writeLine]
  have hnot : '\n' ∉ line ++ ['\r'] := by simpa using h
  unfold lines
  rw [hline, List.splitOn_append_cons_self_of_not_mem hnot, List.map_cons, chomp_append]

theorem newline_not_mem_requestLine {r : Request} (h : r.Valid) : '\n' ∉ requestLine r := by
  have hmethod := not_mem_of_isField h.method (c := '\n') rfl
  have htarget := not_mem_of_isField h.target (c := '\n') rfl
  have hversion := not_mem_of_isField h.version (c := '\n') rfl
  simp [requestLine, hmethod, htarget, hversion]

theorem newline_not_mem_headerLine {header : Str × Str} (h : ValidHeader header) :
    '\n' ∉ headerLine header := by
  have hname := not_mem_of_isField h.name (c := '\n') rfl
  have hvalue : '\n' ∉ header.2 := fun hmem => (h.value _ hmem).2 rfl
  simp [headerLine, hname, hvalue]

theorem lines_writeHead {r : Request} (h : r.Valid) :
    lines (writeHead r) = requestLine r :: (r.headers.map headerLine ++ [[], []]) := by
  have hheaders : ∀ hs : List (Str × Str), (∀ x ∈ hs, ValidHeader x) →
      lines ((hs.flatMap fun x => writeLine (headerLine x)) ++ "\r\n") =
        hs.map headerLine ++ [[], []] := by
    intro hs hvalid
    induction hs with
    | nil => rfl
    | cons x hs ih =>
      obtain ⟨hx, hs'⟩ := List.forall_mem_cons.mp hvalid
      rw [List.flatMap_cons, List.append_assoc, lines_writeLine (newline_not_mem_headerLine hx),
        ih hs']
      rfl
  unfold writeHead
  rw [List.append_assoc, lines_writeLine (newline_not_mem_requestLine h), hheaders _ h.headers]

theorem readHeaders_map {headers : List (Str × Str)} (h : ∀ x ∈ headers, ValidHeader x)
    (rest : List Str) :
    readHeaders (headers.map headerLine ++ [] :: rest) = some (headers, rest) := by
  induction headers with
  | nil => rfl
  | cons x headers ih =>
    obtain ⟨hx, hrest⟩ := List.forall_mem_cons.mp h
    have hne : headerLine x ≠ [] := by simp [headerLine]
    rw [List.map_cons, List.cons_append, readHeaders, if_neg hne, readHeader_headerLine hx,
      ih hrest]
    rfl

/-! ## Reading what was written -/

/-- A valid request is read as it was written, with nothing after it. -/
theorem readOnly_writeHead {r : Request} (h : r.Valid) : readOnly (writeHead r) = some r := by
  have hread : readRequest (lines (writeHead r)) = some (r, [[]]) := by
    rw [lines_writeHead h, readRequest, readRequestLine_requestLine h]
    simp only [Option.bind_eq_bind, Option.bind_some]
    rw [readHeaders_map h.headers]
    rfl
  unfold readOnly
  rw [hread]

/-- What is read has fields without white space. -/
theorem isField_of_readOnly {s : Str} {r : Request} (h : readOnly s = some r) :
    isField r.target := by
  unfold readOnly at h
  split at h
  · rename_i r' hread
    cases h
    cases hlines : lines s with
    | nil =>
      rw [hlines] at hread
      cases hread
    | cons line rest =>
      rw [hlines, readRequest] at hread
      simp only [Option.bind_eq_bind, Option.bind_eq_some_iff] at hread
      obtain ⟨⟨method, target, version⟩, hline, ⟨headers, rest'⟩, -, hr⟩ := hread
      cases hr
      exact (isField_of_readRequestLine hline).2.1
  · cases h

end http_heads
