-- A scanner of lines as package bufio has it. Reads of any length fill its buffer, and a scan reads
-- on only where the buffer has no end of line. When reads fail, the rest of the buffer is still
-- given out, and its last piece too, even if the line goes on behind it.
import Vproxy.Strings

open go

namespace bufio

/-- What is in the buffer, and what the reads to come give before they end or fail. -/
structure Scanner where
  buf : Str
  reads : List Str
  deriving DecidableEq

def dropCR (line : Str) : Str := if line.getLast? = some '\r' then line.dropLast else line

namespace Scanner

/-- `NewScanner`. -/
def new (reads : List Str) : Scanner := ⟨[], reads⟩

/-- The scan with this in the buffer. -/
def scanFrom (buf : Str) : List Str → Option (Str × Scanner)
  | [] =>
    match cut buf '\n' with
    | some (line, rest) => some (dropCR line, ⟨rest, []⟩)
    | none => if buf = [] then none else some (dropCR buf, ⟨[], []⟩)
  | chunk :: reads =>
    match cut buf '\n' with
    | some (line, rest) => some (dropCR line, ⟨rest, chunk :: reads⟩)
    | none => scanFrom (buf ++ chunk) reads

/-- `Scan` with `ScanLines`: the next line, and the scanner behind it. -/
def scan (s : Scanner) : Option (Str × Scanner) := scanFrom s.buf s.reads

/-- The scanner of a file that was closed: its reads fail. -/
def close (s : Scanner) : Scanner := { s with reads := [] }

/-- All that the scanner has to give. -/
def text (s : Scanner) : Str := s.buf ++ s.reads.flatten

/-- The scanner `n` characters further. It has read on only where it had to. -/
def advanceFrom (buf : Str) : List Str → Nat → Scanner
  | [], n => ⟨buf.drop n, []⟩
  | chunk :: reads, n =>
    if n ≤ buf.length then ⟨buf.drop n, chunk :: reads⟩
    else advanceFrom chunk reads (n - buf.length)

def advance (s : Scanner) (n : Nat) : Scanner := advanceFrom s.buf s.reads n

@[simp] theorem text_new (reads : List Str) : (new reads).text = reads.flatten := rfl

@[simp] theorem text_close (s : Scanner) : s.close.text = s.buf := List.append_nil _

@[simp] theorem text_closed (buf : Str) : (⟨buf, []⟩ : Scanner).text = buf := List.append_nil _

@[simp] theorem advance_closed (buf : Str) (n : Nat) :
    (⟨buf, []⟩ : Scanner).advance n = ⟨buf.drop n, []⟩ := rfl

@[simp] theorem close_closed (buf : Str) : (⟨buf, []⟩ : Scanner).close = ⟨buf, []⟩ := rfl

theorem drop_append_of_lt {a b : Str} {n : Nat} (h : a.length < n) :
    (a ++ b).drop n = b.drop (n - a.length) := by
  rw [List.drop_append, List.drop_eq_nil_of_le (Nat.le_of_lt h), List.nil_append]

theorem text_advanceFrom (buf : Str) (reads : List Str) (n : Nat) :
    (advanceFrom buf reads n).text = (buf ++ reads.flatten).drop n := by
  induction reads generalizing buf n with
  | nil => simp [advanceFrom, text]
  | cons chunk reads ih =>
    rw [advanceFrom]
    split
    · rename_i hin
      rw [text, List.drop_append_of_le_length hin]
    · rename_i hout
      rw [ih, List.flatten_cons, drop_append_of_lt (Nat.lt_of_not_le hout)]

theorem text_advance (s : Scanner) (n : Nat) : (s.advance n).text = s.text.drop n :=
  text_advanceFrom s.buf s.reads n

theorem buf_part (s : Scanner) : s.buf <+: s.text := List.prefix_append _ _

/-- It does not matter how the characters before a read are spread. -/
theorem advanceFrom_append {buf chunk : Str} (reads : List Str) {n : Nat} (h : buf.length < n) :
    advanceFrom (buf ++ chunk) reads n = advanceFrom chunk reads (n - buf.length) := by
  cases reads with
  | nil => rw [advanceFrom, advanceFrom, drop_append_of_lt h]
  | cons chunk' reads =>
    have hlen : (buf ++ chunk).length = buf.length + chunk.length := List.length_append
    rw [advanceFrom, advanceFrom, drop_append_of_lt h]
    by_cases hin : n - buf.length ≤ chunk.length
    · rw [if_pos hin, if_pos (by omega)]
    · rw [if_neg hin, if_neg (by omega), hlen, Nat.sub_add_eq]

theorem cut_eq_none {s : Str} {c : Char} (h : c ∉ s) : cut s c = none := if_neg h

theorem scanFrom_line {buf : Str} {reads : List Str} {line more : Str}
    (h : buf ++ reads.flatten = line ++ '\n' :: more) (hline : '\n' ∉ line) :
    scanFrom buf reads = some (dropCR line, advanceFrom buf reads (line.length + 1)) := by
  induction reads generalizing buf with
  | nil =>
    rw [List.flatten_nil, List.append_nil] at h
    rw [scanFrom, h, cut_append hline, advanceFrom]
    simp
  | cons chunk reads ih =>
    rw [scanFrom, advanceFrom]
    rcases List.append_eq_append_iff.mp h with ⟨rest, hbuf, hrest⟩ | ⟨rest, hbuf, hrest⟩
    · -- the line goes on behind the buffer
      have hnot : '\n' ∉ buf := fun hmem => hline (hbuf ▸ List.mem_append_left _ hmem)
      have hlen : buf.length < line.length + 1 := by
        rw [hbuf, List.length_append]
        omega
      rw [cut_eq_none hnot, if_neg (by omega), ← advanceFrom_append reads hlen]
      exact ih (by rw [← h, List.flatten_cons, List.append_assoc])
    · cases rest with
      | nil =>
        rw [List.append_nil] at hbuf
        subst hbuf
        rw [cut_eq_none hline, if_neg (by omega), ← advanceFrom_append reads (by omega)]
        exact ih (by rw [← h, List.flatten_cons, List.append_assoc])
      | cons c rest =>
        obtain ⟨rfl, -⟩ := List.cons.inj hrest
        rw [hbuf, cut_append hline, if_pos (by simp)]
        simp

/-- A whole line is given out, and the scanner is behind its end. -/
theorem scan_line {s : Scanner} {line more : Str} (h : s.text = line ++ '\n' :: more)
    (hline : '\n' ∉ line) : s.scan = some (dropCR line, s.advance (line.length + 1)) :=
  scanFrom_line h hline

/-- The last piece of a closed scanner is given out as it is. -/
theorem scan_piece {buf : Str} (h : '\n' ∉ buf) (hne : buf ≠ []) :
    (⟨buf, []⟩ : Scanner).scan = some (dropCR buf, ⟨[], []⟩) := by
  unfold scan scanFrom
  rw [cut_eq_none h]
  exact if_neg hne

@[simp] theorem scan_empty : (⟨[], []⟩ : Scanner).scan = none := rfl

theorem scan_end {s : Scanner} (h : s.text = []) : s.scan = none := by
  obtain ⟨buf, reads⟩ := s
  obtain ⟨rfl, hreads⟩ := List.append_eq_nil_iff.mp h
  induction reads with
  | nil => rfl
  | cons chunk reads ih =>
    obtain ⟨rfl, hrest⟩ := List.append_eq_nil_iff.mp hreads
    exact ih hrest hrest

end Scanner

theorem dropCR_of_not_mem {line : Str} (h : '\r' ∉ line) : dropCR line = line :=
  if_neg fun hlast => h (List.mem_of_getLast? hlast)

end bufio
