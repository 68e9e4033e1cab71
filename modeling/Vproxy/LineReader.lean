-- A buffered reader as package bufio has it, and a reader of lines on top of it. The buffer is
-- filled by reads of any length, so it may hold bytes behind the line that was asked for. What was
-- taken, what is in the buffer and what is still to come always make up the stream.
import Vproxy.Readers

open readers

namespace bufio

variable {β ε : Type}

/-! ## The buffer -/

inductive Err (ε : Type) where
  | src (e : readers.Err ε)
  | noProgress
  deriving DecidableEq, Repr

/-- The bytes that are read and not yet taken, what is to come, and an error that waits behind
the bytes. -/
structure Reader (β ε : Type) where
  buf : List β
  src : Source β ε
  err : Option (Err ε)

def defaultBufSize : Nat := 4096

def maxConsecutiveEmptyReads : Nat := 100

namespace Reader

def new (src : Source β ε) : Reader β ε := ⟨[], src, none⟩

/-- What the reader has still to give. -/
def left (b : Reader β ε) : List β := b.buf ++ b.src.stream

/-- The reads of `fill`, as many as are left. A read without a byte and without an error is
tried again. -/
def fillTries (b : Reader β ε) : Nat → Reader β ε
  | 0 => { b with err := some .noProgress }
  | tries + 1 =>
    let (got, src) := b.src.read (defaultBufSize - b.buf.length)
    let b := { b with buf := b.buf ++ got.bytes, src }
    match got.err with
    | some e => { b with err := some (.src e) }
    | none => if got.bytes = [] then b.fillTries tries else b

/-- `fill`, into a buffer that has room. -/
def fill (b : Reader β ε) : Reader β ε := b.fillTries maxConsecutiveEmptyReads

/-- Filling takes nothing away. It gets a byte, or an error. -/
structure Fills (b b' : Reader β ε) : Prop where
  left_eq : b'.left = b.left
  buf_front : b.buf <+: b'.buf
  nearer : b'.err = none → b'.src.size < b.src.size
  got : b'.err = none → b'.buf ≠ []

theorem fills_tries (tries : Nat) {b : Reader β ε} (hroom : b.buf.length < defaultBufSize) :
    b.Fills (b.fillTries tries) := by
  induction tries generalizing b with
  | zero => exact ⟨rfl, List.prefix_rfl, nofun, nofun⟩
  | succ tries ih =>
    have hread := b.src.reads_read (defaultBufSize - b.buf.length)
    unfold fillTries
    generalize b.src.read (defaultBufSize - b.buf.length) = r at hread ⊢
    obtain ⟨got, src⟩ := r
    have hleft : (b.buf ++ got.bytes) ++ src.stream = b.left := by
      rw [List.append_assoc, ← hread.stream_eq]
      rfl
    dsimp only
    split
    · exact ⟨hleft, List.prefix_append _ _, nofun, nofun⟩
    · rename_i hnone
      have hsize := hread.nearer (by omega) hnone
      split
      · rename_i hempty
        rw [hempty, List.append_nil] at hleft ⊢
        obtain ⟨hleft', hfront, hnearer, hgot⟩ := ih (b := { b with src }) hroom
        exact ⟨hleft'.trans hleft, hfront, fun h => Nat.lt_trans (hnearer h) hsize, hgot⟩
      · rename_i hsome
        refine ⟨hleft, List.prefix_append _ _, fun _ => hsize, fun _ hnil => hsome ?_⟩
        exact (List.append_eq_nil_iff.mp hnil).2

theorem fills_fill {b : Reader β ε} (hroom : b.buf.length < defaultBufSize) : b.Fills b.fill :=
  fills_tries maxConsecutiveEmptyReads hroom

theorem fills_new (src : Source β ε) : (new src).Fills (new src).fill :=
  fills_fill (Nat.zero_lt_succ 4095)

/-- A measure of how long a line can still go on. -/
def togo (b : Reader β ε) : Nat × Nat × Nat :=
  (if b.err.isNone then 1 else 0, b.src.size, b.buf.length)

theorem togo_fill {b : Reader β ε} (herr : ¬ b.err.isSome)
    (hroom : ¬ defaultBufSize ≤ b.buf.length) :
    Prod.Lex (· < ·) (Prod.Lex (· < ·) (· < ·)) b.fill.togo b.togo := by
  have hfill := fills_fill (Nat.not_le.mp hroom)
  have hnone : b.err = none := by simpa using herr
  unfold togo
  rw [hnone]
  rcases hnext : b.fill.err with _ | e
  · exact .right _ (.left _ _ (hfill.nearer hnext))
  · exact .left _ _ Nat.zero_lt_one

end Reader

/-! ## Lines -/

variable [DecidableEq β]

/-- The bytes that end a line, alone or the one before the other. -/
structure LineEnd (β : Type) where
  cr : β
  nl : β

/-- What `ReadLine` takes of a full buffer, and what it leaves: a carriage return at the end. -/
def LineEnd.cut (e : LineEnd β) (buf : List β) : List β × List β :=
  if buf.getLast? = some e.cr then (buf.dropLast, [e.cr]) else (buf, [])

theorem LineEnd.cut_spec (e : LineEnd β) (buf : List β) :
    buf = (e.cut buf).1 ++ (e.cut buf).2 ∧ (e.cut buf).2.length ≤ 1 := by
  unfold cut
  split
  · rename_i hlast
    exact ⟨(List.dropLast_append_getLast? e.cr hlast).symm, Nat.le_refl 1⟩
  · exact ⟨(List.append_nil buf).symm, Nat.zero_le 1⟩

/-- What is behind the first line of a buffer. -/
def LineEnd.behind (e : LineEnd β) (buf : List β) : List β := (buf.dropWhile (· ≠ e.nl)).tail

theorem LineEnd.behind_spec (e : LineEnd β) {buf : List β} (h : e.nl ∈ buf) :
    buf = buf.takeWhile (· ≠ e.nl) ++ [e.nl] ++ e.behind buf := by
  induction buf with
  | nil => cases h
  | cons b buf ih =>
    unfold behind at ih ⊢
    by_cases hb : b = e.nl
    · simp [hb]
    · have hmem : e.nl ∈ buf := (List.mem_cons.mp h).resolve_left (Ne.symm hb)
      simpa [hb] using ih hmem

namespace Reader

theorem togo_cut (e : LineEnd β) {b : Reader β ε} (hfull : defaultBufSize ≤ b.buf.length) :
    Prod.Lex (· < ·) (Prod.Lex (· < ·) (· < ·)) ({ b with buf := (e.cut b.buf).2 }.togo) b.togo := by
  obtain ⟨heq, hshort⟩ := e.cut_spec b.buf
  refine .right _ (.right _ ?_)
  unfold defaultBufSize at hfull
  dsimp only
  omega

/-- A line without the newline, as the reader of text protocols puts it together: a full buffer
is taken and the line goes on behind it. At an error the bytes that are there are the line; when
there are none, the error is reported. -/
def readLine (e : LineEnd β) (b : Reader β ε) (front : List β) : Option (List β) × Reader β ε :=
  if e.nl ∈ b.buf then
    (some (front ++ b.buf.takeWhile (· ≠ e.nl)), { b with buf := e.behind b.buf })
  else if _herr : b.err.isSome then
    (if b.buf = [] then none else some (front ++ b.buf), { b with buf := [], err := none })
  else if _hfull : defaultBufSize ≤ b.buf.length then
    readLine e { b with buf := (e.cut b.buf).2 } (front ++ (e.cut b.buf).1)
  else readLine e b.fill front
termination_by b.togo
decreasing_by
  · exact togo_cut e _hfull
  · exact togo_fill _herr _hfull

/-- Bytes are taken from the front of what is left. -/
def Takes (b : Reader β ε) (taken : List β) (b' : Reader β ε) : Prop := b.left = taken ++ b'.left

theorem takes_readLine (e : LineEnd β) (b : Reader β ε) (front : List β) :
    ∃ taken, b.Takes taken (b.readLine e front).2 ∧ (b.buf ≠ [] → taken ≠ []) ∧
      ((b.readLine e front).1.isSome → taken ≠ []) := by
  induction b, front using readLine.induct e with
  | case1 b front hmem =>
    have hbehind := e.behind_spec hmem
    rw [readLine, if_pos hmem]
    refine ⟨b.buf.takeWhile (· ≠ e.nl) ++ [e.nl], ?_, by simp, by simp⟩
    unfold Takes left
    dsimp only
    rw [← List.append_assoc, ← hbehind]
  | case2 b front hmem herr =>
    rw [readLine, if_neg hmem, dif_pos herr]
    refine ⟨b.buf, rfl, id, ?_⟩
    dsimp only
    split
    · intro h
      cases h
    · rename_i hsome
      exact fun _ => hsome
  | case3 b front hmem herr hfull ih =>
    obtain ⟨taken, htakes, -, -⟩ := ih
    obtain ⟨hcut, hshort⟩ := e.cut_spec b.buf
    rw [readLine, if_neg hmem, dif_neg herr, dif_pos hfull]
    have hne : (e.cut b.buf).1 ++ taken ≠ [] := by
      intro hnil
      rw [(List.append_eq_nil_iff.mp hnil).1, List.nil_append] at hcut
      rw [← hcut] at hshort
      unfold defaultBufSize at hfull
      omega
    refine ⟨(e.cut b.buf).1 ++ taken, ?_, fun _ => hne, fun _ => hne⟩
    unfold Takes at htakes ⊢
    rw [List.append_assoc, ← htakes]
    unfold left
    rw [← List.append_assoc, ← hcut]
  | case4 b front hmem herr hroom ih =>
    obtain ⟨taken, htakes, hbuf, hline⟩ := ih
    have hfill := fills_fill (Nat.not_le.mp hroom)
    rw [readLine, if_neg hmem, dif_neg herr, dif_neg hroom]
    refine ⟨taken, hfill.left_eq.symm.trans htakes, fun hne => hbuf fun hnil => ?_, hline⟩
    have hfront := hfill.buf_front
    rw [hnil, List.prefix_nil] at hfront
    exact hne hfront

/-- The first line of a new reader starts with a fill of the buffer. -/
theorem readLine_new (e : LineEnd β) (src : Source β ε) :
    (new src).readLine e [] = (new src).fill.readLine e [] := by
  have hempty : e.nl ∉ (new src).buf := List.not_mem_nil
  have hclean : ¬ (new src).err.isSome := Bool.false_ne_true
  have hroom : ¬ defaultBufSize ≤ (new src).buf.length := Nat.not_le.mpr (Nat.zero_lt_succ 4095)
  conv_lhs => rw [readLine, if_neg hempty, dif_neg hclean, dif_neg hroom]

/-- When the fill gets no byte, there is no line. -/
theorem readLine_of_empty (e : LineEnd β) {src : Source β ε} (h : (new src).fill.buf = []) :
    (new src).readLine e [] = (none, ⟨[], (new src).fill.src, none⟩) := by
  have herr : (new src).fill.err.isSome := by
    by_contra hnone
    exact (fills_new src).got (by simpa using hnone) h
  rw [readLine_new, readLine, h, if_neg List.not_mem_nil, dif_pos herr, if_pos rfl]

/-- A line that the fill gets is the first line. -/
theorem readLine_of_mem (e : LineEnd β) {src : Source β ε} (h : e.nl ∈ (new src).fill.buf) :
    (new src).readLine e [] = (some ((new src).fill.buf.takeWhile (· ≠ e.nl)),
      { (new src).fill with buf := e.behind (new src).fill.buf }) := by
  rw [readLine_new, readLine, if_pos h, List.nil_append]

end Reader

/-! ## A parser of lines -/

/-- What a parser makes of a line. -/
inductive Verdict (σ : Type) where
  | more (s : σ)
  | done
  | failed
  deriving DecidableEq

variable {σ : Type}

namespace Reader

/-- Read lines until the parser is done or fails, or no line can be read. -/
def readLines (e : LineEnd β) (next : σ → List β → Verdict σ) (s : σ) (b : Reader β ε) :
    Bool × Reader β ε :=
  match _hline : b.readLine e [] with
  | (none, b') => (false, b')
  | (some line, b') =>
    match next s line with
    | .more s' => readLines e next s' b'
    | .done => (true, b')
    | .failed => (false, b')
termination_by b.left.length
decreasing_by
  obtain ⟨taken, htakes, -, hsome⟩ := takes_readLine e b []
  rw [_hline] at htakes hsome
  have hlen := congrArg List.length htakes
  rw [List.length_append] at hlen
  have hpos := List.length_pos_iff.mpr (hsome rfl)
  dsimp only at hlen
  omega

theorem readLines_of_none {e : LineEnd β} {b b' : Reader β ε} (h : b.readLine e [] = (none, b'))
    (next : σ → List β → Verdict σ) (s : σ) : b.readLines e next s = (false, b') := by
  rw [readLines]
  split
  · rename_i hline
    rw [h] at hline
    rw [(Prod.mk.inj hline).2]
  · rename_i hline
    rw [h] at hline
    cases hline

theorem readLines_of_failed {e : LineEnd β} {b b' : Reader β ε} {line : List β}
    (h : b.readLine e [] = (some line, b')) {next : σ → List β → Verdict σ} {s : σ}
    (hnext : next s line = .failed) : b.readLines e next s = (false, b') := by
  rw [readLines]
  split
  · rename_i hline
    rw [h] at hline
    cases hline
  · rename_i hline
    rw [h] at hline
    cases hline
    rw [hnext]

/-- The parser takes a front of what is left, and its first line is a part of that. -/
theorem takes_readLines (e : LineEnd β) (next : σ → List β → Verdict σ) (s : σ)
    (b : Reader β ε) :
    ∃ first more, b.Takes (first ++ more) (b.readLines e next s).2 ∧
      b.Takes first (b.readLine e []).2 := by
  have hlast : ∀ {b b' : Reader β ε} {line}, b.readLine e [] = (line, b') →
      ∃ first more, b.Takes (first ++ more) b' ∧ b.Takes first (b.readLine e []).2 := by
    intro b b' line hline
    obtain ⟨first, hfirst, -, -⟩ := takes_readLine e b []
    refine ⟨first, [], ?_, hfirst⟩
    rw [List.append_nil]
    rwa [hline] at hfirst
  fun_induction readLines e next s b with
  | case1 s b b' hline => exact hlast hline
  | case2 s b line b' hline s' hnext ih =>
    obtain ⟨first, hfirst, -, -⟩ := takes_readLine e b []
    obtain ⟨first', more, hmore, -⟩ := ih
    refine ⟨first, first' ++ more, ?_, hfirst⟩
    rw [hline] at hfirst
    rw [Takes, List.append_assoc, ← hmore]
    exact hfirst
  | case3 s b line b' hline hnext => exact hlast hline
  | case4 s b line b' hline hnext => exact hlast hline

/-- A parser takes nothing from a new reader exactly when the first fill of the buffer gets no
byte. -/
theorem readLines_takes_nothing_iff (e : LineEnd β) (next : σ → List β → Verdict σ) (s : σ)
    (src : Source β ε) :
    ((new src).readLines e next s).2.left = src.stream ↔ (new src).fill.buf = [] := by
  constructor
  · intro hall
    by_contra hne
    obtain ⟨first, more, hlines, hfirst⟩ := takes_readLines e next s (new src)
    obtain ⟨taken, htaken, hsome, -⟩ := takes_readLine e (new src).fill []
    have hsame : first = taken := by
      rw [readLine_new] at hfirst
      rw [Takes, (fills_new src).left_eq, hfirst] at htaken
      exact List.append_cancel_right htaken
    have hnil : first ++ more = [] := by
      rw [Takes, hall] at hlines
      exact List.self_eq_append_left.mp hlines
    exact hsome hne (hsame ▸ (List.append_eq_nil_iff.mp hnil).1)
  · intro hempty
    rw [readLines_of_none (readLine_of_empty e hempty), ← hempty]
    exact (fills_new src).left_eq

end Reader

end bufio
