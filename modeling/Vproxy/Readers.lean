-- Readers as package io has them. A source gives its bytes in chunks and then ends, so a read
-- may give less than there is room for. ReadFull reads on, and MultiReader goes from one reader
-- to the next. The bytes given and the bytes still to come always make up the stream.
import Mathlib.Data.List.Basic

namespace readers

variable {β ε : Type}

/-! ## Sources -/

inductive Err (ε : Type) where
  | eof
  | unexpectedEOF
  | other (e : ε)
  deriving DecidableEq, Repr

/-- What a read gives: bytes, and maybe an error along with them. -/
structure Got (β ε : Type) where
  bytes : List β
  err : Option (Err ε)

/-- What is still to come of a connection. The end is reported by itself, or `early` along with
the last chunk. -/
structure Source (β ε : Type) where
  chunks : List (List β)
  early : Bool
  ending : Err ε
  deriving DecidableEq

namespace Source

def stream (s : Source β ε) : List β := s.chunks.flatten

/-- The chunks that `m` bytes of the first one leave. -/
def behind (m : Nat) (c : List β) (cs : List (List β)) : List (List β) :=
  if c.length ≤ m then cs else c.drop m :: cs

/-- A read into a buffer of length `m`. -/
def read (s : Source β ε) (m : Nat) : Got β ε × Source β ε :=
  match s.chunks with
  | [] => (⟨[], some s.ending⟩, s)
  | c :: cs =>
    (⟨c.take m, if s.early && (behind m c cs).isEmpty then some s.ending else none⟩,
      { s with chunks := behind m c cs })

/-- A bound on the reads up to the end. -/
def size (s : Source β ε) : Nat := s.chunks.length + s.stream.length

theorem take_append_behind (m : Nat) (c : List β) (cs : List (List β)) :
    c.take m ++ (behind m c cs).flatten = c ++ cs.flatten := by
  unfold behind
  split
  · rename_i hle
    rw [List.take_of_length_le hle]
  · rw [List.flatten_cons, ← List.append_assoc, List.take_append_drop]

/-- The bytes of a read come off the stream, and an error is the end. -/
structure Reads (s : Source β ε) (m : Nat) (got : Got β ε) (s' : Source β ε) : Prop where
  stream_eq : s.stream = got.bytes ++ s'.stream
  room : got.bytes.length ≤ m
  ending_eq : s'.ending = s.ending
  at_end : ∀ e, got.err = some e → e = s.ending ∧ s'.stream = []
  nearer : 0 < m → got.err = none → s'.size < s.size

theorem reads_read (s : Source β ε) (m : Nat) : s.Reads m (s.read m).1 (s.read m).2 := by
  unfold read
  split
  · rename_i hnone
    have hempty : s.stream = [] := by rw [stream, hnone, List.flatten_nil]
    refine ⟨rfl, Nat.zero_le m, rfl, ?_, fun _ h => nomatch h⟩
    intro e he
    exact ⟨(Option.some.inj he).symm, hempty⟩
  · rename_i c cs hsome
    have hstream : s.stream = c.take m ++ (behind m c cs).flatten := by
      rw [stream, hsome, take_append_behind, List.flatten_cons]
    refine ⟨hstream, List.length_take_le m c, rfl, ?_, ?_⟩
    · intro e he
      dsimp only at he
      split at he
      · rename_i hlast
        rw [Bool.and_eq_true, List.isEmpty_iff] at hlast
        refine ⟨(Option.some.inj he).symm, ?_⟩
        rw [stream, hlast.2, List.flatten_nil]
      · cases he
    · intro hm _
      -- either the first chunk is gone, or it is shorter by `m`
      change (behind m c cs).length + (behind m c cs).flatten.length < s.size
      rw [size, hstream, hsome, List.length_append, List.length_cons]
      by_cases hle : c.length ≤ m
      · have hbehind : behind m c cs = cs := if_pos hle
        rw [hbehind]
        omega
      · have hbehind : behind m c cs = c.drop m :: cs := if_neg hle
        rw [hbehind, List.length_take, List.length_cons]
        omega

/-! ## ReadFull -/

/-- The loop of `io.ReadAtLeast`: read on until the buffer of length `n` is full. -/
def fill (s : Source β ε) (n : Nat) : Got β ε × Source β ε :=
  if _hn : n = 0 then (⟨[], none⟩, s)
  else if _hgot : (s.read n).1.err.isSome then s.read n
  else
    let more := fill (s.read n).2 (n - (s.read n).1.bytes.length)
    (⟨(s.read n).1.bytes ++ more.1.bytes, more.1.err⟩, more.2)
termination_by s.size
decreasing_by
  exact (s.reads_read n).nearer (Nat.pos_of_ne_zero _hn) (by simpa using _hgot)

/-- `io.ReadFull` with a buffer of length `n`. -/
def readFull (s : Source β ε) (n : Nat) : Got β ε × Source β ε :=
  let (got, s) := s.fill n
  if n ≤ got.bytes.length then (⟨got.bytes, none⟩, s)
  else
    match got.err with
    | some .eof => (⟨got.bytes, some (if got.bytes.isEmpty then .eof else .unexpectedEOF)⟩, s)
    | err => (⟨got.bytes, err⟩, s)

/-- The loop takes bytes off the stream, and it stops short only at the end. -/
structure Fills (s : Source β ε) (n : Nat) (got : Got β ε) (s' : Source β ε) : Prop where
  stream_eq : s.stream = got.bytes ++ s'.stream
  room : got.bytes.length ≤ n
  ending_eq : s'.ending = s.ending
  short : got.bytes.length < n → got.err = some s.ending

theorem fills_fill (s : Source β ε) (n : Nat) : s.Fills n (s.fill n).1 (s.fill n).2 := by
  induction s, n using fill.induct with
  | case1 s =>
    rw [fill, dif_pos rfl]
    exact ⟨rfl, Nat.le_refl 0, rfl, fun h => absurd h (Nat.lt_irrefl 0)⟩
  | case2 s n hn hgot =>
    obtain ⟨e, he⟩ := Option.isSome_iff_exists.mp hgot
    have hread := s.reads_read n
    obtain ⟨rfl, -⟩ := hread.at_end e he
    rw [fill, dif_neg hn, dif_pos hgot]
    exact ⟨hread.stream_eq, hread.room, hread.ending_eq, fun _ => he⟩
  | case3 s n hn hgot ih =>
    have hread := s.reads_read n
    have hroom := hread.room
    have hmore := ih.room
    rw [fill, dif_neg hn, dif_neg hgot]
    refine ⟨?_, ?_, ih.ending_eq.trans hread.ending_eq, ?_⟩
    · rw [hread.stream_eq, ih.stream_eq, List.append_assoc]
    · rw [List.length_append]
      omega
    · intro hshort
      rw [List.length_append] at hshort
      rw [← hread.ending_eq]
      exact ih.short (by omega)

/-- What `ReadFull` gives is the next `n` bytes, or all that is left and an error. -/
theorem readFull_spec (s : Source β ε) (n : Nat) :
    s.stream = (s.readFull n).1.bytes ++ (s.readFull n).2.stream ∧
    (s.readFull n).2.ending = s.ending ∧
    ((s.readFull n).1.bytes.length = n ∧ (s.readFull n).1.err = none ∨
      (s.readFull n).1.bytes.length < n ∧ (s.readFull n).1.err ≠ none) := by
  have hfill := s.fills_fill n
  have hbytes : (s.readFull n).1.bytes = (s.fill n).1.bytes ∧ (s.readFull n).2 = (s.fill n).2 := by
    unfold readFull
    dsimp only
    split
    · exact ⟨rfl, rfl⟩
    · split <;> exact ⟨rfl, rfl⟩
  rw [hbytes.1, hbytes.2]
  refine ⟨hfill.stream_eq, hfill.ending_eq, ?_⟩
  unfold readFull
  dsimp only
  split
  · rename_i hfull
    exact Or.inl ⟨Nat.le_antisymm hfill.room hfull, rfl⟩
  · rename_i hshort
    have hlt := Nat.not_le.mp hshort
    refine Or.inr ⟨hlt, ?_⟩
    have herr := hfill.short hlt
    split
    · exact Option.some_ne_none _
    · dsimp only
      rw [herr]
      exact Option.some_ne_none _

end Source

/-! ## MultiReader -/

/-- A reader of a `MultiReader`: bytes in memory, or the connection. -/
inductive Piece (β : Type) where
  | buffer (rest : List β)
  | conn

/-- A read of a part; `bytes.Reader` reports its end in a read of its own. -/
def Piece.read : Piece β → Source β ε → Nat → Got β ε × Piece β × Source β ε
  | .buffer rest, s, m =>
    if rest.isEmpty then (⟨[], some .eof⟩, .buffer [], s)
    else (⟨rest.take m, none⟩, .buffer (rest.drop m), s)
  | .conn, s, m => ((s.read m).1, .conn, (s.read m).2)

/-- `multiReader.Read`: a part at its end is dropped, and the next one is read. -/
def multiRead : List (Piece β) → Source β ε → Nat → Got β ε × List (Piece β) × Source β ε
  | [], s, _ => (⟨[], some .eof⟩, [], s)
  | part :: rest, s, m =>
    let (got, part, s) := part.read s m
    match got.err with
    | some .eof =>
      if got.bytes.isEmpty then multiRead rest s m
      else (⟨got.bytes, if rest.isEmpty then some .eof else none⟩, rest, s)
    | _ => (got, part :: rest, s)

/-- What the parts have still to give. -/
def left : List (Piece β) → Source β ε → List β
  | [], _ => []
  | .buffer rest :: parts, s => rest ++ left parts s
  | .conn :: parts, s => s.stream ++ left parts s

/-- Buffers, and then the connection unless it has reported its end of file. -/
inductive Ready (s : Source β ε) : List (Piece β) → Prop where
  | conn : Ready s [.conn]
  | closed (h : s.ending = .eof) : Ready s []
  | buffer (rest : List β) {parts : List (Piece β)} (h : Ready s parts) :
      Ready s (.buffer rest :: parts)

/-- A bound on the reads up to the end. -/
def multiSize (parts : List (Piece β)) (s : Source β ε) : Nat :=
  parts.length + (left parts s).length + s.chunks.length

/-- The bytes of a read come off what is left. An error is the end of the connection, and then
nothing is left. -/
structure MultiReads (parts : List (Piece β)) (s : Source β ε) (m : Nat) (got : Got β ε)
    (parts' : List (Piece β)) (s' : Source β ε) : Prop where
  ready : Ready s' parts'
  left_eq : left parts s = got.bytes ++ left parts' s'
  room : got.bytes.length ≤ m
  ending_eq : s'.ending = s.ending
  at_end : ∀ e, got.err = some e → e = s.ending ∧ left parts' s' = []
  nearer : 0 < m → got.err = none → multiSize parts' s' < multiSize parts s

theorem left_conn (s : Source β ε) : left [Piece.conn] s = s.stream := List.append_nil _

/-- The connection is dropped with its last bytes when it reports its end of file. -/
theorem multiRead_conn_eof {s : Source β ε} {m : Nat} (h : (s.read m).1.err = some .eof) :
    multiRead [Piece.conn] s m = (⟨(s.read m).1.bytes, some .eof⟩, [], (s.read m).2) := by
  unfold multiRead Piece.read
  simp only [h]
  split
  · rename_i hnil
    rw [List.isEmpty_iff.mp hnil, multiRead]
  · rfl

theorem multiRead_conn_more {s : Source β ε} {m : Nat} (h : (s.read m).1.err ≠ some .eof) :
    multiRead [Piece.conn] s m = ((s.read m).1, [.conn], (s.read m).2) := by
  unfold multiRead Piece.read
  dsimp only
  split
  · rename_i herr
    exact absurd herr h
  · rfl

theorem multiReads_conn (s : Source β ε) (m : Nat) :
    MultiReads [Piece.conn] s m (multiRead [Piece.conn] s m).1 (multiRead [Piece.conn] s m).2.1
      (multiRead [Piece.conn] s m).2.2 := by
  have hread := s.reads_read m
  by_cases heof : (s.read m).1.err = some .eof
  · obtain ⟨hend, hempty⟩ := hread.at_end _ heof
    have hclosed := Ready.closed (hread.ending_eq.trans hend.symm)
    rw [multiRead_conn_eof heof]
    refine ⟨hclosed, ?_, hread.room, hread.ending_eq, ?_, fun _ h => nomatch h⟩
    · rw [left_conn, hread.stream_eq, hempty]
      rfl
    · intro e he
      exact ⟨(Option.some.inj he).symm.trans hend, rfl⟩
  · rw [multiRead_conn_more heof]
    refine ⟨.conn, ?_, hread.room, hread.ending_eq, ?_, ?_⟩
    · rw [left_conn, left_conn, hread.stream_eq]
    · rw [left_conn]
      exact hread.at_end
    · intro hm hnone
      have hsize := hread.nearer hm hnone
      simp only [Source.size] at hsize
      rw [multiSize, multiSize, left_conn, left_conn]
      simp only [List.length_cons]
      omega

/-- A buffer with bytes in it gives some of them. -/
theorem multiReads_buffer {parts : List (Piece β)} {s : Source β ε} (h : Ready s parts) (b : β)
    (bs : List β) (m : Nat) :
    MultiReads (.buffer (b :: bs) :: parts) s m ⟨(b :: bs).take m, none⟩
      (.buffer ((b :: bs).drop m) :: parts) s := by
  refine ⟨.buffer _ h, ?_, List.length_take_le m _, rfl, ?_, ?_⟩
  · rw [left, left, ← List.append_assoc, List.take_append_drop]
  · intro e he
    cases he
  · intro hm _
    simp only [multiSize, left, List.length_append, List.length_cons, List.length_drop]
    omega

theorem multiReads_multiRead {parts : List (Piece β)} {s : Source β ε} (h : Ready s parts)
    (m : Nat) :
    MultiReads parts s m (multiRead parts s m).1 (multiRead parts s m).2.1
      (multiRead parts s m).2.2 := by
  induction h with
  | closed hend =>
    refine ⟨.closed hend, rfl, Nat.zero_le m, rfl, ?_, fun _ h => nomatch h⟩
    intro e he
    exact ⟨(Option.some.inj he).symm.trans hend.symm, rfl⟩
  | buffer rest h ih =>
    rename_i parts
    cases rest with
    | nil =>
      -- the empty buffer reports its end, and the read goes on behind it
      change MultiReads _ s m (multiRead parts s m).1 (multiRead parts s m).2.1
        (multiRead parts s m).2.2
      refine ⟨ih.ready, ih.left_eq, ih.room, ih.ending_eq, ih.at_end, ?_⟩
      intro hm hnone
      exact Nat.lt_trans (ih.nearer hm hnone) (by simp [multiSize, left])
    | cons b bs => exact multiReads_buffer h b bs m
  | conn => exact multiReads_conn s m

end readers
