-- Peeking into a connection (PeekingConn, sniffSNI). A peek keeps the bytes it takes and puts
-- them before the connection again. So the reads after any peeks give the stream from its first
-- byte on, in whatever chunks it comes and however it ends.
import Vproxy.Readers
import Vproxy.Strings
import Vproxy.Words

open go readers words

namespace vproxy

variable {ε : Type}

/-! ## The connection -/

/-- What `PeekingConn.Read` reads: the connection, or a `MultiReader`. -/
inductive PeekReader where
  | conn
  | multi (parts : List (Piece UInt8))

structure PeekingConn (ε : Type) where
  conn : Source UInt8 ε
  peeked : List UInt8
  reader : PeekReader

def newPeekingConn (conn : Source UInt8 ε) : PeekingConn ε := ⟨conn, [], .conn⟩

def PeekingConn.read (c : PeekingConn ε) (m : Nat) : Got UInt8 ε × PeekingConn ε :=
  match c.reader with
  | .conn =>
    let (got, conn) := c.conn.read m
    (got, { c with conn })
  | .multi parts =>
    let (got, parts, conn) := multiRead parts c.conn m
    (got, { c with conn, reader := .multi parts })

/-- What a peek can report; `outOfRange` is the panic of a slice. -/
inductive PeekErr (ε : Type) where
  | io (e : Err ε)
  | outOfRange
  deriving DecidableEq, Repr

structure Peeked (ε : Type) where
  bytes : List UInt8
  err : Option (PeekErr ε)

/-- The connection with more bytes before it. -/
def PeekingConn.keep (c : PeekingConn ε) (read : List UInt8) (conn : Source UInt8 ε) :
    PeekingConn ε :=
  if read.isEmpty then { c with conn }
  else ⟨conn, c.peeked ++ read, .multi [.buffer (c.peeked ++ read), .conn]⟩

def PeekingConn.peek (c : PeekingConn ε) (n : Int) : Peeked ε × PeekingConn ε :=
  if n ≤ c.peeked.length then
    if n < 0 then (⟨[], some .outOfRange⟩, c) else (⟨c.peeked.take n.toNat, none⟩, c)
  else
    let (got, conn) := c.conn.readFull (n.toNat - c.peeked.length)
    let c := c.keep got.bytes conn
    match got.err with
    | some (.other e) => (⟨[], some (.io (.other e))⟩, c)
    | _ =>
      if c.peeked.length < n then (⟨c.peeked, some (.io .unexpectedEOF)⟩, c)
      else (⟨c.peeked.take n.toNat, none⟩, c)

/-! ## The server name -/

/-- The loop of `extractSNIFromPayload` over the extensions. -/
def extractSNIFromPayload.loop (payload : List UInt8) (stop offset : Nat) : Except Str Str :=
  if offset + 4 ≤ stop then
    let extType := twoBytes payload offset
    let extLen := twoBytes payload (offset + 2)
    if extType = 0 then
      if 5 ≤ extLen ∧ offset + 4 + 5 ≤ stop then
        let nameLen := twoBytes payload (offset + 4 + 3)
        if offset + 4 + 5 + nameLen ≤ stop then
          .ok (text ((payload.drop (offset + 4 + 5)).take nameLen))
        else .error "SNI not found"
      else .error "SNI not found"
    else loop payload stop (offset + 4 + extLen)
  else .error "SNI not found"
termination_by stop - offset

/-- `extractSNIFromPayload`. -/
def extractSNIFromPayload (payload : List UInt8) : Except Str Str :=
  if payload.length < 42 then .error "payload too short"
  else if payload.getD 0 0 ≠ 1 then .error "not a ClientHello message"
  else
    let offset := 39 + (payload.getD 38 0).toNat
    if payload.length < offset + 2 then .error "invalid ClientHello"
    else
      let offset := offset + 2 + twoBytes payload offset
      if payload.length < offset + 1 then .error "invalid ClientHello"
      else
        let offset := offset + 1 + (payload.getD offset 0).toNat
        if payload.length < offset + 2 then .error "no extensions"
        else
          let offset' := offset + 2
          let stop := min (offset' + twoBytes payload offset) payload.length
          extractSNIFromPayload.loop payload stop offset'

/-- What `sniffSNI` finds, and the connection after its peeks; an error of a peek is `none`. -/
def sniffSNI (c : PeekingConn ε) : Option (Except Str Str) × PeekingConn ε :=
  let (header, c) := c.peek 5
  if header.err.isNone then
    if header.bytes.getD 0 0 ≠ 22 then (some (.error "not a TLS handshake"), c)
    else
      let length := twoBytes header.bytes 3
      if 8192 < length then (some (.error "TLS record too large"), c)
      else
        let (payload, c) := c.peek (5 + length)
        if payload.err.isNone then (some (extractSNIFromPayload (payload.bytes.drop 5)), c)
        else (none, c)
  else (none, c)

/-! ## Peeks -/

/-- Peeks one after another, each with its length. -/
def PeekingConn.peeks (c : PeekingConn ε) : List Int → List (Int × Peeked ε) × PeekingConn ε
  | [] => ([], c)
  | n :: ns =>
    let (p, c) := c.peek n
    let (ps, c) := c.peeks ns
    ((n, p) :: ps, c)

def PeekingConn.reads (c : PeekingConn ε) : List Nat → List (Got UInt8 ε) × PeekingConn ε
  | [] => ([], c)
  | m :: ms =>
    let (got, c) := c.read m
    let (gots, c) := c.reads ms
    (got :: gots, c)

/-- The connection has given nothing to a reader yet: what was peeked stands before what is
still to come. -/
structure PeekingConn.Fresh (c : PeekingConn ε) (s : Source UInt8 ε) : Prop where
  stream_eq : c.peeked ++ c.conn.stream = s.stream
  ending_eq : c.conn.ending = s.ending
  reader_eq : c.reader = .conn ∧ c.peeked = [] ∨ c.reader = .multi [.buffer c.peeked, .conn]

/-- The peek is the front of the stream, if it succeeds. -/
def Peeked.IsFront (p : Peeked ε) (n : Int) (stream : List UInt8) : Prop :=
  p.err = none → 0 ≤ n ∧ n ≤ stream.length ∧ p.bytes = stream.take n.toNat

variable {c : PeekingConn ε} {s : Source UInt8 ε}

theorem PeekingConn.fresh_keep (h : c.Fresh s) {read : List UInt8} {conn : Source UInt8 ε}
    (hstream : c.conn.stream = read ++ conn.stream) (hending : conn.ending = c.conn.ending) :
    (c.keep read conn).Fresh s ∧ (c.keep read conn).peeked = c.peeked ++ read := by
  unfold keep
  split
  · rename_i hnil
    obtain rfl := List.isEmpty_iff.mp hnil
    refine ⟨⟨?_, hending.trans h.ending_eq, h.reader_eq⟩, (List.append_nil _).symm⟩
    rw [← h.stream_eq, hstream]
    rfl
  · refine ⟨⟨?_, hending.trans h.ending_eq, Or.inr rfl⟩, rfl⟩
    rw [← h.stream_eq, hstream, List.append_assoc]

/-- What is peeked is a front of the stream. -/
theorem PeekingConn.Fresh.take_peeked (h : c.Fresh s) {n : Nat} (hn : n ≤ c.peeked.length) :
    n ≤ s.stream.length ∧ c.peeked.take n = s.stream.take n := by
  rw [← h.stream_eq, List.length_append, List.take_append_of_le_length hn]
  exact ⟨by omega, rfl⟩

theorem PeekingConn.Fresh.isFront (h : c.Fresh s) {n : Int} (hpos : 0 ≤ n)
    (hn : n ≤ c.peeked.length) :
    (⟨c.peeked.take n.toNat, none⟩ : Peeked ε).IsFront n s.stream := by
  obtain ⟨hlen, htake⟩ := h.take_peeked (n := n.toNat) (by omega)
  intro _
  exact ⟨hpos, by omega, htake⟩

/-- A peek gives the front of the stream or fails, and takes nothing from the reads. -/
theorem PeekingConn.fresh_peek (h : c.Fresh s) (n : Int) :
    (c.peek n).1.IsFront n s.stream ∧ (c.peek n).2.Fresh s := by
  unfold peek
  split
  · rename_i hle
    split
    · exact ⟨nofun, h⟩
    · rename_i hneg
      exact ⟨h.isFront (Int.not_lt.mp hneg) hle, h⟩
  · rename_i hmore
    obtain ⟨hstream, hending, -⟩ := c.conn.readFull_spec (n.toNat - c.peeked.length)
    obtain ⟨hfresh, -⟩ := fresh_keep h hstream hending
    dsimp only
    split
    · exact ⟨nofun, hfresh⟩
    · split
      · exact ⟨nofun, hfresh⟩
      · rename_i hlong
        exact ⟨hfresh.isFront (by omega) (Int.not_lt.mp hlong), hfresh⟩

theorem PeekingConn.fresh_peeks (h : c.Fresh s) (ns : List Int) :
    (∀ p ∈ (c.peeks ns).1, p.2.IsFront p.1 s.stream) ∧ (c.peeks ns).2.Fresh s := by
  induction ns generalizing c with
  | nil => exact ⟨nofun, h⟩
  | cons n ns ih =>
    obtain ⟨hfront, hfresh⟩ := fresh_peek h n
    obtain ⟨hrest, hlast⟩ := ih hfresh
    refine ⟨?_, hlast⟩
    intro p hp
    obtain rfl | hp := List.mem_cons.mp hp
    · exact hfront
    · exact hrest p hp

/-! ## Reads -/

/-- What the reads have still to give. -/
def PeekingConn.left (c : PeekingConn ε) : List UInt8 :=
  match c.reader with
  | .conn => c.conn.stream
  | .multi parts => readers.left parts c.conn

/-- A bound on the reads up to the end. -/
def PeekingConn.size (c : PeekingConn ε) : Nat :=
  match c.reader with
  | .conn => c.conn.size
  | .multi parts => multiSize parts c.conn

def PeekingConn.Ready (c : PeekingConn ε) : Prop :=
  match c.reader with
  | .conn => True
  | .multi parts => readers.Ready c.conn parts

/-- The bytes of a read come off what is left, and an error is the end of all of it. -/
structure PeekingConn.Reads (c : PeekingConn ε) (m : Nat) (got : Got UInt8 ε)
    (c' : PeekingConn ε) : Prop where
  ready : c'.Ready
  left_eq : c.left = got.bytes ++ c'.left
  ending_eq : c'.conn.ending = c.conn.ending
  at_end : ∀ e, got.err = some e → e = c.conn.ending ∧ c'.left = []
  nearer : 0 < m → got.err = none → c'.size < c.size

theorem PeekingConn.reads_read (h : c.Ready) (m : Nat) : c.Reads m (c.read m).1 (c.read m).2 := by
  obtain ⟨conn, peeked, reader⟩ := c
  cases reader with
  | conn =>
    have hread := conn.reads_read m
    exact ⟨trivial, hread.stream_eq, hread.ending_eq, hread.at_end, hread.nearer⟩
  | multi parts =>
    have hread := multiReads_multiRead h m
    exact ⟨hread.ready, hread.left_eq, hread.ending_eq, hread.at_end, hread.nearer⟩

/-- After the peeks everything is left for the reads. -/
theorem PeekingConn.Fresh.left_eq (h : c.Fresh s) : c.Ready ∧ c.left = s.stream := by
  unfold Ready left
  rw [← h.stream_eq]
  obtain ⟨hconn, hnone⟩ | hmulti := h.reader_eq
  · rw [hconn, hnone]
    exact ⟨trivial, rfl⟩
  · rw [hmulti]
    exact ⟨.buffer _ .conn, congrArg _ (List.append_nil _)⟩

/-- Along the reads, what was given and what is left make up the same stream. -/
theorem PeekingConn.reads_front (h : c.Ready) (ms : List Nat) :
    ∃ rest, c.left = (c.reads ms).1.flatMap Got.bytes ++ rest := by
  induction ms generalizing c with
  | nil => exact ⟨c.left, rfl⟩
  | cons m ms ih =>
    have hread := reads_read h m
    obtain ⟨rest, hrest⟩ := ih hread.ready
    refine ⟨rest, ?_⟩
    rw [hread.left_eq, hrest, ← List.append_assoc]
    rfl

/-- The read that reports the end gives the last of the stream. -/
theorem PeekingConn.reads_end (h : c.Ready) {ms : List Nat} {front back : List (Got UInt8 ε)}
    {got : Got UInt8 ε} (hreads : (c.reads ms).1 = front ++ got :: back) {e : Err ε}
    (he : got.err = some e) :
    e = c.conn.ending ∧ (front ++ [got]).flatMap Got.bytes = c.left := by
  induction ms generalizing c front with
  | nil => simp [PeekingConn.reads] at hreads
  | cons m ms ih =>
    have hread := reads_read h m
    change (c.read m).1 :: ((c.read m).2.reads ms).1 = front ++ got :: back at hreads
    cases front with
    | nil =>
      obtain ⟨rfl, -⟩ := List.cons.inj hreads
      obtain ⟨hending, hleft⟩ := hread.at_end e he
      rw [hread.left_eq, hleft]
      exact ⟨hending, by simp⟩
    | cons first front =>
      obtain ⟨rfl, hrest⟩ := List.cons.inj hreads
      obtain ⟨hending, hall⟩ := ih hread.ready hrest
      refine ⟨hending.trans hread.ending_eq, ?_⟩
      rw [hread.left_eq, ← hall, List.cons_append, List.flatMap_cons]

/-- Enough reads with room come to the end. -/
theorem PeekingConn.reads_come_to_an_end (h : c.Ready) {ms : List Nat} (hpos : ∀ m ∈ ms, 0 < m)
    (hlen : c.size < ms.length) : ∃ got ∈ (c.reads ms).1, got.err ≠ none := by
  induction ms generalizing c with
  | nil => cases hlen
  | cons m ms ih =>
    have hread := reads_read h m
    have hm := hpos m List.mem_cons_self
    by_cases hnone : (c.read m).1.err = none
    · have hsize := hread.nearer hm hnone
      have hrest : (c.read m).2.size < ms.length := by
        rw [List.length_cons] at hlen
        omega
      have hmore : ∀ k ∈ ms, 0 < k := fun k hk => hpos k (List.mem_cons_of_mem m hk)
      obtain ⟨got, hgot, herr⟩ := ih hread.ready hmore hrest
      exact ⟨got, List.mem_cons_of_mem _ hgot, herr⟩
    · exact ⟨_, List.mem_cons_self, hnone⟩

theorem PeekingConn.reads_append (c : PeekingConn ε) (ms more : List Nat) :
    (c.reads (ms ++ more)).1 = (c.reads ms).1 ++ ((c.reads ms).2.reads more).1 := by
  induction ms generalizing c with
  | nil => rfl
  | cons m ms ih => exact congrArg _ (ih (c.read m).2)

theorem PeekingConn.ready_reads (h : c.Ready) (ms : List Nat) : (c.reads ms).2.Ready := by
  induction ms generalizing c with
  | nil => exact h
  | cons m ms ih => exact ih (reads_read h m).ready

/-! ## Peeks and then reads -/

/-- What the peeks give, and what the reads after them give. -/
def peekThenRead (s : Source UInt8 ε) (ns : List Int) (ms : List Nat) :
    List (Int × Peeked ε) × List (Got UInt8 ε) :=
  let (ps, c) := (newPeekingConn s).peeks ns
  (ps, (c.reads ms).1)

/-- Any peeks and then any reads. A peek that succeeds gives the front of the stream. The reads
give the stream from its first byte on, they report its end with the last byte or after it, and
reading on comes to that end. -/
theorem peeking_is_transparent (s : Source UInt8 ε) (ns : List Int) (ms : List Nat) :
    (∀ p ∈ (peekThenRead s ns ms).1, p.2.IsFront p.1 s.stream) ∧
    (peekThenRead s ns ms).2.flatMap Got.bytes <+: s.stream ∧
    (∀ front got back e, (peekThenRead s ns ms).2 = front ++ got :: back → got.err = some e →
      e = s.ending ∧ (front ++ [got]).flatMap Got.bytes = s.stream) ∧
    ∃ bound, ∀ more, (∀ m ∈ more, 0 < m) → bound < more.length →
      ∃ got ∈ (peekThenRead s ns (ms ++ more)).2, got.err ≠ none := by
  have hnew : (newPeekingConn s).Fresh s := ⟨rfl, rfl, Or.inl ⟨rfl, rfl⟩⟩
  obtain ⟨hfronts, hfresh⟩ := PeekingConn.fresh_peeks hnew ns
  obtain ⟨hready, hleft⟩ := hfresh.left_eq
  refine ⟨hfronts, ?_, ?_, ?_⟩
  · obtain ⟨rest, hrest⟩ := PeekingConn.reads_front hready ms
    rw [hleft] at hrest
    exact ⟨rest, hrest.symm⟩
  · intro front got back e hreads he
    obtain ⟨hending, hall⟩ := PeekingConn.reads_end hready hreads he
    exact ⟨hending.trans hfresh.ending_eq, hall.trans hleft⟩
  · refine ⟨(((newPeekingConn s).peeks ns).2.reads ms).2.size, ?_⟩
    intro more hpos hlen
    obtain ⟨got, hgot, herr⟩ := PeekingConn.reads_come_to_an_end
      (PeekingConn.ready_reads hready ms) hpos hlen
    refine ⟨got, ?_, herr⟩
    change got ∈ (((newPeekingConn s).peeks ns).2.reads (ms ++ more)).1
    rw [PeekingConn.reads_append]
    exact List.mem_append_right _ hgot

/-- What `sniffSNI` does to its connection is one peek or two. -/
theorem sniffSNI_peeks (c : PeekingConn ε) : ∃ ns, (sniffSNI c).2 = (c.peeks ns).2 := by
  unfold sniffSNI
  dsimp only
  split
  · split
    · exact ⟨[5], rfl⟩
    · split
      · exact ⟨[5], rfl⟩
      · refine ⟨[5, 5 + twoBytes (c.peek 5).1.bytes 3], ?_⟩
        split <;> rfl
  · exact ⟨[5], rfl⟩

end vproxy
