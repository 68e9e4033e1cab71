-- Messages on one stream. A reader takes the head of a message and leaves the body, and a
-- loop reads head after head. After each head it may read the body, leave it or stop. The
-- loop reads only at the starts of messages exactly when it leaves no body that has text.
import Mathlib.Data.List.Basic

namespace framing

variable {Byte Req : Type}

/-- How heads and bodies are read. Either gives what is left of the stream. -/
structure Reader (Byte Req : Type) where
  readHead : List Byte → Option (Req × List Byte)
  readBody : Req → List Byte → List Byte
  eof : readHead [] = none

/-- A message that the reader understands, whatever follows it. -/
structure Message (rd : Reader Byte Req) where
  req : Req
  head : List Byte
  body : List Byte
  head_reads : ∀ s, rd.readHead (head ++ s) = some (req, s)
  body_reads : ∀ s, rd.readBody req (body ++ s) = s

/-- The messages one after another. -/
def wire {rd : Reader Byte Req} (ms : List (Message rd)) : List Byte :=
  ms.flatMap fun m => m.head ++ m.body

/-- What the loop does with a message before it reads the next head. -/
inductive Turn
  | drain
  | skip
  | stop
deriving DecidableEq, Repr

/-- The stream at each of the first `n` times that the loop reads a head. The loop is in turn
`k`. -/
def reads (rd : Reader Byte Req) (turn : Nat → Req → Turn) :
    Nat → Nat → List Byte → List (List Byte)
  | 0, _, _ => []
  | n + 1, k, s =>
    s :: match rd.readHead s with
      | none => []
      | some (r, rest) =>
        match turn k r with
        | .drain => reads rd turn n (k + 1) (rd.readBody r rest)
        | .skip => reads rd turn n (k + 1) rest
        | .stop => []

/-- Each head is read where a message starts. -/
def Framed (rd : Reader Byte Req) (turn : Nat → Req → Turn) (k : Nat)
    (ms : List (Message rd)) : Prop :=
  ∀ n i s, (reads rd turn n k (wire ms))[i]? = some s → s = wire (ms.drop i)

/-- No message that the loop comes to has a body that the loop leaves. -/
def Drained {rd : Reader Byte Req} (turn : Nat → Req → Turn) : Nat → List (Message rd) → Prop
  | _, [] => True
  | k, m :: ms =>
    match turn k m.req with
    | .drain => Drained turn (k + 1) ms
    | .skip => m.body = [] ∧ Drained turn (k + 1) ms
    | .stop => True

section

variable {rd : Reader Byte Req} {turn : Nat → Req → Turn} {k : Nat} {m : Message rd}
  {ms : List (Message rd)}

theorem wire_cons : wire (m :: ms) = m.head ++ (m.body ++ wire ms) := by
  simp [wire]

/-- One turn of the loop at the start of a message. -/
theorem reads_cons (n : Nat) :
    reads rd turn (n + 1) k (wire (m :: ms)) =
      wire (m :: ms) ::
        match turn k m.req with
        | .drain => reads rd turn n (k + 1) (wire ms)
        | .skip => reads rd turn n (k + 1) (m.body ++ wire ms)
        | .stop => [] := by
  conv_lhs => rw [reads, wire_cons, m.head_reads]
  rw [wire_cons]
  dsimp only
  rw [m.body_reads]

/-- When the loop goes on at the next message, the rest decides. -/
theorem framed_cons (hnext : ∀ n, reads rd turn (n + 1) k (wire (m :: ms)) =
    wire (m :: ms) :: reads rd turn n (k + 1) (wire ms)) :
    Framed rd turn k (m :: ms) ↔ Framed rd turn (k + 1) ms := by
  constructor
  · intro h n i s hs
    apply h (n + 1) (i + 1) s
    rw [hnext]
    exact hs
  · intro h n i s hs
    obtain _ | n := n
    · simp [reads] at hs
    rw [hnext] at hs
    obtain _ | i := i
    · simpa using hs.symm
    · exact h n i s hs

/-- The loop is framed exactly when it leaves no body that has text. -/
theorem framed_iff : Framed rd turn k ms ↔ Drained turn k ms := by
  induction ms generalizing k with
  | nil =>
    simp only [Drained, iff_true]
    intro n i s hs
    obtain _ | n := n
    · simp [reads] at hs
    · obtain _ | i := i <;> simp_all [reads, wire, rd.eof]
  | cons m ms ih =>
    unfold Drained
    cases ht : turn k m.req with
    | drain => rw [framed_cons (fun n => by rw [reads_cons, ht]), ih]
    | stop =>
      simp only [iff_true]
      intro n i s hs
      obtain _ | n := n
      · simp [reads] at hs
      rw [reads_cons, ht] at hs
      obtain _ | i := i
      · simpa using hs.symm
      · simp at hs
    | skip =>
      -- The second head is read at the body, which is no message start unless it is empty.
      have hbody : Framed rd turn k (m :: ms) → m.body = [] := by
        intro h
        have hs := h 2 1 (m.body ++ wire ms) (by rw [reads_cons, ht]; rfl)
        have hlen := congrArg List.length hs
        simpa using hlen
      constructor
      · intro h
        have hempty := hbody h
        refine ⟨hempty, ih.mp ?_⟩
        rwa [framed_cons (fun n => by rw [reads_cons, ht, hempty]; rfl)] at h
      · rintro ⟨hempty, h⟩
        rw [framed_cons (fun n => by rw [reads_cons, ht, hempty]; rfl)]
        exact ih.mpr h

end

end framing
