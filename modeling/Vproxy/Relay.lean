-- The two copy loops of RelayWithStats (tcp.go). A loop that is done closes the connection it
-- wrote to, for writing when the connection can do that, and fully when it is one of the
-- wrapped kinds. After a full close the other loop can no longer read what is there.
import Vproxy.Runs
import Vproxy.Strings

open go

namespace vproxy.relay

/-! ## Connections -/

inductive Side where
  | left
  | right
  deriving DecidableEq, Repr

def Side.other : Side → Side
  | left => right
  | right => left

@[simp] theorem Side.other_other (x : Side) : x.other.other = x := by cases x <;> rfl

@[simp] theorem Side.other_ne (x : Side) : x.other ≠ x := by cases x <;> nofun

theorem Side.eq_other_of_ne {x y : Side} (h : y ≠ x) : y = x.other := by
  cases x <;> cases y <;> first | rfl | exact absurd rfl h

/-- The kinds of connection that the handlers build. -/
inductive Kind where
  | tcp
  | peekingConn
  | peekedConn
  deriving DecidableEq, Repr

/-- The wrappers embed a `net.Conn`, which has no `CloseWrite`. -/
def Kind.hasCloseWrite : Kind → Bool
  | tcp => true
  | peekingConn | peekedConn => false

inductive Shut where
  | no
  | write
  | both
  deriving DecidableEq, Repr

/-- An error, and what `isIgnorableError` asks of it: whether it is `io.EOF`, and whether it is a
timeout or a deadline. -/
structure Err where
  text : Str
  isEOF : Bool
  timeout : Bool
  deriving DecidableEq

def isIgnorableError : Option Err → Bool
  | none => true
  | some e => e.isEOF || contains e.text "use of closed network connection" || e.timeout

/-- What `RelayWithStats` makes of the errors of its loops. -/
def relayError (errLeft errRight : Option Err) : Option Err :=
  if errLeft.isSome && !isIgnorableError errLeft then errLeft
  else if errRight.isSome && !isIgnorableError errRight then errRight
  else none

/-- The error of a `Read` or `Write` after the close. -/
def errClosed : Err := ⟨"use of closed network connection", false, false⟩

/-! ## The loops -/

/-- Where a copy loop is: in `Read`, in `Write` with what it read, before `closeWrite` or after
it, with the error of `io.Copy`. -/
inductive Phase (β : Type) where
  | reading
  | writing (chunk : List β)
  | closing (err : Option Err)
  | done (err : Option Err)

/-- The loop that reads from a side. `buffered` are the bytes that a wrapper has taken from the
socket before, `unread` those that the endpoint has sent or will send before its end of file. -/
structure Loop (β : Type) where
  buffered : List β
  unread : List β
  written : List β
  phase : Phase β

variable {β : Type}

/-- A `Read` of at most `k + 1` bytes. A wrapper gives its own bytes first, also when the socket
is closed. -/
def Loop.read (l : Loop β) (closed : Bool) (k : Nat) : Loop β :=
  match l.phase with
  | .reading =>
    if l.buffered ≠ [] then
      { l with buffered := l.buffered.drop (k + 1), phase := .writing (l.buffered.take (k + 1)) }
    else if closed then { l with phase := .closing (some errClosed) }
    else if l.unread ≠ [] then
      { l with unread := l.unread.drop (k + 1), phase := .writing (l.unread.take (k + 1)) }
    else { l with phase := .closing none }
  | _ => l

def Loop.write (l : Loop β) (closed : Bool) : Loop β :=
  match l.phase with
  | .writing chunk =>
    if closed then { l with phase := .closing (some errClosed) }
    else { l with written := l.written ++ chunk, phase := .reading }
  | _ => l

structure Relay (β : Type) where
  loop : Side → Loop β
  shut : Side → Shut

def closeWrite (kind : Kind) : Shut := if kind.hasCloseWrite then .write else .both

/-- One step of the loop that reads from a side. -/
inductive Act where
  | read (x : Side) (k : Nat)
  | write (x : Side)
  | close (x : Side)
  deriving DecidableEq, Repr

def setLoop (r : Relay β) (x : Side) (l : Loop β) : Relay β :=
  { r with loop := Function.update r.loop x l }

@[simp] theorem shut_setLoop (r : Relay β) (x : Side) (l : Loop β) :
    (setLoop r x l).shut = r.shut := rfl

@[simp] theorem loop_setLoop (r : Relay β) (x : Side) (l : Loop β) :
    (setLoop r x l).loop x = l := Function.update_self ..

theorem loop_setLoop_of_ne (r : Relay β) {x y : Side} (h : y ≠ x) (l : Loop β) :
    (setLoop r x l).loop y = r.loop y := Function.update_of_ne h ..

@[simp] theorem setLoop_setLoop (r : Relay β) (x : Side) (l l' : Loop β) :
    setLoop (setLoop r x l) x l' = setLoop r x l' := by
  simp [setLoop]

def step (kinds : Side → Kind) (r : Relay β) : Act → Relay β
  | .read x k => setLoop r x ((r.loop x).read (r.shut x == .both) k)
  | .write x => setLoop r x ((r.loop x).write (r.shut x.other != .no))
  | .close x =>
    match (r.loop x).phase with
    | .closing err =>
      { setLoop r x { r.loop x with phase := .done err } with
        shut := Function.update r.shut x.other (closeWrite (kinds x.other)) }
    | _ => r

def start (buffered stream : Side → List β) : Relay β where
  loop x := ⟨buffered x, stream x, [], .reading⟩
  shut _ := .no

def Loop.err (l : Loop β) : Option (Option Err) :=
  match l.phase with
  | .done err => some err
  | _ => none

/-- What `RelayWithStats` returns when both loops are done. -/
def result (r : Relay β) : Option (Nat × Nat × Option Err) :=
  match (r.loop .left).err, (r.loop .right).err with
  | some errLeft, some errRight =>
    some ((r.loop .left).written.length, (r.loop .right).written.length,
      relayError errLeft errRight)
  | _, _ => none

/-- In every run that returns, all bytes of both endpoints were written, in order. -/
def KeepsData (kinds : Side → Kind) (buffered stream : Side → List β) : Prop :=
  ∀ acts, (result (runs.run (step kinds) (start buffered stream) acts)).isSome →
    ∀ x, ((runs.run (step kinds) (start buffered stream) acts).loop x).written =
      buffered x ++ stream x

/-! ## One loop -/

/-- What the loop has read and not yet written. -/
def Loop.inFlight (l : Loop β) : List β :=
  match l.phase with
  | .writing chunk => chunk
  | _ => []

/-- Nothing is lost so far: what was written, what is in flight and what is still to be read are
the whole, and the loop has not ended before all was read. -/
structure Loop.Whole (l : Loop β) (total : List β) : Prop where
  flow : l.written ++ l.inFlight ++ l.buffered ++ l.unread = total
  ended : ∀ err, l.phase = .closing err ∨ l.phase = .done err → l.buffered = [] ∧ l.unread = []

theorem Loop.Whole.read {l : Loop β} {total : List β} (h : l.Whole total) {closed : Bool}
    (hclosed : closed → l.unread = []) (k : Nat) : (l.read closed k).Whole total := by
  obtain ⟨buffered, unread, written, phase⟩ := l
  obtain ⟨hflow, hended⟩ := h
  cases phase with
  | reading =>
    simp only [Loop.inFlight, List.append_nil] at hflow
    simp only [Loop.read]
    split
    · exact ⟨by simpa [Loop.inFlight] using hflow, nofun⟩
    · rename_i hbuf
      simp only [ne_eq, not_not] at hbuf
      subst hbuf
      split
      · rename_i hc
        obtain rfl : unread = [] := hclosed hc
        exact ⟨by simpa [Loop.inFlight] using hflow, fun _ _ => ⟨rfl, rfl⟩⟩
      · split
        · exact ⟨by simpa [Loop.inFlight] using hflow, nofun⟩
        · rename_i hunread
          simp only [ne_eq, not_not] at hunread
          subst hunread
          exact ⟨by simpa [Loop.inFlight] using hflow, fun _ _ => ⟨rfl, rfl⟩⟩
  | writing chunk => exact ⟨hflow, hended⟩
  | closing err => exact ⟨hflow, hended⟩
  | done err => exact ⟨hflow, hended⟩

theorem Loop.Whole.write {l : Loop β} {total : List β} (h : l.Whole total) {closed : Bool}
    (hopen : closed = false ∨ l.err.isSome) : (l.write closed).Whole total := by
  obtain ⟨buffered, unread, written, phase⟩ := l
  obtain ⟨hflow, hended⟩ := h
  cases phase with
  | writing chunk =>
    obtain rfl := hopen.resolve_right nofun
    exact ⟨by simpa [Loop.inFlight, Loop.write] using hflow, nofun⟩
  | reading => exact ⟨hflow, hended⟩
  | closing err => exact ⟨hflow, hended⟩
  | done err => exact ⟨hflow, hended⟩

theorem unread_read {l : Loop β} (h : l.unread = []) (closed : Bool) (k : Nat) :
    (l.read closed k).unread = [] := by
  unfold Loop.read
  split
  · split
    · exact h
    · split
      · exact h
      · simp [h]
  · exact h

theorem unread_write (l : Loop β) (closed : Bool) : (l.write closed).unread = l.unread := by
  unfold Loop.write
  split
  · split <;> rfl
  · rfl

/-- A loop that is done does nothing more. -/
theorem read_of_done {l : Loop β} (h : l.err.isSome) (closed : Bool) (k : Nat) :
    l.read closed k = l := by
  obtain ⟨buffered, unread, written, phase⟩ := l
  cases phase with
  | done err => rfl
  | reading | writing | closing => cases h

theorem write_of_done {l : Loop β} (h : l.err.isSome) (closed : Bool) : l.write closed = l := by
  obtain ⟨buffered, unread, written, phase⟩ := l
  cases phase with
  | done err => rfl
  | reading | writing | closing => cases h

/-! ## Both loops, where no full close can take anything away -/

/-- The loop of one side, with how its own connection and the one it writes to are shut. Nothing
is lost so far. A connection that is fully closed has nothing to read, and the loop itself shuts
the one it writes to, when it is done. -/
structure Loop.Safe (l : Loop β) (buffered stream : List β) (own far : Shut) : Prop where
  whole : l.Whole (buffered ++ stream)
  none : stream = [] → l.unread = []
  closed : own = .both → l.unread = []
  shut : far ≠ .no → l.err.isSome

section

variable {l : Loop β} {b u : List β} {own far : Shut}

theorem Loop.Safe.read (h : l.Safe b u own far) (k : Nat) :
    (l.read (own == .both) k).Safe b u own far where
  whole := h.whole.read (fun hc => h.closed (by simpa using hc)) k
  none hu := unread_read (h.none hu) _ k
  closed hc := unread_read (h.closed hc) _ k
  shut hs := by
    rw [read_of_done (h.shut hs)]
    exact h.shut hs

theorem Loop.Safe.write (h : l.Safe b u own far) : (l.write (far != .no)).Safe b u own far where
  whole := by
    apply h.whole.write
    by_cases hfar : far = .no
    · exact .inl (by simp [hfar])
    · exact .inr (h.shut hfar)
  none hu := (unread_write _ _).trans (h.none hu)
  closed hc := (unread_write _ _).trans (h.closed hc)
  shut hs := by
    rw [write_of_done (h.shut hs)]
    exact h.shut hs

theorem Loop.Safe.done (h : l.Safe b u own far) {err : Option Err} (hphase : l.phase = .closing err)
    (far' : Shut) : ({ l with phase := .done err } : Loop β).Safe b u own far' where
  whole := by
    refine ⟨?_, fun _ _ => h.whole.ended err (.inl hphase)⟩
    simpa only [Loop.inFlight, hphase] using h.whole.flow
  none := h.none
  closed := h.closed
  shut _ := rfl

/-- A close from the other side, which is full only where nothing is left to read. -/
theorem Loop.Safe.closedBy (h : l.Safe b u own far) {kind : Kind}
    (hsafe : kind.hasCloseWrite ∨ u = []) : l.Safe b u (closeWrite kind) far where
  whole := h.whole
  none := h.none
  closed hboth := by
    rcases hsafe with hkind | hu
    · simp [closeWrite, hkind] at hboth
    · exact h.none hu
  shut := h.shut

end

section

variable {kinds : Side → Kind} {buffered stream : Side → List β} {r : Relay β}

/-- The loop of this side is safe. -/
def SafeAt (buffered stream : Side → List β) (x : Side) (r : Relay β) : Prop :=
  (r.loop x).Safe (buffered x) (stream x) (r.shut x) (r.shut x.other)

theorem safeAt_start (x : Side) : SafeAt buffered stream x (start buffered stream) :=
  { whole := ⟨by simp [start, Loop.inFlight], nofun⟩
    none := id
    closed := nofun
    shut := fun h => absurd rfl h }

theorem safeAt_setLoop {x y : Side} {l : Loop β} (h : SafeAt buffered stream y r)
    (hl : x = y → l.Safe (buffered x) (stream x) (r.shut x) (r.shut x.other)) :
    SafeAt buffered stream y (setLoop r x l) := by
  unfold SafeAt
  by_cases hyx : y = x
  · subst hyx
    rw [loop_setLoop]
    exact hl rfl
  · rw [loop_setLoop_of_ne r hyx]
    exact h

/-- A step keeps the loop of a side safe, whatever the other side is. -/
theorem safeAt_step {y : Side} (hsafe : (kinds y).hasCloseWrite ∨ stream y = [])
    (h : SafeAt buffered stream y r) (a : Act) : SafeAt buffered stream y (step kinds r a) := by
  cases a with
  | read x k =>
    apply safeAt_setLoop h
    rintro rfl
    exact h.read k
  | write x =>
    apply safeAt_setLoop h
    rintro rfl
    exact h.write
  | close x =>
    simp only [step]
    split
    · rename_i err hphase
      unfold SafeAt
      by_cases hyx : y = x
      · subst hyx
        simp only [loop_setLoop, Function.update_of_ne (Side.other_ne y).symm]
        exact h.done hphase _
      · obtain rfl : y = x.other := Side.eq_other_of_ne hyx
        simp only [loop_setLoop_of_ne r hyx, Function.update_self, Side.other_other,
          Function.update_of_ne (Side.other_ne x).symm]
        have hother := Loop.Safe.closedBy h hsafe
        rwa [Side.other_other] at hother
    · exact h

theorem safeAt_run {y : Side} (hsafe : (kinds y).hasCloseWrite ∨ stream y = [])
    (acts : List Act) :
    SafeAt buffered stream y (runs.run (step kinds) (start buffered stream) acts) :=
  runs.run_invariant_of_step (SafeAt buffered stream y) (fun _ a h => safeAt_step hsafe h a)
    (safeAt_start y) acts

def Safe (buffered stream : Side → List β) (r : Relay β) : Prop :=
  ∀ x, SafeAt buffered stream x r

theorem safe_run (hsafe : ∀ x, (kinds x).hasCloseWrite ∨ stream x = []) (acts : List Act) :
    Safe buffered stream (runs.run (step kinds) (start buffered stream) acts) :=
  fun x => safeAt_run (hsafe x) acts

end

theorem isSome_result {r : Relay β} : (result r).isSome ↔ ∀ x, (r.loop x).err.isSome := by
  unfold result
  constructor
  · intro h x
    split at h
    · rename_i hleft hright
      cases x <;> simp [*]
    · cases h
  · intro h
    obtain ⟨_, hleft⟩ := Option.isSome_iff_exists.mp (h .left)
    obtain ⟨_, hright⟩ := Option.isSome_iff_exists.mp (h .right)
    simp [hleft, hright]

theorem Loop.Whole.written_of_done {l : Loop β} {total : List β} (h : l.Whole total)
    (hdone : l.err.isSome) : l.written = total := by
  obtain ⟨buffered, unread, written, phase⟩ := l
  cases phase with
  | done err =>
    obtain ⟨rfl, rfl⟩ := h.ended err (.inr rfl)
    simpa [Loop.inFlight] using h.flow
  | reading | writing | closing => cases hdone

/-! ## One loop alone, and then the other -/

/-- What a loop does by itself, with reads that are large enough. -/
def copyAll (l : Loop β) (closed : Bool) (n : Nat) : Loop β :=
  ((((l.read closed n).write false).read closed n).write false).read closed n

def alone (x : Side) (n : Nat) : List Act :=
  [.read x n, .write x, .read x n, .write x, .read x n, .close x]

theorem copyAll_reading (b u w : List β) (closed : Bool) {n : Nat} (hb : b.length ≤ n)
    (hu : u.length ≤ n) :
    copyAll ⟨b, u, w, .reading⟩ closed n =
      ⟨[], if closed then u else [], w ++ b ++ if closed then [] else u,
        .closing (if closed then some errClosed else none)⟩ := by
  have hb' : b.length ≤ n + 1 := Nat.le_succ_of_le hb
  have hu' : u.length ≤ n + 1 := Nat.le_succ_of_le hu
  by_cases hbuf : b = [] <;> by_cases hunread : u = [] <;> cases closed <;>
    simp [copyAll, Loop.read, Loop.write, hbuf, hunread, hb', hu', List.take_of_length_le]

theorem run_alone (kinds : Side → Kind) {r : Relay β} {x : Side} {b u w : List β}
    (hloop : r.loop x = ⟨b, u, w, .reading⟩) (hopen : r.shut x.other = .no) :
    ∃ acts, runs.run (step kinds) r acts =
      { setLoop r x ⟨[], if r.shut x == .both then u else [],
          w ++ b ++ if r.shut x == .both then [] else u,
          .done (if r.shut x == .both then some errClosed else none)⟩ with
        shut := Function.update r.shut x.other (closeWrite (kinds x.other)) } := by
  have hcopy := copyAll_reading b u w (r.shut x == .both) (n := b.length + u.length)
    (Nat.le_add_right ..) (Nat.le_add_left ..)
  refine ⟨alone x (b.length + u.length), ?_⟩
  simp only [copyAll] at hcopy
  simp [alone, step, hloop, hopen, hcopy]

/-- The loop of the other side runs to its end first, and then the loop of this side. The relay
returns, and where the first loop has closed this side fully, only what the wrapper held has
gone through. -/
theorem exists_run_other_first (kinds : Side → Kind) (buffered stream : Side → List β)
    (x : Side) :
    ∃ acts, (result (runs.run (step kinds) (start buffered stream) acts)).isSome ∧
      ((runs.run (step kinds) (start buffered stream) acts).loop x).written =
        buffered x ++ if (kinds x).hasCloseWrite then stream x else [] := by
  obtain ⟨first, hfirst⟩ :=
    run_alone kinds (r := start buffered stream) (x := x.other) rfl rfl
  rw [Side.other_other] at hfirst
  have hloop : (runs.run (step kinds) (start buffered stream) first).loop x =
      ⟨buffered x, stream x, [], .reading⟩ := by
    rw [hfirst]
    exact loop_setLoop_of_ne _ (Side.other_ne x).symm _
  have hshut : (runs.run (step kinds) (start buffered stream) first).shut x =
      closeWrite (kinds x) := by
    rw [hfirst]
    exact Function.update_self ..
  have hopen : (runs.run (step kinds) (start buffered stream) first).shut x.other = .no := by
    rw [hfirst]
    exact Function.update_of_ne (Side.other_ne x) ..
  have hdone : ((runs.run (step kinds) (start buffered stream) first).loop x.other).err.isSome := by
    rw [hfirst]
    simp [Loop.err]
  obtain ⟨second, hsecond⟩ := run_alone kinds hloop hopen
  refine ⟨first ++ second, ?_⟩
  rw [runs.run_append, hsecond, isSome_result]
  refine ⟨fun z => ?_, ?_⟩
  · by_cases hz : z = x
    · subst hz
      simp [Loop.err]
    · obtain rfl := Side.eq_other_of_ne hz
      simpa [loop_setLoop_of_ne _ hz] using hdone
  · rw [hshut]
    cases hkind : (kinds x).hasCloseWrite <;> simp [closeWrite, hkind]

/-- The relay keeps the data of both directions, under every interleaving, exactly when a
connection that lacks `CloseWrite` has nothing left to read but what its wrapper holds. -/
theorem keepsData_iff (kinds : Side → Kind) (buffered stream : Side → List β) :
    KeepsData kinds buffered stream ↔ ∀ x, (kinds x).hasCloseWrite ∨ stream x = [] := by
  constructor
  · intro hkeeps x
    obtain ⟨acts, hresult, hwritten⟩ := exists_run_other_first kinds buffered stream x
    have hall := List.append_cancel_left (hwritten.symm.trans (hkeeps acts hresult x))
    by_cases hkind : (kinds x).hasCloseWrite
    · exact .inl hkind
    · rw [if_neg hkind] at hall
      exact .inr hall.symm
  · intro hsafe acts hresult x
    exact (safe_run hsafe acts x).whole.written_of_done (isSome_result.mp hresult x)

/-- The upstream that an HTTP proxy was dialled for, and a client that sends nothing more. -/
def proxied : Side → Kind
  | .left => .peekedConn
  | .right => .tcp

def answer : Side → List Char
  | .left => ['o', 'k']
  | .right => []

/-- The client ends first. -/
def clientFirst : List Act := [.read .right 0, .close .right, .read .left 0, .close .left]

/-- The upstream is closed before its answer is read, and the relay returns without an error. -/
theorem answer_is_lost :
    result (runs.run (step proxied) (start (fun _ => []) answer) clientFirst) =
        some (0, 0, none) ∧
      ¬ KeepsData proxied (fun _ => []) answer := by
  refine ⟨by decide, fun h => ?_⟩
  have hleft := h clientFirst (by decide) .left
  revert hleft
  decide

end vproxy.relay
