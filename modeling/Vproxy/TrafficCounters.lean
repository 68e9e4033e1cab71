-- The traffic counters of forward (handler.go) over RelayWithStats (tcp.go). Each copy counts what
-- the other connection accepts, however its reads, writes and errors come. The first result is
-- that of the copy from the left connection, which in forward is the upstream.
import Vproxy.Relay

open go runs vproxy.relay

namespace vproxy.traffic

/-! ## io.Copy -/

def errShortWrite : Err := ⟨"short write", false, false⟩

/-- The error of a `Read`. -/
inductive ReadErr where
  | eof
  | err (e : Err)
  deriving DecidableEq

/-- Where a copy is: in `Read`, in `Write` with what it read and the error beside it, before
`closeWrite` or after it. -/
inductive Phase (β : Type) where
  | reading
  | writing (chunk : List β) (er : Option ReadErr)
  | closing (err : Option Err)
  | done (err : Option Err)

/-- A copy with its counter. -/
structure Copy (β : Type) where
  written : Nat
  phase : Phase β

variable {β : Type}

/-- What follows a read error. -/
def Phase.after : Option ReadErr → Phase β
  | none => .reading
  | some .eof => .closing none
  | some (.err e) => .closing (some e)

def Copy.read (c : Copy β) (bytes : List β) (er : Option ReadErr) : Copy β :=
  match c.phase with
  | .reading => { c with phase := if bytes ≠ [] then .writing bytes er else .after er }
  | _ => c

/-- What the connection takes of the chunk in a `Write` that accepts at most `n` bytes. -/
def Copy.taken (c : Copy β) (n : Nat) : List β :=
  match c.phase with
  | .writing chunk _ => chunk.take n
  | _ => []

def Copy.write (c : Copy β) (n : Nat) (ew : Option Err) : Copy β :=
  match c.phase with
  | .writing chunk er =>
    { written := c.written + (chunk.take n).length
      phase :=
        if ew.isSome then .closing ew
        else if (chunk.take n).length ≠ chunk.length then .closing (some errShortWrite)
        else .after er }
  | _ => c

def Copy.close (c : Copy β) : Copy β :=
  match c.phase with
  | .closing err => { c with phase := .done err }
  | _ => c

/-! ## RelayWithStats -/

/-- The copy that reads from each side, and what each side has accepted so far. -/
structure Session (β : Type) where
  copies : Side → Copy β
  accepted : Side → List β

/-- A step of the copy that reads from a side. How a read or a write comes out is open. -/
inductive Act (β : Type) where
  | read (x : Side) (bytes : List β) (er : Option ReadErr)
  | write (x : Side) (n : Nat) (ew : Option Err)
  | close (x : Side)

def step (s : Session β) : Act β → Session β
  | .read x bytes er => { s with copies := Function.update s.copies x ((s.copies x).read bytes er) }
  | .write x n ew =>
    { copies := Function.update s.copies x ((s.copies x).write n ew)
      accepted := Function.update s.accepted x.other
        (s.accepted x.other ++ (s.copies x).taken n) }
  | .close x => { s with copies := Function.update s.copies x (s.copies x).close }

/-- The session after these steps. -/
def session (acts : List (Act β)) : Session β :=
  run step ⟨fun _ => ⟨0, .reading⟩, fun _ => []⟩ acts

def Copy.err (c : Copy β) : Option (Option Err) :=
  match c.phase with
  | .done err => some err
  | _ => none

/-- What `RelayWithStats` returns when both copies are done. -/
def relayWithStats (s : Session β) : Option (Nat × Nat × Option Err) := do
  let errLeft ← (s.copies .left).err
  let errRight ← (s.copies .right).err
  some ((s.copies .left).written, (s.copies .right).written, relayError errLeft errRight)

/-- Every counter is the number of bytes that the other side has accepted. -/
def Counted (s : Session β) : Prop :=
  ∀ x, (s.copies x).written = (s.accepted x.other).length

theorem written_read (c : Copy β) (bytes : List β) (er : Option ReadErr) :
    (c.read bytes er).written = c.written := by
  unfold Copy.read
  split <;> rfl

theorem written_write (c : Copy β) (n : Nat) (ew : Option Err) :
    (c.write n ew).written = c.written + (c.taken n).length := by
  unfold Copy.write Copy.taken
  split <;> simp

theorem written_close (c : Copy β) : c.close.written = c.written := by
  unfold Copy.close
  split <;> rfl

theorem Side.other_injective {x y : Side} (h : x.other = y.other) : x = y := by
  rw [← Side.other_other x, h, Side.other_other]

theorem counted_step {s : Session β} (h : Counted s) (a : Act β) : Counted (step s a) := by
  intro y
  cases a with
  | read x bytes er =>
    by_cases hyx : y = x
    · subst hyx
      simpa [step, written_read] using h y
    · simpa [step, hyx] using h y
  | write x n ew =>
    by_cases hyx : y = x
    · subst hyx
      simpa [step, written_write] using h y
    · have hother : y.other ≠ x.other := fun heq => hyx (Side.other_injective heq)
      simpa [step, hyx, hother] using h y
  | close x =>
    by_cases hyx : y = x
    · subst hyx
      simpa [step, written_close] using h y
    · simpa [step, hyx] using h y

theorem counted_session (acts : List (Act β)) : Counted (session acts) :=
  run_invariant_of_step Counted (fun _ a h => counted_step h a) (fun _ => rfl) acts

/-! ## forward -/

inductive Party where
  | client
  | upstream
  deriving DecidableEq

/-- The call is `RelayWithStats(ctx, rc, conn)`. -/
def Party.side : Party → Side
  | upstream => .left
  | client => .right

/-- The traffic attributes of the relay span. -/
structure Traffic where
  bytesSent : Nat
  bytesReceived : Nat
  deriving DecidableEq

/-- What `forward` records when the relay has ended, if there is a relay span. -/
def recorded (relaySpan : Bool) (s : Session β) : Option Traffic := do
  let (bytesSent, bytesRcvd, _) ← relayWithStats s
  if relaySpan then some ⟨bytesSent, bytesRcvd⟩ else none

/-- The bytes that came from the other party and were delivered to this one. -/
def Session.deliveredTo (s : Session β) (p : Party) : List β := s.accepted p.side

/-- Sent is what the client sent and the upstream got, received what the upstream sent and the
client got. -/
def NamesDirections (t : Traffic) (s : Session β) : Prop :=
  t.bytesSent = (s.deliveredTo .upstream).length ∧ t.bytesReceived = (s.deliveredTo .client).length

/-- The two counters are in each other's place. -/
theorem recorded_swapped {relaySpan : Bool} {acts : List (Act β)} {t : Traffic}
    (h : recorded relaySpan (session acts) = some t) :
    t.bytesSent = ((session acts).deliveredTo .client).length ∧
      t.bytesReceived = ((session acts).deliveredTo .upstream).length := by
  have hcounted := counted_session acts
  simp only [recorded, relayWithStats, Option.bind_eq_bind, Option.bind_eq_some_iff] at h
  obtain ⟨_, ⟨errLeft, -, errRight, -, hstats⟩, ht⟩ := h
  cases hstats
  cases relaySpan with
  | true =>
    cases ht
    exact ⟨hcounted .left, hcounted .right⟩
  | false => cases ht

/-- The counters name the right directions exactly when both parties got equally much. -/
theorem counters_name_directions_iff (relaySpan : Bool) (acts : List (Act β)) (t : Traffic)
    (h : recorded relaySpan (session acts) = some t) :
    NamesDirections t (session acts) ↔
      ((session acts).deliveredTo .client).length =
        ((session acts).deliveredTo .upstream).length := by
  obtain ⟨hsent, hreceived⟩ := recorded_swapped h
  unfold NamesDirections
  rw [hsent, hreceived]
  constructor
  · intro hnames
    exact hnames.1
  · intro hequal
    exact ⟨hequal, hequal.symm⟩

/-- A party sends its bytes and ends. -/
def sends (p : Party) (bytes : Str) : List (Act Char) :=
  [.read p.side bytes none, .write p.side bytes.length none, .read p.side [] (some .eof),
    .close p.side]

/-- Each party sends three bytes. -/
theorem equal_traffic_is_named :
    NamesDirections ⟨3, 3⟩ (session (sends .client "abc" ++ sends .upstream "xyz")) := by
  apply (counters_name_directions_iff true (sends .client "abc" ++ sends .upstream "xyz") ⟨3, 3⟩
    rfl).mpr
  rfl

/-- A request of three bytes and a reply of five. The span says that five were sent. -/
theorem reply_is_counted_as_sent :
    recorded true (session (sends .client "GET" ++ sends .upstream "hello")) = some ⟨5, 3⟩ ∧
      (session (sends .client "GET" ++ sends .upstream "hello")).deliveredTo .upstream =
        ("GET" : Str) ∧
      (session (sends .client "GET" ++ sends .upstream "hello")).deliveredTo .client =
        ("hello" : Str) ∧
      ¬ NamesDirections ⟨5, 3⟩ (session (sends .client "GET" ++ sends .upstream "hello")) := by
  refine ⟨rfl, rfl, rfl, ?_⟩
  rintro ⟨hsent, -⟩
  cases hsent

/-! ## The loops of the relay -/

def viewPhase : relay.Phase β → Phase β
  | .reading => .reading
  | .writing chunk => .writing chunk none
  | .closing err => .closing err
  | .done err => .done err

def viewLoop (l : Loop β) : Copy β := ⟨l.written.length, viewPhase l.phase⟩

/-- A relay of two loops as a session. -/
def view (r : Relay β) : Session β where
  copies x := viewLoop (r.loop x)
  accepted y := (r.loop y.other).written

theorem viewLoop_read (l : Loop β) (closed : Bool) (k : Nat) :
    (l.read closed k).written = l.written ∧
      ∃ bytes er, viewLoop (l.read closed k) = (viewLoop l).read bytes er := by
  obtain ⟨buffered, unread, written, phase⟩ := l
  cases phase with
  | reading =>
    simp only [Loop.read]
    split
    · rename_i hbuffered
      refine ⟨rfl, buffered.take (k + 1), none, ?_⟩
      simp [viewLoop, viewPhase, Copy.read, hbuffered]
    · split
      · exact ⟨rfl, [], some (.err errClosed), rfl⟩
      · split
        · rename_i hunread
          refine ⟨rfl, unread.take (k + 1), none, ?_⟩
          simp [viewLoop, viewPhase, Copy.read, hunread]
        · exact ⟨rfl, [], some .eof, rfl⟩
  | writing | closing | done => exact ⟨rfl, [], none, rfl⟩

theorem viewLoop_write (l : Loop β) (closed : Bool) :
    ∃ n ew, viewLoop (l.write closed) = (viewLoop l).write n ew ∧
      (l.write closed).written = l.written ++ (viewLoop l).taken n := by
  obtain ⟨buffered, unread, written, phase⟩ := l
  cases phase with
  | writing chunk =>
    cases closed with
    | true =>
      refine ⟨0, some errClosed, ?_, ?_⟩ <;>
        simp [viewLoop, viewPhase, Loop.write, Copy.write, Copy.taken]
    | false =>
      refine ⟨chunk.length, none, ?_, ?_⟩ <;>
        simp [viewLoop, viewPhase, Loop.write, Copy.write, Copy.taken, Phase.after]
  | reading | closing | done => exact ⟨0, none, rfl, (List.append_nil _).symm⟩

/-- Where only the loop of a side changes, only its copy changes and what the other side has. -/
theorem view_eq {r r' : Relay β} {x : Side} (h : ∀ y, y ≠ x → r'.loop y = r.loop y) :
    view r' = ⟨Function.update (view r).copies x (viewLoop (r'.loop x)),
      Function.update (view r).accepted x.other (r'.loop x).written⟩ := by
  unfold view
  congr 1
  · funext y
    by_cases hyx : y = x
    · subst hyx
      rw [Function.update_self]
    · rw [Function.update_of_ne hyx, h y hyx]
  · funext y
    by_cases hyx : y = x.other
    · subst hyx
      rw [Function.update_self, Side.other_other]
    · rw [Function.update_of_ne hyx, h y.other fun heq => hyx (by rw [← heq, Side.other_other])]

theorem accepted_view (r : Relay β) (x : Side) :
    (view r).accepted x.other = (r.loop x).written := by
  simp [view]

/-- A step of the relay is a step of the session. -/
theorem view_step (kinds : Side → Kind) (r : Relay β) (a : relay.Act) :
    ∃ act, view (relay.step kinds r a) = step (view r) act := by
  cases a with
  | read x k =>
    obtain ⟨hwritten, bytes, er, hread⟩ := viewLoop_read (r.loop x) (r.shut x == .both) k
    refine ⟨.read x bytes er, ?_⟩
    rw [relay.step, view_eq fun y hyx => loop_setLoop_of_ne r hyx _, loop_setLoop, hwritten, hread,
      ← accepted_view, Function.update_eq_self]
    rfl
  | write x =>
    obtain ⟨n, ew, hwrite, hwritten⟩ := viewLoop_write (r.loop x) (r.shut x.other != .no)
    refine ⟨.write x n ew, ?_⟩
    rw [relay.step, view_eq fun y hyx => loop_setLoop_of_ne r hyx _, loop_setLoop, hwritten, hwrite,
      ← accepted_view]
    rfl
  | close x =>
    refine ⟨.close x, ?_⟩
    rw [relay.step]
    split
    · rename_i err hphase
      change view (setLoop r x { r.loop x with phase := .done err }) = _
      rw [view_eq fun y hyx => loop_setLoop_of_ne r hyx _, loop_setLoop, ← accepted_view,
        Function.update_eq_self]
      have hclose : viewLoop { r.loop x with phase := .done err } = ((view r).copies x).close := by
        simp [view, viewLoop, hphase, viewPhase, Copy.close]
      rw [hclose]
      rfl
    · rename_i hphase
      have hclose : ((view r).copies x).close = (view r).copies x := by
        unfold Copy.close
        split
        · rename_i err hclosing
          cases hloop : (r.loop x).phase <;> simp_all [view, viewLoop, viewPhase]
        · rfl
      rw [step, hclose, Function.update_eq_self]

/-- Every run of the relay is a session. -/
theorem relay_run_is_session (kinds : Side → Kind) (buffered stream : Side → List β)
    (acts : List relay.Act) :
    ∃ acts', view (run (relay.step kinds) (relay.start buffered stream) acts) =
      session acts' := by
  refine run_invariant_of_step (fun r => ∃ acts', view r = session acts') ?_ ⟨[], rfl⟩ acts
  rintro r a ⟨acts', hview⟩
  obtain ⟨act, hact⟩ := view_step kinds r a
  refine ⟨acts' ++ [act], ?_⟩
  rw [hact, hview, session, session, run_append]
  rfl

theorem err_viewLoop (l : Loop β) : (viewLoop l).err = l.err := by
  unfold Copy.err Loop.err viewLoop
  cases l.phase <;> rfl

/-- The results of the relay are the results of the session. -/
theorem relayWithStats_view (r : Relay β) :
    relayWithStats (view r) = result r := by
  have herr : ∀ x, ((view r).copies x).err = (r.loop x).err :=
    fun x => err_viewLoop (r.loop x)
  unfold relayWithStats result
  rw [herr, herr]
  cases (r.loop .left).err with
  | none => rfl
  | some errLeft =>
    cases (r.loop .right).err with
    | none => rfl
    | some errRight =>
      rfl

end vproxy.traffic
