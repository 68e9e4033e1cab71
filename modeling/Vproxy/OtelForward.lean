-- One run of forward (handler.go) beside the calls that change the tracing state. The tracer is
-- read once, and the active flag again before each span, each time from the snapshot that is
-- published then. Whether the two belong together depends on what was published in between.
import Vproxy.OtelRuns

open go

namespace vproxy.otel

/-! ## What forward reads -/

inductive SpanName where
  | session
  | route
  | dial
  | relay
  deriving DecidableEq, Repr

/-- Where `forward` returns. -/
inductive Exit where
  | loopDetected
  | blocked
  | intercepted
  | forwardedRelay
  | dialFailed
  | tunnelClosed
  deriving DecidableEq, Repr

/-- The spans that `forward` asks the active flag for on its way. -/
def Exit.tests : Exit → List SpanName
  | loopDetected | blocked => [.session]
  | intercepted | forwardedRelay => [.session, .route]
  | dialFailed => [.session, .route, .dial]
  | tunnelClosed => [.session, .route, .dial, .relay]

/-- A span that was started. The other fields are history: the snapshots that its tracer and the
flag before it were read from, and the provider at the time of the flag. -/
structure Span where
  name : SpanName
  tracerFrom : OtelState
  flagFrom : OtelState
  provider : Option TracerProvider
  deriving DecidableEq

structure Forward where
  /-- The snapshot of `tracer := GetOtelTracer()`. -/
  tracer : Option OtelState
  tests : List SpanName
  /-- The session span is not nil. -/
  sessionSpan : Bool
  spans : List Span

def Forward.start (exit : Exit) : Forward := ⟨none, exit.tests, false, []⟩

/-- The span that the next test starts. -/
def Forward.next (f : Forward) (g : Globals) : Option Span :=
  match f.tracer, f.tests with
  | some snapshot, name :: _ =>
    if isOtelActive g && (name == .session || f.sessionSpan) then
      some ⟨name, snapshot, currentState g, g.globalTracerProvider⟩
    else none
  | _, _ => none

/-- The next read of the published snapshot, and what follows from it. -/
def Forward.step (f : Forward) (g : Globals) : Forward :=
  match f.tracer with
  | none => { f with tracer := some (currentState g) }
  | some _ =>
    { f with
      tests := f.tests.tail
      sessionSpan := f.sessionSpan || (f.next g).isSome
      spans := f.spans ++ (f.next g).toList }

/-- The tracer and the flag are of one snapshot, and the tracer is of the provider that was in
use. -/
def Span.Whole (span : Span) : Prop :=
  span.tracerFrom = span.flagFrom ∧
    ∃ tp, span.provider = some tp ∧ span.tracerFrom.tracer = .of tp tp.settings.serviceName

/-! ## Interleavings -/

section

variable [Unicode]

/-- The call stores a snapshot, as its arguments and the state before it decide. -/
def publishes (w : World) : Act → Bool
  | .init cfg fault =>
    !otelConfigEqual w.globals.globalOtelConfig cfg &&
      (buildOtelProvider (w.clock + 1) fault cfg matches .ok _)
  | .shutdown => w.canShutdown
  | .finish _ => false

theorem globals_step_of_not_publishes {w : World} {a : Act} (h : publishes w a = false) :
    (step w a).globals = w.globals := by
  cases a with
  | init cfg fault =>
    simp only [publishes, Bool.and_eq_false_iff, Bool.not_eq_false'] at h
    simp only [step, initOtelTracer]
    split
    · rfl
    · rename_i hdiffers
      have hbuild := h.resolve_left hdiffers
      split
      · rfl
      · rename_i hok
        simp [hok] at hbuild
  | shutdown =>
    simp only [publishes] at h
    simp [step, h]
  | finish i =>
    simp only [step]
    split <;> rfl

/-- What such a call stores: the shared no-op snapshot, or a new one. -/
theorem stored_of_publishes {w : World} {a : Act} (h : publishes w a) :
    currentState (step w a).globals = noopState ∨
      (currentState (step w a).globals).addr = w.clock + 1 ∧ (step w a).clock = w.clock + 1 := by
  cases a with
  | init cfg fault =>
    right
    simp only [publishes, Bool.and_eq_true, Bool.not_eq_true'] at h
    simp only [step, initOtelTracer, h.1]
    split
    · cases ‹false = true›
    · split
      · rename_i herr
        simp [herr] at h
      · exact ⟨rfl, trivial⟩
  | shutdown =>
    left
    simp only [publishes] at h
    simp only [step, h, if_true]
    rfl
  | finish i => cases h

structure System where
  world : World
  forward : Forward
  /-- Something was published since `forward` has read its tracer. -/
  stale : Bool

inductive Move where
  | forward
  | other (a : Act)

def System.start (exit : Exit) : System := ⟨.initial, .start exit, false⟩

def move (s : System) : Move → System
  | .forward =>
    { s with
      forward := s.forward.step s.world.globals
      stale := s.forward.tracer.isSome && s.stale }
  | .other a =>
    { s with
      world := step s.world a
      stale := s.stale || publishes s.world a }

/-! ## What holds between the reads -/

/-- Every snapshot so far has a name that was given out, and the tracer of `forward` is of the
published snapshot until something is published. -/
structure Tracked (s : System) : Prop where
  reached : Reached s.world
  named : (currentState s.world.globals).addr ≤ s.world.clock
  tracerNamed : ∀ snapshot ∈ s.forward.tracer, snapshot.addr ≤ s.world.clock
  unchanged : ∀ snapshot ∈ s.forward.tracer, s.stale = false →
    currentState s.world.globals = snapshot
  replaced : ∀ snapshot ∈ s.forward.tracer, s.stale → isOtelActive s.world.globals →
    snapshot.addr < (currentState s.world.globals).addr

theorem tracked_start (exit : Exit) : Tracked (.start exit) where
  reached := reached_run []
  named := Nat.le_refl 0
  tracerNamed := nofun
  unchanged := nofun
  replaced := nofun

theorem clock_le_step (w : World) (a : Act) : w.clock ≤ (step w a).clock := by
  cases a with
  | init cfg fault => exact Nat.le_succ _
  | shutdown =>
    simp only [step]
    split <;> exact Nat.le_refl _
  | finish i =>
    simp only [step]
    split <;> exact Nat.le_refl _

/-- The read of the tracer. -/
theorem Tracked.load {s : System} (h : Tracked s) (htracer : s.forward.tracer = none) :
    Tracked (move s .forward) := by
  refine ⟨h.reached, h.named, ?_, ?_, ?_⟩ <;> simp only [move, Forward.step, htracer]
  · rintro snapshot ⟨⟩
    exact h.named
  · rintro snapshot ⟨⟩ _
    rfl
  · rintro snapshot ⟨⟩ hstale
    cases hstale

/-- A test of the flag leaves the tracer as it is. -/
theorem Tracked.test {s : System} (h : Tracked s) {snapshot : OtelState}
    (htracer : s.forward.tracer = some snapshot) : Tracked (move s .forward) := by
  have hkeep : (move s .forward).forward.tracer = s.forward.tracer := by
    simp [move, Forward.step, htracer]
  have hstale : (move s .forward).stale = s.stale := by simp [move, htracer]
  refine ⟨h.reached, h.named, ?_, ?_, ?_⟩
  · rw [hkeep]
    exact h.tracerNamed
  · rw [hkeep, hstale]
    exact h.unchanged
  · rw [hkeep, hstale]
    exact h.replaced

theorem Tracked.quiet {s : System} (h : Tracked s) {a : Act} (hpub : publishes s.world a = false) :
    Tracked (move s (.other a)) := by
  have hclock := clock_le_step s.world a
  have hglobals := globals_step_of_not_publishes hpub
  refine ⟨reached_step h.reached a, ?_, ?_, ?_, ?_⟩ <;>
    simp only [move, hglobals, hpub, Bool.or_false]
  · exact Nat.le_trans h.named hclock
  · exact fun snapshot hs => Nat.le_trans (h.tracerNamed snapshot hs) hclock
  · exact h.unchanged
  · exact h.replaced

/-- A snapshot that is stored and active has a name that is newer than the tracer's. -/
theorem Tracked.publish {s : System} (h : Tracked s) {a : Act} (hpub : publishes s.world a) :
    Tracked (move s (.other a)) := by
  have hclock := clock_le_step s.world a
  refine ⟨reached_step h.reached a, ?_, ?_, ?_, ?_⟩ <;> simp only [move, hpub, Bool.or_true]
  · rcases stored_of_publishes hpub with hnoop | ⟨haddr, hnow⟩
    · rw [hnoop]
      exact Nat.zero_le _
    · exact Nat.le_of_eq (haddr.trans hnow.symm)
  · exact fun snapshot hs => Nat.le_trans (h.tracerNamed snapshot hs) hclock
  · exact nofun
  · intro snapshot hs _ hactive
    rcases stored_of_publishes hpub with hnoop | ⟨haddr, _⟩
    · rw [isOtelActive, hnoop] at hactive
      cases hactive
    · rw [haddr]
      exact Nat.lt_succ_of_le (h.tracerNamed snapshot hs)

theorem tracked_move {s : System} (h : Tracked s) (m : Move) : Tracked (move s m) := by
  cases m with
  | forward =>
    cases htracer : s.forward.tracer with
    | none => exact h.load htracer
    | some snapshot => exact h.test htracer
  | other a =>
    cases hpub : publishes s.world a with
    | false => exact h.quiet hpub
    | true => exact h.publish hpub

/-! ## The spans -/

/-- No span is started when something was published since the tracer was read. -/
def Undisturbed (s : System) : Move → Prop
  | .forward => (s.forward.next s.world.globals).isSome → s.stale = false
  | .other _ => True

theorem whole_next_iff {s : System} (h : Tracked s) {span : Span}
    (hspan : s.forward.next s.world.globals = some span) : span.Whole ↔ s.stale = false := by
  unfold Forward.next at hspan
  split at hspan
  · rename_i snapshot name _ htracer _
    split at hspan
    · rename_i hstarts
      rw [Bool.and_eq_true] at hstarts
      obtain rfl := Option.some.inj hspan
      constructor
      · intro hwhole
        by_contra hstale
        rw [Bool.not_eq_false] at hstale
        have hsame : snapshot = currentState s.world.globals := hwhole.1
        have hlt := h.replaced snapshot htracer hstale hstarts.1
        rw [hsame] at hlt
        exact Nat.lt_irrefl _ hlt
      · intro hstale
        have hsame := h.unchanged snapshot htracer hstale
        have hconsistent := h.reached.synced.consistent
        obtain ⟨tp, htp⟩ := Option.ne_none_iff_exists'.mp (hconsistent.active_iff.mp hstarts.1)
        refine ⟨hsame.symm, tp, htp, ?_⟩
        rw [← hsame]
        exact (hconsistent.tracer tp htp).1
    · cases hspan
  · cases hspan

theorem whole_move_iff {s : System} (h : Tracked s) (m : Move) :
    (∀ span ∈ (move s m).forward.spans, span.Whole) ↔
      (∀ span ∈ s.forward.spans, span.Whole) ∧ Undisturbed s m := by
  cases m with
  | other a => simp [move, Undisturbed]
  | forward =>
    have hspans : (move s .forward).forward.spans =
        s.forward.spans ++ (s.forward.next s.world.globals).toList := by
      simp only [move, Forward.step]
      split
      · rename_i htracer
        simp [Forward.next, htracer]
      · rfl
    rw [hspans]
    cases hnext : s.forward.next s.world.globals with
    | none => simp [Undisturbed, hnext]
    | some span =>
      rw [List.forall_mem_append, Option.toList_some, List.forall_mem_singleton,
        whole_next_iff h hnext]
      simp [Undisturbed, hnext]

/-- A run of `forward` starts all its spans with the tracer of the snapshot whose flag it has
seen exactly when, before each span, nothing was published since the tracer was read. -/
theorem spans_whole_iff_undisturbed (exit : Exit) (moves : List Move) :
    (∀ span ∈ (runs.run move (.start exit) moves).forward.spans, span.Whole) ↔
      runs.Along move Undisturbed (.start exit) moves := by
  have hrun := runs.run_iff_along Tracked (fun s => ∀ span ∈ s.forward.spans, span.Whole)
    (fun _ m h => tracked_move h m) (fun _ m h => whole_move_iff h m) (tracked_start exit) moves
  rw [hrun]
  exact and_iff_right fun span hspan => absurd hspan List.not_mem_nil

end

/-- Tracing is switched on after `forward` has read its tracer and before it asks whether tracing
is on: the session span is started on the no-op tracer. -/
theorem session_on_noop_tracer :
    let s := runs.run move (.start .tunnelClosed)
      [.forward, .other (.init (some localCollector) none), .forward]
    (∃ span ∈ s.forward.spans, span.name = .session ∧ span.flagFrom.active ∧
        span.tracerFrom.tracer = .noop) ∧
      ¬ ∀ span ∈ s.forward.spans, span.Whole := by
  refine ⟨⟨_, List.mem_singleton_self _, rfl, rfl, rfl⟩, fun h => ?_⟩
  have hsame := (h _ (List.mem_singleton_self _)).1
  cases hsame

end vproxy.otel
