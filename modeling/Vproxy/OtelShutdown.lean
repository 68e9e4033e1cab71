-- The shutdown of tracing at the end of RunServer. It calls the function that the first
-- InitOtelTracer gave, which does nothing when tracing was off at the start, and there is none when
-- tracing failed. A provider that a later reload has built is then never shut down.
import Vproxy.OtelRuns

open go runs

namespace vproxy.otel

/-- A configuration that is loaded, and how the build of its provider goes. -/
structure Load where
  cfg : Option OtelConfig
  fault : Option Fault

/-- The load says whether tracing is on after it: it turns it off, or its provider can be built. -/
def Load.decides (l : Load) : Bool := !enabled l.cfg || l.fault.isNone

/-- Whole calls of `InitOtelTracer`, one after another. -/
def wholeCalls (loads : List Load) : List Act :=
  loads.flatMap fun l => [.init l.cfg l.fault, .finish 0]

section

variable [Unicode]

/-- The first call at the start, and the calls of the reloads. -/
def loaded (start : Load) (reloads : List Load) : World :=
  run step .initial (wholeCalls (start :: reloads))

/-- `otelShutdown` and its error, as `RunServer` keeps them. -/
def otelShutdown (start : Load) : Except Str Closure :=
  (initOtelTracer 1 start.fault start.cfg .initial).2.ret

/-- The calls at the end of `RunServer`: a shutdown function that is not nil is called. -/
def lastCalls (start : Load) : List Act :=
  match otelShutdown start with
  | .ok .makeShutdown => [.shutdown, .finish 0]
  | .ok .nothing => []
  | .error _ => []

def runServer (start : Load) (reloads : List Load) : World :=
  run step (loaded start reloads) (lastCalls start)

/-- Every provider was shut down once, and the published state is the one that does nothing. -/
structure Flushed (w : World) : Prop where
  once : ∀ tp ∈ w.built, w.shut.count tp = 1
  tracer : getOtelTracer w.globals = .noop
  inactive : isOtelActive w.globals = false

/-! ## Whole calls -/

/-- A whole call leaves no call under way. -/
theorem calls_wholeCall {w : World} (h : w.calls = []) (l : Load) :
    (run step w [.init l.cfg l.fault, .finish 0]).calls = [] := by
  simp [step, h]

theorem calls_wholeCalls {w : World} (h : w.calls = []) (loads : List Load) :
    (run step w (wholeCalls loads)).calls = [] := by
  induction loads generalizing w with
  | nil => exact h
  | cons l loads ih =>
    have hcons : wholeCalls (l :: loads) = [.init l.cfg l.fault, .finish 0] ++ wholeCalls loads := rfl
    rw [hcons, run_append]
    exact ih (calls_wholeCall h l)

/-- What was returned stays returned. -/
theorem returned_step (w : World) (a : Act) : w.returned <+: (step w a).returned := by
  cases a with
  | init cfg fault => exact List.prefix_rfl
  | shutdown =>
    simp only [step]
    split <;> exact List.prefix_rfl
  | finish i =>
    simp only [step]
    split
    · exact List.prefix_rfl
    · exact List.prefix_append _ _

/-- The function that is kept was returned. -/
theorem returned_loaded (start : Load) (reloads : List Load) :
    otelShutdown start ∈ (loaded start reloads).returned := by
  have hcons : wholeCalls (start :: reloads) =
      [.init start.cfg start.fault, .finish 0] ++ wholeCalls reloads := rfl
  unfold loaded
  rw [hcons, run_append]
  refine run_invariant_of_step (fun w : World => otelShutdown start ∈ w.returned) ?_ ?_ _
  · intro w a hw
    exact (returned_step w a).subset hw
  · exact List.mem_singleton_self _

/-- When no call is under way, everything is flushed just when no provider is published. -/
theorem Reached.flushed_iff {w : World} (h : Reached w) (hcalls : w.calls = []) :
    Flushed w ↔ w.globals.globalTracerProvider = none := by
  constructor
  · rintro ⟨honce, -, -⟩
    by_contra hsome
    obtain ⟨tp, htp⟩ := Option.ne_none_iff_exists'.mp hsome
    have hbuilt : tp ∈ w.built := by
      apply h.owned.perm.mem_iff.mp
      rw [World.slot, htp]
      exact List.mem_cons_self
    have hshut : tp ∉ w.shut := h.owned.not_closed_of_current htp
    rw [← List.count_eq_zero, honce tp hbuilt] at hshut
    cases hshut
  · intro hnone
    refine ⟨?_, ?_, ?_⟩
    · intro tp htp
      have hplace := h.owned.replaced htp (by
        rw [World.slot, hnone]
        intro hcurrent
        cases hcurrent)
      have hpending : w.slot.pending = [] := by rw [World.slot, hcalls, List.filterMap_nil]
      rw [hpending] at hplace
      exact List.count_eq_one_of_mem h.owned.closed_nodup (hplace.resolve_left List.not_mem_nil)
    · rw [h.synced.tracer, hnone]
      rfl
    · rw [h.synced.active, hnone]
      rfl

/-- A shutdown function that is called when no call is under way flushes everything. -/
theorem flushed_by_shutdown {w : World} (h : Reached w) (hcalls : w.calls = [])
    (hkept : .ok .makeShutdown ∈ w.returned) : Flushed (run step w [.shutdown, .finish 0]) := by
  have hcan : w.canShutdown = true := List.any_eq_true.mpr ⟨_, hkept, rfl⟩
  have hreached := reached_step (reached_step h .shutdown) (.finish 0)
  refine (hreached.flushed_iff ?_).mpr ?_
  · simp [step, hcan, hcalls]
  · simp [step, hcan, hcalls, makeShutdown]

/-- A function that shuts down is kept just when tracing started with the program. -/
theorem otelShutdown_iff (start : Load) :
    otelShutdown start = .ok .makeShutdown ↔ enabled start.cfg = true ∧ start.fault = none := by
  obtain ⟨cfg, fault⟩ := start
  unfold otelShutdown initOtelTracer
  cases hon : enabled cfg with
  | false =>
    have hequal : otelConfigEqual Globals.initial.globalOtelConfig cfg = true := by
      unfold otelConfigEqual
      rw [hon]
      rfl
    dsimp only
    rw [if_pos hequal]
    simp
  | true =>
    have hother : ¬ otelConfigEqual Globals.initial.globalOtelConfig cfg = true := by
      intro hequal
      have hsame := enabled_eq_of_equal hequal
      rw [hon] at hsame
      cases hsame
    obtain ⟨c, rfl, hc⟩ : ∃ c, cfg = some c ∧ c.enabled = true := by
      cases cfg with
      | none => cases hon
      | some c => exact ⟨c, rfl, hon⟩
    dsimp only
    rw [if_neg hother]
    rcases fault with _ | ⟨err⟩ | ⟨err⟩ <;> simp [buildOtelProvider, hc]

/-! ## Whether tracing is on -/

theorem buildOtelProvider_isOk (id : Nat) (l : Load) :
    (buildOtelProvider id l.fault l.cfg).toOption.isSome = l.decides := by
  obtain ⟨cfg, fault⟩ := l
  unfold buildOtelProvider Load.decides
  cases cfg with
  | none => rfl
  | some c =>
    cases hc : c.enabled
    · simp [hc, enabled, Except.toOption]
    · rcases fault with _ | ⟨err⟩ | ⟨err⟩ <;> simp [hc, enabled, Except.toOption]

/-- A load that fails leaves tracing on or off, and so does one whose provider cannot be built but
is there already. -/
theorem enabled_applied_init {w : World} (h : Synced w.globals w.applied) (l : Load) :
    enabled (step w (.init l.cfg l.fault)).applied =
      if l.decides then enabled l.cfg else enabled w.applied := by
  have hbuild := buildOtelProvider_isOk (w.clock + 1) l
  by_cases hequal : otelConfigEqual w.globals.globalOtelConfig l.cfg = true
  · have hsame : enabled l.cfg = enabled w.applied := by
      rw [← enabled_eq_of_equal hequal, h.config, h.applied]
    simp only [step, initOtelTracer, if_pos hequal]
    rw [hsame, ite_self]
  · cases hb : buildOtelProvider (w.clock + 1) l.fault l.cfg with
    | error err =>
      rw [hb] at hbuild
      simp only [step, initOtelTracer, if_neg hequal, hb, ← hbuild]
      rfl
    | ok made =>
      rw [hb] at hbuild
      simp only [step, initOtelTracer, if_neg hequal, hb, ← hbuild]
      rfl

theorem enabled_applied_wholeCalls (loads : List Load) :
    enabled (run step .initial (wholeCalls loads)).applied =
      ((loads.filter Load.decides).getLast?.any fun l => enabled l.cfg) := by
  induction loads using List.reverseRecOn with
  | nil => rfl
  | append_singleton loads l ih =>
    have hsplit : wholeCalls (loads ++ [l]) =
        wholeCalls loads ++ [.init l.cfg l.fault] ++ [.finish 0] := by
      simp [wholeCalls]
    have hfinish : ∀ w : World, (run step w [.finish 0]).applied = w.applied := by
      intro w
      change (step w (.finish 0)).applied = _
      simp only [step]
      split <;> rfl
    rw [hsplit, run_append, hfinish, run_append]
    refine (enabled_applied_init (reached_run (wholeCalls loads)).synced l).trans ?_
    rw [ih, List.filter_append]
    cases hl : l.decides <;> simp [hl]

/-- Every provider that was built is shut down once when `RunServer` ends, and the state that does
nothing is published, exactly when tracing was started with the program, or the last load that says
whether it is on turns it off. -/
theorem shutdown_flushes_iff (start : Load) (reloads : List Load) :
    Flushed (runServer start reloads) ↔
      (enabled start.cfg = true ∧ start.fault = none) ∨
        ∀ l ∈ ((start :: reloads).filter Load.decides).getLast?, enabled l.cfg = false := by
  have hreached : Reached (loaded start reloads) := reached_run _
  have hcalls : (loaded start reloads).calls = [] := calls_wholeCalls rfl _
  unfold runServer
  rw [← otelShutdown_iff]
  by_cases hshutdown : otelShutdown start = .ok .makeShutdown
  · have hlast : lastCalls start = [.shutdown, .finish 0] := by rw [lastCalls, hshutdown]
    rw [hlast]
    exact iff_of_true (flushed_by_shutdown hreached hcalls (hshutdown ▸ returned_loaded start reloads))
      (.inl hshutdown)
  · have hlast : lastCalls start = [] := by
      unfold lastCalls
      split
      · rename_i hmake
        exact absurd hmake hshutdown
      · rfl
      · rfl
    have hoff := hreached.synced.applied.symm.trans (enabled_applied_wholeCalls (start :: reloads))
    rw [hlast, run_nil, hreached.flushed_iff hcalls, or_iff_right hshutdown,
      ← Option.not_isSome_iff_eq_none, hoff]
    cases ((start :: reloads).filter Load.decides).getLast? <;> simp

end

/-- Tracing is off at the start and a reload turns it on: its provider is never shut down. -/
theorem late_provider_is_not_shut_down :
    let w := runServer ⟨none, none⟩ [⟨some localCollector, none⟩]
    w.built = [⟨2, settings localCollector⟩] ∧ w.shut = [] ∧ isOtelActive w.globals = true ∧
      ¬ Flushed w := by
  refine ⟨rfl, rfl, rfl, fun hflushed => ?_⟩
  have hactive : isOtelActive (runServer ⟨none, none⟩ [⟨some localCollector, none⟩]).globals =
      true := rfl
  rw [hflushed.inactive] at hactive
  cases hactive

end vproxy.otel
