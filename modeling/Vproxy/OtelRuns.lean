-- Any number of InitOtelTracer calls and shutdowns, in any order. The published snapshot, the
-- provider and the configuration stay together, and every provider that was replaced is shut
-- down once, or its turn is still to come.
import Vproxy.Handover
import Vproxy.Otel
import Vproxy.Runs

open go

namespace vproxy.otel

/-! ## Calls -/

/-- A call that has released the lock. -/
inductive Call where
  | init (call : Unlocked)
  | shutdown (old : Option TracerProvider)

/-- What the call hands to `shutdownProvider`. -/
def Call.old : Call → Option TracerProvider
  | init call => call.old
  | shutdown old => old

/-- What a call of `InitOtelTracer` returns. -/
def Call.ret : Call → Option (Except Str Closure)
  | init call => some call.ret
  | shutdown _ => none

structure World where
  globals : Globals
  calls : List Call
  returned : List (Except Str Closure)
  /-- The providers that `Shutdown` was called on, in order. -/
  shut : List TracerProvider
  /-- How many names for new allocations were given out. -/
  clock : Nat
  /-- History: every provider that was built. -/
  built : List TracerProvider
  /-- History: the configuration of the last `InitOtelTracer` call that did not fail, until a
  shutdown function takes it back. -/
  applied : Option OtelConfig

def World.initial : World := ⟨.initial, [], [], [], 0, [], none⟩

inductive Act where
  /-- A call of `InitOtelTracer`, up to where it releases the lock. -/
  | init (cfg : Option OtelConfig) (fault : Option Fault)
  /-- A call of a function that `InitOtelTracer` has returned, up to the same place. -/
  | shutdown
  /-- The rest of the call at this place of the list: `shutdownProvider`, outside the lock. -/
  | finish (i : Nat)

/-- Some caller has a shutdown function in hand. -/
def World.canShutdown (w : World) : Bool := w.returned.any fun ret => ret matches .ok .makeShutdown

variable [Unicode]

def step (w : World) : Act → World
  | .init cfg fault =>
    let (g, call) := initOtelTracer (w.clock + 1) fault cfg w.globals
    { w with
      globals := g
      calls := w.calls ++ [.init call]
      clock := w.clock + 1
      built := w.built ++ call.tp.toList
      applied := match call.ret with
        | .ok _ => cfg
        | .error _ => w.applied }
  | .shutdown =>
    if w.canShutdown then
      { w with
        globals := makeShutdown w.globals
        calls := w.calls ++ [.shutdown w.globals.globalTracerProvider]
        applied := none }
    else w
  | .finish i =>
    match w.calls[i]? with
    | none => w
    | some call =>
      { w with
        calls := w.calls.eraseIdx i
        returned := w.returned ++ call.ret.toList
        shut := w.shut ++ call.old.toList }

/-! ## One call of InitOtelTracer -/

/-- The three ways through the locked part of `InitOtelTracer`. -/
theorem initOtelTracer_cases (fresh : Nat) (fault : Option Fault) (cfg : Option OtelConfig)
    (g : Globals) :
    (otelConfigEqual g.globalOtelConfig cfg ∧
      initOtelTracer fresh fault cfg g =
        (g, ⟨none, none, .ok (if enabled cfg then .makeShutdown else .nothing)⟩)) ∨
    (∃ err, initOtelTracer fresh fault cfg g = (g, ⟨none, none, .error err⟩)) ∨
    (∃ tp tracer, buildOtelProvider fresh fault cfg = .ok (tp, tracer) ∧
      initOtelTracer fresh fault cfg g =
        (⟨some ⟨fresh, tracer, tp.isSome⟩, tp, cfg⟩,
          ⟨tp, g.globalTracerProvider, .ok (if tp.isSome then .makeShutdown else .nothing)⟩)) := by
  unfold initOtelTracer
  split
  · rename_i hequal
    exact .inl ⟨hequal, rfl⟩
  · split
    · rename_i err _
      exact .inr (.inl ⟨err, rfl⟩)
    · rename_i tp tracer hbuild
      exact .inr (.inr ⟨tp, tracer, hbuild, rfl⟩)

/-- What a build gives: nothing for a configuration that is off, and otherwise a provider with the
settings of the configuration. -/
theorem buildOtelProvider_ok {id : Nat} {fault : Option Fault} {cfg : Option OtelConfig}
    {tp : Option TracerProvider} {tracer : Tracer}
    (h : buildOtelProvider id fault cfg = .ok (tp, tracer)) :
    (enabled cfg = false ∧ tp = none ∧ tracer = .noop) ∨
      ∃ c, cfg = some c ∧ c.enabled ∧ tp = some ⟨id, settings c⟩ ∧
        tracer = .of ⟨id, settings c⟩ (settings c).serviceName := by
  unfold buildOtelProvider at h
  split at h
  · cases h
    exact .inl ⟨rfl, rfl, rfl⟩
  · rename_i c
    split at h
    · rename_i hoff
      cases h
      exact .inl ⟨by simpa [enabled] using hoff, rfl, rfl⟩
    · rename_i hon
      split at h
      · cases h
      · cases h
      · cases h
        exact .inr ⟨c, rfl, by simpa using hon, rfl, rfl⟩

/-! ## The snapshot, the provider and the configuration -/

def Tracer.ofProvider : Option TracerProvider → Tracer
  | none => .noop
  | some tp => .of tp tp.settings.serviceName

/-- The globals say one thing, and it is what was applied last. -/
structure Synced (g : Globals) (last : Option OtelConfig) : Prop where
  active : isOtelActive g = g.globalTracerProvider.isSome
  tracer : getOtelTracer g = .ofProvider g.globalTracerProvider
  config : enabled g.globalOtelConfig = g.globalTracerProvider.isSome
  applied : enabled last = g.globalTracerProvider.isSome
  configSettings : ∀ tp ∈ g.globalTracerProvider, ∀ cfg ∈ g.globalOtelConfig,
    tp.settings = settings cfg
  appliedSettings : ∀ tp ∈ g.globalTracerProvider, ∀ cfg ∈ last, tp.settings = settings cfg

theorem synced_initial : Synced .initial none where
  active := rfl
  tracer := rfl
  config := rfl
  applied := rfl
  configSettings := nofun
  appliedSettings := nofun

theorem synced_makeShutdown (g : Globals) : Synced (makeShutdown g) none where
  active := rfl
  tracer := rfl
  config := rfl
  applied := rfl
  configSettings := nofun
  appliedSettings := nofun

/-- A configuration that compares as equal is in force already. -/
theorem Synced.of_equal {g : Globals} {last cfg : Option OtelConfig} (h : Synced g last)
    (hequal : otelConfigEqual g.globalOtelConfig cfg) : Synced g cfg := by
  refine ⟨h.active, h.tracer, h.config, ?_, h.configSettings, ?_⟩
  · rw [← enabled_eq_of_equal hequal, h.config]
  · rintro tp htp c rfl
    have hon : enabled g.globalOtelConfig := by rw [h.config, Option.mem_def.mp htp, Option.isSome]
    cases hold : g.globalOtelConfig with
    | none => simp [hold, enabled] at hon
    | some old =>
      rw [h.configSettings tp htp old hold]
      rw [hold] at hon hequal
      exact settings_eq_of_equal hon hequal

/-- What a build gives can be published. -/
theorem synced_publish {fresh : Nat} {fault : Option Fault} {cfg : Option OtelConfig}
    {tp : Option TracerProvider} {tracer : Tracer}
    (hbuild : buildOtelProvider fresh fault cfg = .ok (tp, tracer)) :
    Synced ⟨some ⟨fresh, tracer, tp.isSome⟩, tp, cfg⟩ cfg := by
  rcases buildOtelProvider_ok hbuild with ⟨hoff, rfl, rfl⟩ | ⟨c, rfl, hon, rfl, rfl⟩
  · exact ⟨rfl, rfl, hoff, hoff, nofun, nofun⟩
  · have hsettings : ∀ tp ∈ some (⟨fresh, settings c⟩ : TracerProvider), ∀ cfg ∈ some c,
        tp.settings = settings cfg := by
      rintro tp ⟨⟩ cfg ⟨⟩
      rfl
    exact ⟨rfl, rfl, hon, hon, hsettings, hsettings⟩

theorem synced_step {w : World} (h : Synced w.globals w.applied) (a : Act) :
    Synced (step w a).globals (step w a).applied := by
  cases a with
  | init cfg fault =>
    simp only [step]
    rcases initOtelTracer_cases (w.clock + 1) fault cfg w.globals with
      ⟨hequal, hinit⟩ | ⟨err, hinit⟩ | ⟨tp, tracer, hbuild, hinit⟩
    · rw [hinit]
      exact h.of_equal hequal
    · rw [hinit]
      exact h
    · rw [hinit]
      exact synced_publish hbuild
  | shutdown =>
    simp only [step]
    split
    · exact synced_makeShutdown w.globals
    · exact h
  | finish i =>
    simp only [step]
    split <;> exact h

/-! ## The providers -/

/-- Where each provider is. -/
def World.slot (w : World) : handover.Slot TracerProvider where
  current := w.globals.globalTracerProvider
  pending := w.calls.filterMap Call.old
  closed := w.shut
  built := w.built

omit [Unicode] in
theorem filterMap_old_append (calls : List Call) (call : Call) :
    (calls ++ [call]).filterMap Call.old = calls.filterMap Call.old ++ call.old.toList := by
  rw [List.filterMap_append]
  cases h : call.old <;> simp [h]

/-- The names of the providers so far. -/
def NamesUsed (w : World) : Prop := ∀ tp ∈ w.built, tp.id ≤ w.clock

theorem namesUsed_step {w : World} (h : NamesUsed w) (a : Act) : NamesUsed (step w a) := by
  cases a with
  | init cfg fault =>
    intro tp htp
    simp only [step] at htp ⊢
    rw [List.mem_append] at htp
    rcases htp with hold | hnew
    · exact Nat.le_succ_of_le (h tp hold)
    · rcases initOtelTracer_cases (w.clock + 1) fault cfg w.globals with
        ⟨_, hinit⟩ | ⟨err, hinit⟩ | ⟨tp', tracer, hbuild, hinit⟩
      · simp [hinit] at hnew
      · simp [hinit] at hnew
      · rw [hinit, Option.mem_toList] at hnew
        rcases buildOtelProvider_ok hbuild with ⟨_, rfl, _⟩ | ⟨c, _, _, rfl, _⟩
        · cases hnew
        · cases hnew
          exact Nat.le_refl _
  | shutdown =>
    simp only [step]
    split <;> exact h
  | finish i =>
    simp only [step]
    split <;> exact h

/-- A new provider takes the place of the old one. -/
theorem slot_publish {w : World} (h : NamesUsed w) {cfg : Option OtelConfig}
    {fault : Option Fault} {tp : Option TracerProvider} {tracer : Tracer}
    (hbuild : buildOtelProvider (w.clock + 1) fault cfg = .ok (tp, tracer)) :
    handover.Step w.slot
      ⟨tp, w.slot.pending ++ w.slot.current.toList, w.slot.closed, w.slot.built ++ tp.toList⟩ := by
  apply handover.Step.replace
  intro p hp hmem
  rcases buildOtelProvider_ok hbuild with ⟨_, rfl, _⟩ | ⟨c, _, _, rfl, _⟩
  · cases hp
  · cases hp
    exact Nat.not_succ_le_self _ (h _ hmem)

omit [Unicode] in
theorem calls_split {calls : List Call} {i : Nat} {call : Call} (h : calls[i]? = some call) :
    calls = calls.take i ++ call :: calls.drop (i + 1) := by
  obtain ⟨hi, hget⟩ := List.getElem?_eq_some_iff.mp h
  rw [← hget, ← List.drop_eq_getElem_cons hi, List.take_append_drop]

omit [Unicode] in
/-- The end of a call closes what the call has taken. -/
theorem slot_finish {w : World} {i : Nat} {call : Call} (h : w.calls[i]? = some call) {s : World}
    (hs : s.slot = ⟨w.slot.current, (w.calls.eraseIdx i).filterMap Call.old,
      w.slot.closed ++ call.old.toList, w.slot.built⟩) :
    s.slot = w.slot ∨ handover.Step w.slot s.slot := by
  have hpending : w.slot.pending = (w.calls.take i).filterMap Call.old ++
      (call.old.toList ++ (w.calls.drop (i + 1)).filterMap Call.old) := by
    conv_lhs => rw [World.slot, calls_split h, List.filterMap_append, List.filterMap_cons]
    cases call.old <;> rfl
  rw [hs, List.eraseIdx_eq_take_drop_succ, List.filterMap_append]
  cases hold : call.old with
  | none =>
    left
    rw [hold] at hpending
    rw [Option.toList_none, List.append_nil]
    exact congrArg (handover.Slot.mk _ · _ _) hpending.symm
  | some tp =>
    right
    rw [hold] at hpending
    exact handover.Step.close w.slot _ _ tp hpending

/-- Each step of the calls is a step of the handover, or moves no provider. -/
theorem slot_step {w : World} (h : NamesUsed w) (a : Act) :
    (step w a).slot = w.slot ∨ handover.Step w.slot (step w a).slot := by
  cases a with
  | init cfg fault =>
    rcases initOtelTracer_cases (w.clock + 1) fault cfg w.globals with
      ⟨_, hinit⟩ | ⟨err, hinit⟩ | ⟨tp, tracer, hbuild, hinit⟩
    · left
      simp [step, World.slot, hinit, Call.old]
    · left
      simp [step, World.slot, hinit, Call.old]
    · right
      simp only [step, World.slot, hinit, filterMap_old_append]
      exact slot_publish h hbuild
  | shutdown =>
    simp only [step]
    split
    · right
      have hreplace := handover.Step.replace w.slot none nofun
      rw [Option.toList_none, List.append_nil] at hreplace
      simp only [World.slot, filterMap_old_append]
      exact hreplace
    · exact .inl rfl
  | finish i =>
    simp only [step]
    split
    · exact .inl rfl
    · rename_i call hcall
      exact slot_finish hcall rfl

/-- All that is known of a world that some run has reached. -/
structure Reached (w : World) : Prop where
  synced : Synced w.globals w.applied
  names : NamesUsed w
  owned : handover.Owned w.slot

theorem reached_step {w : World} (h : Reached w) (a : Act) : Reached (step w a) := by
  refine ⟨synced_step h.synced a, namesUsed_step h.names a, ?_⟩
  rcases slot_step h.names a with hsame | hstep
  · rw [hsame]
    exact h.owned
  · exact h.owned.step hstep

theorem reached_run (acts : List Act) : Reached (runs.run step .initial acts) := by
  have h0 : Reached .initial := ⟨synced_initial, fun _ => nofun, handover.owned_empty⟩
  exact runs.run_invariant_of_step Reached (fun _ a h => reached_step h a) h0 acts

/-- The snapshot is active exactly when there is a provider and the configuration is enabled. Then
the snapshot's tracer belongs to the provider, which has the settings that were applied last. -/
structure Consistent (w : World) : Prop where
  active_iff : isOtelActive w.globals ↔ w.globals.globalTracerProvider ≠ none
  enabled_iff : w.globals.globalTracerProvider ≠ none ↔ enabled w.globals.globalOtelConfig
  tracer : ∀ tp, w.globals.globalTracerProvider = some tp →
    getOtelTracer w.globals = .of tp tp.settings.serviceName ∧
      ∃ cfg, w.applied = some cfg ∧ cfg.enabled ∧ tp.settings = settings cfg
  off : w.globals.globalTracerProvider = none →
    getOtelTracer w.globals = .noop ∧ ¬ enabled w.applied

theorem Synced.consistent {w : World} (h : Synced w.globals w.applied) : Consistent w := by
  refine ⟨?_, ?_, ?_, ?_⟩
  · rw [h.active, Option.isSome_iff_ne_none]
  · rw [h.config, Option.isSome_iff_ne_none]
  · intro tp htp
    have hon : enabled w.applied := by rw [h.applied, htp, Option.isSome]
    refine ⟨by rw [h.tracer, htp]; rfl, ?_⟩
    cases hlast : w.applied with
    | none => simp [hlast, enabled] at hon
    | some cfg =>
      rw [hlast] at hon
      exact ⟨cfg, rfl, hon, h.appliedSettings tp htp cfg hlast⟩
  · intro hnone
    rw [h.tracer, h.applied, hnone]
    exact ⟨rfl, Bool.false_ne_true⟩

/-- A collector at the default place. -/
def localCollector : OtelConfig := ⟨true, [], [], true, [], .zero⟩

end vproxy.otel
