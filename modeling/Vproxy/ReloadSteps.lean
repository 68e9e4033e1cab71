-- A reload of the configuration file (watchConfig), with its tracing part. The upstreams, the
-- rules and the bypass nodes are replaced first. Then the rewrites may fail to compile, and after
-- that tracing may fail to start, and neither takes back what was done before.
import Vproxy.Handler
import Vproxy.OtelRuns

open go go.regexp

namespace vproxy

section

variable [Regexp] [Unicode]

/-! ## The parts of a reload -/

/-- The handler and the tracing state of a program that runs. -/
structure Running where
  handler : ProxyHandler
  tracing : otel.Globals

/-- What a configuration file says of tracing, the name of a new allocation, and how the build of
a provider goes. -/
structure TracingPart where
  cfg : Option otel.OtelConfig
  fresh : Nat
  fault : Option otel.Fault

/-- The reload step of `watchConfig` with a file that `LoadConfig` accepts. -/
def Running.watchConfig (s : Running) (cfg : Config) (t : TracingPart) : Running :=
  ⟨s.handler.watchConfig cfg, (otel.initOtelTracer t.fresh t.fault t.cfg s.tracing).1⟩

/-- The rewrites do not compile. -/
def RewritesFail (cfg : Config) : Prop := cfg.rewrites ≠ [] ∧ newRewriteEngine cfg.rewrites = none

def Running.TracingFails (s : Running) (t : TracingPart) : Prop :=
  ∃ err, (otel.initOtelTracer t.fresh t.fault t.cfg s.tracing).2.ret = .error err

/-- Some part of the file cannot be applied. -/
def Running.CannotApply (s : Running) (cfg : Config) (t : TracingPart) : Prop :=
  RewritesFail cfg ∨ s.TracingFails t

/-- The parts that a reload is about are the same. -/
structure Running.SameParts (s s' : Running) : Prop where
  servers : s.handler.sm.servers = s'.handler.sm.servers
  rules : s.handler.rm = s'.handler.rm
  bypassNodes : s.handler.bypassNodes = s'.handler.bypassNodes
  rewriteEngine : s.handler.rewriteEngine = s'.handler.rewriteEngine
  tracing : s.tracing = s'.tracing

/-- Every part of the file that can be applied is in force already. -/
structure Running.InForce (s : Running) (cfg : Config) (t : TracingPart) : Prop where
  servers : cfg.upstreams = s.handler.sm.servers
  rules : (newRuleManager cfg.rules).setDirectDNS (cfg.directDNS.getD true) = s.handler.rm
  bypassNodes : cfg.bypassNodes = s.handler.bypassNodes
  noRewrites : cfg.rewrites = [] → s.handler.rewriteEngine = none
  rewrites : cfg.rewrites ≠ [] → ∀ re, newRewriteEngine cfg.rewrites = some re →
    s.handler.rewriteEngine = some re
  tracing : s.TracingFails t ∨ otel.otelConfigEqual s.tracing.globalOtelConfig t.cfg = true

/-- The new allocation is not the snapshot that is published. -/
def Running.Fresh (s : Running) (t : TracingPart) : Prop :=
  ∀ state, s.tracing.globalState = some state → state.addr ≠ t.fresh

section

variable {s : Running} {cfg : Config} {t : TracingPart}

/-- Rewrites that fail keep the engine, and without rewrites there is none. -/
theorem rewriteEngine_kept_iff :
    (s.watchConfig cfg t).handler.rewriteEngine = s.handler.rewriteEngine ↔
      (cfg.rewrites = [] → s.handler.rewriteEngine = none) ∧
        (cfg.rewrites ≠ [] → ∀ re, newRewriteEngine cfg.rewrites = some re →
          s.handler.rewriteEngine = some re) := by
  have hengine : (s.watchConfig cfg t).handler.rewriteEngine =
      if cfg.rewrites ≠ [] then (newRewriteEngine cfg.rewrites).or s.handler.rewriteEngine
      else none := rfl
  rw [hengine]
  by_cases hnone : cfg.rewrites = []
  · simp [hnone, eq_comm]
  · cases hnew : newRewriteEngine cfg.rewrites with
    | none => simp [hnone]
    | some re => simp [hnone, eq_comm]

/-- Tracing that fails, or that does not change, is left as it is. -/
theorem tracing_kept_iff (hfresh : s.Fresh t) :
    (s.watchConfig cfg t).tracing = s.tracing ↔
      s.TracingFails t ∨ otel.otelConfigEqual s.tracing.globalOtelConfig t.cfg = true := by
  have htracing : (s.watchConfig cfg t).tracing =
      (otel.initOtelTracer t.fresh t.fault t.cfg s.tracing).1 := rfl
  rw [htracing]
  unfold Running.TracingFails
  rcases otel.initOtelTracer_cases t.fresh t.fault t.cfg s.tracing with
    ⟨hequal, hinit⟩ | ⟨err, hinit⟩ | ⟨tp, tracer, -, hinit⟩
  · rw [hinit]
    exact iff_of_true rfl (.inr hequal)
  · rw [hinit]
    exact iff_of_true rfl (.inl ⟨err, rfl⟩)
  · -- A new snapshot is published.
    rw [hinit]
    refine iff_of_false ?_ ?_
    · intro hsame
      exact hfresh _ (congrArg otel.Globals.globalState hsame).symm rfl
    · rintro (⟨err, herr⟩ | hequal)
      · cases herr
      · unfold otel.initOtelTracer at hinit
        rw [if_pos hequal] at hinit
        exact hfresh _ (congrArg otel.Globals.globalState (Prod.mk.inj hinit).1) rfl

end

/-- When some part of the file cannot be applied, the reload leaves everything as it was exactly
when the parts that can be applied are in force already. -/
theorem failed_reload_changes_nothing_iff (s : Running) (cfg : Config) (t : TracingPart)
    (hfresh : s.Fresh t) :
    (s.CannotApply cfg t → (s.watchConfig cfg t).SameParts s) ↔
      (s.CannotApply cfg t → s.InForce cfg t) := by
  apply forall_congr'
  intro _
  constructor
  · rintro ⟨hservers, hrules, hbypass, hengine, htracing⟩
    obtain ⟨hnone, hnew⟩ := rewriteEngine_kept_iff.mp hengine
    exact ⟨hservers, hrules, hbypass, hnone, hnew, (tracing_kept_iff hfresh).mp htracing⟩
  · rintro ⟨hservers, hrules, hbypass, hnone, hnew, htracing⟩
    exact ⟨hservers, hrules, hbypass, rewriteEngine_kept_iff.mpr ⟨hnone, hnew⟩,
      (tracing_kept_iff hfresh).mpr htracing⟩

end

/-! ## Two reloads -/

/-- A program that has one upstream and no tracing. -/
def oneUpstream : Running :=
  ⟨(setupServices ⟨0, 8118, 0⟩ (bareConfig [] [])).watchConfig
    { bareConfig [] [] with upstreams := ["socks5://10.0.0.1:1080"] }, .initial⟩

/-- Nothing but tracing changes in the file, and tracing fails. -/
theorem failed_tracing_changes_nothing :
    (oneUpstream.watchConfig { bareConfig [] [] with upstreams := ["socks5://10.0.0.1:1080"] }
      ⟨some otel.localCollector, 1, some (.exporter "refused")⟩).SameParts oneUpstream := by
  have hfails : oneUpstream.TracingFails ⟨some otel.localCollector, 1, some (.exporter "refused")⟩ :=
    ⟨_, rfl⟩
  have hfresh : oneUpstream.Fresh
      ⟨some otel.localCollector, 1, some (.exporter "refused")⟩ := by
    intro state hstate
    cases hstate
  refine (failed_reload_changes_nothing_iff _ _ _ hfresh).mpr ?_ (.inr hfails)
  intro _
  exact ⟨rfl, rfl, rfl, fun _ => rfl, fun hne => absurd rfl hne, .inl hfails⟩

/-- A file with another upstream and with rewrites that do not compile: the upstream is replaced. -/
theorem failed_rewrites_replace_the_upstreams :
    let cfg := { bareConfig ["/(/ http://b.cn"] [] with upstreams := ["http://10.0.0.2:3128"] }
    newRewriteEngine cfg.rewrites = none ∧
      (oneUpstream.watchConfig cfg ⟨none, 1, none⟩).handler.sm.servers =
        ["http://10.0.0.2:3128"] ∧
      ¬ (oneUpstream.watchConfig cfg ⟨none, 1, none⟩).SameParts oneUpstream := by
  intro cfg
  have hfails : (newRewriteEngine cfg.rewrites).isNone = true := by decide +kernel
  refine ⟨Option.isNone_iff_eq_none.mp hfails, rfl, fun hsame => ?_⟩
  exact absurd hsame.servers (by decide)

end vproxy
