-- The tracing state (otel.go): how a provider is built from a configuration, when two
-- configurations count as the same, and what the writers do while they hold the lock.
import Vproxy.Floats
import Vproxy.Strings

open go floats

namespace vproxy.otel

/-! ## Configurations and providers -/

structure OtelConfig where
  enabled : Bool
  endpoint : Str
  protocol : Str
  insecure : Bool
  serviceName : Str
  sampleRate : F64
  deriving DecidableEq, Repr

/-- Not nil, and enabled. -/
def enabled (cfg : Option OtelConfig) : Bool := cfg.any (·.enabled)

inductive Transport where
  | http
  | grpc
  deriving DecidableEq, Repr

inductive Sampler where
  | alwaysSample
  | traceIDRatioBased (rate : F64)
  deriving DecidableEq, Repr

/-- What a provider exports, where to and how. -/
structure Settings where
  endpoint : Str
  transport : Transport
  insecure : Bool
  serviceName : Str
  sampler : Sampler
  deriving DecidableEq, Repr

/-- A provider of the SDK. Two providers with the same settings are still two. -/
structure TracerProvider where
  id : Nat
  settings : Settings
  deriving DecidableEq, Repr

inductive Tracer where
  | noop
  | of (provider : TracerProvider) (name : Str)
  deriving DecidableEq, Repr

/-- Where `buildOtelProvider` fails, with the error it was given there. -/
inductive Fault where
  | exporter (err : Str)
  | resource (err : Str)
  deriving DecidableEq, Repr

def orDefault (s default : Str) : Str := if s = [] then default else s

def defaultEndpoint : Str := "localhost:4317"

def defaultService : Str := "vproxy"

def sampleRate (rate : F64) : F64 := if rate.le .zero then .one else rate

theorem sampleRate_not_le_zero (rate : F64) : (sampleRate rate).le .zero = false := by
  unfold sampleRate
  split
  · decide
  · rename_i h
    simpa using h

def sampler (rate : F64) : Sampler :=
  if F64.one.le (sampleRate rate) then .alwaysSample else .traceIDRatioBased (sampleRate rate)

section

variable [Unicode]

def transport (protocol : Str) : Transport :=
  if toLower protocol = "http".toList then .http else .grpc

/-- What `buildOtelProvider` takes from a configuration. -/
def settings (cfg : OtelConfig) : Settings where
  endpoint := orDefault cfg.endpoint defaultEndpoint
  transport := transport cfg.protocol
  insecure := cfg.insecure
  serviceName := orDefault cfg.serviceName defaultService
  sampler := sampler cfg.sampleRate

/-- `id` tells the new provider from all others. -/
def buildOtelProvider (id : Nat) (fault : Option Fault) (cfg : Option OtelConfig) :
    Except Str (Option TracerProvider × Tracer) :=
  match cfg with
  | none => .ok (none, .noop)
  | some cfg =>
    if !cfg.enabled then .ok (none, .noop)
    else
      match fault with
      | some (.exporter err) => .error ("create otlp exporter: ".toList ++ err)
      | some (.resource err) => .error ("create otel resource: ".toList ++ err)
      | none =>
        let tp : TracerProvider := ⟨id, settings cfg⟩
        .ok (some tp, .of tp (settings cfg).serviceName)

/-- The rates are compared as numbers, the texts after their defaults. -/
def otelConfigEqual (a b : Option OtelConfig) : Bool :=
  if !enabled a && !enabled b then true
  else if enabled a != enabled b then false
  else
    match a, b with
    | some a, some b =>
      orDefault a.endpoint defaultEndpoint == orDefault b.endpoint defaultEndpoint &&
        orDefault (toLower a.protocol) "grpc" == orDefault (toLower b.protocol) "grpc" &&
        a.insecure == b.insecure &&
        orDefault a.serviceName defaultService == orDefault b.serviceName defaultService &&
        (sampleRate a.sampleRate).eq (sampleRate b.sampleRate)
    -- Both are enabled here, so neither is nil.
    | _, _ => false

/-- A protocol that was not given counts as gRPC on both ways. -/
theorem transport_eq_of_orDefault {p q : Str}
    (h : orDefault (toLower p) "grpc" = orDefault (toLower q) "grpc") :
    transport p = transport q := by
  have hhttp : ∀ p : Str, toLower p = "http".toList ↔
      orDefault (toLower p) "grpc" = "http".toList := by
    intro p
    unfold orDefault
    split
    · rename_i hnil
      rw [hnil]
      decide
    · rfl
  simp only [transport, hhttp, h]

/-- Configurations that compare as equal are enabled together. -/
theorem enabled_eq_of_equal {a b : Option OtelConfig} (h : otelConfigEqual a b) :
    enabled a = enabled b := by
  unfold otelConfigEqual at h
  split at h
  · rename_i hboth
    simp only [Bool.and_eq_true, Bool.not_eq_true'] at hboth
    rw [hboth.1, hboth.2]
  · split at h
    · cases h
    · rename_i hsame
      simpa using hsame

/-- The comparison is sound: equal configurations give the same settings. -/
theorem settings_eq_of_equal {a b : OtelConfig} (ha : a.enabled)
    (h : otelConfigEqual (some a) (some b)) : settings a = settings b := by
  have hb : b.enabled := (enabled_eq_of_equal h).symm.trans ha
  simp only [otelConfigEqual, enabled, Option.any_some, ha, hb, Bool.not_true, Bool.and_self,
    Bool.false_eq_true, if_false, bne_self_eq_false, Bool.and_eq_true, beq_iff_eq] at h
  obtain ⟨⟨⟨⟨hendpoint, hproto⟩, hinsecure⟩, hservice⟩, hrate⟩ := h
  have hrate' : sampleRate a.sampleRate = sampleRate b.sampleRate :=
    F64.eq_of_eq_of_not_le_zero hrate (sampleRate_not_le_zero _) (sampleRate_not_le_zero _)
  simp only [settings, sampler, hendpoint, transport_eq_of_orDefault hproto, hinsecure, hservice,
    hrate']

end

/-! ## The published state -/

/-- A snapshot, and which allocation it is. -/
structure OtelState where
  addr : Nat
  tracer : Tracer
  active : Bool
  deriving DecidableEq, Repr

def noopState : OtelState := ⟨0, .noop, false⟩

structure Globals where
  globalState : Option OtelState
  globalTracerProvider : Option TracerProvider
  globalOtelConfig : Option OtelConfig
  deriving DecidableEq, Repr

def Globals.initial : Globals := ⟨none, none, none⟩

def currentState (g : Globals) : OtelState := g.globalState.getD noopState

def isOtelActive (g : Globals) : Bool := (currentState g).active

def getOtelTracer (g : Globals) : Tracer := (currentState g).tracer

/-- The functions that `InitOtelTracer` returns: one that does nothing, and `makeShutdown`. -/
inductive Closure where
  | nothing
  | makeShutdown
  deriving DecidableEq, Repr

/-- A call of `InitOtelTracer` that has released the lock. It has the provider that it built, and
it has left to shut the old one down and to return. -/
structure Unlocked where
  tp : Option TracerProvider
  old : Option TracerProvider
  ret : Except Str Closure

/-- The part of a shutdown function under the lock. -/
def makeShutdown (_ : Globals) : Globals := ⟨some noopState, none, none⟩

section

variable [Unicode]

/-- The part of `InitOtelTracer` under the lock. `fresh` names what it allocates. -/
def initOtelTracer (fresh : Nat) (fault : Option Fault) (cfg : Option OtelConfig) (g : Globals) :
    Globals × Unlocked :=
  if otelConfigEqual g.globalOtelConfig cfg then
    (g, ⟨none, none, .ok (if enabled cfg then .makeShutdown else .nothing)⟩)
  else
    match buildOtelProvider fresh fault cfg with
    | .error err => (g, ⟨none, none, .error err⟩)
    | .ok (tp, tracer) =>
      (⟨some ⟨fresh, tracer, tp.isSome⟩, tp, cfg⟩,
        ⟨tp, g.globalTracerProvider, .ok (if tp.isSome then .makeShutdown else .nothing)⟩)

end

end vproxy.otel
