-- RunWrapper (app.go): a command is run with the redirection of its own, and the redirection is
-- taken away when the command has ended or a signal has come. The goroutine that waits for the
-- command and the one that waits for the signal call the same cleanup, at the same time.
import Vproxy.Dial
import Vproxy.SelfHeal
import Vproxy.ScriptCrowds

open go go.net netfilter

namespace vproxy.wrapper

open iptables

/-! ## What the command needs -/

/-- What `RunWrapper` finds. -/
structure Setting where
  /-- `runtime.GOOS == "linux"`, where the kernel is taken to support the hooks. -/
  linux : Bool
  /-- `VP_USE_TUN` is 1. -/
  useTun : Bool
  /-- `VP_FORCE_IPTABLES` is 1. -/
  forceIptables : Bool
  enableEbpf : Option Bool
  /-- `args[0]`. -/
  command : Str
  /-- `ph.TransPort`, after the transparent bridge has its port. -/
  transPort : Nat
  /-- The PID file is there, at the first look and at the second. -/
  daemon : Bool
  daemonLater : Bool
  /-- `GetBestServer()` and `GetServers()`. -/
  best : Str
  servers : List Str
  deriving DecidableEq, Repr

/-- What the system answers. -/
structure Answers where
  /-- The process can move itself to the cgroup, or the daemon moves it. -/
  moves : Bool
  attaches : Bool
  repairs : Bool
  attachesAgain : Bool
  /-- `CheckPermission` and `EnsureVProxyCgroup` succeed. -/
  permission : Bool
  cgroup : Bool
  loadFails : Bool
  /-- How many commands of `SetupRules` are run before one fails. -/
  setupStops : Option Nat
  /-- `StartHTTP` and `StartSocks` succeed. -/
  startsHTTP : Bool
  startsSocks : Bool
  deriving DecidableEq, Repr

def Setting.baseName (w : Setting) : Str := vproxy.base w.command

/-- The tools that are not intercepted. -/
def proxyAware : List Str := ["curl", "git", "code", "gemini", "test_ebpf", "test_tproxy"]

structure Needs where
  ebpf : Bool
  transparent : Bool
  bridges : Bool
  deriving DecidableEq, Repr

def needs (w : Setting) : Needs :=
  if w.useTun then ⟨false, true, true⟩
  else if w.baseName ∈ proxyAware then ⟨false, false, true⟩
  else if w.baseName = ("agy" : Str) then ⟨true, true, false⟩
  else ⟨true, true, true⟩

/-- The upstream that is taken: the best one, or the first where none is verified. -/
def Setting.upstream (w : Setting) : Option Str :=
  if w.best ≠ [] then some w.best else w.servers.head?

/-- `skipPrivileged`, after the second look. -/
def Setting.skipPrivileged (w : Setting) : Bool := w.daemon || w.daemonLater

def Setting.enabled (w : Setting) : Bool := w.enableEbpf == some true

/-- `isUpstreamTProxyAlive`; an upstream that is not verified does not count. -/
def Setting.tproxy (w : Setting) : Option url.URL := heal.upstreamTProxy w.best

/-- The process is in the cgroup, by itself or by the daemon, which may have to repair itself. -/
def migrates (w : Setting) (ans : Answers) : Bool :=
  ans.moves || ans.attaches || w.skipPrivileged && ans.repairs && ans.attachesAgain

/-! ## The process -/

section

variable {F : Type}

/-- A command of `CleanupRules`. -/
abbrev CleanupLine (F : Type) := Line (Chain F) (iptables.Rule F) Place Entry

/-- Where a goroutine is in `cleanup`. -/
inductive Stage (F : Type) where
  /-- Before `ebpfResult != nil`. -/
  | check
  /-- Before `ebpfResult.Unload()`, which reads the variable again. -/
  | unload
  /-- Before `ebpfResult = nil`. -/
  | clear
  /-- In `CleanupRules`, with the commands that are left. -/
  | rules (left : List (CleanupLine F))
  /-- Before `ph.Stop()` and `sm.Stop()`. -/
  | stop

/-- Which call of `cleanup` it is: that of the signal handler, the one after the command, which
knows whether the command succeeded, or the deferred one. -/
inductive Round where
  | handler
  | first (ok : Bool)
  | deferred
  deriving DecidableEq, Repr

inductive Thread (F : Type) where
  | absent
  | waiting
  | cleaning (stage : Stage F) (round : Round)

/-- What the goroutines share. -/
structure Shared (F : Type) where
  net : Net F
  /-- `ebpfResult != nil`. -/
  ebpfResult : Bool

structure Process (F : Type) where
  shared : Shared F
  needsEbpf : Bool
  linux : Bool
  /-- `cleanup` is called when the command has ended. -/
  cleans : Bool
  main : Thread F
  handler : Thread F
  ended : Bool

/-- `os.Exit` before the command was run. -/
def Process.gone (net : Net F) : Process F where
  shared := ⟨net, false⟩
  needsEbpf := false
  linux := false
  cleans := false
  main := .absent
  handler := .absent
  ended := true

/-- The command runs, and nothing was set up for it. -/
def Process.plain (w : Setting) (net : Net F) (needsEbpf cleans : Bool) : Process F where
  shared := ⟨net, false⟩
  needsEbpf := needsEbpf
  linux := w.linux
  cleans := cleans
  main := .waiting
  handler := .absent
  ended := false

/-- The command runs with a redirection, and the handler waits for signals. -/
def Process.intercepting (w : Setting) (net : Net F) (ebpfResult : Bool) : Process F where
  shared := ⟨net, ebpfResult⟩
  needsEbpf := true
  linux := w.linux
  cleans := true
  main := .waiting
  handler := .waiting
  ended := false

/-- The bridges of a command that is not intercepted. An upstream that is no URL is a nil pointer:
the panic runs the deferred cleanup. -/
def bridge (w : Setting) (ans : Answers) (best : Str) (net : Net F) : Process F :=
  let waiting := Process.plain w net false true
  if !(needs w).bridges then waiting
  else
    match url.parse best with
    | none => { waiting with main := .cleaning .check .deferred }
    | some u =>
      if u.scheme ≠ ("http" : Str) ∧ ans.startsHTTP = false then .gone net
      else if w.baseName ∉ (["curl", "git", "gemini"] : List Str) ∧
          u.scheme ≠ ("socks5" : Str) ∧ ans.startsSocks = false then .gone net
      else waiting

variable [DecidableEq F] [Fintype F]

/-- The redirection of the command: the kernel hooks, or else the rules. -/
def intercept (w : Setting) (ans : Answers) (target : Str) (net : Net F) : Process F :=
  if !w.forceIptables && !ans.loadFails then .intercepting w net true
  else
    match ans.setupStops with
    | none => .intercepting w (setup net ⟨target, false⟩) false
    | some n => .gone (runScript net ((setupLines target false).take n)).1

/-- The part of `RunWrapper` for a kernel that can redirect. -/
def transparent (w : Setting) (ans : Answers) (best : Str) (net : Net F) : Process F :=
  if !w.skipPrivileged && !w.useTun && (!ans.permission || !ans.cgroup) then .gone net
  else
    match w.tproxy with
    | some u =>
      if (needs w).ebpf then intercept w ans u.host net else bridge w ans best net
    | none =>
      -- a daemon that runs redirects for everyone
      if !w.skipPrivileged && (needs w).ebpf then intercept w ans (itoa w.transPort) net
      else bridge w ans best net

/-- `RunWrapper`, up to where the command runs. -/
def start (w : Setting) (ans : Answers) (net : Net F) : Process F :=
  let need := needs w
  if w.daemon && !need.ebpf && need.bridges && !w.useTun then .plain w net false false
  else
    match w.upstream with
    | none => .gone net
    | some best =>
      if need.ebpf && w.enabled && w.linux && !migrates w ans && !w.skipPrivileged then .gone net
      else if (need.ebpf || w.skipPrivileged) && (w.useTun || w.enabled) && w.linux &&
          need.transparent then transparent w ans best net
      else if need.ebpf then .plain w net true true
      else bridge w ans best net

/-! ## The end of the command -/

inductive Next (F : Type) where
  | goesTo (stage : Stage F)
  | returns
  | panics

/-- One step of `cleanup`; `rules` says that the rules are to be cleaned. -/
def cleanupStep (rules : Bool) (m : Shared F) : Stage F → Shared F × Next F
  | .check =>
    if m.ebpfResult then (m, .goesTo .unload)
    else if rules then (m, .goesTo (.rules cleanupLines))
    else (m, .goesTo .stop)
  -- the other goroutine may have cleared the variable since it was checked
  | .unload => if m.ebpfResult then (m, .goesTo .clear) else (m, .panics)
  | .clear => ({ m with ebpfResult := false }, .goesTo .stop)
  | .rules [] => (m, .goesTo .stop)
  | .rules (l :: left) => ({ m with net := attempt m.net l.cmd }, .goesTo (.rules left))
  | .stop => (m, .returns)

/-- After a call of the main goroutine. A panic runs the deferred call, an error of the command
ends the process without it. -/
def Process.mainAfter (p : Process F) (panics : Bool) : Round → Process F
  | .first ok =>
    if ok || panics then { p with main := .cleaning .check .deferred } else { p with ended := true }
  | .deferred | .handler => { p with ended := true }

def Process.mainStep (p : Process F) : Process F :=
  match p.main with
  | .cleaning stage round =>
    match cleanupStep (p.needsEbpf && p.linux) p.shared stage with
    | (m, .goesTo stage) => { p with shared := m, main := .cleaning stage round }
    | (m, .panics) => { p with shared := m }.mainAfter true round
    | (m, .returns) => { p with shared := m }.mainAfter false round
  | .absent | .waiting => p

def Process.handlerStep (p : Process F) : Process F :=
  match p.handler with
  | .cleaning stage round =>
    match cleanupStep (p.needsEbpf && p.linux) p.shared stage with
    | (m, .goesTo stage) => { p with shared := m, handler := .cleaning stage round }
    | (m, .panics) | (m, .returns) => { p with shared := m, ended := true }
  | .absent | .waiting => p

/-- What can happen. A goroutine can panic in `ph.Stop`, where the other one closes the same
listeners. -/
inductive Tick where
  | commandEnds (ok : Bool)
  | signal
  | main
  | handler
  | mainPanics
  | handlerPanics
  deriving DecidableEq, Repr

def Process.happens (p : Process F) : Tick → Process F
  | .commandEnds ok =>
    match p.main with
    | .waiting =>
      if p.cleans then { p with main := .cleaning .check (.first ok) }
      else { p with ended := true }
    | .absent | .cleaning _ _ => p
  | .signal =>
    match p.handler with
    | .absent => { p with ended := true }
    | .waiting => { p with handler := .cleaning .check .handler }
    | .cleaning _ _ => p
  | .main => p.mainStep
  | .handler => p.handlerStep
  | .mainPanics =>
    match p.main with
    | .cleaning .stop round => p.mainAfter true round
    | _ => p
  | .handlerPanics =>
    match p.handler with
    | .cleaning .stop _ => { p with ended := true }
    | _ => p

def Process.tick (p : Process F) (t : Tick) : Process F := if p.ended then p else p.happens t

section

variable {base last : Shared F → Prop} {holds : Stage F → Shared F → Prop} {rules : Bool}

/-- How `cleanup` goes on from a stage. -/
inductive Goes (rules : Bool) (m : Shared F) : Stage F → Shared F → Stage F → Prop
  | toUnload (hresult : m.ebpfResult = true) : Goes rules m .check m .unload
  | toRules (hresult : m.ebpfResult = false) (hrules : rules = true) :
      Goes rules m .check m (.rules cleanupLines)
  | toStop (hresult : m.ebpfResult = false) (hrules : rules = false) : Goes rules m .check m .stop
  | unloaded (hresult : m.ebpfResult = true) : Goes rules m .unload m .clear
  | cleared : Goes rules m .clear { m with ebpfResult := false } .stop
  | cleaned : Goes rules m (.rules []) m .stop
  | line (l : CleanupLine F)
      (left : List (CleanupLine F)) :
      Goes rules m (.rules (l :: left)) { m with net := attempt m.net l.cmd } (.rules left)

/-- How a step of `cleanup` can end. -/
theorem cleanupStep_cases (rules : Bool) (m : Shared F) (stage : Stage F) :
    (∃ m' stage', cleanupStep rules m stage = (m', .goesTo stage') ∧
      Goes rules m stage m' stage') ∨
    (cleanupStep rules m stage = (m, .panics) ∧ stage = .unload ∧ m.ebpfResult = false) ∨
    (cleanupStep rules m stage = (m, .returns) ∧ stage = .stop) := by
  cases stage with
  | check =>
    left
    rw [cleanupStep]
    cases hresult : m.ebpfResult with
    | true => exact ⟨m, .unload, rfl, .toUnload hresult⟩
    | false =>
      cases hrules : rules with
      | true => exact ⟨m, .rules cleanupLines, rfl, .toRules hresult rfl⟩
      | false => exact ⟨m, .stop, rfl, .toStop hresult rfl⟩
  | unload =>
    rw [cleanupStep]
    cases hresult : m.ebpfResult with
    | true => exact .inl ⟨m, .clear, rfl, .unloaded hresult⟩
    | false => exact .inr (.inl ⟨rfl, rfl, rfl⟩)
  | clear => exact .inl ⟨_, .stop, rfl, .cleared⟩
  | rules left =>
    cases left with
    | nil => exact .inl ⟨m, .stop, rfl, .cleaned⟩
    | cons l left => exact .inl ⟨_, .rules left, rfl, .line l left⟩
  | stop => exact .inr (.inr ⟨rfl, rfl⟩)

/-- What holds of the shared state at each stage of a goroutine, whatever the other one does. -/
structure Relies (base last : Shared F → Prop) (holds : Stage F → Shared F → Prop)
    (rules : Bool) : Prop where
  check : ∀ m, base m → holds .check m
  own : ∀ {m m' stage stage'}, base m → holds stage m → Goes rules m stage m' stage' →
    base m' ∧ holds stage' m'
  other : ∀ {m m' stage stage' after}, holds stage m → holds stage' m →
    Goes rules m stage m' after → holds stage' m'
  stop : ∀ m, holds .stop m → last m
  panics : ∀ m, holds .unload m → m.ebpfResult = false → last m

structure Keeps (base last : Shared F → Prop) (holds : Stage F → Shared F → Prop)
    (p : Process F) : Prop where
  base : base p.shared
  main : ∀ stage round, p.main = .cleaning stage round → holds stage p.shared
  handler : ∀ stage round, p.handler = .cleaning stage round → holds stage p.shared
  ended : p.ended = true → last p.shared

theorem Relies.last_of_panics (hr : Relies base last holds rules) {m : Shared F} {stage : Stage F}
    (h : holds stage m) (hstage : stage = .unload ∧ m.ebpfResult = false ∨ stage = .stop) :
    last m := by
  obtain ⟨rfl, hresult⟩ | rfl := hstage
  · exact hr.panics m h hresult
  · exact hr.stop m h

omit [DecidableEq F] [Fintype F] in
theorem Keeps.ends {p : Process F} (h : Keeps base last holds p) (hlast : last p.shared) :
    Keeps base last holds { p with ended := true } := ⟨h.base, h.main, h.handler, fun _ => hlast⟩

/-- A goroutine calls `cleanup`. -/
theorem Keeps.mainBegins (hr : Relies base last holds rules) {p : Process F}
    (h : Keeps base last holds p) (round : Round) :
    Keeps base last holds { p with main := .cleaning .check round } where
  base := h.base
  main stage round' heq := by
    cases heq
    exact hr.check _ h.base
  handler := h.handler
  ended := h.ended

theorem Keeps.handlerBegins (hr : Relies base last holds rules) {p : Process F}
    (h : Keeps base last holds p) (round : Round) :
    Keeps base last holds { p with handler := .cleaning .check round } where
  base := h.base
  main := h.main
  handler stage round' heq := by
    cases heq
    exact hr.check _ h.base
  ended := h.ended

theorem Keeps.mainAfter (hr : Relies base last holds rules) {p : Process F}
    (h : Keeps base last holds p) (hlast : last p.shared) (panics : Bool) (round : Round) :
    Keeps base last holds (p.mainAfter panics round) := by
  cases round with
  | first ok =>
    rw [Process.mainAfter]
    split
    · exact h.mainBegins hr _
    · exact h.ends hlast
  | deferred | handler => exact h.ends hlast

theorem Keeps.mainStep {p : Process F} (hr : Relies base last holds (p.needsEbpf && p.linux))
    (h : Keeps base last holds p) (hlive : p.ended = false) :
    Keeps base last holds p.mainStep := by
  unfold Process.mainStep
  split
  · rename_i stage round hmain
    have hstage := h.main stage round hmain
    obtain ⟨m, stage', heq, hgoes⟩ | ⟨heq, hwhere⟩ | ⟨heq, hwhere⟩ :=
      cleanupStep_cases (p.needsEbpf && p.linux) p.shared stage
    · obtain ⟨hbase, hnext⟩ := hr.own h.base hstage hgoes
      rw [heq]
      refine ⟨hbase, fun st rd hst => ?_, fun st rd hst => ?_, fun hended => ?_⟩
      · cases hst
        exact hnext
      · exact hr.other hstage (h.handler st rd hst) hgoes
      · rw [show p.ended = true from hended] at hlive
        cases hlive
    · rw [heq]
      exact h.mainAfter hr (hr.last_of_panics hstage (.inl hwhere)) true round
    · rw [heq]
      exact h.mainAfter hr (hr.last_of_panics hstage (.inr hwhere)) false round
  · exact h
  · exact h

theorem Keeps.handlerStep {p : Process F} (hr : Relies base last holds (p.needsEbpf && p.linux))
    (h : Keeps base last holds p) (hlive : p.ended = false) :
    Keeps base last holds p.handlerStep := by
  unfold Process.handlerStep
  split
  · rename_i stage round hhandler
    have hstage := h.handler stage round hhandler
    obtain ⟨m, stage', heq, hgoes⟩ | ⟨heq, hwhere⟩ | ⟨heq, hwhere⟩ :=
      cleanupStep_cases (p.needsEbpf && p.linux) p.shared stage
    · obtain ⟨hbase, hnext⟩ := hr.own h.base hstage hgoes
      rw [heq]
      refine ⟨hbase, fun st rd hst => ?_, fun st rd hst => ?_, fun hended => ?_⟩
      · exact hr.other hstage (h.main st rd hst) hgoes
      · cases hst
        exact hnext
      · rw [show p.ended = true from hended] at hlive
        cases hlive
    · rw [heq]
      exact h.ends (hr.last_of_panics hstage (.inl hwhere))
    · rw [heq]
      exact h.ends (hr.last_of_panics hstage (.inr hwhere))
  · exact h
  · exact h

/-- The process can end without a cleanup only where it has nothing to clean up, or where nobody
waits for the signal. -/
def Watched (p : Process F) (t : Tick) : Prop :=
  p.cleans = true ∧ (t = .signal → p.handler ≠ .absent)

theorem Keeps.tick {p : Process F} (hr : Relies base last holds (p.needsEbpf && p.linux))
    (h : Keeps base last holds p) (t : Tick)
    (hkill : Watched p t ∨ ∀ m, base m → last m) : Keeps base last holds (p.tick t) := by
  by_cases hended : p.ended = true
  · rw [Process.tick, if_pos hended]
    exact h
  rw [Process.tick, if_neg hended]
  have hlive : p.ended = false := Bool.eq_false_iff.mpr hended
  cases t with
  | commandEnds ok =>
    rw [Process.happens]
    split
    · split
      · exact h.mainBegins hr _
      · rename_i hcleans
        obtain ⟨hwatched, -⟩ | hbase := hkill
        · exact absurd hwatched hcleans
        · exact h.ends (hbase _ h.base)
    · exact h
    · exact h
  | signal =>
    rw [Process.happens]
    split
    · rename_i habsent
      obtain ⟨-, hwatched⟩ | hbase := hkill
      · exact absurd habsent (hwatched rfl)
      · exact h.ends (hbase _ h.base)
    · exact h.handlerBegins hr _
    · exact h
  | main => exact h.mainStep hr hlive
  | handler => exact h.handlerStep hr hlive
  | mainPanics =>
    rw [Process.happens]
    split
    · rename_i round hmain
      exact h.mainAfter hr (hr.stop _ (h.main _ _ hmain)) true round
    · exact h
  | handlerPanics =>
    rw [Process.happens]
    split
    · rename_i hhandler
      exact h.ends (hr.stop _ (h.handler _ _ hhandler))
    · exact h

omit [DecidableEq F] [Fintype F] in
theorem fixed_mainAfter (p : Process F) (panics : Bool) (round : Round) :
    (p.mainAfter panics round).needsEbpf = p.needsEbpf ∧
      (p.mainAfter panics round).linux = p.linux ∧ (p.mainAfter panics round).cleans = p.cleans ∧
      (p.mainAfter panics round).handler = p.handler := by
  cases round with
  | first ok =>
    rw [Process.mainAfter]
    split <;> exact ⟨rfl, rfl, rfl, rfl⟩
  | deferred | handler => exact ⟨rfl, rfl, rfl, rfl⟩

/-- What never changes, and that a handler does not go away. -/
theorem fixed_tick (p : Process F) (t : Tick) :
    (p.tick t).needsEbpf = p.needsEbpf ∧ (p.tick t).linux = p.linux ∧
      (p.tick t).cleans = p.cleans ∧ (p.handler ≠ .absent → (p.tick t).handler ≠ .absent) := by
  by_cases hended : p.ended = true
  · rw [Process.tick, if_pos hended]
    exact ⟨rfl, rfl, rfl, id⟩
  rw [Process.tick, if_neg hended]
  have hafter : ∀ (q : Process F) panics round, q.needsEbpf = p.needsEbpf → q.linux = p.linux →
      q.cleans = p.cleans → q.handler = p.handler →
      (q.mainAfter panics round).needsEbpf = p.needsEbpf ∧
        (q.mainAfter panics round).linux = p.linux ∧
        (q.mainAfter panics round).cleans = p.cleans ∧
        (p.handler ≠ .absent → (q.mainAfter panics round).handler ≠ .absent) := by
    intro q panics round h1 h2 h3 h4
    obtain ⟨g1, g2, g3, g4⟩ := fixed_mainAfter q panics round
    exact ⟨g1.trans h1, g2.trans h2, g3.trans h3, fun hne => g4.trans h4 ▸ hne⟩
  cases t with
  | commandEnds ok =>
    rw [Process.happens]
    split
    · split <;> exact ⟨rfl, rfl, rfl, id⟩
    · exact ⟨rfl, rfl, rfl, id⟩
    · exact ⟨rfl, rfl, rfl, id⟩
  | signal =>
    rw [Process.happens]
    split
    · exact ⟨rfl, rfl, rfl, id⟩
    · exact ⟨rfl, rfl, rfl, fun _ => nofun⟩
    · exact ⟨rfl, rfl, rfl, id⟩
  | main =>
    rw [Process.happens, Process.mainStep]
    split
    · split
      · exact ⟨rfl, rfl, rfl, id⟩
      · exact hafter _ _ _ rfl rfl rfl rfl
      · exact hafter _ _ _ rfl rfl rfl rfl
    · exact ⟨rfl, rfl, rfl, id⟩
    · exact ⟨rfl, rfl, rfl, id⟩
  | handler =>
    rw [Process.happens, Process.handlerStep]
    split
    · split
      · exact ⟨rfl, rfl, rfl, fun _ => nofun⟩
      · exact ⟨rfl, rfl, rfl, id⟩
      · exact ⟨rfl, rfl, rfl, id⟩
    · exact ⟨rfl, rfl, rfl, id⟩
    · exact ⟨rfl, rfl, rfl, id⟩
  | mainPanics =>
    rw [Process.happens]
    split
    · exact hafter _ _ _ rfl rfl rfl rfl
    · exact ⟨rfl, rfl, rfl, id⟩
  | handlerPanics =>
    rw [Process.happens]
    split <;> exact ⟨rfl, rfl, rfl, id⟩

/-- Along a whole run. -/
theorem Keeps.run {p : Process F} (h : Keeps base last holds p)
    (hr : Relies base last holds rules) (hrules : (p.needsEbpf && p.linux) = rules)
    (ticks : List Tick)
    (hkill : (p.cleans = true ∧ (.signal ∈ ticks → p.handler ≠ .absent)) ∨
      ∀ m, base m → last m) : Keeps base last holds (runs.run Process.tick p ticks) := by
  induction ticks generalizing p with
  | nil => exact h
  | cons t ticks ih =>
    obtain ⟨hneeds, hlinux, hcleans, hhandler⟩ := fixed_tick p t
    refine ih (h.tick (hrules ▸ hr) t ?_) (by rw [hneeds, hlinux, hrules]) ?_
    · exact hkill.imp_left fun hwatched => ⟨hwatched.1, fun ht => hwatched.2 (ht ▸ by simp)⟩
    · exact hkill.imp_left fun hwatched =>
        ⟨hcleans.trans hwatched.1, fun ht => hhandler (hwatched.2 (List.mem_cons_of_mem _ ht))⟩

end

/-! ## Three kinds of process -/

/-- What a run does to the tables. -/
inductive Fate where
  | untouched
  /-- Rules were set up, and all rules are cleaned. -/
  | cleaned
  /-- No rule was set up, and all rules are cleaned. -/
  | swept
  /-- Hooks were loaded, and they are unloaded. -/
  | unloaded
  /-- `SetupRules` failed after so many commands. -/
  | stopped (n : Nat)
  deriving DecidableEq, Repr

def fate (w : Setting) (ans : Answers) : Fate :=
  if !(needs w).ebpf || !w.linux || w.upstream.isNone then .untouched
  else if !w.enabled then .swept
  else if w.skipPrivileged && w.tproxy.isNone then .untouched
  else if !w.skipPrivileged && (!migrates w ans || !ans.permission || !ans.cgroup) then .untouched
  else if !w.forceIptables && !ans.loadFails then .unloaded
  else
    match ans.setupStops with
    | none => .cleaned
    | some n => .stopped n

/-- The target of the rules. -/
def Setting.target (w : Setting) : Str :=
  match w.tproxy with
  | some u => u.host
  | none => itoa w.transPort

theorem useTun_of_needs {w : Setting} (h : (needs w).ebpf = true) :
    w.useTun = false ∧ (needs w).transparent = true := by
  unfold needs at h ⊢
  split at h
  · cases h
  · rename_i htun
    rw [if_neg htun]
    refine ⟨by simpa using htun, ?_⟩
    split at h
    · cases h
    · rename_i haware
      rw [if_neg haware]
      split <;> rfl

end

/-- A command with rules of its own, beside a daemon without a PID file that has set up rules. -/
def wgetSetting : Setting where
  linux := true
  useTun := false
  forceIptables := true
  enableEbpf := some true
  command := "/bin/wget"
  transPort := 1081
  daemon := false
  daemonLater := false
  best := "socks5://a:1"
  servers := []

def rootAnswers : Answers where
  moves := true
  attaches := false
  repairs := false
  attachesAgain := false
  permission := true
  cgroup := true
  loadFails := false
  setupStops := none
  startsHTTP := true
  startsSocks := true

end vproxy.wrapper
