-- The upstream manager. A test run reads the list and the active server under one lock
-- and publishes its finding under another, with the probes between; list updates and
-- reports come at any time. The law says when the active server is one of the list.
import Vproxy.Urls
import Vproxy.Runs

open go go.net go.url runs

namespace vproxy

/-! ## The manager -/

/-- The fields that the locks protect, and the interval of the tests. A zero time of the
last success is `none`. -/
structure ServerManager where
  servers : List Str
  selfPorts : List Int
  activeServer : Str
  lastSuccess : Option Int
  testInterval : Int
  deriving DecidableEq

/-- The port that a scheme stands for in `IsSelfUpstream`. -/
def selfDefaultPort (scheme : Str) : Str :=
  if scheme = "http" then "80"
  else if scheme = "socks5" then "1080"
  else if scheme = "tproxy" then "10080"
  else []

def isSelfUpstream (selfPorts : List Int) (addr : Str) : Bool :=
  if selfPorts = [] then false
  else
    match parse addr with
    | none => false
    | some u =>
      let host := u.hostname
      if host = "localhost" ∨ (parseIP host).any isLoopback then
        let portStr := if u.port = [] then selfDefaultPort u.scheme else u.port
        let port := (atoi portStr).1
        selfPorts.any (fun sp => decide (0 < sp ∧ sp = port))
      else false

/-- The port that a scheme stands for in the probe. -/
def probeDefaultPort (scheme : Str) : Str :=
  if scheme = "http" then ":80"
  else if scheme = "https" then ":443"
  else if scheme = "socks5" then ":1080"
  else if scheme = "tproxy" then ":10080"
  else []

/-- Where the probe dials, and the scheme that decides on a handshake. -/
def dialAddr (addr : Str) : Str × Str :=
  match parse addr with
  | some u =>
    if u.host = [] then (addr, [])
    else if ':' ∈ u.host then (u.host, u.scheme)
    else (u.host ++ probeDefaultPort u.scheme, u.scheme)
  | none => (addr, [])

/-- `testServers` returns before it probes: the active server was in use lately, or there
is no server. -/
def ServerManager.earlyExit (sm : ServerManager) (now : Int) : Bool :=
  (sm.activeServer ≠ [] && sm.lastSuccess.any (fun last => now - last < sm.testInterval)) ||
    sm.servers.isEmpty

/-- The loop of `testServers`: the first server that is not the proxy itself and answers. -/
def findServer (selfPorts : List Int) (probe : Str × Str → Bool) (servers : List Str) : Str :=
  (servers.find? (fun addr => !isSelfUpstream selfPorts addr && probe (dialAddr addr))).getD []

/-! ## Test runs among the other operations -/

inductive RunPhase where
  | started
  | probing (servers : List Str)
  deriving DecidableEq

structure TestRun where
  id : Nat
  phase : RunPhase
  deriving DecidableEq

structure Upstreams where
  sm : ServerManager
  /-- The runs of `testServers` that have not returned. -/
  runs : List TestRun
  next : Nat
  /-- The run that the last `UpdateServers` started. -/
  updateRun : Option Nat

inductive UpstreamAct where
  | updateServers (servers : List Str)
  | reportSuccess (addr : Str) (now : Int)
  | reportFailure (addr : Str)
  | tick
  | snapshot (id : Nat) (now : Int)
  | publish (id : Nat) (probe : Str × Str → Bool)

def Upstreams.spawn (w : Upstreams) : Upstreams :=
  { w with runs := ⟨w.next, .started⟩ :: w.runs, next := w.next + 1 }

/-- The runs without the run `id`. -/
def Upstreams.without (w : Upstreams) (id : Nat) : List TestRun :=
  w.runs.filter (fun r => decide (r.id ≠ id))

def upstreamStep (w : Upstreams) : UpstreamAct → Upstreams
  | .updateServers servers =>
    { w with sm := { w.sm with servers }, updateRun := some w.next }.spawn
  | .reportSuccess addr now =>
    if w.sm.activeServer = addr then { w with sm := { w.sm with lastSuccess := some now } } else w
  | .reportFailure addr =>
    if w.sm.activeServer = addr then
      { w with sm := { w.sm with activeServer := [], lastSuccess := none } }.spawn
    else w
  | .tick => w.spawn
  | .snapshot id now =>
    if ⟨id, .started⟩ ∈ w.runs then
      if w.sm.earlyExit now then { w with runs := w.without id }
      else { w with runs := ⟨id, .probing w.sm.servers⟩ :: w.without id }
    else w
  | .publish id probe =>
    match w.runs.find? (fun r => decide (r.id = id)) with
    | some ⟨_, .probing servers⟩ =>
      { w with
        sm := { w.sm with activeServer := findServer w.sm.selfPorts probe servers }
        runs := w.without id }
    | _ => w

/-! ## The rule and the invariant -/

/-- The active server is empty, or one of the list that is not the proxy itself. -/
def ServerManager.Good (sm : ServerManager) : Prop :=
  sm.activeServer = [] ∨
    (sm.activeServer ∈ sm.servers ∧ isSelfUpstream sm.selfPorts sm.activeServer = false)

/-- The servers of a run that probes, which the run may publish, are in the list. -/
def Covers (selfPorts : List Int) (servers : List Str) (r : TestRun) : Prop :=
  match r.phase with
  | .started => True
  | .probing snap => ∀ a ∈ snap, isSelfUpstream selfPorts a = false → a ∈ servers

/-- The condition on a step, in the state before it. A new list has the servers that the
runs under way may still publish, and the run of the last update returns early only when
the active server is good. -/
def Upstreams.Orderly (w : Upstreams) : UpstreamAct → Prop
  | .updateServers servers => ∀ r ∈ w.runs, Covers w.sm.selfPorts servers r
  | .snapshot id now =>
    w.updateRun = some id → ⟨id, .started⟩ ∈ w.runs → w.sm.earlyExit now → w.sm.Good
  | _ => True

instance (selfPorts : List Int) (servers : List Str) (r : TestRun) :
    Decidable (Covers selfPorts servers r) :=
  match r with
  | ⟨_, .started⟩ => inferInstanceAs (Decidable True)
  | ⟨_, .probing snap⟩ =>
    inferInstanceAs (Decidable (∀ a ∈ snap, isSelfUpstream selfPorts a = false → a ∈ servers))

instance (sm : ServerManager) : Decidable sm.Good := inferInstanceAs (Decidable (_ ∨ _))

instance (w : Upstreams) (a : UpstreamAct) : Decidable (w.Orderly a) :=
  match a with
  | .updateServers servers =>
    inferInstanceAs (Decidable (∀ r ∈ w.runs, Covers w.sm.selfPorts servers r))
  | .snapshot _ _ => inferInstanceAs (Decidable (_ → _ → _ → _))
  | .reportSuccess _ _ => inferInstanceAs (Decidable True)
  | .reportFailure _ => inferInstanceAs (Decidable True)
  | .tick => inferInstanceAs (Decidable True)
  | .publish _ _ => inferInstanceAs (Decidable True)

structure Upstreams.Inv (w : Upstreams) : Prop where
  covered : ∀ r ∈ w.runs, Covers w.sm.selfPorts w.sm.servers r
  good : w.sm.Good ∨ ∃ r ∈ w.runs, w.updateRun = some r.id

section

variable {w : Upstreams}

/-- A published server comes from the list of the run, and is not the proxy itself. -/
theorem findServer_spec (selfPorts : List Int) (probe : Str × Str → Bool) (servers : List Str) :
    findServer selfPorts probe servers = [] ∨
      (findServer selfPorts probe servers ∈ servers ∧
        isSelfUpstream selfPorts (findServer selfPorts probe servers) = false) := by
  unfold findServer
  cases h : servers.find? (fun addr => !isSelfUpstream selfPorts addr && probe (dialAddr addr)) with
  | none => exact Or.inl rfl
  | some a =>
    right
    have ha := List.find?_some h
    simp only [Bool.and_eq_true, Bool.not_eq_true'] at ha
    exact ⟨List.mem_of_find?_eq_some h, ha.1⟩

theorem Upstreams.Inv.spawn (h : w.Inv) : w.spawn.Inv := by
  refine ⟨?_, ?_⟩
  · intro r hr
    rcases List.mem_cons.mp hr with rfl | hold
    · trivial
    · exact h.covered r hold
  · apply h.good.imp_right
    rintro ⟨r, hr, hid⟩
    exact ⟨r, List.mem_cons_of_mem _ hr, hid⟩

theorem mem_without {id : Nat} {r : TestRun} (h : r ∈ w.without id) : r ∈ w.runs ∧ r.id ≠ id := by
  simpa [Upstreams.without] using h

theorem update_inv {servers : List Str}
    (hord : w.Orderly (.updateServers servers)) :
    (upstreamStep w (.updateServers servers)).Inv := by
  refine ⟨?_, Or.inr ⟨_, List.mem_cons_self, rfl⟩⟩
  intro r hr
  rcases List.mem_cons.mp hr with rfl | hold
  · trivial
  · exact hord r hold

theorem Upstreams.Inv.snapshot (h : w.Inv) {id : Nat} {now : Int}
    (hord : w.Orderly (.snapshot id now)) : (upstreamStep w (.snapshot id now)).Inv := by
  simp only [upstreamStep]
  split
  · rename_i hrun
    split
    · rename_i hexit
      refine ⟨fun r hr => h.covered r (mem_without hr).1, ?_⟩
      by_cases hup : w.updateRun = some id
      · exact Or.inl (hord hup hrun hexit)
      · apply h.good.imp_right
        rintro ⟨r, hr, hid⟩
        refine ⟨r, ?_, hid⟩
        have hne : r.id ≠ id := fun heq => hup (by rw [hid, heq])
        simp [Upstreams.without, hr, hne]
    · refine ⟨?_, ?_⟩
      · intro r hr
        rcases List.mem_cons.mp hr with rfl | hold
        · exact fun a ha _ => ha
        · exact h.covered r (mem_without hold).1
      · apply h.good.imp_right
        rintro ⟨r, hr, hid⟩
        by_cases hne : r.id = id
        · exact ⟨_, List.mem_cons_self, by rw [hid, hne]⟩
        · refine ⟨r, List.mem_cons_of_mem _ ?_, hid⟩
          simp [Upstreams.without, hr, hne]
  · exact h

/-- Whatever a run publishes is good. -/
theorem Upstreams.Inv.publish (h : w.Inv) (id : Nat) (probe : Str × Str → Bool) :
    (upstreamStep w (.publish id probe)).Inv := by
  simp only [upstreamStep]
  split
  · rename_i i servers hfind
    have hcov := h.covered _ (List.mem_of_find?_eq_some hfind)
    refine ⟨fun r hr => h.covered r (mem_without hr).1, Or.inl ?_⟩
    apply (findServer_spec w.sm.selfPorts probe servers).imp_right
    rintro ⟨hmem, hself⟩
    exact ⟨hcov _ hmem hself, hself⟩
  · exact h

theorem upstreamStep_inv (h : w.Inv) {a : UpstreamAct} (ha : w.Orderly a) :
    (upstreamStep w a).Inv := by
  cases a with
  | updateServers servers => exact update_inv ha
  | reportSuccess addr now =>
    simp only [upstreamStep]
    split
    · exact ⟨h.covered, h.good⟩
    · exact h
  | reportFailure addr =>
    simp only [upstreamStep]
    split
    · apply Upstreams.Inv.spawn
      exact ⟨h.covered, Or.inl (Or.inl rfl)⟩
    · exact h
  | tick => exact h.spawn
  | snapshot id now => exact h.snapshot ha
  | publish id probe => exact h.publish id probe

end

/-! ## Runs -/

/-- A new manager, before the first test. -/
def newServerManager (servers : List Str) (selfPorts : List Int) (testInterval : Int) :
    Upstreams where
  sm := ⟨servers, selfPorts, [], none, testInterval⟩
  runs := []
  next := 0
  updateRun := none

/-- When no test is under way, the active server is empty or one of the current list that is
not the proxy itself, as long as no list drops a server that a run may still publish, and
the run of the last update does not return early beside a server that is not in the list. -/
theorem active_server_is_in_the_list (servers : List Str) (selfPorts : List Int)
    (testInterval : Int) (acts : List UpstreamAct)
    (h : Along upstreamStep Upstreams.Orderly (newServerManager servers selfPorts testInterval)
      acts) :
    let w := run upstreamStep (newServerManager servers selfPorts testInterval) acts
    w.runs = [] → w.sm.Good := by
  intro w hidle
  have hinv : w.Inv := by
    apply run_invariant Upstreams.Inv (fun _ _ hw ha => upstreamStep_inv hw ha) _ h
    exact ⟨by simp [newServerManager], Or.inl (Or.inl rfl)⟩
  rcases hinv.good with hgood | ⟨r, hr, -⟩
  · exact hgood
  · rw [hidle] at hr
    cases hr

/-- A test, and an update to a longer list with its test. -/
theorem update_in_order :
    let w := run upstreamStep (newServerManager ["socks5://10.1.1.1:1080"] [8080] 30)
      [.tick, .snapshot 0 100, .publish 0 (fun _ => true),
        .updateServers ["socks5://10.1.1.1:1080", "http://10.1.1.2:3128"],
        .snapshot 1 200, .publish 1 (fun d => d.2 == ("http" : Str))]
    w.sm.activeServer = "http://10.1.1.2:3128" ∧ w.sm.Good := by
  refine ⟨by decide, active_server_is_in_the_list _ _ _ _ (by decide) (by decide)⟩

/-- A test that began before an update publishes a server that the update removed. -/
theorem stale_test_publishes_a_removed_server :
    let w := run upstreamStep (newServerManager ["socks5://10.1.1.1:1080"] [8080] 30)
      [.tick, .snapshot 0 100, .updateServers ["http://10.1.1.2:3128"], .snapshot 1 101,
        .publish 1 (fun _ => true), .publish 0 (fun _ => true)]
    w.runs = [] ∧ w.sm.servers = ["http://10.1.1.2:3128"] ∧
      w.sm.activeServer = "socks5://10.1.1.1:1080" := by
  decide

end vproxy
