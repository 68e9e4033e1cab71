-- Retries through the upstreams (dialTarget beside testServers). An attempt dials the active
-- server, and without one the first of the list. A failed attempt clears the active server, so the
-- attempts that follow all dial the first of the list until a test publishes another.
import Vproxy.ProbeAndDial

open go go.net go.url go.regexp runs

namespace vproxy

/-! ## Attempts beside the tests -/

/-- What the tests do before an attempt reads the active server, and while it dials. -/
structure Meanwhile where
  before : List UpstreamAct
  during : List UpstreamAct

/-- A step of a test. A probe finds a server as a dial does. -/
def UpstreamAct.Tests (servers : List Str) (reach : Str → Bool) : UpstreamAct → Prop
  | .tick => True
  | .snapshot _ _ => True
  | .publish _ probe => ∀ s ∈ servers, probe (dialAddr s) = reach s
  | _ => False

/-- The upstream that an attempt dials in this state. -/
def Upstreams.chosen (m : Upstreams) : Str :=
  if m.sm.activeServer ≠ [] then m.sm.activeServer else (fallbackServer .tcp m.sm).getD []

/-- The manager when attempt `i` reads the active server, if the attempts before it failed. -/
def Upstreams.atAttempt (m : Upstreams) (sched : Nat → Meanwhile) : Nat → Upstreams
  | 0 => run upstreamStep m (sched 0).before
  | i + 1 =>
    let read := m.atAttempt sched i
    let dialled := run upstreamStep read (sched i).during
    run upstreamStep (upstreamStep dialled (.reportFailure read.chosen)) (sched (i + 1)).before

/-- The text of an upstream that the TCP dial supports. -/
def Supported (s : Str) : Prop := ∃ u, parse s = some u ∧ supports .tcp u.scheme = true

theorem Supported.ne_nil {s : Str} (h : Supported s) : s ≠ [] := by
  rintro rfl
  obtain ⟨u, hu, hsupports⟩ := h
  cases hu
  cases hsupports

/-- All upstreams are supported, none is the proxy, and one is reachable. The
active server and the tests under way are of the same list. -/
structure Setting (servers : List Str) (ports : List Int) (reach : Str → Bool) (m : Upstreams) :
    Prop where
  of_list : m.From servers ports
  supported : ∀ s ∈ servers, Supported s
  not_self : ∀ s ∈ servers, isSelfUpstream ports s = false
  reachable : ∃ s ∈ servers, reach s = true

/-! ## The tests -/

section

variable {servers : List Str} {ports : List Int} {reach : Str → Bool} {m : Upstreams}
  {sched : Nat → Meanwhile}

/-- What a test finds is reachable. -/
theorem Setting.found (h : Setting servers ports reach m) {probe : Str × Str → Bool}
    (hprobe : ∀ s ∈ servers, probe (dialAddr s) = reach s) :
    findServer ports probe servers ∈ servers ∧ reach (findServer ports probe servers) = true := by
  unfold findServer
  cases hfind : servers.find? (fun addr => !isSelfUpstream ports addr && probe (dialAddr addr)) with
  | none =>
    obtain ⟨s, hs, hreach⟩ := h.reachable
    have hmissed := List.find?_eq_none.mp hfind s hs
    rw [h.not_self s hs, hprobe s hs, hreach] at hmissed
    exact absurd rfl hmissed
  | some s =>
    have hs := List.mem_of_find?_eq_some hfind
    have hfound := List.find?_some hfind
    rw [h.not_self s hs, hprobe s hs] at hfound
    exact ⟨hs, hfound⟩

/-- A test keeps the active server, or publishes one that is reachable. -/
theorem Setting.test (h : Setting servers ports reach m) {a : UpstreamAct}
    (ha : a.Tests servers reach) :
    (upstreamStep m a).sm.activeServer = m.sm.activeServer ∨
      (upstreamStep m a).sm.activeServer ∈ servers ∧
        reach (upstreamStep m a).sm.activeServer = true := by
  cases a with
  | tick => exact .inl rfl
  | snapshot id now =>
    simp only [upstreamStep]
    split
    · split <;> exact .inl rfl
    · exact .inl rfl
  | publish id probe =>
    simp only [upstreamStep]
    split
    · rename_i i snap hfind
      obtain rfl := h.of_list.snapshots _ _ (List.mem_of_find?_eq_some hfind)
      right
      dsimp only
      rw [h.of_list.ports_eq]
      exact h.found ha
    · exact .inl rfl
  | updateServers | reportSuccess | reportFailure => cases ha

theorem Setting.step (h : Setting servers ports reach m) {a : UpstreamAct} (ha : a.Keeps servers) :
    Setting servers ports reach (upstreamStep m a) :=
  ⟨from_step h.of_list ha, h.supported, h.not_self, h.reachable⟩

theorem UpstreamAct.Tests.keeps {a : UpstreamAct} (ha : a.Tests servers reach) :
    a.Keeps servers := by
  cases a with
  | updateServers => cases ha
  | reportSuccess | reportFailure | tick | snapshot | publish => trivial

/-- So do any tests. -/
theorem Setting.tests (h : Setting servers ports reach m) {acts : List UpstreamAct}
    (hacts : ∀ a ∈ acts, a.Tests servers reach) :
    Setting servers ports reach (run upstreamStep m acts) ∧
      ((run upstreamStep m acts).sm.activeServer = m.sm.activeServer ∨
        (run upstreamStep m acts).sm.activeServer ∈ servers ∧
          reach (run upstreamStep m acts).sm.activeServer = true) := by
  induction acts using List.reverseRecOn with
  | nil => exact ⟨h, .inl rfl⟩
  | append_singleton acts a ih =>
    obtain ⟨hset, hactive⟩ := ih fun b hb => hacts b (List.mem_append_left _ hb)
    have ha := hacts a (List.mem_append_right _ (List.mem_singleton_self a))
    rw [runs.run_append]
    refine ⟨hset.step ha.keeps, ?_⟩
    obtain hkept | hpublished := hset.test ha
    · rw [run_cons, run_nil, hkept]
      exact hactive
    · exact .inr hpublished

/-! ## The attempts -/

/-- The steps between the attempts are steps of tests. -/
def OnlyTests (servers : List Str) (reach : Str → Bool) (sched : Nat → Meanwhile) : Prop :=
  ∀ i, (∀ a ∈ (sched i).before, a.Tests servers reach) ∧
    ∀ a ∈ (sched i).during, a.Tests servers reach

/-- The list and its upstreams stay as they are while the attempts fail. -/
theorem Setting.atAttempt (h : Setting servers ports reach m)
    (hsched : OnlyTests servers reach sched) (i : Nat) :
    Setting servers ports reach (m.atAttempt sched i) := by
  induction i with
  | zero => exact (h.tests (hsched 0).1).1
  | succ i ih =>
    have hdialled := (ih.tests (hsched i).2).1
    have hfailed := hdialled.step (a := .reportFailure (m.atAttempt sched i).chosen) trivial
    exact (hfailed.tests (hsched (i + 1)).1).1

variable [Regexp]

variable [Unicode]

end

/-! ## Two upstreams -/

end vproxy
