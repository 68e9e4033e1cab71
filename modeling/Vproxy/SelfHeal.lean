-- SelfHeal and the end of RunServer (app.go). A call loads the kernel hooks, or falls back to
-- the iptables rules. Neither takes the other away, and the shutdown takes away only one of
-- them: that of the last successful load, or else the rules.
import Vproxy.IptablesHistory
import Vproxy.RemoteTproxy
import Vproxy.Urls

open go go.net netfilter

namespace vproxy.heal

open iptables

/-! ## What a call asks for -/

/-- What does not change while the server runs. -/
structure Env where
  /-- `runtime.GOOS == "linux"`, where the kernel is taken to support the hooks. -/
  linux : Bool
  /-- `VP_USE_TUN` is 1. -/
  useTun : Bool
  enableEbpf : Option Bool
  transPort : Nat
  deriving DecidableEq, Repr

/-- What one call meets. -/
structure Moment where
  /-- The errors of `CheckPermission` and `EnsureVProxyCgroup`. -/
  permission : Option Str
  cgroup : Option Str
  /-- `getBestUpstream()`. -/
  best : Str
  /-- `VP_FORCE_IPTABLES` is 1. -/
  forceIptables : Bool
  /-- `ebpf.Load` fails, and has detached what it had attached. -/
  loadFails : Bool
  deriving DecidableEq, Repr

/-- The best upstream, when it is a TPROXY server. -/
def upstreamTProxy (best : Str) : Option url.URL :=
  if best ≠ [] then (url.parse best).filter fun u => u.scheme == ("tproxy" : Str) else none

/-- The arguments of `Load` and `SetupRules`. -/
structure Setup where
  target : Str
  isRemoteTProxy : Bool
  upstreamIP : Option IP
  upstreamPort : UInt16
  deriving DecidableEq, Repr

def setupOf (transPort : Nat) (best : Str) : Setup :=
  match upstreamTProxy best with
  | none => ⟨itoa transPort, false, none, 0⟩
  | some u =>
    match splitHostPort u.host with
    | none => ⟨u.host, true, none, 0⟩
    | some (host, portStr) => ⟨u.host, true, parseIP host, .ofInt (sscanfInt portStr)⟩

/-! ## The server -/

/-- A loaded set of hooks with its configuration. -/
structure LoadResult where
  id : Nat
  configMap : ebpf.ConfigMap

structure App (F : Type) where
  ebpfResult : Option LoadResult
  /-- The sets of links that are attached, and the number of sets so far. -/
  attached : List Nat
  loads : Nat
  net : Net F

inductive HealError (F : Type) where
  | permission (err : Str)
  | cgroup (err : Str)
  | iptables (cmd : Command F)

section

variable {F : Type} [DecidableEq F] [Fintype F]

/-- `Unload` of a set. -/
def App.unload (a : App F) (r : LoadResult) : App F := { a with attached := a.attached.erase r.id }

/-- A load that succeeds. The new set is attached before the old one goes. -/
def App.load (a : App F) (transPort : Nat) (p : Setup) : App F :=
  let r : LoadResult := ⟨a.loads, ebpf.writeConfig (fun _ => 0) (.ofNat transPort) 0xff false
    p.isRemoteTProxy p.upstreamIP p.upstreamPort⟩
  let a := { a with attached := a.attached ++ [r.id], loads := a.loads + 1 }
  let a :=
    match a.ebpfResult with
    | none => a
    | some old => a.unload old
  { a with ebpfResult := some r }

/-- The iptables fallback. -/
def App.fallback (a : App F) (p : Setup) : App F × Option (HealError F) :=
  match setupRules a.net p.target p.isRemoteTProxy with
  | (net, none) => ({ a with net := net }, none)
  | (net, some cmd) => ({ a with net := net }, some (.iptables cmd))

def selfHeal (env : Env) (a : App F) (m : Moment) : App F × Option (HealError F) :=
  if !env.linux || env.useTun || env.enableEbpf != some true then (a, none)
  else
    match m.permission, m.cgroup with
    | some err, _ => (a, some (.permission err))
    | none, some err => (a, some (.cgroup err))
    | none, none =>
      let p := setupOf env.transPort m.best
      if !m.forceIptables && !m.loadFails then (a.load env.transPort p, none)
      else a.fallback p

/-- The end of `RunServer`. -/
def shutdown (env : Env) (a : App F) : App F :=
  match a.ebpfResult with
  | some r => a.unload r
  | none =>
    if env.enableEbpf = some true ∧ env.linux then { a with net := cleanupRules a.net } else a

/-- A server before its first call. -/
def newApp (s : Net F) : App F := ⟨none, [], 0, s⟩

def heals (env : Env) (s : Net F) (ms : List Moment) : App F :=
  runs.run (fun a m => (selfHeal env a m).1) (newApp s) ms

/-! ## The two kinds of call -/

/-- The call gets as far as the redirection. -/
def proceeds (env : Env) (m : Moment) : Bool :=
  env.linux && !env.useTun && env.enableEbpf == some true && m.permission.isNone && m.cgroup.isNone

def loads (env : Env) (m : Moment) : Bool :=
  proceeds env m && !m.forceIptables && !m.loadFails

def fallsBack (env : Env) (m : Moment) : Bool :=
  proceeds env m && (m.forceIptables || m.loadFails)

/-- At most one set of links is attached, and no rule of the program is there beside it. -/
def OneMechanism (a : App F) : Prop :=
  a.attached.length ≤ 1 ∧ (a.attached = [] ∨ Clean (program F) a.net)

/-- No link is attached, and no rule of the program is there. -/
def NothingLeft (a : App F) : Prop := a.attached = [] ∧ Clean (program F) a.net

/-- The arguments of the fallback. -/
def fallbackCall (env : Env) (m : Moment) : Call :=
  ⟨(setupOf env.transPort m.best).target, (setupOf env.transPort m.best).isRemoteTProxy⟩

theorem fallback_eq (a : App F) (p : Setup) :
    (a.fallback p).1 = { a with net := setup a.net ⟨p.target, p.isRemoteTProxy⟩ } := by
  unfold App.fallback setup
  split <;> rename_i net _ heq <;> simp only [heq]

/-- What one call does. -/
theorem selfHeal_cases (env : Env) (a : App F) (m : Moment) :
    (loads env m = true ∧ fallsBack env m = false ∧
      (selfHeal env a m).1 = a.load env.transPort (setupOf env.transPort m.best)) ∨
    (loads env m = false ∧ fallsBack env m = true ∧
      (selfHeal env a m).1 = { a with net := setup a.net (fallbackCall env m) }) ∨
    (loads env m = false ∧ fallsBack env m = false ∧ (selfHeal env a m).1 = a) := by
  obtain ⟨permission, cgroup, best, force, fails⟩ := m
  by_cases hguard : (!env.linux || env.useTun || env.enableEbpf != some true) = true
  · have hstop : ∀ m, proceeds env m = false := by
      intro m
      unfold proceeds
      simp only [Bool.or_eq_true, Bool.not_eq_true', bne_iff_ne] at hguard
      rcases hguard with (h | h) | h
      · simp [h]
      · simp [h]
      · simp [h]
    unfold loads fallsBack selfHeal
    rw [hstop, if_pos hguard]
    exact .inr (.inr ⟨rfl, rfl, rfl⟩)
  · have hgo : ∀ m, proceeds env m = (m.permission.isNone && m.cgroup.isNone) := by
      intro m
      unfold proceeds
      simp only [Bool.or_eq_true, Bool.not_eq_true', bne_iff_ne, not_or, Bool.not_eq_false,
        Bool.not_eq_true, ne_eq, not_not] at hguard
      simp [hguard.1.1, hguard.1.2, hguard.2]
    unfold loads fallsBack selfHeal
    rw [hgo, if_neg hguard]
    cases permission with
    | some err => exact .inr (.inr ⟨rfl, rfl, rfl⟩)
    | none =>
      cases cgroup with
      | some err => exact .inr (.inr ⟨rfl, rfl, rfl⟩)
      | none =>
        by_cases hload : (!force && !fails) = true
        · simp only [Bool.and_eq_true, Bool.not_eq_true'] at hload
          simp [hload]
        · have hback : (force || fails) = true := by
            cases force <;> cases fails <;> first | rfl | exact absurd rfl hload
          refine .inr (.inl ⟨?_, ?_, ?_⟩)
          · simpa using hload
          · simpa using hback
          · dsimp only
            rw [if_neg hload]
            exact fallback_eq a _

/-! ## Many calls -/

def fallbacks (env : Env) (ms : List Moment) : List Call :=
  (ms.filter (fallsBack env)).map (fallbackCall env)

/-- After calls: the one set of links that is attached is the one the server knows, and the rules
are those of the fallbacks. -/
structure Healed (env : Env) (s : Net F) (ms : List Moment) (a : App F) : Prop where
  attached : a.attached = (a.ebpfResult.map LoadResult.id).toList
  loaded : a.ebpfResult.isSome = ms.any (loads env)
  net : a.net = setups s (fallbacks env ms)

omit [DecidableEq F] [Fintype F] in
theorem attached_load {a : App F} (h : a.attached = (a.ebpfResult.map LoadResult.id).toList)
    (transPort : Nat) (p : Setup) :
    (a.load transPort p).attached = ((a.load transPort p).ebpfResult.map LoadResult.id).toList := by
  obtain ⟨result, attached, count, net⟩ := a
  cases result with
  | none =>
    obtain rfl : attached = [] := h
    rfl
  | some old =>
    obtain rfl : attached = [old.id] := h
    simp [App.load, App.unload]

omit [DecidableEq F] [Fintype F] in
theorem net_load (a : App F) (transPort : Nat) (p : Setup) : (a.load transPort p).net = a.net := by
  obtain ⟨result, attached, count, net⟩ := a
  cases result <;> rfl

theorem Healed.selfHeal {env : Env} {s : Net F} {ms : List Moment} {a : App F}
    (h : Healed env s ms a) (m : Moment) : Healed env s (ms ++ [m]) (selfHeal env a m).1 := by
  obtain ⟨hload, hback, heq⟩ | ⟨hload, hback, heq⟩ | ⟨hload, hback, heq⟩ := selfHeal_cases env a m
  · rw [heq]
    refine ⟨attached_load h.attached _ _, ?_, ?_⟩
    · simp [hload, App.load]
    · rw [net_load, h.net]
      simp [fallbacks, hback]
  · rw [heq]
    refine ⟨h.attached, ?_, ?_⟩
    · simp [hload, h.loaded]
    · have hcalls : fallbacks env (ms ++ [m]) = fallbacks env ms ++ [fallbackCall env m] := by
        simp [fallbacks, hback]
      rw [hcalls, setups_snoc, ← h.net]
  · rw [heq]
    refine ⟨h.attached, ?_, ?_⟩
    · simp [hload, h.loaded]
    · rw [h.net]
      simp [fallbacks, hback]

theorem healed (env : Env) (s : Net F) (ms : List Moment) : Healed env s ms (heals env s ms) := by
  induction ms using List.reverseRecOn with
  | nil => exact ⟨rfl, rfl, rfl⟩
  | append_singleton ms m ih =>
    unfold heals
    rw [runs.run_append]
    exact ih.selfHeal m

/-! ## The law -/

theorem fallbacks_eq_nil {env : Env} {ms : List Moment} :
    fallbacks env ms = [] ↔ ∀ m ∈ ms, fallsBack env m = false := by
  simp [fallbacks, List.filter_eq_nil_iff]

theorem Healed.result_eq_none {env : Env} {s : Net F} {ms : List Moment} {a : App F}
    (h : Healed env s ms a) (hloads : ∀ m ∈ ms, loads env m = false) : a.ebpfResult = none := by
  have hany : ms.any (loads env) = false := by simpa using hloads
  have hloaded := h.loaded
  rw [hany] at hloaded
  simpa using hloaded

/-- Calls of one kind leave one mechanism. -/
theorem oneMechanism_of_healed {env : Env} {s : Net F} (hs : Clean (program F) s)
    {ms : List Moment} {a : App F} (h : Healed env s ms a)
    (hone : (∀ m ∈ ms, loads env m = false) ∨ ∀ m ∈ ms, fallsBack env m = false) :
    OneMechanism a := by
  refine ⟨?_, ?_⟩
  · rw [h.attached]
    cases a.ebpfResult <;> simp
  · rcases hone with hloads | hback
    · left
      rw [h.attached, h.result_eq_none hloads]
      rfl
    · right
      rw [h.net, fallbacks_eq_nil.mpr hback]
      exact hs

/-- Calls of one kind leave nothing after the shutdown. -/
theorem nothingLeft_of_healed {env : Env} {s : Net F} (hs : Clean (program F) s)
    {ms : List Moment} {a : App F} (h : Healed env s ms a)
    (hone : (∀ m ∈ ms, loads env m = false) ∨ ∀ m ∈ ms, fallsBack env m = false) :
    NothingLeft (shutdown env a) := by
  have hattached := h.attached
  cases hresult : a.ebpfResult with
  | some r =>
    have hback : ∀ m ∈ ms, fallsBack env m = false := by
      rcases hone with hloads | hback
      · rw [h.result_eq_none hloads] at hresult
        cases hresult
      · exact hback
    rw [hresult] at hattached
    simp only [shutdown, hresult]
    refine ⟨?_, ?_⟩
    · change a.attached.erase r.id = []
      rw [hattached]
      simp
    · change Clean (program F) a.net
      rw [h.net, fallbacks_eq_nil.mpr hback]
      exact hs
  | none =>
    rw [hresult] at hattached
    simp only [shutdown, hresult]
    split
    · refine ⟨hattached, ?_⟩
      change Clean (program F) (cleanupRules a.net)
      rw [h.net, cleanup_setups hs]
      exact hs
    · -- without the setting no call has come as far as the rules
      rename_i hoff
      refine ⟨hattached, ?_⟩
      have hback : ∀ m ∈ ms, fallsBack env m = false := by
        intro m _
        unfold fallsBack proceeds
        cases hlinux : env.linux with
        | false => simp
        | true => simp_all
      rw [h.net, fallbacks_eq_nil.mpr hback]
      exact hs

/-- One mechanism at a time, and none after the shutdown: exactly when the calls did not both load
the hooks and fall back to the rules. -/
theorem one_mechanism_iff_no_switch (env : Env) {s : Net F} (hs : Clean (program F) s)
    (ms : List Moment) :
    ((∀ k, OneMechanism (heals env s (ms.take k))) ∧ NothingLeft (shutdown env (heals env s ms))) ↔
      ¬ ((∃ m ∈ ms, loads env m) ∧ ∃ m ∈ ms, fallsBack env m) := by
  constructor
  · rintro ⟨hone, -⟩ ⟨⟨m, hm, hload⟩, m', hm', hback⟩
    have h := healed env s ms
    have hlast := hone ms.length
    rw [List.take_length] at hlast
    rcases hlast.2 with hnil | hclean
    · rw [h.attached] at hnil
      have hsome : (heals env s ms).ebpfResult.isSome = true := by
        rw [h.loaded]
        exact List.any_eq_true.mpr ⟨m, hm, hload⟩
      obtain ⟨r, hr⟩ := Option.isSome_iff_exists.mp hsome
      rw [hr] at hnil
      cases hnil
    · rw [h.net] at hclean
      refine not_clean_setups s (fun hnil => ?_) hclean
      rw [fallbacks_eq_nil.mp hnil m' hm'] at hback
      cases hback
  · intro hnot
    have hone : (∀ m ∈ ms, loads env m = false) ∨ ∀ m ∈ ms, fallsBack env m = false := by
      by_contra hboth
      apply hnot
      simpa [not_or] using hboth
    refine ⟨fun k => oneMechanism_of_healed hs (healed env s _) ?_,
      nothingLeft_of_healed hs (healed env s ms) hone⟩
    exact hone.imp (fun h m hm => h m (List.mem_of_mem_take hm))
      fun h m hm => h m (List.mem_of_mem_take hm)

end

/-- A Linux server with the setting on. -/
def linuxEnv : Env := ⟨true, false, some true, 1080⟩

def loadMoment : Moment := ⟨none, none, [], false, false⟩

def failMoment : Moment := ⟨none, none, [], false, true⟩

/-- Two fallbacks, and the rules are gone after the shutdown. -/
theorem two_fallbacks_leave_nothing :
    NothingLeft (shutdown linuxEnv (heals linuxEnv dockerNet [failMoment, failMoment])) :=
  ((one_mechanism_iff_no_switch linuxEnv clean_dockerNet [failMoment, failMoment]).mpr
    (by decide)).2

/-- After a fallback and then a load both mechanisms are in force, and the shutdown leaves the
rules. -/
theorem rules_outlive_the_load :
    ¬ OneMechanism (heals linuxEnv dockerNet [failMoment, loadMoment]) ∧
      ¬ NothingLeft (shutdown linuxEnv (heals linuxEnv dockerNet [failMoment, loadMoment])) := by
  have h := healed linuxEnv dockerNet [failMoment, loadMoment]
  have hback : fallbacks linuxEnv [failMoment, loadMoment] ≠ [] := by
    rw [ne_eq, fallbacks_eq_nil]
    decide
  have hrules : ¬ Clean (program Unit) (heals linuxEnv dockerNet [failMoment, loadMoment]).net := by
    rw [h.net]
    exact not_clean_setups dockerNet hback
  obtain ⟨r, hr⟩ := Option.isSome_iff_exists.mp (h.loaded.trans rfl)
  refine ⟨?_, ?_⟩
  · rintro ⟨-, hnil | hclean⟩
    · rw [h.attached, hr] at hnil
      cases hnil
    · exact hrules hclean
  · rintro ⟨-, hclean⟩
    simp only [shutdown, hr] at hclean
    exact hrules hclean

end vproxy.heal
