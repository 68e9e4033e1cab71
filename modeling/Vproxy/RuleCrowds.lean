-- Calls of SetupRules and CleanupRules at the same time: repairs that the daemon serves one beside
-- the other, and wrapped commands with rules of their own (app.go, iptables_linux.go). Each call is
-- a row of commands, and nothing keeps the rows apart. A hook can then be hung in several times,
-- and each cleanup takes away only one of the copies.
import Vproxy.IptablesHistory
import Vproxy.ScriptCrowds

open go netfilter

namespace vproxy.iptables

/-! ## Calls at the same time -/

inductive Job where
  | setupRules (call : Call)
  | cleanupRules
  deriving DecidableEq, Repr

/-- What can happen: a process calls one of the two functions, its next command is run or is
refused (another holds the lock of the tables), or the process is killed. -/
inductive Happening (ι : Type) where
  | call (i : ι) (job : Job)
  | command (i : ι)
  | refused (i : ι)
  | killed (i : ι)
  deriving DecidableEq, Repr

variable {F : Type} {ι : Type}

def Job.lines : Job → List (Line (Chain F) (Rule F) Place Entry)
  | .setupRules call => setupLines call.target call.isRemoteTProxy
  | .cleanupRules => cleanupLines

def Happening.event : Happening ι → Event ι (Chain F) (Rule F) Place Entry
  | .call i job => .start i job.lines
  | .command i => .line i
  | .refused i => .refused i
  | .killed i => .stop i

def refusals (hs : List (Happening ι)) : Nat :=
  hs.countP fun | .refused _ => true | _ => false

theorem refusals_eq (hs : List (Happening ι)) :
    (hs.map (Happening.event (F := F))).countP Event.isRefusal = refusals hs := by
  unfold refusals
  rw [List.countP_map]
  refine List.countP_congr fun h _ => ?_
  cases h <;> rfl

section

variable [DecidableEq F]

/-- Both functions take a hook away before they hang it in. -/
theorem allows_lines (job : Job) : (program F).allows job.lines = true := by
  cases job with
  | setupRules call =>
    obtain ⟨target, remote⟩ := call
    cases remote <;> rfl
  | cleanupRules => rfl

theorem cleanup_permits :
    ((cleanupLines : List (Line (Chain F) (Rule F) Place Entry)).map Line.cmd).all
      (program F).permits = true := rfl

/-- Cleanup hangs in no hook, and takes away each one once. -/
theorem cleanup_hooks {h : Chain F × Rule F} (hh : h ∈ hooks) :
    hang h ∉ (cleanupLines : List (Line (Chain F) (Rule F) Place Entry)).map Line.cmd ∧
      ((cleanupLines : List (Line (Chain F) (Rule F) Place Entry)).map Line.cmd).count
        (unhang h) = 1 := by
  have hall : (hooks : List (Chain F × Rule F)).all (fun h =>
      !((cleanupLines : List (Line (Chain F) (Rule F) Place Entry)).map Line.cmd).contains
        (hang h) &&
      ((cleanupLines : List (Line (Chain F) (Rule F) Place Entry)).map Line.cmd).count
        (unhang h) == 1) = true := rfl
  have hone := List.all_eq_true.mp hall h hh
  simpa using hone

variable [Fintype F]

/-- The tables and the calls that are under way. -/
def crowd [DecidableEq ι] (s : Net F) (hs : List (Happening ι)) : Crowd (host F) ι :=
  runs.run Crowd.step (.idle s) (hs.map Happening.event)

/-! ## Cleanups -/

theorem cleanupRules_eq_attempts (t : Net F) :
    cleanupRules t =
      attempts t ((cleanupLines : List (Line (Chain F) (Rule F) Place Entry)).map Line.cmd) :=
  runScript_tolerant t rfl

theorem reached_cleanupRules {s t : Net F} (hs : Clean (program F) s)
    (ht : Reached (program F) s t) : Reached (program F) s (cleanupRules t) := by
  rw [cleanupRules_eq_attempts]
  exact ht.attempts hs cleanup_permits

theorem copies_cleanupRules (t : Net F) {h : Chain F × Rule F} (hh : h ∈ hooks) :
    copies (cleanupRules t) h = copies t h - 1 := by
  obtain ⟨hhang, hcount⟩ := cleanup_hooks hh
  have hattempts := copies_attempts (t := t) hh cleanup_permits hhang
  rw [cleanupRules_eq_attempts, hattempts, hcount]

/-- Cleanups restore the tables when there are as many of them as copies of any hook. -/
theorem cleanups_restore_iff {s t : Net F} (hs : Clean (program F) s)
    (ht : Reached (program F) s t) (n : Nat) :
    cleanupRules^[n + 1] t = s ↔ ∀ h ∈ hooks, copies t h ≤ n + 1 := by
  induction n generalizing t with
  | zero =>
    constructor
    · intro heq h hh
      have hzero : copies (cleanupRules t) h = 0 := by
        rw [show cleanupRules t = s from heq]
        exact hs.copies_eq hh
      rw [copies_cleanupRules t hh] at hzero
      omega
    · intro hcopies
      exact cleanupRules_eq_of_fits hs (ht.fits hcopies)
  | succ n ih =>
    rw [Function.iterate_succ_apply, ih (reached_cleanupRules hs ht)]
    refine forall₂_congr fun h hh => ?_
    rw [copies_cleanupRules t hh]
    omega

/-! ## The law -/

section

variable [DecidableEq ι] [Fintype ι]

theorem held_crowd {s : Net F} (hs : Clean (program F) s) (happened : List (Happening ι)) :
    Held (program F) s (refusals happened) (crowd s happened) := by
  rw [← refusals_eq (F := F)]
  refine held_run hs fun e he => ?_
  obtain ⟨h, -, rfl⟩ := List.mem_map.mp he
  cases h with
  | call i job => exact allows_lines job
  | command | refused | killed => trivial

/-- Whatever the order of the commands of several processes: a hook is there at most as often as
there are processes and refused commands, and it takes as many cleanups as there are copies to
bring the tables back. -/
theorem crowd_needs_cleanup_per_copy {s : Net F} (hs : Clean (program F) s)
    (happened : List (Happening ι)) :
    (∀ h ∈ hooks, copies (crowd s happened).net h ≤ Fintype.card ι + refusals happened) ∧
      ∀ n, cleanupRules^[n + 1] (crowd s happened).net = s ↔
        ∀ h ∈ hooks, copies (crowd s happened).net h ≤ n + 1 := by
  have hheld := held_crowd hs happened
  exact ⟨fun h hh => (Nat.le_add_right _ _).trans (hheld.copies h hh),
    cleanups_restore_iff hs hheld.reached⟩

end

end

/-- Two processes that set up the rules, up to the first hook: both take it away before either
hangs it in. -/
def twoSetups : List (Happening (Fin 2)) :=
  .call 0 (.setupRules ⟨"1080", false⟩) :: .call 1 (.setupRules ⟨"1080", false⟩) ::
    (List.replicate 17 (.command 0) ++ List.replicate 17 (.command 1) ++ [.command 0, .command 1])

theorem two_setups_hang_twice :
    copies (crowd dockerNet twoSetups).net (natOutput .v4, redirectHook .tcp) = 2 := by
  decide +kernel

/-- One cleanup is then not enough, and two are. -/
theorem two_setups_need_two_cleanups :
    cleanupRules (crowd dockerNet twoSetups).net ≠ dockerNet ∧
      cleanupRules (cleanupRules (crowd dockerNet twoSetups).net) = dockerNet := by
  obtain ⟨hbound, hiff⟩ := crowd_needs_cleanup_per_copy clean_dockerNet twoSetups
  constructor
  · intro heq
    have hone := (hiff 0).mp heq _ (List.mem_cons_self : (natOutput .v4, redirectHook .tcp) ∈ hooks)
    rw [two_setups_hang_twice] at hone
    exact absurd hone (by decide)
  · exact (hiff 1).mpr hbound

end vproxy.iptables
