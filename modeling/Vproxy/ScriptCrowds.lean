-- Several scripts at once. Each worker runs one script after another, and the lines of different
-- workers come in any order. A hook is taken away before it is hung in, but another worker may
-- come between the two: then the hook is there more than once.
import Mathlib.Algebra.BigOperators.Fin
import Mathlib.Algebra.Order.BigOperators.Group.Finset
import Vproxy.Netfilter
import Vproxy.Runs

namespace netfilter

variable {C R E P : Type} [DecidableEq P] {host : Host C R E P}

/-! ## What the commands of a program reach -/

/-- The state `t` came from `s` by commands of the program. Each chain of another is as it was,
with hooks at its end; a hook may be there several times. -/
structure Reached (prog : Program host) (s t : State host) : Prop where
  others : ∀ c, prog.own c = false → ∃ hung, t.chain c = (s.chain c).map (· ++ hung) ∧
    ∀ r ∈ hung, (c, r) ∈ prog.hooks
  owned : ∀ c, prog.own c → ∀ r ∈ (t.chain c).getD [], host.jump c r = none
  entries : ∀ e, t.entries e = s.entries e ∨
    t.entries e = host.put e (prog.mine e) (s.entries e)

section

variable {prog : Program host} {s t : State host} {cmd : Cmd C R E P}

theorem Clean.reached (h : Clean prog s) : Reached prog s s where
  others c _ := ⟨[], by simp⟩
  owned c hc r hr := by
    rw [h.own c hc] at hr
    cases hr
  entries e := .inl rfl

theorem ne_of_own {c d : C} (hc : prog.own c = false) (hd : prog.own d = true) : d ≠ c := by
  rintro rfl
  rw [hc] at hd
  cases hd

theorem own_of_hook {c : C} {r : R} (h : (c, r) ∈ prog.hooks) : prog.own c = false :=
  (prog.hooks_jump _ h).1

variable [DecidableEq R]

/-- How often a rule is in its chain. -/
def copies (t : State host) (h : C × R) : Nat := ((t.chain h.1).getD []).count h.2

theorem Clean.copies_eq (hclean : Clean prog s) {h : C × R} (hh : h ∈ prog.hooks) :
    copies s h = 0 := List.count_eq_zero.mpr (hclean.hook_not_mem hh)

/-- Where no hook is there twice, everything that is known of scripts one after another holds. -/
theorem Reached.fits (h : Reached prog s t)
    (hcopies : ∀ p ∈ prog.hooks, copies t p ≤ 1) : Fits prog s prog.anything t where
  others c hc := by
    obtain ⟨hung, hchain, hmem⟩ := h.others c hc
    cases hrules : s.chain c with
    | none => exact ⟨[], by rw [hchain, hrules]; rfl, List.nodup_nil, nofun⟩
    | some rules =>
      refine ⟨hung, hchain.trans (by rw [hrules]), ?_, hmem⟩
      rw [List.nodup_iff_count_le_one]
      intro r
      by_cases hr : r ∈ hung
      · have hone : ((t.chain c).getD []).count r ≤ 1 := hcopies _ (hmem r hr)
        rw [hchain, hrules, Option.map_some, Option.getD_some, List.count_append] at hone
        omega
      · rw [List.count_eq_zero.mpr hr]
        exact Nat.zero_le 1
  owned := h.owned
  bare := nofun
  gone := nofun
  entries := h.entries
  off := nofun

variable [DecidableEq C]

/-- The commands that a program may give. -/
def Program.permits (prog : Program host) : Cmd C R E P → Bool
  | .new c | .flush c | .remove c => prog.own c
  | .append c r => (prog.own c && (host.jump c r).isNone) || prog.hooks.contains (c, r)
  | .delete c r => prog.hooks.contains (c, r)
  | .add e p | .del e p => decide (p = prog.mine e)

theorem Program.mem_hooks_of_permits_delete {c : C} {r : R}
    (h : prog.permits (.delete c r) = true) : (c, r) ∈ prog.hooks :=
  List.contains_iff_mem.mp h

/-- What is appended is a rule without a jump in an own chain, or a hook. -/
theorem Program.permits_append {c : C} {r : R} (h : prog.permits (.append c r) = true) :
    (prog.own c = true ∧ host.jump c r = none) ∨ (c, r) ∈ prog.hooks := by
  simpa [Program.permits] using h

theorem Reached.others_after (hclean : Clean prog s) (h : Reached prog s t)
    (hcmd : prog.permits cmd = true) {c : C} (hc : prog.own c = false) :
    ∃ hung, act c (t.chain c) cmd = (s.chain c).map (· ++ hung) ∧
      ∀ r ∈ hung, (c, r) ∈ prog.hooks := by
  obtain ⟨hung, hchain, hmem⟩ := h.others c hc
  cases cmd with
  | new d | flush d | remove d =>
    refine ⟨hung, ?_, hmem⟩
    rw [← hchain]
    exact if_neg (ne_of_own hc hcmd)
  | append d r =>
    by_cases hd : d = c
    · subst hd
      have hhook : (d, r) ∈ prog.hooks :=
        (prog.permits_append hcmd).resolve_left fun hown => ne_of_own hc hown.1 rfl
      refine ⟨hung ++ [r], ?_, fun r' hr' => ?_⟩
      · rw [act, if_pos rfl, hchain, Option.map_map]
        simp [Function.comp_def]
      · rcases List.mem_append.mp hr' with hr' | hr'
        · exact hmem r' hr'
        · rw [List.mem_singleton.mp hr']
          exact hhook
    · exact ⟨hung, by rw [← hchain]; exact if_neg hd, hmem⟩
  | delete d r =>
    by_cases hd : d = c
    · subst hd
      have hforeign := hclean.hook_not_mem (prog.mem_hooks_of_permits_delete hcmd)
      refine ⟨hung.erase r, ?_, fun r' hr' => hmem r' (List.mem_of_mem_erase hr')⟩
      rw [act, if_pos rfl, hchain, Option.map_map]
      cases hrules : s.chain d with
      | none => rfl
      | some rules =>
        rw [hrules] at hforeign
        exact congrArg some (List.erase_append_right _ hforeign)
    · exact ⟨hung, by rw [← hchain]; exact if_neg hd, hmem⟩
  | add e p | del e p => exact ⟨hung, hchain, hmem⟩

theorem Reached.owned_after (h : Reached prog s t) (hcmd : prog.permits cmd = true) {c : C}
    (hc : prog.own c = true) {r : R} (hr : r ∈ (act c (t.chain c) cmd).getD []) :
    host.jump c r = none := by
  have hsame : act c (t.chain c) cmd = t.chain c → host.jump c r = none := by
    intro heq
    rw [heq] at hr
    exact h.owned c hc r hr
  cases cmd with
  | new d =>
    simp only [act] at hr
    split at hr
    · exact h.owned c hc r hr
    · exact h.owned c hc r hr
  | flush d =>
    simp only [act] at hr
    split at hr
    · cases hrules : t.chain c <;> simp [hrules] at hr
    · exact h.owned c hc r hr
  | remove d =>
    simp only [act] at hr
    split at hr
    · cases hr
    · exact h.owned c hc r hr
  | append d q =>
    by_cases hd : d = c
    · subst hd
      have hjump : host.jump d q = none := by
        obtain ⟨-, hnone⟩ | hhook := prog.permits_append hcmd
        · exact hnone
        · exact absurd rfl (ne_of_own (own_of_hook hhook) hc)
      rw [act, if_pos rfl] at hr
      cases hrules : t.chain d with
      | none =>
        rw [hrules] at hr
        cases hr
      | some rules =>
        rw [hrules] at hr
        rcases List.mem_append.mp hr with hr | hr
        · exact h.owned d hc r (by rw [hrules]; exact hr)
        · rw [List.mem_singleton.mp hr]
          exact hjump
    · exact hsame (if_neg hd)
  | delete d q =>
    have hd : c ≠ d := ne_of_own (own_of_hook (prog.mem_hooks_of_permits_delete hcmd)) hc
    exact hsame (if_neg hd.symm)
  | add e p | del e p => exact hsame rfl

variable [DecidableEq E]

theorem Reached.entries_after (hclean : Clean prog s) (h : Reached prog s t)
    (hcmd : prog.permits cmd = true) (e : E) :
    actEntries host e (t.entries e) cmd = s.entries e ∨
      actEntries host e (t.entries e) cmd = host.put e (prog.mine e) (s.entries e) := by
  cases cmd with
  | add d p =>
    obtain rfl : p = prog.mine d := of_decide_eq_true hcmd
    by_cases hd : d = e
    · subst hd
      rw [actEntries, if_pos rfl]
      obtain heq | heq := h.entries d
      · rw [heq, if_neg (hclean.mine d)]
        exact .inr rfl
      · rw [heq, if_pos (host.mem_put _ _ _)]
        exact .inr rfl
    · rw [actEntries, if_neg hd]
      exact h.entries e
  | del d p =>
    obtain rfl : p = prog.mine d := of_decide_eq_true hcmd
    by_cases hd : d = e
    · subst hd
      rw [actEntries, if_pos rfl]
      obtain heq | heq := h.entries d
      · rw [heq, List.erase_of_not_mem (hclean.mine d)]
        exact .inl rfl
      · rw [heq, host.erase_put _ _ _ (hclean.mine d)]
        exact .inl rfl
    · rw [actEntries, if_neg hd]
      exact h.entries e
  | new | flush | append | delete | remove => exact h.entries e

variable [Fintype C]

theorem Reached.attempt (hclean : Clean prog s) (h : Reached prog s t)
    (hcmd : prog.permits cmd = true) : Reached prog s (attempt t cmd) := by
  obtain ⟨_, heq⟩ | ⟨-, heq⟩ := attempt_cases t cmd
  · rw [heq]
    exact ⟨fun c hc => h.others_after hclean hcmd hc, fun c hc r hr => h.owned_after hcmd hc hr,
      h.entries_after hclean hcmd⟩
  · rw [heq]
    exact h

theorem Reached.attempts (hclean : Clean prog s) (h : Reached prog s t)
    {cmds : List (Cmd C R E P)} (hcmds : cmds.all prog.permits = true) :
    Reached prog s (attempts t cmds) := by
  induction cmds generalizing t with
  | nil => exact h
  | cons cmd cmds ih =>
    rw [List.all_cons, Bool.and_eq_true] at hcmds
    exact ih (h.attempt hclean hcmds.1) hcmds.2

/-! ## Copies of a hook -/

/-- The command that hangs a hook in, and the one that takes it away. -/
def hang (h : C × R) : Cmd C R E P := .append h.1 h.2

def unhang (h : C × R) : Cmd C R E P := .delete h.1 h.2

theorem copies_unhang (t : State host) (h : C × R) :
    copies (attempt t (unhang h)) h = copies t h - 1 := by
  unfold copies
  rw [unhang, chain_attempt (.inr ⟨nofun, nofun⟩), act, if_pos rfl]
  cases t.chain h.1 with
  | none => rfl
  | some rules => exact List.count_erase_self

theorem copies_hang_le (t : State host) (h : C × R) :
    copies (attempt t (hang h)) h ≤ copies t h + 1 := by
  obtain ⟨_, heq⟩ | ⟨-, heq⟩ := attempt_cases t (hang h)
  · rw [heq]
    change ((act h.1 (t.chain h.1) (.append h.1 h.2 : Cmd C R E P)).getD []).count h.2 ≤ _
    rw [act, if_pos rfl]
    cases hrules : t.chain h.1 <;> simp [copies, hrules]
  · rw [heq]
    exact Nat.le_succ _

/-- The other commands leave the copies of a hook. -/
theorem copies_attempt_of_ne {h : C × R} (hh : h ∈ prog.hooks) (hcmd : prog.permits cmd = true)
    (hhang : cmd ≠ hang h) (hunhang : cmd ≠ unhang h) :
    copies (attempt t cmd) h = copies t h := by
  obtain ⟨c, r⟩ := h
  have hc := own_of_hook hh
  obtain ⟨_, heq⟩ | ⟨-, heq⟩ := attempt_cases t cmd
  · rw [heq]
    change ((act c (t.chain c) cmd).getD []).count r = _
    cases cmd with
    | new d | flush d | remove d =>
      rw [act, if_neg (ne_of_own hc hcmd)]
      rfl
    | append d q =>
      by_cases hd : d = c
      · subst hd
        have hne : q ≠ r := fun hq => hhang (by rw [hq]; rfl)
        rw [act, if_pos rfl]
        cases hrules : t.chain d <;> simp [copies, hrules, hne]
      · rw [act, if_neg hd]
        rfl
    | delete d q =>
      by_cases hd : d = c
      · subst hd
        have hne : q ≠ r := fun hq => hunhang (by rw [hq]; rfl)
        rw [act, if_pos rfl]
        cases hrules : t.chain d with
        | none => simp [copies, hrules]
        | some rules => simpa [copies, hrules] using List.count_erase_of_ne hne.symm
      · rw [act, if_neg hd]
        rfl
    | add e p | del e p => rfl
  · rw [heq]

/-- A script that hangs in nothing takes one copy away at each of its deletions. -/
theorem copies_attempts {h : C × R} (hh : h ∈ prog.hooks) {cmds : List (Cmd C R E P)}
    (hcmds : cmds.all prog.permits = true) (hhang : hang h ∉ cmds) :
    copies (attempts t cmds) h = copies t h - cmds.count (unhang h) := by
  induction cmds generalizing t with
  | nil => rfl
  | cons cmd cmds ih =>
    rw [List.all_cons, Bool.and_eq_true] at hcmds
    rw [List.mem_cons, not_or] at hhang
    rw [attempts_cons, ih hcmds.2 hhang.2]
    by_cases hcmd : cmd = unhang h
    · subst hcmd
      rw [copies_unhang, List.count_cons_self]
      omega
    · rw [copies_attempt_of_ne hh hcmds.1 (Ne.symm hhang.1) hcmd, List.count_cons_of_ne hcmd]

end

/-! ## Removals -/

/-- The command takes something away. -/
def Cmd.removes : Cmd C R E P → Bool
  | .flush _ | .delete _ _ | .remove _ | .del _ _ => true
  | .new _ | .append _ _ | .add _ _ => false

section

variable [DecidableEq C] [DecidableEq R] [DecidableEq E] {prog : Program host}
  {s t : State host} {f g : Facts C R E} {cmd : Cmd C R E P} {script left : List (Cmd C R E P)}

/-- A script that only takes away, with the lines that it has not run. What is known after the
others is known of the state, whatever more was taken away meanwhile. -/
def Underway (prog : Program host) (s : State host) (script left : List (Cmd C R E P))
    (t : State host) : Prop :=
  ∃ done f, script = done ++ left ∧ prog.checks prog.anything done = some f ∧ Fits prog s f t

theorem Underway.begin (h : Fits prog s prog.anything t) : Underway prog s script script t :=
  ⟨[], prog.anything, rfl, rfl, h⟩

theorem Underway.mem (h : Underway prog s script (cmd :: left) t) : cmd ∈ script := by
  obtain ⟨done, f, rfl, -⟩ := h
  simp

variable [Fintype C]

end

/-! ## Scripts and hooks -/

section

variable [DecidableEq C] [DecidableEq R] [DecidableEq E] {prog : Program host}
  {l : Line C R E P} {lines : List (Line C R E P)}

/-- Of the commands for the hook, the first one hangs it in. -/
def owes (h : C × R) : List (Line C R E P) → Bool
  | [] => false
  | l :: rest => if l.cmd = hang h then true else if l.cmd = unhang h then false else owes h rest

/-- After a hook was hung in, it is not hung in again before it was taken away. -/
def tidy (h : C × R) : List (Line C R E P) → Bool
  | [] => true
  | l :: rest => (if l.cmd = hang h then !owes h rest else true) && tidy h rest

/-- A script of the program that takes each hook away before it hangs it in. -/
def Program.allows (prog : Program host) (script : List (Line C R E P)) : Bool :=
  script.all (fun l => prog.permits l.cmd) &&
    prog.hooks.all fun h => !owes h script && tidy h script

/-- What is left of an allowed script. -/
structure Program.Left (prog : Program host) (lines : List (Line C R E P)) : Prop where
  permits : ∀ l ∈ lines, prog.permits l.cmd = true
  tidy : ∀ h ∈ prog.hooks, tidy h lines = true

theorem Program.left_nil : prog.Left [] := ⟨nofun, fun _ _ => rfl⟩

theorem Program.left_of_allows (h : prog.allows lines = true) : prog.Left lines := by
  simp only [Program.allows, Bool.and_eq_true, List.all_eq_true, Bool.not_eq_true'] at h
  exact ⟨h.1, fun p hp => (h.2 p hp).2⟩

theorem Program.not_owes_of_allows (h : prog.allows lines = true) {p : C × R}
    (hp : p ∈ prog.hooks) : owes p lines = false := by
  simp only [Program.allows, Bool.and_eq_true, List.all_eq_true, Bool.not_eq_true'] at h
  exact (h.2 p hp).1

theorem Program.Left.tail (h : prog.Left (l :: lines)) : prog.Left lines where
  permits k hk := h.permits k (List.mem_cons_of_mem _ hk)
  tidy p hp := by
    have := h.tidy p hp
    rw [netfilter.tidy, Bool.and_eq_true] at this
    exact this.2

theorem Program.Left.head (h : prog.Left (l :: lines)) : prog.permits l.cmd = true :=
  h.permits l List.mem_cons_self

/-- What a line for the hook means for the debt of its script, and that another line means
nothing. -/
theorem Program.Left.owes_cons (h : prog.Left (l :: lines)) {p : C × R} (hp : p ∈ prog.hooks) :
    (l.cmd = hang p ∧ owes p (l :: lines) = true ∧ owes p lines = false) ∨
    (l.cmd = unhang p ∧ owes p (l :: lines) = false) ∨
    (l.cmd ≠ hang p ∧ l.cmd ≠ unhang p ∧ owes p (l :: lines) = owes p lines) := by
  by_cases hhang : l.cmd = hang p
  · have htidy := h.tidy p hp
    rw [netfilter.tidy, Bool.and_eq_true, if_pos hhang, Bool.not_eq_true'] at htidy
    exact .inl ⟨hhang, if_pos hhang, htidy.1⟩
  · by_cases hunhang : l.cmd = unhang p
    · refine .inr (.inl ⟨hunhang, ?_⟩)
      rw [owes, if_neg hhang, if_pos hunhang]
    · refine .inr (.inr ⟨hhang, hunhang, ?_⟩)
      rw [owes, if_neg hhang, if_neg hunhang]

end

/-! ## Crowds -/

/-- The state, and for each worker the lines that it has not run. -/
structure Crowd (host : Host C R E P) (ι : Type) where
  net : State host
  left : ι → List (Line C R E P)

/-- What can happen: a worker without lines takes a script, the next line of a worker is run, or
it is refused whatever the state is, or a worker is stopped. -/
inductive Event (ι C R E P : Type) where
  | start (i : ι) (script : List (Line C R E P))
  | line (i : ι)
  | refused (i : ι)
  | stop (i : ι)

/-- What is left of a script after its first line failed. -/
def afterFailure (l : Line C R E P) (rest : List (Line C R E P)) : List (Line C R E P) :=
  if l.must then [] else rest

section

variable [DecidableEq C] [DecidableEq R] [DecidableEq E] [Fintype C] {ι : Type}
  [DecidableEq ι] {prog : Program host}

def Crowd.set (m : Crowd host ι) (i : ι) (lines : List (Line C R E P)) : Crowd host ι :=
  { m with left := Function.update m.left i lines }

def Crowd.step (m : Crowd host ι) : Event ι C R E P → Crowd host ι
  | .start i script => if m.left i = [] then m.set i script else m
  | .line i =>
    match m.left i with
    | [] => m
    | l :: rest =>
      match exec m.net l.cmd with
      | some net => { m.set i rest with net := net }
      | none => m.set i (afterFailure l rest)
  | .refused i =>
    match m.left i with
    | [] => m
    | l :: rest => m.set i (afterFailure l rest)
  | .stop i => m.set i []

/-- Nobody has a script. -/
def Crowd.idle (s : State host) : Crowd host ι := ⟨s, fun _ => []⟩

/-- The scripts that are started are allowed. -/
def Event.Allowed (prog : Program host) : Event ι C R E P → Prop
  | .start _ script => prog.allows script = true
  | _ => True

def Event.isRefusal : Event ι C R E P → Bool
  | .refused _ => true
  | _ => false

/-- What a step can do: a worker gets other lines, and perhaps its first line was run. The number
says whether the line was refused. -/
inductive Moves (prog : Program host) (m : Crowd host ι) : Crowd host ι → Nat → Prop
  | idle : Moves prog m m 0
  | start {i : ι} {script : List (Line C R E P)} (hidle : m.left i = [])
      (hscript : prog.allows script = true) : Moves prog m (m.set i script) 0
  | done {i : ι} {l : Line C R E P} {rest : List (Line C R E P)} (hleft : m.left i = l :: rest) :
      Moves prog m { m.set i rest with net := attempt m.net l.cmd } 0
  | passed {i : ι} {l : Line C R E P} {rest : List (Line C R E P)} (hleft : m.left i = l :: rest) :
      Moves prog m (m.set i rest) 1
  | stop (i : ι) : Moves prog m (m.set i []) 0

theorem moves_step (m : Crowd host ι) {e : Event ι C R E P} (he : e.Allowed prog) :
    ∃ k ≤ e.isRefusal.toNat, Moves prog m (m.step e) k := by
  cases e with
  | start i script =>
    refine ⟨0, le_rfl, ?_⟩
    by_cases hidle : m.left i = []
    · rw [Crowd.step, if_pos hidle]
      exact .start hidle he
    · rw [Crowd.step, if_neg hidle]
      exact .idle
  | line i =>
    refine ⟨0, le_rfl, ?_⟩
    rw [Crowd.step]
    split
    · exact .idle
    · rename_i l rest hleft
      have hdone : Moves prog m { m.set i rest with net := attempt m.net l.cmd } 0 := .done hleft
      split
      · rename_i net hexec
        rw [attempt, hexec] at hdone
        exact hdone
      · rename_i hexec
        rw [attempt, hexec] at hdone
        unfold afterFailure
        split
        · exact .stop i
        · exact hdone
  | refused i =>
    rw [Crowd.step]
    split
    · exact ⟨0, Nat.zero_le _, .idle⟩
    · rename_i l rest hleft
      unfold afterFailure
      split
      · exact ⟨0, Nat.zero_le _, .stop i⟩
      · exact ⟨1, le_rfl, .passed hleft⟩
  | stop i => exact ⟨0, le_rfl, .stop i⟩

end

section

variable [DecidableEq C] [DecidableEq R] [DecidableEq E] {ι : Type} [Fintype ι]
  {prog : Program host} {s : State host} {m m' : Crowd host ι} {n k : Nat}

/-- How many workers owe the hook. -/
def debts (h : C × R) (left : ι → List (Line C R E P)) : Nat := ∑ i, (owes h (left i)).toNat

theorem debts_le (h : C × R) (left : ι → List (Line C R E P)) : debts h left ≤ Fintype.card ι := by
  calc debts h left ≤ ∑ _i : ι, 1 := Finset.sum_le_sum fun i _ => Bool.toNat_le _
    _ = Fintype.card ι := by simp

/-- The copies of a hook and the debts for it are together no more than there are workers, but
for the lines that were refused. -/
structure Held (prog : Program host) (s : State host) (n : Nat) (m : Crowd host ι) : Prop where
  reached : Reached prog s m.net
  left : ∀ i, prog.Left (m.left i)
  copies : ∀ h ∈ prog.hooks, copies m.net h + debts h m.left ≤ Fintype.card ι + n

theorem Held.mono (h : Held prog s n m) (hn : n ≤ k) : Held prog s k m where
  reached := h.reached
  left := h.left
  copies p hp := (h.copies p hp).trans (by omega)

theorem Clean.held_idle (hclean : Clean prog s) :
    Held prog s 0 (Crowd.idle s : Crowd host ι) where
  reached := hclean.reached
  left _ := prog.left_nil
  copies h hh := by
    have hdebts : debts h (fun _ : ι => ([] : List (Line C R E P))) = 0 := by simp [debts, owes]
    change netfilter.copies s h + debts h (fun _ : ι => ([] : List (Line C R E P))) ≤ _
    rw [hclean.copies_eq hh, hdebts]
    exact Nat.zero_le _

variable [DecidableEq ι]

/-- Only one worker changes its debt. -/
theorem debts_update (h : C × R) (left : ι → List (Line C R E P)) (i : ι)
    (lines : List (Line C R E P)) :
    debts h (Function.update left i lines) + (owes h (left i)).toNat =
      debts h left + (owes h lines).toNat := by
  have hupdate : (fun j => (owes h (Function.update left i lines j)).toNat) =
      Function.update (fun j => (owes h (left j)).toNat) i (owes h lines).toNat :=
    Function.comp_update (fun l => (owes h l).toNat) left i lines
  unfold debts
  rw [hupdate, Finset.sum_update_of_mem (Finset.mem_univ i),
    ← Finset.sum_sdiff (Finset.singleton_subset_iff.mpr (Finset.mem_univ i)) (f := fun j =>
      (owes h (left j)).toNat), Finset.sum_singleton]
  omega

theorem Held.left_set (h : Held prog s n m) {i : ι} {lines : List (Line C R E P)}
    (hlines : prog.Left lines) (j : ι) : prog.Left ((m.set i lines).left j) := by
  by_cases hj : j = i
  · subst hj
    simpa [Crowd.set] using hlines
  · simpa [Crowd.set, hj] using h.left j

/-- A worker whose debts do not grow. -/
theorem Held.set (h : Held prog s n m) {i : ι} {lines : List (Line C R E P)}
    (hlines : prog.Left lines)
    (howes : ∀ p ∈ prog.hooks, (owes p lines).toNat ≤ (owes p (m.left i)).toNat + k) :
    Held prog s (n + k) (m.set i lines) where
  reached := h.reached
  left := h.left_set hlines
  copies p hp := by
    have hupdate := debts_update p m.left i lines
    have hcopies := h.copies p hp
    have hgrow := howes p hp
    change netfilter.copies m.net p + debts p (Function.update m.left i lines) ≤ _
    omega

variable [Fintype C]

theorem Held.done (hclean : Clean prog s) (h : Held prog s n m) {i : ι} {l : Line C R E P}
    {rest : List (Line C R E P)} (hleft : m.left i = l :: rest) :
    Held prog s n { m.set i rest with net := attempt m.net l.cmd } := by
  have hlines : prog.Left (l :: rest) := hleft ▸ h.left i
  refine ⟨h.reached.attempt hclean hlines.head, h.left_set hlines.tail, fun p hp => ?_⟩
  have hupdate := debts_update p m.left i rest
  have hcopies := h.copies p hp
  rw [hleft] at hupdate
  change netfilter.copies (attempt m.net l.cmd) p + debts p (Function.update m.left i rest) ≤ _
  obtain ⟨hcmd, howes, hpaid⟩ | ⟨hcmd, howes⟩ | ⟨hhang, hunhang, howes⟩ := hlines.owes_cons hp
  · have hle := copies_hang_le m.net p
    rw [howes, hpaid] at hupdate
    rw [hcmd]
    simp only [Bool.toNat_true, Bool.toNat_false] at hupdate
    omega
  · -- where no copy was left to take away, the debts alone are no more than the workers
    have hless := copies_unhang m.net p
    have hall := debts_le p (Function.update m.left i rest)
    have hone := Bool.toNat_le (owes p rest)
    rw [howes] at hupdate
    rw [hcmd, hless]
    simp only [Bool.toNat_false] at hupdate
    omega
  · rw [copies_attempt_of_ne hp hlines.head hhang hunhang]
    rw [howes] at hupdate
    omega

theorem Held.moves (hclean : Clean prog s) (h : Held prog s n m) (hm : Moves prog m m' k) :
    Held prog s (n + k) m' := by
  cases hm with
  | idle => exact h
  | @start i script hidle hscript =>
    refine h.set (prog.left_of_allows hscript) fun p hp => ?_
    rw [prog.not_owes_of_allows hscript hp]
    exact Nat.zero_le _
  | done hleft => exact h.done hclean hleft
  | @passed i l rest hleft =>
    have hlines : prog.Left (l :: rest) := hleft ▸ h.left i
    refine h.set hlines.tail fun p _ => ?_
    exact (Bool.toNat_le _).trans (Nat.le_add_left _ _)
  | stop i => exact h.set prog.left_nil fun p _ => Nat.zero_le _

/-- Along every run of allowed scripts. -/
theorem held_run (hclean : Clean prog s) {events : List (Event ι C R E P)}
    (hevents : ∀ e ∈ events, e.Allowed prog) :
    Held prog s (events.countP Event.isRefusal)
      (runs.run Crowd.step (Crowd.idle s) events) := by
  induction events using List.reverseRecOn with
  | nil => exact hclean.held_idle
  | append_singleton events e ih =>
    have hbefore := ih fun e' he' => hevents e' (List.mem_append_left _ he')
    obtain ⟨k, hk, hmoves⟩ := moves_step (runs.run Crowd.step (Crowd.idle s) events)
      (hevents e (List.mem_append_right _ (List.mem_singleton_self e)))
    rw [runs.run_append, List.countP_append]
    refine (hbefore.moves hclean hmoves).mono (Nat.add_le_add_left ?_ _)
    cases e <;> exact hk

end

end netfilter
