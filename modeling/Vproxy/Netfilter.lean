-- Chains of rules and lists of entries that a program changes by one command after another, as a
-- packet filter and a routing table have them. Some chains are the program's own; others belong
-- to the system, and the program hangs rules into them that jump to its own chains. A check over
-- the text of a script tells what the script leaves behind, whatever else is there.
import Mathlib.Data.Fintype.Defs
import Mathlib.Data.List.Nodup
import Mathlib.Logic.Function.Basic

namespace netfilter

/-! ## Commands -/

/-- What the host does by itself: the chains that always exist, where a rule of a chain jumps to,
and where it puts a new entry into a list. -/
structure Host (C R E P : Type) [DecidableEq P] where
  builtin : C → Bool
  jump : C → R → Option C
  put : E → P → List P → List P
  mem_put : ∀ e p l, p ∈ put e p l
  erase_put : ∀ e p l, p ∉ l → (put e p l).erase p = l

inductive Cmd (C R E P : Type) where
  | new (c : C)
  | flush (c : C)
  | append (c : C) (r : R)
  | delete (c : C) (r : R)
  | remove (c : C)
  | add (e : E) (p : P)
  | del (e : E) (p : P)
  deriving DecidableEq, Repr

variable {C R E P : Type}

section

variable [DecidableEq C] [DecidableEq R] [DecidableEq E] [DecidableEq P]

/-- What a command makes of a chain. -/
def act (c : C) (rules : Option (List R)) : Cmd C R E P → Option (List R)
  | .new d => if d = c then some (rules.getD []) else rules
  | .flush d => if d = c then rules.map fun _ => [] else rules
  | .append d r => if d = c then rules.map (· ++ [r]) else rules
  | .delete d r => if d = c then rules.map (·.erase r) else rules
  | .remove d => if d = c then none else rules
  | .add _ _ | .del _ _ => rules

/-- The chain that a command names. -/
def Cmd.chain : Cmd C R E P → Option C
  | .new c | .flush c | .append c _ | .delete c _ | .remove c => some c
  | .add _ _ | .del _ _ => none

omit [DecidableEq E] [DecidableEq P] in
/-- A chain that no command names stays as it is. -/
theorem foldl_act_of_not_named {c : C} {cmds : List (Cmd C R E P)}
    (h : ∀ cmd ∈ cmds, cmd.chain ≠ some c) (rules : Option (List R)) :
    cmds.foldl (act c) rules = rules := by
  induction cmds with
  | nil => rfl
  | cons cmd cmds ih =>
    have hcmd : act c rules cmd = rules := by
      have hne := h cmd List.mem_cons_self
      cases cmd with
      | new d | flush d | append d r | delete d r | remove d =>
        exact if_neg fun heq => hne (congrArg some heq)
      | add | del => rfl
    rw [List.foldl_cons, hcmd]
    exact ih fun cmd' hcmd' => h cmd' (List.mem_cons_of_mem _ hcmd')

/-- What a command makes of a list of entries. -/
def actEntries (host : Host C R E P) (e : E) (l : List P) : Cmd C R E P → List P
  | .add d p => if d = e then (if p ∈ l then l else host.put e p l) else l
  | .del d p => if d = e then l.erase p else l
  | _ => l

omit [DecidableEq C] [DecidableEq R] in
/-- To add an entry twice is to add it once. -/
theorem actEntries_add_add (host : Host C R E P) (e : E) (p : P) (l : List P) :
    actEntries host e (actEntries host e l (.add e p)) (.add e p) =
      actEntries host e l (.add e p) := by
  simp only [actEntries, if_true]
  by_cases h : p ∈ l
  · simp only [if_pos h]
  · simp only [if_neg h, if_pos (host.mem_put e p l)]

variable {host : Host C R E P}

/-- The rules of each chain that exists, and the entries of each list. -/
@[ext] structure State (host : Host C R E P) where
  chain : C → Option (List R)
  entries : E → List P
  isSome_builtin : ∀ c, host.builtin c → (chain c).isSome

/-- Some rule jumps to the chain. -/
def Referenced (s : State host) (c : C) : Prop :=
  ∃ d, ∃ r ∈ (s.chain d).getD [], host.jump d r = some c

instance [Fintype C] (s : State host) (c : C) : Decidable (Referenced s c) :=
  inferInstanceAs (Decidable (∃ d, ∃ r ∈ (s.chain d).getD [], host.jump d r = some c))

/-- When a command succeeds. A rule can only jump to a chain that exists, and only an empty chain
that no rule jumps to can be removed. An entry is there at most once. -/
def Succeeds (s : State host) : Cmd C R E P → Prop
  | .new c => s.chain c = none
  | .flush c => (s.chain c).isSome
  | .append c r => (s.chain c).isSome ∧ (host.jump c r).all fun d => (s.chain d).isSome
  | .delete c r => r ∈ (s.chain c).getD []
  | .remove c => host.builtin c = false ∧ s.chain c = some [] ∧ ¬ Referenced s c
  | .add e p => p ∉ s.entries e
  | .del e p => p ∈ s.entries e

instance [Fintype C] (s : State host) : ∀ cmd, Decidable (Succeeds s cmd)
  | .new c => inferInstanceAs (Decidable (s.chain c = none))
  | .flush c => inferInstanceAs (Decidable ((s.chain c).isSome))
  | .append _ _ => inferInstanceAs (Decidable (_ ∧ _))
  | .delete c r => inferInstanceAs (Decidable (r ∈ (s.chain c).getD []))
  | .remove _ => inferInstanceAs (Decidable (_ ∧ _ ∧ _))
  | .add e p => inferInstanceAs (Decidable (p ∉ s.entries e))
  | .del e p => inferInstanceAs (Decidable (p ∈ s.entries e))

/-- A command that succeeds. -/
def State.after (s : State host) (cmd : Cmd C R E P) (h : Succeeds s cmd) : State host where
  chain c := act c (s.chain c) cmd
  entries e := actEntries host e (s.entries e) cmd
  isSome_builtin c hc := by
    have hsome := s.isSome_builtin c hc
    cases cmd with
    | remove d =>
      have hd : d ≠ c := by
        rintro rfl
        rw [h.1] at hc
        cases hc
      simpa only [act, if_neg hd] using hsome
    | new d | flush d | append d r | delete d r =>
      simp only [act]
      split <;> simp [hsome]
    | add e p | del e p => exact hsome

variable [Fintype C]

/-- One command; `none` when it fails. -/
def exec (s : State host) (cmd : Cmd C R E P) : Option (State host) :=
  if h : Succeeds s cmd then some (s.after cmd h) else none

/-- A command whose failure changes nothing. -/
def attempt (s : State host) (cmd : Cmd C R E P) : State host := (exec s cmd).getD s

theorem attempt_cases (s : State host) (cmd : Cmd C R E P) :
    (∃ h, attempt s cmd = s.after cmd h) ∨ ¬ Succeeds s cmd ∧ attempt s cmd = s := by
  unfold attempt exec
  by_cases h : Succeeds s cmd
  · rw [dif_pos h]
    exact .inl ⟨h, rfl⟩
  · rw [dif_neg h]
    exact .inr ⟨h, rfl⟩

theorem entries_attempt (s : State host) (cmd : Cmd C R E P) (e : E) :
    (attempt s cmd).entries e = actEntries host e (s.entries e) cmd := by
  obtain ⟨h, heq⟩ | ⟨h, heq⟩ := attempt_cases s cmd
  · rw [heq]
    rfl
  · rw [heq]
    cases cmd with
    | add d p =>
      have hmem : p ∈ s.entries d := Decidable.not_not.mp h
      simp only [actEntries]
      split
      · rename_i hd
        rw [if_pos (hd ▸ hmem)]
      · rfl
    | del d p =>
      simp only [actEntries]
      split
      · rename_i hd
        exact (List.erase_of_not_mem (hd ▸ h)).symm
      · rfl
    | new | flush | append | delete | remove => rfl

/-- An append or a remove may fail because of other chains. The rest fails where it has nothing
to do. -/
theorem chain_attempt {s : State host} {cmd : Cmd C R E P}
    (h : Succeeds s cmd ∨ (∀ c r, cmd ≠ .append c r) ∧ ∀ c, cmd ≠ .remove c) (c : C) :
    (attempt s cmd).chain c = act c (s.chain c) cmd := by
  obtain ⟨hs, heq⟩ | ⟨hs, heq⟩ := attempt_cases s cmd
  · rw [heq]
    rfl
  · obtain h | ⟨hne, hne'⟩ := h
    · exact absurd h hs
    rw [heq]
    cases cmd with
    | new d =>
      simp only [act]
      split
      · rename_i hd
        obtain ⟨rules, hrules⟩ := Option.ne_none_iff_exists'.mp hs
        rw [← hd, hrules]
        rfl
      · rfl
    | flush d =>
      simp only [act]
      split
      · rename_i hd
        have hnone : s.chain d = none := Option.not_isSome_iff_eq_none.mp hs
        rw [← hd, hnone]
        rfl
      · rfl
    | append d r => exact absurd rfl (hne d r)
    | delete d r =>
      simp only [act]
      split
      · rename_i hd
        rw [← hd]
        have hmem : r ∉ (s.chain d).getD [] := hs
        cases hrules : s.chain d with
        | none => rfl
        | some rules =>
          rw [hrules] at hmem
          exact congrArg some (List.erase_of_not_mem hmem).symm
      · rfl
    | remove d => exact absurd rfl (hne' d)
    | add | del => rfl

/-- A chain that a command does not name stays as it is. -/
theorem chain_attempt_eq {s : State host} {cmd : Cmd C R E P} {c : C}
    (h : act c (s.chain c) cmd = s.chain c) : (attempt s cmd).chain c = s.chain c := by
  obtain ⟨hs, heq⟩ | ⟨-, heq⟩ := attempt_cases s cmd
  · rw [heq]
    exact h
  · rw [heq]

/-! ## Scripts -/

/-- A line of a script. The script stops when a line fails that must not. -/
structure Line (C R E P : Type) where
  cmd : Cmd C R E P
  must : Bool
  deriving DecidableEq, Repr

/-- The state at the end, and the command that stopped the script. -/
def runScript (s : State host) : List (Line C R E P) → State host × Option (Cmd C R E P)
  | [] => (s, none)
  | l :: rest =>
    match exec s l.cmd with
    | some s' => runScript s' rest
    | none => if l.must then (s, some l.cmd) else runScript s rest

def attempts (s : State host) (cmds : List (Cmd C R E P)) : State host := cmds.foldl attempt s

@[simp] theorem attempts_nil (s : State host) : attempts s [] = s := rfl

@[simp] theorem attempts_cons (s : State host) (cmd : Cmd C R E P) (cmds : List (Cmd C R E P)) :
    attempts s (cmd :: cmds) = attempts (attempt s cmd) cmds := rfl

/-- A line goes on from its attempt, or it stops the script where it is. -/
theorem runScript_cons (s : State host) (l : Line C R E P) (rest : List (Line C R E P)) :
    runScript s (l :: rest) = runScript (attempt s l.cmd) rest ∨
      l.must = true ∧ ¬ Succeeds s l.cmd ∧ runScript s (l :: rest) = (s, some l.cmd) := by
  rw [runScript]
  obtain ⟨h, heq⟩ | ⟨h, heq⟩ := attempt_cases s l.cmd
  · rw [heq, exec, dif_pos h]
    exact .inl rfl
  · rw [heq, exec, dif_neg h]
    cases hmust : l.must
    · exact .inl rfl
    · exact .inr ⟨rfl, h, rfl⟩

/-- A script does the commands of its first lines. -/
theorem exists_runScript_eq (s : State host) (lines : List (Line C R E P)) :
    ∃ first rest, lines.map Line.cmd = first ++ rest ∧
      (runScript s lines).1 = attempts s first := by
  induction lines generalizing s with
  | nil => exact ⟨[], [], rfl, rfl⟩
  | cons l lines ih =>
    obtain heq | ⟨-, -, heq⟩ := runScript_cons s l lines
    · obtain ⟨first, rest, hsplit, hrun⟩ := ih (attempt s l.cmd)
      refine ⟨l.cmd :: first, rest, ?_, ?_⟩
      · rw [List.map_cons, hsplit, List.cons_append]
      · rw [heq, hrun, attempts_cons]
    · exact ⟨[], _, rfl, congrArg Prod.fst heq⟩

/-- A script that no line can stop does all its commands. -/
theorem runScript_tolerant (s : State host) {lines : List (Line C R E P)}
    (h : lines.all fun l => !l.must) :
    (runScript s lines).1 = attempts s (lines.map Line.cmd) := by
  induction lines generalizing s with
  | nil => rfl
  | cons l lines ih =>
    simp only [List.all_cons, Bool.and_eq_true, Bool.not_eq_true'] at h
    obtain heq | ⟨hmust, -, -⟩ := runScript_cons s l lines
    · rw [heq, ih _ h.2]
      rfl
    · rw [h.1] at hmust
      cases hmust

theorem entries_runScript {s : State host} {lines : List (Line C R E P)}
    (h : (runScript s lines).2 = none) (e : E) :
    (runScript s lines).1.entries e =
      (lines.map Line.cmd).foldl (actEntries host e) (s.entries e) := by
  induction lines generalizing s with
  | nil => rfl
  | cons l lines ih =>
    obtain heq | ⟨-, -, heq⟩ := runScript_cons s l lines
    · rw [heq] at h ⊢
      rw [ih h, entries_attempt]
      rfl
    · rw [heq] at h
      cases h

/-- The command depends on its own chain only. -/
def Cmd.alone : Cmd C R E P → Bool
  | .append _ _ | .remove _ => false
  | _ => true

/-- A script that was not stopped does to each chain what its lines do there. -/
theorem chain_runScript {s : State host} {lines : List (Line C R E P)}
    (h : (runScript s lines).2 = none) (hlines : lines.all fun l => l.must || l.cmd.alone) (c : C) :
    (runScript s lines).1.chain c = (lines.map Line.cmd).foldl (act c) (s.chain c) := by
  induction lines generalizing s with
  | nil => rfl
  | cons l lines ih =>
    simp only [List.all_cons, Bool.and_eq_true, Bool.or_eq_true] at hlines
    have hdone : Succeeds s l.cmd ∨ (∀ c r, l.cmd ≠ .append c r) ∧ ∀ c, l.cmd ≠ .remove c := by
      obtain hmust | halone := hlines.1
      · left
        by_contra hfail
        unfold runScript exec at h
        rw [dif_neg hfail] at h
        simp only [hmust, if_true] at h
        cases h
      · right
        refine ⟨fun d r heq => ?_, fun d heq => ?_⟩ <;>
        · rw [heq] at halone
          cases halone
    obtain heq | ⟨-, -, heq⟩ := runScript_cons s l lines
    · rw [heq] at h ⊢
      rw [ih h hlines.2, chain_attempt hdone]
      rfl
    · rw [heq] at h
      cases h

/-! ## Scripts that are not stopped -/

/-- Every line that must succeed names chains that are there by then. -/
def ready (host : Host C R E P) : List C → List (Line C R E P) → Bool
  | _, [] => true
  | known, l :: rest =>
    match l.cmd with
    | .new c => !l.must && ready host (c :: known) rest
    | .flush c => decide (c ∈ known) && ready host known rest
    | .append c r =>
      decide (c ∈ known) && (host.jump c r).all (fun d => decide (d ∈ known)) &&
        ready host known rest
    | .remove _ => false
    | .delete _ _ | .add _ _ | .del _ _ => !l.must && ready host known rest

theorem isSome_attempt {s : State host} {cmd : Cmd C R E P} {c : C} (h : (s.chain c).isSome)
    (hcmd : ∀ d, cmd ≠ .remove d) : ((attempt s cmd).chain c).isSome := by
  obtain ⟨hs, heq⟩ | ⟨-, heq⟩ := attempt_cases s cmd
  · rw [heq]
    change (act c (s.chain c) cmd).isSome
    cases cmd with
    | remove d => exact absurd rfl (hcmd d)
    | new d | flush d | append d r | delete d r =>
      simp only [act]
      split <;> simp [h]
    | add | del => exact h
  · rw [heq]
    exact h

theorem isSome_attempt_new (s : State host) (c : C) :
    ((attempt s (.new c : Cmd C R E P)).chain c).isSome := by
  rw [chain_attempt (.inr ⟨nofun, nofun⟩)]
  simp [act]

theorem runScript_ready {s : State host} {known : List C} {lines : List (Line C R E P)}
    (hknown : ∀ c ∈ known, (s.chain c).isSome) (h : ready host known lines = true) :
    (runScript s lines).2 = none := by
  induction lines generalizing s known with
  | nil => rfl
  | cons l lines ih =>
    obtain ⟨cmd, must⟩ := l
    -- the rest of the script finds what was known, and what is new
    have hrest : ∀ known', (∀ c ∈ known', ((attempt s cmd).chain c).isSome) →
        (must = false ∨ Succeeds s cmd) → ready host known' lines = true →
        (runScript s (⟨cmd, must⟩ :: lines)).2 = none := by
      intro known' hknown' hgoes hready
      obtain heq | ⟨hmust, hfail, -⟩ := runScript_cons s ⟨cmd, must⟩ lines
      · rw [heq]
        exact ih hknown' hready
      · obtain hmust' | hs := hgoes
        · rw [hmust'] at hmust
          cases hmust
        · exact absurd hs hfail
    have hkeeps : (∀ d, cmd ≠ .remove d) → ∀ c ∈ known, ((attempt s cmd).chain c).isSome :=
      fun hcmd c hc => isSome_attempt (hknown c hc) hcmd
    cases cmd with
    | new c =>
      simp only [ready, Bool.and_eq_true, Bool.not_eq_true'] at h
      refine hrest (c :: known) (fun d hd => ?_) (.inl h.1) h.2
      rcases List.mem_cons.mp hd with rfl | hd
      · exact isSome_attempt_new s d
      · exact hkeeps nofun d hd
    | flush c =>
      simp only [ready, Bool.and_eq_true, decide_eq_true_eq] at h
      exact hrest known (hkeeps nofun) (.inr (hknown c h.1)) h.2
    | append c r =>
      simp only [ready, Bool.and_eq_true, decide_eq_true_eq] at h
      obtain ⟨⟨hc, hjump⟩, hready⟩ := h
      refine hrest known (hkeeps nofun) (.inr ⟨hknown c hc, ?_⟩) hready
      cases hd : host.jump c r with
      | none => rfl
      | some d =>
        rw [hd] at hjump
        exact hknown d (of_decide_eq_true hjump)
    | remove c => cases h
    | delete c r | add e p | del e p =>
      simp only [ready, Bool.and_eq_true, Bool.not_eq_true'] at h
      exact hrest known (hkeeps nofun) (.inl h.1) h.2

end

/-! ## What a script leaves behind -/

variable [DecidableEq P] {host : Host C R E P}

/-- A program with its own chains, the rules it may hang into other chains, and its entry in each
list. -/
structure Program (host : Host C R E P) where
  own : C → Bool
  hooks : List (C × R)
  mine : E → P
  not_builtin : ∀ c, own c → host.builtin c = false
  hooks_jump : ∀ h ∈ hooks, own h.1 = false ∧ ∃ x, host.jump h.1 h.2 = some x ∧ own x

/-- Nothing of the program is there. -/
structure Clean (prog : Program host) (s : State host) : Prop where
  own : ∀ c, prog.own c → s.chain c = none
  jump : ∀ c, ∀ r ∈ (s.chain c).getD [], ∀ x, host.jump c r = some x → prog.own x = false
  mine : ∀ e, prog.mine e ∉ s.entries e

/-- What is known of a state: the hooks that may be there, the own chains without rules, those
that do not exist, and the lists without the entry of the program. -/
structure Facts (C R E : Type) where
  present : List (C × R)
  bare : List C
  gone : List C
  off : List E

/-- The state `t` came from `s`, with what is known of it. Each chain of another is as it was,
with hooks at its end. -/
structure Fits (prog : Program host) (s : State host) (f : Facts C R E) (t : State host) :
    Prop where
  others : ∀ c, prog.own c = false → ∃ hung, t.chain c = (s.chain c).map (· ++ hung) ∧
    hung.Nodup ∧ ∀ r ∈ hung, (c, r) ∈ f.present
  owned : ∀ c, prog.own c → ∀ r ∈ (t.chain c).getD [], host.jump c r = none
  bare : ∀ c ∈ f.bare, prog.own c ∧ (t.chain c).getD [] = []
  gone : ∀ c ∈ f.gone, prog.own c ∧ t.chain c = none
  entries : ∀ e, t.entries e = s.entries e ∨
    t.entries e = host.put e (prog.mine e) (s.entries e)
  off : ∀ e ∈ f.off, t.entries e = s.entries e

section

variable {prog : Program host} {s t : State host} {f g : Facts C R E}

theorem Clean.fits (h : Clean prog s) (hooks : List (C × R)) (off : List E) :
    Fits prog s ⟨hooks, [], [], off⟩ s where
  others c _ := ⟨[], by simp⟩
  owned c hc r hr := by
    rw [h.own c hc] at hr
    cases hr
  bare := nofun
  gone := nofun
  entries e := .inl rfl
  off e _ := rfl

/-- A hook is no rule of another. -/
theorem Clean.hook_not_mem (h : Clean prog s) {c : C} {r : R} (hr : (c, r) ∈ prog.hooks) :
    r ∉ (s.chain c).getD [] := by
  intro hmem
  obtain ⟨-, x, hx, hown⟩ := prog.hooks_jump _ hr
  have := h.jump c r hmem x hx
  rw [hown] at this
  cases this

/-- To know less is to fit more states. -/
theorem Fits.mono (h : Fits prog s f t) (hpresent : ∀ p ∈ f.present, p ∈ g.present)
    (hbare : ∀ c ∈ g.bare, c ∈ f.bare) (hgone : ∀ c ∈ g.gone, c ∈ f.gone)
    (hoff : ∀ e ∈ g.off, e ∈ f.off) : Fits prog s g t where
  others c hc := by
    obtain ⟨hung, heq, hnodup, hmem⟩ := h.others c hc
    exact ⟨hung, heq, hnodup, fun r hr => hpresent _ (hmem r hr)⟩
  owned := h.owned
  bare c hc := h.bare c (hbare c hc)
  gone c hc := h.gone c (hgone c hc)
  entries := h.entries
  off e he := h.off e (hoff e he)

/-- An own chain to which no hook jumps is not referenced. -/
theorem Fits.not_referenced (hclean : Clean prog s) (h : Fits prog s f t) {c : C}
    (hc : prog.own c) (hjump : ∀ p ∈ f.present, host.jump p.1 p.2 ≠ some c) :
    ¬ Referenced t c := by
  rintro ⟨d, r, hr, hd⟩
  cases hown : prog.own d with
  | true =>
    rw [h.owned d hown r hr] at hd
    cases hd
  | false =>
    obtain ⟨hung, hchain, -, hmem⟩ := h.others d hown
    rw [hchain] at hr
    cases hrules : s.chain d with
    | none =>
      rw [hrules] at hr
      cases hr
    | some rules =>
      rw [hrules] at hr
      rcases List.mem_append.mp hr with hr | hr
      · have := hclean.jump d r (by rw [hrules]; exact hr) c hd
        rw [hc] at this
        cases this
      · exact hjump _ (hmem r hr) hd

/-- A state of which nothing of the program is left is the state it came from. -/
theorem Fits.eq_of_nothing_left (hclean : Clean prog s) (h : Fits prog s f t)
    (hpresent : f.present = []) (hgone : ∀ c, prog.own c → c ∈ f.gone) (hoff : ∀ e, e ∈ f.off) :
    t = s := by
  apply State.ext
  · funext c
    cases hown : prog.own c with
    | true => rw [(h.gone c (hgone c hown)).2, hclean.own c hown]
    | false =>
      obtain ⟨hung, hchain, -, hmem⟩ := h.others c hown
      have hnil : hung = [] := by
        apply List.eq_nil_iff_forall_not_mem.mpr
        intro r hr
        have := hmem r hr
        rw [hpresent] at this
        cases this
      rw [hchain, hnil]
      simp
  · funext e
    exact h.off e (hoff e)

/-- A change of the entry of the program in one list. -/
theorem Fits.list [DecidableEq E] (h : Fits prog s f t) {t' : State host} {e : E} {off : List E}
    (hchain : t'.chain = t.chain) (hothers : ∀ d, d ≠ e → t'.entries d = t.entries d)
    (hself : t'.entries e = s.entries e ∨
      t'.entries e = host.put e (prog.mine e) (s.entries e) ∧ e ∉ off)
    (hoff : ∀ d ∈ off, d ≠ e → d ∈ f.off) : Fits prog s { f with off := off } t' where
  others := hchain ▸ h.others
  owned := hchain ▸ h.owned
  bare := hchain ▸ h.bare
  gone := hchain ▸ h.gone
  entries d := by
    by_cases hde : d = e
    · subst hde
      exact hself.imp_right And.left
    · rw [hothers d hde]
      exact h.entries d
  off d hd := by
    by_cases hde : d = e
    · subst hde
      obtain hself | ⟨-, hnot⟩ := hself
      · exact hself
      · exact absurd hd hnot
    · rw [hothers d hde]
      exact h.off d (hoff d hd hde)

variable [DecidableEq C]

/-- A change of one own chain, after which its rules still do not jump. -/
theorem Fits.own_chain (h : Fits prog s f t) {t' : State host} {c : C} (hc : prog.own c)
    (hothers : ∀ d, d ≠ c → t'.chain d = t.chain d) (hentries : t'.entries = t.entries)
    (hjump : ∀ r ∈ (t'.chain c).getD [], host.jump c r = none)
    (hbare : c ∈ f.bare → (t'.chain c).getD [] = []) (hgone : c ∈ f.gone → t'.chain c = none) :
    Fits prog s f t' where
  others d hd := by
    have hne : d ≠ c := by
      rintro rfl
      rw [hc] at hd
      cases hd
    rw [hothers d hne]
    exact h.others d hd
  owned d hd := by
    by_cases hdc : d = c
    · subst hdc
      exact hjump
    · rw [hothers d hdc]
      exact h.owned d hd
  bare d hd := by
    by_cases hdc : d = c
    · subst hdc
      exact ⟨hc, hbare hd⟩
    · rw [hothers d hdc]
      exact h.bare d hd
  gone d hd := by
    by_cases hdc : d = c
    · subst hdc
      exact ⟨hc, hgone hd⟩
    · rw [hothers d hdc]
      exact h.gone d hd
  entries e := by
    rw [hentries]
    exact h.entries e
  off e he := by
    rw [hentries]
    exact h.off e he

/-- A change of one chain of another, of which only the hooks change. -/
theorem Fits.other_chain (h : Fits prog s f t) {t' : State host} {c : C} {present : List (C × R)}
    (hc : prog.own c = false) (hothers : ∀ d, d ≠ c → t'.chain d = t.chain d)
    (hentries : t'.entries = t.entries)
    (hpresent : ∀ p ∈ f.present, p.1 ≠ c → p ∈ present)
    (hself : ∃ hung, t'.chain c = (s.chain c).map (· ++ hung) ∧ hung.Nodup ∧
      ∀ r ∈ hung, (c, r) ∈ present) :
    Fits prog s { f with present := present } t' := by
  have hne : ∀ d, prog.own d → d ≠ c := by
    rintro d hd rfl
    rw [hc] at hd
    cases hd
  refine ⟨fun d hd => ?_, fun d hd => ?_, fun d hd => ?_, fun d hd => ?_, ?_, ?_⟩
  · by_cases hdc : d = c
    · subst hdc
      exact hself
    · rw [hothers d hdc]
      obtain ⟨hung, heq, hnodup, hmem⟩ := h.others d hd
      exact ⟨hung, heq, hnodup, fun r hr => hpresent _ (hmem r hr) hdc⟩
  · rw [hothers d (hne d hd)]
    exact h.owned d hd
  · rw [hothers d (hne d (h.bare d hd).1)]
    exact h.bare d hd
  · rw [hothers d (hne d (h.gone d hd).1)]
    exact h.gone d hd
  · rw [hentries]
    exact h.entries
  · rw [hentries]
    exact h.off

variable [DecidableEq R] [DecidableEq E]

/-- What is known after a command; `none` when the command is not one of the program, or when it
hangs in a rule that may be there. -/
def Program.check (prog : Program host) (f : Facts C R E) : Cmd C R E P → Option (Facts C R E)
  | .new c => if prog.own c then some { f with gone := f.gone.filter (· ≠ c) } else none
  | .flush c => if prog.own c then some { f with bare := c :: f.bare } else none
  | .append c r =>
    if prog.own c ∧ host.jump c r = none then some { f with bare := f.bare.filter (· ≠ c) }
    else if (c, r) ∈ prog.hooks ∧ (c, r) ∉ f.present then
      some { f with present := (c, r) :: f.present }
    else none
  | .delete c r =>
    if (c, r) ∈ prog.hooks then some { f with present := f.present.filter (· ≠ (c, r)) } else none
  | .remove c =>
    if prog.own c ∧ c ∈ f.bare ∧ ∀ h ∈ f.present, host.jump h.1 h.2 ≠ some c then
      some { f with gone := c :: f.gone }
    else none
  | .add e p => if p = prog.mine e then some { f with off := f.off.filter (· ≠ e) } else none
  | .del e p => if p = prog.mine e then some { f with off := e :: f.off } else none

def Program.checks (prog : Program host) (f : Facts C R E) :
    List (Cmd C R E P) → Option (Facts C R E)
  | [] => some f
  | cmd :: rest => (prog.check f cmd).bind fun f' => prog.checks f' rest

theorem checks_append (prog : Program host) (f : Facts C R E) (first rest : List (Cmd C R E P)) :
    prog.checks f (first ++ rest) = (prog.checks f first).bind fun f' => prog.checks f' rest := by
  induction first generalizing f with
  | nil => rfl
  | cons cmd first ih =>
    rw [List.cons_append, Program.checks, Program.checks, Option.bind_assoc]
    exact congrArg _ (funext fun f' => ih f')

/-- Only the hooks of the program are ever hung in. -/
theorem present_check {cmd : Cmd C R E P} (h : prog.check f cmd = some g)
    (hf : ∀ p ∈ f.present, p ∈ prog.hooks) : ∀ p ∈ g.present, p ∈ prog.hooks := by
  cases cmd with
  | append c r =>
    simp only [Program.check] at h
    split at h
    · cases h
      exact hf
    · simp only [Option.ite_none_right_eq_some, Option.some.injEq] at h
      obtain ⟨⟨hr, -⟩, rfl⟩ := h
      intro p hp
      rcases List.mem_cons.mp hp with rfl | hp
      · exact hr
      · exact hf p hp
  | delete c r =>
    simp only [Program.check, Option.ite_none_right_eq_some, Option.some.injEq] at h
    obtain ⟨-, rfl⟩ := h
    exact fun p hp => hf p (List.mem_of_mem_filter hp)
  | new | flush | remove | add | del =>
    simp only [Program.check, Option.ite_none_right_eq_some, Option.some.injEq] at h
    obtain ⟨-, rfl⟩ := h
    exact hf

theorem present_checks {cmds : List (Cmd C R E P)} (h : prog.checks f cmds = some g)
    (hf : ∀ p ∈ f.present, p ∈ prog.hooks) : ∀ p ∈ g.present, p ∈ prog.hooks := by
  induction cmds generalizing f with
  | nil =>
    cases h
    exact hf
  | cons cmd cmds ih =>
    obtain ⟨f', hcheck, hrest⟩ := Option.bind_eq_some_iff.mp h
    exact ih hrest (present_check hcheck hf)

/-- Nothing but the hooks of the program is known to be possible. -/
def Program.anything (prog : Program host) : Facts C R E := ⟨prog.hooks, [], [], []⟩

variable [Fintype C]

theorem entries_attempt_eq (t : State host) {cmd : Cmd C R E P}
    (h : ∀ e l, actEntries host e l cmd = l) : (attempt t cmd).entries = t.entries := by
  funext e
  rw [entries_attempt, h]

theorem Fits.new (h : Fits prog s f t) {c : C} (hc : prog.own c) :
    Fits prog s { f with gone := f.gone.filter (· ≠ c) } (attempt t (.new c)) := by
  have hchain : (attempt t (.new c)).chain c = some ((t.chain c).getD []) := by
    rw [chain_attempt (.inr ⟨nofun, nofun⟩)]
    exact if_pos rfl
  have hweak : Fits prog s { f with gone := f.gone.filter (· ≠ c) } t :=
    h.mono (fun _ hp => hp) (fun _ hd => hd) (fun _ hd => List.mem_of_mem_filter hd) fun _ he => he
  refine hweak.own_chain hc (fun d hd => ?_) (entries_attempt_eq t fun _ _ => rfl) ?_ ?_ ?_
  · exact chain_attempt_eq (if_neg (Ne.symm hd))
  · rw [hchain]
    exact h.owned c hc
  · intro hbare
    rw [hchain]
    exact (h.bare c hbare).2
  · intro hgone
    simp at hgone

theorem Fits.flush (h : Fits prog s f t) {c : C} (hc : prog.own c) :
    Fits prog s { f with bare := c :: f.bare } (attempt t (.flush c)) := by
  have hchain : (attempt t (.flush c)).chain c = (t.chain c).map fun _ => [] := by
    rw [chain_attempt (.inr ⟨nofun, nofun⟩)]
    exact if_pos rfl
  have hbare : ((attempt t (.flush c)).chain c).getD [] = [] := by
    rw [hchain]
    cases t.chain c <;> rfl
  have hfits : Fits prog s f (attempt t (.flush c)) := by
    refine h.own_chain hc (fun d hd => ?_) (entries_attempt_eq t fun _ _ => rfl) ?_ ?_ ?_
    · exact chain_attempt_eq (if_neg (Ne.symm hd))
    · rw [hbare]
      exact nofun
    · exact fun _ => hbare
    · intro hgone
      rw [hchain, (h.gone c hgone).2]
      rfl
  refine ⟨hfits.others, hfits.owned, fun d hd => ?_, hfits.gone, hfits.entries, hfits.off⟩
  rcases List.mem_cons.mp hd with rfl | hd
  · exact ⟨hc, hbare⟩
  · exact hfits.bare d hd

theorem Fits.append_own (h : Fits prog s f t) {c : C} {r : R} (hc : prog.own c)
    (hr : host.jump c r = none) :
    Fits prog s { f with bare := f.bare.filter (· ≠ c) } (attempt t (.append c r)) := by
  have hweak : Fits prog s { f with bare := f.bare.filter (· ≠ c) } t :=
    h.mono (fun _ hp => hp) (fun _ hd => List.mem_of_mem_filter hd) (fun _ hd => hd) fun _ he => he
  obtain ⟨_, heq⟩ | ⟨-, heq⟩ := attempt_cases t (.append c r)
  · rw [heq]
    have hchain : (act c (t.chain c) (.append c r : Cmd C R E P)) =
        (t.chain c).map (· ++ [r]) := if_pos rfl
    refine hweak.own_chain hc (fun d hd => if_neg (Ne.symm hd)) rfl ?_ ?_ ?_
    · intro r' hr'
      change r' ∈ (act c (t.chain c) (.append c r : Cmd C R E P)).getD [] at hr'
      rw [hchain] at hr'
      cases hrules : t.chain c with
      | none =>
        rw [hrules] at hr'
        cases hr'
      | some rules =>
        rw [hrules] at hr'
        rcases List.mem_append.mp hr' with hr' | hr'
        · exact h.owned c hc r' (by rw [hrules]; exact hr')
        · rw [List.mem_singleton.mp hr']
          exact hr
    · intro hbare
      simp at hbare
    · intro hgone
      change act c (t.chain c) (.append c r : Cmd C R E P) = none
      rw [hchain, (h.gone c hgone).2]
      rfl
  · rw [heq]
    exact hweak

theorem Fits.append_hook (h : Fits prog s f t) {c : C} {r : R} (hr : (c, r) ∈ prog.hooks)
    (hnew : (c, r) ∉ f.present) :
    Fits prog s { f with present := (c, r) :: f.present } (attempt t (.append c r)) := by
  obtain ⟨hc, -⟩ := prog.hooks_jump _ hr
  obtain ⟨_, heq⟩ | ⟨-, heq⟩ := attempt_cases t (.append c r)
  · rw [heq]
    refine h.other_chain hc (fun d hd => if_neg (Ne.symm hd)) rfl
      (fun p hp _ => List.mem_cons_of_mem _ hp) ?_
    obtain ⟨hung, hchain, hnodup, hmem⟩ := h.others c hc
    have hfresh : r ∉ hung := fun hin => hnew (hmem r hin)
    refine ⟨hung ++ [r], ?_, ?_, fun r' hr' => ?_⟩
    · change act c (t.chain c) (.append c r : Cmd C R E P) = _
      rw [act, if_pos rfl, hchain, Option.map_map]
      simp [Function.comp_def]
    · exact List.nodup_append.mpr ⟨hnodup, List.nodup_singleton r, by
        intro a ha b hb hab
        rw [List.mem_singleton.mp hb] at hab
        exact hfresh (hab ▸ ha)⟩
    · rcases List.mem_append.mp hr' with hr' | hr'
      · exact List.mem_cons_of_mem _ (hmem r' hr')
      · rw [List.mem_singleton.mp hr']
        exact List.mem_cons_self
  · rw [heq]
    exact h.mono (fun p hp => List.mem_cons_of_mem _ hp) (fun _ hd => hd) (fun _ hd => hd)
      fun _ he => he

theorem Fits.delete_hook (hclean : Clean prog s) (h : Fits prog s f t) {c : C} {r : R}
    (hr : (c, r) ∈ prog.hooks) :
    Fits prog s { f with present := f.present.filter (· ≠ (c, r)) } (attempt t (.delete c r)) := by
  obtain ⟨hc, -⟩ := prog.hooks_jump _ hr
  refine h.other_chain hc (fun d hd => chain_attempt_eq (if_neg (Ne.symm hd)))
    (entries_attempt_eq t fun _ _ => rfl) (fun p hp hpc => ?_) ?_
  · refine List.mem_filter.mpr ⟨hp, decide_eq_true fun heq => hpc ?_⟩
    rw [heq]
  obtain ⟨hung, hchain, hnodup, hmem⟩ := h.others c hc
  refine ⟨hung.erase r, ?_, hnodup.erase r, fun r' hr' => ?_⟩
  · rw [chain_attempt (.inr ⟨nofun, nofun⟩), act, if_pos rfl, hchain, Option.map_map]
    have hforeign := hclean.hook_not_mem hr
    cases hrules : s.chain c with
    | none => rfl
    | some rules =>
      rw [hrules] at hforeign
      exact congrArg some (List.erase_append_right _ hforeign)
  · obtain ⟨hne, hin⟩ := hnodup.mem_erase_iff.mp hr'
    refine List.mem_filter.mpr ⟨hmem r' hin, decide_eq_true fun heq => hne ?_⟩
    exact (Prod.mk.inj heq).2

theorem Fits.remove (hclean : Clean prog s) (h : Fits prog s f t) {c : C} (hc : prog.own c)
    (hbare : c ∈ f.bare) (hjump : ∀ p ∈ f.present, host.jump p.1 p.2 ≠ some c) :
    Fits prog s { f with gone := c :: f.gone } (attempt t (.remove c)) := by
  have hnone : (attempt t (.remove c)).chain c = none := by
    cases hrules : t.chain c with
    | none => rw [chain_attempt_eq (by rw [act, if_pos rfl, hrules]), hrules]
    | some rules =>
      have hempty := (h.bare c hbare).2
      rw [hrules] at hempty
      have hsucc : Succeeds t (.remove c : Cmd C R E P) :=
        ⟨prog.not_builtin c hc, hrules.trans (congrArg some hempty),
          h.not_referenced hclean hc hjump⟩
      rw [chain_attempt (.inl hsucc)]
      exact if_pos rfl
  have hfits : Fits prog s f (attempt t (.remove c)) := by
    refine h.own_chain hc (fun d hd => ?_) (entries_attempt_eq t fun _ _ => rfl) ?_ ?_ ?_
    · exact chain_attempt_eq (if_neg (Ne.symm hd))
    · rw [hnone]
      exact nofun
    · intro _
      rw [hnone]
      rfl
    · exact fun _ => hnone
  refine ⟨hfits.others, hfits.owned, hfits.bare, fun d hd => ?_, hfits.entries, hfits.off⟩
  rcases List.mem_cons.mp hd with rfl | hd
  · exact ⟨hc, hnone⟩
  · exact hfits.gone d hd

theorem Fits.add (hclean : Clean prog s) (h : Fits prog s f t) (e : E) :
    Fits prog s { f with off := f.off.filter (· ≠ e) } (attempt t (.add e (prog.mine e))) := by
  refine h.list (e := e) (funext fun d => chain_attempt_eq rfl) (fun d hd => ?_) (.inr ⟨?_, ?_⟩)
    fun d hd _ => List.mem_of_mem_filter hd
  · rw [entries_attempt, actEntries, if_neg (Ne.symm hd)]
  · rw [entries_attempt, actEntries, if_pos rfl]
    obtain heq | heq := h.entries e
    · rw [heq, if_neg (hclean.mine e)]
    · rw [heq, if_pos (host.mem_put _ _ _)]
  · simp

theorem Fits.del (hclean : Clean prog s) (h : Fits prog s f t) (e : E) :
    Fits prog s { f with off := e :: f.off } (attempt t (.del e (prog.mine e))) := by
  refine h.list (e := e) (funext fun d => chain_attempt_eq rfl) (fun d hd => ?_) (.inl ?_)
    fun d hd hde => (List.mem_cons.mp hd).resolve_left hde
  · rw [entries_attempt, actEntries, if_neg (Ne.symm hd)]
  · rw [entries_attempt, actEntries, if_pos rfl]
    obtain heq | heq := h.entries e
    · rw [heq, List.erase_of_not_mem (hclean.mine e)]
    · rw [heq, host.erase_put _ _ _ (hclean.mine e)]

/-- The check is right about one command. -/
theorem Fits.check (hclean : Clean prog s) (h : Fits prog s f t) {cmd : Cmd C R E P}
    (hcheck : prog.check f cmd = some g) : Fits prog s g (attempt t cmd) := by
  cases cmd with
  | new c =>
    simp only [Program.check, Option.ite_none_right_eq_some, Option.some.injEq] at hcheck
    obtain ⟨hc, rfl⟩ := hcheck
    exact h.new hc
  | flush c =>
    simp only [Program.check, Option.ite_none_right_eq_some, Option.some.injEq] at hcheck
    obtain ⟨hc, rfl⟩ := hcheck
    exact h.flush hc
  | append c r =>
    simp only [Program.check] at hcheck
    split at hcheck
    · rename_i hown
      cases hcheck
      exact h.append_own hown.1 hown.2
    · simp only [Option.ite_none_right_eq_some, Option.some.injEq] at hcheck
      obtain ⟨⟨hr, hnew⟩, rfl⟩ := hcheck
      exact h.append_hook hr hnew
  | delete c r =>
    simp only [Program.check, Option.ite_none_right_eq_some, Option.some.injEq] at hcheck
    obtain ⟨hr, rfl⟩ := hcheck
    exact h.delete_hook hclean hr
  | remove c =>
    simp only [Program.check, Option.ite_none_right_eq_some, Option.some.injEq] at hcheck
    obtain ⟨⟨hc, hbare, hjump⟩, rfl⟩ := hcheck
    exact h.remove hclean hc hbare hjump
  | add e p =>
    simp only [Program.check, Option.ite_none_right_eq_some, Option.some.injEq] at hcheck
    obtain ⟨rfl, rfl⟩ := hcheck
    exact h.add hclean e
  | del e p =>
    simp only [Program.check, Option.ite_none_right_eq_some, Option.some.injEq] at hcheck
    obtain ⟨rfl, rfl⟩ := hcheck
    exact h.del hclean e

theorem Fits.checks (hclean : Clean prog s) (h : Fits prog s f t) {cmds : List (Cmd C R E P)}
    (hchecks : prog.checks f cmds = some g) : Fits prog s g (attempts t cmds) := by
  induction cmds generalizing f t with
  | nil =>
    cases hchecks
    exact h
  | cons cmd cmds ih =>
    obtain ⟨f', hcheck, hrest⟩ := Option.bind_eq_some_iff.mp hchecks
    exact ih (h.check hclean hcheck) hrest

/-- A script that checks out may be stopped anywhere: what holds of every state of the program
holds there. -/
theorem Fits.script (hclean : Clean prog s) (h : Fits prog s prog.anything t)
    {lines : List (Line C R E P)}
    (hchecks : (prog.checks prog.anything (lines.map Line.cmd)).isSome) (n : Nat) :
    Fits prog s prog.anything (runScript t (lines.take n)).1 := by
  obtain ⟨first, rest, hsplit, hrun⟩ := exists_runScript_eq t (lines.take n)
  have hall : lines.map Line.cmd = first ++ (rest ++ (lines.drop n).map Line.cmd) := by
    rw [← List.append_assoc, ← hsplit, ← List.map_append, List.take_append_drop]
  rw [hall, checks_append] at hchecks
  obtain ⟨g, hg⟩ := Option.isSome_iff_exists.mp (Option.isSome_of_isSome_bind hchecks)
  rw [hrun]
  exact (h.checks hclean hg).mono (present_checks hg fun _ hp => hp) nofun nofun nofun

end

end netfilter
