-- Many calls of SetupRules, one after another. Cleanup restores the tables after any of them,
-- also when they were stopped in the middle. A setup makes the tables what it alone would make
-- them exactly when all setups before it had its mode: each mode leaves the hooks and chains of
-- the other where they are.
import Vproxy.Iptables
import Vproxy.Runs

open go netfilter

namespace vproxy.iptables

variable {F : Type} [DecidableEq F] [Fintype F]

/-! ## Cleanup -/

/-- A call of `SetupRules` with its target and mode. -/
structure Call where
  target : Str
  isRemoteTProxy : Bool
  deriving DecidableEq, Repr

/-- Calls of `SetupRules` of which each ran its first commands only. -/
def setupsStopped (s : Net F) (calls : List (Call × Nat)) : Net F :=
  calls.foldl (fun t c => (runScript t ((setupLines c.1.target c.1.isRemoteTProxy).take c.2)).1) s

theorem setupsStopped_fits {s : Net F} (hs : Clean (program F) s) (calls : List (Call × Nat)) :
    Fits (program F) s (program F).anything (setupsStopped s calls) := by
  suffices h : ∀ t, Fits (program F) s (program F).anything t →
      Fits (program F) s (program F).anything (setupsStopped t calls) from
    h s (hs.fits _ _)
  induction calls with
  | nil => exact fun t ht => ht
  | cons c calls ih =>
    intro t ht
    exact ih _ (ht.script hs (setup_checks c.1.target c.1.isRemoteTProxy) c.2)

theorem cleanupRules_eq_of_fits {s t : Net F} (hs : Clean (program F) s)
    (ht : Fits (program F) s (program F).anything t) : cleanupRules t = s := by
  have hall : (cleanupLines : List (Line (Chain F) (Rule F) Place Entry)).all fun l => !l.must :=
    rfl
  unfold cleanupRules
  rw [runScript_tolerant t hall]
  exact (ht.checks hs cleanup_checks).eq_of_nothing_left hs rfl (fun c hc => mem_ownChains hc)
    mem_places

/-- Tables with rules of another program. -/
def dockerNet : Net Unit where
  chain
    | (_, .nat, .output) => some [⟨[.dst "172.17.0.0/16"], .jump (.other ())⟩]
    | (_, .nat, .other _) => some [⟨[.proto .tcp], .other "DNAT --to-destination 172.17.0.2:80"⟩]
    | (_, _, .output) | (_, _, .prerouting) => some []
    | _ => none
  entries
    | .rules _ => [.other "from all lookup local", .other "from all lookup main"]
    | .table100 _ => []
  isSome_builtin := by
    rintro ⟨v, t, n⟩ h
    cases t <;> cases n <;> first | rfl | cases h

theorem clean_dockerNet : Clean (program Unit) dockerNet where
  own := by
    rintro ⟨v, t, n⟩ h
    cases t <;> cases n <;> cases h <;> rfl
  jump := by
    rintro ⟨v, t, n⟩ r hr x hx
    cases t <;> cases n <;> simp [dockerNet] at hr <;> (subst hr; cases hx <;> rfl)
  mine := by
    intro e
    cases e <;> simp [dockerNet, program, ownEntry, fwmarkRule]

/-- Cleanup brings back the tables as they were before the first setup. -/
theorem cleanup_restores {s : Net F} (hs : Clean (program F) s) (calls : List (Call × Nat)) :
    cleanupRules (setupsStopped s calls) = s :=
  cleanupRules_eq_of_fits hs (setupsStopped_fits hs calls)

/-- A local setup that was stopped among the mangle rules, then a remote one stopped early. -/
theorem cleanup_restores_dockerNet :
    cleanupRules (setupsStopped dockerNet [(⟨"1080", false⟩, 35), (⟨"10.0.0.9:7893", true⟩, 7)]) =
      dockerNet := cleanup_restores clean_dockerNet _

/-! ## Setups one after another -/

def setup (s : Net F) (c : Call) : Net F := (setupRules s c.target c.isRemoteTProxy).1

def setups (s : Net F) (calls : List Call) : Net F := runs.run setup s calls

/-- What the program has in the tables: its own chains, and in the others the rules that jump to
them. -/
def vproxyPart (s : Net F) (c : Chain F) : Option (List (Rule F)) :=
  if isOwn c then s.chain c else (s.chain c).map (List.filter fun r => (jumpOf c r).any isOwn)

/-! ## Hooks -/

section

variable {r : Rule F} {rules hung more : List (Rule F)}

/-- Taken away and hung in again. -/
def rehung (rules : List (Rule F)) (r : Rule F) : List (Rule F) := rules.erase r ++ [r]

omit [Fintype F] in
theorem mem_rehung {q : Rule F} (h : q ∈ rules) : q ∈ rehung rules r := by
  by_cases hq : q = r
  · simp [rehung, hq]
  · exact List.mem_append_left _ ((List.mem_erase_of_ne hq).mpr h)

omit [Fintype F] in
theorem mem_foldl_rehung {q : Rule F} (h : q ∈ rules ∨ q ∈ hung) :
    q ∈ hung.foldl rehung rules := by
  induction hung generalizing rules with
  | nil => exact h.resolve_right nofun
  | cons r hung ih =>
    apply ih
    rcases h with h | h
    · exact .inl (mem_rehung h)
    · rcases List.mem_cons.mp h with rfl | h
      · exact .inl (by simp [rehung])
      · exact .inr h

omit [Fintype F] in
/-- New hooks come after the rules, in their order. -/
theorem foldl_rehung_new (hnodup : hung.Nodup) (hnew : ∀ q ∈ hung, q ∉ rules) :
    hung.foldl rehung rules = rules ++ hung := by
  induction hung generalizing rules with
  | nil => simp
  | cons r hung ih =>
    obtain ⟨hr, hnodup⟩ := List.nodup_cons.mp hnodup
    have hfirst : rehung rules r = rules ++ [r] := by
      rw [rehung, List.erase_of_not_mem (hnew r List.mem_cons_self)]
    rw [List.foldl_cons, hfirst, ih hnodup, List.append_assoc, List.singleton_append]
    intro q hq
    simp only [List.mem_append, List.mem_singleton, not_or]
    exact ⟨hnew q (List.mem_cons_of_mem r hq), fun heq => hr (heq ▸ hq)⟩

omit [Fintype F] in
/-- Hooks that are there go behind what was behind them. -/
theorem foldl_rehung_again (hnew : ∀ q ∈ hung, q ∉ rules) :
    hung.foldl rehung (rules ++ hung ++ more) = rules ++ more ++ hung := by
  induction hung generalizing more with
  | nil => simp
  | cons r hung ih =>
    have hfirst : rehung (rules ++ r :: hung ++ more) r = rules ++ hung ++ (more ++ [r]) := by
      rw [rehung, List.append_assoc, List.erase_append_right _ (hnew r List.mem_cons_self)]
      simp
    rw [List.foldl_cons, hfirst, ih fun q hq => hnew q (List.mem_cons_of_mem r hq)]
    simp

end

/-! ## One setup -/

/-- The chains that a mode names. -/
def touches : Bool → Chain F → Bool
  | _, (_, .nat, .vproxyRedirect) | _, (_, .nat, .output) => true
  | false, (_, .mangle, .vproxyMark) | false, (_, .mangle, .output) => true
  | false, (_, .mangle, .vproxyTproxy) | false, (_, .mangle, .prerouting) => true
  | _, _ => false

omit [DecidableEq F] [Fintype F] in
theorem all_touched (target : Str) (remote : Bool) :
    ((setupLines target remote).map Line.cmd).all fun cmd =>
      cmd.chain.all (touches remote : Chain F → Bool) := by
  cases remote <;> rfl

theorem chain_setup_untouched {s : Net F} {call : Call} {c : Chain F}
    (h : touches call.isRemoteTProxy c = false) : (setup s call).chain c = s.chain c := by
  unfold setup
  rw [chain_setupRules]
  apply foldl_act_of_not_named
  intro cmd hcmd hchain
  have htouched := List.all_eq_true.mp (all_touched call.target call.isRemoteTProxy) cmd hcmd
  rw [hchain] at htouched
  exact Bool.false_ne_true (h.symm.trans htouched)

/-- An own chain that a mode names is filled anew, whatever it was. -/
theorem chain_setup_own (s s' : Net F) (call : Call) {c : Chain F} (hown : isOwn c)
    (h : touches call.isRemoteTProxy c) : (setup s call).chain c = (setup s' call).chain c := by
  obtain ⟨target, remote⟩ := call
  obtain ⟨v, t, n⟩ := c
  unfold setup
  rw [chain_setupRules, chain_setupRules]
  cases remote <;> cases v <;> cases t <;> cases n <;> cases hown <;> cases h <;> rfl

/-- The hooks of a mode in a chain of the system. -/
def hooksOf : Bool → Chain F → List (Rule F)
  | true, (_, .nat, .output) => [redirectHook .tcp, redirectHook .udp]
  | false, (_, .nat, .output) => [redirectHook .tcp]
  | false, (_, .mangle, .output) => [markHook]
  | false, (_, .mangle, .prerouting) => [tproxyHook]
  | _, _ => []

theorem chain_setup_builtin {s : Net F} {c : Chain F} {rules : List (Rule F)} (call : Call)
    (hc : isBuiltin c) (h : s.chain c = some rules) :
    (setup s call).chain c = some ((hooksOf call.isRemoteTProxy c).foldl rehung rules) := by
  obtain ⟨target, remote⟩ := call
  obtain ⟨v, t, n⟩ := c
  unfold setup
  rw [chain_setupRules, h]
  cases remote <;> cases v <;> cases t <;> cases n <;> cases hc <;> rfl

omit [DecidableEq F] [Fintype F] in
theorem hooksOf_spec (remote : Bool) (c : Chain F) :
    (hooksOf remote c).Nodup ∧
      ∀ r ∈ hooksOf remote c, (c, r) ∈ (hooks : List (Chain F × Rule F)) := by
  obtain ⟨v, t, n⟩ := c
  cases remote <;> cases v <;> cases t <;> cases n <;>
    simp [hooksOf, hooks, natOutput, mangleOutput, manglePrerouting, redirectHook]

omit [DecidableEq F] [Fintype F] in
theorem exists_builtin (s : Net F) {c : Chain F} (h : isBuiltin c) :
    ∃ rules, s.chain c = some rules := Option.isSome_iff_exists.mp (s.isSome_builtin c h)

omit [DecidableEq F] [Fintype F] in
/-- A hook is not among the rules of a clean state. -/
theorem not_mem_of_clean {s : Net F} (hs : Clean (program F) s) {c : Chain F} {r : Rule F}
    {rules : List (Rule F)} (h : s.chain c = some rules)
    (hr : (c, r) ∈ (hooks : List (Chain F × Rule F))) : r ∉ rules := by
  have hnot := hs.hook_not_mem hr
  rw [h] at hnot
  exact hnot

/-- A local setup adds its entry to each list. -/
theorem entries_setup_local (s : Net F) (target : Str) (e : Place) :
    (setup s ⟨target, false⟩).entries e =
      actEntries (host F) e (s.entries e) (.add e (ownEntry e)) := by
  unfold setup
  rw [entries_setupRules]
  cases e <;> rename_i v <;> cases v <;> rfl

omit [DecidableEq F] [Fintype F] in
theorem builtin_of_touched {remote : Bool} {c : Chain F} (h : touches remote c)
    (hown : ¬ isOwn c) : isBuiltin c := by
  obtain ⟨v, t, n⟩ := c
  cases remote <;> cases t <;> cases n <;> cases h <;> first | rfl | exact absurd rfl hown

/-- A second setup of the same mode makes the tables what it alone would make them. -/
theorem setup_setup {s : Net F} (hs : Clean (program F) s) {first c : Call}
    (h : first.isRemoteTProxy = c.isRemoteTProxy) : setup (setup s first) c = setup s c := by
  apply State.ext
  · funext d
    cases htouch : touches c.isRemoteTProxy d with
    | false =>
      rw [chain_setup_untouched htouch, chain_setup_untouched (h ▸ htouch),
        chain_setup_untouched htouch]
    | true =>
      by_cases hown : isOwn d
      · exact chain_setup_own _ _ c hown htouch
      · have hbuiltin := builtin_of_touched htouch hown
        obtain ⟨rules, hrules⟩ := exists_builtin s hbuiltin
        obtain ⟨hnodup, hmem⟩ := hooksOf_spec c.isRemoteTProxy d
        have hnew : ∀ r ∈ hooksOf c.isRemoteTProxy d, r ∉ rules :=
          fun r hr => not_mem_of_clean hs hrules (hmem r hr)
        have hfirst := chain_setup_builtin first hbuiltin hrules
        rw [h, foldl_rehung_new hnodup hnew, ← List.append_nil (rules ++ _)] at hfirst
        rw [chain_setup_builtin c hbuiltin hfirst, chain_setup_builtin c hbuiltin hrules,
          foldl_rehung_again hnew, foldl_rehung_new hnodup hnew, List.append_nil]
  · funext e
    obtain ⟨target₁, remote₁⟩ := first
    obtain ⟨target, remote⟩ := c
    obtain rfl : remote₁ = remote := h
    cases remote₁ with
    | true =>
      simp only [setup, entries_setupRules]
      rfl
    | false =>
      rw [entries_setup_local, entries_setup_local, entries_setup_local, actEntries_add_add]

theorem setups_snoc (s : Net F) (calls : List Call) (last : Call) :
    setups s (calls ++ [last]) = setup (setups s calls) last := runs.run_append ..

/-- Setups of one mode make the tables what the last one alone would make them. -/
theorem setups_of_same_mode {s : Net F} (hs : Clean (program F) s) {calls : List Call}
    {last : Call} (h : ∀ c ∈ calls, c.isRemoteTProxy = last.isRemoteTProxy) :
    setups s (calls ++ [last]) = setup s last := by
  induction calls using List.reverseRecOn generalizing last with
  | nil => rfl
  | append_singleton calls c ih =>
    have hc := h c (by simp)
    rw [setups_snoc, ih fun c' hc' => (h c' (by simp [hc'])).trans hc.symm, setup_setup hs hc]

/-- A whole setup is one that was stopped at its end. -/
theorem setups_eq_stopped (s : Net F) (calls : List Call) :
    setups s calls = setupsStopped s
      (calls.map fun c => (c, (setupLines (F := F) c.target c.isRemoteTProxy).length)) := by
  unfold setups setupsStopped runs.run
  rw [List.foldl_map]
  simp only [List.take_length]
  rfl

theorem cleanup_setups {s : Net F} (hs : Clean (program F) s) (calls : List Call) :
    cleanupRules (setups s calls) = s := by
  rw [setups_eq_stopped]
  exact cleanupRules_eq_of_fits hs (setupsStopped_fits hs _)

/-- After a setup the tables are not clean. -/
theorem not_clean_setups (s : Net F) {calls : List Call} (h : calls ≠ []) :
    ¬ Clean (program F) (setups s calls) := by
  intro hclean
  obtain ⟨front, ⟨target, remote⟩, rfl⟩ := (List.eq_nil_or_concat' calls).resolve_left h
  have hnone := hclean.own (redirectChain .v4) rfl
  rw [setups_snoc, setup, chain_setupRules] at hnone
  cases remote <;> cases hnone

/-! ## What the other mode leaves -/

/-- The udp hook of the remote mode is in OUTPUT. -/
def UdpHooked (s : Net F) : Prop :=
  ∃ rules, s.chain (natOutput .v4) = some rules ∧ redirectHook .udp ∈ rules

theorem udpHooked_setup {s : Net F} {c : Call} (h : UdpHooked s ∨ c.isRemoteTProxy) :
    UdpHooked (setup s c) := by
  obtain ⟨rules, hrules⟩ := exists_builtin s (c := natOutput .v4) rfl
  refine ⟨_, chain_setup_builtin c rfl hrules, mem_foldl_rehung ?_⟩
  rcases h with ⟨rules', hrules', hmem⟩ | hremote
  · rw [hrules] at hrules'
    cases hrules'
    exact .inl hmem
  · rw [hremote]
    exact .inr (by simp [hooksOf, natOutput])

theorem udpHooked_setups {c : Call} {calls : List Call} (hc : c ∈ calls)
    (h : c.isRemoteTProxy = true) (s : Net F) : UdpHooked (setups s calls) := by
  unfold setups
  apply runs.run_of_mem UdpHooked _ hc
  · intro t
    exact udpHooked_setup (.inr h)
  · intro t a ht
    exact udpHooked_setup (.inl ht)

/-- A local setup after a remote one leaves the udp hook, which a local setup alone has not. -/
theorem not_udpHooked_local {s : Net F} (hs : Clean (program F) s) {c : Call}
    (h : c.isRemoteTProxy = false) : ¬ UdpHooked (setup s c) := by
  rintro ⟨rules', hrules', hmem⟩
  obtain ⟨rules, hrules⟩ := exists_builtin s (c := natOutput .v4) rfl
  obtain ⟨hnodup, hhooks⟩ := hooksOf_spec c.isRemoteTProxy (natOutput .v4 : Chain F)
  rw [chain_setup_builtin c rfl hrules, foldl_rehung_new hnodup
    fun r hr => not_mem_of_clean hs hrules (hhooks r hr), h] at hrules'
  cases hrules'
  rcases List.mem_append.mp hmem with hmem | hmem
  · exact not_mem_of_clean hs hrules (by simp [hooks]) hmem
  · simp [hooksOf, natOutput, redirectHook] at hmem

/-- The mangle chain of the local mode is there. -/
def Marked (s : Net F) : Prop := (s.chain (markChain .v4)).isSome

theorem marked_setup {s : Net F} {c : Call} (h : Marked s ∨ c.isRemoteTProxy = false) :
    Marked (setup s c) := by
  unfold Marked
  obtain ⟨target, remote⟩ := c
  cases remote with
  | true =>
    rw [chain_setup_untouched rfl]
    exact h.resolve_right nofun
  | false =>
    unfold setup
    rw [chain_setupRules]
    rfl

theorem marked_setups {c : Call} {calls : List Call} (hc : c ∈ calls)
    (h : c.isRemoteTProxy = false) (s : Net F) : Marked (setups s calls) := by
  unfold setups
  apply runs.run_of_mem Marked _ hc
  · intro t
    exact marked_setup (.inr h)
  · intro t a ht
    exact marked_setup (.inl ht)

theorem not_marked_remote {s : Net F} (hs : Clean (program F) s) {c : Call}
    (h : c.isRemoteTProxy = true) : ¬ Marked (setup s c) := by
  have huntouched : touches c.isRemoteTProxy (markChain .v4 : Chain F) = false := by
    rw [h]
    rfl
  unfold Marked
  rw [chain_setup_untouched huntouched, hs.own (markChain .v4) rfl]
  exact Bool.false_ne_true

omit [DecidableEq F] [Fintype F] in
/-- The two facts are facts about the part of the program. -/
theorem udpHooked_iff (s : Net F) : UdpHooked s ↔
    ∃ rules, vproxyPart s (natOutput .v4) = some rules ∧ redirectHook .udp ∈ rules := by
  constructor
  · rintro ⟨rules, hrules, hmem⟩
    refine ⟨rules.filter fun r => (jumpOf (natOutput .v4) r).any isOwn, ?_, ?_⟩
    · change (s.chain (natOutput .v4)).map _ = _
      rw [hrules]
      rfl
    · exact List.mem_filter.mpr ⟨hmem, rfl⟩
  · rintro ⟨part, hpart, hmem⟩
    change (s.chain (natOutput .v4)).map _ = _ at hpart
    obtain ⟨rules, hrules, rfl⟩ := Option.map_eq_some_iff.mp hpart
    exact ⟨rules, hrules, List.mem_of_mem_filter hmem⟩

omit [DecidableEq F] [Fintype F] in
theorem marked_iff (s : Net F) : Marked s ↔ (vproxyPart s (markChain .v4)).isSome := Iff.rfl

/-- The part of the program is that of the last setup alone exactly when all setups had its
mode. -/
theorem setups_forget_iff_same_mode {s : Net F} (hs : Clean (program F) s) (calls : List Call)
    (last : Call) :
    vproxyPart (setups s (calls ++ [last])) = vproxyPart (setup s last) ↔
      ∀ c ∈ calls, c.isRemoteTProxy = last.isRemoteTProxy := by
  constructor
  · intro heq c hc
    by_contra hmode
    rw [setups_snoc] at heq
    cases hlast : last.isRemoteTProxy with
    | false =>
      rw [hlast, Bool.not_eq_false] at hmode
      have hafter : UdpHooked (setup (setups s calls) last) :=
        udpHooked_setup (.inl (udpHooked_setups hc hmode s))
      rw [udpHooked_iff, heq, ← udpHooked_iff] at hafter
      exact not_udpHooked_local hs hlast hafter
    | true =>
      rw [hlast, Bool.not_eq_true] at hmode
      have hafter : Marked (setup (setups s calls) last) :=
        marked_setup (.inl (marked_setups hc hmode s))
      rw [marked_iff, heq, ← marked_iff] at hafter
      exact not_marked_remote hs hlast hafter
  · intro h
    rw [setups_of_same_mode hs h]

/-- Another port of the local mode takes the place of the first. -/
theorem second_port_replaces_first :
    vproxyPart (setups dockerNet ([⟨"1080", false⟩] ++ [⟨"1081", false⟩])) =
      vproxyPart (setup dockerNet ⟨"1081", false⟩) :=
  (setups_forget_iff_same_mode clean_dockerNet [⟨"1080", false⟩] ⟨"1081", false⟩).mpr (by simp)

/-- After a local setup and then a remote one, udp of the cgroup is still marked in the mangle
table, and the marked packets still go to the local port. -/
theorem local_mode_stays_hooked :
    (setups dockerNet [⟨"1080", false⟩, ⟨"10.0.0.9:7893", true⟩]).chain (mangleOutput .v4) =
        some [markHook] ∧
      (setups dockerNet [⟨"1080", false⟩, ⟨"10.0.0.9:7893", true⟩]).chain (manglePrerouting .v4) =
        some [tproxyHook] ∧
      (setups dockerNet [⟨"1080", false⟩, ⟨"10.0.0.9:7893", true⟩]).chain (tproxyChain .v4) =
        some [⟨[.proto .udp, .mark 1], .tproxy "1080" "127.0.0.1" 1 1⟩] ∧
      (setup dockerNet ⟨"10.0.0.9:7893", true⟩).chain (mangleOutput .v4) = some [] := by
  have hout : dockerNet.chain (mangleOutput .v4) = some [] := rfl
  have hpre : dockerNet.chain (manglePrerouting .v4) = some [] := rfl
  have hout' := chain_setup_builtin ⟨"1080", false⟩ rfl hout
  have hpre' := chain_setup_builtin ⟨"1080", false⟩ rfl hpre
  refine ⟨?_, ?_, ?_, ?_⟩
  · exact chain_setup_builtin ⟨"10.0.0.9:7893", true⟩ rfl hout'
  · exact chain_setup_builtin ⟨"10.0.0.9:7893", true⟩ rfl hpre'
  · change (setup (setup dockerNet _) _).chain _ = _
    rw [chain_setup_untouched rfl]
    unfold setup
    rw [chain_setupRules]
    rfl
  · exact chain_setup_builtin ⟨"10.0.0.9:7893", true⟩ rfl hout

end vproxy.iptables
