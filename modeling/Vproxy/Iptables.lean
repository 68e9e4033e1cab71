-- SetupRules and CleanupRules (iptables_linux.go): the commands in their order, and what they
-- leave. Setup hangs its chains into OUTPUT and PREROUTING and first takes away what the same
-- mode hung in before; cleanup takes away everything of both modes.
import Vproxy.Netfilter
import Vproxy.Strings
import Mathlib.Data.Fintype.Prod
import Mathlib.Data.Finset.Image

open go netfilter

namespace vproxy.iptables

/-! ## Chains and rules -/

/-- `iptables` and `ip6tables`. -/
inductive Ver where
  | v4
  | v6
  deriving DecidableEq, Repr

inductive Table where
  | nat
  | mangle
  deriving DecidableEq, Repr

/-- Names of chains; `F` are the names that the program does not use. -/
inductive Name (F : Type) where
  | output
  | prerouting
  | vproxyRedirect
  | vproxyMark
  | vproxyTproxy
  | other (f : F)
  deriving DecidableEq, Repr

instance : Fintype Ver := ⟨{.v4, .v6}, by intro v; cases v <;> simp⟩

instance : Fintype Table := ⟨{.nat, .mangle}, by intro t; cases t <;> simp⟩

instance {F : Type} [DecidableEq F] [Fintype F] : Fintype (Name F) where
  elems := {.output, .prerouting, .vproxyRedirect, .vproxyMark, .vproxyTproxy} ∪
    Finset.univ.image .other
  complete := by intro n; cases n <;> simp

abbrev Chain (F : Type) := Ver × Table × Name F

inductive Proto where
  | tcp
  | udp
  deriving DecidableEq, Repr

/-- The tests of a rule. -/
inductive Test where
  | proto (p : Proto)
  | mark (m : Nat)
  | dst (cidr : Str)
  | cgroup (path : Str)
  | other (text : Str)
  deriving DecidableEq, Repr

/-- What follows `-j`. -/
inductive Target (F : Type) where
  | ret
  | jump (n : Name F)
  | dnat (toDestination : Str)
  | redirect (toPorts : Str)
  | setMark (m : Nat)
  | tproxy (onPort onIp : Str) (mark mask : Nat)
  | other (text : Str)
  deriving DecidableEq, Repr

structure Rule (F : Type) where
  tests : List Test
  target : Target F
  deriving DecidableEq, Repr

/-- The policy rules, and table 100. -/
inductive Place where
  | rules (v : Ver)
  | table100 (v : Ver)
  deriving DecidableEq, Repr

inductive Entry where
  | fwmark (mark lookup : Nat)
  | localDefault (dev : Str)
  | other (text : Str)
  deriving DecidableEq, Repr

/-- A new policy rule comes right after the first one, a new route last. -/
def putEntry : Place → Entry → List Entry → List Entry
  | .rules _, p, first :: rest => first :: p :: rest
  | .rules _, p, [] => [p]
  | .table100 _, p, l => l ++ [p]

variable {F : Type}

def isBuiltin : Chain F → Bool
  | (_, _, .output) | (_, _, .prerouting) => true
  | _ => false

/-- A jump stays in its family and table. -/
def jumpOf (c : Chain F) (r : Rule F) : Option (Chain F) :=
  match r.target with
  | .jump n => some (c.1, c.2.1, n)
  | _ => none

def host (F : Type) : Host (Chain F) (Rule F) Place Entry where
  builtin := isBuiltin
  jump := jumpOf
  put := putEntry
  mem_put e p l := by
    cases e <;> cases l <;> simp [putEntry]
  erase_put e p l h := by
    cases e with
    | rules v =>
      cases l with
      | nil => simp [putEntry]
      | cons first rest =>
        have hne : first ≠ p := fun heq => h (heq ▸ List.mem_cons_self)
        simp [putEntry, hne]
    | table100 v => simp [putEntry, List.erase_append_right _ h]

/-- The tables of both families, the policy rules and table 100. -/
abbrev Net (F : Type) := netfilter.State (host F)

/-! ## The commands -/

abbrev Command (F : Type) := Cmd (Chain F) (Rule F) Place Entry

/-- A command with `2>/dev/null || true`. -/
def tolerant (cmd : Command F) : Line (Chain F) (Rule F) Place Entry := ⟨cmd, false⟩

def strict (cmd : Command F) : Line (Chain F) (Rule F) Place Entry := ⟨cmd, true⟩

def bypassMark : Nat := 0xff

def redirectChain (v : Ver) : Chain F := (v, .nat, .vproxyRedirect)
def natOutput (v : Ver) : Chain F := (v, .nat, .output)
def markChain (v : Ver) : Chain F := (v, .mangle, .vproxyMark)
def mangleOutput (v : Ver) : Chain F := (v, .mangle, .output)
def tproxyChain (v : Ver) : Chain F := (v, .mangle, .vproxyTproxy)
def manglePrerouting (v : Ver) : Chain F := (v, .mangle, .prerouting)

/-- `-p PROTO -m cgroup --path "vproxy" -j VPROXY_REDIRECT`. -/
def redirectHook (p : Proto) : Rule F := ⟨[.proto p, .cgroup "vproxy"], .jump .vproxyRedirect⟩

/-- `-p udp -m cgroup --path "vproxy" -j VPROXY_MARK`. -/
def markHook : Rule F := ⟨[.proto .udp, .cgroup "vproxy"], .jump .vproxyMark⟩

/-- `-p udp -m mark --mark 1 -j VPROXY_TPROXY`. -/
def tproxyHook : Rule F := ⟨[.proto .udp, .mark 1], .jump .vproxyTproxy⟩

def returnMarked : Rule F := ⟨[.mark bypassMark], .ret⟩
def returnTo (cidr : Str) : Rule F := ⟨[.dst cidr], .ret⟩

/-- `fwmark 1 lookup 100`. -/
def fwmarkRule : Entry := .fwmark 1 100

/-- `local default dev lo`. -/
def localRoute : Entry := .localDefault "lo"

/-- The bypasses at the start of a chain, which both tables have. -/
def bypasses (chain : Ver → Chain F) : List (Line (Chain F) (Rule F) Place Entry) :=
  [tolerant (.new (chain .v4)),
    strict (.flush (chain .v4)),
    tolerant (.new (chain .v6)),
    strict (.flush (chain .v6)),
    strict (.append (chain .v4) returnMarked),
    strict (.append (chain .v6) returnMarked),
    strict (.append (chain .v4) (returnTo "127.0.0.0/8")),
    strict (.append (chain .v4) (returnTo "10.0.0.0/8")),
    strict (.append (chain .v4) (returnTo "172.16.0.0/12")),
    strict (.append (chain .v4) (returnTo "192.168.0.0/16")),
    strict (.append (chain .v4) (returnTo "169.254.0.0/16")),
    strict (.append (chain .v6) (returnTo "::1/128")),
    strict (.append (chain .v6) (returnTo "fc00::/7")),
    strict (.append (chain .v6) (returnTo "fe80::/10"))]

/-- A hook is taken away and hung in again, for both families. -/
def rehook (chain : Ver → Chain F) (r : Rule F) : List (Line (Chain F) (Rule F) Place Entry) :=
  [tolerant (.delete (chain .v4) r),
    strict (.append (chain .v4) r),
    tolerant (.delete (chain .v6) r),
    strict (.append (chain .v6) r)]

/-- `target[strings.LastIndex(target, ":")+1:]`. -/
def targetPort (target : Str) : Str :=
  match lastIndex target ':' with
  | none => target
  | some i => target.drop (i + 1)

def remoteLines (target : Str) : List (Line (Chain F) (Rule F) Place Entry) :=
  [strict (.append (redirectChain .v4) ⟨[.proto .tcp], .dnat target⟩),
    strict (.append (redirectChain .v6) ⟨[.proto .tcp], .redirect (targetPort target)⟩),
    strict (.append (redirectChain .v4) ⟨[.proto .udp], .dnat target⟩),
    strict (.append (redirectChain .v6) ⟨[.proto .udp], .redirect (targetPort target)⟩)] ++
  rehook natOutput (redirectHook .tcp) ++
  rehook natOutput (redirectHook .udp)

def localLines (target : Str) : List (Line (Chain F) (Rule F) Place Entry) :=
  [strict (.append (redirectChain .v4) ⟨[.proto .tcp], .redirect target⟩),
    strict (.append (redirectChain .v6) ⟨[.proto .tcp], .redirect target⟩)] ++
  rehook natOutput (redirectHook .tcp) ++
  [tolerant (.add (.rules .v4) fwmarkRule),
    tolerant (.add (.table100 .v4) localRoute),
    tolerant (.add (.rules .v6) fwmarkRule),
    tolerant (.add (.table100 .v6) localRoute)] ++
  bypasses markChain ++
  [strict (.append (markChain .v4) ⟨[], .setMark 1⟩),
    strict (.append (markChain .v6) ⟨[], .setMark 1⟩)] ++
  rehook mangleOutput markHook ++
  [tolerant (.new (tproxyChain .v4)),
    strict (.flush (tproxyChain .v4)),
    tolerant (.new (tproxyChain .v6)),
    strict (.flush (tproxyChain .v6)),
    strict (.append (tproxyChain .v4)
      ⟨[.proto .udp, .mark 1], .tproxy target "127.0.0.1" 1 1⟩),
    strict (.append (tproxyChain .v6) ⟨[.proto .udp, .mark 1], .tproxy target "::1" 1 1⟩)] ++
  rehook manglePrerouting tproxyHook

def setupLines (target : Str) (isRemoteTProxy : Bool) :
    List (Line (Chain F) (Rule F) Place Entry) :=
  bypasses redirectChain ++ if isRemoteTProxy then remoteLines target else localLines target

def cleanupLines : List (Line (Chain F) (Rule F) Place Entry) :=
  [tolerant (.delete (natOutput .v4) (redirectHook .tcp)),
    tolerant (.delete (natOutput .v6) (redirectHook .tcp)),
    tolerant (.delete (natOutput .v4) (redirectHook .udp)),
    tolerant (.delete (natOutput .v6) (redirectHook .udp)),
    tolerant (.flush (redirectChain .v4)),
    tolerant (.remove (redirectChain .v4)),
    tolerant (.flush (redirectChain .v6)),
    tolerant (.remove (redirectChain .v6)),
    tolerant (.delete (mangleOutput .v4) markHook),
    tolerant (.delete (manglePrerouting .v4) tproxyHook),
    tolerant (.delete (mangleOutput .v6) markHook),
    tolerant (.delete (manglePrerouting .v6) tproxyHook),
    tolerant (.flush (markChain .v4)),
    tolerant (.remove (markChain .v4)),
    tolerant (.flush (markChain .v6)),
    tolerant (.remove (markChain .v6)),
    tolerant (.flush (tproxyChain .v4)),
    tolerant (.remove (tproxyChain .v4)),
    tolerant (.flush (tproxyChain .v6)),
    tolerant (.remove (tproxyChain .v6)),
    tolerant (.del (.rules .v4) fwmarkRule),
    tolerant (.del (.table100 .v4) localRoute),
    tolerant (.del (.rules .v6) fwmarkRule),
    tolerant (.del (.table100 .v6) localRoute)]

/-! ## What is the program's own -/

def isOwn : Chain F → Bool
  | (_, .nat, .vproxyRedirect) | (_, .mangle, .vproxyMark) | (_, .mangle, .vproxyTproxy) => true
  | _ => false

def hooks : List (Chain F × Rule F) :=
  [(natOutput .v4, redirectHook .tcp), (natOutput .v6, redirectHook .tcp),
    (natOutput .v4, redirectHook .udp), (natOutput .v6, redirectHook .udp),
    (mangleOutput .v4, markHook), (mangleOutput .v6, markHook),
    (manglePrerouting .v4, tproxyHook), (manglePrerouting .v6, tproxyHook)]

def ownEntry : Place → Entry
  | .rules _ => fwmarkRule
  | .table100 _ => localRoute

def program (F : Type) : Program (host F) where
  own := isOwn
  hooks := hooks
  mine := ownEntry
  not_builtin := by
    rintro ⟨v, t, n⟩ h
    cases t <;> cases n <;> first | rfl | cases h
  hooks_jump := by
    intro h hh
    simp only [hooks, List.mem_cons, List.not_mem_nil, or_false] at hh
    rcases hh with rfl | rfl | rfl | rfl | rfl | rfl | rfl | rfl <;>
      exact ⟨rfl, _, rfl, rfl⟩

/-! ## The two functions -/

section

variable [DecidableEq F] [Fintype F]

/-- The state after `SetupRules`, and the command that it reports. -/
def setupRules (s : Net F) (target : Str) (isRemoteTProxy : Bool) : Net F × Option (Command F) :=
  runScript s (setupLines target isRemoteTProxy)

def cleanupRules (s : Net F) : Net F := (runScript s cleanupLines).1

/-- The chains of the system are there, so setup is never stopped. -/
theorem setupRules_ok (s : Net F) (target : Str) (isRemoteTProxy : Bool) :
    (setupRules s target isRemoteTProxy).2 = none := by
  have hknown : ∀ c ∈ ([natOutput .v4, natOutput .v6, mangleOutput .v4, mangleOutput .v6,
      manglePrerouting .v4, manglePrerouting .v6] : List (Chain F)), (s.chain c).isSome := by
    intro c hc
    apply s.isSome_builtin
    simp only [List.mem_cons, List.not_mem_nil, or_false] at hc
    rcases hc with rfl | rfl | rfl | rfl | rfl | rfl <;> rfl
  apply runScript_ready hknown
  cases isRemoteTProxy <;> rfl

theorem chain_setupRules (s : Net F) (target : Str) (isRemoteTProxy : Bool) (c : Chain F) :
    (setupRules s target isRemoteTProxy).1.chain c =
      ((setupLines target isRemoteTProxy).map Line.cmd).foldl (act c) (s.chain c) := by
  apply chain_runScript (setupRules_ok s target isRemoteTProxy)
  cases isRemoteTProxy <;> rfl

theorem entries_setupRules (s : Net F) (target : Str) (isRemoteTProxy : Bool) (e : Place) :
    (setupRules s target isRemoteTProxy).1.entries e =
      ((setupLines target isRemoteTProxy).map Line.cmd).foldl (actEntries (host F) e)
        (s.entries e) :=
  entries_runScript (setupRules_ok s target isRemoteTProxy) e

end

section

variable [DecidableEq F]

/-- Every command of setup is one of the program, and a hook is only hung in after it was taken
away. -/
theorem setup_checks (target : Str) (isRemoteTProxy : Bool) :
    ((program F).checks (program F).anything
      ((setupLines target isRemoteTProxy).map Line.cmd)).isSome := by
  cases isRemoteTProxy <;> rfl

def ownChains : List (Chain F) :=
  [tproxyChain .v6, tproxyChain .v4, markChain .v6, markChain .v4, redirectChain .v6,
    redirectChain .v4]

def places : List Place := [.table100 .v6, .rules .v6, .table100 .v4, .rules .v4]

/-- The first lines of cleanup leave the hooks of the mangle table. -/
theorem cleanup_nat_checks : (program F).checks (program F).anything
      (((cleanupLines : List (Line (Chain F) (Rule F) Place Entry)).map Line.cmd).take 8) =
    some ⟨[(mangleOutput .v4, markHook), (mangleOutput .v6, markHook),
        (manglePrerouting .v4, tproxyHook), (manglePrerouting .v6, tproxyHook)],
      [redirectChain .v6, redirectChain .v4], [redirectChain .v6, redirectChain .v4], []⟩ := rfl

/-- After cleanup no hook is there, no own chain and no own entry. -/
theorem cleanup_checks : (program F).checks (program F).anything
      ((cleanupLines : List (Line (Chain F) (Rule F) Place Entry)).map Line.cmd) =
    some ⟨[], ownChains, ownChains, places⟩ := by
  rw [← List.take_append_drop 8 (List.map _ _), checks_append, cleanup_nat_checks]
  rfl

omit [DecidableEq F] in
theorem mem_ownChains {c : Chain F} (h : isOwn c) : c ∈ (ownChains : List (Chain F)) := by
  obtain ⟨v, t, n⟩ := c
  cases v <;> cases t <;> cases n <;> cases h <;>
    simp [ownChains, tproxyChain, markChain, redirectChain]

theorem mem_places (e : Place) : e ∈ places := by
  cases e <;> rename_i v <;> cases v <;> decide

end

end vproxy.iptables
