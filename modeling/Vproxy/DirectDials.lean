-- Direct dials and the pool of fake addresses (dialDirect, dialTargetUDP). A dial inside the pool
-- comes back through the TUN. The TCP path looks names up at a fixed resolver, and the UDP path
-- does nothing of the kind. Both dial what is left over: an address without a domain, and a name
-- that only the system resolver knows.
import Vproxy.FakeIpRestore

open go go.net go.regexp

namespace vproxy

/-! ## Resolvers -/

/-- The resolver at 223.5.5.5, which is used on Linux and Windows only, and that of the system. -/
structure Resolvers where
  usesFixed : Bool
  fixed : Str → List IP
  system : Str → List IP

/-- `LookupIP` for IPv4 at the fixed resolver. The text of an address is its own answer. -/
def Resolvers.lookupIP (r : Resolvers) (domain : Str) : List IP :=
  match parseAddr domain with
  | some a => if (to4 a.bytes).isSome then [a.bytes] else []
  | none => r.fixed domain

/-- The text of the first address that the fixed resolver gives. -/
def Resolvers.lookup (r : Resolvers) (domain : Str) : Option Str :=
  if r.usesFixed then (r.lookupIP domain).head?.map ipString else none

/-- The fixed resolver gives IPv4 addresses, and none of the pool. -/
def Resolvers.Outside (r : Resolvers) (pool : dns.FakeIPPool) : Prop :=
  ∀ domain, ∀ ip ∈ r.fixed domain, (ip.length = 4 ∨ ip.length = 16) ∧ pool.isFakeIP ip = false

/-- The addresses that a dialer may connect to for a host. An empty host is this machine. -/
def Resolvers.hostAddrs (r : Resolvers) (host : Str) : List IP :=
  match parseAddr host with
  | some a => [a.bytes]
  | none => if host = [] then [] else r.system host

/-- The addresses that `Dial` may connect to. -/
def Resolvers.dialAddrs (r : Resolvers) (target : Str) : List IP :=
  match splitHostPort target with
  | none => []
  | some (host, _) => r.hostAddrs host

/-- The addresses that the dials of the list may connect to. -/
def Resolvers.eventAddrs (r : Resolvers) (events : List Event) : List IP :=
  events.flatMap fun
    | .dialDirect target => r.dialAddrs target
    | _ => []

/-- A direct dial does not connect to an address of the pool. -/
def Avoids (w : World) (r : Resolvers) (pool : dns.FakeIPPool) (t : Transport) (target : Str) :
    Prop :=
  ∀ a ∈ r.eventAddrs (dialDirect { w with lookup := r.lookup } t target).events,
    pool.isFakeIP a = false

instance (w : World) (r : Resolvers) (pool : dns.FakeIPPool) (t : Transport) (target : Str) :
    Decidable (Avoids w r pool t target) :=
  inferInstanceAs (Decidable (∀ a ∈ _, _))

/-! ## What is left over -/

/-- The name that `dialDirect` looks up for a host. -/
def directName (pool : dns.FakeIPPool) (host : Str) : Str :=
  match parseIP host with
  | some ip => if pool.isFakeIP ip then pool.getDomain ip else []
  | none => host

/-- The host is an address of the pool without a domain. -/
def Unmapped (pool : dns.FakeIPPool) (host : Str) : Prop :=
  ∃ ip, parseIP host = some ip ∧ pool.isFakeIP ip ∧ pool.getDomain ip = []

/-- The name is no address of the pool itself, and where the fixed resolver has no answer the
system does not give one of the pool. -/
def Resolvers.NameAvoids (r : Resolvers) (pool : dns.FakeIPPool) (name port : Str) : Prop :=
  if (r.lookup name).isSome then ∀ a, parseAddr name = some a → pool.isFakeIP a.bytes = false
  else ∀ a ∈ r.dialAddrs (joinHostPort name port), pool.isFakeIP a = false

variable {w : World} {r : Resolvers} {pool : dns.FakeIPPool}

/-- The text of an address is dialled at this address. -/
theorem hostAddrs_parseIP {s : Str} {ip : IP} (h : parseIP s = some ip) :
    (∀ a ∈ r.hostAddrs s, pool.isFakeIP a = false) ↔ pool.isFakeIP ip = false := by
  obtain ⟨b, hb, hlong⟩ := parseAddr_of_parseIP h
  have hsame : pool.isFakeIP ip = pool.isFakeIP b := netContains_to16 hlong pool.subnet
  unfold Resolvers.hostAddrs
  rw [hb, hsame]
  simp

/-- An answer of the fixed resolver is dialled at its address. -/
theorem dialAddrs_answer {ip : IP} (hip : ip.length = 4 ∨ ip.length = 16) {port : Str}
    (hport : Plain port) (hcolon : ':' ∉ port) :
    (∀ a ∈ r.dialAddrs (joinHostPort (ipString ip) port), pool.isFakeIP a = false) ↔
      pool.isFakeIP ip = false := by
  obtain ⟨ip', hip'⟩ : ∃ ip', to16 ip = some ip' := by
    obtain h | h := hip <;> simp [to16, h]
  have hsame : pool.isFakeIP ip' = pool.isFakeIP ip := netContains_to16 hip' pool.subnet
  have htext : parseIP (ipString ip) = some ip' := (parseIP_ipString hip).trans hip'
  unfold Resolvers.dialAddrs
  rw [splitHostPort_joinHostPort (plain_ipString hip) hport hcolon]
  dsimp only
  rw [hostAddrs_parseIP htext, hsame]

/-- A name is dialled at the first answer of the fixed resolver, or else as it is. -/
theorem nameAvoids_iff (hfixed : r.Outside pool) (name : Str) {port : Str} (hport : Plain port)
    (hcolon : ':' ∉ port) :
    (∀ a ∈ r.dialAddrs (joinHostPort ((r.lookup name).getD name) port), pool.isFakeIP a = false) ↔
      r.NameAvoids pool name port := by
  unfold Resolvers.NameAvoids
  cases hlookup : r.lookup name with
  | none => rfl
  | some answer =>
    rw [Option.getD_some, if_pos (Option.isSome_some)]
    unfold Resolvers.lookup at hlookup
    split at hlookup
    case isFalse => cases hlookup
    obtain ⟨ip, hhead, rfl⟩ := Option.map_eq_some_iff.mp hlookup
    have hmem : ip ∈ r.lookupIP name := List.mem_of_mem_head? hhead
    unfold Resolvers.lookupIP at hmem
    cases haddr : parseAddr name with
    | none =>
      rw [haddr] at hmem
      obtain ⟨hlen, hout⟩ := hfixed name ip hmem
      rw [dialAddrs_answer hlen hport hcolon]
      exact iff_of_true hout nofun
    | some a =>
      rw [haddr] at hmem
      dsimp only at hmem
      split at hmem
      · obtain rfl := List.mem_singleton.mp hmem
        rw [dialAddrs_answer (length_parseAddr haddr) hport hcolon]
        simp
      · cases hmem

/-! ## The two paths -/

/-- What the TCP path dials for a target that splits. -/
theorem directTarget_split (hw : w.pool = some pool) {target host port : Str}
    (hsplit : splitHostPort target = some (host, port)) :
    directTarget { w with lookup := r.lookup } target =
      if directName pool host ≠ [] then
        joinHostPort ((r.lookup (directName pool host)).getD (directName pool host)) port
      else target := by
  unfold directTarget directName
  dsimp only
  rw [hsplit, hw]
  dsimp only
  cases parseIP host with
  | none => rfl
  | some ip => rfl

theorem directName_of_unmapped {host : Str} (h : Unmapped pool host) : directName pool host = [] := by
  obtain ⟨ip, hip, hfake, hnone⟩ := h
  unfold directName
  rw [hip]
  dsimp only
  rw [if_pos hfake, hnone]

/-- Without a name to look up, the host is dialled as it is. -/
theorem nameless_avoids_iff {host : Str} (h : directName pool host = []) :
    (∀ a ∈ r.hostAddrs host, pool.isFakeIP a = false) ↔ ¬ Unmapped pool host := by
  unfold directName at h
  cases hip : parseIP host with
  | none =>
    rw [hip] at h
    dsimp only at h
    subst h
    refine iff_of_true ?_ ?_
    · intro a ha
      cases ha
    · rintro ⟨ip, hsome, -⟩
      rw [hip] at hsome
      cases hsome
  | some ip =>
    rw [hip] at h
    dsimp only at h
    rw [hostAddrs_parseIP hip]
    constructor
    · rintro hout ⟨ip', hsome, hfake, -⟩
      rw [hip] at hsome
      cases hsome
      rw [hout] at hfake
      cases hfake
    · intro hmapped
      by_contra hfake
      rw [Bool.not_eq_false] at hfake
      rw [if_pos hfake] at h
      exact hmapped ⟨ip, hip, hfake, h⟩

theorem avoids_tcp (target : Str) :
    Avoids w r pool .tcp target ↔
      ∀ a ∈ r.dialAddrs (directTarget { w with lookup := r.lookup } target),
        pool.isFakeIP a = false := by
  simp [Avoids, Resolvers.eventAddrs, dialDirect]

theorem avoids_udp (target : Str) :
    Avoids w r pool .udp target ↔ ∀ a ∈ r.dialAddrs target, pool.isFakeIP a = false := by
  simp [Avoids, Resolvers.eventAddrs, dialDirect]

/-- The TCP path avoids the pool unless the host is an address of it without a domain, or the
name leads there. -/
theorem avoids_tcp_iff (hw : w.pool = some pool) (hfixed : r.Outside pool) {target host port : Str}
    (hsplit : splitHostPort target = some (host, port)) :
    Avoids w r pool .tcp target ↔ ¬ Unmapped pool host ∧
      (directName pool host ≠ [] → r.NameAvoids pool (directName pool host) port) := by
  obtain ⟨-, hport, hcolon, -⟩ := splitHostPort_eq_some hsplit
  rw [avoids_tcp, directTarget_split hw hsplit]
  by_cases hname : directName pool host = []
  · have hsame : r.dialAddrs target = r.hostAddrs host := by
      unfold Resolvers.dialAddrs
      rw [hsplit]
    rw [if_neg (not_not.mpr hname), hsame, nameless_avoids_iff hname]
    simp [hname]
  · have hmapped : ¬ Unmapped pool host := fun h => hname (directName_of_unmapped h)
    rw [if_pos hname, nameAvoids_iff hfixed _ hport hcolon]
    simp [hname, hmapped]

/-- A target without a port is not dialled at all. -/
theorem avoids_of_no_port (t : Transport) {target : Str} (h : splitHostPort target = none) :
    Avoids w r pool t target := by
  have hnone : r.dialAddrs target = [] := by
    unfold Resolvers.dialAddrs
    rw [h]
  cases t with
  | tcp =>
    have hsame : directTarget { w with lookup := r.lookup } target = target := by
      unfold directTarget
      rw [h]
    rw [avoids_tcp, hsame, hnone]
    exact nofun
  | udp =>
    rw [avoids_udp, hnone]
    exact nofun

/-- The TCP path avoids the pool but for addresses without a domain and names that lead there.
The UDP path avoids it only when the host itself does not lead there. -/
theorem direct_dials_avoid_pool_iff (w : World) (r : Resolvers) (pool : dns.FakeIPPool)
    (hw : w.pool = some pool) (hfixed : r.Outside pool) (target : Str) :
    (Avoids w r pool .tcp target ↔ ∀ host port, splitHostPort target = some (host, port) →
      ¬ Unmapped pool host ∧
        (directName pool host ≠ [] → r.NameAvoids pool (directName pool host) port)) ∧
    (Avoids w r pool .udp target ↔ ∀ host port, splitHostPort target = some (host, port) →
      ∀ a ∈ r.hostAddrs host, pool.isFakeIP a = false) := by
  cases hsplit : splitHostPort target with
  | none =>
    exact ⟨iff_of_true (avoids_of_no_port .tcp hsplit) nofun,
      iff_of_true (avoids_of_no_port .udp hsplit) nofun⟩
  | some hp =>
    obtain ⟨host, port⟩ := hp
    simp only [Option.some.injEq, Prod.mk.injEq, and_imp]
    rw [avoids_tcp_iff hw hfixed hsplit, avoids_udp, Resolvers.dialAddrs, hsplit]
    constructor
    · constructor
      · rintro h _ _ rfl rfl
        exact h
      · intro h
        exact h host port rfl rfl
    · constructor
      · rintro h _ _ rfl rfl
        exact h
      · intro h
        exact h host port rfl rfl

/-! ## Dials into the pool -/

/-- A system resolver that is hijacked, and a fixed resolver that knows one name. -/
def hijacked : Resolvers where
  usesFixed := true
  fixed domain := if domain = "a.cn" then [[192, 0, 2, 1]] else []
  system _ := [[198, 18, 0, 2]]

theorem hijacked_outside : hijacked.Outside onePool := by
  intro domain ip hip
  unfold hijacked at hip
  dsimp only at hip
  split at hip
  · obtain rfl := List.mem_singleton.mp hip
    exact ⟨Or.inl rfl, by decide⟩
  · cases hip

/-- A name that the fixed resolver knows is dialled outside the pool. -/
theorem known_name_avoids_pool : Avoids poolWorld hijacked onePool .tcp "a.cn:80" := by
  have hsome : splitHostPort "a.cn:80" = some (("a.cn" : Str), ("80" : Str)) := by decide +kernel
  have hlookup : (hijacked.lookup "a.cn").isSome := by decide +kernel
  have hname : parseIP "a.cn" = none ∧ parseAddr "a.cn" = none := by decide +kernel
  have hdirect : directName onePool "a.cn" = "a.cn" := by
    unfold directName
    rw [hname.1]
  refine (direct_dials_avoid_pool_iff poolWorld hijacked onePool rfl hijacked_outside
    "a.cn:80").1.mpr ?_
  intro host port hsplit
  rw [hsome] at hsplit
  cases hsplit
  refine ⟨?_, ?_⟩
  · rintro ⟨ip, hip, -⟩
    rw [hname.1] at hip
    cases hip
  · intro _
    rw [hdirect, Resolvers.NameAvoids, if_pos hlookup, hname.2]
    exact nofun

/-- The TCP path dials an address of the pool without a domain, and one that the system gives for
a name. The UDP path dials an address of the pool that has a domain. -/
theorem direct_dials_reach_the_pool :
    (dialDirect { poolWorld with lookup := hijacked.lookup } .tcp "198.18.0.9:80").events =
        [.dialDirect "198.18.0.9:80"] ∧
      ¬ Avoids poolWorld hijacked onePool .tcp "198.18.0.9:80" ∧
      ¬ Avoids poolWorld hijacked onePool .tcp "b.cn:80" ∧
      ¬ Avoids poolWorld hijacked onePool .udp "198.18.0.2:80" := by
  refine ⟨?_, ?_, ?_, ?_⟩
  all_goals decide +kernel

end vproxy
