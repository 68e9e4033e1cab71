-- The bypass routes of the Windows TUN (setupUpstreamBypassRoutes). Every upstream and bypass node
-- should get a route of its own past the TUN. But an address that the resolver gives in its 16-byte
-- form counts as IPv6 and is skipped, and the resolver gives all literals in this form.
import Vproxy.PhysicalRoutes
import Vproxy.Urls

open go go.net go.netip go.url

namespace vproxy.windows

/-! ## The setup -/

/-- `winBypassRoute`. -/
structure BypassRoute where
  luid : UInt64
  dest : Prefix
  nextHop : Addr
  deriving DecidableEq, Repr

/-- What the setup asks of the system: the forwarding table, the resolver, and whether a route can
be created. An error is `none`. -/
structure System where
  getIPForwardTable2 : Option (List MibIPforwardRow2)
  lookupIP : Str → Option (List IP)
  create : BypassRoute → Bool

inductive SetupError where
  | enumerate
  | resolve (upstream : Str)
  | bypassRoute (dest : Prefix)
  | bypassGateway (nextHop : Addr)
  deriving DecidableEq, Repr

/-- The prefixes that were seen, the routes whose creation was attempted, and those of them that
were created. -/
structure Setup where
  seenPrefix : List Prefix
  attempted : List BypassRoute
  winTunBypassRoutes : List BypassRoute
  deriving DecidableEq, Repr

def Setup.start : Setup := ⟨[], [], []⟩

/-- One turn of the loop for `defaultPhysical`. -/
def defaultStep (tunLUID : UInt64) (best : Option MibIPforwardRow2) (row : MibIPforwardRow2) :
    Option MibIPforwardRow2 :=
  if row.interfaceLUID = tunLUID ∨ row.prefixLength ≠ 0 then best
  else
    match best with
    | none => some row
    | some b => if row.metric < b.metric then some row else some b

def defaultPhysical (tunLUID : UInt64) (routes : List MibIPforwardRow2) : Option MibIPforwardRow2 :=
  routes.foldl (defaultStep tunLUID) none

/-- The gateway of a row, if it has one. -/
def gateway (row : MibIPforwardRow2) : Addr :=
  if row.nextHop.bytes ≠ [] ∧ ¬ isUnspecified row.nextHop then row.nextHop else ipv4Unspecified

/-- `RawSockaddrInet.SetAddr` takes every address but the zero one. -/
def setAddr (a : Addr) : Bool := is4 a || is6 a

section

variable (sys : System) (routes : List MibIPforwardRow2) (tunLUID : UInt64)

def installPrefix (st : Setup) (dest : Prefix) : Except SetupError Setup :=
  if ¬ dest.isValid ∨ ¬ is4 dest.addr then .ok st
  else if isLoopback dest.addr then .ok st
  else if dest ∈ st.seenPrefix then .ok st
  else
    let st := { st with seenPrefix := dest :: st.seenPrefix }
    match (findBestPhysicalRoute routes dest.addr tunLUID).or (defaultPhysical tunLUID routes) with
    | none => .ok st
    | some best =>
      let route : BypassRoute := ⟨best.interfaceLUID, dest, gateway best⟩
      if ¬ setAddr dest.addr then .error (.bypassRoute dest)
      else if ¬ setAddr route.nextHop then .error (.bypassGateway route.nextHop)
      else .ok { st with
        attempted := st.attempted ++ [route]
        winTunBypassRoutes :=
          if sys.create route then st.winTunBypassRoutes ++ [route] else st.winTunBypassRoutes }

/-- The loop over the addresses of a name. -/
def installIP (st : Setup) (ip : IP) : Except SetupError Setup :=
  match addrFromSlice ip with
  | none => .ok st
  | some addr =>
    if ¬ is4 addr then .ok st else installPrefix sys routes tunLUID st (prefixFrom addr 32)

def installUpstream (st : Setup) (upstream : Str) : Except SetupError Setup :=
  match parse upstream with
  | none => .ok st
  | some u =>
    if u.hostname = [] then .ok st
    else
      match sys.lookupIP u.hostname with
      | none => .error (.resolve upstream)
      | some ips => ips.foldlM (installIP sys routes tunLUID) st

/-- A node that does not resolve is only logged. -/
def installNode [Unicode] (st : Setup) (node : Str) : Except SetupError Setup :=
  let node := trimSpace node
  if node = [] then .ok st
  else
    match parsePrefix node with
    | some dest => installPrefix sys routes tunLUID st dest
    | none =>
      match parseAddr node with
      | some addr => installPrefix sys routes tunLUID st (prefixFrom addr 32)
      | none =>
        match sys.lookupIP node with
        | none => .ok st
        | some ips => ips.foldlM (installIP sys routes tunLUID) st

end

def setupUpstreamBypassRoutes [Unicode] (sys : System) (tunLUID : UInt64)
    (upstreams bypassNodes : List Str) : Except SetupError Setup :=
  match sys.getIPForwardTable2 with
  | none => .error .enumerate
  | some routes => do
    let st ← upstreams.foldlM (installUpstream sys routes tunLUID) .start
    bypassNodes.foldlM (installNode sys routes tunLUID) st

/-! ## What the nodes denote -/

/-- An IPv4 network that a node denotes, with the bytes that it is given in. -/
structure Denoted where
  given : IP
  dest : Prefix
  deriving DecidableEq, Repr

/-- The IPv4 network of an address with some of its bits, in either form. -/
def denotedBy (ip : IP) (bits : Nat) : Option Denoted :=
  if ip.length = 4 then some ⟨ip, prefixFrom ⟨ip, []⟩ bits⟩
  else
    match to4 ip with
    | some a => if 96 ≤ bits then some ⟨ip, prefixFrom ⟨a, []⟩ (bits - 96)⟩ else none
    | none => none

/-- The hosts among the addresses of a name. -/
def hostsOf (ips : List IP) : List Denoted := ips.filterMap fun ip => denotedBy ip (8 * ip.length)

def upstreamDenotes (lookupIP : Str → Option (List IP)) (upstream : Str) : List Denoted :=
  match parse upstream with
  | none => []
  | some u => if u.hostname = [] then [] else hostsOf ((lookupIP u.hostname).getD [])

/-- A node is a network, an address or a name. -/
def nodeDenotes [Unicode] (lookupIP : Str → Option (List IP)) (node : Str) : List Denoted :=
  let node := trimSpace node
  if node = [] then []
  else
    match parsePrefix node with
    | some p => (denotedBy p.addr.bytes p.bits).toList
    | none =>
      match parseAddr node with
      | some a => hostsOf [a.bytes]
      | none => hostsOf ((lookupIP node).getD [])

def denoted [Unicode] (lookupIP : Str → Option (List IP)) (upstreams bypassNodes : List Str) :
    List Denoted :=
  upstreams.flatMap (upstreamDenotes lookupIP) ++ bypassNodes.flatMap (nodeDenotes lookupIP)

/-- A default route off the TUN. -/
def isDefault (tunLUID : UInt64) (row : MibIPforwardRow2) : Bool :=
  row.interfaceLUID != tunLUID && row.prefixLength == 0

/-- The route to an address past the TUN: the best one, or else the cheapest default route. -/
def physicalRoute (routes : List MibIPforwardRow2) (tunLUID : UInt64) (a : Addr) :
    Option MibIPforwardRow2 :=
  (findBestPhysicalRoute routes a tunLUID).or
    ((routes.filter (isDefault tunLUID)).argmin fun row => row.metric.toNat)

/-- The route to `dest` on the interface and over the gateway of a row. -/
def routeVia (row : MibIPforwardRow2) (dest : Prefix) : BypassRoute :=
  ⟨row.interfaceLUID, dest, gateway row⟩

/-- A route was attempted for all that is denoted, on the physical route to it. -/
def Covered (routes : List MibIPforwardRow2) (tunLUID : UInt64) (nodes : List Denoted)
    (attempted : List BypassRoute) : Prop :=
  ∀ d ∈ nodes, isLoopback d.dest.addr = false →
    ∀ row, physicalRoute routes tunLUID d.dest.addr = some row → routeVia row d.dest ∈ attempted

/-! ## One prefix after another -/

theorem bind_eq_ok {ε α β : Type} {x : Except ε α} {f : α → Except ε β} {b : β} :
    (x >>= f) = .ok b ↔ ∃ a, x = .ok a ∧ f a = .ok b := by
  cases x with
  | error e =>
    constructor
    · intro h
      cases h
    · rintro ⟨a, ha, -⟩
      cases ha
  | ok a =>
    constructor
    · exact fun h => ⟨a, rfl, h⟩
    · rintro ⟨a', ha, h⟩
      obtain rfl := Except.ok.inj ha
      exact h

theorem defaultPhysical_eq (tunLUID : UInt64) (routes : List MibIPforwardRow2) :
    defaultPhysical tunLUID routes =
      (routes.filter (isDefault tunLUID)).argmin fun row => row.metric.toNat := by
  unfold defaultPhysical
  induction routes using List.reverseRecOn with
  | nil => rfl
  | append_singleton routes row ih =>
    rw [List.foldl_append, List.foldl_cons, List.foldl_nil, ih, List.filter_append,
      List.filter_singleton]
    unfold defaultStep
    cases hrow : isDefault tunLUID row with
    | false =>
      rw [if_pos]
      · simp
      · simp only [isDefault, Bool.and_eq_false_iff, bne_eq_false_iff_eq,
          beq_eq_false_iff_ne] at hrow
        exact hrow
    | true =>
      rw [if_neg]
      · dsimp only [cond]
        rw [List.argmin_concat]
        cases (routes.filter (isDefault tunLUID)).argmin fun row => row.metric.toNat with
        | none => rfl
        | some b =>
          dsimp only
          rw [if_congr UInt32.lt_iff_toNat_lt rfl rfl]
      · simp only [isDefault, Bool.and_eq_true, bne_iff_ne, beq_iff_eq] at hrow
        rintro (hon | hlong)
        · exact hrow.1 hon
        · exact hlong hrow.2

/-- The prefixes that are not skipped. -/
def Eligible (dest : Prefix) : Prop :=
  dest.isValid = true ∧ is4 dest.addr = true ∧ isLoopback dest.addr = false

section

variable {sys : System} {routes : List MibIPforwardRow2} {tunLUID : UInt64}

/-- After the prefixes of a list: the eligible ones were seen, and a route was attempted for each
that has a physical route. -/
structure Installed (routes : List MibIPforwardRow2) (tunLUID : UInt64) (handed : List Prefix)
    (st : Setup) : Prop where
  seen : ∀ p, p ∈ st.seenPrefix ↔ p ∈ handed ∧ Eligible p
  attempted : ∀ r, r ∈ st.attempted ↔
    ∃ p ∈ handed, Eligible p ∧
      ∃ row, physicalRoute routes tunLUID p.addr = some row ∧ r = routeVia row p

theorem installed_start : Installed routes tunLUID [] .start := by
  refine ⟨?_, ?_⟩
  · simp [Setup.start]
  · simp [Setup.start]

/-- A prefix that adds nothing keeps what was installed. -/
theorem Installed.skip {handed : List Prefix} {st : Setup} {dest : Prefix}
    (h : Installed routes tunLUID handed st) (hskip : Eligible dest → dest ∈ st.seenPrefix) :
    Installed routes tunLUID (handed ++ [dest]) st := by
  have hback : ∀ p, p ∈ handed ++ [dest] ∧ Eligible p ↔ p ∈ handed ∧ Eligible p := by
    intro p
    rw [List.mem_append, List.mem_singleton]
    constructor
    · rintro ⟨hp | rfl, helig⟩
      · exact ⟨hp, helig⟩
      · exact (h.seen p).mp (hskip helig)
    · rintro ⟨hp, helig⟩
      exact ⟨.inl hp, helig⟩
  refine ⟨fun p => (h.seen p).trans (hback p).symm, fun r => (h.attempted r).trans ?_⟩
  constructor
  · rintro ⟨p, hp, helig, hroute⟩
    exact ⟨p, List.mem_append_left _ hp, helig, hroute⟩
  · rintro ⟨p, hp, helig, hroute⟩
    exact ⟨p, ((hback p).mp ⟨hp, helig⟩).1, helig, hroute⟩

/-- A prefix that is new is seen, and its route is attempted if there is one. -/
theorem Installed.add {handed : List Prefix} {st st' : Setup} {dest : Prefix}
    (h : Installed routes tunLUID handed st) (helig : Eligible dest)
    (hseen : st'.seenPrefix = dest :: st.seenPrefix)
    (hattempted : ∀ r, r ∈ st'.attempted ↔ r ∈ st.attempted ∨
      ∃ row, physicalRoute routes tunLUID dest.addr = some row ∧ r = routeVia row dest) :
    Installed routes tunLUID (handed ++ [dest]) st' := by
  refine ⟨fun p => ?_, fun r => ?_⟩
  · rw [hseen, List.mem_cons, h.seen, List.mem_append, List.mem_singleton]
    constructor
    · rintro (rfl | ⟨hp, hpe⟩)
      · exact ⟨.inr rfl, helig⟩
      · exact ⟨.inl hp, hpe⟩
    · rintro ⟨hp | rfl, hpe⟩
      · exact .inr ⟨hp, hpe⟩
      · exact .inl rfl
  · rw [hattempted, h.attempted]
    constructor
    · rintro (⟨p, hp, hpe, hroute⟩ | hroute)
      · exact ⟨p, List.mem_append_left _ hp, hpe, hroute⟩
      · exact ⟨dest, by simp, helig, hroute⟩
    · rintro ⟨p, hp, hpe, hroute⟩
      rcases List.mem_append.mp hp with hp | hp
      · exact .inl ⟨p, hp, hpe, hroute⟩
      · obtain rfl := List.mem_singleton.mp hp
        exact .inr hroute

theorem Installed.step {handed : List Prefix} {st st' : Setup} {dest : Prefix}
    (h : Installed routes tunLUID handed st)
    (hstep : installPrefix sys routes tunLUID st dest = .ok st') :
    Installed routes tunLUID (handed ++ [dest]) st' := by
  unfold installPrefix at hstep
  split at hstep
  · rename_i hskip
    obtain rfl := Except.ok.inj hstep
    refine h.skip fun helig => ?_
    simp [helig.1, helig.2.1] at hskip
  rename_i hvalid
  simp only [not_or, not_not] at hvalid
  split at hstep
  · rename_i hloop
    obtain rfl := Except.ok.inj hstep
    refine h.skip fun helig => ?_
    rw [helig.2.2] at hloop
    cases hloop
  rename_i hloop
  have helig : Eligible dest := ⟨hvalid.1, hvalid.2, Bool.eq_false_iff.mpr hloop⟩
  split at hstep
  · rename_i hseen
    obtain rfl := Except.ok.inj hstep
    exact h.skip fun _ => hseen
  have hphysical : (findBestPhysicalRoute routes dest.addr tunLUID).or
      (defaultPhysical tunLUID routes) = physicalRoute routes tunLUID dest.addr := by
    rw [defaultPhysical_eq]
    rfl
  rw [hphysical] at hstep
  split at hstep
  · rename_i hnone
    obtain rfl := Except.ok.inj hstep
    refine h.add helig rfl fun r => ?_
    simp [hnone]
  · rename_i best hbest
    dsimp only at hstep
    split at hstep
    · cases hstep
    split at hstep
    · cases hstep
    obtain rfl := Except.ok.inj hstep
    refine h.add helig rfl fun r => ?_
    simp [hbest, routeVia]

/-- A run over a list of prefixes. -/
theorem Installed.run {handed more : List Prefix} {st st' : Setup}
    (h : Installed routes tunLUID handed st)
    (hrun : more.foldlM (installPrefix sys routes tunLUID) st = .ok st') :
    Installed routes tunLUID (handed ++ more) st' := by
  induction more generalizing handed st with
  | nil =>
    obtain rfl := Except.ok.inj hrun
    rwa [List.append_nil]
  | cons dest more ih =>
    rw [List.foldlM_cons] at hrun
    obtain ⟨mid, hmid, hrest⟩ := bind_eq_ok.mp hrun
    have hall := ih (h.step hmid) hrest
    rwa [List.append_assoc, List.singleton_append] at hall

/-- A loop whose turns hand over lists of prefixes. -/
theorem Installed.loop {σ : Type} {body : Setup → σ → Except SetupError Setup}
    {handedOf : σ → List Prefix}
    (hbody : ∀ st st' x, body st x = .ok st' →
      (handedOf x).foldlM (installPrefix sys routes tunLUID) st = .ok st')
    {handed : List Prefix} {st st' : Setup} (h : Installed routes tunLUID handed st) {xs : List σ}
    (hrun : xs.foldlM body st = .ok st') :
    Installed routes tunLUID (handed ++ xs.flatMap handedOf) st' := by
  induction xs generalizing handed st with
  | nil =>
    obtain rfl := Except.ok.inj hrun
    rwa [List.flatMap_nil, List.append_nil]
  | cons x xs ih =>
    rw [List.foldlM_cons] at hrun
    obtain ⟨mid, hmid, hrest⟩ := bind_eq_ok.mp hrun
    have hall := ih (h.run (hbody st mid x hmid)) hrest
    rwa [List.append_assoc, ← List.flatMap_cons] at hall

end

/-! ## What is handed over -/

/-- Only addresses of four bytes become prefixes. -/
def handedIPs (ips : List IP) : List Prefix :=
  (ips.filter fun ip => ip.length == 4).map fun ip => prefixFrom ⟨ip, []⟩ 32

def handedUpstream (lookupIP : Str → Option (List IP)) (upstream : Str) : List Prefix :=
  match parse upstream with
  | none => []
  | some u => if u.hostname = [] then [] else handedIPs ((lookupIP u.hostname).getD [])

def handedNode [Unicode] (lookupIP : Str → Option (List IP)) (node : Str) : List Prefix :=
  let node := trimSpace node
  if node = [] then []
  else
    match parsePrefix node with
    | some p => [p]
    | none =>
      match parseAddr node with
      | some a => [prefixFrom a 32]
      | none => handedIPs ((lookupIP node).getD [])

section

variable {sys : System} {routes : List MibIPforwardRow2} {tunLUID : UInt64}

theorem foldlM_installIP (ips : List IP) (st : Setup) :
    ips.foldlM (installIP sys routes tunLUID) st =
      (handedIPs ips).foldlM (installPrefix sys routes tunLUID) st := by
  induction ips generalizing st with
  | nil => rfl
  | cons ip ips ih =>
    rw [List.foldlM_cons]
    by_cases h4 : ip.length = 4
    · have hhanded : handedIPs (ip :: ips) = prefixFrom ⟨ip, []⟩ 32 :: handedIPs ips := by
        simp [handedIPs, h4]
      have hip : installIP sys routes tunLUID st ip =
          installPrefix sys routes tunLUID st (prefixFrom ⟨ip, []⟩ 32) := by
        simp [installIP, addrFromSlice, is4, h4]
      rw [hhanded, List.foldlM_cons, hip]
      exact bind_congr ih
    · have hhanded : handedIPs (ip :: ips) = handedIPs ips := by simp [handedIPs, h4]
      have hip : installIP sys routes tunLUID st ip = .ok st := by
        unfold installIP addrFromSlice
        by_cases h16 : ip.length = 16 <;> simp [is4, h4, h16]
      rw [hhanded, hip]
      exact ih st

theorem installUpstream_handed (st st' : Setup) (upstream : Str)
    (h : installUpstream sys routes tunLUID st upstream = .ok st') :
    (handedUpstream sys.lookupIP upstream).foldlM (installPrefix sys routes tunLUID) st =
      .ok st' := by
  unfold installUpstream at h
  unfold handedUpstream
  split at h
  · exact h
  · split at h
    · rename_i hname
      rw [if_pos hname]
      exact h
    · rename_i hname
      rw [if_neg hname]
      split at h
      · cases h
      · rename_i ips hips
        rw [hips, Option.getD_some, ← foldlM_installIP]
        exact h

theorem installNode_handed [Unicode] (st st' : Setup) (node : Str)
    (h : installNode sys routes tunLUID st node = .ok st') :
    (handedNode sys.lookupIP node).foldlM (installPrefix sys routes tunLUID) st = .ok st' := by
  have hone : ∀ p, installPrefix sys routes tunLUID st p = .ok st' →
      [p].foldlM (installPrefix sys routes tunLUID) st = .ok st' := by
    intro p hp
    rw [List.foldlM_cons]
    exact bind_eq_ok.mpr ⟨st', hp, rfl⟩
  unfold installNode at h
  unfold handedNode
  dsimp only at h ⊢
  split at h
  · rename_i hempty
    rw [if_pos hempty]
    exact h
  rename_i hempty
  rw [if_neg hempty]
  split at h
  · exact hone _ h
  · split at h
    · exact hone _ h
    · split at h
      · rename_i hips
        rw [hips]
        exact h
      · rename_i ips hips
        rw [hips, Option.getD_some, ← foldlM_installIP]
        exact h

end

theorem mem_handedIPs {ips : List IP} {p : Prefix} :
    p ∈ handedIPs ips ↔ ∃ d ∈ hostsOf ips, d.dest = p ∧ d.given.length = 4 := by
  unfold handedIPs hostsOf
  simp only [List.mem_map, List.mem_filter, List.mem_filterMap, beq_iff_eq]
  constructor
  · rintro ⟨ip, ⟨hip, h4⟩, rfl⟩
    exact ⟨_, ⟨ip, hip, if_pos h4⟩, by rw [h4], h4⟩
  · rintro ⟨d, ⟨ip, hip, hd⟩, rfl, h4⟩
    unfold denotedBy at hd
    split at hd
    · rename_i hlen
      obtain rfl := Option.some.inj hd
      exact ⟨ip, ⟨hip, hlen⟩, by rw [hlen]⟩
    · rename_i hlen
      split at hd
      · split at hd
        · obtain rfl := Option.some.inj hd
          exact absurd h4 hlen
        · cases hd
      · cases hd

theorem parsePrefix_self {s : Str} {p : Prefix} (h : parsePrefix s = some p) :
    prefixFrom ⟨p.addr.bytes, []⟩ p.bits = p ∧ p.bits ≤ 8 * p.addr.bytes.length := by
  unfold parsePrefix at h
  simp only [Option.bind_eq_bind, Option.bind_eq_some_iff] at h
  obtain ⟨i, -, a, ha, h⟩ := h
  split at h
  · cases h
  · rename_i hbits
    simp only [not_or, Nat.not_lt] at hbits
    obtain rfl := Option.some.inj h
    have hne : a.bytes ≠ [] := by
      intro hnil
      rcases length_parseAddr ha with hlen | hlen <;> simp [hnil] at hlen
    have hroom : a.bytes ≠ [] ∧ decimal (s.drop (i + 1)) ≤ 8 * a.bytes.length :=
      ⟨hne, hbits.2.2.2.2⟩
    unfold prefixFrom Prefix.bits
    simp [hroom]

/-- What is denoted is a valid IPv4 prefix. -/
theorem valid_denotedBy {ip : IP} {bits : Nat} {d : Denoted} (h : denotedBy ip bits = some d)
    (hbits : bits ≤ 8 * ip.length) : d.dest.isValid = true ∧ is4 d.dest.addr = true := by
  have hvalid : ∀ {a : IP} {n : Nat}, a.length = 4 → n ≤ 32 →
      (prefixFrom ⟨a, []⟩ n).isValid = true ∧ is4 (prefixFrom ⟨a, []⟩ n).addr = true := by
    intro a n hlen hn
    have hne : a ≠ [] := by
      rintro rfl
      cases hlen
    simp [prefixFrom, Prefix.isValid, is4, hlen, hne, hn]
  unfold denotedBy at h
  split at h
  · rename_i hlen
    obtain rfl := Option.some.inj h
    exact hvalid hlen (by omega)
  · rename_i hlen
    split at h
    · rename_i a ha
      split at h
      · obtain rfl := Option.some.inj h
        have h16 : ip.length = 16 := by
          unfold to4 at ha
          rw [if_neg hlen] at ha
          split at ha
          · rename_i hform
            exact hform.1
          · cases ha
        exact hvalid (length_to4 ha) (by omega)
      · cases h
    · cases h

theorem valid_hostsOf {ips : List IP} {d : Denoted} (h : d ∈ hostsOf ips) :
    d.dest.isValid = true ∧ is4 d.dest.addr = true := by
  obtain ⟨ip, -, hd⟩ := List.mem_filterMap.mp h
  exact valid_denotedBy hd (Nat.le_refl _)

theorem valid_denoted [Unicode] {lookupIP : Str → Option (List IP)}
    {upstreams bypassNodes : List Str} {d : Denoted}
    (h : d ∈ denoted lookupIP upstreams bypassNodes) :
    d.dest.isValid = true ∧ is4 d.dest.addr = true := by
  rcases List.mem_append.mp h with h | h
  · obtain ⟨u, -, hd⟩ := List.mem_flatMap.mp h
    unfold upstreamDenotes at hd
    split at hd
    · cases hd
    · split at hd
      · cases hd
      · exact valid_hostsOf hd
  · obtain ⟨n, -, hd⟩ := List.mem_flatMap.mp h
    unfold nodeDenotes at hd
    dsimp only at hd
    split at hd
    · cases hd
    · split at hd
      · rename_i p hp
        exact valid_denotedBy (Option.mem_toList.mp hd) (parsePrefix_self hp).2
      · split at hd
        · exact valid_hostsOf hd
        · exact valid_hostsOf hd

/-- Eligible prefixes are handed over for what is given in four bytes. -/
theorem mem_handedUpstream {lookupIP : Str → Option (List IP)} {upstream : Str} {p : Prefix} :
    p ∈ handedUpstream lookupIP upstream ↔
      ∃ d ∈ upstreamDenotes lookupIP upstream, d.dest = p ∧ d.given.length = 4 := by
  unfold handedUpstream upstreamDenotes
  split
  · simp
  · split
    · simp
    · exact mem_handedIPs

theorem mem_handedNode [Unicode] {lookupIP : Str → Option (List IP)} {node : Str} {p : Prefix}
    (hp : Eligible p) :
    p ∈ handedNode lookupIP node ↔
      ∃ d ∈ nodeDenotes lookupIP node, d.dest = p ∧ d.given.length = 4 := by
  have hlen : p.addr.bytes.length = 4 := by simpa [is4] using hp.2.1
  unfold handedNode nodeDenotes
  dsimp only
  split
  · simp
  · split
    · rename_i q hq
      rw [List.mem_singleton]
      constructor
      · rintro rfl
        refine ⟨⟨p.addr.bytes, p⟩, ?_, rfl, hlen⟩
        rw [denotedBy, if_pos hlen, (parsePrefix_self hq).1]
        exact List.mem_singleton_self _
      · rintro ⟨d, hd, rfl, h4⟩
        unfold denotedBy at hd
        split at hd
        · obtain rfl := List.mem_singleton.mp hd
          exact (parsePrefix_self hq).1
        · rename_i hnot
          split at hd
          · split at hd
            · obtain rfl := List.mem_singleton.mp hd
              exact absurd h4 hnot
            · cases hd
          · cases hd
    · split
      · rename_i a ha
        rw [← mem_handedIPs]
        unfold handedIPs
        by_cases h4 : a.bytes.length = 4
        · simp [h4, prefixFrom]
        · simp only [List.mem_singleton, List.filter_cons, beq_iff_eq, h4, if_false]
          refine iff_of_false ?_ List.not_mem_nil
          rintro rfl
          exact h4 hlen
      · exact mem_handedIPs

theorem mem_handed [Unicode] {lookupIP : Str → Option (List IP)} {upstreams bypassNodes : List Str}
    {p : Prefix} (hp : Eligible p) :
    p ∈ upstreams.flatMap (handedUpstream lookupIP) ++ bypassNodes.flatMap (handedNode lookupIP) ↔
      ∃ d ∈ denoted lookupIP upstreams bypassNodes, d.dest = p ∧ d.given.length = 4 := by
  unfold denoted
  simp only [List.mem_append, List.mem_flatMap, mem_handedUpstream, mem_handedNode hp]
  constructor
  · rintro (⟨u, hu, d, hd, hdest⟩ | ⟨n, hn, d, hd, hdest⟩)
    · exact ⟨d, .inl ⟨u, hu, hd⟩, hdest⟩
    · exact ⟨d, .inr ⟨n, hn, hd⟩, hdest⟩
  · rintro ⟨d, ⟨u, hu, hd⟩ | ⟨n, hn, hd⟩, hdest⟩
    · exact .inl ⟨u, hu, d, hd, hdest⟩
    · exact .inr ⟨n, hn, d, hd, hdest⟩

/-! ## The law -/

/-- After a setup without an error, exactly what is given in four bytes has its route. -/
theorem installed_of_setup [Unicode] {sys : System} {tunLUID : UInt64}
    {upstreams bypassNodes : List Str} {routes : List MibIPforwardRow2} {st : Setup}
    (htable : sys.getIPForwardTable2 = some routes)
    (h : setupUpstreamBypassRoutes sys tunLUID upstreams bypassNodes = .ok st) :
    Installed routes tunLUID (upstreams.flatMap (handedUpstream sys.lookupIP) ++
      bypassNodes.flatMap (handedNode sys.lookupIP)) st := by
  unfold setupUpstreamBypassRoutes at h
  rw [htable] at h
  obtain ⟨mid, hmid, hrest⟩ := bind_eq_ok.mp h
  have hupstreams := installed_start.loop installUpstream_handed hmid
  exact hupstreams.loop installNode_handed hrest

/-- Every address and network that an upstream or a node denotes has its route, exactly when it is
given in four bytes somewhere. Loopback addresses, and those without a physical route, do not
count. -/
theorem bypass_routes_cover_iff [Unicode] (sys : System) (tunLUID : UInt64)
    (upstreams bypassNodes : List Str) (routes : List MibIPforwardRow2) (st : Setup)
    (htable : sys.getIPForwardTable2 = some routes)
    (h : setupUpstreamBypassRoutes sys tunLUID upstreams bypassNodes = .ok st) :
    let nodes := denoted sys.lookupIP upstreams bypassNodes
    Covered routes tunLUID nodes st.attempted ↔
      ∀ d ∈ nodes, isLoopback d.dest.addr = false →
        (physicalRoute routes tunLUID d.dest.addr).isSome →
          ∃ e ∈ nodes, e.dest = d.dest ∧ e.given.length = 4 := by
  intro nodes
  have hinstalled := installed_of_setup htable h
  have heligible : ∀ d ∈ nodes, isLoopback d.dest.addr = false → Eligible d.dest := by
    intro d hd hloop
    obtain ⟨hvalid, h4⟩ := valid_denoted hd
    exact ⟨hvalid, h4, hloop⟩
  unfold Covered
  refine forall₃_congr fun d hd hloop => ?_
  have helig := heligible d hd hloop
  rw [← mem_handed helig]
  constructor
  · intro hcovered hroute
    obtain ⟨row, hrow⟩ := Option.isSome_iff_exists.mp hroute
    obtain ⟨p, hp, -, row', -, heq⟩ := (hinstalled.attempted _).mp (hcovered row hrow)
    have hdest : d.dest = p := congrArg BypassRoute.dest heq
    rwa [hdest]
  · intro hgiven row hrow
    refine (hinstalled.attempted _).mpr ⟨d.dest, hgiven ?_, helig, row, hrow, rfl⟩
    rw [hrow]
    rfl

/-- Two physical routes. The resolver answers a literal with its 16-byte form. -/
def twoNics : System where
  getIPForwardTable2 := some twoRoutes
  lookupIP name := (parseIP name).map fun ip => [ip]
  create _ := true

/-- A bypass node that is an address in its own right gets its route. -/
theorem literal_node_is_covered :
    ∃ st, setupUpstreamBypassRoutes twoNics 9 [] ["192.168.31.253"] = .ok st ∧
      Covered twoRoutes 9 (denoted twoNics.lookupIP [] ["192.168.31.253"]) st.attempted := by
  obtain ⟨st, hst⟩ : ∃ st, setupUpstreamBypassRoutes twoNics 9 [] ["192.168.31.253"] = .ok st :=
    ⟨_, rfl⟩
  refine ⟨st, hst, (bypass_routes_cover_iff twoNics 9 [] ["192.168.31.253"] twoRoutes st rfl
    hst).mpr ?_⟩
  intro d hd _ _
  have hall : ∀ e ∈ denoted twoNics.lookupIP [] ["192.168.31.253"], e.given.length = 4 := by
    decide +kernel
  exact ⟨d, hd, rfl, hall d hd⟩

/-- The same address as the host of an upstream gets none. -/
theorem literal_upstream_is_not_covered :
    setupUpstreamBypassRoutes twoNics 9 ["socks5://192.168.31.253:1080"] [] = .ok .start ∧
      denoted twoNics.lookupIP ["socks5://192.168.31.253:1080"] [] =
        [⟨v4InV6Prefix ++ [192, 168, 31, 253], prefixFrom ⟨[192, 168, 31, 253], []⟩ 32⟩] ∧
      (physicalRoute twoRoutes 9 ⟨[192, 168, 31, 253], []⟩).map (·.interfaceLUID) = some 2 := by
  decide +kernel

end vproxy.windows
