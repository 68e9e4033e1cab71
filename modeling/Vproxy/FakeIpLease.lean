-- How long a fake address stands for its name. The DNS loops of all platforms hand their datagrams
-- to one pool, and a client connects to the address it was told some time later. The name comes
-- back as long as the names that were new since then, the name itself counted, fit into the pool.
import Vproxy.DnsAnswers
import Vproxy.FakeIpOrder
import Vproxy.FakeIpRestore

open go go.net go.regexp runs cyclic_slots slices dns_names

namespace vproxy.dns

/-! ## The loops -/

/-- What `HijackPacket` returns. -/
structure Hijacked where
  resp : List UInt8
  domain : Str
  handled : Bool
  deriving DecidableEq

/-- `HijackPacket`, with the pool after it. -/
def hijackPacket (pool : Option FakeIPPool) (raw : Slice UInt8) :
    Option (Hijacked × Option FakeIPPool) :=
  match pool with
  | none => some (⟨[], [], false⟩, none)
  | some p =>
    (handleDNSQuery p raw).map fun (a, p') =>
      (if a.err = none then ⟨a.resp, a.domain, true⟩ else ⟨[], a.domain, false⟩, some p')

/-- A datagram in the buffer of its loop, with what the buffer holds behind it. -/
structure Datagram where
  data : List UInt8
  stale : List UInt8

/-- The datagrams of all loops in the order in which they reach the pool. A panic in one loop
ends the program. -/
def served (pool : Option FakeIPPool) : List Datagram → Option (List Hijacked × Option FakeIPPool)
  | [] => some ([], pool)
  | d :: rest => do
    let (out, pool) ← hijackPacket pool (.over d.data d.stale)
    let (outs, pool) ← served pool rest
    some (out :: outs, pool)

/-- The answer has an address, by the count of its records. -/
def Hijacked.hasAddress (out : Hijacked) : Bool := out.handled && byte out.resp 7 == 1

/-- The address at the end of the answer. -/
def Hijacked.address (out : Hijacked) : IP := out.resp.drop (out.resp.length - 4)

/-- The names that were told an address. -/
def granted (outs : List Hijacked) : List Str :=
  (outs.filter Hijacked.hasAddress).map Hijacked.domain

/-- The different names from the first query of `d` on, `d` itself counted. -/
def since (names : List Str) (d : Str) : List Str := names.eraseDups.dropWhile (· ≠ d)

/-! ## One datagram -/

theorem byte_count_respHeader {id : List UInt8} (h : id.length = 2) (n : UInt8)
    (more : List UInt8) : byte (respHeader id n ++ more) 7 = n := by
  obtain ⟨a, b, rfl⟩ := List.length_eq_two.mp h
  rfl

theorem address_respRecord {ip : IP} (h : ip.length = 4) (front : List UInt8) :
    (front ++ respRecord ip).drop ((front ++ respRecord ip).length - 4) = ip := by
  obtain ⟨a, b, c, d, rfl⟩ := List.length_eq_four.mp h
  have hlength : (front ++ respRecord [a, b, c, d]).length - 4 = front.length + 12 := by
    simp [respRecord]
  rw [hlength, List.drop_append]
  simp [respRecord]

theorem length_getIP (p : FakeIPPool) (d : Str) : (p.getIP d).1.length = 4 :=
  length_to4 (to4_getIP p d)

/-- A datagram whose answer has an address is a query of its name, and no other datagram changes
the pool. -/
theorem hijackPacket_spec {p : FakeIPPool} {d : Datagram} {out : Hijacked}
    {pool : Option FakeIPPool}
    (h : hijackPacket (some p) (.over d.data d.stale) = some (out, pool)) :
    if out.hasAddress then
      out.address = (p.getIP out.domain).1 ∧ pool = some (p.getIP out.domain).2
    else pool = some p := by
  obtain ⟨⟨a, p'⟩, hhandle, hout⟩ := Option.map_eq_some_iff.mp h
  cases hout
  by_cases hasks : ∃ ls rest, Asks d.data ls rest
  · obtain ⟨ls, rest, hq⟩ := hasks
    have hid : (d.data.take 2).length = 2 := by
      have hlen := hq.length
      rw [List.length_take]
      omega
    rw [handle_of_asks hq] at hhandle
    split at hhandle
    · cases hhandle
    split at hhandle
    · cases hhandle
      simp [failed, Hijacked.hasAddress]
    split at hhandle
    · cases hhandle
    · unfold answered at hhandle
      dsimp only at hhandle
      split at hhandle
      · cases hhandle
        simp [Hijacked.hasAddress, byte_count_respHeader hid]
      · cases hhandle
        simp only [Hijacked.hasAddress, Hijacked.address, List.append_assoc,
          byte_count_respHeader hid, if_true, Bool.true_and, beq_self_eq_true, and_true]
        rw [← List.append_assoc, ← List.append_assoc, address_respRecord (length_getIP _ _)]
  · rw [handle_of_not_asks fun ls rest hq => hasks ⟨ls, rest, hq⟩] at hhandle
    cases hhandle
    simp [failed, Hijacked.hasAddress]

/-! ## All datagrams -/

theorem granted_cons (out : Hijacked) (outs : List Hijacked) :
    granted (out :: outs) =
      if out.hasAddress then out.domain :: granted outs else granted outs := by
  unfold granted
  rw [List.filter_cons]
  split <;> rfl

/-- The pool is the one that was asked for the granted names. -/
theorem served_pool {p : FakeIPPool} {ds : List Datagram} {outs : List Hijacked}
    {pool : Option FakeIPPool} (h : served (some p) ds = some (outs, pool)) :
    pool = some (p.queried (granted outs)) := by
  induction ds generalizing p outs with
  | nil =>
    cases h
    rfl
  | cons d rest ih =>
    simp only [served, Option.bind_eq_bind, Option.bind_eq_some_iff, Prod.exists,
      Option.some.injEq, Prod.mk.injEq] at h
    obtain ⟨out, pool1, hout, outs', pool2, hrest, rfl, rfl⟩ := h
    have hspec := hijackPacket_spec hout
    rw [granted_cons]
    split at hspec
    · rename_i haddress
      obtain ⟨-, rfl⟩ := hspec
      rw [if_pos haddress, ih hrest]
      rfl
    · rename_i haddress
      subst hspec
      rw [if_neg haddress, ih hrest]

theorem queried_append (p : FakeIPPool) (ds es : List Str) :
    p.queried (ds ++ es) = (p.queried ds).queried es := run_append _ p ds es

theorem getIP_subnet (p : FakeIPPool) (d : Str) : (p.getIP d).2.subnet = p.subnet := by
  unfold FakeIPPool.getIP
  split <;> rfl

theorem queried_subnet (p : FakeIPPool) (ds : List Str) : (p.queried ds).subnet = p.subnet :=
  run_invariant_of_step (fun q => q.subnet = p.subnet)
    (fun q d h => (getIP_subnet q d).trans h) rfl ds

/-! ## The lease -/

section

variable {cidr : Str} {p : FakeIPPool}

theorem since_of_split {names older newer : List Str} {d : Str}
    (h : names.eraseDups = older ++ d :: newer) (hd : d ∉ older) :
    since names d = d :: newer := by
  unfold since
  have hbefore : ∀ e ∈ older, decide (e ≠ d) = true := by
    intro e he
    rw [decide_eq_true_iff]
    rintro rfl
    exact hd he
  rw [h, List.dropWhile_append_of_pos hbefore, List.dropWhile_cons_of_neg (by simp)]

/-- The address of a name leads back to it while the names since then fit into the pool. -/
theorem getDomain_eq_iff (hsound : p.Sound) (hp : Holds p [] p) {names : List Str} {d : Str}
    (hd : d ∈ names) (hne : d ≠ []) {ip : IP} (hip : Received p names d ip) :
    (p.queried names).getDomain ip = d ↔ (since names d).length ≤ p.size := by
  have hlog := reverse_logOf names
  have hholds := queried_holds hsound hp names
  have hnd : (logOf names).Nodup := foldl_seen_nodup names List.nodup_nil
  obtain ⟨newer, older, hsplit⟩ := List.append_of_mem (mem_logOf.mpr hd)
  have hd' : d ∉ older := by
    rw [hsplit] at hnd
    exact (List.nodup_cons.mp (List.nodup_append.mp hnd).2.1).1
  have hdups : names.eraseDups = older.reverse ++ d :: newer.reverse := by
    rw [← hlog, hsplit]
    simp
  have hsince := since_of_split hdups (by simpa using hd')
  have hslot : slotOf p.size (logOf names) d = some (older.length % p.size) := by
    rw [slotOf_suffix ⟨newer, hsplit.symm⟩ hnd List.mem_cons_self, slotOf, if_pos rfl]
  obtain ⟨s, hs, rfl⟩ := (received_iff_slot hsound hp).mp hip
  obtain rfl := Option.some.inj (hs.symm.trans hslot)
  have howner : (p.queried names).ipToDomain (p.addr (older.length % p.size)) =
      owner p.size (logOf names) (older.length % p.size) := by
    have hback := hholds.backward (p.addr (older.length % p.size))
    rwa [slot_addr hsound (Nat.mod_lt _ (size_pos hsound))] at hback
  rw [getDomain_uint32ToIP, howner, hsince, List.length_cons, List.length_reverse, Nat.succ_le_iff,
    hsplit, ← owner_eq_some_iff (size_pos hsound) (hsplit ▸ hnd)]
  cases owner p.size (newer ++ d :: older) (older.length % p.size) with
  | none => simpa using hne.symm
  | some e => simp

/-- Datagrams, one among them that is told an address, and more datagrams. -/
structure ToldAddress (p : FakeIPPool) (before : List Datagram) (query : Datagram)
    (after : List Datagram) (out : Hijacked) (names : List Str) (q : FakeIPPool) : Prop where
  runs : ∃ outs outs' pool pool', served (some p) before = some (outs, pool) ∧
    hijackPacket pool (.over query.data query.stale) = some (out, pool') ∧
    served pool' after = some (outs', some q) ∧ names = granted outs ++ out.domain :: granted outs'
  told : out.hasAddress
  named : out.domain ≠ []

theorem ToldAddress.received {before after : List Datagram} {query : Datagram} {out : Hijacked}
    {names : List Str} {q : FakeIPPool} (h : ToldAddress p before query after out names q) :
    Received p names out.domain out.address ∧ q = p.queried names := by
  obtain ⟨outs, outs', pool, pool', hbefore, hquery, hafter, rfl⟩ := h.runs
  obtain rfl := served_pool hbefore
  have hspec := hijackPacket_spec hquery
  rw [if_pos h.told] at hspec
  obtain ⟨haddress, rfl⟩ := hspec
  have hend := served_pool hafter
  refine ⟨⟨granted outs, granted outs', rfl, haddress.symm⟩, ?_⟩
  rw [Option.some.inj hend, queried_append]
  rfl

end

end vproxy.dns

namespace vproxy

open dns

/-- The text of host and port determines the host. -/
theorem joinHostPort_inj {host host' port : Str}
    (h : joinHostPort host port = joinHostPort host' port) : host = host' := by
  have hbrackets : ∀ s t : Str, ':' ∈ s → ':' ∉ t →
      '[' :: s ++ ("]:" : Str) ++ port ≠ t ++ ':' :: port := by
    intro s t hs ht heq
    have hends : '[' :: s ++ [']'] ++ ':' :: port = t ++ ':' :: port := by simpa using heq
    have hfront := List.append_cancel_right hends
    exact ht (hfront ▸ by simp [hs])
  unfold joinHostPort at h
  split at h <;> split at h
  · simpa using h
  · exact absurd h (hbrackets _ _ ‹_› ‹_›)
  · exact absurd h.symm (hbrackets _ _ ‹_› ‹_›)
  · simpa using h

/-- A fake address is restored to the name that the pool has for it. -/
theorem restore_eq_iff {pool : FakeIPPool} {dst : SocketAddr} {domain : Str}
    (hlen : dst.ip.length = 4 ∨ dst.ip.length = 16) (hfake : pool.isFakeIP dst.ip = true)
    (hne : domain ≠ []) :
    restore (some pool) (dstText dst) = (joinHostPort domain (itoa dst.port.toNat), true) ↔
      pool.getDomain dst.ip = domain := by
  by_cases hnone : pool.getDomain dst.ip = []
  · obtain ⟨ip, hip⟩ : ∃ ip, to16 dst.ip = some ip := by
      rcases hlen with hlen | hlen <;> simp [to16, hlen]
    have hdomain : pool.getDomain ip = [] := by
      rw [← hnone, FakeIPPool.getDomain, FakeIPPool.getDomain, to4_to16 hip]
    unfold restore
    rw [hostPort_dstText hlen]
    dsimp only
    rw [parseIP_ipString hlen, hip, hnone]
    simp [hdomain, hne.symm]
  · rw [restore_dstText ⟨hlen, hfake, rfl, hnone⟩, Prod.mk.injEq]
    exact ⟨fun h => joinHostPort_inj h.1, fun h => ⟨by rw [h], rfl⟩⟩

section

variable [Regexp] [Unicode]

/-- A client that was told an address for a name reaches that name through the address, on TCP and
on UDP, as long as the different names since its first query fit into the pool. After that the
address does not lead back. -/
theorem told_address_leads_back {cidr : Str} {p q : FakeIPPool} {before after : List Datagram}
    {query : Datagram} {out : Hijacked} {names : List Str} (h : newFakeIPPool cidr = some p)
    (h4 : p.subnet.mask.length = 4) (hones : maskOnes p.subnet.mask ≤ 30)
    (htold : ToldAddress p before query after out names q) (port : UInt16) :
    (restore (some q) (dstText ⟨out.address, port⟩) =
        (joinHostPort out.domain (itoa port.toNat), true) ↔
      (since names out.domain).length ≤ p.size) ∧
    ((since names out.domain).length ≤ p.size → Plain out.domain →
      ∀ (ph : ProxyHandler) (w : World) (c : Client), w.pool = some q →
        (∀ name, c.sni = some name → Plain name) →
        ¬ sniffedAway c out.domain (itoa port.toNat) →
        Restored out.domain (itoa port.toNat)
          (ph.forward w c (dstText ⟨out.address, port⟩)).events ∧
        Restored out.domain (itoa port.toNat)
          (ph.handleUDP w c (dstText ⟨out.address, port⟩)).events) := by
  obtain ⟨hsound, -⟩ := newFakeIPPool_sound h h4 hones
  have hp := newFakeIPPool_holds h
  obtain ⟨hreceived, rfl⟩ := htold.received
  have hmem : out.domain ∈ names := by
    obtain ⟨front, rest, rfl, -⟩ := hreceived
    simp
  have hback := getDomain_eq_iff hsound hp hmem htold.named hreceived
  obtain ⟨k, -, haddress⟩ := (received_iff hsound hp).mp hreceived
  have hfake : (p.queried names).isFakeIP out.address = true := by
    have hin := (addr_in_subnet h h4 hones (Nat.mod_lt k (size_pos hsound))).1
    unfold FakeIPPool.isFakeIP at hin ⊢
    rwa [queried_subnet, haddress]
  have hlength : out.address.length = 4 := by
    rw [haddress]
    rfl
  constructor
  · rw [← hback]
    exact restore_eq_iff (.inl hlength) hfake htold.named
  · intro hfits hplain ph w c hw hsni haway
    have hstands : StandsFor (p.queried names) out.address out.domain :=
      ⟨.inl hlength, hfake, hback.mpr hfits, htold.named⟩
    generalize out.address = ip at hstands ⊢
    obtain ⟨dst, rfl, rfl⟩ : ∃ dst : SocketAddr, dst.ip = ip ∧ dst.port = port :=
      ⟨⟨ip, port⟩, rfl, rfl⟩
    exact ⟨(forward_restores hw hstands hsni).mpr (.inr ⟨hplain, haway⟩),
      (handleUDP_restores hw hstands).mpr (.inr (.inr hplain))⟩

end

theorem labels_letter (c : UInt8) : Labels 63 [[c]] := by simp [Labels]

/-- A query for a name of one letter. -/
def letterQuery (c : UInt8) : Query :=
  { plainQuery with labels := [[c]], labels_fit := labels_letter c }

def letterDatagram (c : UInt8) : Datagram := ⟨(letterQuery c).bytes [0, 1], []⟩

def letterAnswer (p : FakeIPPool) (c : UInt8) : Hijacked where
  resp := respHeader (letterQuery c).id 1 ++ (letterQuery c).question [0, 1] ++
    respRecord (p.getIP (nameText [[c]])).1
  domain := nameText [[c]]
  handled := true

theorem hijackPacket_letter (p : FakeIPPool) (c : UInt8) :
    hijackPacket (some p) (.over (letterDatagram c).data (letterDatagram c).stale) =
      some (letterAnswer p c, some (p.getIP (nameText [[c]])).2) := by
  unfold hijackPacket letterDatagram
  dsimp only
  rw [(letterQuery c).handle rfl, if_pos (by decide)]
  rfl

theorem hasAddress_letter (p : FakeIPPool) (c : UInt8) :
    (letterAnswer p c).hasAddress = true := by
  rw [Hijacked.hasAddress, letterAnswer, List.append_assoc, byte_count_respHeader rfl]
  rfl

theorem served_letter (p : FakeIPPool) (c : UInt8) : served (some p) [letterDatagram c] =
    some ([letterAnswer p c], some (p.getIP (nameText [[c]])).2) := by
  simp [served, hijackPacket_letter]

/-- In a pool of five addresses the second of three names is reached through its address after the
third one was asked for. -/
theorem fresh_address_leads_back :
    ∃ p q out, newFakeIPPool "10.0.0.0/29" = some p ∧
      ToldAddress p [letterDatagram 98] (letterDatagram 97) [letterDatagram 99] out
        ["b", "a", "c"] q ∧
      restore (some q) (dstText ⟨out.address, 443⟩) = (("a:443" : Str), true) := by
  obtain ⟨p, hp⟩ : ∃ p, newFakeIPPool "10.0.0.0/29" = some p := ⟨_, rfl⟩
  have hmask : p.subnet.mask = [255, 255, 255, 248] := by
    cases hp
    decide
  have hsize : p.size = 5 := by
    cases hp
    decide
  obtain ⟨p1, hp1⟩ : ∃ p1, p1 = (p.getIP "b").2 := ⟨_, rfl⟩
  obtain ⟨p2, hp2⟩ : ∃ p2, p2 = (p1.getIP "a").2 := ⟨_, rfl⟩
  have htold : ToldAddress p [letterDatagram 98] (letterDatagram 97) [letterDatagram 99]
      (letterAnswer p1 97) ["b", "a", "c"] (p2.getIP "c").2 := by
    refine ⟨⟨[letterAnswer p 98], [letterAnswer p2 99], some p1, some p2, ?_, ?_, ?_, ?_⟩,
      hasAddress_letter p1 97, nofun⟩
    · rw [hp1]
      exact served_letter p 98
    · rw [hp2]
      exact hijackPacket_letter p1 97
    · exact served_letter p2 99
    · rw [granted, granted, List.filter_cons_of_pos (hasAddress_letter p 98),
        List.filter_cons_of_pos (hasAddress_letter p2 99)]
      rfl
  refine ⟨p, _, _, hp, htold, ?_⟩
  refine (told_address_leads_back hp ?_ ?_ htold 443).1.mpr ?_
  · rw [hmask]
    decide
  · rw [hmask]
    decide
  · rw [hsize]
    exact (by decide : (since ["b", "a", "c"] "a").length ≤ 5)

end vproxy
