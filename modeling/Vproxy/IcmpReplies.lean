-- The replies of the ICMP responder as packets. A reply is the request with its addresses
-- swapped and another type, but its checksums are not complemented where they have to be,
-- or complemented once too often.
import Vproxy.Icmp

open go go.net ones slices

namespace vproxy.icmp

/-! ## Requests -/

/-- The ICMP message of an IPv4 packet. -/
def message4 (b : List UInt8) : List UInt8 :=
  (b.drop (headerLength b)).take (totalLength b - headerLength b)

/-- A valid echo request in an IPv4 packet, which may be followed by other bytes. -/
structure Request4 (b : List UInt8) : Prop where
  version : version b = 4
  header : 20 ≤ headerLength b
  message : headerLength b + 8 ≤ totalLength b
  complete : totalLength b ≤ b.length
  protocol : byte b 9 = 1
  echo : byte b (headerLength b) = 8
  headerSum : checksum (b.take (headerLength b)) 0 = 0xffff
  messageSum : checksum (message4 b) 0 = 0xffff

/-- The ICMP message of an IPv6 packet. -/
def message6 (b : List UInt8) : List UInt8 := (b.drop 40).take (payloadLength6 b)

/-- The pseudo-header: the addresses, the length of the message and the next header. -/
def pseudoHeader6 (b : List UInt8) : List UInt8 :=
  (b.drop 8).take 16 ++ (b.drop 24).take 16 ++
    ([0, 0] ++ wordBytes (UInt16.ofNat (payloadLength6 b)) ++ [0, 0, 0, 58])

structure Request6 (b : List UInt8) : Prop where
  version : version b = 6
  message : 8 ≤ payloadLength6 b
  complete : 40 + payloadLength6 b ≤ b.length
  nextHeader : byte b 6 = 58
  echo : byte b 40 = 128
  messageSum : checksum (pseudoHeader6 b ++ message6 b) 0 = 0xffff

/-! ## Replies -/

/-- The packet `rep` is `req` with the addresses of `n` bytes swapped and with another type,
and perhaps with other checksums. -/
structure EchoOf (src dst n off : Nat) (type : UInt8) (sums : List Nat) (req rep : List UInt8) :
    Prop where
  length : rep.length = req.length
  source : (rep.drop src).take n = (req.drop dst).take n
  destination : (rep.drop dst).take n = (req.drop src).take n
  type : byte rep off = type
  rest : ∀ i, ¬ (src ≤ i ∧ i < src + n) → ¬ (dst ≤ i ∧ i < dst + n) → i ≠ off →
    (∀ k ∈ sums, i ≠ k ∧ i ≠ k + 1) → rep[i]? = req[i]?

/-- The reply to an IPv4 request: the addresses are at 12 and 16, the checksums at 10 and in
the message. -/
abbrev EchoOf4 (req rep : List UInt8) : Prop :=
  EchoOf 12 16 4 (headerLength req) 0 [10, headerLength req + 2] req rep

/-- The reply to an IPv6 request: the addresses are at 8 and 24, the checksum in the message. -/
abbrev EchoOf6 (req rep : List UInt8) : Prop := EchoOf 8 24 16 40 129 [42] req rep

/-- A correct reply to an IPv4 request. -/
structure Correct4 (req rep : List UInt8) : Prop where
  echo : EchoOf4 req rep
  headerSum : checksum (rep.take (headerLength rep)) 0 = 0xffff
  messageSum : checksum (message4 rep) 0 = 0xffff

/-- A correct reply to an IPv6 request. -/
structure Correct6 (req rep : List UInt8) : Prop where
  echo : EchoOf6 req rep
  messageSum : checksum (pseudoHeader6 rep ++ message6 rep) 0 = 0xffff

/-! ## Writes -/

section Writes

variable {src dst n off k : Nat} {type : UInt8} {sums : List Nat} {req rep : List UInt8}

/-- The places of a packet that a reply changes lie apart. -/
structure Apart (src dst n off : Nat) (sums : List Nat) : Prop where
  addresses : src + n ≤ dst
  type : off < src ∨ dst + n ≤ off
  sums : ∀ k ∈ sums, (k + 2 ≤ src ∨ dst + n ≤ k) ∧ (k + 2 ≤ off ∨ off < k)

theorem drop_take_swapAddresses (h : src + n ≤ dst) (hdst : dst + n ≤ req.length) {lo m : Nat}
    (hout : lo + m ≤ src ∨ dst + n ≤ lo) :
    ((swapAddresses req src dst n).drop lo).take m = (req.drop lo).take m := by
  obtain ⟨hs, hd, hfirst⟩ := swap_fits (show src + n ≤ req.length by omega) hdst
  unfold swapAddresses
  rw [drop_take_splice (by omega) (by omega), drop_take_splice (by omega) (by omega)]

/-- A swap inside the front of a packet is a swap of the front. -/
theorem take_swapAddresses (h : src + n ≤ dst) {m : Nat} (hm : dst + n ≤ m)
    (hdst : dst + n ≤ req.length) :
    (swapAddresses req src dst n).take m = swapAddresses (req.take m) src dst n := by
  obtain ⟨hs, hd, hfirst⟩ := swap_fits (show src + n ≤ req.length by omega) hdst
  have hfront : ∀ i, i + n ≤ m → ((req.take m).drop i).take n = (req.drop i).take n := by
    intro i hi
    rw [List.drop_take, List.take_take, Nat.min_eq_left (by omega)]
  unfold swapAddresses
  rw [take_splice_inside (by omega) (by omega), take_splice_inside (by omega) (by omega),
    hfront src (by omega), hfront dst (by omega)]

/-- The swap and the new type. -/
theorem echoOf_typed (hapart : Apart src dst n off sums) (hdst : dst + n ≤ req.length)
    (hoff : off < req.length) :
    EchoOf src dst n off type sums req (splice (swapAddresses req src dst n) off [type]) := by
  have haddr := hapart.addresses
  have htype := hapart.type
  obtain ⟨hs, hd, hfirst⟩ := swap_fits (show src + n ≤ req.length by omega) hdst
  have hswap : (swapAddresses req src dst n).length = req.length :=
    length_swapAddresses (by omega) hdst
  have hone : off + [type].length ≤ (swapAddresses req src dst n).length := by
    simp
    omega
  constructor
  case length => rw [length_splice hone, hswap]
  case source =>
    rw [drop_take_splice hone (by simp; omega), swapAddresses,
      drop_take_splice (by omega) (by omega)]
    have hself : ((splice req src ((req.drop dst).take n)).drop src).take
        ((req.drop dst).take n).length = (req.drop dst).take n :=
      drop_take_splice_self (by omega)
    rwa [hd] at hself
  case destination =>
    rw [drop_take_splice hone (by simp; omega), swapAddresses]
    have hself : ((splice (splice req src ((req.drop dst).take n)) dst ((req.drop src).take n)).drop
        dst).take ((req.drop src).take n).length = (req.drop src).take n :=
      drop_take_splice_self (by omega)
    rwa [hs] at hself
  case type =>
    rw [byte_splice hone, if_pos (by simp)]
    simp [byte]
  case rest =>
    intro i hi hi' hioff _
    rw [getElem?_splice hone, if_neg (by simp; omega), swapAddresses,
      getElem?_splice (by omega), if_neg (by omega), getElem?_splice (by omega), if_neg (by omega)]

/-- The write of a checksum. -/
theorem echoOf_sum (hapart : Apart src dst n off sums) (h : EchoOf src dst n off type sums req rep)
    (hk : k ∈ sums) (hlen : k + 2 ≤ req.length) {new : List UInt8} (hnew : new.length = 2) :
    EchoOf src dst n off type sums req (splice rep k new) := by
  have haddr := hapart.addresses
  have hsums := hapart.sums k hk
  have hreq := h.length
  have hrange : k + new.length ≤ rep.length := by omega
  constructor
  case length => rw [length_splice hrange, hreq]
  case source => rw [drop_take_splice hrange (by omega), h.source]
  case destination => rw [drop_take_splice hrange (by omega), h.destination]
  case type => rw [byte_splice hrange, if_neg (by omega), h.type]
  case rest =>
    intro i hi hi' hioff hisums
    have := hisums k hk
    rw [getElem?_splice hrange, if_neg (by omega), h.rest i hi hi' hioff hisums]

/-- The swap, the new type and the empty checksum behind it. -/
theorem echoOf_retyped (hapart : Apart src dst n off sums) (hk : off + 2 ∈ sums)
    (hdst : dst + n ≤ req.length) (hoff : off + 4 ≤ req.length) :
    EchoOf src dst n off type sums req (retyped (swapAddresses req src dst n) off type) := by
  have htyped : EchoOf src dst n off type sums req
      (splice (swapAddresses req src dst n) off [type]) :=
    echoOf_typed hapart hdst (by omega)
  exact echoOf_sum hapart htyped hk (by omega) rfl

/-- A swap moves words around, and their sum stays. -/
theorem total_swapAddresses (h : src + n ≤ dst) (hdst : dst + n ≤ req.length)
    (hsrc2 : src % 2 = 0) (hdst2 : dst % 2 = 0) (hn2 : n % 2 = 0) :
    total (swapAddresses req src dst n) = total req := by
  obtain ⟨hs, hd, hfirst⟩ := swap_fits (show src + n ≤ req.length by omega) hdst
  have hback : ((splice req src ((req.drop dst).take n)).drop dst).take
      ((req.drop src).take n).length = (req.drop dst).take n := by
    rw [hs, drop_take_splice (by omega) (by omega)]
  have hthere : total (splice req src ((req.drop dst).take n)) +
      total ((req.drop src).take ((req.drop dst).take n).length) =
        total req + total ((req.drop dst).take n) :=
    total_splice (by omega) hsrc2 (by omega)
  have hand : total (swapAddresses req src dst n) +
      total (((splice req src ((req.drop dst).take n)).drop dst).take
        ((req.drop src).take n).length) =
        total (splice req src ((req.drop dst).take n)) + total ((req.drop src).take n) :=
    total_splice (by omega) hdst2 (by omega)
  rw [hd] at hthere
  rw [hback] at hand
  omega

/-- The message of a packet with another type is the message with another type. -/
theorem drop_take_retyped {b : List UInt8} (hn : 4 ≤ n) (hoff : off + n ≤ b.length) :
    ((retyped b off type).drop off).take n = retyped ((b.drop off).take n) 0 type := by
  have hfirst : (splice b off [type]).length = b.length := length_splice (by simp; omega)
  unfold retyped
  rw [drop_take_splice_inside (by simp; omega) (by omega) (by simp; omega),
    drop_take_splice_inside (by simp; omega) (by omega) (by simp; omega), Nat.sub_self,
    Nat.add_sub_cancel_left]

/-- A message with another type has an empty checksum. -/
theorem retyped_sum {m : List UInt8} (h : 4 ≤ m.length) :
    ((retyped m 0 type).drop 2).take 2 = [0, 0] := by
  have htyped : (splice m 0 [type]).length = m.length := length_splice (by simp; omega)
  have hself : ((splice (splice m 0 [type]) (0 + 2) [0, 0]).drop (0 + 2)).take
      ([0, 0] : List UInt8).length = [0, 0] := drop_take_splice_self (by simp; omega)
  exact hself

theorem drop_retyped {m : List UInt8} {lo : Nat} (h : 4 ≤ m.length) (hlo : 4 ≤ lo) :
    (retyped m 0 type).drop lo = m.drop lo := by
  have htyped : (splice m 0 [type]).length = m.length := length_splice (by simp; omega)
  rw [retyped, drop_splice (by simp; omega) (by simp; omega),
    drop_splice (by simp; omega) (by simp; omega)]

/-- The sum of the front of a packet, stored in the front without being complemented. -/
theorem checksum_take_store {m : Nat} (hm : m ≤ req.length) (hk : k + 2 ≤ m) (hk2 : k % 2 = 0)
    (hempty : ((req.take m).drop k).take 2 = [0, 0]) :
    checksum ((splice req k (wordBytes (checksum (req.take m) 0))).take m) 0 = 0xffff ↔
      checksum (req.take m) 0 = 0xffff := by
  have hfront : (req.take m).length = m := by simp; omega
  rw [take_splice_inside (by rw [length_wordBytes]; omega) (by rw [length_wordBytes]; omega),
    checksum_store_sum (by omega) hk2 hempty]

end Writes

/-! ## IPv4 -/

section IPv4

variable {b : List UInt8} {n : Nat}

theorem apart4 {off : Nat} (h : 20 ≤ off) : Apart 12 16 4 off [10, off + 2] := by
  refine ⟨by omega, by omega, ?_⟩
  intro k hk
  simp only [List.mem_cons, List.not_mem_nil, or_false] at hk
  omega

/-- The reply before the checksum of its header. -/
theorem echoOf_messageReply4 (hoff : 20 ≤ headerLength b) (hn : 8 ≤ n)
    (hlen : headerLength b + n ≤ b.length) :
    EchoOf4 b (splice (messageReply4 b n) 10 [0, 0]) := by
  have hapart := apart4 hoff
  have hempty : EchoOf4 b (retyped (swapAddresses b 12 16 4) (headerLength b) 0) :=
    echoOf_retyped hapart (by simp) (by omega) (by omega)
  have hsum : EchoOf4 b (messageReply4 b n) :=
    echoOf_sum hapart hempty (by simp) (by omega) (length_wordBytes _)
  exact echoOf_sum hapart hsum (by simp) (by omega) rfl

/-- The reply, with the checksum of its header. -/
theorem echoReply4_eq (hlen : 20 ≤ b.length) (hoff : headerLength b + 4 ≤ b.length) :
    echoReply4 b n = some (splice (splice (messageReply4 b n) 10 [0, 0]) 10
      (wordBytes (checksum ((splice (messageReply4 b n) 10 [0, 0]).take (headerLength b)) 0))) := by
  have hfinal : (splice (messageReply4 b n) 10 [0, 0]).length = b.length := by
    have := length_messageReply4 hlen hoff n
    rw [length_splice (by simp; omega), this]
  unfold echoReply4
  dsimp only
  rw [headerLength_messageReply4 hlen hoff n, Slice.sliceTo,
    dif_pos (by rw [array_over, List.append_nil, hfinal]; omega), Option.map_some]
  simp only [Slice.data, array_over, List.append_nil]

/-- The sums that a reply has before they are stored: that of the header of the request
without its checksum, and that of its message with the new type and without its checksum. -/
structure Sums4 (req : List UInt8) : Prop where
  header : checksum (splice (req.take (headerLength req)) 10 [0, 0]) 0 = 0xffff
  message : checksum (retyped (message4 req) 0 0) 0 = 0xffff

/-- The header of the reply sums up to what that of the request does. -/
theorem total_header4 (hoff : 20 ≤ headerLength b) (hn : 8 ≤ n)
    (hlen : headerLength b + n ≤ b.length) :
    total ((splice (messageReply4 b n) 10 [0, 0]).take (headerLength b)) =
      total (splice (b.take (headerLength b)) 10 [0, 0]) := by
  obtain ⟨hswap, htyped, hretyped⟩ := lengths_reply4 (show 20 ≤ b.length by omega) (by omega)
  have hreply := length_messageReply4 (b := b) (by omega) (by omega) n
  have hfront : (b.take (headerLength b)).length = headerLength b := by simp; omega
  -- the writes into the message leave the header
  have hheader : (messageReply4 b n).take (headerLength b) =
      swapAddresses (b.take (headerLength b)) 12 16 4 := by
    unfold messageReply4
    rw [take_splice (by simp; omega) (by omega), retyped, take_splice (by simp; omega) (by omega),
      take_splice (by simp; omega) (by omega), take_swapAddresses (by omega) hoff (by omega)]
  rw [take_splice_inside (by simp; omega) (by simp; omega), hheader]
  generalize b.take (headerLength b) = header at hfront
  have hlength : (swapAddresses header 12 16 4).length = header.length :=
    length_swapAddresses (by omega) (by omega)
  have hold : total (splice header 10 [0, 0]) + total ((header.drop 10).take 2) =
      total header + total [0, 0] := total_splice (by simp; omega) rfl rfl
  have hnew : total (splice (swapAddresses header 12 16 4) 10 [0, 0]) +
      total (((swapAddresses header 12 16 4).drop 10).take 2) =
        total (swapAddresses header 12 16 4) + total [0, 0] :=
    total_splice (by simp; omega) rfl rfl
  rw [drop_take_swapAddresses (by omega) (by omega) (by omega),
    total_swapAddresses (by omega) (by omega) rfl rfl rfl] at hnew
  omega

/-- The message of the reply. -/
theorem message4_messageReply4 (hoff : 20 ≤ headerLength b) (hn : 8 ≤ n)
    (hlen : headerLength b + n ≤ b.length) :
    ((messageReply4 b n).drop (headerLength b)).take n =
      splice (retyped ((b.drop (headerLength b)).take n) 0 0) 2
        (wordBytes (checksum (retyped ((b.drop (headerLength b)).take n) 0 0) 0)) := by
  obtain ⟨hswap, -, hretyped⟩ := lengths_reply4 (show 20 ≤ b.length by omega) (by omega)
  unfold messageReply4
  rw [drop_take_splice_inside (by simp; omega) (by omega) (by simp; omega),
    drop_take_retyped (by omega) (by omega),
    drop_take_swapAddresses (by omega) (by omega) (by omega), Nat.add_sub_cancel_left]

/-- The bytes in front of the checksum of the header are those of the request. -/
theorem EchoOf.byte_eq {src dst n off : Nat} {type : UInt8} {sums : List Nat} {req rep : List UInt8}
    (h : EchoOf src dst n off type sums req rep) {i : Nat} (hsrc : i < src) (hdst : i < dst)
    (hoff : i ≠ off) (hsums : ∀ k ∈ sums, i ≠ k ∧ i ≠ k + 1) : byte rep i = byte req i := by
  rw [byte, byte, List.getD_eq_getElem?_getD, List.getD_eq_getElem?_getD,
    h.rest i (by omega) (by omega) hoff hsums]

theorem headerLength_echo {req rep : List UInt8} (hoff : 20 ≤ headerLength req)
    (h : EchoOf4 req rep) : headerLength rep = headerLength req := by
  rw [headerLength, h.byte_eq (by omega) (by omega) (by omega) (by simp), headerLength]

theorem totalLength_echo {req rep : List UInt8} (hoff : 20 ≤ headerLength req)
    (h : EchoOf4 req rep) : totalLength rep = totalLength req := by
  rw [totalLength, h.byte_eq (by omega) (by omega) (by omega) (by simp; omega),
    h.byte_eq (by omega) (by omega) (by omega) (by simp; omega), totalLength]

/-- The reply to an IPv4 request is a packet of the right form. Its sums are those that it
had before they were stored. -/
theorem reply4 (hreq : Request4 b) :
    ∃ rep, echoReply4 b (totalLength b - headerLength b) = some rep ∧ EchoOf4 b rep ∧
      (checksum (rep.take (headerLength rep)) 0 = 0xffff ↔
        checksum (splice (b.take (headerLength b)) 10 [0, 0]) 0 = 0xffff) ∧
      (checksum (message4 rep) 0 = 0xffff ↔ checksum (retyped (message4 b) 0 0) 0 = 0xffff) := by
  have hoff := hreq.header
  have hmessage := hreq.message
  have hcomplete := hreq.complete
  have hlen : headerLength b + (totalLength b - headerLength b) ≤ b.length := by omega
  have hn : 8 ≤ totalLength b - headerLength b := by omega
  have hecho := echoOf_messageReply4 hoff hn hlen
  have hheader := total_header4 hoff hn hlen
  have hmsg := message4_messageReply4 hoff hn hlen
  have hwritten := length_messageReply4 (show 20 ≤ b.length by omega) (by omega)
    (totalLength b - headerLength b)
  have hlength := hecho.length
  have hsome := echoReply4_eq (n := totalLength b - headerLength b) (show 20 ≤ b.length by omega)
    (by omega)
  have hrep := fun sum => echoOf_sum (apart4 hoff) hecho (by simp) (show 10 + 2 ≤ b.length by omega)
    (length_wordBytes sum)
  refine ⟨_, hsome, hrep _, ?_, ?_⟩
  · have hempty : (((splice (messageReply4 b (totalLength b - headerLength b)) 10 [0, 0]).take
        (headerLength b)).drop 10).take 2 = [0, 0] := by
      have hself : ((splice ((messageReply4 b (totalLength b - headerLength b)).take
          (headerLength b)) 10 [0, 0]).drop 10).take ([0, 0] : List UInt8).length = [0, 0] :=
        drop_take_splice_self (by simp; omega)
      rw [take_splice_inside (by simp; omega) (by simp; omega)]
      exact hself
    rw [headerLength_echo hoff (hrep _), checksum_take_store (by omega) (by omega) rfl hempty,
      checksum_eq_ones_iff, checksum_eq_ones_iff, hheader]
  · have hempty : ((retyped (message4 b) 0 0).drop 2).take 2 = [0, 0] :=
      retyped_sum (by simp [message4]; omega)
    have hmessage4 : (retyped (message4 b) 0 0).length = totalLength b - headerLength b := by
      rw [length_retyped (by simp [message4]; omega), message4, List.length_take, List.length_drop]
      omega
    rw [message4, headerLength_echo hoff (hrep _), totalLength_echo hoff (hrep _),
      drop_take_splice (by simp; omega) (by simp; omega),
      drop_take_splice (by simp; omega) (by simp; omega), hmsg, ← message4,
      checksum_store_sum (by omega) rfl hempty]

end IPv4

/-! ## IPv6 -/

section IPv6

variable {b : List UInt8}

/-- The sum that a reply to an IPv6 request has needs: its payload, which is complemented
twice, is as good as nothing. -/
def Sum6 (req : List UInt8) : Prop :=
  checksum ((message6 req).drop 8) 0 = 0 ∨ checksum ((message6 req).drop 8) 0 = 0xffff

theorem apart6 : Apart 8 24 16 40 [42] := by
  refine ⟨by omega, by omega, ?_⟩
  intro k hk
  simp only [List.mem_singleton] at hk
  omega

theorem pseudoHeaderChecksum_mod (src dst : IP) {len : Nat} (hlen : len < 65536) :
    (pseudoHeaderChecksum src dst len).toNat % 65535 =
      (total src + total dst + len + 58) % 65535 := by
  have hword : total (wordBytes (UInt16.ofNat len)) = len := by
    rw [total_wordBytes, UInt16.toNat_ofNat']
    omega
  have hnext : total [0, 58] = 58 := rfl
  have hsrc := checksum_mod src 0
  have hdst := checksum_mod dst (checksum src 0)
  have hlength := checksum_mod (wordBytes (UInt16.ofNat len)) (checksum dst (checksum src 0))
  rw [hword] at hlength
  rw [UInt16.toNat_zero] at hsrc
  rw [pseudoHeaderChecksum, checksum_mod, hnext]
  omega

/-- The plain sum of what `icmpv6Checksum` complements. -/
theorem icmpv6Checksum_mod (header src dst : List UInt8) (payloadCsum : UInt16) {payloadLen : Nat}
    (hlen : header.length + payloadLen < 65536) :
    ∃ xsum : UInt16, icmpv6Checksum header src dst payloadCsum payloadLen = complement xsum ∧
      xsum.toNat % 65535 = (total src + total dst + (header.length + payloadLen) + 58 +
        payloadCsum.toNat + total (header.take 2) + total (header.drop 4)) % 65535 := by
  refine ⟨_, rfl, ?_⟩
  have hpseudo := pseudoHeaderChecksum_mod src dst hlen
  have hpayload := add_mod (pseudoHeaderChecksum src dst (header.length + payloadLen)) payloadCsum
  have hfront := checksum_mod (header.take 2)
    (add (pseudoHeaderChecksum src dst (header.length + payloadLen)) payloadCsum)
  rw [checksum_mod]
  omega

/-- What is complemented once too often counts twice. -/
theorem twice_complemented {rest payload sum xsum : Nat} (hsum : sum ≤ 65535) (hxsum : xsum ≤ 65535)
    (h : xsum % 65535 = (rest + (65535 - sum)) % 65535) :
    (rest + payload + (65535 - xsum)) % 65535 = (payload + sum) % 65535 := by
  obtain ⟨q, hq⟩ : ∃ q, sum + q = 65535 := ⟨65535 - sum, by omega⟩
  obtain ⟨y, hy⟩ : ∃ y, xsum + y = 65535 := ⟨65535 - xsum, by omega⟩
  rw [show 65535 - sum = q by omega] at h
  rw [show 65535 - xsum = y by omega]
  omega

/-- The sum of a message with its payload in one part. -/
theorem total_message {m : List UInt8} (h : 8 ≤ m.length) (hempty : (m.drop 2).take 2 = [0, 0]) :
    total m = total ((m.take 8).take 2) + total ((m.take 8).drop 4) + total (m.drop 8) := by
  have hfront : m.take 2 ++ ((m.drop 2).take 2 ++ ((m.drop 4).take 4 ++ m.drop 8)) = m := by
    rw [show m.drop 8 = (m.drop 4).drop 4 by simp, List.take_append_drop,
      show m.drop 4 = (m.drop 2).drop 2 by simp, List.take_append_drop, List.take_append_drop]
  have htotal := congrArg total hfront
  rw [total_append (by simp; omega), total_append (by simp; omega), total_append (by simp; omega),
    hempty] at htotal
  rw [List.take_take, List.drop_take, ← htotal]
  simp [total]
  omega

/-- The message of the reply, with its pseudo-header. -/
theorem total_reply6 {m : List UInt8} (src dst : IP) (hm : 8 ≤ m.length) (hlong : m.length < 65536)
    (hempty : (m.drop 2).take 2 = [0, 0]) :
    (total src + total dst + m.length + 58 + total (splice m 2 (wordBytes (icmpv6Checksum
        (m.take 8) src dst (complement (checksum (m.drop 8) 0)) (m.drop 8).length)))) % 65535 = 0 ↔
      checksum (m.drop 8) 0 = 0 ∨ checksum (m.drop 8) 0 = 0xffff := by
  have hparts : (m.take 8).length + (m.drop 8).length = m.length := by simp; omega
  obtain ⟨xsum, hxsum, hmod⟩ := icmpv6Checksum_mod (m.take 8) src dst
    (complement (checksum (m.drop 8) 0)) (by omega : _ + (m.drop 8).length < 65536)
  have hstore : total (splice m 2 (wordBytes (complement xsum))) + total ((m.drop 2).take 2) =
      total m + total (wordBytes (complement xsum)) :=
    total_splice (by rw [length_wordBytes]; omega) rfl (by simp)
  have htotal := total_message hm hempty
  have hpayload := checksum_mod (m.drop 8) 0
  have hsumlt := (checksum (m.drop 8) 0).toNat_lt
  have hxsumlt := xsum.toNat_lt
  rw [hempty, total_wordBytes, toNat_complement] at hstore
  rw [toNat_complement, hparts] at hmod
  rw [UInt16.toNat_zero, Nat.zero_add] at hpayload
  rw [checksum_zero_or_ones_iff, UInt16.toNat_zero, Nat.zero_add, hxsum,
    ← double_mod hpayload.symm]
  generalize (checksum (m.drop 8) 0).toNat = sum at hmod hpayload hsumlt ⊢
  have hrest : xsum.toNat % 65535 = (total src + total dst + m.length + 58 +
      total ((m.take 8).take 2) + total ((m.take 8).drop 4) + (65535 - sum)) % 65535 := by
    rw [hmod]
    congr 1
    omega
  have hzero : total [0, 0] = 0 := rfl
  rw [← twice_complemented (by omega) (by omega) hrest,
    show total (splice m 2 (wordBytes (complement xsum))) = total m + (65535 - xsum.toNat) by omega,
    htotal]
  simp only [Nat.add_assoc]

theorem payloadLength6_echo {req rep : List UInt8} (h : EchoOf6 req rep) :
    payloadLength6 rep = payloadLength6 req := by
  rw [payloadLength6, h.byte_eq (by omega) (by omega) (by omega) (by simp),
    h.byte_eq (by omega) (by omega) (by omega) (by simp), payloadLength6]

theorem total_pseudoHeader6 {p : List UInt8} (h : 40 ≤ p.length) (message : List UInt8) :
    total (pseudoHeader6 p ++ message) = total ((p.drop 8).take 16) + total ((p.drop 24).take 16) +
      payloadLength6 p + 58 + total message := by
  have hlong : payloadLength6 p < 65536 := UInt16.toNat_lt _
  have hword : total (wordBytes (UInt16.ofNat (payloadLength6 p))) = payloadLength6 p := by
    rw [total_wordBytes, UInt16.toNat_ofNat']
    omega
  unfold pseudoHeader6
  rw [total_append (by simp; omega), total_append (by simp; omega), total_append (by simp; omega),
    total_append (by simp), total_append (by simp), hword]
  simp [total]
  omega

/-- The reply before its checksum. -/
def unsummed6 (b : List UInt8) : List UInt8 := retyped (swapAddresses b 8 24 16) 40 129

theorem echoOf_unsummed6 (hlen : 44 ≤ b.length) : EchoOf6 b (unsummed6 b) :=
  echoOf_retyped apart6 (by simp) (by omega) hlen

/-- The message of the reply before its checksum. -/
theorem message_unsummed6 (hreq : Request6 b) :
    ((unsummed6 b).drop 40).take (payloadLength6 b) = retyped (message6 b) 0 129 := by
  have hmessage := hreq.message
  have hcomplete := hreq.complete
  have hswap : (swapAddresses b 8 24 16).length = b.length :=
    length_swapAddresses (by omega) (by omega)
  rw [unsummed6, drop_take_retyped (by omega) (by omega),
    drop_take_swapAddresses (by omega) (by omega) (by omega), message6]

/-- The checksum goes into the message and leaves the addresses. -/
theorem total_summed6 (hreq : Request6 b) (sum : UInt16) :
    total (pseudoHeader6 (splice (unsummed6 b) 42 (wordBytes sum)) ++
        message6 (splice (unsummed6 b) 42 (wordBytes sum))) =
      total (((unsummed6 b).drop 8).take 16) + total (((unsummed6 b).drop 24).take 16) +
        payloadLength6 b + 58 + total (splice (retyped (message6 b) 0 129) 2 (wordBytes sum)) := by
  have hmessage := hreq.message
  have hcomplete := hreq.complete
  have hempty := echoOf_unsummed6 (show 44 ≤ b.length by omega)
  have hlength := hempty.length
  have hrep : EchoOf6 b (splice (unsummed6 b) 42 (wordBytes sum)) :=
    echoOf_sum apart6 hempty (by simp) (by omega) (length_wordBytes sum)
  have hrange : 42 + (wordBytes sum).length ≤ (unsummed6 b).length := by
    rw [length_wordBytes]
    omega
  rw [total_pseudoHeader6 (by rw [hrep.length]; omega), message6, payloadLength6_echo hrep,
    drop_take_splice hrange (by omega), drop_take_splice hrange (by omega),
    drop_take_splice_inside hrange (by omega) (by rw [length_wordBytes]; omega),
    message_unsummed6 hreq]

/-- The reply to an IPv6 request is a packet of the right form. Its sum is right when the
payload is as good as nothing. -/
theorem reply6 (hreq : Request6 b) :
    EchoOf6 b (echoReply6 b (payloadLength6 b)) ∧
      (checksum (pseudoHeader6 (echoReply6 b (payloadLength6 b)) ++
        message6 (echoReply6 b (payloadLength6 b))) 0 = 0xffff ↔ Sum6 b) := by
  have hmessage := hreq.message
  have hcomplete := hreq.complete
  have hlong : payloadLength6 b < 65536 := UInt16.toNat_lt _
  have hrep : EchoOf6 b (echoReply6 b (payloadLength6 b)) :=
    echoOf_sum apart6 (echoOf_unsummed6 (by omega)) (by simp) (by omega) (length_wordBytes _)
  refine ⟨hrep, ?_⟩
  have hm : (message6 b).length = payloadLength6 b := by simp [message6]; omega
  have hlength : (retyped (message6 b) 0 129).length = payloadLength6 b := by
    rw [length_retyped (by omega), hm]
  have hpayload : (retyped (message6 b) 0 129).drop 8 = (message6 b).drop 8 :=
    drop_retyped (by omega) (by omega)
  have hsum := total_reply6 (((unsummed6 b).drop 8).take 16) (((unsummed6 b).drop 24).take 16)
    (by omega : 8 ≤ (retyped (message6 b) 0 129).length) (by omega) (retyped_sum (by omega))
  have hreply : echoReply6 b (payloadLength6 b) = splice (unsummed6 b) 42 (wordBytes
      (icmpv6Checksum ((retyped (message6 b) 0 129).take 8) (((unsummed6 b).drop 8).take 16)
        (((unsummed6 b).drop 24).take 16)
        (complement (checksum ((retyped (message6 b) 0 129).drop 8) 0))
        ((retyped (message6 b) 0 129).drop 8).length)) := by
    rw [← message_unsummed6 hreq]
    rfl
  rw [hlength] at hsum
  rw [hreply, checksum_eq_ones_iff, total_summed6 hreq, UInt16.toNat_zero, Nat.zero_add, hsum,
    hpayload]
  unfold Sum6
  constructor
  · exact fun h => h.1
  · intro h
    exact ⟨h, by omega⟩

end IPv6

/-! ## The responder -/

/-- A valid echo request of either family. -/
def Request (b : List UInt8) : Prop := Request4 b ∨ Request6 b

/-- A correct reply to it. -/
def CorrectReply (req rep : List UInt8) : Prop :=
  if version req = 4 then Correct4 req rep else Correct6 req rep

/-- The sums with which the stored checksums are right. -/
def SumsAllow (req : List UInt8) : Prop := if version req = 4 then Sums4 req else Sum6 req

/-- What the responder does with a request to IPv4: the array behind the packet is not read. -/
theorem processICMP_request4 {s : Slice UInt8} (h : Request4 s.data) :
    processICMP s = (echoReply4 s.data (totalLength s.data - headerLength s.data)).map
      (fun reply => (some reply, 4, true)) := by
  have hheader := h.header
  have hmessage := h.message
  have hcomplete := h.complete
  have hlen := length_data s
  have harray := s.len_le
  have hversion : version s.array = 4 := by
    rw [← h.version, version, version, byte_data (by omega)]
  have hproto : byte s.array 9 = 1 := by rw [← byte_data (by omega), h.protocol]
  have hecho : byte s.array (headerLength s.data) = 8 := by
    rw [← byte_data (by omega), h.echo]
  have htotal : totalLength s.data < 65536 := UInt16.toNat_lt _
  have hpayload : payloadLength4 s.data = totalLength s.data - headerLength s.data := by
    unfold payloadLength4
    omega
  unfold processICMP
  rw [if_neg (by omega)]
  simp only [hversion, if_true]
  rw [handleICMPv4_eq (by omega) hproto, ← headerLength_data (by omega),
    ← payloadLength4_data (by omega), hpayload, if_pos ⟨by omega, by omega⟩,
    if_pos ⟨by omega, hecho⟩, if_pos (by omega)]
  cases echoReply4 s.data (totalLength s.data - headerLength s.data) <;> rfl

theorem processICMP_request6 {s : Slice UInt8} (h : Request6 s.data) :
    processICMP s = some (some (echoReply6 s.data (payloadLength6 s.data)), 6, true) := by
  have hmessage := h.message
  have hcomplete := h.complete
  have hlen := length_data s
  have harray := s.len_le
  have hversion : version s.array = 6 := by
    rw [← h.version, version, version, byte_data (by omega)]
  have hnext : byte s.array 6 = 58 := by rw [← byte_data (by omega), h.nextHeader]
  have hecho : byte s.array 40 = 128 := by rw [← byte_data (by omega), h.echo]
  unfold processICMP
  rw [if_neg (by omega)]
  simp only [hversion]
  rw [if_neg (by decide), if_pos trivial, handleICMPv6_eq (by omega) hnext,
    ← payloadLength6_data (by omega), if_pos (by omega), if_pos ⟨by omega, hecho⟩,
    if_pos (by omega), Option.map_some, Option.isSome_some]

/-- The responder answers every valid echo request with the packet of the right form. The
checksums of the answer are right exactly when the sums that it stores are all ones, in IPv4,
or when the payload sums up to zero, in IPv6. -/
theorem echo_reply_is_correct_iff (s : Slice UInt8) (h : Request s.data) :
    (∃ reply, processICMP s = some (some reply, version s.data, true) ∧
      CorrectReply s.data reply) ↔ SumsAllow s.data := by
  unfold CorrectReply SumsAllow
  rcases h with h | h
  · obtain ⟨rep, hrep, hecho, hheader, hmessage⟩ := reply4 h
    have hprocess := processICMP_request4 h
    rw [hrep, Option.map_some] at hprocess
    simp only [h.version, if_true, hprocess, Option.some.injEq, Prod.mk.injEq, and_true,
      exists_eq_left']
    constructor
    · intro hcorrect
      exact ⟨hheader.mp hcorrect.headerSum, hmessage.mp hcorrect.messageSum⟩
    · intro hsums
      exact ⟨hecho, hheader.mpr hsums.header, hmessage.mpr hsums.message⟩
  · obtain ⟨hecho, hsum⟩ := reply6 h
    have hsix : ¬ (6 = 4) := by decide
    simp only [h.version, hsix, if_false, processICMP_request6 h, Option.some.injEq,
      Prod.mk.injEq, and_true, exists_eq_left']
    constructor
    · intro hcorrect
      exact hsum.mp hcorrect.messageSum
    · intro hsum6
      exact ⟨hecho, hsum.mpr hsum6⟩

/-- A ping from fd00::1 to fd00::2 without a payload. -/
def ping6 : List UInt8 :=
  [0x60, 0, 0, 0, 0, 8, 58, 64, 0xfd, 0, 0, 0, 0, 0, 0, 0, 0, 0, 0, 0, 0, 0, 0, 1, 0xfd, 0, 0, 0, 0,
    0, 0, 0, 0, 0, 0, 0, 0, 0, 0, 2, 0x80, 0, 0x73, 0x83, 0x12, 0x34, 0, 1]

theorem request6_ping6 : Request6 ping6 :=
  ⟨by decide, by decide, by decide, by decide, by decide, by decide⟩

theorem empty_ping6_is_answered :
    Request (Slice.over ping6 []).data ∧
      ∃ reply, processICMP (Slice.over ping6 []) = some (some reply, 6, true) ∧
        CorrectReply (Slice.over ping6 []).data reply := by
  have hreq : Request (Slice.over ping6 []).data := by
    rw [data_over]
    exact Or.inr request6_ping6
  refine ⟨hreq, ?_⟩
  apply (echo_reply_is_correct_iff (Slice.over ping6 []) hreq).mpr
  rw [data_over]
  exact Or.inl (by decide)

/-- A ping from 10.0.0.1 to 10.0.0.2. -/
def ping4 : List UInt8 :=
  [0x45, 0, 0, 28, 0, 1, 0, 0, 64, 1, 0x66, 0xde, 10, 0, 0, 1, 10, 0, 0, 2, 8, 0, 0xe5, 0xca, 0x12,
    0x34, 0, 1]

theorem request4_ping4 : Request4 ping4 :=
  ⟨by decide, by decide, by decide, by decide, by decide, by decide, by decide, by decide⟩

/-- The reply to it has the sum of the header in the header, and that of the message in the
message. -/
theorem ping4_is_answered_wrongly :
    Request4 ping4 ∧ ¬ ∃ reply, processICMP (Slice.over ping4 []) = some (some reply, 4, true) ∧
      CorrectReply ping4 reply := by
  refine ⟨request4_ping4, ?_⟩
  rintro ⟨reply, hreply, hcorrect⟩
  have hrun : processICMP (Slice.over ping4 []) = some (some ([0x45, 0, 0, 28, 0, 1, 0, 0, 64, 1,
      0x99, 0x21, 10, 0, 0, 2, 10, 0, 0, 1, 0, 0, 0x12, 0x35, 0x12, 0x34, 0, 1]), 4, true) := by
    decide
  rw [hrun] at hreply
  simp only [Option.some.injEq, Prod.mk.injEq, and_true] at hreply
  subst hreply
  rw [CorrectReply, if_pos (by decide)] at hcorrect
  exact absurd hcorrect.headerSum (by decide)

end vproxy.icmp
