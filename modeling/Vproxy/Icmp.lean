-- The responder for ICMP echo requests on the TUN device (icmp.go). It takes the payload
-- of the packet by the lengths that the packet states, copies the packet, and turns the
-- copy into a reply. What panics there gives nothing here.
import Vproxy.NetAddr
import Vproxy.OnesComplement
import Vproxy.Slices

open go go.net ones slices

namespace vproxy.icmp

/-! ## Headers -/

/-- `IPv4.HeaderLength`. -/
def headerLength (b : List UInt8) : Nat := (byte b 0).toNat % 16 * 4

/-- `IPv4.TotalLength`. -/
def totalLength (b : List UInt8) : Nat := (word (byte b 2) (byte b 3)).toNat

/-- `IPv4.PayloadLength`, in sixteen bits. -/
def payloadLength4 (b : List UInt8) : Nat := (totalLength b + 65536 - headerLength b) % 65536

/-- `IPv4.Payload`. -/
def payload4 (s : Slice UInt8) : Option (Slice UInt8) :=
  (s.sliceFrom (headerLength s.array)).bind (·.sliceTo (payloadLength4 s.array))

/-- `IPv6.PayloadLength`. -/
def payloadLength6 (b : List UInt8) : Nat := (word (byte b 4) (byte b 5)).toNat

/-- `IPv6.Payload`. -/
def payload6 (s : Slice UInt8) : Option (Slice UInt8) :=
  (s.sliceFrom 40).bind (·.sliceTo (payloadLength6 s.array))

/-- The writes of the source and the destination address, of `n` bytes each. -/
def swapAddresses (b : List UInt8) (src dst n : Nat) : List UInt8 :=
  splice (splice b src ((b.drop dst).take n)) dst ((b.drop src).take n)

/-! ## Replies -/

/-- The message at an offset with another type, and with no checksum yet. -/
def retyped (b : List UInt8) (off : Nat) (type : UInt8) : List UInt8 :=
  splice (splice b off [type]) (off + 2) [0, 0]

/-- `handleICMPv4` from the swap to the checksum of the message, which is the `n` bytes
behind the header. -/
def messageReply4 (replyBuf : List UInt8) (n : Nat) : List UInt8 :=
  let off := headerLength replyBuf
  let b := retyped (swapAddresses replyBuf 12 16 4) off 0
  splice b (off + 2) (wordBytes (checksum ((b.drop off).take n) 0))

/-- `handleICMPv4` from the swap on. `CalculateChecksum` slices the header by its length
again. -/
def echoReply4 (replyBuf : List UInt8) (n : Nat) : Option (List UInt8) :=
  let b := splice (messageReply4 replyBuf n) 10 [0, 0]
  ((Slice.over b []).sliceTo (headerLength b)).map (fun header =>
    splice b 10 (wordBytes (checksum header.data 0)))

def handleICMPv4 (buf : Slice UInt8) : Option (Option (List UInt8)) :=
  if buf.len < 20 then some none
  else if byte buf.array 9 ≠ 1 then some none
  else do
    let icmpBuf ← payload4 buf
    if icmpBuf.len < 8 then some none
    else if byte icmpBuf.array 0 ≠ 8 then some none
    else do
      let replyICMPHdr ← payload4 (Slice.over buf.data [])
      let reply ← echoReply4 buf.data replyICMPHdr.len
      some (some reply)

/-- `header.PseudoHeaderChecksum` for ICMPv6. -/
def pseudoHeaderChecksum (src dst : IP) (len : Nat) : UInt16 :=
  checksum [0, 58] (checksum (wordBytes (UInt16.ofNat len)) (checksum dst (checksum src 0)))

/-- `header.ICMPv6Checksum`: the checksum of the header itself is left out. -/
def icmpv6Checksum (header : List UInt8) (src dst : IP) (payloadCsum : UInt16) (payloadLen : Nat) :
    UInt16 :=
  let xsum := pseudoHeaderChecksum src dst (header.length + payloadLen)
  let xsum := add xsum payloadCsum
  let xsum := checksum (header.take 2) xsum
  let xsum := checksum (header.drop 4) xsum
  complement xsum

/-- `handleICMPv6` from the swap on. -/
def echoReply6 (replyBuf : List UInt8) (n : Nat) : List UInt8 :=
  let b := retyped (swapAddresses replyBuf 8 24 16) 40 129
  let message := (b.drop 40).take n
  let payload := message.drop 8
  splice b 42 (wordBytes (icmpv6Checksum (message.take 8) ((b.drop 8).take 16) ((b.drop 24).take 16)
    (complement (checksum payload 0)) payload.length))

def handleICMPv6 (buf : Slice UInt8) : Option (Option (List UInt8)) :=
  if buf.len < 40 then some none
  else if byte buf.array 6 ≠ 58 then some none
  else do
    let icmpBuf ← payload6 buf
    if icmpBuf.len < 8 then some none
    else if byte icmpBuf.array 0 ≠ 128 then some none
    else do
      let replyICMPHdr ← payload6 (Slice.over buf.data [])
      some (some (echoReply6 buf.data replyICMPHdr.len))

/-- The version that a packet states. -/
def version (b : List UInt8) : Nat := (byte b 0).toNat / 16

/-- `ProcessICMP`: the reply, the version, and whether there is a reply. -/
def processICMP (pktBuf : Slice UInt8) : Option (Option (List UInt8) × Nat × Bool) :=
  if pktBuf.len < 1 then some (none, 0, false)
  else
    let v := version pktBuf.array
    let reply :=
      if v = 4 then handleICMPv4 pktBuf
      else if v = 6 then handleICMPv6 pktBuf
      else some none
    reply.map (fun reply => (reply, v, reply.isSome))

/-! ## Slices that are in range -/

/-- The payload of an IPv4 packet and of its copy, which ends with the packet, are in
range. The copy is made of echo requests only. -/
def InRange4 (s : Slice UInt8) : Prop :=
  20 ≤ s.len → byte s.array 9 = 1 →
    headerLength s.array ≤ s.len ∧
    headerLength s.array + payloadLength4 s.array ≤ s.array.length ∧
    (8 ≤ payloadLength4 s.array → byte s.array (headerLength s.array) = 8 →
      headerLength s.array + payloadLength4 s.array ≤ s.len)

def InRange6 (s : Slice UInt8) : Prop :=
  40 ≤ s.len → byte s.array 6 = 58 →
    40 + payloadLength6 s.array ≤ s.array.length ∧
    (8 ≤ payloadLength6 s.array → byte s.array 40 = 128 →
      40 + payloadLength6 s.array ≤ s.len)

def InRange (s : Slice UInt8) : Prop :=
  (version s.array = 4 → InRange4 s) ∧ (version s.array = 6 → InRange6 s)

/-- A byte in front of the length is that of the copy. -/
theorem byte_data {s : Slice UInt8} {i : Nat} (h : i < s.len) : byte s.data i = byte s.array i := by
  simp [byte, Slice.data, h]

theorem headerLength_data {s : Slice UInt8} (h : 20 ≤ s.len) :
    headerLength s.data = headerLength s.array := by
  simp only [headerLength, byte_data (show 0 < s.len by omega)]

theorem payloadLength4_data {s : Slice UInt8} (h : 20 ≤ s.len) :
    payloadLength4 s.data = payloadLength4 s.array := by
  simp only [payloadLength4, totalLength, headerLength_data h, byte_data (show 2 < s.len by omega),
    byte_data (show 3 < s.len by omega)]

theorem payloadLength6_data {s : Slice UInt8} (h : 40 ≤ s.len) :
    payloadLength6 s.data = payloadLength6 s.array := by
  simp only [payloadLength6, byte_data (show 4 < s.len by omega),
    byte_data (show 5 < s.len by omega)]

/-- The addresses that a swap writes fill the places where they go. -/
theorem swap_fits {b : List UInt8} {src dst n : Nat} (hsrc : src + n ≤ b.length)
    (hdst : dst + n ≤ b.length) :
    ((b.drop src).take n).length = n ∧ ((b.drop dst).take n).length = n ∧
      (splice b src ((b.drop dst).take n)).length = b.length := by
  have hs : ((b.drop src).take n).length = n := by simp; omega
  have hd : ((b.drop dst).take n).length = n := by simp; omega
  exact ⟨hs, hd, length_splice (by omega)⟩

theorem length_swapAddresses {b : List UInt8} {src dst n : Nat} (hsrc : src + n ≤ b.length)
    (hdst : dst + n ≤ b.length) : (swapAddresses b src dst n).length = b.length := by
  obtain ⟨hs, hd, hfirst⟩ := swap_fits hsrc hdst
  unfold swapAddresses
  rw [length_splice (by omega), hfirst]

theorem length_retyped {b : List UInt8} {off : Nat} (h : off + 4 ≤ b.length) (type : UInt8) :
    (retyped b off type).length = b.length := by
  have hfirst : (splice b off [type]).length = b.length := length_splice (by simp; omega)
  unfold retyped
  rw [length_splice (by simp; omega), hfirst]

theorem byte_splice {b new : List UInt8} {i : Nat} (h : i + new.length ≤ b.length) (j : Nat) :
    byte (splice b i new) j =
      if i ≤ j ∧ j < i + new.length then byte new (j - i) else byte b j := by
  rw [byte, List.getD_eq_getElem?_getD, getElem?_splice h]
  split <;> rw [byte, List.getD_eq_getElem?_getD]

theorem byte_swapAddresses {b : List UInt8} {src dst n j : Nat} (hsrc : src + n ≤ b.length)
    (hdst : dst + n ≤ b.length) (hj : j < src ∧ j < dst) :
    byte (swapAddresses b src dst n) j = byte b j := by
  obtain ⟨hs, hd, hfirst⟩ := swap_fits hsrc hdst
  unfold swapAddresses
  rw [byte_splice (by omega), if_neg (by omega), byte_splice (by omega), if_neg (by omega)]

/-- The writes in front of the first checksum keep the length. -/
theorem lengths_reply4 {b : List UInt8} (hlen : 20 ≤ b.length)
    (hoff : headerLength b + 4 ≤ b.length) :
    (swapAddresses b 12 16 4).length = b.length ∧
      (splice (swapAddresses b 12 16 4) (headerLength b) [0]).length = b.length ∧
      (retyped (swapAddresses b 12 16 4) (headerLength b) 0).length = b.length := by
  have hswap : (swapAddresses b 12 16 4).length = b.length :=
    length_swapAddresses (by omega) (by omega)
  refine ⟨hswap, ?_, ?_⟩
  · rw [length_splice (by simp; omega), hswap]
  · rw [length_retyped (by omega), hswap]

theorem length_messageReply4 {b : List UInt8} (hlen : 20 ≤ b.length)
    (hoff : headerLength b + 4 ≤ b.length) (n : Nat) : (messageReply4 b n).length = b.length := by
  obtain ⟨-, -, hretyped⟩ := lengths_reply4 hlen hoff
  unfold messageReply4
  rw [length_splice (by simp; omega), hretyped]

/-- The header is as long after the writes. Where the message begins with the packet, both
lengths are zero. -/
theorem headerLength_messageReply4 {b : List UInt8} (hlen : 20 ≤ b.length)
    (hoff : headerLength b + 4 ≤ b.length) (n : Nat) :
    headerLength (splice (messageReply4 b n) 10 [0, 0]) = headerLength b := by
  obtain ⟨hswap, htyped, hretyped⟩ := lengths_reply4 hlen hoff
  have hmessage := length_messageReply4 hlen hoff n
  have hbyte : byte (splice (messageReply4 b n) 10 [0, 0]) 0 =
      if headerLength b = 0 then 0 else byte b 0 := by
    rw [byte_splice (by simp; omega), if_neg (by omega), messageReply4,
      byte_splice (by simp; omega), if_neg (by omega), retyped,
      byte_splice (by simp; omega), if_neg (by omega), byte_splice (by simp; omega),
      byte_swapAddresses (by omega) (by omega) (by omega)]
    by_cases hzero : headerLength b = 0
    · rw [if_pos (by simp; omega), if_pos hzero, hzero]
      rfl
    · rw [if_neg (by omega), if_neg hzero]
  rw [headerLength, hbyte]
  split
  · rename_i hzero
    rw [hzero]
    rfl
  · rfl

theorem isSome_echoReply4 {b : List UInt8} (hlen : 20 ≤ b.length)
    (hoff : headerLength b + 4 ≤ b.length) (n : Nat) : (echoReply4 b n).isSome := by
  have hfinal : (splice (messageReply4 b n) 10 [0, 0]).length = b.length := by
    have := length_messageReply4 hlen hoff n
    rw [length_splice (by simp; omega), this]
  have hheader := headerLength_messageReply4 hlen hoff n
  unfold echoReply4
  dsimp only
  rw [Slice.sliceTo, dif_pos]
  · rfl
  · rw [hheader, array_over, List.append_nil, hfinal]
    omega

/-! ## Which packets are answered or passed on -/

theorem payload4_eq (s : Slice UInt8) :
    payload4 s =
      if h : headerLength s.array ≤ s.len ∧
          headerLength s.array + payloadLength4 s.array ≤ s.array.length then
        some ⟨s.array.drop (headerLength s.array), payloadLength4 s.array,
          by rw [List.length_drop]; omega⟩
      else none :=
  sliceFrom_sliceTo s _ _

theorem payload6_eq {s : Slice UInt8} (hlen : 40 ≤ s.len) :
    payload6 s =
      if h : 40 + payloadLength6 s.array ≤ s.array.length then
        some ⟨s.array.drop 40, payloadLength6 s.array, by rw [List.length_drop]; omega⟩
      else none := by
  unfold payload6
  rw [sliceFrom_sliceTo]
  simp only [hlen, true_and]

theorem byte_drop (b : List UInt8) (i : Nat) : byte (b.drop i) 0 = byte b i := by
  simp [byte]

/-- The payload of the copy, whose array ends with it. -/
theorem payload4_copy {s : Slice UInt8} (hlen : 20 ≤ s.len) :
    (payload4 (Slice.over s.data [])).map Slice.len =
      if headerLength s.array + payloadLength4 s.array ≤ s.len then some (payloadLength4 s.array)
      else none := by
  rw [payload4_eq]
  simp only [array_over, List.append_nil, len_over, length_data, headerLength_data hlen,
    payloadLength4_data hlen]
  by_cases h : headerLength s.array + payloadLength4 s.array ≤ s.len
  · rw [dif_pos ⟨by omega, h⟩, if_pos h]
    rfl
  · rw [dif_neg (fun hr => h hr.2), if_neg h]
    rfl

theorem payload6_copy {s : Slice UInt8} (hlen : 40 ≤ s.len) :
    (payload6 (Slice.over s.data [])).map Slice.len =
      if 40 + payloadLength6 s.array ≤ s.len then some (payloadLength6 s.array) else none := by
  rw [payload6_eq (by rw [len_over, length_data]; exact hlen)]
  simp only [array_over, List.append_nil, length_data, payloadLength6_data hlen]
  by_cases h : 40 + payloadLength6 s.array ≤ s.len
  · rw [dif_pos h, if_pos h]
    rfl
  · rw [dif_neg h, if_neg h]
    rfl

/-- What is done with an IPv4 packet for ICMP whose payload is in range. -/
theorem handleICMPv4_eq {s : Slice UInt8} (hlen : 20 ≤ s.len) (hproto : byte s.array 9 = 1) :
    handleICMPv4 s =
      if headerLength s.array ≤ s.len ∧
          headerLength s.array + payloadLength4 s.array ≤ s.array.length then
        if 8 ≤ payloadLength4 s.array ∧ byte s.array (headerLength s.array) = 8 then
          if headerLength s.array + payloadLength4 s.array ≤ s.len then
            (echoReply4 s.data (payloadLength4 s.array)).map some
          else none
        else some none
      else none := by
  have hcopy := payload4_copy hlen
  unfold handleICMPv4
  rw [if_neg (by omega), if_neg (not_not.mpr hproto), Option.bind_eq_bind, payload4_eq s]
  by_cases hrange : headerLength s.array ≤ s.len ∧
      headerLength s.array + payloadLength4 s.array ≤ s.array.length
  case neg => rw [dif_neg hrange, if_neg hrange, Option.bind_none]
  rw [dif_pos hrange, if_pos hrange, Option.bind_some]
  simp only [byte_drop]
  by_cases hmin : payloadLength4 s.array < 8
  · rw [if_pos hmin, if_neg (by omega)]
  by_cases htype : byte s.array (headerLength s.array) = 8
  case neg => rw [if_neg hmin, if_pos htype, if_neg (fun h => htype h.2)]
  rw [if_neg hmin, if_neg (not_not.mpr htype), if_pos ⟨by omega, htype⟩]
  by_cases hfits : headerLength s.array + payloadLength4 s.array ≤ s.len
  · rw [if_pos hfits] at hcopy ⊢
    obtain ⟨copy, hsome, hcopylen⟩ := Option.map_eq_some_iff.mp hcopy
    simp only [hsome, Option.bind_eq_bind, Option.bind_some, hcopylen]
    cases echoReply4 s.data (payloadLength4 s.array) <;> rfl
  · rw [if_neg hfits] at hcopy ⊢
    rw [Option.map_eq_none_iff.mp hcopy, Option.bind_eq_bind, Option.bind_none]

theorem handleICMPv6_eq {s : Slice UInt8} (hlen : 40 ≤ s.len) (hnext : byte s.array 6 = 58) :
    handleICMPv6 s =
      if 40 + payloadLength6 s.array ≤ s.array.length then
        if 8 ≤ payloadLength6 s.array ∧ byte s.array 40 = 128 then
          if 40 + payloadLength6 s.array ≤ s.len then
            some (some (echoReply6 s.data (payloadLength6 s.array)))
          else none
        else some none
      else none := by
  have hcopy := payload6_copy hlen
  unfold handleICMPv6
  rw [if_neg (by omega), if_neg (not_not.mpr hnext), Option.bind_eq_bind, payload6_eq hlen]
  by_cases hrange : 40 + payloadLength6 s.array ≤ s.array.length
  case neg => rw [dif_neg hrange, if_neg hrange, Option.bind_none]
  rw [dif_pos hrange, if_pos hrange, Option.bind_some]
  simp only [byte_drop]
  by_cases hmin : payloadLength6 s.array < 8
  · rw [if_pos hmin, if_neg (by omega)]
  by_cases htype : byte s.array 40 = 128
  case neg => rw [if_neg hmin, if_pos htype, if_neg (fun h => htype h.2)]
  rw [if_neg hmin, if_neg (not_not.mpr htype), if_pos ⟨by omega, htype⟩]
  by_cases hfits : 40 + payloadLength6 s.array ≤ s.len
  · rw [if_pos hfits] at hcopy ⊢
    obtain ⟨copy, hsome, hcopylen⟩ := Option.map_eq_some_iff.mp hcopy
    simp only [hsome, Option.bind_some, hcopylen]
  · rw [if_neg hfits] at hcopy ⊢
    rw [Option.map_eq_none_iff.mp hcopy, Option.bind_none]

theorem isSome_handleICMPv4 (s : Slice UInt8) : (handleICMPv4 s).isSome ↔ InRange4 s := by
  unfold InRange4
  by_cases hlen : s.len < 20
  · simp only [handleICMPv4, hlen, if_true, Option.isSome_some, true_iff]
    omega
  by_cases hproto : byte s.array 9 = 1
  case neg => simp [handleICMPv4, hproto]
  have hlen' : 20 ≤ s.len := by omega
  rw [handleICMPv4_eq hlen' hproto]
  simp only [hlen', hproto, forall_const]
  by_cases hrange : headerLength s.array ≤ s.len ∧
      headerLength s.array + payloadLength4 s.array ≤ s.array.length
  case neg =>
    rw [if_neg hrange]
    exact iff_of_false (by simp) (fun h => hrange ⟨h.1, h.2.1⟩)
  rw [if_pos hrange]
  by_cases hecho : 8 ≤ payloadLength4 s.array ∧ byte s.array (headerLength s.array) = 8
  case neg =>
    rw [if_neg hecho]
    exact iff_of_true rfl ⟨hrange.1, hrange.2, fun hmin htype => absurd ⟨hmin, htype⟩ hecho⟩
  rw [if_pos hecho]
  by_cases hfits : headerLength s.array + payloadLength4 s.array ≤ s.len
  · have hreply : (echoReply4 s.data (payloadLength4 s.array)).isSome := by
      apply isSome_echoReply4
      · rw [length_data]
        omega
      · rw [length_data, headerLength_data hlen']
        omega
    rw [if_pos hfits, Option.isSome_map]
    exact iff_of_true hreply ⟨hrange.1, hrange.2, fun _ _ => hfits⟩
  · rw [if_neg hfits]
    exact iff_of_false (by simp) (fun h => hfits (h.2.2 hecho.1 hecho.2))

theorem isSome_handleICMPv6 (s : Slice UInt8) : (handleICMPv6 s).isSome ↔ InRange6 s := by
  unfold InRange6
  by_cases hlen : s.len < 40
  · simp only [handleICMPv6, hlen, if_true, Option.isSome_some, true_iff]
    omega
  by_cases hnext : byte s.array 6 = 58
  case neg => simp [handleICMPv6, hnext]
  have hlen' : 40 ≤ s.len := by omega
  rw [handleICMPv6_eq hlen' hnext]
  simp only [hlen', hnext, forall_const]
  by_cases hrange : 40 + payloadLength6 s.array ≤ s.array.length
  case neg =>
    rw [if_neg hrange]
    exact iff_of_false (by simp) (fun h => hrange h.1)
  rw [if_pos hrange]
  by_cases hecho : 8 ≤ payloadLength6 s.array ∧ byte s.array 40 = 128
  case neg =>
    rw [if_neg hecho]
    exact iff_of_true rfl ⟨hrange, fun hmin htype => absurd ⟨hmin, htype⟩ hecho⟩
  rw [if_pos hecho]
  by_cases hfits : 40 + payloadLength6 s.array ≤ s.len
  · rw [if_pos hfits]
    exact iff_of_true rfl ⟨hrange, fun _ _ => hfits⟩
  · rw [if_neg hfits]
    exact iff_of_false (by simp) (fun h => hfits (h.2 hecho.1 hecho.2))

/-- The responder returns exactly on the packets whose payload is in range: the header is
not longer than the packet, the payload ends inside the array of the packet, and where the
packet is an echo request, inside the packet. -/
theorem responder_returns_iff (s : Slice UInt8) : (processICMP s).isSome ↔ InRange s := by
  have h4 := isSome_handleICMPv4 s
  have h6 := isSome_handleICMPv6 s
  unfold processICMP InRange
  by_cases hlen : s.len < 1
  · rw [if_pos hlen]
    simp [InRange4, InRange6]
    omega
  rw [if_neg hlen, Option.isSome_map]
  by_cases hv4 : version s.array = 4
  · simp [hv4, h4]
  · by_cases hv6 : version s.array = 6
    · simp [hv6, h6]
    · simp [hv4, hv6]

/-- A packet of twenty bytes that states a header of sixty. -/
def longHeader : List UInt8 := [0x4f, 0, 0, 20, 0, 0, 0, 0, 64, 1, 0, 0, 10, 0, 0, 1, 10, 0, 0, 2]

theorem long_header_crashes_the_responder : processICMP (Slice.over longHeader []) = none := by
  decide

end vproxy.icmp
