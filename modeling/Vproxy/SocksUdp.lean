-- UDP through a SOCKS server (DialUDP, socksUDPConn). The dialler asks for an association and
-- takes any answer with an address in it, a refusal too. The reader of datagrams looks for the
-- address in its whole buffer, and counts the payload without regard to the room for it.
import Vproxy.SocksGrammar

open go go.net duplex

namespace socks

/-! ## The dialler -/

inductive Sock where
  | ctrl
  | udp
  deriving DecidableEq, Repr

/-- Which dials succeed: that of the control connection, and that of the relay at an address. -/
structure Net where
  ctrl : Bool
  relay : Str → Bool

/-- A `socksUDPConn`: the address of its UDP socket, and the target in its datagrams. -/
structure SocksUDPConn where
  relay : Str
  target : Addr
  deriving DecidableEq

inductive DialErr where
  | connect
  | exchange (e : Err)
  | relay
  | invalidTarget (target : Str)
  deriving DecidableEq

/-- What `DialUDP` returns, what it leaves of the stream of the server, and its sockets. -/
structure Dialed where
  result : Except DialErr SocksUDPConn
  left : Bytes
  opened : List Sock
  closed : List Sock

/-- What `DialUDP` says and reads on the control connection. -/
def associate : Conn Addr := do
  send [5, 1, 0]
  let buf ← readInto newBuf 0 2
  send [5, 3, 0, atypIPv4, 0, 0, 0, 0, 0, 0]
  let buf ← readInto buf 0 3
  readAddr buf

/-- The end of `DialUDP`, once the address of the relay is known. -/
def dialRelay (net : Net) (targetAddr relay : Str) (left : Bytes) : Dialed :=
  if !net.relay relay then ⟨.error .relay, left, [.ctrl], [.ctrl]⟩
  else
    match parseAddr targetAddr with
    | none => ⟨.error (.invalidTarget targetAddr), left, [.ctrl, .udp], [.ctrl, .udp]⟩
    | some target => ⟨.ok ⟨relay, target⟩, left, [.ctrl, .udp], []⟩

/-- `DialUDP` when the server sends these bytes. -/
def dialUDP (net : Net) (targetAddr : Str) (s : Bytes) : Dialed :=
  if !net.ctrl then ⟨.error .connect, s, [], []⟩
  else
    match associate.run.runOn s with
    | (.error e, left, _) => ⟨.error (.exchange e), left, [.ctrl], [.ctrl]⟩
    | (.ok relayAddr, left, _) =>
      match Addr.string relayAddr with
      | .error e => ⟨.error (.exchange e), left, [.ctrl], []⟩
      | .ok relay => dialRelay net targetAddr relay left

/-- Two bytes, three bytes and an address, whatever the bytes say. -/
theorem yields_associate (s : Bytes) (a : Addr) (left : Bytes) :
    Yields associate s a left ↔
      wireLen a = some a.length ∧ ∃ front, front.length = 5 ∧ s = front ++ (a ++ left) := by
  have htwo : 2 ≤ newBuf.length := length_newBuf ▸ by decide
  unfold associate
  simp only [yields_bind, yields_send, yields_readInto htwo]
  constructor
  · rintro ⟨-, _, rfl, b, mid, ⟨got, hgot, rfl, rfl⟩, -, _, rfl, b', mid', hread, haddr⟩
    have hbuf := length_got length_newBuf hgot (by decide)
    obtain ⟨got', hgot', rfl, rfl⟩ := (yields_readInto (hbuf ▸ by decide) _ _ _).mp hread
    have hbuf' := length_got hbuf hgot' (by decide)
    obtain ⟨hwire, rfl⟩ := (yields_readAddr (Nat.le_of_eq hbuf'.symm) _ _ _).mp haddr
    exact ⟨hwire, got ++ got', by rw [List.length_append, hgot, hgot'],
      (List.append_assoc _ _ _).symm⟩
  · rintro ⟨hwire, front, hfront, rfl⟩
    have hgot : (front.take 2).length = 2 := by rw [List.length_take]; omega
    have hgot' : (front.drop 2).length = 3 := by rw [List.length_drop]; omega
    have hsplit : front ++ (a ++ left) = front.take 2 ++ (front.drop 2 ++ (a ++ left)) := by
      rw [← List.append_assoc (front.take 2), List.take_append_drop]
    have hbuf := length_got length_newBuf hgot (by decide)
    have hbuf' := length_got hbuf hgot' (by decide)
    have hthree : 3 ≤ (front.take 2 ++ newBuf.drop 2).length := hbuf ▸ by decide
    have hread := (yields_readInto hthree _ _ (a ++ left)).mpr ⟨_, hgot', rfl, rfl⟩
    have haddr := (yields_readAddr (Nat.le_of_eq hbuf'.symm) _ a left).mpr ⟨hwire, rfl⟩
    exact ⟨(), _, rfl, _, _, ⟨_, hgot, hsplit, rfl⟩, (), _, rfl, _, _, hread, haddr⟩

/-- What is needed for a connection: the server can be reached, it sends five bytes and an address,
whatever the bytes say, the relay at that address can be dialled, and the target can be written
as an address. -/
structure Usable (net : Net) (targetAddr : Str) (s : Bytes) (conn : SocksUDPConn) (left : Bytes) :
    Prop where
  ctrl : net.ctrl = true
  stream : ∃ front a, front.length = 5 ∧ wireLen a = some a.length ∧ s = front ++ (a ++ left) ∧
    Addr.string a = .ok conn.relay
  relay : net.relay conn.relay = true
  target : parseAddr targetAddr = some conn.target

theorem Usable.yields {net : Net} {targetAddr : Str} {s left : Bytes} {conn : SocksUDPConn}
    (h : Usable net targetAddr s conn left) :
    ∃ a, Yields associate s a left ∧ Addr.string a = .ok conn.relay := by
  obtain ⟨front, a, hfront, hwire, hs, hrelay⟩ := h.stream
  exact ⟨a, (yields_associate s a left).mpr ⟨hwire, front, hfront, hs⟩, hrelay⟩

/-- The stream has one address behind its first five bytes. -/
theorem Usable.relay_of_yields {net : Net} {targetAddr relay : Str} {s left left' : Bytes}
    {conn : SocksUDPConn} {a : Addr} (h : Usable net targetAddr s conn left)
    (hyields : Yields associate s a left') (hrelay : Addr.string a = .ok relay) :
    conn.relay = relay ∧ left = left' := by
  obtain ⟨a', hyields', hrelay'⟩ := h.yields
  have hsame := hyields.1
  rw [hyields'.1] at hsame
  cases hsame
  rw [hrelay] at hrelay'
  cases hrelay'
  exact ⟨rfl, hyields'.2.symm.trans hyields.2⟩

theorem Usable.unique {net : Net} {targetAddr : Str} {s left left' : Bytes}
    {conn conn' : SocksUDPConn} (h : Usable net targetAddr s conn left)
    (h' : Usable net targetAddr s conn' left') : conn = conn' ∧ left = left' := by
  obtain ⟨a, hyields, hstring⟩ := h'.yields
  obtain ⟨hrelay, hleft⟩ := h.relay_of_yields hyields hstring
  have htarget := h.target
  rw [h'.target] at htarget
  obtain ⟨relay, target⟩ := conn
  obtain ⟨relay', target'⟩ := conn'
  cases hrelay
  cases htarget
  exact ⟨rfl, hleft⟩

/-- The first four bytes of a usable stream decide whether the server granted the association. -/
theorem Usable.granted_iff {net : Net} {targetAddr : Str} {s left : Bytes} {conn : SocksUDPConn}
    (h : Usable net targetAddr s conn left) :
    (∃ rsv a, wireLen a = some a.length ∧ s = 5 :: 0 :: 5 :: 0 :: rsv :: (a ++ left) ∧
      Addr.string a = .ok conn.relay) ↔ s.take 4 = [5, 0, 5, 0] := by
  constructor
  · rintro ⟨rsv, a, -, hs, -⟩
    rw [hs]
    rfl
  · intro hfour
    obtain ⟨front, a, hfront, hwire, hs, hrelay⟩ := h.stream
    match front, hfront with
    | [ver, method, ver', rep, rsv], _ =>
      rw [hs] at hfour
      simp only [List.cons_append, List.take_succ_cons, List.take_zero, List.cons.injEq,
        and_true] at hfour
      obtain ⟨rfl, rfl, rfl, rfl⟩ := hfour
      exact ⟨rsv, a, hwire, hs, hrelay⟩

/-- The end of the dial: the relay and the target decide. -/
theorem dialRelay_spec (net : Net) (targetAddr relay : Str) (left : Bytes) :
    (∃ target, net.relay relay = true ∧ parseAddr targetAddr = some target ∧
      dialRelay net targetAddr relay left = ⟨.ok ⟨relay, target⟩, left, [.ctrl, .udp], []⟩) ∨
    (¬ (net.relay relay = true ∧ (parseAddr targetAddr).isSome) ∧
      ∃ e socks, dialRelay net targetAddr relay left = ⟨.error e, left, socks, socks⟩) := by
  unfold dialRelay
  by_cases hrelay : net.relay relay = true
  · rw [hrelay]
    cases htarget : parseAddr targetAddr with
    | none => exact Or.inr ⟨fun h => absurd h.2 (by simp), _, _, rfl⟩
    | some target => exact Or.inl ⟨target, rfl, rfl, rfl⟩
  · rw [Bool.not_eq_true] at hrelay
    rw [hrelay]
    exact Or.inr ⟨fun h => absurd h.1 (by simp), _, _, rfl⟩

/-- `DialUDP` has a connection where one is usable, and otherwise an error and no socket open. -/
theorem dialUDP_spec (net : Net) (targetAddr : Str) (s : Bytes) :
    (∃ conn left, Usable net targetAddr s conn left ∧
      dialUDP net targetAddr s = ⟨.ok conn, left, [.ctrl, .udp], []⟩) ∨
    ((∀ conn left, ¬ Usable net targetAddr s conn left) ∧
      ∃ e left socks, dialUDP net targetAddr s = ⟨.error e, left, socks, socks⟩) := by
  unfold dialUDP
  by_cases hctrl : net.ctrl = true
  swap
  · rw [Bool.not_eq_true] at hctrl
    rw [hctrl]
    refine Or.inr ⟨fun conn left h => ?_, _, _, _, rfl⟩
    rw [h.ctrl] at hctrl
    cases hctrl
  rw [hctrl]
  simp only [Bool.not_true, Bool.false_eq_true, if_false]
  split
  · rename_i e left out hrun
    refine Or.inr ⟨fun conn left' h => ?_, _, _, _, rfl⟩
    obtain ⟨a, ⟨hok, -⟩, -⟩ := h.yields
    rw [hrun] at hok
    cases hok
  · rename_i a left out hrun
    have hyields : Yields associate s a left := ⟨by rw [hrun], by rw [hrun]⟩
    obtain ⟨hwire, front, hfront, hs⟩ := (yields_associate s a left).mp hyields
    obtain ⟨relay, hrelay⟩ := exists_string hwire
    rw [hrelay]
    obtain ⟨target, hdials, htarget, hdial⟩ | ⟨hnot, e, socks, hdial⟩ :=
      dialRelay_spec net targetAddr relay left
    · exact Or.inl ⟨⟨relay, target⟩, left, ⟨hctrl, ⟨front, a, hfront, hwire, hs, hrelay⟩, hdials,
        htarget⟩, hdial⟩
    · refine Or.inr ⟨fun conn left' h => hnot ?_, e, left, socks, hdial⟩
      obtain ⟨rfl, -⟩ := h.relay_of_yields hyields hrelay
      exact ⟨h.relay, by rw [h.target]; rfl⟩

/-- A connection means that the server took the offered method and granted the association, and
it goes to the bound address. Everything else is an error with the sockets closed. -/
structure Dialed.Sound (d : Dialed) (s : Bytes) : Prop where
  granted : ∀ conn, d.result = .ok conn → ∃ rsv a, wireLen a = some a.length ∧
    s = 5 :: 0 :: 5 :: 0 :: rsv :: (a ++ d.left) ∧ Addr.string a = .ok conn.relay
  closes : ∀ e, d.result = .error e → ∀ sock ∈ d.opened, sock ∈ d.closed

/-- `DialUDP` returns the usable connections, and leaves what follows the address. So it is sound
exactly on the streams that are not usable, and on those where the bytes it does not look at are
right. -/
theorem udp_associate_sound_iff (net : Net) (targetAddr : Str) (s : Bytes) :
    (∀ conn left, (dialUDP net targetAddr s).result = .ok conn ∧
        (dialUDP net targetAddr s).left = left ↔ Usable net targetAddr s conn left) ∧
      ((dialUDP net targetAddr s).Sound s ↔
        ((∃ conn left, Usable net targetAddr s conn left) → s.take 4 = [5, 0, 5, 0])) := by
  obtain ⟨conn, left, husable, hdial⟩ | ⟨hnone, e, left, socks, hdial⟩ :=
    dialUDP_spec net targetAddr s
  · rw [hdial]
    refine ⟨fun conn' left' => ⟨?_, ?_⟩, ?_, ?_⟩
    · rintro ⟨hconn, rfl⟩
      cases hconn
      exact husable
    · intro husable'
      obtain ⟨rfl, rfl⟩ := husable.unique husable'
      exact ⟨rfl, rfl⟩
    · rintro hsound -
      exact husable.granted_iff.mp (hsound.granted conn rfl)
    · intro hright
      refine ⟨?_, nofun⟩
      intro conn' hconn
      cases hconn
      exact husable.granted_iff.mpr (hright ⟨conn, left, husable⟩)
  · rw [hdial]
    refine ⟨fun conn' left' => ⟨?_, fun h => absurd h (hnone conn' left')⟩, ?_, ?_⟩
    · rintro ⟨hconn, -⟩
      cases hconn
    · rintro - ⟨conn', left', h⟩
      exact absurd h (hnone conn' left')
    · intro _
      exact ⟨nofun, fun _ _ sock hsock => hsock⟩

/-- The server accepts no method and reports a failure, and the dialler has a connection. -/
theorem refused_association_is_used :
    (dialUDP ⟨true, fun _ => true⟩ "192.0.2.7:53" [5, 0xff, 5, 1, 0, 1, 192, 0, 2, 1, 0, 80]).result
      = .ok ⟨"192.0.2.1:80", [1, 192, 0, 2, 7, 0, 53]⟩ := by
  decide +kernel

/-! ## Datagrams -/

/-- What `socksUDPConn.Read` reports; `outOfRange` is the panic of a slice. -/
inductive ReadErr where
  | unexpectedEOF
  | text (s : Str)
  | outOfRange
  deriving DecidableEq

/-- The length of the buffer of `socksUDPConn.Read`. -/
def readLen : Nat := 65535

/-- The buffer after a datagram was read into it. What does not fit is lost. -/
def readBuf (d : Bytes) : Bytes := d.take readLen ++ List.replicate (readLen - d.length) 0

/-- `copy(b, src)`. -/
def copyInto (b src : Bytes) : Bytes := src.take b.length ++ b.drop src.length

/-- `socksUDPConn.Read` of a datagram into `b`: the count, and `b` after it. -/
def SocksUDPConn.read (d b : Bytes) : Except ReadErr (Nat × Bytes) :=
  let n := min d.length readLen
  if n < 4 then .error .unexpectedEOF
  else
    match splitAddr ((readBuf d).drop 3) with
    | .error _ => .error .outOfRange
    | .ok none => .error (.text "invalid socks udp header")
    | .ok (some addr) =>
      match slice (readBuf d) (3 + addr.length) n with
      | .error _ => .error .outOfRange
      | .ok payload => .ok (n - (3 + addr.length), copyInto b payload)

/-- `socksUDPConn.Write`. -/
def SocksUDPConn.write (c : SocksUDPConn) (b : Bytes) : Bytes := [0, 0, 0] ++ c.target ++ b

/-- Three bytes, an address and a payload. -/
def Encapsulated (d : Bytes) (a : Addr) (payload : Bytes) : Prop :=
  wireLen a = some a.length ∧ ∃ front, front.length = 3 ∧ d = front ++ a ++ payload

theorem length_readBuf (d : Bytes) : (readBuf d).length = readLen := by
  rw [readBuf, List.length_append, List.length_take, List.length_replicate]
  omega

/-- In the part that was read, the buffer is the datagram. -/
theorem take_readBuf (d : Bytes) {n : Nat} (h : n ≤ min d.length readLen) :
    (readBuf d).take n = d.take n := by
  have hfront : n ≤ (d.take readLen).length := by
    rw [List.length_take]
    omega
  rw [readBuf, List.take_append_of_le_length hfront, List.take_take, Nat.min_eq_left (by omega)]

/-- A datagram of the right form has its address where the reader looks for it. -/
theorem Encapsulated.wireLen_readBuf {d payload : Bytes} {a : Addr}
    (h : Encapsulated d a payload) : wireLen ((readBuf d).drop 3) = some a.length := by
  obtain ⟨hwire, front, hfront, rfl⟩ := h
  have hmax : a.length ≤ maxAddrLen := (wireLen_bounds hwire).2
  have hroom : (front ++ a).length ≤ readLen := by
    rw [List.length_append, hfront, readLen]
    exact Nat.le_trans (Nat.add_le_add_left hmax 3) (by decide)
  rw [readBuf, List.take_append, List.take_of_length_le hroom, List.append_assoc,
    List.append_assoc, List.drop_append_of_le_length (Nat.le_of_eq hfront.symm), ← hfront,
    List.drop_length, List.nil_append]
  exact wireLen_append hwire _

/-- The address that the reader finds is one of the datagram, when all of it was read. -/
theorem encapsulated_of_wireLen {d : Bytes} {n : Nat}
    (h : wireLen ((readBuf d).drop 3) = some n) (hn : 3 + n ≤ min d.length readLen) :
    ∃ a, a.length = n ∧ Encapsulated d a (d.drop (3 + n)) := by
  have hlen : ((d.drop 3).take n).length = n := by
    rw [List.length_take, List.length_drop]
    omega
  have hsame : ((readBuf d).drop 3).take n = (d.drop 3).take n := by
    rw [List.take_drop, List.take_drop, take_readBuf d hn]
  have haddr : wireAddr ((readBuf d).drop 3) = some ((d.drop 3).take n) := by
    rw [wireAddr, h, Option.bind_some, hsame, if_pos]
    rw [List.length_drop, length_readBuf]
    omega
  refine ⟨(d.drop 3).take n, hlen, (wireAddr_spec haddr).1, d.take 3, ?_, ?_⟩
  · rw [List.length_take]
    omega
  · rw [List.append_assoc, ← List.drop_drop, List.take_append_drop, List.take_append_drop]

/-- The reader of a datagram that is long enough and has an address type. It slices past the end
of what was read when the address does not end before. -/
theorem read_addr {d : Bytes} {n : Nat} (hd : 4 ≤ d.length)
    (h : wireLen ((readBuf d).drop 3) = some n) (b : Bytes) :
    SocksUDPConn.read d b =
      if 3 + n ≤ min d.length readLen then
        .ok (min d.length readLen - (3 + n),
          copyInto b ((d.take (min d.length readLen)).drop (3 + n)))
      else .error .outOfRange := by
  have hshort : ¬ min d.length readLen < 4 := by
    unfold readLen
    omega
  have hlen : (((readBuf d).drop 3).take n).length = n := by
    have hmax := (wireLen_bounds h).2
    unfold maxAddrLen at hmax
    rw [List.length_take, List.length_drop, length_readBuf, readLen]
    omega
  have haddr : wireAddr ((readBuf d).drop 3) = some (((readBuf d).drop 3).take n) := by
    rw [wireAddr, h, Option.bind_some, if_pos]
    rw [List.length_take] at hlen
    omega
  unfold SocksUDPConn.read
  dsimp only
  rw [if_neg hshort, splitAddr_eq, haddr]
  dsimp only
  rw [hlen]
  split
  · rename_i hslice
    split
    · rename_i hle
      rw [slice_eq_ok hle (by rw [length_readBuf]; omega)] at hslice
      cases hslice
    · rfl
  · rename_i payload hslice
    split
    · rename_i hle
      rw [slice_eq_ok hle (by rw [length_readBuf]; omega), take_readBuf d (Nat.le_refl _)] at hslice
      cases hslice
      rfl
    · rename_i hle
      rw [slice, if_neg (fun hboth => hle hboth.1)] at hslice
      cases hslice

/-- What the reader does with a datagram without an address type. -/
theorem read_untyped {d : Bytes} (h : wireLen ((readBuf d).drop 3) = none) (b : Bytes) :
    ∃ e, SocksUDPConn.read d b = .error e ∧ e ≠ .outOfRange := by
  have haddr : wireAddr ((readBuf d).drop 3) = none := by rw [wireAddr, h, Option.bind_none]
  unfold SocksUDPConn.read
  dsimp only
  rw [splitAddr_eq, haddr]
  split
  · exact ⟨_, rfl, nofun⟩
  · exact ⟨_, rfl, nofun⟩

theorem copyInto_of_le {b src : Bytes} (h : src.length ≤ b.length) :
    copyInto b src = src ++ b.drop src.length := by
  rw [copyInto, List.take_of_length_le h]

/-- The reader does not panic, it reports an error unless the datagram has the right form, and
what it reports as read is the front of the payload. -/
structure SafeRead (d b : Bytes) : Prop where
  no_panic : SocksUDPConn.read d b ≠ .error .outOfRange
  checked : ∀ k b', SocksUDPConn.read d b = .ok (k, b') → ∃ a payload, Encapsulated d a payload
  payload : ∀ k b' a payload, SocksUDPConn.read d b = .ok (k, b') → Encapsulated d a payload →
    k ≤ b.length ∧ b'.take k = payload.take k

/-- The datagram is too short for an address type, or the byte there is none. -/
def Untyped (d : Bytes) : Prop :=
  ∀ atyp ∈ d[3]?, atyp ≠ atypDomainName ∧ atyp ≠ atypIPv4 ∧ atyp ≠ atypIPv6

theorem readBuf_three (d : Bytes) : (readBuf d)[3]? = some (d[3]?.getD 0) := by
  by_cases hd : 3 < d.length
  · have hfront : 3 < (d.take readLen).length := by
      rw [List.length_take, readLen]
      omega
    rw [readBuf, List.getElem?_append_left hfront, List.getElem?_take_of_lt (by decide),
      List.getElem?_eq_getElem hd]
    rfl
  · have hall : d.take readLen = d := List.take_of_length_le (by unfold readLen; omega)
    have hnone : d[3]? = none := List.getElem?_eq_none (by omega)
    have hzeros : 3 - d.length < readLen - d.length := by
      unfold readLen
      omega
    rw [hnone, readBuf, hall, List.getElem?_append_right (by omega),
      List.getElem?_replicate_of_lt hzeros]
    rfl

theorem wireLen_eq_none_iff (atyp x : UInt8) (rest : Bytes) :
    wireLen (atyp :: x :: rest) = none ↔
      atyp ≠ atypDomainName ∧ atyp ≠ atypIPv4 ∧ atyp ≠ atypIPv6 := by
  unfold wireLen
  by_cases hdomain : atyp = atypDomainName
  · simp [hdomain]
  by_cases h4 : atyp = atypIPv4
  · simp [h4, atypIPv4, atypDomainName]
  by_cases h6 : atyp = atypIPv6
  · simp [h6, atypIPv6, atypIPv4, atypDomainName]
  · simp [hdomain, h4, h6]

theorem untyped_iff (d : Bytes) : Untyped d ↔ wireLen ((readBuf d).drop 3) = none := by
  have hlen : 2 ≤ ((readBuf d).drop 3).length := by
    rw [List.length_drop, length_readBuf]
    decide
  obtain ⟨atyp, x, rest, hdrop⟩ := exists_cons_cons hlen
  have hfirst : atyp = d[3]?.getD 0 := by
    have hhead : ((readBuf d).drop 3)[0]? = some atyp := by rw [hdrop]; rfl
    rw [List.getElem?_drop, readBuf_three] at hhead
    exact (Option.some.inj hhead).symm
  rw [hdrop, wireLen_eq_none_iff, hfirst]
  unfold Untyped
  cases d[3]? with
  | none =>
    -- past the end of a short datagram the buffer holds zeros, and zero is no type
    simp [atypDomainName, atypIPv4, atypIPv6]
  | some atyp => simp

/-- A datagram of the right form is read, whatever the room for its payload. -/
theorem read_encapsulated {d payload : Bytes} {a : Addr} (h : Encapsulated d a payload)
    (b : Bytes) :
    SocksUDPConn.read d b = .ok (min d.length readLen - (3 + a.length),
      copyInto b (payload.take (min d.length readLen - (3 + a.length)))) := by
  have hlen := h.wireLen_readBuf
  obtain ⟨hwire, front, hfront, rfl⟩ := h
  obtain ⟨hmin, hmax⟩ := wireLen_bounds hwire
  have hroom : 3 + a.length ≤ min (front ++ a ++ payload).length readLen := by
    unfold maxAddrLen at hmax
    simp only [List.length_append, hfront, readLen]
    omega
  rw [read_addr (by simp only [List.length_append]; omega) hlen, if_pos hroom,
    List.drop_take]
  have hcut : (front ++ a).length = 3 + a.length := by rw [List.length_append, hfront]
  rw [← hcut, List.drop_left]

theorem safeRead_of_untyped {d : Bytes} (h : Untyped d) (b : Bytes) : SafeRead d b := by
  obtain ⟨e, herr, hne⟩ := read_untyped ((untyped_iff d).mp h) b
  refine ⟨?_, ?_, ?_⟩
  · rw [herr]
    exact fun h => hne (Except.error.inj h)
  · rw [herr]
    exact nofun
  · rw [herr]
    exact nofun

/-- The form of a datagram is unique. -/
theorem Encapsulated.length_eq {d payload payload' : Bytes} {a a' : Addr}
    (h : Encapsulated d a payload) (h' : Encapsulated d a' payload') : a.length = a'.length := by
  have hlen := h.wireLen_readBuf
  rw [h'.wireLen_readBuf] at hlen
  exact (Option.some.inj hlen).symm

/-- With room for the payload a datagram of the right form is read safely. -/
theorem Encapsulated.safeRead {d payload b : Bytes} {a : Addr} (h : Encapsulated d a payload)
    (hroom : min d.length readLen ≤ 3 + a.length + b.length) : SafeRead d b := by
  refine ⟨?_, fun _ _ _ => ⟨a, payload, h⟩, ?_⟩
  · rw [read_encapsulated h]
    exact nofun
  · intro k b' a' payload' hok h'
    rw [h.length_eq h'] at hroom
    rw [read_encapsulated h'] at hok
    obtain ⟨rfl, rfl⟩ := Prod.mk.inj (Except.ok.inj hok)
    have hcount : (payload'.take (min d.length readLen - (3 + a'.length))).length =
        min d.length readLen - (3 + a'.length) := by
      obtain ⟨-, front, hfront, rfl⟩ := h'
      simp only [List.length_take, List.length_append, hfront]
      omega
    have hk : min d.length readLen - (3 + a'.length) ≤ b.length := by omega
    refine ⟨hk, ?_⟩
    rw [copyInto_of_le (by rw [hcount]; exact hk), List.take_left' hcount]

/-- A safe read of a datagram with an address type found the whole address, and room. -/
theorem SafeRead.encapsulated {d b : Bytes} (h : SafeRead d b) (htyped : ¬ Untyped d) :
    ∃ a payload, Encapsulated d a payload ∧ min d.length readLen ≤ 3 + a.length + b.length := by
  have hd : 4 ≤ d.length := by
    by_contra hshort
    apply htyped
    rw [Untyped, List.getElem?_eq_none (by omega)]
    exact nofun
  rw [untyped_iff, ← ne_eq, Option.ne_none_iff_exists'] at htyped
  obtain ⟨n, hlen⟩ := htyped
  have hread := read_addr hd hlen b
  by_cases hle : 3 + n ≤ min d.length readLen
  · obtain ⟨a, rfl, henc⟩ := encapsulated_of_wireLen hlen hle
    rw [if_pos hle] at hread
    have hroom := (h.payload _ _ a _ hread henc).1
    exact ⟨a, _, henc, by omega⟩
  · rw [if_neg hle] at hread
    exact absurd hread h.no_panic

/-- Reading is safe exactly when there is no address type in the datagram, or a whole address
and room for the payload. -/
theorem datagram_read_safe_iff (d b : Bytes) :
    SafeRead d b ↔ Untyped d ∨ ∃ a payload, Encapsulated d a payload ∧
      min d.length readLen ≤ 3 + a.length + b.length := by
  constructor
  · intro hsafe
    by_cases huntyped : Untyped d
    · exact Or.inl huntyped
    · exact Or.inr (hsafe.encapsulated huntyped)
  · rintro (huntyped | ⟨a, payload, henc, hroom⟩)
    · exact safeRead_of_untyped huntyped b
    · exact henc.safeRead hroom

/-- What one side encapsulates, the other side reads. -/
theorem read_write {c : SocksUDPConn} (h : wireLen c.target = some c.target.length)
    {b payload : Bytes} (hroom : payload.length ≤ b.length)
    (hfits : (c.write payload).length ≤ readLen) :
    SocksUDPConn.read (c.write payload) b =
      .ok (payload.length, payload ++ b.drop payload.length) := by
  have henc : Encapsulated (c.write payload) c.target payload := ⟨h, [0, 0, 0], rfl, rfl⟩
  have hcount : (c.write payload).length - (3 + c.target.length) = payload.length := by
    simp only [SocksUDPConn.write, List.length_append, List.length_cons, List.length_nil]
    omega
  rw [read_encapsulated henc, Nat.min_eq_left hfits, hcount, List.take_length,
    copyInto_of_le hroom]

/-- Five bytes with the type of an IPv4 address at the fourth make the reader panic, and a payload
of two bytes counts as read into a buffer of one. -/
theorem short_datagram_panics :
    SocksUDPConn.read [0, 0, 0, 1, 7] [0] = .error .outOfRange ∧
      SocksUDPConn.read [0, 0, 0, 1, 192, 0, 2, 1, 0, 53, 8, 9] [0] = .ok (2, [8]) := by
  have hlen : wireLen ((readBuf [0, 0, 0, 1, 7]).drop 3) = some 7 := rfl
  have henc : Encapsulated [0, 0, 0, 1, 192, 0, 2, 1, 0, 53, 8, 9]
      [1, 192, 0, 2, 1, 0, 53] [8, 9] := ⟨rfl, [0, 0, 0], rfl, rfl⟩
  constructor
  · rw [read_addr (by decide) hlen, if_neg (by decide)]
  · rw [read_encapsulated henc]
    rfl

end socks
