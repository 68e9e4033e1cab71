-- A connection to the SOCKS server (serveSocks). The handshake looks at neither version, ignores
-- the methods, and hands over a command that its caller throws away. So the server dials for
-- every stream of the right shape, be it SOCKS 5 and CONNECT or not.
import Vproxy.SocksGrammar
import Vproxy.BlockPolicy
import Vproxy.FakeIpRestore

open go go.net go.regexp
open socks (Bytes Shape Yields)

namespace socks

def errConnectionRefused : UInt8 := 5

/-- The bytes of `WriteReply` without an address. -/
def reply (rep : UInt8) : Bytes := [5, rep, 0] ++ unspecified

/-- A stream has its shape in one way only. -/
theorem Shape.unique {s methods methods' left left' : Bytes} {a a' : Addr}
    {greeting greeting' ver ver' cmd cmd' rsv rsv' : UInt8}
    (h : Shape s greeting methods ver cmd rsv a left)
    (h' : Shape s greeting' methods' ver' cmd' rsv' a' left') :
    greeting = greeting' ∧ methods = methods' ∧ ver = ver' ∧ cmd = cmd' ∧ a = a' ∧
      left = left' := by
  obtain ⟨haddr, n, hlen, rfl⟩ := h
  obtain ⟨haddr', n', hlen', hstream⟩ := h'
  simp only [List.cons.injEq] at hstream
  obtain ⟨rfl, rfl, hbehind⟩ := hstream
  obtain ⟨rfl, hrequest⟩ := List.append_inj hbehind (hlen.trans hlen'.symm)
  simp only [List.cons.injEq] at hrequest
  obtain ⟨rfl, rfl, rfl, htail⟩ := hrequest
  -- an address tells its own length
  have hsame : some a.length = some a'.length := by
    rw [← wireLen_append haddr left, htail, wireLen_append haddr' left']
  obtain ⟨rfl, rfl⟩ := List.append_inj htail (Option.some.inj hsame)
  exact ⟨rfl, rfl, rfl, rfl, rfl, rfl⟩

/-- On a stream of the right shape the handshake answers the methods and takes the request. -/
theorem Shape.runOn_handshake {s methods left : Bytes} {a : Addr} {greeting ver cmd rsv : UInt8}
    (h : Shape s greeting methods ver cmd rsv a left) :
    handshake.run.runOn s = (.ok (a, cmd), left, [5, 0]) := by
  obtain ⟨haddr, n, hlen, rfl⟩ := h
  have htwo : ([greeting, n] : Bytes).length = 2 := rfl
  have hthree : ([ver, cmd, rsv] : Bytes).length = 3 := rfl
  have hsmall : n.toNat ≤ maxAddrLen := Nat.le_trans (Nat.le_of_lt n.toNat_lt) (by decide)
  have hbuf := length_got length_newBuf htwo (by decide)
  have hbuf' := length_got hbuf hlen hsmall
  have hlast := length_got hbuf' hthree (by decide)
  have hread := settle_readAddr (Nat.le_of_eq hlast.symm) (wireAddr_append haddr left)
  rw [List.drop_left] at hread
  have hsplit : greeting :: n :: (methods ++ ver :: cmd :: rsv :: (a ++ left)) =
      [greeting, n] ++ (methods ++ ([ver, cmd, rsv] ++ (a ++ left))) := rfl
  refine duplex.Proc.runOn_of_settle ?_
  unfold handshake readRequest
  rw [hsplit, settle_orFail_got _ _ (length_newBuf ▸ by decide) htwo, index_eq_ok rfl,
    check_ok_bind, settle_orFail_got _ _ (by rw [hbuf]; exact hsmall) hlen, settle_orFail_send,
    settle_orFail_got _ _ (hbuf' ▸ by decide) hthree, index_eq_ok rfl, check_ok_bind,
    settle_ok (settle_orFail hread _)]
  rfl

/-- Version 5 and a list of methods with method 0, then version 5, CONNECT and an address. -/
def IsRequest (s : Bytes) (a : Addr) (left : Bytes) : Prop :=
  ∃ methods rsv, Shape s 5 methods 5 1 rsv a left ∧ 0 ∈ methods

end socks

namespace vproxy

/-! ## The connection -/

/-- What comes of a connection: the events, the bytes to the client, and after a reply of success
the bytes of the client that `Relay` has for the target. -/
structure Served where
  events : List Event
  written : Bytes
  relayed : Option Bytes

def Served.nothing (written : Bytes) : Served := ⟨[], written, none⟩

/-- The server has dialled or reported success. -/
def Served.Acts (r : Served) : Prop := (∃ e ∈ r.events, e.isDial) ∨ r.relayed.isSome

section

variable [Regexp] [Unicode]

/-- The goroutine of `serveSocks` for one connection, on which the client sends these bytes. -/
def ProxyHandler.serveSocksConn (ph : ProxyHandler) (w : World) (s : Bytes) : Served :=
  match socks.handshake.run.runOn s with
  | (.error _, _, out) => .nothing out
  | (.ok (tgt, _), left, out) =>
    match socks.Addr.string tgt with
    | .error _ => .nothing out
    | .ok target =>
      let d := ph.dialTarget w target [] 0
      if d.conn then ⟨d.events, out ++ socks.reply 0, some left⟩
      else ⟨d.events, out ++ socks.reply socks.errConnectionRefused, none⟩

variable {ph : ProxyHandler} {w : World} {s : Bytes}

omit [Regexp] [Unicode] in
theorem not_acts_nothing (out : Bytes) : ¬ (Served.nothing out).Acts := by
  rintro (⟨e, he, -⟩ | h)
  · cases he
  · cases h

/-- A handshake that fails is the end. -/
theorem serveSocksConn_fails (h : socks.Fails socks.handshake s) :
    ¬ (ph.serveSocksConn w s).Acts := by
  obtain ⟨e, he⟩ := h
  unfold ProxyHandler.serveSocksConn
  split
  · exact not_acts_nothing _
  · rename_i hok
    rw [hok] at he
    cases he

/-- A request of the right shape is dialled, the outcome is reported, and the bytes after the
request are for the target. -/
theorem serveSocksConn_shape {greeting ver cmd rsv : UInt8} {methods left : Bytes}
    {a : socks.Addr} {target : Str} (h : Shape s greeting methods ver cmd rsv a left)
    (htarget : socks.Addr.string a = .ok target) :
    ph.serveSocksConn w s =
      if (ph.dialTarget w target [] 0).conn then
        ⟨(ph.dialTarget w target [] 0).events, [5, 0] ++ socks.reply 0, some left⟩
      else ⟨(ph.dialTarget w target [] 0).events,
        [5, 0] ++ socks.reply socks.errConnectionRefused, none⟩ := by
  unfold ProxyHandler.serveSocksConn
  rw [h.runOn_handshake]
  dsimp only
  rw [htarget]

/-- A dial of `serveSocks` goes out: the rules say DIRECT, or they do not say BLOCK and there is
an upstream. -/
def ProxyHandler.Dials (ph : ProxyHandler) (w : World) (target : Str) : Prop :=
  (ph.rm.matchContext (dialContext target [] 0)).1 = .direct ∨
    (ph.rm.matchContext (dialContext target [] 0)).1 ≠ .block ∧
      (attemptServer .tcp ph.sm w 0).isSome

theorem isDial_dialTarget_iff (target : Str) :
    (∃ e ∈ (ph.dialTarget w target [] 0).events, e.isDial) ↔ ph.Dials w target := by
  rw [← List.any_eq_true]
  exact isDial_dial .tcp target rfl

/-- A connection comes of a dial. -/
theorem dials_of_conn {target : Str} (h : (ph.dialTarget w target [] 0).conn = true) :
    ph.Dials w target := by
  have hrelay : ph.isLocalRelay w.byPort [] 0 = false := rfl
  obtain ⟨n, hn⟩ := retryCount_pos ph
  have hattempts : (dialAttempts .tcp ph.sm w target ph.retryCount 0).conn = true →
      (attemptServer .tcp ph.sm w 0).isSome := by
    rw [hn, dialAttempts]
    split
    · rintro ⟨⟩
    · rename_i u hu
      intro _
      rw [hu]
      rfl
  unfold ProxyHandler.dialTarget ProxyHandler.dial at h
  rw [if_neg (by simp [hrelay])] at h
  dsimp only at h
  unfold ProxyHandler.Dials
  cases haction : (ph.rm.matchContext (dialContext target [] 0)).1 with
  | direct => exact Or.inl rfl
  | block =>
    rw [haction] at h
    cases h
  | proxy | intercept | map =>
    rw [haction] at h
    refine Or.inr ⟨fun hblock => ?_, hattempts h⟩
    cases hblock

/-- The server acts on a stream of the right shape exactly when a dial for its address goes out. -/
theorem acts_iff_dials {greeting ver cmd rsv : UInt8} {methods left : Bytes} {a : socks.Addr}
    {target : Str} (h : Shape s greeting methods ver cmd rsv a left)
    (htarget : socks.Addr.string a = .ok target) :
    (ph.serveSocksConn w s).Acts ↔ ph.Dials w target := by
  rw [serveSocksConn_shape h htarget]
  constructor
  · intro hacts
    split at hacts
    · rename_i hconn
      exact dials_of_conn hconn
    · obtain hdial | hrelayed := hacts
      · exact (isDial_dialTarget_iff target).mp hdial
      · cases hrelayed
  · intro hdials
    left
    split
    · exact (isDial_dialTarget_iff target).mpr hdials
    · exact (isDial_dialTarget_iff target).mpr hdials

/-- The server acts only on a request of the grammar. It dials the address of the request and
reports the outcome, and where the dial succeeds, the target gets all that comes after it. -/
structure ProxyHandler.ServesGrammar (ph : ProxyHandler) (w : World) (s : Bytes) : Prop where
  only : (ph.serveSocksConn w s).Acts → ∃ a left, socks.IsRequest s a left
  exact : ∀ a left, socks.IsRequest s a left → ∃ target, socks.Addr.string a = .ok target ∧
    (ph.serveSocksConn w s).events = (ph.serveSocks w target).events ∧
    if (ph.dialTarget w target [] 0).conn then
      (ph.serveSocksConn w s).written = [5, 0] ++ socks.reply 0 ∧
        (ph.serveSocksConn w s).relayed = some left
    else (ph.serveSocksConn w s).written = [5, 0] ++ socks.reply socks.errConnectionRefused ∧
      (ph.serveSocksConn w s).relayed = none

/-- The server keeps to the grammar on a stream exactly when the stream has not the shape of a
greeting and a request, when no dial goes out for the address in it, or when its versions, its
methods and its command happen to be right. -/
theorem socks_serves_grammar_iff (ph : ProxyHandler) (w : World) (s : Bytes) :
    ph.ServesGrammar w s ↔
      ∀ greeting methods ver cmd rsv a left target,
        Shape s greeting methods ver cmd rsv a left → socks.Addr.string a = .ok target →
        ph.Dials w target → greeting = 5 ∧ 0 ∈ methods ∧ ver = 5 ∧ cmd = 1 := by
  constructor
  · intro hserves greeting methods ver cmd rsv a left target hshape htarget hdials
    obtain ⟨a', left', methods', rsv', hrequest, hzero⟩ :=
      hserves.only ((acts_iff_dials hshape htarget).mpr hdials)
    obtain ⟨rfl, rfl, rfl, rfl, -, -⟩ := hshape.unique hrequest
    exact ⟨rfl, hzero, rfl, rfl⟩
  · intro hright
    refine ⟨?_, ?_⟩
    · intro hacts
      obtain ⟨⟨a, cmd⟩, left, hyields⟩ | hfails := socks.yields_or_fails socks.handshake s
      · obtain ⟨greeting, methods, ver, rsv, hshape⟩ :=
          (socks.yields_handshake s a cmd left).mp hyields
        obtain ⟨target, htarget⟩ := socks.exists_string hshape.addr
        obtain ⟨rfl, hzero, rfl, rfl⟩ := hright _ _ _ _ _ _ _ _ hshape htarget
          ((acts_iff_dials hshape htarget).mp hacts)
        exact ⟨a, left, methods, rsv, hshape, hzero⟩
      · exact absurd hacts (serveSocksConn_fails hfails)
    · rintro a left ⟨methods, rsv, hshape, -⟩
      obtain ⟨target, htarget⟩ := socks.exists_string hshape.addr
      refine ⟨target, htarget, ?_⟩
      rw [serveSocksConn_shape hshape htarget]
      split
      · exact ⟨rfl, rfl, rfl⟩
      · exact ⟨rfl, rfl, rfl⟩

end

/-! ## A command that is not served -/

/-- A greeting of version 4 without methods, and a request to BIND at 192.0.2.1:80. -/
def bindStream : Bytes := [4, 0, 4, 2, 0, 1, 192, 0, 2, 1, 0, 80, 71]

/-- The server dials for BIND, reports success, and relays what follows. -/
theorem bind_is_dialed :
    (allProxied.serveSocksConn poolWorld bindStream).events =
        [.matched ⟨"192.0.2.1", 80, [], 0, []⟩, .dialUpstream "192.0.2.9:1080" "192.0.2.1:80"] ∧
      (allProxied.serveSocksConn poolWorld bindStream).relayed = some [71] ∧
      ¬ ∃ a left, socks.IsRequest bindStream a left := by
  refine ⟨by decide +kernel, by decide +kernel, ?_⟩
  rintro ⟨a, left, methods, rsv, hshape, -⟩
  obtain ⟨n, -, hstream⟩ := hshape.stream
  exact absurd (List.cons.inj hstream).1 (by decide)

end vproxy
