-- The SOCKS client against the SOCKS server (ClientConnect, Handshake and WriteReply). The
-- client reads the type of the bound address as a part of the header, and then reads an
-- address once more. So it takes the reply of the server only when the bytes after the type
-- are an address themselves, and those of the usual reply are not.
import Vproxy.Socks

open go go.net duplex

namespace socks

/-! ## The two programs -/

def send (b : Bytes) : Conn Unit := .mk (.write b (.ret (.ok ())))

/-- An error in the text around it. A panic goes through. -/
def wrap {α : Type} (text : Str) : Except Err α → Except Err α
  | .error .outOfRange => .error .outOfRange
  | .error e => .error (.wrapped text e)
  | .ok a => .ok a

def orFail {α : Type} (p : Conn α) (text : Str) : Conn α :=
  .mk (p.run.bind fun r => .ret (wrap text r))

def newBuf : Bytes := List.replicate maxAddrLen 0

/-- The end of `ClientConnect`: the header of the reply, and an address. -/
def readReply (buf : Bytes) : Conn Unit := do
  let buf ← readInto buf 0 4
  let rep ← check (index buf 1)
  if rep ≠ 0 then throw (.reply rep)
  let _ ← readAddr newBuf
  return ()

def clientConnect (target : Str) : Conn Unit := do
  send [5, 1, 0]
  let buf ← readInto newBuf 0 2
  let method ← check (index buf 1)
  if method = 0xFF then throw errConnectionNotAllowed
  match parseAddr target with
  | none => throw errAddressNotSupported
  | some addr =>
    send ([5, 1, 0] ++ addr)
    readReply buf

/-- The end of `Handshake`: the header of the request, and the address. -/
def readRequest (buf : Bytes) : Conn (Addr × UInt8) := do
  let buf ← orFail (readInto buf 0 3) "failed to read request header"
  let cmd ← check (index buf 1)
  let addr ← orFail (readAddr buf) "failed to read target address"
  return (addr, cmd)

def handshake : Conn (Addr × UInt8) := do
  let buf ← orFail (readInto newBuf 0 2) "failed to read VER and NMETHODS"
  let nmethods ← check (index buf 1)
  let buf ← orFail (readInto buf 0 nmethods.toNat) "failed to read METHODS"
  orFail (send [5, 0]) "failed to write greeting response"
  readRequest buf

/-- The address of a reply without one. -/
def unspecified : Addr := [atypIPv4, 0, 0, 0, 0, 0, 0]

def writeReply (rep : UInt8) (addr : Option Addr) : Conn Unit :=
  send ([5, rep, 0] ++ addr.getD unspecified)

/-- The server: a handshake, the reply, and the bytes after it. -/
def serve (bound : Option Addr) (rest : Bytes) : Conn (Addr × UInt8) := do
  let request ← handshake
  writeReply 0 bound
  send rest
  return request

/-! ## A connection -/

def Result : Party → Type
  | .client => Except Err Unit
  | .server => Except Err (Addr × UInt8)

/-- Client and server before the first byte. -/
def start (target : Str) (bound : Option Addr) (rest : Bytes) : Conf UInt8 Result :=
  .mk₂ (clientConnect target).run (serve bound rest).run [] []

/-- In every run the server gets the address and the command CONNECT, the client succeeds, and
the bytes after the reply are left for it. -/
def Interoperates (target : Str) (a : Addr) (bound : Option Addr) (rest : Bytes) : Prop :=
  AlwaysEnds (start target bound rest) fun
    | .client => some (.ok (), rest)
    | .server => some (.ok (a, 1), [])

/-! ## The parts of a run -/

section

variable {α : Type} {s : Bytes}

theorem settle_send (b : Bytes) (k : Unit → Conn α) (s : Bytes) :
    (send b >>= k).run.settle s =
      (((k ()).run.settle s).1, ((k ()).run.settle s).2.1, b ++ ((k ()).run.settle s).2.2) := rfl

theorem settle_orFail_send (b : Bytes) (text : Str) (k : Unit → Conn α) (s : Bytes) :
    (orFail (send b) text >>= k).run.settle s =
      (((k ()).run.settle s).1, ((k ()).run.settle s).2.1, b ++ ((k ()).run.settle s).2.2) := rfl

/-- The text around an error does not matter to a program that succeeds. -/
theorem settle_orFail {p : Conn α} {left out : Bytes} {a : α}
    (h : p.run.settle s = (.ret (.ok a), left, out)) (text : Str) :
    (orFail p text).run.settle s = (.ret (.ok a), left, out) := by
  have hbind := Proc.settle_bind h fun r => .ret (wrap text r)
  rw [Proc.settle_ret, List.append_nil] at hbind
  exact hbind

theorem run_readInto {b : Bytes} {n : Nat} (hb : n ≤ b.length) :
    (readInto b 0 n).run = .read n fun
      | some got => .ret (.ok (b.take 0 ++ got ++ b.drop n))
      | none => .ret (.error .ended) := by
  unfold readInto
  rw [if_pos ⟨Nat.zero_le n, hb⟩]
  rfl

/-- A read that has too few bytes waits. -/
theorem settle_wait {b : Bytes} {n : Nat} (k : Bytes → Conn α) (hb : n ≤ b.length)
    (hs : s.length < n) :
    (readInto b 0 n >>= k).run.settle s = ((readInto b 0 n >>= k).run, s, []) := by
  change ((readInto b 0 n).run.bind (ExceptT.bindCont k)).settle s =
    ((readInto b 0 n).run.bind (ExceptT.bindCont k), s, [])
  rw [run_readInto hb]
  exact if_neg (Nat.not_le.mpr hs)

theorem settle_orFail_wait {b : Bytes} {n : Nat} (text : Str) (k : Bytes → Conn α)
    (hb : n ≤ b.length) (hs : s.length < n) :
    (orFail (readInto b 0 n) text >>= k).run.settle s =
      ((orFail (readInto b 0 n) text >>= k).run, s, []) := by
  change (((readInto b 0 n).run.bind _).bind (ExceptT.bindCont k)).settle s =
    (((readInto b 0 n).run.bind _).bind (ExceptT.bindCont k), s, [])
  rw [run_readInto hb]
  exact if_neg (Nat.not_le.mpr hs)

theorem settle_readInto_front {b got : Bytes} {n : Nat} (hb : n ≤ b.length)
    (hn : got.length = n) (s : Bytes) :
    (readInto b 0 n).run.settle (got ++ s) = (.ret (.ok (got ++ b.drop n)), s, []) := by
  subst hn
  rw [settle_readInto (Nat.zero_le _) hb (by simp)]
  simp

/-- A read that has its bytes, which are the first of the stream. -/
theorem settle_got {b got : Bytes} {n : Nat} (k : Bytes → Conn α) (hb : n ≤ b.length)
    (hn : got.length = n) (s : Bytes) :
    (readInto b 0 n >>= k).run.settle (got ++ s) = (k (got ++ b.drop n)).run.settle s :=
  settle_ok (settle_readInto_front hb hn s)

theorem settle_orFail_got {b got : Bytes} {n : Nat} (text : Str) (k : Bytes → Conn α)
    (hb : n ≤ b.length) (hn : got.length = n) (s : Bytes) :
    (orFail (readInto b 0 n) text >>= k).run.settle (got ++ s) =
      (k (got ++ b.drop n)).run.settle s :=
  settle_ok (settle_orFail (settle_readInto_front hb hn s) text)

end

theorem length_newBuf : newBuf.length = maxAddrLen := List.length_replicate

/-- A read leaves the buffer as long as it was. -/
theorem length_got {b got : Bytes} {n : Nat} (hb : b.length = maxAddrLen) (hgot : got.length = n)
    (hn : n ≤ maxAddrLen) : (got ++ b.drop n).length = maxAddrLen := by
  rw [List.length_append, List.length_drop, hb, hgot]
  omega

/-- The client sends its methods, and with the answer it sends its request. -/
theorem client_runs {target : Str} {a : Addr} (h : parseAddr target = some a) :
    ∃ p, (clientConnect target).run.settle [] = (p, [], [5, 1, 0]) ∧
      ∃ buf : Bytes, buf.length = maxAddrLen ∧
        p.settle [5, 0] = ((readReply buf).run, [], [5, 1, 0] ++ a) := by
  have hbuf : 2 ≤ newBuf.length := length_newBuf ▸ by decide
  have htwo : ([5, 0] : Bytes).length = 2 := rfl
  have hlen := length_got length_newBuf htwo (by decide)
  unfold clientConnect
  rw [settle_send, settle_wait _ hbuf (by simp)]
  refine ⟨_, rfl, _, hlen, ?_⟩
  rw [show ([5, 0] : Bytes) = [5, 0] ++ [] from rfl, settle_got _ hbuf rfl, index_eq_ok rfl,
    check_ok_bind, if_neg (by decide)]
  dsimp only
  rw [h]
  dsimp only
  rw [settle_send]
  unfold readReply
  rw [settle_wait _ (hlen ▸ by decide) (by simp)]
  simp

/-- The server answers the methods, and with the request it has the address and replies. -/
theorem server_runs (bound : Option Addr) (rest : Bytes) {a : Addr}
    (h : wireLen a = some a.length) :
    ∃ p, (serve bound rest).run.settle [5, 1, 0] = (p, [], [5, 0]) ∧
      p.settle ([5, 1, 0] ++ a) =
        (.ret (.ok (a, 1)), [], [5, 0, 0] ++ bound.getD unspecified ++ rest) := by
  have hbuf : 2 ≤ newBuf.length := length_newBuf ▸ by decide
  have htwo : ([5, 1] : Bytes).length = 2 := rfl
  have hone : ([0] : Bytes).length = (1 : UInt8).toNat := rfl
  have hthree : ([5, 1, 0] : Bytes).length = 3 := rfl
  have hlen := length_got (length_got length_newBuf htwo (by decide)) hone (by decide)
  have hlast := length_got hlen hthree (by decide)
  have haddr := settle_readAddr (Nat.le_of_eq hlast.symm) (wireAddr_append h [])
  rw [List.append_nil, List.drop_length] at haddr
  unfold serve handshake readRequest
  simp only [bind_assoc]
  rw [show ([5, 1, 0] : Bytes) = [5, 1] ++ ([0] ++ []) from rfl, settle_orFail_got _ _ hbuf htwo,
    index_eq_ok rfl, check_ok_bind, settle_orFail_got _ _ (by simp) hone, settle_orFail_send,
    settle_orFail_wait _ _ (hlen ▸ by decide) (by simp)]
  refine ⟨_, rfl, ?_⟩
  dsimp only
  rw [show ([5, 1] ++ ([0] ++ []) : Bytes) = [5, 1, 0] from rfl,
    settle_orFail_got _ _ (hlen ▸ by decide) hthree, index_eq_ok rfl, check_ok_bind,
    settle_ok (settle_orFail haddr _)]
  change (_, _, [5, 0, 0] ++ bound.getD unspecified ++ (rest ++ [])) = _
  rw [List.append_nil]

/-! ## The reply -/

/-- The client at the reply, with everything the server sends. -/
def taken (buf sent : Bytes) : Proc UInt8 (Except Err Unit) × Bytes × Bytes :=
  (readReply buf).run.settle sent

/-- The client takes the first byte of the bound address for a part of the header. -/
theorem taken_eq {buf : Bytes} (hbuf : buf.length = maxAddrLen) (t : UInt8) (sent : Bytes) :
    taken buf ([5, 0, 0, t] ++ sent) =
      (readAddr newBuf >>= fun _ => pure ()).run.settle sent := by
  have hfour : ([5, 0, 0, t] : Bytes).length = 4 := rfl
  unfold taken readReply
  rw [settle_got _ (hbuf ▸ by decide) hfour, index_eq_ok rfl, check_ok_bind, if_neg (by decide)]

theorem taken_ok {buf sent : Bytes} {a : Addr} (hbuf : buf.length = maxAddrLen) (t : UInt8)
    (h : wireAddr sent = some a) :
    taken buf ([5, 0, 0, t] ++ sent) = (.ret (.ok ()), sent.drop a.length, []) := by
  rw [taken_eq hbuf, settle_ok (settle_readAddr (Nat.le_of_eq length_newBuf.symm) h)]
  rfl

/-- A program that fails on the stream that ends has not succeeded on the open one. -/
theorem not_ok_of_runOn {p : Proc UInt8 (Except Err Unit)} {s left : Bytes} {e : Err}
    (h : p.runOn s = (.error e, left, [])) :
    (p.settle s).2.2 = [] ∧ ∀ u, (p.settle s).1 ≠ .ret (.ok u) := by
  rw [Proc.runOn_settle] at h
  obtain ⟨hres, hrest⟩ := Prod.mk.inj h
  refine ⟨(List.append_eq_nil_iff.mp (Prod.mk.inj hrest).2).1, fun u hret => ?_⟩
  rw [hret] at hres
  cases hres

/-- Without a second address the client writes nothing and does not succeed. -/
theorem taken_fails {buf sent : Bytes} (hbuf : buf.length = maxAddrLen)
    (h : wireAddr (sent.drop 1) = none) :
    (taken buf ([5, 0, 0] ++ sent)).2.2 = [] ∧
      ∀ u, (taken buf ([5, 0, 0] ++ sent)).1 ≠ .ret (.ok u) := by
  match sent with
  | [] =>
    have hfour : 4 ≤ buf.length := hbuf ▸ by decide
    have hshort : (readInto buf 0 4).run.runOn [5, 0, 0] = (.error .ended, [], []) :=
      runOn_readInto_short (Nat.zero_le 4) hfour (by decide)
    exact not_ok_of_runOn (runOn_error hshort)
  | t :: sent =>
    obtain ⟨e, left, hread, -⟩ := runOn_readAddr_none (Nat.le_of_eq length_newBuf.symm) h
    have hrun : (readAddr newBuf >>= fun _ => pure ()).run.runOn sent = (.error e, left, []) :=
      runOn_error hread
    have hfail := not_ok_of_runOn hrun
    rw [← taken_eq hbuf t] at hfail
    exact hfail

theorem result_ne {p : Proc UInt8 (Except Err Unit)} {s : Bytes} (h : ∀ u, p ≠ .ret (.ok u))
    (left : Bytes) : p.result s ≠ some (.ok (), left) := by
  cases p with
  | ret r =>
    intro hres
    cases hres
    exact h () rfl
  | write => exact nofun
  | read => exact nofun

/-- The client succeeds exactly with an address after the first byte, and leaves what follows. -/
theorem taken_result {buf : Bytes} (hbuf : buf.length = maxAddrLen) (sent : Bytes) :
    (taken buf ([5, 0, 0] ++ sent)).2.2 = [] ∧
      ∀ left, (taken buf ([5, 0, 0] ++ sent)).1.result (taken buf ([5, 0, 0] ++ sent)).2.1 =
        some (.ok (), left) ↔
      ∃ a, wireAddr (sent.drop 1) = some a ∧ (sent.drop 1).drop a.length = left := by
  cases h : wireAddr (sent.drop 1) with
  | none =>
    obtain ⟨hout, hfail⟩ := taken_fails hbuf h
    refine ⟨hout, fun left => iff_of_false (result_ne hfail left) ?_⟩
    rintro ⟨a, ha, -⟩
    cases ha
  | some a =>
    match sent with
    | t :: sent =>
      have htaken := taken_ok hbuf t h
      rw [List.drop_one, List.tail_cons] at htaken ⊢
      rw [show [5, 0, 0] ++ t :: sent = [5, 0, 0, t] ++ sent from rfl, htaken]
      exact ⟨rfl, fun left => by simp [Proc.result]⟩

/-- The bytes after an address are left exactly when the address is all that stood before
them. -/
theorem left_iff (b rest : Bytes) :
    (∃ a, wireAddr ((b ++ rest).drop 1) = some a ∧ ((b ++ rest).drop 1).drop a.length = rest) ↔
      wireAddr (b.drop 1) = some (b.drop 1) := by
  match b with
  | [] =>
    refine iff_of_false ?_ nofun
    rintro ⟨a, ha, hleft⟩
    obtain ⟨hlen, hsplit⟩ := wireAddr_spec ha
    have hpos := (wireLen_bounds hlen).1
    have hlens := congrArg List.length hleft
    simp only [List.nil_append, List.length_drop] at hlens
    have htotal := congrArg List.length hsplit
    simp only [List.nil_append, List.length_append, List.length_drop] at htotal
    omega
  | t :: b =>
    rw [List.cons_append, List.drop_one, List.tail_cons, List.drop_one, List.tail_cons]
    constructor
    · rintro ⟨a, ha, hleft⟩
      obtain ⟨hlen, hsplit⟩ := wireAddr_spec ha
      rw [hleft] at hsplit
      obtain rfl := List.append_cancel_right hsplit
      have hself := wireAddr_append hlen []
      rwa [List.append_nil] at hself
    · intro h
      obtain ⟨hlen, -⟩ := wireAddr_spec h
      exact ⟨b, wireAddr_append hlen rest, List.drop_left⟩

/-- Every run ends with the client after the reply and the server done. -/
theorem exists_ends (bound : Option Addr) (rest : Bytes) {target : Str} {a : Addr}
    (h : parseAddr target = some a) :
    ∃ (n : Nat) (buf : Bytes), buf.length = maxAddrLen ∧ Ends n (start target bound rest)
      (Conf.mk₂ (α := Result) (taken buf ([5, 0, 0] ++ (bound.getD unspecified ++ rest))).1
        (.ret (.ok (a, 1))) (taken buf ([5, 0, 0] ++ (bound.getD unspecified ++ rest))).2.1
        []).result := by
  obtain ⟨p, hmethods, buf, hbuf, hrequest⟩ := client_runs h
  obtain ⟨q, hanswer, hreply⟩ := server_runs bound rest (wireLen_parseAddr h)
  rw [List.append_assoc] at hreply
  generalize bound.getD unspecified ++ rest = sent at *
  have hquiet : (taken buf ([5, 0, 0] ++ sent)).1.Quiet (taken buf ([5, 0, 0] ++ sent)).2.1 :=
    Proc.quiet_settle _ _
  obtain ⟨hout, -⟩ := taken_result hbuf sent
  have htaken : (readReply buf).run.settle ([5, 0, 0] ++ sent) =
      ((taken buf ([5, 0, 0] ++ sent)).1, (taken buf ([5, 0, 0] ++ sent)).2.1, []) :=
    Prod.ext rfl (Prod.ext rfl hout)
  -- from the end of the run to its start, one party at a time
  obtain ⟨n, hends⟩ := exists_ends_rest (α := Result) (q := .ret (.ok (a, 1))) (t := []) hquiet
    trivial
  obtain ⟨n, hends⟩ := Ends.settle_client (α := Result) (t := []) htaken hends
  obtain ⟨n, hends⟩ := Ends.settle_server (α := Result) (s := []) hreply hends
  obtain ⟨n, hends⟩ := Ends.settle_client (α := Result) (t := []) hrequest hends
  obtain ⟨n, hends⟩ := Ends.settle_server (α := Result) (s := []) hanswer hends
  obtain ⟨n, hends⟩ := Ends.settle_client (α := Result) (t := []) hmethods hends
  exact ⟨n, buf, hbuf, hends⟩

/-! ## The client and the server together -/

theorem interoperates_iff {target : Str} {a : Addr} (h : parseAddr target = some a)
    (bound : Option Addr) (rest : Bytes) :
    Interoperates target a bound rest ↔
      wireAddr ((bound.getD unspecified).drop 1) = some ((bound.getD unspecified).drop 1) := by
  obtain ⟨n, buf, hbuf, hends⟩ := exists_ends bound rest h
  unfold Interoperates
  rw [hends.always_iff, ← left_iff _ rest, ← (taken_result hbuf _).2]
  constructor
  · intro hall
    exact hall .client
  · intro hclient x
    cases x
    · exact hclient
    · rfl

/-- A byte that is the type of no address is all that is read. -/
theorem settle_readAddr_unknown {b : Bytes} {atyp : UInt8} (hb : b.length = maxAddrLen)
    (h : atyp ≠ atypDomainName ∧ atyp ≠ atypIPv4 ∧ atyp ≠ atypIPv6) (k : Addr → Conn Unit)
    (s : Bytes) :
    (readAddr b >>= k).run.settle (atyp :: s) = (.ret (.error errAddressNotSupported), s, []) := by
  have hone : ([atyp] : Bytes).length = 1 := rfl
  unfold readAddr
  rw [if_neg (Nat.not_lt.mpr (Nat.le_of_eq hb.symm))]
  dsimp only
  rw [bind_assoc, show atyp :: s = [atyp] ++ s from rfl,
    settle_got _ (hb ▸ by decide) hone, index_eq_ok rfl, check_ok_bind, if_neg h.1, if_neg h.2.1,
    if_neg h.2.2]
  rfl

/-- With the usual reply the client fails on the first zero of the address, and the five bytes
after it are left before the data. -/
theorem usual_reply_ends {target : Str} {a : Addr} (h : parseAddr target = some a)
    (rest : Bytes) :
    AlwaysEnds (start target none rest) fun
      | .client => some (.error errAddressNotSupported, [0, 0, 0, 0, 0] ++ rest)
      | .server => some (.ok (a, 1), []) := by
  obtain ⟨n, buf, hbuf, hends⟩ := exists_ends none rest h
  have htaken : taken buf ([5, 0, 0, 1] ++ (0 :: ([0, 0, 0, 0, 0] ++ rest))) =
      (.ret (.error errAddressNotSupported), [0, 0, 0, 0, 0] ++ rest, []) := by
    rw [taken_eq hbuf, settle_readAddr_unknown length_newBuf (by decide)]
  refine (hends.always_iff _).mpr fun x => ?_
  cases x with
  | client =>
    change Proc.result (taken buf ([5, 0, 0, 1] ++ (0 :: ([0, 0, 0, 0, 0] ++ rest)))).1
      (taken buf ([5, 0, 0, 1] ++ (0 :: ([0, 0, 0, 0, 0] ++ rest)))).2.1 = _
    rw [htaken]
    rfl
  | server => rfl

/-- The client and the server understand each other exactly when the bound address of the reply,
without its first byte, is an address again. The reply without a bound address never is one. -/
theorem connects_iff_second_address {target : Bytes} {a : Addr}
    (h : parseAddr (text target) = some a) (rest : Bytes) :
    (∀ bound, Interoperates (text target) a bound rest ↔
      splitAddr ((bound.getD unspecified).drop 1) =
        .ok (some ((bound.getD unspecified).drop 1))) ∧
      ¬ Interoperates (text target) a none rest := by
  have hiff : ∀ bound, Interoperates (text target) a bound rest ↔
      splitAddr ((bound.getD unspecified).drop 1) =
        .ok (some ((bound.getD unspecified).drop 1)) := by
    intro bound
    rw [interoperates_iff h, splitAddr_eq, Except.ok.injEq]
  refine ⟨hiff, ?_⟩
  rw [hiff]
  decide

/-- A reply from 3.2.10.0 on port 80 is taken: after its first byte there is a name of two
bytes. -/
theorem connects_from_3_2_10_0 :
    Interoperates (text [97, 46, 99, 110, 58, 56, 48]) [3, 4, 97, 46, 99, 110, 0, 80]
      (some [1, 3, 2, 10, 0, 0, 80]) [7] :=
  ((connects_iff_second_address (by decide) [7]).1 _).mpr (by decide)

/-- A client that asks for a.cn:80 gets the usual reply, and fails with the error for an address
that is not supported. Five bytes of the reply are left before the data. -/
theorem usual_reply_fails :
    AlwaysEnds (start (text [97, 46, 99, 110, 58, 56, 48]) none [7])
      (fun
        | .client => some (.error errAddressNotSupported, [0, 0, 0, 0, 0, 7])
        | .server => some (.ok ([3, 4, 97, 46, 99, 110, 0, 80], 1), [])) ∧
      ¬ Interoperates (text [97, 46, 99, 110, 58, 56, 48]) [3, 4, 97, 46, 99, 110, 0, 80] none
        [7] := by
  have hparse : parseAddr (text [97, 46, 99, 110, 58, 56, 48]) =
      some [3, 4, 97, 46, 99, 110, 0, 80] := by decide
  refine ⟨usual_reply_ends hparse [7], ?_⟩
  rw [interoperates_iff hparse]
  decide

end socks
