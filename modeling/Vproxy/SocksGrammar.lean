-- What a program on a SOCKS connection accepts. Each call has a rule that says on which streams
-- it succeeds, with what result and what it leaves of the stream. By the rules, the grammar of a
-- whole program can be read off its text.
import Vproxy.SocksConnect

open go go.net duplex

namespace socks

variable {α γ : Type}

/-- On a stream that ends the program succeeds with this result and leaves these bytes. -/
def Yields (p : Conn α) (s : Bytes) (a : α) (left : Bytes) : Prop :=
  (p.run.runOn s).1 = .ok a ∧ (p.run.runOn s).2.1 = left

/-- The program fails on the stream. -/
def Fails (p : Conn α) (s : Bytes) : Prop := ∃ e, (p.run.runOn s).1 = .error e

theorem yields_or_fails (p : Conn α) (s : Bytes) : (∃ a left, Yields p s a left) ∨ Fails p s := by
  cases h : (p.run.runOn s).1 with
  | ok a => exact Or.inl ⟨a, _, h, rfl⟩
  | error e => exact Or.inr ⟨e, h⟩

/-! ## The rules -/

theorem yields_pure (a b : α) (s left : Bytes) :
    Yields (pure a) s b left ↔ a = b ∧ s = left := by
  constructor
  · rintro ⟨ha, hleft⟩
    exact ⟨Except.ok.inj ha, hleft⟩
  · rintro ⟨rfl, rfl⟩
    exact ⟨rfl, rfl⟩

theorem yields_bind (p : Conn α) (k : α → Conn γ) (s : Bytes) (c : γ) (left : Bytes) :
    Yields (p >>= k) s c left ↔ ∃ a mid, Yields p s a mid ∧ Yields (k a) mid c left := by
  have hrun : (p >>= k).run.runOn s = _ := Proc.runOn_bind p.run (ExceptT.bindCont k) s
  unfold Yields
  rw [hrun]
  cases hp : (p.run.runOn s).1 with
  | ok a =>
    constructor
    · rintro ⟨hc, hleft⟩
      exact ⟨a, _, ⟨rfl, rfl⟩, hc, hleft⟩
    · rintro ⟨a', mid, ⟨ha, rfl⟩, hc, hleft⟩
      cases ha
      exact ⟨hc, hleft⟩
  | error e =>
    constructor
    · rintro ⟨hc, -⟩
      cases hc
    · rintro ⟨a', mid, ⟨ha, -⟩, -⟩
      cases ha

theorem yields_check (x : Except Err α) (s : Bytes) (a : α) (left : Bytes) :
    Yields (check x) s a left ↔ x = .ok a ∧ s = left := Iff.rfl

theorem yields_send (b s left : Bytes) (u : Unit) : Yields (send b) s u left ↔ s = left := by
  constructor
  · rintro ⟨-, hleft⟩
    exact hleft
  · rintro rfl
    exact ⟨rfl, rfl⟩

theorem yields_orFail (p : Conn α) (text : Str) (s : Bytes) (a : α) (left : Bytes) :
    Yields (orFail p text) s a left ↔ Yields p s a left := by
  have hrun : (orFail p text).run.runOn s = _ :=
    Proc.runOn_bind p.run (fun r => .ret (wrap text r)) s
  unfold Yields
  rw [hrun]
  refine and_congr ?_ Iff.rfl
  change wrap text (p.run.runOn s).1 = .ok a ↔ _
  unfold wrap
  split
  · rename_i h
    simp [h]
  · rename_i h
    simp [h]
  · rename_i h
    rw [h]

/-- A read takes the first bytes of the stream. -/
theorem yields_readInto {b : Bytes} {n : Nat} (hb : n ≤ b.length) (s b' left : Bytes) :
    Yields (readInto b 0 n) s b' left ↔
      ∃ got, got.length = n ∧ s = got ++ left ∧ b' = got ++ b.drop n := by
  constructor
  · intro h
    by_cases hs : n ≤ s.length
    · have hgot : (s.take n).length = n := by simpa using hs
      have hrun := Proc.runOn_of_settle (settle_readInto_front hb hgot (s.drop n))
      rw [List.take_append_drop] at hrun
      obtain ⟨hok, hleft⟩ := h
      rw [hrun] at hok hleft
      refine ⟨s.take n, hgot, ?_, (Except.ok.inj hok).symm⟩
      rw [← hleft, List.take_append_drop]
    · have hrun : (readInto b 0 n).run.runOn s = _ :=
        runOn_readInto_short (Nat.zero_le n) hb (by omega)
      rw [Yields, hrun] at h
      cases h.1
  · rintro ⟨got, hgot, rfl, rfl⟩
    rw [Yields, Proc.runOn_of_settle (settle_readInto_front hb hgot left)]
    exact ⟨rfl, rfl⟩

/-- `readAddr` takes one address. -/
theorem yields_readAddr {buf : Bytes} (hbuf : maxAddrLen ≤ buf.length) (s : Bytes) (a : Addr)
    (left : Bytes) :
    Yields (readAddr buf) s a left ↔ wireLen a = some a.length ∧ s = a ++ left := by
  constructor
  · rintro ⟨hok, hleft⟩
    have haddr := (runOn_readAddr_iff hbuf a).mp hok
    obtain ⟨hwire, hs⟩ := wireAddr_spec haddr
    rw [Proc.runOn_of_settle (settle_readAddr hbuf haddr)] at hleft
    exact ⟨hwire, hleft ▸ hs⟩
  · rintro ⟨hwire, rfl⟩
    rw [Yields, Proc.runOn_of_settle (settle_readAddr hbuf (wireAddr_append hwire left)),
      List.drop_left]
    exact ⟨rfl, rfl⟩

/-! ## The server -/

/-- A greeting with its methods, the header of a request, and an address. -/
structure Shape (s : Bytes) (greeting : UInt8) (methods : Bytes) (ver cmd rsv : UInt8) (a : Addr)
    (left : Bytes) : Prop where
  addr : wireLen a = some a.length
  stream : ∃ n : UInt8, methods.length = n.toNat ∧
    s = greeting :: n :: (methods ++ ver :: cmd :: rsv :: (a ++ left))

theorem yields_readRequest {buf : Bytes} (hbuf : buf.length = maxAddrLen) (s : Bytes) (a : Addr)
    (cmd : UInt8) (left : Bytes) :
    Yields (readRequest buf) s (a, cmd) left ↔
      wireLen a = some a.length ∧ ∃ ver rsv, s = ver :: cmd :: rsv :: (a ++ left) := by
  have hthree : 3 ≤ buf.length := hbuf ▸ by decide
  unfold readRequest
  simp only [yields_bind, yields_orFail, yields_readInto hthree, yields_check, yields_pure]
  constructor
  · rintro ⟨b, mid, ⟨got, hgot, rfl, rfl⟩, c, mid', ⟨hc, rfl⟩, a', mid'', haddr, heq, rfl⟩
    obtain ⟨ver, cmd', rsv, rfl⟩ := List.length_eq_three.mp hgot
    have hlen := length_got hbuf hgot (by decide)
    obtain ⟨hwire, rfl⟩ := (yields_readAddr (Nat.le_of_eq hlen.symm) _ _ _).mp haddr
    cases hc
    cases heq
    exact ⟨hwire, ver, rsv, rfl⟩
  · rintro ⟨hwire, ver, rsv, rfl⟩
    have hgot : ([ver, cmd, rsv] : Bytes).length = 3 := rfl
    have hlen := length_got hbuf hgot (by decide)
    refine ⟨_, _, ⟨[ver, cmd, rsv], hgot, rfl, rfl⟩, cmd, _, ⟨rfl, rfl⟩, a, left, ?_, rfl, rfl⟩
    exact (yields_readAddr (Nat.le_of_eq hlen.symm) _ _ _).mpr ⟨hwire, rfl⟩

/-- `Handshake` accepts every greeting and every request of the right shape. -/
theorem yields_handshake (s : Bytes) (a : Addr) (cmd : UInt8) (left : Bytes) :
    Yields handshake s (a, cmd) left ↔
      ∃ greeting methods ver rsv, Shape s greeting methods ver cmd rsv a left := by
  have htwo : 2 ≤ newBuf.length := length_newBuf ▸ by decide
  have hmethods : ∀ {x n : UInt8}, n.toNat ≤ ([x, n] ++ newBuf.drop 2).length := by
    intro x n
    rw [length_got length_newBuf (n := 2) rfl (by decide)]
    exact Nat.le_trans (Nat.le_of_lt n.toNat_lt) (by decide)
  unfold handshake
  simp only [yields_bind, yields_orFail, yields_readInto htwo, yields_check, yields_send]
  constructor
  · rintro ⟨b, mid, ⟨got, hgot, rfl, rfl⟩, n, mid', ⟨hn, rfl⟩, b', mid'', hread, u, mid''', rfl,
      hrequest⟩
    obtain ⟨greeting, n', rfl⟩ := List.length_eq_two.mp hgot
    cases hn
    obtain ⟨methods, hlen, rfl, rfl⟩ := (yields_readInto hmethods _ _ _).mp hread
    have hbuf := length_got (length_got length_newBuf hgot (by decide)) hlen
      (Nat.le_trans (Nat.le_of_lt n.toNat_lt) (by decide))
    obtain ⟨hwire, ver, rsv, rfl⟩ := (yields_readRequest hbuf _ _ _ _).mp hrequest
    exact ⟨greeting, methods, ver, rsv, hwire, n, hlen, rfl⟩
  · rintro ⟨greeting, methods, ver, rsv, hwire, n, hlen, rfl⟩
    have hgot : ([greeting, n] : Bytes).length = 2 := rfl
    have hbuf := length_got (length_got length_newBuf hgot (by decide)) hlen
      (Nat.le_trans (Nat.le_of_lt n.toNat_lt) (by decide))
    have hread := (yields_readInto (hmethods (x := greeting)) _ _
      (ver :: cmd :: rsv :: (a ++ left))).mpr ⟨methods, hlen, rfl, rfl⟩
    have hrequest := (yields_readRequest hbuf _ a cmd left).mpr ⟨hwire, ver, rsv, rfl⟩
    exact ⟨_, _, ⟨[greeting, n], hgot, rfl, rfl⟩, n, _, ⟨rfl, rfl⟩, _, _, hread, (), _, rfl,
      hrequest⟩

end socks
