-- SOCKS addresses (socks/client.go). An address is read from a slice or from a stream, and it
-- has a text host:port. All of these agree on where an address ends and what it is.
import Vproxy.AddrText
import Vproxy.Duplex

open go go.net duplex

namespace socks

abbrev Bytes := List UInt8

/-- An address with its type in front and its port behind. -/
abbrev Addr := List UInt8

/-- What can go wrong. `ended` is the end of the stream in a read, `outOfRange` is the panic of
an index or a slice, and `wrapped` is an error in the text of another. -/
inductive Err where
  | shortBuffer
  | ended
  | reply (code : UInt8)
  | outOfRange
  | wrapped (text : Str) (e : Err)
  deriving DecidableEq, Repr

def atypIPv4 : UInt8 := 1
def atypDomainName : UInt8 := 3
def atypIPv6 : UInt8 := 4

def errConnectionNotAllowed : Err := .reply 2
def errAddressNotSupported : Err := .reply 8

def maxAddrLen : Nat := 1 + 1 + 255 + 2

/-! ## Slices -/

def index (b : Bytes) (i : Nat) : Except Err UInt8 :=
  match b[i]? with
  | some x => .ok x
  | none => .error .outOfRange

/-- `b[lo:hi]`. -/
def slice (b : Bytes) (lo hi : Nat) : Except Err Bytes :=
  if lo ≤ hi ∧ hi ≤ b.length then .ok ((b.take hi).drop lo) else .error .outOfRange

theorem index_eq_ok {b : Bytes} {i : Nat} {x : UInt8} (h : b[i]? = some x) :
    index b i = .ok x := by
  rw [index, h]

theorem slice_eq_ok {b : Bytes} {lo hi : Nat} (h : lo ≤ hi) (hb : hi ≤ b.length) :
    slice b lo hi = .ok ((b.take hi).drop lo) := if_pos ⟨h, hb⟩

theorem ok_bind {α γ : Type} (a : α) (k : α → Except Err γ) : (.ok a >>= k) = k a := rfl

/-! ## The text of an address -/

/-- The port in the bytes `i` and `i + 1`. -/
def portAt (a : Addr) (i : Nat) : Except Err Str := do
  let hi ← index a i
  let lo ← index a (i + 1)
  return itoa (hi.toNat <<< 8 ||| lo.toNat)

/-- `Addr.String`. -/
def Addr.string (a : Addr) : Except Err Str := do
  let atyp ← index a 0
  if atyp = atypDomainName then
    let n ← index a 1
    let host ← slice a 2 (2 + n.toNat)
    let port ← portAt a (2 + n.toNat)
    return joinHostPort (text host) port
  else if atyp = atypIPv4 then
    let ip ← slice a 1 (1 + 4)
    let port ← portAt a (1 + 4)
    return joinHostPort (ipString ip) port
  else if atyp = atypIPv6 then
    let ip ← slice a 1 (1 + 16)
    let port ← portAt a (1 + 16)
    return joinHostPort (ipString ip) port
  else return joinHostPort [] []

/-- The part of an address before the port. -/
def hostBytes (host : Str) : Option Bytes :=
  match parseIP host with
  | some ip =>
    match to4 ip with
    | some ip4 => some (atypIPv4 :: ip4)
    | none => some (atypIPv6 :: ip)
  | none =>
    if 255 < host.length then none
    else some (atypDomainName :: UInt8.ofNat host.length :: bytes host)

/-- The two bytes of a port. -/
def portBytes (p : Nat) : Bytes := [UInt8.ofNat (p >>> 8), UInt8.ofNat p]

/-- `ParseAddr` of a string of bytes; nil is `none`. -/
def parseAddr (s : Str) : Option Addr := do
  let (host, port) ← splitHostPort s
  let front ← hostBytes host
  let portnum ← parseUint port 16
  return front ++ portBytes portnum

/-! ## Addresses from a slice and from a stream -/

/-- `SplitAddr`; nil is `none`. -/
def splitAddr (b : Bytes) : Except Err (Option Addr) := do
  if b.length < 1 then return none
  let atyp ← index b 0
  if atyp = atypDomainName then
    if b.length < 2 then return none
    let n ← index b 1
    if b.length < 1 + 1 + n.toNat + 2 then return none
    some <$> slice b 0 (1 + 1 + n.toNat + 2)
  else if atyp = atypIPv4 then
    if b.length < 1 + 4 + 2 then return none
    some <$> slice b 0 (1 + 4 + 2)
  else if atyp = atypIPv6 then
    if b.length < 1 + 16 + 2 then return none
    some <$> slice b 0 (1 + 16 + 2)
  else return none

/-- A program on a connection that may fail. -/
abbrev Conn := ExceptT Err (Proc UInt8)

def check {α : Type} (x : Except Err α) : Conn α := .mk (.ret x)

/-- `io.ReadFull(r, b[lo:hi])`, with the buffer after it. -/
def readInto (b : Bytes) (lo hi : Nat) : Conn Bytes := .mk <|
  if lo ≤ hi ∧ hi ≤ b.length then
    .read (hi - lo) fun
      | some got => .ret (.ok (b.take lo ++ got ++ b.drop hi))
      | none => .ret (.error .ended)
  else .ret (.error .outOfRange)

def readAddr (b : Bytes) : Conn Addr := do
  if b.length < maxAddrLen then throw .shortBuffer
  let b ← readInto b 0 1
  let atyp ← check (index b 0)
  if atyp = atypDomainName then
    let b ← readInto b 1 2
    let n ← check (index b 1)
    let b ← readInto b 2 (2 + n.toNat + 2)
    check (slice b 0 (1 + 1 + n.toNat + 2))
  else if atyp = atypIPv4 then
    let b ← readInto b 1 (1 + 4 + 2)
    check (slice b 0 (1 + 4 + 2))
  else if atyp = atypIPv6 then
    let b ← readInto b 1 (1 + 16 + 2)
    check (slice b 0 (1 + 16 + 2))
  else throw errAddressNotSupported

/-! ## Where an address ends -/

/-- The length of an address that starts with these bytes, as soon as they tell. -/
def wireLen : Bytes → Option Nat
  | [] => none
  | atyp :: rest =>
    if atyp = atypDomainName then rest.head?.map fun n => 1 + 1 + n.toNat + 2
    else if atyp = atypIPv4 then some (1 + 4 + 2)
    else if atyp = atypIPv6 then some (1 + 16 + 2)
    else none

/-- The address that the bytes start with, when all of it is there. -/
def wireAddr (b : Bytes) : Option Addr :=
  (wireLen b).bind fun n => if n ≤ b.length then some (b.take n) else none

/-- The three shapes of an address. -/
theorem wireLen_cases {b : Bytes} {n : Nat} (h : wireLen b = some n) :
    (∃ k rest, b = atypDomainName :: k :: rest ∧ n = 1 + 1 + k.toNat + 2) ∨
      (∃ rest, b = atypIPv4 :: rest ∧ n = 1 + 4 + 2) ∨
      ∃ rest, b = atypIPv6 :: rest ∧ n = 1 + 16 + 2 := by
  match b, h with
  | atyp :: rest, h =>
    unfold wireLen at h
    by_cases hdomain : atyp = atypDomainName
    · subst hdomain
      match rest, h with
      | k :: rest, h => exact Or.inl ⟨k, rest, rfl, (Option.some.inj h).symm⟩
    by_cases h4 : atyp = atypIPv4
    · subst h4
      exact Or.inr (Or.inl ⟨rest, rfl, (Option.some.inj h).symm⟩)
    by_cases h6 : atyp = atypIPv6
    · subst h6
      exact Or.inr (Or.inr ⟨rest, rfl, (Option.some.inj h).symm⟩)
    · simp [hdomain, h4, h6] at h

theorem wireLen_bounds {b : Bytes} {n : Nat} (h : wireLen b = some n) :
    4 ≤ n ∧ n ≤ maxAddrLen := by
  unfold maxAddrLen
  obtain ⟨k, rest, rfl, rfl⟩ | ⟨rest, rfl, rfl⟩ | ⟨rest, rfl, rfl⟩ := wireLen_cases h
  · have hlt := k.toNat_lt
    omega
  · omega
  · omega

theorem wireLen_append {b : Bytes} {n : Nat} (h : wireLen b = some n) (r : Bytes) :
    wireLen (b ++ r) = some n := by
  obtain ⟨k, rest, rfl, rfl⟩ | ⟨rest, rfl, rfl⟩ | ⟨rest, rfl, rfl⟩ := wireLen_cases h <;> rfl

theorem wireAddr_append {a : Addr} (h : wireLen a = some a.length) (r : Bytes) :
    wireAddr (a ++ r) = some a := by
  unfold wireAddr
  rw [wireLen_append h, Option.bind_some, if_pos (by simp), List.take_left]

theorem length_lt_of_wireAddr {b : Bytes} {n : Nat} (hn : wireLen b = some n)
    (h : wireAddr b = none) : b.length < n := by
  unfold wireAddr at h
  rw [hn, Option.bind_some] at h
  split at h
  · cases h
  · rename_i hle
    exact Nat.not_le.mp hle

/-- The address is a beginning of the bytes, and it is an address by itself. -/
theorem wireAddr_spec {b a : Bytes} (h : wireAddr b = some a) :
    wireLen a = some a.length ∧ b = a ++ b.drop a.length := by
  obtain ⟨n, hn, ha⟩ := Option.bind_eq_some_iff.mp h
  split at ha
  · rename_i hle
    cases ha
    have hlen : (b.take n).length = n := by simpa using hle
    rw [hlen]
    refine ⟨?_, (List.take_append_drop n b).symm⟩
    -- the first two bytes tell the length, and they are in the part that is taken
    obtain ⟨m, rfl⟩ : ∃ m, n = m + 2 := ⟨n - 2, by have := (wireLen_bounds hn).1; omega⟩
    match b, hn with
    | [_], hn => simp at hle
    | _ :: _ :: _, hn => exact hn
  · cases ha

/-- The end of `SplitAddr`, once the length is known. -/
theorem slice_front (b : Bytes) (n : Nat) :
    (if b.length < n then .ok none else some <$> slice b 0 n : Except Err (Option Addr)) =
      .ok (if n ≤ b.length then some (b.take n) else none) := by
  split
  · rename_i hlt
    rw [if_neg (Nat.not_le.mpr hlt)]
  · rename_i hlt
    rw [slice_eq_ok (Nat.zero_le n) (Nat.not_lt.mp hlt), if_pos (Nat.not_lt.mp hlt)]
    rfl

/-- `SplitAddr` finds the address, and no index is out of range. -/
theorem splitAddr_eq (b : Bytes) : splitAddr b = .ok (wireAddr b) := by
  match b with
  | [] => rfl
  | atyp :: rest =>
    unfold wireAddr wireLen
    by_cases hdomain : atyp = atypDomainName
    · subst hdomain
      cases rest with
      | nil => rfl
      | cons n rest => exact slice_front _ _
    by_cases h4 : atyp = atypIPv4
    · subst h4
      exact slice_front _ _
    by_cases h6 : atyp = atypIPv6
    · subst h6
      exact slice_front _ _
    · dsimp only
      rw [if_neg hdomain, if_neg h4, if_neg h6, Option.bind_none]
      change (if atyp = atypDomainName then _ else _) = _
      rw [if_neg hdomain, if_neg h4, if_neg h6]
      rfl

/-! ## The reader -/

@[simp] theorem check_ok_bind {α γ : Type} (a : α) (k : α → Conn γ) :
    (check (.ok a) >>= k) = k a := rfl

section

variable {α γ : Type} {p : Conn α} {k : α → Conn γ} {s left : Bytes}

theorem settle_ok {a : α} (h : p.run.settle s = (.ret (.ok a), left, [])) :
    (p >>= k).run.settle s = (k a).run.settle left := by
  have hbind := Proc.settle_bind h (ExceptT.bindCont k)
  rw [List.nil_append] at hbind
  exact hbind

theorem runOn_ok {a : α} (h : p.run.runOn s = (.ok a, left, [])) :
    (p >>= k).run.runOn s = (k a).run.runOn left := by
  have hbind := Proc.runOn_bind p.run (ExceptT.bindCont k) s
  rw [h, List.nil_append] at hbind
  exact hbind

theorem runOn_error {e : Err} (h : p.run.runOn s = (.error e, left, [])) :
    (p >>= k).run.runOn s = (.error e, left, []) := by
  have hbind := Proc.runOn_bind p.run (ExceptT.bindCont k) s
  rw [h, List.nil_append] at hbind
  exact hbind

end

section

variable {b s : Bytes} {lo hi : Nat}

theorem settle_readInto (hlo : lo ≤ hi) (hhi : hi ≤ b.length) (hs : hi - lo ≤ s.length) :
    (readInto b lo hi).run.settle s =
      (.ret (.ok (b.take lo ++ s.take (hi - lo) ++ b.drop hi)), s.drop (hi - lo), []) := by
  unfold readInto
  rw [if_pos ⟨hlo, hhi⟩]
  exact Proc.settle_read hs

theorem runOn_readInto_short (hlo : lo ≤ hi) (hhi : hi ≤ b.length) (hs : s.length < hi - lo) :
    (readInto b lo hi).run.runOn s = (.error .ended, [], []) := by
  unfold readInto
  rw [if_pos ⟨hlo, hhi⟩]
  exact if_neg (Nat.not_le.mpr hs)

/-- The buffer up to the end of a read is what was there and what was read. -/
theorem slice_readInto (hlo : lo ≤ hi) (hhi : hi ≤ b.length) {got : Bytes}
    (hgot : got.length = hi - lo) :
    slice (b.take lo ++ got ++ b.drop hi) 0 hi = .ok (b.take lo ++ got) := by
  have hlen : (b.take lo ++ got).length = hi := by
    simp only [List.length_append, List.length_take, hgot]
    omega
  rw [slice_eq_ok (Nat.zero_le hi) (by simp only [List.length_append] at hlen ⊢; omega),
    List.drop_zero, List.take_left' hlen]

/-- A read up to the end of the address, and the slice after it. -/
theorem settle_readLast (hlo : lo ≤ hi) (hhi : hi ≤ b.length) (hs : hi - lo ≤ s.length) :
    (readInto b lo hi >>= fun b => check (slice b 0 hi)).run.settle s =
      (.ret (.ok (b.take lo ++ s.take (hi - lo))), s.drop (hi - lo), []) := by
  rw [settle_ok (settle_readInto hlo hhi hs), slice_readInto hlo hhi (by simpa using hs)]
  rfl

end

/-- `readAddr` takes the address off the stream, whatever was in its buffer. -/
theorem settle_readAddr {buf s : Bytes} {a : Addr} (hbuf : maxAddrLen ≤ buf.length)
    (h : wireAddr s = some a) :
    (readAddr buf).run.settle s = (.ret (.ok a), s.drop a.length, []) := by
  obtain ⟨n, hn, ha⟩ := Option.bind_eq_some_iff.mp h
  have hmax := (wireLen_bounds hn).2
  split at ha
  case isFalse => cases ha
  case isTrue hle =>
  cases ha
  have hlen : (s.take n).length = n := by simpa using hle
  rw [hlen]
  obtain ⟨x, y, buf, rfl⟩ := exists_cons_cons (Nat.le_trans (by decide) hbuf)
  have hfirst : ∀ atyp rest, (readInto (x :: y :: buf) 0 1).run.settle (atyp :: rest) =
      (.ret (.ok (atyp :: y :: buf)), rest, []) :=
    fun _ _ => settle_readInto (Nat.zero_le 1) (by simp) (by simp)
  unfold readAddr
  rw [if_neg (Nat.not_lt.mpr hbuf)]
  dsimp only
  simp only [List.length_cons] at hbuf
  obtain ⟨k, rest, rfl, rfl⟩ | ⟨rest, rfl, rfl⟩ | ⟨rest, rfl, rfl⟩ := wireLen_cases hn
  · have hsecond : (readInto (atypDomainName :: y :: buf) 1 2).run.settle (k :: rest) =
        (.ret (.ok (atypDomainName :: k :: buf)), rest, []) :=
      settle_readInto (by omega) (by simp) (by simp)
    rw [settle_ok (hfirst _ _), index_eq_ok rfl, check_ok_bind, if_pos rfl, settle_ok hsecond,
      index_eq_ok rfl, check_ok_bind]
    simp only [List.length_cons] at hle
    have hlast : (readInto (atypDomainName :: k :: buf) 2 (2 + k.toNat + 2) >>=
        fun b => check (slice b 0 (2 + k.toNat + 2))).run.settle rest = _ :=
      settle_readLast (by omega) (by simp; omega) (by omega)
    have hcount : 1 + 1 + k.toNat + 2 = 2 + k.toNat + 2 - 2 + 1 + 1 := by omega
    rw [show 1 + 1 + k.toNat + 2 = 2 + k.toNat + 2 from rfl, hlast, hcount]
    rfl
  · rw [settle_ok (hfirst _ _), index_eq_ok rfl, check_ok_bind, if_neg (by decide), if_pos rfl]
    exact settle_readLast (by omega) (by simp; omega) (by simpa using hle)
  · rw [settle_ok (hfirst _ _), index_eq_ok rfl, check_ok_bind, if_neg (by decide),
      if_neg (by decide), if_pos rfl]
    exact settle_readLast (by omega) (by simp; omega) (by simpa using hle)

/-- Where there is no address, `readAddr` fails, but no index is out of range. -/
theorem runOn_readAddr_none {buf s : Bytes} (hbuf : maxAddrLen ≤ buf.length)
    (h : wireAddr s = none) :
    ∃ e left, (readAddr buf).run.runOn s = (.error e, left, []) ∧ e ≠ .outOfRange := by
  obtain ⟨x, y, buf, rfl⟩ := exists_cons_cons (Nat.le_trans (by decide) hbuf)
  unfold readAddr
  rw [if_neg (Nat.not_lt.mpr hbuf)]
  dsimp only
  simp only [List.length_cons] at hbuf
  match s with
  | [] =>
    refine ⟨.ended, [], ?_, nofun⟩
    exact runOn_error (runOn_readInto_short (Nat.zero_le 1) (by simp) (by simp))
  | atyp :: rest =>
    have hfirst : (readInto (x :: y :: buf) 0 1).run.runOn (atyp :: rest) =
        (.ok (atyp :: y :: buf), rest, []) :=
      Proc.runOn_of_settle (settle_readInto (Nat.zero_le 1) (by simp) (by simp))
    rw [runOn_ok hfirst, index_eq_ok rfl, check_ok_bind]
    by_cases hdomain : atyp = atypDomainName
    · subst hdomain
      rw [if_pos rfl]
      match rest with
      | [] =>
        refine ⟨.ended, [], ?_, nofun⟩
        exact runOn_error (runOn_readInto_short (by omega) (by simp) (by simp))
      | k :: rest =>
        have hshort := length_lt_of_wireAddr rfl h
        simp only [List.length_cons] at hshort
        have hk := k.toNat_lt
        have hsecond : (readInto (atypDomainName :: y :: buf) 1 2).run.runOn (k :: rest) =
            (.ok (atypDomainName :: k :: buf), rest, []) :=
          Proc.runOn_of_settle (settle_readInto (by omega) (by simp) (by simp))
        rw [runOn_ok hsecond, index_eq_ok rfl, check_ok_bind]
        refine ⟨.ended, [], ?_, nofun⟩
        unfold maxAddrLen at hbuf
        exact runOn_error (runOn_readInto_short (by omega) (by simp; omega) (by omega))
    have hlast : ∀ n, n + 2 ≤ maxAddrLen → rest.length < n + 1 → ∃ e left,
        (readInto (atyp :: y :: buf) 1 (n + 2) >>= fun b => check (slice b 0 (n + 2))).run.runOn
          rest = (.error e, left, []) ∧ e ≠ .outOfRange := by
      intro n hn hshort
      refine ⟨.ended, [], ?_, nofun⟩
      exact runOn_error (runOn_readInto_short (by omega) (by simp; omega) (by omega))
    rw [if_neg hdomain]
    by_cases h4 : atyp = atypIPv4
    · subst h4
      have hshort := length_lt_of_wireAddr rfl h
      rw [if_pos rfl]
      exact hlast 5 (by decide) (by simp only [List.length_cons] at hshort; omega)
    by_cases h6 : atyp = atypIPv6
    · subst h6
      have hshort := length_lt_of_wireAddr rfl h
      rw [if_neg h4, if_pos rfl]
      exact hlast 17 (by decide) (by simp only [List.length_cons] at hshort; omega)
    · rw [if_neg h4, if_neg h6]
      exact ⟨_, rest, rfl, nofun⟩

/-- `readAddr` on a stream that ends. -/
theorem runOn_readAddr_iff {buf s : Bytes} (hbuf : maxAddrLen ≤ buf.length) (a : Addr) :
    ((readAddr buf).run.runOn s).1 = .ok a ↔ wireAddr s = some a := by
  cases h : wireAddr s with
  | some a' =>
    rw [Proc.runOn_of_settle (settle_readAddr hbuf h)]
    simp
  | none =>
    obtain ⟨e, left, hrun, -⟩ := runOn_readAddr_none hbuf h
    rw [hrun]
    simp

/-! ## The text and back -/

/-- The two bytes of a port give the port again. -/
theorem portBytes_value {p : Nat} (hp : p < 2 ^ 16) :
    (UInt8.ofNat (p >>> 8)).toNat <<< 8 ||| (UInt8.ofNat p).toNat = p := by
  simp only [UInt8.toNat_ofNat', Nat.shiftRight_eq_div_pow]
  rw [← Nat.shiftLeft_add_eq_or_of_lt (Nat.mod_lt p (by decide)), Nat.shiftLeft_eq]
  omega

theorem portAt_append (front : Bytes) {p : Nat} (hp : p < 2 ^ 16) :
    portAt (front ++ portBytes p) front.length = .ok (itoa p) := by
  have hhi : (front ++ portBytes p)[front.length]? = some (UInt8.ofNat (p >>> 8)) := by
    simp [portBytes]
  have hlo : (front ++ portBytes p)[front.length + 1]? = some (UInt8.ofNat p) := by
    simp [portBytes]
  unfold portAt
  rw [index_eq_ok hhi, ok_bind, index_eq_ok hlo, ok_bind, portBytes_value hp]
  rfl

theorem string_domain (host : Bytes) (hhost : host.length ≤ 255) {p : Nat} (hp : p < 2 ^ 16) :
    Addr.string (atypDomainName :: UInt8.ofNat host.length :: host ++ portBytes p) =
      .ok (joinHostPort (text host) (itoa p)) := by
  have hlen : (UInt8.ofNat host.length).toNat = host.length := by
    rw [UInt8.toNat_ofNat', Nat.mod_eq_of_lt (by omega)]
  have hport := portAt_append (atypDomainName :: UInt8.ofNat host.length :: host) hp
  have hfront : (atypDomainName :: UInt8.ofNat host.length :: host).length = 2 + host.length := by
    simp; omega
  have hslice : slice (atypDomainName :: UInt8.ofNat host.length :: host ++ portBytes p) 2
      (2 + host.length) = .ok host := by
    rw [slice_eq_ok (by omega) (by simp; omega), ← hfront, List.take_left]
    rfl
  rw [hfront] at hport
  unfold Addr.string
  rw [index_eq_ok (x := atypDomainName) rfl, ok_bind, if_pos rfl,
    index_eq_ok (x := UInt8.ofNat host.length) rfl, ok_bind, hlen, hslice, ok_bind, hport, ok_bind]
  rfl

theorem string_ipv4 {ip : IP} (hip : ip.length = 4) {p : Nat} (hp : p < 2 ^ 16) :
    Addr.string (atypIPv4 :: ip ++ portBytes p) = .ok (joinHostPort (ipString ip) (itoa p)) := by
  have hport := portAt_append (atypIPv4 :: ip) hp
  have hslice : slice (atypIPv4 :: ip ++ portBytes p) 1 (1 + 4) = .ok ip := by
    rw [slice_eq_ok (by omega) (by simp; omega), ← hip, Nat.add_comm]
    simp
  rw [List.length_cons, hip] at hport
  unfold Addr.string
  rw [index_eq_ok (x := atypIPv4) rfl, ok_bind, if_neg (by decide), if_pos rfl, hslice, ok_bind,
    hport, ok_bind]
  rfl

theorem string_ipv6 {ip : IP} (hip : ip.length = 16) {p : Nat} (hp : p < 2 ^ 16) :
    Addr.string (atypIPv6 :: ip ++ portBytes p) = .ok (joinHostPort (ipString ip) (itoa p)) := by
  have hport := portAt_append (atypIPv6 :: ip) hp
  have hslice : slice (atypIPv6 :: ip ++ portBytes p) 1 (1 + 16) = .ok ip := by
    rw [slice_eq_ok (by omega) (by simp; omega), ← hip, Nat.add_comm]
    simp
  rw [List.length_cons, hip] at hport
  unfold Addr.string
  rw [index_eq_ok (x := atypIPv6) rfl, ok_bind, if_neg (by decide), if_neg (by decide), if_pos rfl,
    hslice, ok_bind, hport, ok_bind]
  rfl

/-- The port of an address is in its last two bytes. -/
theorem exists_portBytes {b : Bytes} (h : b.length = 2) : ∃ p < 2 ^ 16, b = portBytes p := by
  obtain ⟨hi, lo, rfl⟩ := List.length_eq_two.mp h
  have hhi := hi.toNat_lt
  have hlo := lo.toNat_lt
  refine ⟨hi.toNat * 256 + lo.toNat, by omega, ?_⟩
  have h1 : (hi.toNat * 256 + lo.toNat) >>> 8 = hi.toNat := by
    rw [Nat.shiftRight_eq_div_pow]
    omega
  have h2 : UInt8.ofNat (hi.toNat * 256 + lo.toNat) = lo := by
    apply UInt8.toNat.inj
    rw [UInt8.toNat_ofNat']
    omega
  rw [portBytes, h1, h2, UInt8.ofNat_toNat]

/-- An address is a host, an IPv4 address or an IPv6 address, and a port. -/
theorem addr_cases {a : Addr} (h : wireLen a = some a.length) :
    ∃ p < 2 ^ 16,
      (∃ host : Bytes, host.length ≤ 255 ∧
        a = atypDomainName :: UInt8.ofNat host.length :: host ++ portBytes p) ∨
      (∃ ip : IP, ip.length = 4 ∧ a = atypIPv4 :: ip ++ portBytes p) ∨
      ∃ ip : IP, ip.length = 16 ∧ a = atypIPv6 :: ip ++ portBytes p := by
  obtain ⟨k, rest, rfl, hlen⟩ | ⟨rest, rfl, hlen⟩ | ⟨rest, rfl, hlen⟩ := wireLen_cases h
  · simp only [List.length_cons] at hlen
    obtain ⟨p, hp, hport⟩ := exists_portBytes (b := rest.drop k.toNat) (by simp; omega)
    have hk : (rest.take k.toNat).length = k.toNat := by simp; omega
    have hlt := k.toNat_lt
    refine ⟨p, hp, Or.inl ⟨rest.take k.toNat, by omega, ?_⟩⟩
    rw [hk, UInt8.ofNat_toNat, ← hport]
    simp
  · simp only [List.length_cons] at hlen
    obtain ⟨p, hp, hport⟩ := exists_portBytes (b := rest.drop 4) (by simp; omega)
    refine ⟨p, hp, Or.inr (Or.inl ⟨rest.take 4, by simp; omega, ?_⟩)⟩
    rw [← hport]
    simp
  · simp only [List.length_cons] at hlen
    obtain ⟨p, hp, hport⟩ := exists_portBytes (b := rest.drop 16) (by simp; omega)
    refine ⟨p, hp, Or.inr (Or.inr ⟨rest.take 16, by simp; omega, ?_⟩)⟩
    rw [← hport]
    simp

/-- Every address has a text, and no index is out of range. -/
theorem exists_string {a : Addr} (h : wireLen a = some a.length) : ∃ s, Addr.string a = .ok s := by
  obtain ⟨p, hp, ⟨host, hhost, rfl⟩ | ⟨ip, hip, rfl⟩ | ⟨ip, hip, rfl⟩⟩ := addr_cases h
  · exact ⟨_, string_domain host hhost hp⟩
  · exact ⟨_, string_ipv4 hip hp⟩
  · exact ⟨_, string_ipv6 hip hp⟩

theorem hostBytes_cases {host : Str} {front : Bytes} (h : hostBytes host = some front) :
    (parseIP host = none ∧ host.length ≤ 255 ∧
        front = atypDomainName :: UInt8.ofNat host.length :: bytes host) ∨
      (∃ ip : IP, ip.length = 4 ∧ front = atypIPv4 :: ip) ∨
      ∃ ip : IP, ip.length = 16 ∧ to4 ip = none ∧ front = atypIPv6 :: ip := by
  unfold hostBytes at h
  split at h
  · rename_i ip hip
    split at h
    · rename_i ip4 h4
      cases h
      exact Or.inr (Or.inl ⟨ip4, length_to4 h4, rfl⟩)
    · rename_i h4
      cases h
      exact Or.inr (Or.inr ⟨ip, length_parseIP hip, h4, rfl⟩)
  · rename_i hip
    split at h
    · cases h
    · rename_i hlen
      cases h
      exact Or.inl ⟨hip, Nat.not_lt.mp hlen, rfl⟩

theorem hostBytes_ipString {ip : IP} (h : ip.length = 4 ∨ ip.length = 16) :
    hostBytes (ipString ip) = some (match to4 ip with
      | some ip4 => atypIPv4 :: ip4
      | none => atypIPv6 :: ip) := by
  unfold hostBytes
  rw [parseIP_ipString h]
  cases h4 : to4 ip with
  | some ip4 =>
    obtain ⟨ip', hip⟩ : ∃ ip', to16 ip = some ip' := by
      rcases h with hlen | hlen <;> simp [to16, hlen]
    rw [hip]
    dsimp only
    rw [to4_to16 hip, h4]
  | none =>
    have hlen : ip.length = 16 := by
      rcases h with hlen | hlen
      · simp [to4, hlen] at h4
      · exact hlen
    have hip : to16 ip = some ip := by simp [to16, hlen]
    rw [hip]
    dsimp only
    rw [h4]

/-- A host without brackets and a port read back. -/
theorem parseAddr_join {host : Str} (hhost : Plain host) {p : Nat} (hp : p < 2 ^ 16) :
    parseAddr (joinHostPort host (itoa p)) = (hostBytes host).map (· ++ portBytes p) := by
  unfold parseAddr
  rw [splitHostPort_joinHostPort hhost (plain_itoa p).1 (plain_itoa p).2]
  cases hfront : hostBytes host with
  | none => simp [hfront]
  | some front => simp [hfront, parseUint_itoa hp]

theorem parseAddr_cases {s : Str} {a : Addr} (h : parseAddr s = some a) :
    ∃ host port front p, splitHostPort s = some (host, port) ∧ hostBytes host = some front ∧
      p < 2 ^ 16 ∧ a = front ++ portBytes p := by
  unfold parseAddr at h
  simp only [Option.bind_eq_bind, Option.bind_eq_some_iff, Option.pure_def, Option.some.injEq] at h
  obtain ⟨⟨host, port⟩, hsplit, front, hfront, p, hp, rfl⟩ := h
  refine ⟨host, port, front, p, hsplit, hfront, ?_, rfl⟩
  unfold parseUint at hp
  split at hp
  · cases hp
  · rename_i hok
    cases hp
    simp only [not_or, Nat.not_le] at hok
    exact hok.2.2

/-- The text of an address of `ParseAddr` gives the address back. -/
theorem parseAddr_string {b : Bytes} {a : Addr} (h : parseAddr (text b) = some a) :
    ∃ s, Addr.string a = .ok s ∧ parseAddr s = some a := by
  obtain ⟨host, port, front, p, hsplit, hfront, hp, rfl⟩ := parseAddr_cases h
  obtain ⟨hip, hlen, rfl⟩ | ⟨ip, hlen, rfl⟩ | ⟨ip, hlen, h4, rfl⟩ := hostBytes_cases hfront
  · have hbytes : text (bytes host) = host := by
      apply text_bytes
      intro c hc
      exact lt_of_mem_text (mem_splitHostPort hsplit (Or.inl hc))
    have hcount : (bytes host).length = host.length := List.length_map ..
    have hstring := string_domain (bytes host) (by omega) hp
    rw [hbytes, hcount] at hstring
    refine ⟨_, hstring, ?_⟩
    rw [parseAddr_join (plain_splitHostPort hsplit) hp, hfront, Option.map_some]
  · refine ⟨_, string_ipv4 hlen hp, ?_⟩
    rw [parseAddr_join (plain_ipString (Or.inl hlen)) hp, hostBytes_ipString (Or.inl hlen)]
    simp [to4, hlen]
  · refine ⟨_, string_ipv6 hlen hp, ?_⟩
    rw [parseAddr_join (plain_ipString (Or.inr hlen)) hp, hostBytes_ipString (Or.inr hlen), h4]
    rfl

/-- An address of `ParseAddr` is an address on the wire. -/
theorem wireLen_parseAddr {s : Str} {a : Addr} (h : parseAddr s = some a) :
    wireLen a = some a.length := by
  obtain ⟨host, port, front, p, -, hfront, -, rfl⟩ := parseAddr_cases h
  obtain ⟨-, hlen, rfl⟩ | ⟨ip, hlen, rfl⟩ | ⟨ip, hlen, -, rfl⟩ := hostBytes_cases hfront
  · have hcount : (UInt8.ofNat host.length).toNat = host.length := by
      rw [UInt8.toNat_ofNat', Nat.mod_eq_of_lt (by omega)]
    change some (1 + 1 + (UInt8.ofNat host.length).toNat + 2) = _
    rw [hcount]
    simp [bytes, portBytes]
    omega
  · change some (1 + 4 + 2) = _
    simp [portBytes, hlen]
  · change some (1 + 16 + 2) = _
    simp [portBytes, hlen]

/-! ## The law -/

/-- Slices and streams give the same addresses, with no index out of range, and an address of a
text is found again in front of any bytes and in its own text. -/
theorem addresses_agree :
    (∀ (b buf : Bytes), maxAddrLen ≤ buf.length →
      (∀ a, splitAddr b = .ok (some a) ↔ ((readAddr buf).run.runOn b).1 = .ok a) ∧
      (∀ a, splitAddr b = .ok (some a) →
        (readAddr buf).run.runOn b = (.ok a, b.drop a.length, []) ∧ b.take a.length = a ∧
          ∃ s, Addr.string a = .ok s) ∧
      splitAddr b ≠ .error .outOfRange ∧
      ((readAddr buf).run.runOn b).1 ≠ .error .outOfRange) ∧
    ∀ (s : Bytes) (a : Addr), parseAddr (text s) = some a →
      (∀ r, splitAddr (a ++ r) = .ok (some a)) ∧
      ∃ t, Addr.string a = .ok t ∧ parseAddr t = some a := by
  refine ⟨fun b buf hbuf => ⟨fun a => ?_, fun a ha => ?_, ?_, ?_⟩, fun s a ha => ⟨fun r => ?_, ?_⟩⟩
  · rw [splitAddr_eq, runOn_readAddr_iff hbuf, Except.ok.injEq]
  · rw [splitAddr_eq, Except.ok.injEq] at ha
    obtain ⟨hlen, hsplit⟩ := wireAddr_spec ha
    refine ⟨Proc.runOn_of_settle (settle_readAddr hbuf ha), ?_, exists_string hlen⟩
    rw [hsplit, List.take_left]
  · rw [splitAddr_eq]
    nofun
  · cases h : wireAddr b with
    | some a =>
      rw [Proc.runOn_of_settle (settle_readAddr hbuf h)]
      nofun
    | none =>
      obtain ⟨e, left, hrun, he⟩ := runOn_readAddr_none hbuf h
      rw [hrun]
      exact fun heq => he (Except.error.inj heq)
  · rw [splitAddr_eq, wireAddr_append (wireLen_parseAddr ha)]
  · exact parseAddr_string ha

/-- The address of a.cn:80, from a slice and from a stream with one byte more. -/
theorem addresses_agree_at_a_cn :
    splitAddr [3, 4, 97, 46, 99, 110, 0, 80, 7] = .ok (some [3, 4, 97, 46, 99, 110, 0, 80]) ∧
      (readAddr (List.replicate maxAddrLen 0)).run.runOn [3, 4, 97, 46, 99, 110, 0, 80, 7] =
        (.ok [3, 4, 97, 46, 99, 110, 0, 80], [7], []) := by
  have hsplit : splitAddr [3, 4, 97, 46, 99, 110, 0, 80, 7] =
      .ok (some [3, 4, 97, 46, 99, 110, 0, 80]) :=
    (addresses_agree.2 [97, 46, 99, 110, 58, 56, 48] [3, 4, 97, 46, 99, 110, 0, 80]
      (by decide)).1 [7]
  have hbuf : maxAddrLen ≤ (List.replicate maxAddrLen 0 : Bytes).length := by simp
  exact ⟨hsplit, ((addresses_agree.1 _ _ hbuf).2.1 _ hsplit).1⟩

end socks
