-- The text of an address as package net writes it, and host:port. Reading the text gives
-- the address back, for IPv4 and for IPv6 with its longest run of zeros left out.
import Vproxy.NetAddr
import Mathlib.Tactic.IntervalCases

open go

namespace go.net

/-! ## Digits -/

/-- Digit `n` of the string of digits. -/
def digit (n : Nat) : Char := ("0123456789abcdef" : Str).getD n '0'

/-- `netip.appendDecimal`. -/
def appendDecimal (x : Nat) : Str :=
  (if 100 ≤ x then [digit (x / 100)] else []) ++ (if 10 ≤ x then [digit (x / 10 % 10)] else []) ++
    [digit (x % 10)]

/-- `netip.appendHex`. -/
def appendHex (x : Nat) : Str :=
  (if 0x1000 ≤ x then [digit (x / 0x1000)] else []) ++
    (if 0x100 ≤ x then [digit (x / 0x100 % 16)] else []) ++
    (if 0x10 ≤ x then [digit (x / 0x10 % 16)] else []) ++ [digit (x % 16)]

theorem hexVal_digit {n : Nat} (h : n < 16) : hexVal (digit n) = some n := by
  interval_cases n <;> rfl

theorem isHex_digit {n : Nat} (h : n < 16) : isHex (digit n) = true := by
  rw [isHex, hexVal_digit h, Option.isSome_some]

theorem isDigit_digit {n : Nat} (h : n < 10) : isDigit (digit n) = true := by
  interval_cases n <;> rfl

theorem digitVal_digit {n : Nat} (h : n < 10) : digitVal (digit n) = n := by
  interval_cases n <;> rfl

theorem digit_ne_zero {n : Nat} (h : n < 10) (h0 : 0 < n) : digit n ≠ '0' := by
  interval_cases n <;> decide

/-- The text of a byte has one, two or three digits. -/
theorem appendDecimal_cases {x : Nat} (h : x < 256) :
    (x < 10 ∧ appendDecimal x = [digit x]) ∨
    (10 ≤ x ∧ x < 100 ∧ appendDecimal x = [digit (x / 10), digit (x % 10)]) ∨
    (100 ≤ x ∧ appendDecimal x = [digit (x / 100), digit (x / 10 % 10), digit (x % 10)]) := by
  unfold appendDecimal
  rcases Nat.lt_or_ge x 10 with h1 | h1
  · left
    refine ⟨h1, ?_⟩
    rw [if_neg (by omega), if_neg (by omega), Nat.mod_eq_of_lt h1]
    rfl
  · right
    rcases Nat.lt_or_ge x 100 with h2 | h2
    · left
      refine ⟨h1, h2, ?_⟩
      rw [if_neg (by omega), if_pos h1, Nat.mod_eq_of_lt (by omega : x / 10 < 10)]
      rfl
    · right
      refine ⟨h2, ?_⟩
      rw [if_pos h2, if_pos h1]
      rfl

/-- A field of a dotted address reads back. -/
theorem parseOctet_appendDecimal (b : UInt8) : parseOctet (appendDecimal b.toNat) = some b := by
  have hb := b.toNat_lt
  unfold parseOctet
  rcases appendDecimal_cases hb with ⟨h1, heq⟩ | ⟨h1, h2, heq⟩ | ⟨h1, heq⟩
  · have d0 := digitVal_digit h1
    rw [heq]
    simp [isDigit_digit h1, decimal, d0]
    omega
  · have hd : b.toNat / 10 < 10 := by omega
    have hm : b.toNat % 10 < 10 := by omega
    have hval : decimal [digit (b.toNat / 10), digit (b.toNat % 10)] = b.toNat := by
      simp only [decimal, List.foldl_cons, List.foldl_nil, digitVal_digit hd, digitVal_digit hm]
      omega
    rw [heq, hval]
    simp [isDigit_digit hd, isDigit_digit hm, digit_ne_zero hd (by omega)]
    omega
  · have hc : b.toNat / 100 < 10 := by omega
    have hd : b.toNat / 10 % 10 < 10 := by omega
    have hm : b.toNat % 10 < 10 := by omega
    have hval : decimal [digit (b.toNat / 100), digit (b.toNat / 10 % 10), digit (b.toNat % 10)] =
        b.toNat := by
      simp only [decimal, List.foldl_cons, List.foldl_nil, digitVal_digit hc, digitVal_digit hd,
        digitVal_digit hm]
      omega
    rw [heq, hval]
    simp [isDigit_digit hc, isDigit_digit hd, isDigit_digit hm, digit_ne_zero hc (by omega)]
    omega

/-- The text of a group has one to four digits. -/
theorem appendHex_cases {x : Nat} (h : x < 0x10000) :
    appendHex x = [digit x] ∧ x < 16 ∨
    appendHex x = [digit (x / 16), digit (x % 16)] ∧ x < 0x100 ∨
    appendHex x = [digit (x / 0x100), digit (x / 16 % 16), digit (x % 16)] ∧ x < 0x1000 ∨
    appendHex x =
      [digit (x / 0x1000), digit (x / 0x100 % 16), digit (x / 16 % 16), digit (x % 16)] := by
  unfold appendHex
  rcases Nat.lt_or_ge x 16 with h1 | h1
  · left
    refine ⟨?_, h1⟩
    rw [if_neg (by omega), if_neg (by omega), if_neg (by omega), Nat.mod_eq_of_lt h1]
    rfl
  · right
    rcases Nat.lt_or_ge x 0x100 with h2 | h2
    · left
      refine ⟨?_, h2⟩
      rw [if_neg (by omega), if_neg (by omega), if_pos h1,
        Nat.mod_eq_of_lt (by omega : x / 16 < 16)]
      rfl
    · right
      rcases Nat.lt_or_ge x 0x1000 with h3 | h3
      · left
        refine ⟨?_, h3⟩
        rw [if_neg (by omega), if_pos h2, if_pos h1, Nat.mod_eq_of_lt (by omega : x / 0x100 < 16)]
        rfl
      · right
        rw [if_pos h3, if_pos h2, if_pos h1]
        rfl

/-- A group of hex digits reads back. -/
theorem hexNum_appendHex {x : Nat} (h : x < 0x10000) : hexNum (appendHex x) = x := by
  unfold hexNum
  rcases appendHex_cases h with ⟨heq, h1⟩ | ⟨heq, h1⟩ | ⟨heq, h1⟩ | heq <;> rw [heq] <;>
    simp only [List.foldl_cons, List.foldl_nil]
  · rw [hexVal_digit h1]
    simp
  · rw [hexVal_digit (by omega), hexVal_digit (by omega)]
    simp only [Option.getD_some]
    omega
  · rw [hexVal_digit (by omega), hexVal_digit (by omega), hexVal_digit (by omega)]
    simp only [Option.getD_some]
    omega
  · rw [hexVal_digit (by omega), hexVal_digit (by omega), hexVal_digit (by omega),
      hexVal_digit (by omega)]
    simp only [Option.getD_some]
    omega

/-- The text of a group: at least one digit, at most four, and nothing else. -/
theorem appendHex_spec {x : Nat} (h : x < 0x10000) :
    appendHex x ≠ [] ∧ (appendHex x).length ≤ 4 ∧ ∀ c ∈ appendHex x, isHex c = true := by
  rcases appendHex_cases h with ⟨heq, h1⟩ | ⟨heq, h1⟩ | ⟨heq, h1⟩ | heq <;> rw [heq] <;>
    refine ⟨by simp, by simp, ?_⟩ <;>
    simp only [List.mem_cons, List.not_mem_nil, or_false, forall_eq_or_imp, forall_eq]
  · exact isHex_digit h1
  · exact ⟨isHex_digit (by omega), isHex_digit (by omega)⟩
  · exact ⟨isHex_digit (by omega), isHex_digit (by omega), isHex_digit (by omega)⟩
  · exact ⟨isHex_digit (by omega), isHex_digit (by omega), isHex_digit (by omega),
      isHex_digit (by omega)⟩

/-! ## IPv4 -/

/-- The dotted text of four bytes. -/
def dotted (ip : IP) : Str := ['.'].intercalate (ip.map (fun b => appendDecimal b.toNat))

/-- A digit of a decimal text is none of the marks of an address. -/
theorem mem_appendDecimal {b : UInt8} {c : Char} (h : c ∈ appendDecimal b.toNat) :
    isDigit c = true := by
  have hb := b.toNat_lt
  rcases appendDecimal_cases hb with ⟨h1, heq⟩ | ⟨h1, h2, heq⟩ | ⟨h1, heq⟩ <;> rw [heq] at h <;>
    simp only [List.mem_cons, List.not_mem_nil, or_false] at h
  · rw [h]
    exact isDigit_digit h1
  · rcases h with rfl | rfl <;> exact isDigit_digit (by omega)
  · rcases h with rfl | rfl | rfl <;> exact isDigit_digit (by omega)

theorem parseIPv4_dotted (a b c d : UInt8) :
    parseIPv4 (dotted [a, b, c, d]) = some [a, b, c, d] := by
  have hsplit : (dotted [a, b, c, d]).splitOn '.' =
      [appendDecimal a.toNat, appendDecimal b.toNat, appendDecimal c.toNat,
        appendDecimal d.toNat] := by
    apply List.splitOn_intercalate
    · intro l hl hdot
      obtain ⟨x, -, rfl⟩ := List.mem_map.mp hl
      exact absurd (mem_appendDecimal hdot) (by decide)
    · simp
  unfold parseIPv4
  rw [hsplit]
  simp [parseOctet_appendDecimal]

/-- The marks that decide how an address is read. -/
def isMark (c : Char) : Bool := c = '.' ∨ c = ':' ∨ c = '%'

/-- The first mark after a text without marks. -/
theorem find?_mark {s rest : Str} {m : Char} (hs : ∀ c ∈ s, isMark c = false)
    (hm : isMark m = true) : (s ++ m :: rest).find? isMark = some m := by
  rw [List.find?_append, List.find?_eq_none.mpr (by simpa using hs), Option.none_or,
    List.find?_cons_of_pos hm]

theorem parseAddr_dotted (a b c d : UInt8) :
    parseAddr (dotted [a, b, c, d]) = some ⟨[a, b, c, d], []⟩ := by
  have hfind : (dotted [a, b, c, d]).find? isMark = some '.' := by
    apply find?_mark
    · intro x hx
      have := mem_appendDecimal hx
      by_contra hmark
      simp only [isMark, Bool.not_eq_false, decide_eq_true_eq] at hmark
      rcases hmark with rfl | rfl | rfl <;> exact absurd this (by decide)
    · rfl
  unfold parseAddr
  unfold isMark at hfind
  rw [hfind]
  simp [parseIPv4_dotted]

/-! ## IPv6 -/

/-- The groups of the bytes, two by two. -/
def groups : IP → List Nat
  | a :: b :: rest => (256 * a.toNat + b.toNat) :: groups rest
  | _ => []

/-- Groups with colons between them. -/
def joinGroups (gs : List Nat) : Str := [':'].intercalate (gs.map appendHex)

/-- The loop of `netip.appendTo6` that looks for the first longest run of zeros, of two
groups or more. The pair `(255, 255)` says that there is none. -/
def zeroRun (gs : List Nat) : Nat × Nat :=
  (List.range 8).foldl
    (fun best i =>
      let l := ((gs.drop i).takeWhile (· == 0)).length
      if 2 ≤ l ∧ best.2 - best.1 < l then (i, i + l) else best)
    (255, 255)

/-- `netip.appendTo6`. -/
def appendTo6 (gs : List Nat) : Str :=
  let (zeroStart, zeroEnd) := zeroRun gs
  if zeroStart = 255 then joinGroups gs
  else joinGroups (gs.take zeroStart) ++ "::".toList ++ joinGroups (gs.drop zeroEnd)

/-- `IP.String`. -/
def ipString (ip : IP) : Str :=
  match to4 ip with
  | some a => dotted a
  | none =>
    if ip.length = 16 then appendTo6 (groups ip)
    else if ip = [] then "<nil>"
    else '?' :: ip.flatMap (fun b => [digit (b.toNat / 16), digit (b.toNat % 16)])

/-- The bytes of the groups. -/
def bytesOf (gs : List Nat) : IP := gs.flatMap groupBytes

theorem bytesOf_groups : ∀ {n : Nat} {ip : IP}, ip.length = 2 * n → bytesOf (groups ip) = ip
  | 0, [], _ => rfl
  | n + 1, a :: b :: rest, h => by
    have ha := a.toNat_lt
    have hb := b.toNat_lt
    have hrest : rest.length = 2 * n := by
      simp only [List.length_cons] at h
      omega
    have hgroup : groupBytes (256 * a.toNat + b.toNat) = [a, b] := by
      have hdiv : (256 * a.toNat + b.toNat) / 256 = a.toNat := by omega
      have hmod : UInt8.ofNat (256 * a.toNat + b.toNat) = b := by
        apply UInt8.toNat_inj.mp
        rw [UInt8.toNat_ofNat']
        omega
      rw [groupBytes, hdiv, hmod, UInt8.ofNat_toNat]
    unfold groups bytesOf
    rw [List.flatMap_cons, hgroup]
    exact congrArg (fun l => a :: b :: l) (bytesOf_groups hrest)

theorem length_groups : ∀ {n : Nat} {ip : IP}, ip.length = 2 * n → (groups ip).length = n
  | 0, [], _ => rfl
  | n + 1, a :: b :: rest, h => by
    have hrest : rest.length = 2 * n := by
      simp only [List.length_cons] at h
      omega
    simp [groups, length_groups hrest]

theorem groups_lt : ∀ (ip : IP), ∀ g ∈ groups ip, g < 0x10000
  | [], g, h => by cases h
  | [_], g, h => by cases h
  | a :: b :: rest, g, h => by
    rcases List.mem_cons.mp h with rfl | hrest
    · have ha := a.toNat_lt
      have hb := b.toNat_lt
      omega
    · exact groups_lt rest g hrest

theorem length_bytesOf (gs : List Nat) : (bytesOf gs).length = 2 * gs.length := by
  induction gs with
  | nil => rfl
  | cons g rest ih =>
    unfold bytesOf at ih ⊢
    rw [List.flatMap_cons, List.length_append, ih, List.length_cons, groupBytes]
    simp only [List.length_cons, List.length_nil]
    omega

theorem bytesOf_append (gs hs : List Nat) : bytesOf (gs ++ hs) = bytesOf gs ++ bytesOf hs :=
  List.flatMap_append

theorem bytesOf_zeros (n : Nat) : bytesOf (List.replicate n 0) = List.replicate (2 * n) 0 := by
  induction n with
  | zero => rfl
  | succ n ih =>
    rw [List.replicate_succ, show 2 * (n + 1) = 2 * n + 1 + 1 by omega, List.replicate_succ,
      List.replicate_succ, ← ih]
    rfl

/-! ## Reading groups -/

section

variable {g n : Nat} {acc : IP} {e : Option Nat}

/-- The digits of a group end at a colon. -/
theorem takeWhile_group (hg : g < 0x10000) (t : Str) :
    (appendHex g ++ ':' :: t).takeWhile isHex = appendHex g := by
  rw [List.takeWhile_append_of_pos (appendHex_spec hg).2.2, List.takeWhile_cons_of_neg (by decide),
    List.append_nil]

theorem takeWhile_last (hg : g < 0x10000) : (appendHex g).takeWhile isHex = appendHex g := by
  have h : (appendHex g ++ []).takeWhile isHex = appendHex g ++ [].takeWhile isHex :=
    List.takeWhile_append_of_pos (appendHex_spec hg).2.2
  simpa using h

theorem parseGroups_last (hg : g < 0x10000) :
    parseGroups (n + 1) (appendHex g) acc e = some (acc ++ groupBytes g, e, []) := by
  obtain ⟨hne, hlen, -⟩ := appendHex_spec hg
  unfold parseGroups
  simp only [takeWhile_last hg]
  rw [if_neg (by simp [hne]; omega), List.drop_length, hexNum_appendHex hg]

theorem parseGroups_more (hg : g < 0x10000) {c : Char} {t : Str} (hc : c ≠ ':') :
    parseGroups (n + 1) (appendHex g ++ ':' :: c :: t) acc e =
      parseGroups n (c :: t) (acc ++ groupBytes g) e := by
  obtain ⟨hne, hlen, -⟩ := appendHex_spec hg
  conv_lhs => unfold parseGroups
  simp only [takeWhile_group hg]
  rw [if_neg (by simp [hne]; omega), List.drop_left, hexNum_appendHex hg]
  split
  · rename_i h
    cases h
  · rename_i h
    cases h
  · rename_i h
    cases h
  · rename_i h
    cases h
    exact absurd rfl hc
  · rename_i h
    cases h
    rfl
  · rename_i h1 h2 h3 h4 h5
    exact absurd rfl (h5 _)

theorem parseGroups_ellipsis (hg : g < 0x10000) (t : Str) :
    parseGroups (n + 1) (appendHex g ++ ':' :: ':' :: t) acc none =
      if t = [] then
        some (acc ++ groupBytes g, some (acc ++ groupBytes g).length, [])
      else parseGroups n t (acc ++ groupBytes g) (some (acc ++ groupBytes g).length) := by
  obtain ⟨hne, hlen, -⟩ := appendHex_spec hg
  conv_lhs => unfold parseGroups
  simp only [takeWhile_group hg]
  rw [if_neg (by simp [hne]; omega), List.drop_left, hexNum_appendHex hg]
  simp

/-- A joined text begins with a digit. -/
theorem joinGroups_cons (hg : g < 0x10000) (gs : List Nat) :
    ∃ c t, joinGroups (g :: gs) = c :: t ∧ c ≠ ':' := by
  obtain ⟨hne, -, hhex⟩ := appendHex_spec hg
  cases h : appendHex g with
  | nil => exact absurd h hne
  | cons c t =>
    have hc : c ≠ ':' := by
      rintro rfl
      have := hhex ':' (by simp [h])
      exact absurd this (by decide)
    cases gs with
    | nil => exact ⟨c, t, by simp [joinGroups, h], hc⟩
    | cons g' rest =>
      refine ⟨c, t ++ ':' :: joinGroups (g' :: rest), ?_, hc⟩
      simp [joinGroups, List.intercalate_cons_cons, h]

theorem joinGroups_cons_cons (g' : Nat) (gs : List Nat) :
    joinGroups (g :: g' :: gs) = appendHex g ++ ':' :: joinGroups (g' :: gs) := by
  simp [joinGroups, List.intercalate_cons_cons]

/-- The groups in front of the last one are read one after the other. -/
theorem parseGroups_front {front : List Nat} (hfront : ∀ x ∈ front, x < 0x10000)
    (hg : g < 0x10000) (hn : front.length ≤ n) (t : Str) :
    parseGroups n (joinGroups (front ++ [g]) ++ t) acc e =
      parseGroups (n - front.length) (appendHex g ++ t) (acc ++ bytesOf front) e := by
  induction front generalizing n acc with
  | nil => simp [joinGroups, bytesOf]
  | cons first front ih =>
    obtain ⟨n, rfl⟩ : ∃ m, n = m + 1 := ⟨n - 1, by simp at hn; omega⟩
    have hrest : ∀ x ∈ front, x < 0x10000 := fun x hx => hfront x (List.mem_cons_of_mem _ hx)
    have hall : ∀ x ∈ front ++ [g], x < 0x10000 := by
      intro x hx
      rcases List.mem_append.mp hx with hx | hx
      · exact hrest x hx
      · exact List.mem_singleton.mp hx ▸ hg
    obtain ⟨next, more, hcons⟩ := List.exists_cons_of_ne_nil (l := front ++ [g]) (by simp)
    obtain ⟨c, u, heq, hc⟩ := joinGroups_cons (hall next (by simp [hcons])) more
    rw [List.cons_append, hcons, joinGroups_cons_cons, List.append_assoc, List.cons_append, heq,
      List.cons_append, parseGroups_more (hfront first List.mem_cons_self) hc, ← List.cons_append,
      ← heq, ← hcons, ih hrest (by simpa using hn)]
    simp [bytesOf, List.append_assoc]

/-- A joined text is read to its end. -/
theorem parseGroups_join {gs : List Nat} (hgs : ∀ g ∈ gs, g < 0x10000) (hne : gs ≠ [])
    (hn : gs.length ≤ n) :
    parseGroups n (joinGroups gs) acc e = some (acc ++ bytesOf gs, e, []) := by
  obtain ⟨front, g, rfl⟩ := (List.eq_nil_or_concat' gs).resolve_left hne
  have hg : g < 0x10000 := hgs g (by simp)
  have hfront : ∀ x ∈ front, x < 0x10000 := fun x hx => hgs x (List.mem_append_left _ hx)
  obtain ⟨k, rfl⟩ : ∃ k, n = front.length + (k + 1) := ⟨n - front.length - 1, by simp at hn; omega⟩
  rw [← List.append_nil (joinGroups _), parseGroups_front hfront hg (by omega), List.append_nil,
    Nat.add_sub_cancel_left, parseGroups_last hg]
  simp [bytesOf]

/-- A joined text before `::` is read up to it. -/
theorem parseGroups_join_ellipsis {gs : List Nat} (hgs : ∀ g ∈ gs, g < 0x10000) (hne : gs ≠ [])
    (hn : gs.length ≤ n) (t : Str) :
    parseGroups n (joinGroups gs ++ ':' :: ':' :: t) acc none =
      if t = [] then some (acc ++ bytesOf gs, some (acc ++ bytesOf gs).length, [])
      else parseGroups (n - gs.length) t (acc ++ bytesOf gs) (some (acc ++ bytesOf gs).length) := by
  obtain ⟨front, g, rfl⟩ := (List.eq_nil_or_concat' gs).resolve_left hne
  have hg : g < 0x10000 := hgs g (by simp)
  have hfront : ∀ x ∈ front, x < 0x10000 := fun x hx => hgs x (List.mem_append_left _ hx)
  have hbytes : acc ++ bytesOf front ++ groupBytes g = acc ++ bytesOf (front ++ [g]) := by
    simp [bytesOf]
  obtain ⟨k, rfl⟩ : ∃ k, n = front.length + (k + 1) := ⟨n - front.length - 1, by simp at hn; omega⟩
  have hleft : front.length + (k + 1) - (front ++ [g]).length = k := by
    rw [List.length_append, List.length_singleton]
    omega
  rw [parseGroups_front hfront hg (by omega), Nat.add_sub_cancel_left, parseGroups_ellipsis hg,
    hbytes, hleft]

end

/-! ## The run of zeros -/

/-- The pair is no run, or the groups from the first to the second are zeros. -/
def IsZeroRun (gs : List Nat) (r : Nat × Nat) : Prop :=
  r = (255, 255) ∨ (r.1 + 2 ≤ r.2 ∧ r.2 ≤ gs.length ∧
    gs = gs.take r.1 ++ List.replicate (r.2 - r.1) 0 ++ gs.drop r.2)

theorem isZeroRun_step {gs : List Nat} {i : Nat}
    (hl : 2 ≤ ((gs.drop i).takeWhile (· == 0)).length) :
    IsZeroRun gs (i, i + ((gs.drop i).takeWhile (· == 0)).length) := by
  have hzeros : (gs.drop i).takeWhile (· == 0) =
      List.replicate ((gs.drop i).takeWhile (· == 0)).length 0 := by
    apply List.eq_replicate_of_mem
    intro b hb
    simpa using List.all_eq_true.mp List.all_takeWhile b hb
  have hle := (List.takeWhile_prefix (l := gs.drop i) (· == 0)).length_le
  have hsplit : gs.drop i = (gs.drop i).takeWhile (· == 0) ++
      gs.drop (i + ((gs.drop i).takeWhile (· == 0)).length) := by
    have hp := List.prefix_iff_eq_append.mp (List.takeWhile_prefix (l := gs.drop i) (· == 0))
    rw [List.drop_drop] at hp
    exact hp.symm
  right
  refine ⟨by omega, ?_, ?_⟩
  · rw [List.length_drop] at hle
    omega
  · dsimp only
    rw [Nat.add_sub_cancel_left, ← hzeros, List.append_assoc, ← hsplit, List.take_append_drop]

theorem zeroRun_spec (gs : List Nat) : IsZeroRun gs (zeroRun gs) := by
  unfold zeroRun
  apply List.foldlRecOn (motive := IsZeroRun gs)
  · exact Or.inl rfl
  · intro best hbest i hi
    dsimp only
    split
    · rename_i h
      exact isZeroRun_step h.1
    · exact hbest

/-- Zeros fill the place of the run. -/
theorem expand_run {before after : List Nat} {k : Nat} (hk : 0 < k)
    (hlen : before.length + k + after.length = 8) :
    expand (bytesOf before ++ bytesOf after, some (bytesOf before).length, []) =
      some (bytesOf (before ++ List.replicate k 0 ++ after)) := by
  have hlt : (bytesOf before ++ bytesOf after).length < 16 := by
    rw [List.length_append, length_bytesOf, length_bytesOf]
    omega
  have hzeros : 16 - (bytesOf before ++ bytesOf after).length = 2 * k := by
    rw [List.length_append, length_bytesOf, length_bytesOf]
    omega
  unfold expand
  dsimp only
  rw [if_pos hlt, hzeros, Option.map_some, List.take_left, List.drop_left, bytesOf_append,
    bytesOf_append, bytesOf_zeros]

theorem joinGroups_ne_nil {gs : List Nat} (hgs : ∀ g ∈ gs, g < 0x10000) (hne : gs ≠ []) :
    joinGroups gs ≠ [] := by
  cases gs with
  | nil => exact absurd rfl hne
  | cons g rest =>
    obtain ⟨c, t, heq, -⟩ := joinGroups_cons (hgs g List.mem_cons_self) rest
    rw [heq]
    simp

theorem parseIPv6_of_ne {c : Char} {t : Str} (hc : c ≠ ':') :
    parseIPv6 (c :: t) = (parseGroups 8 (c :: t) [] none).bind expand := by
  unfold parseIPv6
  split
  · rename_i h
    cases h
    exact absurd rfl hc
  · rename_i h
    cases h
    exact absurd rfl hc
  · rfl

theorem parseIPv6_ellipsis {t : Str} (ht : t ≠ []) :
    parseIPv6 (':' :: ':' :: t) = (parseGroups 8 t [] (some 0)).bind expand := by
  unfold parseIPv6
  split
  · rename_i h
    cases h
    exact absurd rfl ht
  · rename_i h
    cases h
    rfl
  · rename_i h1 h2
    exact absurd rfl (h2 t)

/-- A text with `::` reads back. -/
theorem parseIPv6_run {before after : List Nat} {k : Nat} (hk : 0 < k)
    (hlen : before.length + k + after.length = 8) (hbefore : ∀ g ∈ before, g < 0x10000)
    (hafter : ∀ g ∈ after, g < 0x10000) :
    parseIPv6 (joinGroups before ++ "::".toList ++ joinGroups after) =
      some (bytesOf (before ++ List.replicate k 0 ++ after)) := by
  have hexpand := expand_run hk hlen
  rw [List.append_assoc]
  change parseIPv6 (joinGroups before ++ ':' :: ':' :: joinGroups after) = _
  by_cases hb : before = []
  · subst hb
    by_cases ha : after = []
    · subst ha
      have hk8 : k = 8 := by simpa using hlen
      subst hk8
      rfl
    · rw [show joinGroups [] = [] from rfl, List.nil_append,
        parseIPv6_ellipsis (joinGroups_ne_nil hafter ha),
        parseGroups_join hafter ha (by omega), Option.bind_some]
      exact hexpand
  · obtain ⟨g, rest, rfl⟩ := List.exists_cons_of_ne_nil hb
    obtain ⟨c, t, heq, hc⟩ := joinGroups_cons (hbefore g List.mem_cons_self) rest
    have hread : parseGroups 8 (joinGroups (g :: rest) ++ ':' :: ':' :: joinGroups after)
        [] none = _ :=
      parseGroups_join_ellipsis hbefore hb (by omega) (joinGroups after)
    rw [heq] at hread ⊢
    rw [List.cons_append] at hread ⊢
    rw [parseIPv6_of_ne hc, hread, List.nil_append]
    by_cases ha : after = []
    · subst ha
      rw [if_pos (show joinGroups [] = [] from rfl), Option.bind_some]
      simpa [bytesOf] using hexpand
    · rw [if_neg (joinGroups_ne_nil hafter ha), parseGroups_join hafter ha (by omega),
        Option.bind_some]
      exact hexpand

/-- Eight groups without `::` read back. -/
theorem parseIPv6_joinGroups {gs : List Nat} (hlen : gs.length = 8)
    (hgs : ∀ g ∈ gs, g < 0x10000) : parseIPv6 (joinGroups gs) = some (bytesOf gs) := by
  obtain ⟨g, rest, rfl⟩ : ∃ g rest, gs = g :: rest := by
    apply List.exists_cons_of_ne_nil
    rintro rfl
    cases hlen
  obtain ⟨c, t, heq, hc⟩ := joinGroups_cons (hgs g List.mem_cons_self) rest
  have hread : parseGroups 8 (joinGroups (g :: rest)) [] none = _ :=
    parseGroups_join hgs (by simp) (by omega)
  rw [heq, parseIPv6_of_ne hc, ← heq, hread, Option.bind_some, List.nil_append]
  unfold expand
  dsimp only
  rw [if_neg (by rw [length_bytesOf, hlen]; omega)]
  rfl

/-- The text of eight groups reads back. -/
theorem parseIPv6_appendTo6 {gs : List Nat} (hlen : gs.length = 8) (hgs : ∀ g ∈ gs, g < 0x10000) :
    parseIPv6 (appendTo6 gs) = some (bytesOf gs) := by
  unfold appendTo6
  rcases zeroRun_spec gs with hnone | ⟨hrun, hend, hsplit⟩
  · rw [hnone]
    dsimp only
    rw [if_pos rfl, parseIPv6_joinGroups hlen hgs]
  · have hstart : (zeroRun gs).1 ≠ 255 := by omega
    dsimp only
    rw [if_neg hstart, parseIPv6_run (k := (zeroRun gs).2 - (zeroRun gs).1), ← hsplit]
    · omega
    · rw [List.length_take, List.length_drop]
      omega
    · exact fun g hg => hgs g (List.mem_of_mem_take hg)
    · exact fun g hg => hgs g (List.mem_of_mem_drop hg)

theorem mem_joinGroups {gs : List Nat} (hgs : ∀ g ∈ gs, g < 0x10000) {c : Char}
    (hc : c ∈ joinGroups gs) : isHex c = true ∨ c = ':' := by
  induction gs with
  | nil => cases hc
  | cons g rest ih =>
    have hg := hgs g List.mem_cons_self
    cases rest with
    | nil =>
      left
      exact (appendHex_spec hg).2.2 c (by simpa [joinGroups] using hc)
    | cons g' more =>
      rw [joinGroups_cons_cons, List.mem_append, List.mem_cons] at hc
      rcases hc with hc | rfl | hc
      · exact Or.inl ((appendHex_spec hg).2.2 c hc)
      · exact Or.inr rfl
      · exact ih (fun x hx => hgs x (List.mem_cons_of_mem _ hx)) hc

theorem colon_mem_joinGroups {gs : List Nat} (hlen : gs.length = 8) : ':' ∈ joinGroups gs := by
  obtain ⟨g, g', rest, rfl⟩ := exists_cons_cons (l := gs) (by omega)
  rw [joinGroups_cons_cons]
  simp

/-- The text of groups has hex digits and colons, and at least one colon. -/
theorem mem_appendTo6 {gs : List Nat} (hlen : gs.length = 8) (hgs : ∀ g ∈ gs, g < 0x10000) :
    ':' ∈ appendTo6 gs ∧ ∀ c ∈ appendTo6 gs, isHex c = true ∨ c = ':' := by
  unfold appendTo6
  dsimp only
  split
  · exact ⟨colon_mem_joinGroups hlen, fun c hc => mem_joinGroups hgs hc⟩
  · refine ⟨by simp, ?_⟩
    intro c hc
    rw [List.mem_append, List.mem_append] at hc
    rcases hc with (hc | hc) | hc
    · exact mem_joinGroups (fun g hg => hgs g (List.mem_of_mem_take hg)) hc
    · right
      simpa using hc
    · exact mem_joinGroups (fun g hg => hgs g (List.mem_of_mem_drop hg)) hc

/-- A text of hex digits and colons is read as an IPv6 address without a zone. -/
theorem parseAddr_of_hex {s : Str} (hcolon : ':' ∈ s)
    (hchars : ∀ c ∈ s, isHex c = true ∨ c = ':') :
    parseAddr s = (parseIPv6 s).map (fun ip => ⟨ip, []⟩) := by
  have hfind : s.find? isMark = some ':' := by
    cases h : s.find? isMark with
    | none => exact absurd rfl (List.find?_eq_none.mp h ':' hcolon)
    | some c =>
      have hmark := List.find?_some h
      rcases hchars c (List.mem_of_find?_eq_some h) with hhex | rfl
      · simp only [isMark, decide_eq_true_eq] at hmark
        rcases hmark with rfl | rfl | rfl <;> exact absurd hhex (by decide)
      · rfl
  have hcut : cut s '%' = none := by
    unfold cut
    rw [if_neg]
    intro hmem
    rcases hchars '%' hmem with h | h <;> exact absurd h (by decide)
  unfold parseAddr
  unfold isMark at hfind
  rw [hfind, hcut]
  rfl

/-- The text of the groups of an address reads back as the address. -/
theorem parseIP_appendTo6 {ip : IP} (h : ip.length = 16) :
    parseIP (appendTo6 (groups ip)) = some ip := by
  have h8 : ip.length = 2 * 8 := h
  unfold parseIP
  obtain ⟨hcolon, hchars⟩ := mem_appendTo6 (length_groups h8) (groups_lt ip)
  rw [parseAddr_of_hex hcolon hchars, parseIPv6_appendTo6 (length_groups h8) (groups_lt ip),
    bytesOf_groups h8]
  simp [to16, h]

/-- The text of an address reads back as its 16-byte form. -/
theorem parseIP_ipString {ip : IP} (h : ip.length = 4 ∨ ip.length = 16) :
    parseIP (ipString ip) = to16 ip := by
  unfold ipString
  cases h4 : to4 ip with
  | some a =>
    have ha := length_to4 h4
    have hip : to16 a = to16 ip := by
      unfold to4 at h4
      split at h4
      · cases h4
        rfl
      · split at h4
        · rename_i hne hmapped
          cases h4
          unfold to16
          rw [if_pos (by simp [hmapped.1]), if_neg hne, if_pos hmapped.1, ← hmapped.2,
            List.take_append_drop]
        · cases h4
    obtain ⟨w, x, y, z, rfl⟩ := List.length_eq_four.mp ha
    dsimp only
    unfold parseIP
    rw [parseAddr_dotted]
    exact hip
  | none =>
    have h16 : ip.length = 16 := by
      rcases h with hlen | hlen
      · simp [to4, hlen] at h4
      · exact hlen
    dsimp only
    rw [if_pos h16, parseIP_appendTo6 h16, to16, if_neg (by omega), if_pos h16]

/-- So does the text with no zeros left out. -/
theorem parseIP_joinGroups {ip : IP} (h : ip.length = 16) :
    parseIP (joinGroups (groups ip)) = some ip := by
  have h8 : ip.length = 2 * 8 := h
  have hlen := length_groups h8
  unfold parseIP
  rw [parseAddr_of_hex (colon_mem_joinGroups hlen) (fun c hc => mem_joinGroups (groups_lt ip) hc),
    parseIPv6_joinGroups hlen (groups_lt ip), bytesOf_groups h8]
  simp [to16, h]

theorem mem_dotted {ip : IP} (h : ip.length = 4) {c : Char} (hc : c ∈ dotted ip) :
    isDigit c = true ∨ c = '.' := by
  obtain ⟨w, x, y, z, rfl⟩ := List.length_eq_four.mp h
  simp only [dotted, List.map_cons, List.map_nil, List.intercalate_cons_cons,
    List.intercalate_singleton, List.mem_append, List.mem_singleton] at hc
  obtain ((h | h) | (h | h) | (h | h) | h) := hc
  · exact Or.inl (mem_appendDecimal h)
  · exact Or.inr h
  · exact Or.inl (mem_appendDecimal h)
  · exact Or.inr h
  · exact Or.inl (mem_appendDecimal h)
  · exact Or.inr h
  · exact Or.inl (mem_appendDecimal h)

/-- The text of the groups has a colon and no brackets. -/
theorem plain_appendTo6 {ip : IP} (h : ip.length = 16) :
    ':' ∈ appendTo6 (groups ip) ∧ Plain (appendTo6 (groups ip)) := by
  have h8 : ip.length = 2 * 8 := h
  obtain ⟨hcolon, hchars⟩ := mem_appendTo6 (length_groups h8) (groups_lt ip)
  refine ⟨hcolon, fun hmem => ?_, fun hmem => ?_⟩ <;> exact absurd (hchars _ hmem) (by decide)

/-- The text of an address has no brackets. -/
theorem plain_ipString {ip : IP} (h : ip.length = 4 ∨ ip.length = 16) : Plain (ipString ip) := by
  unfold ipString
  cases h4 : to4 ip with
  | some a =>
    have hchars : ∀ c ∈ dotted a, isDigit c = true ∨ c = '.' :=
      fun c hc => mem_dotted (length_to4 h4) hc
    refine ⟨fun hmem => ?_, fun hmem => ?_⟩ <;> exact absurd (hchars _ hmem) (by decide)
  | none =>
    have h16 : ip.length = 16 := by
      rcases h with h | h
      · simp [to4, h] at h4
      · exact h
    dsimp only
    rw [if_pos h16]
    exact (plain_appendTo6 h16).2

end go.net
