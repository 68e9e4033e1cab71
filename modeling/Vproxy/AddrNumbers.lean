-- Addresses as numbers. A network of package net is the range of the numbers that agree
-- with it on the leading bits, and an IPv4 address in its IPv6 form counts as IPv4.
import Vproxy.NetAddr
import Mathlib.Data.Nat.Digits.Defs

namespace go.net

/-! ## The number of an address -/

/-- The number that these bytes write, the first byte highest. -/
def number (ip : IP) : Nat := Nat.ofDigits 256 (ip.reverse.map UInt8.toNat)

@[simp] theorem number_nil : number [] = 0 := rfl

theorem number_cons (b : UInt8) (ip : IP) :
    number (b :: ip) = 2 ^ (8 * ip.length) * b.toNat + number ip := by
  unfold number
  rw [List.reverse_cons, List.map_append, Nat.ofDigits_append, Nat.pow_mul]
  simp [Nat.add_comm]

theorem lt_of_mem_digits {ip : IP} {x : Nat} (h : x ∈ ip.reverse.map UInt8.toNat) : x < 256 := by
  obtain ⟨b, -, rfl⟩ := List.mem_map.mp h
  exact b.toNat_lt

theorem number_lt (ip : IP) : number ip < 2 ^ (8 * ip.length) := by
  have hdigits : ∀ x ∈ ip.reverse.map UInt8.toNat, x < 256 := fun _ => lt_of_mem_digits
  have hlt := Nat.ofDigits_lt_base_pow_length (by decide) hdigits
  rw [List.length_map, List.length_reverse] at hlt
  rw [Nat.pow_mul]
  exact hlt

theorem number_inj {ip jp : IP} (hlen : ip.length = jp.length) (h : number ip = number jp) :
    ip = jp := by
  have hmap := Nat.ofDigits_inj_of_len_eq (by decide) (by simp [hlen])
    (fun _ => lt_of_mem_digits) (fun _ => lt_of_mem_digits) h
  have hbytes : Function.Injective UInt8.toNat := fun _ _ => UInt8.toNat_inj.mp
  exact List.reverse_injective (List.map_injective_iff.mpr hbytes hmap)

/-- An address as a number of 32 or 128 bits. -/
structure Numeric where
  bits : Nat
  value : Nat
  deriving DecidableEq, Repr

/-- The number of an address; a mapped address is the IPv4 address in it. -/
def numeric (ip : IP) : Numeric :=
  match to4 ip with
  | some a => ⟨32, number a⟩
  | none => ⟨128, number ip⟩

/-! ## Ranges -/

structure Range where
  bits : Nat
  first : Nat
  last : Nat
  deriving DecidableEq, Repr

def Range.Has (r : Range) (a : Numeric) : Prop :=
  a.bits = r.bits ∧ r.first ≤ a.value ∧ a.value ≤ r.last

/-- The numbers that agree with `base` on the first `ones` bits. -/
def block (bits base ones : Nat) : Range :=
  let size := 2 ^ (bits - ones)
  ⟨bits, base / size * size, base / size * size + (size - 1)⟩

theorem has_block {bits base ones : Nat} {a : Numeric} :
    (block bits base ones).Has a ↔
      a.bits = bits ∧ a.value / 2 ^ (bits - ones) = base / 2 ^ (bits - ones) := by
  have hpos := Nat.two_pow_pos (bits - ones)
  unfold block Range.Has
  dsimp only
  generalize 2 ^ (bits - ones) = size at hpos ⊢
  have hsplit := Nat.div_add_mod a.value size
  have hmod := Nat.mod_lt a.value hpos
  rw [Nat.mul_comm] at hsplit
  apply and_congr_right
  intro _
  constructor
  · rintro ⟨hfirst, hlast⟩
    have hlow := (Nat.le_div_iff_mul_le hpos).mpr hfirst
    have hhigh : a.value / size < base / size + 1 := by
      apply (Nat.div_lt_iff_lt_mul hpos).mpr
      rw [Nat.add_mul, Nat.one_mul]
      omega
    omega
  · intro heq
    rw [heq] at hsplit
    omega

/-! ## Masks -/

theorem length_cidrMask (ones n : Nat) : (cidrMask ones n).length = n := by simp [cidrMask]

theorem maskByte_succ (ones i : Nat) : maskByte ones (i + 1) = maskByte (ones - 8) i := by
  have hall : (8 * (i + 1 + 1) ≤ ones) = (8 * (i + 1) ≤ ones - 8) := by
    apply propext
    omega
  have hnone : (ones ≤ 8 * (i + 1)) = (ones - 8 ≤ 8 * i) := by
    apply propext
    omega
  have hbits : ones - 8 * (i + 1) = ones - 8 - 8 * i := by omega
  unfold maskByte
  simp only [hall, hnone, hbits]

theorem cidrMask_succ (ones n : Nat) :
    cidrMask ones (n + 1) = maskByte ones 0 :: cidrMask (ones - 8) n := by
  unfold cidrMask
  rw [List.range_succ_eq_map, List.map_cons, List.map_map]
  congr 1
  apply List.map_congr_left
  intro i _
  exact maskByte_succ ones i

/-- The tail of a mask is a mask. -/
theorem drop_cidrMask (ones n k : Nat) :
    (cidrMask ones (n + k)).drop k = cidrMask (ones - 8 * k) n := by
  induction k generalizing ones with
  | zero => rfl
  | succ k ih =>
    have hbits : ones - 8 - 8 * k = ones - 8 * (k + 1) := by omega
    rw [← Nat.add_assoc, cidrMask_succ, List.drop_succ_cons, ih, hbits]

/-- A byte under a mask keeps its leading bits. -/
theorem and_maskByte (b : UInt8) (ones : Nat) :
    (b &&& maskByte ones 0).toNat = b.toNat / 2 ^ (8 - ones) * 2 ^ (8 - ones) := by
  have hall : ∀ k < 9, ∀ x < 256, x &&& (256 - 2 ^ k) % 256 = x / 2 ^ k * 2 ^ k := by
    decide +kernel
  have hbyte : (maskByte ones 0).toNat = (256 - 2 ^ (8 - ones)) % 256 := by
    unfold maskByte
    split
    · have hzero : 8 - ones = 0 := by omega
      rw [hzero]
      rfl
    · split
      · have hzero : 8 - ones = 8 := by omega
        rw [hzero]
        rfl
      · simp
  rw [UInt8.toNat_and, hbyte]
  exact hall _ (by omega) _ b.toNat_lt

theorem maskOnes_cidrMask {ones n : Nat} (h : ones ≤ 8 * n) : maskOnes (cidrMask ones n) = ones := by
  induction n generalizing ones with
  | zero =>
    have hzero : ones = 0 := by omega
    rw [hzero]
    rfl
  | succ n ih =>
    rw [cidrMask_succ]
    unfold maskOnes
    by_cases hones : 8 ≤ ones
    · have hfull : maskByte ones 0 = 255 := if_pos (by omega)
      rw [if_pos hfull, ih (by omega)]
      omega
    · have hpart : ∀ k < 8, maskByte k 0 ≠ 255 ∧
          ((List.range 8).takeWhile fun i => (maskByte k 0).toNat.testBit (7 - i)).length = k := by
        decide +kernel
      obtain ⟨hne, hlen⟩ := hpart ones (by omega)
      rw [if_neg hne, hlen]

theorem high_div {m j r : Nat} (b : Nat) (hr : r < 2 ^ m) :
    (2 ^ m * b + r) / 2 ^ (m + j) = b / 2 ^ j := by
  rw [Nat.pow_add, ← Nat.div_div_eq_div_mul, Nat.mul_add_div (Nat.two_pow_pos m),
    Nat.div_eq_of_lt hr, Nat.add_zero]

/-- Numbers with the same low part length agree above `s` bits of it when the high parts are
the same and the low parts agree. -/
theorem high_div_eq_iff {m s b c q r : Nat} (hq : q < 2 ^ m) (hr : r < 2 ^ m) (hs : s ≤ m) :
    (2 ^ m * b + q) / 2 ^ s = (2 ^ m * c + r) / 2 ^ s ↔ b = c ∧ q / 2 ^ s = r / 2 ^ s := by
  obtain ⟨k, rfl⟩ := Nat.exists_eq_add_of_le hs
  rw [Nat.pow_add] at hq hr ⊢
  have hpos := Nat.two_pow_pos s
  have hq' := Nat.div_lt_of_lt_mul hq
  have hr' := Nat.div_lt_of_lt_mul hr
  rw [Nat.mul_assoc, Nat.mul_assoc, Nat.mul_add_div hpos, Nat.mul_add_div hpos]
  constructor
  · intro heq
    have hhigh := congrArg (· / 2 ^ k) heq
    simp only [Nat.mul_add_div (Nat.two_pow_pos k), Nat.div_eq_of_lt hq',
      Nat.div_eq_of_lt hr', Nat.add_zero] at hhigh
    rw [hhigh] at heq
    exact ⟨hhigh, Nat.add_left_cancel heq⟩
  · rintro ⟨rfl, hlow⟩
    rw [hlow]

/-- Two addresses agree under a mask when their numbers agree on the leading bits. -/
theorem maskIP_eq_iff {n ones : Nat} {ip jp : IP} (hi : ip.length = n) (hj : jp.length = n) :
    maskIP ip (cidrMask ones n) = maskIP jp (cidrMask ones n) ↔
      number ip / 2 ^ (8 * n - ones) = number jp / 2 ^ (8 * n - ones) := by
  induction n generalizing ones ip jp with
  | zero =>
    rw [List.length_eq_zero_iff.mp hi, List.length_eq_zero_iff.mp hj]
    simp
  | succ n ih =>
    obtain ⟨b, ip, rfl⟩ := List.exists_cons_of_length_eq_add_one hi
    obtain ⟨c, jp, rfl⟩ := List.exists_cons_of_length_eq_add_one hj
    have hi' : ip.length = n := by simpa using hi
    have hj' : jp.length = n := by simpa using hj
    have hni := number_lt ip
    have hnj := number_lt jp
    have hbyte : b &&& maskByte ones 0 = c &&& maskByte ones 0 ↔
        b.toNat / 2 ^ (8 - ones) = c.toNat / 2 ^ (8 - ones) := by
      rw [← UInt8.toNat_inj, and_maskByte, and_maskByte]
      exact Nat.mul_left_inj (Nat.two_pow_pos _).ne'
    rw [cidrMask_succ, number_cons, number_cons, hi', hj']
    rw [hi'] at hni
    rw [hj'] at hnj
    simp only [maskIP, List.zipWith_cons_cons, List.cons.injEq, hbyte]
    rw [← maskIP, ← maskIP, ih hi' hj']
    by_cases hones : 8 ≤ ones
    · have hall : 8 - ones = 0 := by omega
      have hrest : 8 * n - (ones - 8) = 8 * (n + 1) - ones := by omega
      have hle : 8 * (n + 1) - ones ≤ 8 * n := by omega
      rw [hall, hrest, Nat.pow_zero, Nat.div_one, Nat.div_one]
      exact (high_div_eq_iff hni hnj hle).symm
    · -- the mask ends in the first byte, so the rest does not count
      have hrest : 8 * n - (ones - 8) = 8 * n := by omega
      have hexp : 8 * (n + 1) - ones = 8 * n + (8 - ones) := by omega
      rw [hrest, Nat.div_eq_of_lt hni, Nat.div_eq_of_lt hnj, hexp, high_div _ hni, high_div _ hnj]
      simp

/-! ## Networks -/

/-- The range of a network. -/
def IPNet.range (n : IPNet) : Range :=
  let (nn, m) := networkNumberAndMask n
  block (8 * nn.length) (number nn) (maskOnes m)

/-- The address that comparisons of package net look at. -/
theorem numeric_eq {ip : IP} (h : ip.length = 4 ∨ ip.length = 16) :
    numeric ip = ⟨8 * ((to4 ip).getD ip).length, number ((to4 ip).getD ip)⟩ := by
  unfold numeric
  cases h4 : to4 ip with
  | some a => rw [Option.getD_some, length_to4 h4]
  | none =>
    have hlen : ip.length = 16 := by
      rcases h with h | h
      · simp [to4, h] at h4
      · exact h
    rw [Option.getD_none, hlen]

/-- The mask that a parsed network is compared under is a mask of leading ones. -/
theorem networkNumberAndMask_spec {s : Str} {n : IPNet} (h : parseCIDR s = some n) :
    ∃ nn ones, networkNumberAndMask n = (nn, cidrMask ones nn.length) ∧ ones ≤ 8 * nn.length := by
  obtain ⟨base, ones, hlen, hones, rfl⟩ := parseCIDR_spec h
  have hnet : (maskIP base (cidrMask ones base.length)).length = base.length := by
    simp [maskIP, length_cidrMask]
  unfold networkNumberAndMask
  cases h4 : to4 (maskIP base (cidrMask ones base.length)) with
  | some a =>
    have ha := length_to4 h4
    rcases hlen with hlen | hlen
    · refine ⟨a, ones, ?_, by omega⟩
      rw [ha, hlen]
      rfl
    · refine ⟨a, ones - 96, ?_, by omega⟩
      rw [ha, hlen]
      exact congrArg (Prod.mk a) (drop_cidrMask ones 4 12)
  | none => exact ⟨_, ones, by rw [hnet], by omega⟩

/-- A parsed network has the addresses of its range. -/
theorem netContains_iff {s : Str} {n : IPNet} (h : parseCIDR s = some n) {ip : IP}
    (hip : ip.length = 4 ∨ ip.length = 16) :
    netContains n ip = true ↔ n.range.Has (numeric ip) := by
  obtain ⟨nn, ones, hnet, hones⟩ := networkNumberAndMask_spec h
  unfold netContains IPNet.range
  rw [hnet, numeric_eq hip]
  dsimp only
  generalize (to4 ip).getD ip = a
  rw [has_block, maskOnes_cidrMask hones]
  simp only [Bool.and_eq_true, beq_iff_eq, length_cidrMask, and_true]
  constructor
  · rintro ⟨hlen, heq⟩
    rw [maskIP_eq_iff rfl hlen] at heq
    exact ⟨by rw [hlen], heq.symm⟩
  · rintro ⟨hbits, heq⟩
    have hlen : a.length = nn.length := by
      omega
    exact ⟨hlen, (maskIP_eq_iff rfl hlen).mpr heq.symm⟩

end go.net
