-- Binary64 numbers as their bits. Two numbers are compared as IEEE 754 says: a NaN is neither
-- equal to a number nor below one, and the two zeros are equal.
import Mathlib.Algebra.Group.Nat.Defs
import Mathlib.Data.Int.Order.Basic

namespace floats

structure F64 where
  bits : BitVec 64
  deriving DecidableEq, Repr

namespace F64

def negative (x : F64) : Bool := 2 ^ 63 ≤ x.bits.toNat

/-- The bits without the sign. They order the numbers of one sign. -/
def magnitude (x : F64) : Nat := x.bits.toNat % 2 ^ 63

/-- All bits of the exponent are set, and some bit of the fraction is. -/
def isNaN (x : F64) : Bool := 0x7FF0000000000000 < x.magnitude

/-- Where the number stands among all numbers. -/
def rank (x : F64) : Int := if x.negative then -x.magnitude else x.magnitude

def le (x y : F64) : Bool := !x.isNaN && !y.isNaN && x.rank ≤ y.rank

def eq (x y : F64) : Bool := !x.isNaN && !y.isNaN && x.rank == y.rank

def zero : F64 := ⟨0⟩

def one : F64 := ⟨0x3FF0000000000000⟩

theorem rank_le_zero_of_negative {x : F64} (h : x.negative) : x.rank ≤ zero.rank := by
  have hzero : zero.rank = 0 := by decide
  rw [rank, if_pos h, hzero]
  omega

theorem not_negative_of_not_le_zero {x : F64} (hnan : x.isNaN = false) (h : x.le zero = false) :
    x.negative = false := by
  have hzero : zero.isNaN = false := by decide
  by_contra hneg
  rw [Bool.not_eq_false] at hneg
  have hle : x.le zero := by simp [le, hnan, hzero, rank_le_zero_of_negative hneg]
  simp [hle] at h

/-- Above zero, numbers that compare as equal are the same bits. -/
theorem eq_of_eq_of_not_le_zero {x y : F64} (h : x.eq y) (hx : x.le zero = false)
    (hy : y.le zero = false) : x = y := by
  simp only [eq, Bool.and_eq_true, Bool.not_eq_true', beq_iff_eq] at h
  obtain ⟨⟨hxnan, hynan⟩, hrank⟩ := h
  have hxneg := not_negative_of_not_le_zero hxnan hx
  have hyneg := not_negative_of_not_le_zero hynan hy
  simp only [rank, hxneg, hyneg, Bool.false_eq_true, if_false, Int.ofNat_inj] at hrank
  simp only [negative, decide_eq_false_iff_not, Nat.not_le] at hxneg hyneg
  rw [magnitude, magnitude, Nat.mod_eq_of_lt hxneg, Nat.mod_eq_of_lt hyneg] at hrank
  obtain ⟨xbits⟩ := x
  obtain ⟨ybits⟩ := y
  rw [mk.injEq]
  exact BitVec.eq_of_toNat_eq hrank

end F64

end floats
