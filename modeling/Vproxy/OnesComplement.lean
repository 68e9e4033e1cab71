-- Sums of sixteen bit words in one's complement, as Internet checksums are made. A carry
-- out of the highest bit is added at the lowest. Such a sum is the plain sum of the words
-- modulo 65535, and it is zero only when every word is.
import Mathlib.Data.List.Basic

namespace ones

/-! ## Words -/

/-- The sum with the carry at the end. -/
def add (a b : UInt16) : UInt16 :=
  UInt16.ofNat ((a.toNat + b.toNat) % 65536 + (a.toNat + b.toNat) / 65536)

/-- All bits turned around. -/
def complement (a : UInt16) : UInt16 := UInt16.ofNat (65535 - a.toNat)

def word (hi lo : UInt8) : UInt16 := UInt16.ofNat (256 * hi.toNat + lo.toNat)

/-- The two bytes of a word, the higher one first. -/
def wordBytes (a : UInt16) : List UInt8 :=
  [UInt8.ofNat (a.toNat / 256), UInt8.ofNat (a.toNat % 256)]

@[simp] theorem length_wordBytes (a : UInt16) : (wordBytes a).length = 2 := rfl

theorem toNat_add (a b : UInt16) :
    (add a b).toNat =
      if a.toNat + b.toNat < 65536 then a.toNat + b.toNat else a.toNat + b.toNat - 65535 := by
  have ha := a.toNat_lt
  have hb := b.toNat_lt
  unfold add
  rw [UInt16.toNat_ofNat']
  split <;> omega

theorem add_mod (a b : UInt16) : (add a b).toNat % 65535 = (a.toNat + b.toNat) % 65535 := by
  rw [toNat_add]
  split <;> omega

theorem toNat_complement (a : UInt16) : (complement a).toNat = 65535 - a.toNat := by
  unfold complement
  rw [UInt16.toNat_ofNat']
  omega

theorem toNat_word (hi lo : UInt8) : (word hi lo).toNat = 256 * hi.toNat + lo.toNat := by
  have hhi := hi.toNat_lt
  have hlo := lo.toNat_lt
  unfold word
  rw [UInt16.toNat_ofNat']
  omega

/-! ## Buffers -/

/-- The running sum over the words of a buffer; an odd byte at the end is a high one. -/
def checksum : List UInt8 → UInt16 → UInt16
  | [], sum => sum
  | [a], sum => add sum (word a 0)
  | a :: b :: rest, sum => checksum rest (add sum (word a b))

/-- The plain sum of the words. -/
def total : List UInt8 → Nat
  | [] => 0
  | [a] => 256 * a.toNat
  | a :: b :: rest => 256 * a.toNat + b.toNat + total rest

theorem checksum_mod (buf : List UInt8) (sum : UInt16) :
    (checksum buf sum).toNat % 65535 = (sum.toNat + total buf) % 65535 := by
  induction buf, sum using checksum.induct with
  | case1 sum => rfl
  | case2 a sum =>
    rw [checksum, total, toNat_add, toNat_word, UInt8.toNat_zero]
    split <;> omega
  | case3 a b rest sum ih =>
    rw [checksum, total, ih, toNat_add, toNat_word]
    split <;> omega

theorem checksum_eq_zero_iff (buf : List UInt8) (sum : UInt16) :
    checksum buf sum = 0 ↔ sum.toNat + total buf = 0 := by
  rw [← UInt16.toNat_inj, UInt16.toNat_zero]
  induction buf, sum using checksum.induct with
  | case1 sum => rfl
  | case2 a sum =>
    have := sum.toNat_lt
    rw [checksum, total, toNat_add, toNat_word, UInt8.toNat_zero]
    split <;> omega
  | case3 a b rest sum ih =>
    have := sum.toNat_lt
    rw [checksum, total, ih, toNat_add, toNat_word]
    split <;> omega

/-- The sum is all ones when the words sum up to a multiple of 65535, but not to zero. -/
theorem checksum_eq_ones_iff (buf : List UInt8) (sum : UInt16) :
    checksum buf sum = 0xffff ↔
      (sum.toNat + total buf) % 65535 = 0 ∧ 0 < sum.toNat + total buf := by
  have hlt := (checksum buf sum).toNat_lt
  have hmod := checksum_mod buf sum
  have hzero := checksum_eq_zero_iff buf sum
  rw [← UInt16.toNat_inj, UInt16.toNat_zero] at hzero
  rw [← UInt16.toNat_inj]
  have hones : (0xffff : UInt16).toNat = 65535 := rfl
  omega

/-- Both forms of zero. -/
theorem checksum_zero_or_ones_iff (buf : List UInt8) (sum : UInt16) :
    checksum buf sum = 0 ∨ checksum buf sum = 0xffff ↔ (sum.toNat + total buf) % 65535 = 0 := by
  rw [checksum_eq_zero_iff, checksum_eq_ones_iff]
  omega

/-- Twice a number is a multiple of 65535 only if the number is: 65535 is odd. -/
theorem double_mod {a b : Nat} (h : a % 65535 = b % 65535) :
    (a + b) % 65535 = 0 ↔ a % 65535 = 0 := by
  rw [Nat.add_mod, ← h]
  have hlt : a % 65535 < 65535 := Nat.mod_lt _ (by decide)
  generalize a % 65535 = r at hlt
  by_cases hsmall : r + r < 65535
  · rw [Nat.mod_eq_of_lt hsmall]
    omega
  · rw [Nat.mod_eq_sub_mod (by omega), Nat.mod_eq_of_lt (by omega)]
    omega

/-! ## Parts of a buffer -/

theorem total_append {front : List UInt8} (h : front.length % 2 = 0) (rest : List UInt8) :
    total (front ++ rest) = total front + total rest := by
  induction front using total.induct with
  | case1 => simp [total]
  | case2 a => simp at h
  | case3 a b front ih =>
    have := ih (by simp at h; omega)
    simp only [List.cons_append, total, this]
    omega

theorem total_wordBytes (a : UInt16) : total (wordBytes a) = a.toNat := by
  have := a.toNat_lt
  simp only [wordBytes, total, UInt8.toNat_ofNat']
  omega

/-- A write of `new` at an offset. -/
def splice (buf : List UInt8) (i : Nat) (new : List UInt8) : List UInt8 :=
  buf.take i ++ new ++ buf.drop (i + new.length)

section Splice

variable {buf new : List UInt8} {i : Nat}

theorem length_splice (h : i + new.length ≤ buf.length) :
    (splice buf i new).length = buf.length := by
  simp [splice]
  omega

/-- A write changes the places that it covers. -/
theorem getElem?_splice (h : i + new.length ≤ buf.length) (j : Nat) :
    (splice buf i new)[j]? =
      if i ≤ j ∧ j < i + new.length then new[j - i]? else buf[j]? := by
  have hi : (buf.take i).length = i := by simp; omega
  unfold splice
  rw [List.append_assoc]
  by_cases hlo : j < i
  · rw [List.getElem?_append_left (by omega), List.getElem?_take_of_lt hlo, if_neg (by omega)]
  · rw [List.getElem?_append_right (by omega), hi]
    by_cases hhi : j < i + new.length
    · rw [List.getElem?_append_left (by omega), if_pos ⟨by omega, hhi⟩]
    · rw [List.getElem?_append_right (by omega), List.getElem?_drop, if_neg (by omega)]
      congr 1
      omega

/-- A write of words adds what is written and takes away what was there. -/
theorem total_splice (h : i + new.length ≤ buf.length) (hi : i % 2 = 0)
    (hnew : new.length % 2 = 0) :
    total (splice buf i new) + total ((buf.drop i).take new.length) = total buf + total new := by
  have hfront : (buf.take i).length % 2 = 0 := by
    rw [List.length_take]
    omega
  have hold : ((buf.drop i).take new.length).length % 2 = 0 := by
    rw [List.length_take, List.length_drop]
    omega
  have hbuf : buf = buf.take i ++ ((buf.drop i).take new.length ++ buf.drop (i + new.length)) := by
    rw [← List.drop_drop, List.take_append_drop, List.take_append_drop]
  have htotal := congrArg total hbuf
  rw [total_append hfront, total_append hold] at htotal
  rw [splice, List.append_assoc, total_append hfront, total_append hnew]
  omega

/-- A part of the buffer that a write does not touch. -/
theorem drop_take_splice (h : i + new.length ≤ buf.length) {lo n : Nat}
    (hout : lo + n ≤ i ∨ i + new.length ≤ lo) :
    ((splice buf i new).drop lo).take n = (buf.drop lo).take n := by
  apply List.ext_getElem?
  intro j
  by_cases hj : j < n
  · rw [List.getElem?_take_of_lt hj, List.getElem?_take_of_lt hj, List.getElem?_drop,
      List.getElem?_drop, getElem?_splice h, if_neg (by omega)]
  · rw [List.getElem?_take_eq_none (by omega), List.getElem?_take_eq_none (by omega)]

/-- The part that a write covers. -/
theorem drop_take_splice_self (h : i + new.length ≤ buf.length) :
    ((splice buf i new).drop i).take new.length = new := by
  have hi : (buf.take i).length = i := by simp; omega
  rw [splice, List.append_assoc, List.drop_append_of_le_length (by omega),
    List.drop_of_length_le (by omega), List.nil_append, List.take_left]

/-- A write inside a part of the buffer is a write of the part. -/
theorem drop_take_splice_inside (h : i + new.length ≤ buf.length) {lo n : Nat} (hlo : lo ≤ i)
    (hhi : i + new.length ≤ lo + n) :
    ((splice buf i new).drop lo).take n = splice ((buf.drop lo).take n) (i - lo) new := by
  have hpart : i - lo + new.length ≤ ((buf.drop lo).take n).length := by
    rw [List.length_take, List.length_drop]
    omega
  apply List.ext_getElem?
  intro j
  rw [getElem?_splice hpart]
  by_cases hj : j < n
  · rw [List.getElem?_take_of_lt hj, List.getElem?_take_of_lt hj, List.getElem?_drop,
      List.getElem?_drop, getElem?_splice h]
    by_cases hin : i ≤ lo + j ∧ lo + j < i + new.length
    · rw [if_pos hin, if_pos (by omega)]
      congr 1
      omega
    · rw [if_neg hin, if_neg (by omega)]
  · rw [List.getElem?_take_eq_none (by omega), if_neg (by omega),
      List.getElem?_take_eq_none (by omega)]

theorem drop_splice (h : i + new.length ≤ buf.length) {lo : Nat} (hlo : i + new.length ≤ lo) :
    (splice buf i new).drop lo = buf.drop lo := by
  apply List.ext_getElem?
  intro j
  rw [List.getElem?_drop, List.getElem?_drop, getElem?_splice h, if_neg (by omega)]

theorem take_splice (h : i + new.length ≤ buf.length) {n : Nat} (hn : n ≤ i) :
    (splice buf i new).take n = buf.take n := by
  have hpart : ((splice buf i new).drop 0).take n = (buf.drop 0).take n :=
    drop_take_splice h (by omega)
  simpa using hpart

theorem take_splice_inside (h : i + new.length ≤ buf.length) {n : Nat}
    (hn : i + new.length ≤ n) : (splice buf i new).take n = splice (buf.take n) i new := by
  have hpart : ((splice buf i new).drop 0).take n = splice ((buf.drop 0).take n) (i - 0) new :=
    drop_take_splice_inside h (by omega) (by omega)
  simpa using hpart

/-- A sum that is stored in its own place without being complemented: the buffer sums up to
all ones only if it did before. -/
theorem checksum_store_sum (h : i + 2 ≤ buf.length) (hi : i % 2 = 0)
    (hempty : (buf.drop i).take 2 = [0, 0]) :
    checksum (splice buf i (wordBytes (checksum buf 0))) 0 = 0xffff ↔ checksum buf 0 = 0xffff := by
  have hmod := checksum_mod buf 0
  have hzero := checksum_eq_zero_iff buf 0
  rw [← UInt16.toNat_inj] at hzero
  rw [checksum_eq_ones_iff, checksum_eq_ones_iff, UInt16.toNat_zero]
  generalize checksum buf 0 = sum at hmod hzero ⊢
  have htotal : total (splice buf i (wordBytes sum)) + total ((buf.drop i).take 2) =
      total buf + total (wordBytes sum) :=
    total_splice (by simpa using h) hi (by simp)
  rw [hempty, total_wordBytes] at htotal
  simp only [total, UInt16.toNat_zero, UInt8.toNat_zero] at htotal hmod hzero
  have hdouble : (0 + total buf + sum.toNat) % 65535 = 0 ↔ (0 + total buf) % 65535 = 0 :=
    double_mod hmod.symm
  rw [show 0 + total (splice buf i (wordBytes sum)) = 0 + total buf + sum.toNat by omega, hdouble]
  omega

end Splice

end ones
