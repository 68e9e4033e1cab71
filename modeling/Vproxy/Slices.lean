-- Slices as Go has them. A slice is the front of an array that may go on behind it. An index
-- stays below the length, but a slice expression may go past it, up to the end of the array.
-- What panics there gives nothing here.
import Mathlib.Data.List.TakeDrop

namespace slices

structure Slice (α : Type*) where
  array : List α
  len : Nat
  len_le : len ≤ array.length

variable {α : Type*}

/-- The elements up to the length. -/
def Slice.data (s : Slice α) : List α := s.array.take s.len

/-- `s[i]`. -/
def Slice.index (s : Slice α) (i : Nat) : Option α := if i < s.len then s.array[i]? else none

/-- The elements of `s[lo:hi]`. -/
def Slice.between (s : Slice α) (lo hi : Nat) : Option (List α) :=
  if lo ≤ hi ∧ hi ≤ s.array.length then some ((s.array.take hi).drop lo) else none

/-- `s[lo:]`. -/
def Slice.sliceFrom (s : Slice α) (lo : Nat) : Option (Slice α) :=
  if lo ≤ s.len then
    some ⟨s.array.drop lo, s.len - lo, by rw [List.length_drop]; exact Nat.sub_le_sub_right s.len_le lo⟩
  else none

/-- `s[:hi]`. -/
def Slice.sliceTo (s : Slice α) (hi : Nat) : Option (Slice α) :=
  if h : hi ≤ s.array.length then some ⟨s.array, hi, h⟩ else none

/-- `buffer[:n]` of a buffer that holds `data` and goes on with `stale`. -/
def Slice.over (data stale : List α) : Slice α := ⟨data ++ stale, data.length, by simp⟩

@[simp] theorem len_over (data stale : List α) : (Slice.over data stale).len = data.length := rfl

@[simp] theorem array_over (data stale : List α) : (Slice.over data stale).array = data ++ stale :=
  rfl

@[simp] theorem data_over (data stale : List α) : (Slice.over data stale).data = data := by
  simp [Slice.over, Slice.data]

theorem length_data (s : Slice α) : s.data.length = s.len := by
  simp [Slice.data, s.len_le]

theorem index_eq (s : Slice α) (i : Nat) : s.index i = s.data[i]? := by
  unfold Slice.index Slice.data
  rw [List.getElem?_take]

theorem between_of_le {s : Slice α} {lo hi : Nat} (hlo : lo ≤ hi) (hhi : hi ≤ s.len) :
    s.between lo hi = some ((s.data.take hi).drop lo) := by
  unfold Slice.between Slice.data
  rw [if_pos ⟨hlo, Nat.le_trans hhi s.len_le⟩, List.take_take, Nat.min_eq_left hhi]

/-- A slice expression from the end of `front` on reads what is left and then what is stale. -/
theorem between_over (front rest stale : List α) (m : Nat) :
    (Slice.over (front ++ rest) stale).between front.length (front.length + m) =
      if m ≤ (rest ++ stale).length then some ((rest ++ stale).take m) else none := by
  have hroom : front.length ≤ front.length + m ∧
      front.length + m ≤ (front ++ (rest ++ stale)).length ↔ m ≤ (rest ++ stale).length := by
    rw [List.length_append]
    omega
  unfold Slice.between Slice.over
  simp only [List.append_assoc, List.drop_take, List.drop_left, Nat.add_sub_cancel_left]
  exact if_congr hroom rfl rfl

/-- `s[lo:]` within the length. -/
theorem sliceFrom_of_le {s : Slice α} {lo : Nat} (h : lo ≤ s.len) :
    ∃ rest, s.sliceFrom lo = some rest ∧ rest.len = s.len - lo ∧ rest.data = s.data.drop lo := by
  unfold Slice.sliceFrom
  rw [if_pos h]
  exact ⟨_, rfl, rfl, List.drop_take.symm⟩

/-- `s[:hi]` within the length. -/
theorem sliceTo_of_le {s : Slice α} {hi : Nat} (h : hi ≤ s.len) :
    ∃ front, s.sliceTo hi = some front ∧ front.len = hi ∧ front.data = s.data.take hi := by
  unfold Slice.sliceTo
  rw [dif_pos (Nat.le_trans h s.len_le)]
  refine ⟨_, rfl, rfl, ?_⟩
  rw [Slice.data, Slice.data, List.take_take, Nat.min_eq_left h]

/-- `s[lo:][:n]`. -/
theorem sliceFrom_sliceTo (s : Slice α) (lo n : Nat) :
    (s.sliceFrom lo).bind (·.sliceTo n) =
      if h : lo ≤ s.len ∧ lo + n ≤ s.array.length then
        some ⟨s.array.drop lo, n, by rw [List.length_drop]; omega⟩
      else none := by
  unfold Slice.sliceFrom Slice.sliceTo
  by_cases hlo : lo ≤ s.len
  · rw [if_pos hlo, Option.bind_some]
    by_cases hn : lo + n ≤ s.array.length
    · rw [dif_pos (by rw [List.length_drop]; omega), dif_pos ⟨hlo, hn⟩]
    · rw [dif_neg, dif_neg (fun h => hn h.2)]
      have := s.len_le
      rw [List.length_drop]
      omega
  · rw [if_neg hlo, dif_neg (fun h => hlo h.1), Option.bind_none]

end slices
