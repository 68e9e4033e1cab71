-- A log in generations, the newest at 0. Records are added to the newest one, and a shift makes
-- every generation one older. Nothing is dropped here: a program that keeps only some of the
-- generations shows the youngest of them.
import Mathlib.Data.List.Basic
import Mathlib.Logic.Function.Basic

namespace generations

variable {α : Type*}

/-- What each generation holds. One may be missing. -/
abbrev Gens (α : Type*) := Nat → Option (List α)

def shift (g : Gens α) : Gens α
  | 0 => some []
  | k + 1 => g k

/-- Adds a record to the newest generation. -/
def push (g : Gens α) (p : List α) : Gens α :=
  Function.update g 0 (some ((g 0).getD [] ++ p))

/-- The generations up to `n`, the oldest first. -/
def joined (g : Gens α) : Nat → List α
  | 0 => (g 0).getD []
  | n + 1 => (g (n + 1)).getD [] ++ joined g n

theorem joined_congr {g g' : Gens α} {n : Nat} (h : ∀ k ≤ n, g k = g' k) :
    joined g n = joined g' n := by
  induction n with
  | zero => rw [joined, joined, h 0 (Nat.le_refl 0)]
  | succ n ih =>
    rw [joined, joined, h (n + 1) (Nat.le_refl _), ih fun k hk => h k (Nat.le_succ_of_le hk)]

theorem joined_shift (g : Gens α) (n : Nat) : joined (shift g) (n + 1) = joined g n := by
  induction n with
  | zero => simp [joined, shift]
  | succ n ih => rw [joined, ih, joined, shift]

theorem joined_push (g : Gens α) (p : List α) (n : Nat) :
    joined (push g p) n = joined g n ++ p := by
  induction n with
  | zero => simp [joined, push]
  | succ n ih =>
    rw [joined, ih, joined, push, Function.update_of_ne (Nat.succ_ne_zero n), List.append_assoc]

theorem joined_suffix (g : Gens α) (n m : Nat) : joined g n <:+ joined g (n + m) := by
  induction m with
  | zero => exact List.suffix_refl _
  | succ m ih => exact ih.trans (List.suffix_append _ _)

/-! ## Groups of records -/

/-- Which records each generation holds, the newest group first: the generations of `base` have
moved on unchanged, but for the newest of them, which got the first group added. -/
structure Grouped (base : Gens α) (groups : List (List (List α))) (g : Gens α) : Prop where
  young : ∀ k group, groups[k]? = some group →
    g k = some ((if k + 1 = groups.length then (base 0).getD [] else []) ++ group.flatten)
  old : ∀ k, groups.length ≤ k → g k = base (k + 1 - groups.length)

theorem grouped_start (base : Gens α) : Grouped base [[]] (push base []) where
  young k group hk := by
    obtain ⟨rfl, rfl⟩ : k = 0 ∧ group = [] := by
      cases k with
      | zero => exact ⟨rfl, by simpa using hk.symm⟩
      | succ k => simp at hk
    simp [push]
  old k hk := by
    rw [push, Function.update_of_ne (by simp at hk; omega)]
    simp

theorem Grouped.shift {base g : Gens α} {groups : List (List (List α))}
    (h : Grouped base groups g) (hne : groups ≠ []) :
    Grouped base ([] :: groups) (shift g) where
  young k group hk := by
    cases k with
    | zero =>
      obtain rfl : group = [] := by simpa using hk.symm
      simp [generations.shift, hne]
    | succ k =>
      have hyoung := h.young k group (by simpa using hk)
      simpa [generations.shift] using hyoung
  old k hk := by
    rw [List.length_cons] at hk ⊢
    cases k with
    | zero => omega
    | succ k =>
      rw [generations.shift, h.old k (by omega)]
      congr 1
      omega

theorem Grouped.push {base g : Gens α} {group : List (List α)} {older : List (List (List α))}
    (h : Grouped base (group :: older) g) (p : List α) :
    Grouped base ((group ++ [p]) :: older) (push g p) where
  young k group' hk := by
    cases k with
    | zero =>
      obtain rfl : group' = group ++ [p] := by simpa using hk.symm
      have hyoung := h.young 0 group rfl
      simp [generations.push, hyoung]
    | succ k =>
      rw [generations.push, Function.update_of_ne (Nat.succ_ne_zero k)]
      exact h.young (k + 1) group' hk
  old k hk := by
    rw [List.length_cons] at hk
    rw [generations.push, Function.update_of_ne (by omega)]
    exact h.old k hk

/-! ## Moves that may fail -/

/-- One generation is moved one place on, over what is there. -/
def moveOn (g : Gens α) (i : Nat) : Gens α :=
  Function.update (Function.update g i none) (i + 1) (g i)

/-- A generation is moved onto this place. -/
def covered (marks : Nat → Bool) : Nat → Bool
  | 0 => false
  | k + 1 => marks k

/-- Each marked generation has been moved one place on, the oldest first. -/
def moved (marks : Nat → Bool) (g : Gens α) (k : Nat) : Option (List α) :=
  if covered marks k then g (k - 1) else if marks k then none else g k

/-- Where a generation is after these moves. It is gone where one was moved over it. -/
def place (marks : Nat → Bool) (k : Nat) : Option Nat :=
  if marks k then some (k + 1) else if covered marks k then none else some k

def below (n : Nat) (marks : Nat → Bool) (k : Nat) : Bool := decide (k < n) && marks k

theorem moved_none (g : Gens α) {marks : Nat → Bool} (h : ∀ k, marks k = false) :
    moved marks g = g := by
  funext k
  cases k with
  | zero => simp [moved, covered, h]
  | succ k => simp [moved, covered, h]

/-- The move of the oldest marked generation, and then those of the others. -/
theorem moved_moveOn (g : Gens α) (n : Nat) (marks : Nat → Bool) :
    moved (below n marks) (if marks n then moveOn g n else g) = moved (below (n + 1) marks) g := by
  funext k
  have hlookup : (if marks n then moveOn g n else g) = fun j =>
      if marks n ∧ j = n + 1 then g n else if marks n ∧ j = n then none else g j := by
    funext j
    cases hn : marks n <;> simp [moveOn, Function.update_apply]
  rw [hlookup]
  cases k with
  | zero =>
    simp only [moved, covered, below]
    grind
  | succ k =>
    simp only [moved, covered, below]
    grind

theorem moved_eq_some_iff {marks : Nat → Bool} {g : Gens α} {k : Nat} {contents : List α} :
    moved marks g k = some contents ↔ ∃ j, g j = some contents ∧ place marks j = some k := by
  constructor
  · intro h
    unfold moved at h
    split at h
    · rename_i hcovered
      cases k with
      | zero => cases hcovered
      | succ k => exact ⟨k, h, if_pos hcovered⟩
    · rename_i hfree
      split at h
      · cases h
      · rename_i hstays
        exact ⟨k, h, by rw [place, if_neg hstays, if_neg hfree]⟩
  · rintro ⟨j, hj, hplace⟩
    unfold place at hplace
    split at hplace
    · rename_i hmoves
      cases hplace
      exact (if_pos hmoves).trans hj
    · rename_i hstays
      split at hplace
      · cases hplace
      · rename_i hfree
        cases hplace
        rw [moved, if_neg hfree, if_neg hstays, hj]

end generations
