-- One slot per key beside a queue. A sender writes what its item means into the slot of
-- the key and puts the item in the queue; the reader takes the first item and what is in
-- its slot. The two fit together as long as a slot is for the first item of its key.
import Mathlib.Data.List.Basic

namespace mailslots

variable {κ γ δ : Type*} [DecidableEq κ]

/-- The first item of the key in the queue. -/
def first (key : γ → κ) (q : List γ) (k : κ) : Option γ := q.find? (fun g => decide (key g = k))

/-- A slot holds what the first item of its key means. -/
def Agree (key : γ → κ) (meant : γ → δ) (slot : κ → Option δ) (q : List γ) : Prop :=
  ∀ k d g, slot k = some d → first key q k = some g → meant g = d

variable {key : γ → κ} {meant : γ → δ} {slot slot' : κ → Option δ} {q : List γ}

@[simp] theorem first_cons_self (g : γ) : first key (g :: q) (key g) = some g := by
  simp [first]

theorem first_cons_ne {g : γ} {k : κ} (h : k ≠ key g) : first key (g :: q) k = first key q k := by
  unfold first
  rw [List.find?_cons_of_neg]
  simpa using Ne.symm h

theorem agree_nil : Agree key meant slot [] := by
  intro k d g _ hg
  cases hg

/-- Fewer slots agree with the same queue. -/
theorem Agree.sub (h : Agree key meant slot q)
    (hsub : ∀ k d, slot' k = some d → slot k = some d) : Agree key meant slot' q :=
  fun k d g hk hg => h k d g (hsub k d hk) hg

/-- A slot may be written when the first item of its key means the same, or when no item
of its key waits. -/
theorem Agree.store (h : Agree key meant slot q) {k : κ} {d : δ}
    (hslot : ∀ j e, slot' j = some e → (j = k ∧ e = d) ∨ slot j = some e)
    (hfirst : ∀ g, first key q k = some g → meant g = d) : Agree key meant slot' q := by
  intro j e g hj hg
  rcases hslot j e hj with ⟨rfl, rfl⟩ | hold
  · exact hfirst g hg
  · exact h j e g hold hg

/-- An item may join the queue when its slot is empty or meant for it, or when another
item of its key is before it. -/
theorem Agree.push (h : Agree key meant slot q) (g : γ)
    (hg : slot (key g) = none ∨ slot (key g) = some (meant g) ∨ (first key q (key g)).isSome) :
    Agree key meant slot (q ++ [g]) := by
  intro k d x hk hx
  unfold first at hx
  rw [List.find?_append, Option.or_eq_some_iff] at hx
  rcases hx with hx | ⟨hnone, hx⟩
  · exact h k d x hk hx
  · -- the new item is the first of its key
    obtain ⟨hkey, rfl⟩ : key g = k ∧ g = x := by
      simpa [List.find?_singleton] using hx
    subst hkey
    rcases hg with hempty | hsame | hsome
    · rw [hempty] at hk
      cases hk
    · rw [hsame] at hk
      exact Option.some.inj hk
    · unfold first at hsome
      rw [hnone] at hsome
      cases hsome

/-- The reader takes the first item and empties its slot. -/
theorem Agree.take {g : γ} (h : Agree key meant slot (g :: q))
    (hslot : ∀ k d, slot' k = some d → k ≠ key g ∧ slot k = some d) :
    Agree key meant slot' q := by
  intro k d x hk hx
  obtain ⟨hne, hold⟩ := hslot k d hk
  rw [← first_cons_ne hne] at hx
  exact h k d x hold hx

/-- What the reader finds in the slot of the first item is what the item means. -/
theorem Agree.head {g : γ} {d : δ} (h : Agree key meant slot (g :: q))
    (hd : slot (key g) = some d) : meant g = d :=
  h (key g) d g hd (first_cons_self g)

end mailslots
