-- Runs of a system that takes one action after another. An invariant that
-- the first state has, and that each step keeps, holds in the last state.
import Mathlib.Data.List.Basic
import Mathlib.Data.List.Induction

namespace runs

variable {σ α : Type*}

/-- The state after the actions of the list, taken in order. -/
def run (step : σ → α → σ) (s : σ) (acts : List α) : σ := acts.foldl step s

@[simp] theorem run_nil (step : σ → α → σ) (s : σ) : run step s [] = s := rfl

@[simp] theorem run_cons (step : σ → α → σ) (s : σ) (a : α) (acts : List α) :
    run step s (a :: acts) = run step (step s a) acts := rfl

theorem run_append (step : σ → α → σ) (s : σ) (acts more : List α) :
    run step s (acts ++ more) = run step (run step s acts) more := by
  simp [run, List.foldl_append]

/-- Each action of the run meets `guard` in the state before it. -/
def Along (step : σ → α → σ) (guard : σ → α → Prop) : σ → List α → Prop
  | _, [] => True
  | s, a :: rest => guard s a ∧ Along step guard (step s a) rest

instance decidableAlong (step : σ → α → σ) (guard : σ → α → Prop)
    [∀ s a, Decidable (guard s a)] : ∀ s acts, Decidable (Along step guard s acts)
  | _, [] => .isTrue trivial
  | s, a :: rest =>
    have := decidableAlong step guard (step s a) rest
    inferInstanceAs (Decidable (_ ∧ _))

theorem along_append {step : σ → α → σ} {guard : σ → α → Prop} {s : σ} {acts more : List α} :
    Along step guard s (acts ++ more) ↔
      Along step guard s acts ∧ Along step guard (run step s acts) more := by
  induction acts generalizing s with
  | nil => simp [Along]
  | cons a rest ih => simp [Along, ih, and_assoc]

/-- The invariant rule: what the first state has, and each guarded step
keeps, the last state has. -/
theorem run_invariant {step : σ → α → σ} {guard : σ → α → Prop} (Inv : σ → Prop)
    (hstep : ∀ s a, Inv s → guard s a → Inv (step s a)) {s : σ} {acts : List α}
    (h0 : Inv s) (hg : Along step guard s acts) : Inv (run step s acts) := by
  induction acts generalizing s with
  | nil => exact h0
  | cons a rest ih => exact ih (hstep s a h0 hg.1) hg.2

/-- The invariant rule where every step keeps the invariant. -/
theorem run_invariant_of_step {step : σ → α → σ} (Inv : σ → Prop)
    (hstep : ∀ s a, Inv s → Inv (step s a)) {s : σ} (h0 : Inv s) (acts : List α) :
    Inv (run step s acts) := by
  induction acts generalizing s with
  | nil => exact h0
  | cons a rest ih => exact ih (hstep s a h0)

/-- The invariant rule where the invariant may speak of the actions so far. -/
theorem run_history {step : σ → α → σ} (Inv : List α → σ → Prop)
    (hstep : ∀ acts s a, Inv acts s → Inv (acts ++ [a]) (step s a)) {s : σ} (h0 : Inv [] s)
    (acts : List α) : Inv acts (run step s acts) := by
  induction acts using List.reverseRecOn with
  | nil => exact h0
  | append_singleton acts a ih =>
    rw [run_append]
    exact hstep acts _ a ih

/-- A property that a step keeps exactly when the action meets `guard`: a run keeps it exactly
when all its actions do. -/
theorem run_iff_along {step : σ → α → σ} {guard : σ → α → Prop} (Inv P : σ → Prop)
    (hinv : ∀ s a, Inv s → Inv (step s a))
    (hstep : ∀ s a, Inv s → (P (step s a) ↔ P s ∧ guard s a)) {s : σ} (h0 : Inv s)
    (acts : List α) : P (run step s acts) ↔ P s ∧ Along step guard s acts := by
  induction acts generalizing s with
  | nil => simp [Along]
  | cons a rest ih => rw [run_cons, ih (hinv s a h0), hstep s a h0, Along, and_assoc]

/-- Two guards that agree where the invariant holds agree along every run, if a step that meets
them keeps the invariant. -/
theorem along_congr_of_invariant {step : σ → α → σ} {guard guard' : σ → α → Prop}
    (Inv : σ → Prop) (hguard : ∀ s a, Inv s → (guard s a ↔ guard' s a))
    (hstep : ∀ s a, Inv s → guard' s a → Inv (step s a)) {s : σ} (h0 : Inv s) (acts : List α) :
    Along step guard s acts ↔ Along step guard' s acts := by
  induction acts generalizing s with
  | nil => exact Iff.rfl
  | cons a rest ih =>
    unfold Along
    rw [hguard s a h0]
    exact and_congr_right fun ha => ih (hstep s a h0 ha)

/-- What one action makes, and every action keeps, the last state has. -/
theorem run_of_mem {step : σ → α → σ} (P : σ → Prop) (hkeep : ∀ s a, P s → P (step s a)) {a : α}
    {acts : List α} (ha : a ∈ acts) (hmake : ∀ s, P (step s a)) (s : σ) :
    P (run step s acts) := by
  obtain ⟨before, after, rfl⟩ := List.append_of_mem ha
  rw [run_append, run_cons]
  exact run_invariant_of_step P hkeep (hmake _) after

end runs
