-- Logs of events that install keys and of events that withdraw them. A key stands when
-- some event installed it and no later one withdrew it.
import Mathlib.Data.List.Basic
import Mathlib.Data.List.Induction

namespace ledger

variable {ε κ : Type*} {installs withdraws : ε → κ → Prop} {log : List ε} {k : κ}

/-- Some event of the log installed the key, and no later one withdrew it. -/
def Standing (installs withdraws : ε → κ → Prop) (log : List ε) (k : κ) : Prop :=
  ∃ before e after, log = before ++ e :: after ∧ installs e k ∧ ∀ e' ∈ after, ¬ withdraws e' k

theorem not_standing_nil : ¬ Standing installs withdraws [] k := by
  rintro ⟨before, e, after, hlog, -⟩
  simp at hlog

/-- The newest event decides, or leaves what stood before it. -/
theorem standing_concat {e : ε} :
    Standing installs withdraws (log ++ [e]) k ↔
      installs e k ∨ Standing installs withdraws log k ∧ ¬ withdraws e k := by
  constructor
  · rintro ⟨before, e', after, hlog, hinstalls, hkept⟩
    -- the event that installs the key is the newest one, or stands before it
    induction after using List.reverseRecOn with
    | nil =>
      obtain ⟨-, heq⟩ := List.append_inj' hlog rfl
      cases heq
      exact Or.inl hinstalls
    | append_singleton after last _ =>
      rw [← List.cons_append, ← List.append_assoc] at hlog
      obtain ⟨hfront, heq⟩ := List.append_inj' hlog rfl
      cases heq
      refine Or.inr ⟨⟨before, e', after, hfront, hinstalls, ?_⟩, hkept e (by simp)⟩
      intro x hx
      exact hkept x (by simp [hx])
  · rintro (hinstalls | ⟨⟨before, e', after, rfl, hinstalls, hkept⟩, hnew⟩)
    · exact ⟨log, e, [], rfl, hinstalls, by simp⟩
    · refine ⟨before, e', after ++ [e], by simp, hinstalls, ?_⟩
      intro x hx
      rcases List.mem_append.mp hx with hx | hx
      · exact hkept x hx
      · rw [List.mem_singleton.mp hx]
        exact hnew

/-- Fewer withdrawals leave more keys standing. -/
theorem standing_mono {withdraws' : ε → κ → Prop} (h : ∀ e, withdraws' e k → withdraws e k)
    (hk : Standing installs withdraws log k) : Standing installs withdraws' log k := by
  obtain ⟨before, e, after, hlog, hinstalls, hkept⟩ := hk
  exact ⟨before, e, after, hlog, hinstalls, fun e' he' hw => hkept e' he' (h e' hw)⟩

end ledger
