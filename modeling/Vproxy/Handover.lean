-- One resource is in use, and it may be replaced at any time. The old one is closed later, by
-- whoever replaced it. Nothing is closed twice, nothing is closed while in use, and whatever was
-- replaced is closed or waits for it.
import Mathlib.Data.List.Nodup
import Mathlib.Data.List.Perm.Basic

namespace handover

variable {R : Type*}

structure Slot (R : Type*) where
  current : Option R
  /-- Replaced, and not yet closed. -/
  pending : List R
  closed : List R
  built : List R

def empty : Slot R := ⟨none, [], [], []⟩

inductive Step : Slot R → Slot R → Prop where
  | replace (s : Slot R) (new : Option R) (hfresh : ∀ r ∈ new, r ∉ s.built) :
      Step s ⟨new, s.pending ++ s.current.toList, s.closed, s.built ++ new.toList⟩
  | close (s : Slot R) (before after : List R) (r : R) (h : s.pending = before ++ r :: after) :
      Step s { s with pending := before ++ after, closed := s.closed ++ [r] }

/-- Every resource that was built is in one place. -/
structure Owned (s : Slot R) : Prop where
  nodup : s.built.Nodup
  perm : (s.current.toList ++ s.pending ++ s.closed).Perm s.built

theorem owned_empty : Owned (empty : Slot R) := ⟨.nil, .nil⟩

theorem Owned.step {s t : Slot R} (h : Owned s) (hstep : Step s t) : Owned t := by
  cases hstep with
  | replace new hfresh =>
    refine ⟨?_, ?_⟩
    · cases new with
      | none => simpa using h.nodup
      | some r =>
        rw [Option.toList_some, List.nodup_append]
        refine ⟨h.nodup, List.nodup_singleton r, fun a ha b hb hab => ?_⟩
        rw [List.mem_singleton.mp hb] at hab
        exact hfresh r rfl (hab ▸ ha)
    · have hold : (s.pending ++ s.current.toList ++ s.closed).Perm s.built :=
        (List.perm_append_comm.append_right _).trans h.perm
      rw [List.append_assoc]
      exact (hold.append_left _).trans List.perm_append_comm
  | close before after r hpending =>
    have hclose : (before ++ after ++ (s.closed ++ [r])).Perm (s.pending ++ s.closed) := by
      rw [hpending, ← List.append_assoc]
      exact (List.perm_append_singleton r _).trans (List.perm_middle.append_right _).symm
    refine ⟨h.nodup, .trans ?_ h.perm⟩
    simpa only [List.append_assoc] using hclose.append_left s.current.toList

section

variable {s : Slot R} (h : Owned s)

include h

theorem Owned.places_nodup : (s.current.toList ++ s.pending ++ s.closed).Nodup :=
  h.perm.nodup_iff.mpr h.nodup

theorem Owned.closed_nodup : s.closed.Nodup := h.places_nodup.of_append_right

theorem Owned.not_closed_of_current {r : R} (hr : s.current = some r) : r ∉ s.closed := by
  intro hclosed
  have hplaces := h.places_nodup
  rw [hr, List.append_assoc, List.nodup_append] at hplaces
  exact hplaces.2.2 r (by simp) r (List.mem_append_right _ hclosed) rfl

theorem Owned.replaced {r : R} (hr : r ∈ s.built) (hnot : s.current ≠ some r) :
    r ∈ s.pending ∨ r ∈ s.closed := by
  have hmem := h.perm.mem_iff.mpr hr
  rw [List.append_assoc, List.mem_append, List.mem_append, Option.mem_toList] at hmem
  exact hmem.resolve_left hnot

end

end handover
