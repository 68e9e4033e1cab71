-- Handles that are opened under a new number each. Each of them lies in one place, with a holder
-- or with those that are closed, so no two holders have one handle and no holder has a closed
-- one.
import Mathlib.Data.List.Nodup
import Mathlib.Data.List.Perm.Basic
import Mathlib.Data.List.Range

namespace handles

/-- The handles below `next` lie in the places, each once. -/
def Accounted (next : Nat) (places : List Nat) : Prop := places.Perm (List.range next)

section

variable {next : Nat} {places places' : List Nat}

theorem Accounted.move (h : Accounted next places) (hperm : places'.Perm places) :
    Accounted next places' := hperm.trans h

theorem Accounted.new (h : Accounted next places) (hperm : places'.Perm (next :: places)) :
    Accounted (next + 1) places' := by
  unfold Accounted
  rw [List.range_succ]
  exact hperm.trans ((h.cons next).trans (List.perm_append_singleton next _).symm)

theorem Accounted.nodup (h : Accounted next places) : places.Nodup :=
  h.nodup_iff.mpr List.nodup_range

theorem Accounted.mem_iff (h : Accounted next places) {n : Nat} : n ∈ places ↔ n < next := by
  rw [List.Perm.mem_iff h, List.mem_range]

end

section

variable {α β : Type*} {l : List α} {f : α → List β}

/-- No two holders have one handle. -/
theorem holder_unique (h : (l.flatMap f).Nodup) {i j : Nat} {a b : α} {x : β}
    (ha : l[i]? = some a) (hb : l[j]? = some b) (hxa : x ∈ f a) (hxb : x ∈ f b) : i = j := by
  obtain ⟨-, hpair⟩ := List.nodup_flatMap.mp h
  obtain ⟨hi, rfl⟩ := List.getElem?_eq_some_iff.mp ha
  obtain ⟨hj, rfl⟩ := List.getElem?_eq_some_iff.mp hb
  rw [List.pairwise_iff_getElem] at hpair
  rcases Nat.lt_trichotomy i j with hlt | heq | hgt
  · exact absurd hxb (hpair i j hi hj hlt hxa)
  · exact heq
  · exact absurd hxa (hpair j i hj hi hgt hxb)

/-- One holder stands between the others, and so does what it becomes. -/
theorem modify_split {i : Nat} {a : α} (h : l[i]? = some a) (g : α → α) :
    ∃ front rest, l = front ++ a :: rest ∧ l.modify i g = front ++ g a :: rest := by
  obtain ⟨hi, rfl⟩ := List.getElem?_eq_some_iff.mp h
  refine ⟨l.take i, l.drop (i + 1), ?_, ?_⟩
  · rw [List.getElem_cons_drop, List.take_append_drop]
  · rw [List.modify_eq_take_cons_drop hi]

/-- What one holder has may stand in front. -/
theorem flatMap_perm_front (front rest : List α) (a : α) :
    ((front ++ a :: rest).flatMap f).Perm (f a ++ (front ++ rest).flatMap f) := by
  rw [List.flatMap_append, List.flatMap_cons, List.flatMap_append, ← List.append_assoc,
    ← List.append_assoc]
  exact List.perm_append_comm.append_right _

end

end handles
