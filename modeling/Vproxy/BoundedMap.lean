-- A hash map with room for a fixed number of keys, as the kernel keeps them:
-- a new key that does not fit is refused, and the map stays as it was.
import Mathlib.Data.List.Basic
import Mathlib.Data.List.Nodup

/-- A map of at most `cap` keys, each with one value. -/
structure BoundedMap (κ ν : Type) (cap : Nat) where
  entries : List (κ × ν)
  nodup : (entries.map Prod.fst).Nodup
  bound : entries.length ≤ cap

namespace BoundedMap

variable {κ ν : Type} [DecidableEq κ] {cap : Nat}

/-- The map with no key. -/
def empty : BoundedMap κ ν cap := ⟨[], List.nodup_nil, Nat.zero_le _⟩

def size (m : BoundedMap κ ν cap) : Nat := m.entries.length

def lookup (m : BoundedMap κ ν cap) (k : κ) : Option ν := m.entries.lookup k

theorem keys_filter_nodup (m : BoundedMap κ ν cap) (k : κ) :
    ((m.entries.filter (fun e => decide (e.1 ≠ k))).map Prod.fst).Nodup :=
  m.nodup.sublist (List.filter_sublist.map _)

/-- The map without the key `k`. -/
def delete (m : BoundedMap κ ν cap) (k : κ) : BoundedMap κ ν cap where
  entries := m.entries.filter (fun e => decide (e.1 ≠ k))
  nodup := m.keys_filter_nodup k
  bound := Nat.le_trans (List.length_filter_le _ _) m.bound

/-- The key can be written: it is in the map, or the map has room for one
more key. -/
def HasRoom (m : BoundedMap κ ν cap) (k : κ) : Prop := (m.lookup k).isSome ∨ m.size < cap

instance (m : BoundedMap κ ν cap) (k : κ) : Decidable (m.HasRoom k) :=
  inferInstanceAs (Decidable (_ ∨ _))

theorem lookup_eq_none_iff (m : BoundedMap κ ν cap) (k : κ) :
    m.lookup k = none ↔ k ∉ m.entries.map Prod.fst := by
  unfold lookup
  rw [List.lookup_eq_none_iff]
  simp only [List.mem_map, not_exists, not_and, bne_iff_ne, ne_eq]
  constructor
  · intro h e he hk
    exact h e he hk.symm
  · intro h e he hk
    exact h e he hk.symm

theorem filter_length_lt (m : BoundedMap κ ν cap) (k : κ) (h : (m.lookup k).isSome) :
    (m.entries.filter (fun e => decide (e.1 ≠ k))).length < m.entries.length := by
  have hk : k ∈ m.entries.map Prod.fst := by
    by_contra hn
    rw [(m.lookup_eq_none_iff k).mpr hn] at h
    simp at h
  obtain ⟨e, he, hek⟩ := List.mem_map.mp hk
  apply List.length_filter_lt_length_iff_exists.mpr
  exact ⟨e, he, by simp [hek]⟩

/-- The write of a key. A new key is refused by a full map. -/
def update (m : BoundedMap κ ν cap) (k : κ) (v : ν) : BoundedMap κ ν cap :=
  if h : m.HasRoom k then
    { entries := (k, v) :: m.entries.filter (fun e => decide (e.1 ≠ k))
      nodup := by
        rw [List.map_cons, List.nodup_cons]
        refine ⟨?_, m.keys_filter_nodup k⟩
        simp
      bound := by
        rw [List.length_cons]
        rcases h with h | h
        · have := m.filter_length_lt k h
          have := m.bound
          omega
        · have := List.length_filter_le (fun e => decide (e.1 ≠ k)) m.entries
          unfold size at h
          omega }
  else m

/-- The read that takes the key out of the map when it is there. -/
def lookupAndDelete (m : BoundedMap κ ν cap) (k : κ) : Option ν × BoundedMap κ ν cap :=
  (m.lookup k, m.delete k)

/-! ## What a read gives after a write -/

@[simp] theorem lookup_empty (k : κ) : (empty : BoundedMap κ ν cap).lookup k = none := rfl

omit [DecidableEq κ] in
@[simp] theorem size_empty : (empty : BoundedMap κ ν cap).size = 0 := rfl

theorem lookup_filter_ne (l : List (κ × ν)) {k j : κ} (h : j ≠ k) :
    (l.filter (fun e => decide (e.1 ≠ k))).lookup j = l.lookup j := by
  induction l with
  | nil => rfl
  | cons e rest ih =>
    obtain ⟨i, v⟩ := e
    by_cases hi : i = k
    · have hji : (j == i) = false := by simpa [hi] using h
      simp only [hi, ne_eq, not_true_eq_false, decide_false, Bool.false_eq_true,
        not_false_eq_true, List.filter_cons_of_neg]
      rw [List.lookup_cons, ← hi, hji, hi]
      exact ih
    · rw [List.filter_cons_of_pos (by simpa using hi), List.lookup_cons, List.lookup_cons, ih]

@[simp] theorem lookup_delete_self (m : BoundedMap κ ν cap) (k : κ) :
    (m.delete k).lookup k = none := by
  rw [lookup_eq_none_iff]
  simp [delete]

theorem lookup_delete_ne (m : BoundedMap κ ν cap) {k j : κ} (h : j ≠ k) :
    (m.delete k).lookup j = m.lookup j := lookup_filter_ne m.entries h

theorem delete_of_lookup_none {m : BoundedMap κ ν cap} {k : κ} (h : m.lookup k = none) :
    m.delete k = m := by
  have hfilter : m.entries.filter (fun e => decide (e.1 ≠ k)) = m.entries := by
    apply List.filter_eq_self.mpr
    intro e he
    have hn := (m.lookup_eq_none_iff k).mp h
    simp only [ne_eq, decide_eq_true_eq]
    intro hek
    exact hn (List.mem_map.mpr ⟨e, he, hek⟩)
  obtain ⟨entries, nodup, bound⟩ := m
  simp only [delete, BoundedMap.mk.injEq]
  exact hfilter

theorem update_of_room {m : BoundedMap κ ν cap} {k : κ} (v : ν) (h : m.HasRoom k) :
    (m.update k v).entries = (k, v) :: m.entries.filter (fun e => decide (e.1 ≠ k)) := by
  simp [update, h]

theorem update_of_full {m : BoundedMap κ ν cap} {k : κ} (v : ν) (h : ¬ m.HasRoom k) :
    m.update k v = m := by
  simp [update, h]

theorem lookup_update_self {m : BoundedMap κ ν cap} {k : κ} (v : ν) (h : m.HasRoom k) :
    (m.update k v).lookup k = some v := by
  unfold lookup
  rw [update_of_room v h]
  simp

theorem lookup_update_ne (m : BoundedMap κ ν cap) {k j : κ} (v : ν) (h : j ≠ k) :
    (m.update k v).lookup j = m.lookup j := by
  by_cases hr : m.HasRoom k
  · unfold lookup
    rw [update_of_room v hr, List.lookup_cons, beq_eq_false_iff_ne.mpr h]
    exact lookup_filter_ne m.entries h
  · rw [update_of_full v hr]

/-- A read after a write gives the new value, or what was there before. -/
theorem lookup_update_cases {m : BoundedMap κ ν cap} {k j : κ} {v w : ν}
    (h : (m.update k v).lookup j = some w) : (j = k ∧ w = v) ∨ m.lookup j = some w := by
  by_cases hjk : j = k
  · subst hjk
    by_cases hr : m.HasRoom j
    · rw [lookup_update_self v hr] at h
      exact Or.inl ⟨rfl, by simpa using h.symm⟩
    · rw [update_of_full v hr] at h
      exact Or.inr h
  · rw [lookup_update_ne m v hjk] at h
    exact Or.inr h

/-- A new key that fits makes the map larger by one. -/
theorem size_update_new {m : BoundedMap κ ν cap} {k : κ} (v : ν) (hk : m.lookup k = none)
    (hs : m.size < cap) : (m.update k v).size = m.size + 1 := by
  unfold size
  rw [update_of_room v (Or.inr hs), List.length_cons]
  congr 1
  exact congrArg (fun m => m.entries.length) (delete_of_lookup_none hk)

end BoundedMap
