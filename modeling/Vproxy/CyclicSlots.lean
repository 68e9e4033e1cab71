-- Slots handed out in turn. A key that is new takes the next slot of a ring of `n`,
-- and the ring starts over after its last slot. The log lists the keys that came,
-- newest first, each once.
import Mathlib.Data.List.Dedup
import Mathlib.Data.List.Find
import Mathlib.Data.List.Induction
import Mathlib.Data.List.Perm.Subperm

namespace cyclic_slots

variable {κ : Type*} [DecidableEq κ]

/-- The log after one more key. -/
def seen (log : List κ) (k : κ) : List κ := if k ∈ log then log else k :: log

/-- The log of a list of keys. -/
def logOf (ks : List κ) : List κ := ks.foldl seen []

/-- The slot that the key took when it came. -/
def slotOf (n : Nat) : List κ → κ → Option Nat
  | [], _ => none
  | x :: older, k => if x = k then some (older.length % n) else slotOf n older k

/-- The key that took the slot last. -/
def owner (n : Nat) : List κ → Nat → Option κ
  | [], _ => none
  | x :: older, s => if older.length % n = s then some x else owner n older s

/-- The two readings of the log are inverse to each other. -/
def Inverse (n : Nat) (log : List κ) : Prop :=
  ∀ k s, slotOf n log k = some s ↔ owner n log s = some k

/-! ## The log -/

theorem seen_nodup {log : List κ} (k : κ) (h : log.Nodup) : (seen log k).Nodup := by
  unfold seen
  split
  · exact h
  · exact List.nodup_cons.mpr ⟨‹_›, h⟩

theorem mem_seen {log : List κ} {k j : κ} : j ∈ seen log k ↔ j = k ∨ j ∈ log := by
  unfold seen
  split
  · rename_i hk
    constructor
    · exact Or.inr
    · rintro (rfl | h)
      · exact hk
      · exact h
  · simp

theorem foldl_seen_nodup (ks : List κ) {log : List κ} (h : log.Nodup) :
    (ks.foldl seen log).Nodup := by
  induction ks generalizing log with
  | nil => exact h
  | cons k rest ih => exact ih (seen_nodup k h)

theorem mem_foldl_seen (ks : List κ) {log : List κ} {j : κ} :
    j ∈ ks.foldl seen log ↔ j ∈ log ∨ j ∈ ks := by
  induction ks generalizing log with
  | nil => simp
  | cons k rest ih =>
    rw [List.foldl_cons, ih, mem_seen, List.mem_cons]
    tauto

/-- The log is as long as the list has different keys. -/
theorem length_logOf (ks : List κ) : (logOf ks).length = ks.dedup.length := by
  have hn : (logOf ks).Nodup := foldl_seen_nodup ks List.nodup_nil
  have hm : ∀ j, j ∈ logOf ks ↔ j ∈ ks.dedup := fun j => by
    rw [logOf, mem_foldl_seen, List.mem_dedup]
    simp
  apply Nat.le_antisymm
  · exact (hn.subperm (fun j hj => (hm j).mp hj)).length_le
  · exact ((List.nodup_dedup ks).subperm (fun j hj => (hm j).mpr hj)).length_le

/-! ## Slots and owners -/

theorem slotOf_isSome {n : Nat} {log : List κ} {k : κ} :
    (slotOf n log k).isSome ↔ k ∈ log := by
  induction log with
  | nil => simp [slotOf]
  | cons x older ih =>
    unfold slotOf
    by_cases hx : x = k
    · simp [hx]
    · rw [if_neg hx, ih, List.mem_cons]
      simp [Ne.symm hx]

theorem slotOf_lt {n : Nat} (hn : 0 < n) {log : List κ} {k : κ} {s : Nat}
    (h : slotOf n log k = some s) : s < n := by
  induction log with
  | nil => cases h
  | cons x older ih =>
    unfold slotOf at h
    split at h
    · cases h
      exact Nat.mod_lt _ hn
    · exact ih h

omit [DecidableEq κ] in
theorem owner_lt {n : Nat} (hn : 0 < n) {log : List κ} {k : κ} {s : Nat}
    (h : owner n log s = some k) : s < n := by
  induction log with
  | nil => cases h
  | cons x older ih =>
    unfold owner at h
    split at h
    · rename_i hs
      rw [← hs]
      exact Nat.mod_lt _ hn
    · exact ih h

omit [DecidableEq κ] in
/-- Before the ring starts over, the slots in use are the first ones. -/
theorem owner_lt_length {n : Nat} {log : List κ} {k : κ} {s : Nat} (hl : log.length ≤ n)
    (h : owner n log s = some k) : s < log.length ∧ k ∈ log := by
  induction log with
  | nil => cases h
  | cons x older ih =>
    rw [List.length_cons] at hl
    unfold owner at h
    rw [Nat.mod_eq_of_lt (by omega : older.length < n)] at h
    split at h
    · cases h
      simp only [List.length_cons, List.mem_cons, true_or, and_true]
      omega
    · obtain ⟨hs, hk⟩ := ih (by omega) h
      simp only [List.length_cons, List.mem_cons]
      exact ⟨by omega, Or.inr hk⟩

theorem slotOf_lt_length {n : Nat} {log : List κ} {k : κ} {s : Nat} (hl : log.length ≤ n)
    (h : slotOf n log k = some s) : s < log.length := by
  induction log with
  | nil => cases h
  | cons x older ih =>
    rw [List.length_cons] at hl ⊢
    unfold slotOf at h
    rw [Nat.mod_eq_of_lt (by omega : older.length < n)] at h
    split at h
    · cases h
      omega
    · have := ih (by omega) h
      omega

/-- While every key has a slot of its own, slots and owners are inverse. -/
theorem inverse_of_length_le {n : Nat} {log : List κ} (hnd : log.Nodup)
    (hl : log.length ≤ n) : Inverse n log := by
  induction log with
  | nil => intro k s; simp [slotOf, owner]
  | cons x older ih =>
    rw [List.length_cons] at hl
    rw [List.nodup_cons] at hnd
    have hmod : older.length % n = older.length := Nat.mod_eq_of_lt (by omega)
    intro k s
    have hi := ih hnd.2 (by omega) k s
    unfold slotOf owner
    rw [hmod]
    by_cases hx : x = k <;> by_cases hs : older.length = s
    · simp [hx, hs]
    · rw [if_pos hx, if_neg hs]
      refine ⟨fun h => absurd (Option.some.inj h) hs, fun h => ?_⟩
      exact absurd (hx ▸ (owner_lt_length (by omega) h).2) hnd.1
    · rw [if_neg hx, if_pos hs]
      refine ⟨fun h => ?_, fun h => absurd (Option.some.inj h) hx⟩
      have := slotOf_lt_length (by omega) h
      omega
    · rw [if_neg hx, if_neg hs]
      exact hi

/-- Two keys never share a slot when slots and owners are inverse, so the ring has a
slot for every key. -/
theorem length_le_of_inverse {n : Nat} (hn : 0 < n) {log : List κ} (hnd : log.Nodup)
    (h : Inverse n log) : log.length ≤ n := by
  have hslot : ∀ k ∈ log, slotOf n log k = some ((slotOf n log k).getD 0) := fun k hk => by
    obtain ⟨s, hs⟩ := Option.isSome_iff_exists.mp (slotOf_isSome (n := n) |>.mpr hk)
    simp [hs]
  have hnodup : (log.map (fun k => (slotOf n log k).getD 0)).Nodup := by
    apply List.Nodup.map_on _ hnd
    intro k hk j hj hkj
    have h1 := (h k _).mp (hslot k hk)
    have h2 := (h j _).mp (hslot j hj)
    rw [hkj, h2] at h1
    exact (Option.some.inj h1).symm
  have hsub : log.map (fun k => (slotOf n log k).getD 0) ⊆ List.range n := by
    intro s hs
    obtain ⟨k, hk, rfl⟩ := List.mem_map.mp hs
    exact List.mem_range.mpr (slotOf_lt hn (hslot k hk))
  have := (hnodup.subperm hsub).length_le
  simpa using this

theorem inverse_iff {n : Nat} (hn : 0 < n) {log : List κ} (hnd : log.Nodup) :
    Inverse n log ↔ log.length ≤ n :=
  ⟨length_le_of_inverse hn hnd, inverse_of_length_le hnd⟩

/-! ## The order of the keys -/

theorem logOf_concat (ks : List κ) (k : κ) : logOf (ks ++ [k]) = seen (logOf ks) k := by
  simp [logOf]

theorem mem_logOf {ks : List κ} {k : κ} : k ∈ logOf ks ↔ k ∈ ks := by
  simp [logOf, mem_foldl_seen]

/-- Read backwards, the log lists the different keys in the order in which they came. -/
theorem reverse_logOf [BEq κ] [LawfulBEq κ] (ks : List κ) :
    (logOf ks).reverse = ks.eraseDups := by
  induction ks using List.reverseRecOn with
  | nil => rfl
  | append_singleton ks k ih =>
    rw [logOf_concat, List.eraseDups_append, ← ih]
    have hone : [k].eraseDups = [k] := rfl
    unfold seen
    by_cases hk : k ∈ ks <;> simp [hk, mem_logOf, List.removeAll, hone]

theorem foldl_seen_suffix (ks log : List κ) : log <:+ ks.foldl seen log := by
  induction ks generalizing log with
  | nil => exact List.suffix_rfl
  | cons k rest ih =>
    refine List.IsSuffix.trans ?_ (ih (seen log k))
    unfold seen
    split
    · exact List.suffix_rfl
    · exact List.suffix_cons k log

/-- A key keeps its slot. -/
theorem slotOf_suffix {n : Nat} {log log' : List κ} {k : κ} (h : log <:+ log') (hnd : log'.Nodup)
    (hk : k ∈ log) : slotOf n log' k = slotOf n log k := by
  obtain ⟨newer, rfl⟩ := h
  induction newer with
  | nil => rfl
  | cons x newer ih =>
    rw [List.cons_append, List.nodup_cons] at hnd
    have hx : x ≠ k := by
      rintro rfl
      exact hnd.1 (List.mem_append_right newer hk)
    rw [List.cons_append, slotOf, if_neg hx, ih hnd.2]

/-- The key that came after `i` others has slot `i`, counted around the ring. -/
theorem slotOf_eq_some_iff {n : Nat} {log : List κ} (hnd : log.Nodup) {k : κ} {s : Nat} :
    slotOf n log k = some s ↔ ∃ i, log.reverse[i]? = some k ∧ s = i % n := by
  have hplace : ∀ i, log.reverse[i]? = some k → slotOf n log k = some (i % n) := by
    intro i hi
    obtain ⟨hlt, hk⟩ := List.getElem?_eq_some_iff.mp hi
    have hsplit : log = (log.reverse.drop (i + 1)).reverse ++ k :: (log.reverse.take i).reverse := by
      apply List.reverse_injective
      rw [List.reverse_append, List.reverse_cons, List.reverse_reverse, List.reverse_reverse,
        List.append_assoc, List.singleton_append, ← hk, List.getElem_cons_drop,
        List.take_append_drop]
    have hlen : (log.reverse.take i).reverse.length = i := by
      rw [List.length_reverse, List.length_take]
      omega
    rw [slotOf_suffix ⟨_, hsplit.symm⟩ hnd List.mem_cons_self, slotOf, if_pos rfl, hlen]
  constructor
  · intro hs
    have hk : k ∈ log := slotOf_isSome.mp (Option.isSome_of_eq_some hs)
    obtain ⟨i, hi⟩ := List.mem_iff_getElem?.mp (List.mem_reverse.mpr hk)
    refine ⟨i, hi, ?_⟩
    rw [hplace i hi] at hs
    exact (Option.some.inj hs).symm
  · rintro ⟨i, hi, rfl⟩
    exact hplace i hi

/-- The owner of a slot is the newest key that took it. -/
theorem owner_eq_find {n : Nat} {log : List κ} (hnd : log.Nodup) (s : Nat) :
    owner n log s = log.find? fun k => slotOf n log k = some s := by
  induction log with
  | nil => rfl
  | cons x older ih =>
    rw [List.nodup_cons] at hnd
    have hrest : older.find? (fun k => slotOf n (x :: older) k = some s) =
        older.find? fun k => slotOf n older k = some s := by
      apply List.find?_congr
      intro k hk
      rw [slotOf, if_neg (by rintro rfl; exact hnd.1 hk)]
    rw [owner, ih hnd.2, List.find?_cons, slotOf, if_pos rfl, hrest]
    by_cases hs : older.length % n = s <;> simp [hs]

omit [DecidableEq κ] in
/-- A key owns its slot until the ring comes round. -/
theorem owner_eq_some_iff {n : Nat} (hn : 0 < n) {newer older : List κ} {k : κ}
    (hnd : (newer ++ k :: older).Nodup) :
    owner n (newer ++ k :: older) (older.length % n) = some k ↔ newer.length < n := by
  induction newer with
  | nil => simp [owner, hn]
  | cons x newer ih =>
    rw [List.cons_append, List.nodup_cons] at hnd
    have hne : x ≠ k := by
      rintro rfl
      exact hnd.1 (List.mem_append_right newer List.mem_cons_self)
    have hlength : (newer ++ k :: older).length = older.length + (newer.length + 1) := by
      rw [List.length_append, List.length_cons]
      omega
    have hround : (newer ++ k :: older).length % n = older.length % n ↔ n ∣ newer.length + 1 := by
      rw [hlength]
      constructor
      · intro heq
        have hdiff := Nat.sub_mod_eq_zero_of_mod_eq heq
        rw [Nat.add_sub_cancel_left] at hdiff
        exact Nat.dvd_of_mod_eq_zero hdiff
      · rintro ⟨turns, hturns⟩
        rw [hturns, Nat.add_mul_mod_self_left]
    rw [List.cons_append, owner, List.length_cons]
    by_cases hs : (newer ++ k :: older).length % n = older.length % n
    · have hle := Nat.le_of_dvd (Nat.succ_pos _) (hround.mp hs)
      rw [if_pos hs]
      simp only [Option.some.injEq, hne, false_iff]
      omega
    · have hnot : newer.length + 1 ≠ n := by
        rintro rfl
        exact hs (hround.mpr (Nat.dvd_refl _))
      rw [if_neg hs, ih hnd.2]
      omega

end cyclic_slots
