-- Rows of pieces that a search lists in order: a longer piece is tried before a shorter one, and
-- the pieces behind it are tried before the next. The first row is the greedy one, in which each
-- piece is as long as it can be after the pieces before it.
import Mathlib.Data.List.Basic
import Mathlib.Data.List.Pairwise

namespace rows

variable {α : Type*}

/-- The rows that start with one of the pieces, in their order. -/
def choose (pieces : List (List α)) (next : List α → List (List (List α))) :
    List (List (List α)) :=
  pieces.flatMap fun s => (next s).map (s :: ·)

/-- Where the rows first differ, the first one has the longer piece. -/
def Before (row row' : List (List α)) : Prop :=
  ∃ k, row.take k = row'.take k ∧ (row'.getD k []).length < (row.getD k []).length

/-- Each piece in turn is as long as it can be, after the pieces before it. -/
def Greedy (rows : List (List α) → Prop) (row : List (List α)) : Prop :=
  rows row ∧ ∀ row', rows row' → ∀ k, row'.take k = row.take k →
    (row'.getD k []).length ≤ (row.getD k []).length

theorem mem_choose {pieces : List (List α)} {next : List α → List (List (List α))}
    {row : List (List α)} :
    row ∈ choose pieces next ↔ ∃ s ∈ pieces, ∃ more ∈ next s, row = s :: more := by
  simp only [choose, List.mem_flatMap, List.mem_map, eq_comm]

theorem Before.cons {row row' : List (List α)} (h : Before row row') (s : List α) :
    Before (s :: row) (s :: row') := by
  obtain ⟨k, htake, hlength⟩ := h
  exact ⟨k + 1, by rw [List.take_succ_cons, List.take_succ_cons, htake], hlength⟩

/-- The rows are in order where the pieces get shorter and the rows behind each are in order. -/
theorem pairwise_choose {pieces : List (List α)} {next : List α → List (List (List α))}
    (hpieces : pieces.Pairwise fun s s' => s'.length < s.length)
    (hnext : ∀ s ∈ pieces, (next s).Pairwise Before) : (choose pieces next).Pairwise Before := by
  rw [choose, List.pairwise_flatMap]
  constructor
  · intro s hs
    exact List.pairwise_map.mpr ((hnext s hs).imp fun h => h.cons s)
  · refine hpieces.imp fun {s s'} hshorter row hrow row' hrow' => ?_
    obtain ⟨more, _, rfl⟩ := List.mem_map.mp hrow
    obtain ⟨more', _, rfl⟩ := List.mem_map.mp hrow'
    exact ⟨0, rfl, hshorter⟩

theorem Before.length_le {row row' : List (List α)} (h : Before row row') {k : Nat}
    (htake : row'.take k = row.take k) : (row'.getD k []).length ≤ (row.getD k []).length := by
  obtain ⟨j, hsame, hshorter⟩ := h
  have hpiece : ∀ {a b : Nat}, a < b → row'.take b = row.take b →
      row'.getD a [] = row.getD a [] := by
    intro a b hab heq
    have hget := congrArg (fun l : List (List α) => l[a]?) heq
    simp only [List.getElem?_take, hab, if_true] at hget
    simp [List.getD_eq_getElem?_getD, hget]
  rcases Nat.lt_trichotomy k j with hlt | rfl | hgt
  · exact Nat.le_of_eq (congrArg List.length (hpiece hlt hsame.symm))
  · exact Nat.le_of_lt hshorter
  · rw [hpiece hgt htake] at hshorter
    exact absurd hshorter (Nat.lt_irrefl _)

/-- The first row is the greedy one. -/
theorem greedy_iff_head {list : List (List (List α))} (h : list.Pairwise Before)
    (row : List (List α)) : Greedy (· ∈ list) row ↔ list.head? = some row := by
  cases list with
  | nil => simp [Greedy]
  | cons first others =>
    have hfirst := (List.pairwise_cons.mp h).1
    rw [List.head?_cons, Option.some.injEq]
    constructor
    · rintro ⟨hmem, hlongest⟩
      rcases List.mem_cons.mp hmem with heq | hother
      · exact heq.symm
      · obtain ⟨k, htake, hshorter⟩ := hfirst row hother
        have hle := hlongest first (List.mem_cons_self ..) k htake
        omega
    · rintro rfl
      refine ⟨List.mem_cons_self .., fun row' hrow' k htake => ?_⟩
      rcases List.mem_cons.mp hrow' with rfl | hother
      · exact Nat.le_refl _
      · exact (hfirst row' hother).length_le htake

end rows
