-- The choice of a physical route on Windows (findBestPhysicalRoute). One pass over the table keeps
-- the best row so far. The row that is left has the longest prefix, then the lowest metric, and is
-- the first of its kind in the table.
import Mathlib.Data.List.MinMax
import Mathlib.Data.Prod.Lex
import Vproxy.Netip

open go go.net go.netip

namespace vproxy.windows

/-! ## The table -/

/-- A row of the forwarding table. An address of another family is the zero `Addr`. -/
structure MibIPforwardRow2 where
  interfaceLUID : UInt64
  destination : Addr
  prefixLength : UInt8
  nextHop : Addr
  metric : UInt32
  deriving DecidableEq, Repr

namespace MibIPforwardRow2

/-- `DestinationPrefix.Prefix`. -/
def destinationPrefix (row : MibIPforwardRow2) : Prefix :=
  prefixFrom row.destination row.prefixLength.toNat

def bits (row : MibIPforwardRow2) : Nat := row.destinationPrefix.bits

end MibIPforwardRow2

/-- `best` and `bestBits` of the loop. -/
structure Best where
  row : Option MibIPforwardRow2
  bits : Int

/-- One turn of the loop. -/
def Best.step (targetAddr : Addr) (tunLUID : UInt64) (best : Best) (row : MibIPforwardRow2) :
    Best :=
  if tunLUID ≠ 0 ∧ row.interfaceLUID = tunLUID then best
  else if ¬ row.destinationPrefix.isValid ∨ ¬ row.destinationPrefix.contains targetAddr then best
  else if best.bits < (row.bits : Int) then ⟨some row, row.bits⟩
  else if (row.bits : Int) = best.bits then
    match best.row with
    | some b => if row.metric < b.metric then { best with row := some row } else best
    | none => best
  else best

def findBestPhysicalRoute (routes : List MibIPforwardRow2) (targetAddr : Addr) (tunLUID : UInt64) :
    Option MibIPforwardRow2 :=
  (routes.foldl (Best.step targetAddr tunLUID) ⟨none, -1⟩).row

/-! ## The pass as a maximum -/

/-- The rows that the loop does not skip. -/
def considered (targetAddr : Addr) (tunLUID : UInt64) (row : MibIPforwardRow2) : Bool :=
  !(tunLUID != 0 && row.interfaceLUID == tunLUID) && row.destinationPrefix.isValid &&
    row.destinationPrefix.contains targetAddr

/-- The order in which rows are better: more bits first, then a lower metric. -/
def rank (row : MibIPforwardRow2) : ℕ ×ₗ ℕᵒᵈ := toLex (row.bits, OrderDual.toDual row.metric.toNat)

theorem rank_lt {a b : MibIPforwardRow2} :
    rank a < rank b ↔ a.bits < b.bits ∨ a.bits = b.bits ∧ b.metric < a.metric := by
  unfold rank
  rw [Prod.Lex.toLex_lt_toLex, OrderDual.toDual_lt_toDual, UInt32.lt_iff_toNat_lt]

theorem rank_le {a b : MibIPforwardRow2} :
    rank a ≤ rank b ↔ a.bits < b.bits ∨ a.bits = b.bits ∧ b.metric ≤ a.metric := by
  unfold rank
  rw [Prod.Lex.toLex_le_toLex, OrderDual.toDual_le_toDual, UInt32.le_iff_toNat_le]

theorem rank_inj {a b : MibIPforwardRow2} :
    rank a = rank b ↔ a.bits = b.bits ∧ a.metric = b.metric := by
  unfold rank
  rw [toLex_inj, Prod.mk.injEq, OrderDual.toDual_inj, UInt32.toNat_inj]

section

variable (targetAddr : Addr) (tunLUID : UInt64)

theorem step_skips {best : Best} {row : MibIPforwardRow2}
    (h : considered targetAddr tunLUID row = false) : best.step targetAddr tunLUID row = best := by
  unfold Best.step
  split
  · rfl
  · rename_i hoff
    rw [if_pos]
    simp only [considered, Bool.and_eq_false_iff, Bool.not_eq_false', Bool.and_eq_true, bne_iff_ne,
      beq_iff_eq, or_assoc] at h
    simpa using h.resolve_left hoff

/-- A row that is considered takes the place of a row of lower rank. -/
theorem step_considered {b : Option MibIPforwardRow2} {row : MibIPforwardRow2}
    (h : considered targetAddr tunLUID row = true) :
    Best.step targetAddr tunLUID ⟨b, (b.map fun r => (r.bits : Int)).getD (-1)⟩ row =
      match b with
      | none => ⟨some row, row.bits⟩
      | some r => if rank r < rank row then ⟨some row, row.bits⟩ else ⟨some r, r.bits⟩ := by
  simp only [considered, Bool.and_eq_true, Bool.not_eq_true', Bool.and_eq_false_iff] at h
  obtain ⟨⟨hoff, hvalid⟩, hcontains⟩ := h
  unfold Best.step
  rw [if_neg, if_neg]
  · cases b with
    | none =>
      have hfirst : (-1 : Int) < row.bits := by omega
      exact if_pos hfirst
    | some r =>
      simp only [Option.map_some, Option.getD_some, Nat.cast_lt, Nat.cast_inj, rank_lt]
      by_cases hmore : r.bits < row.bits
      · rw [if_pos hmore, if_pos (.inl hmore)]
      · rw [if_neg hmore]
        by_cases hsame : row.bits = r.bits
        · by_cases hless : row.metric < r.metric
          · rw [if_pos hsame, if_pos hless, if_pos (.inr ⟨hsame.symm, hless⟩), hsame]
          · rw [if_pos hsame, if_neg hless, if_neg]
            rintro (hlt | ⟨-, hlt⟩)
            · exact hmore hlt
            · exact hless hlt
        · rw [if_neg hsame, if_neg]
          rintro (hlt | ⟨heq, -⟩)
          · exact hmore hlt
          · exact hsame heq.symm
  · simp [hvalid, hcontains]
  · rintro ⟨htun, hon⟩
    simp [htun, hon] at hoff

/-- After any part of the table, the best row is the first of the highest rank. -/
theorem foldl_step (routes : List MibIPforwardRow2) :
    routes.foldl (Best.step targetAddr tunLUID) ⟨none, -1⟩ =
      let b := (routes.filter (considered targetAddr tunLUID)).argmax rank
      ⟨b, (b.map fun r => (r.bits : Int)).getD (-1)⟩ := by
  induction routes using List.reverseRecOn with
  | nil => rfl
  | append_singleton routes row ih =>
    rw [List.foldl_append, List.foldl_cons, List.foldl_nil, ih, List.filter_append]
    dsimp only
    cases hrow : considered targetAddr tunLUID row with
    | false =>
      rw [step_skips _ _ hrow, List.filter_singleton, hrow]
      simp
    | true =>
      rw [step_considered _ _ hrow, List.filter_singleton, hrow]
      dsimp only [cond]
      rw [List.argmax_concat]
      cases (routes.filter (considered targetAddr tunLUID)).argmax rank with
      | none => rfl
      | some r =>
        dsimp only
        split <;> rfl

theorem findBestPhysicalRoute_eq (routes : List MibIPforwardRow2) :
    findBestPhysicalRoute routes targetAddr tunLUID =
      (routes.filter (considered targetAddr tunLUID)).argmax rank := by
  rw [findBestPhysicalRoute, foldl_step]

end

/-- What `argmax` gives is the first of its kind. -/
theorem argmax_first {α β : Type*} [LinearOrder β] {f : α → β} {l : List α} {m : α}
    (h : m ∈ l.argmax f) : ∃ front back, l = front ++ m :: back ∧ ∀ a ∈ front, f a < f m := by
  induction l using List.reverseRecOn with
  | nil => cases h
  | append_singleton l a ih =>
    rw [List.argmax_concat] at h
    cases hmax : l.argmax f with
    | none =>
      rw [hmax] at h
      obtain rfl : a = m := Option.some.inj h
      refine ⟨l, [], rfl, ?_⟩
      rw [List.argmax_eq_none.mp hmax]
      exact List.forall_mem_nil _
    | some c =>
      rw [hmax] at h
      dsimp only at h
      split at h
      · rename_i hlt
        obtain rfl : a = m := Option.some.inj h
        exact ⟨l, [], rfl, fun b hb => (List.le_of_mem_argmax hb hmax).trans_lt hlt⟩
      · obtain rfl : c = m := Option.some.inj h
        obtain ⟨front, back, rfl, hfront⟩ := ih hmax
        exact ⟨front, back ++ [a], by simp, hfront⟩

/-! ## The choice -/

/-- A route off the TUN interface with a valid prefix that contains the target. -/
structure Usable (targetAddr : Addr) (tunLUID : UInt64) (row : MibIPforwardRow2) : Prop where
  off : row.interfaceLUID ≠ tunLUID
  valid : row.destinationPrefix.isValid = true
  contains : row.destinationPrefix.contains targetAddr = true

/-- The first of the usable routes with the longest prefix and then the lowest metric. -/
structure IsFirstBest (routes : List MibIPforwardRow2) (targetAddr : Addr) (tunLUID : UInt64)
    (best : MibIPforwardRow2) : Prop where
  usable : Usable targetAddr tunLUID best
  longest : ∀ r ∈ routes, Usable targetAddr tunLUID r → r.bits ≤ best.bits
  cheapest : ∀ r ∈ routes, Usable targetAddr tunLUID r → r.bits = best.bits →
    best.metric ≤ r.metric
  first : ∃ front back, routes = front ++ best :: back ∧
    ∀ r ∈ front, Usable targetAddr tunLUID r → r.bits = best.bits → r.metric ≠ best.metric

section

variable {targetAddr : Addr} {tunLUID : UInt64}

theorem considered_iff (htun : tunLUID ≠ 0) (row : MibIPforwardRow2) :
    considered targetAddr tunLUID row = true ↔ Usable targetAddr tunLUID row := by
  simp only [considered, Bool.and_eq_true, Bool.not_eq_true', Bool.and_eq_false_iff,
    bne_eq_false_iff_eq, htun, beq_eq_false_iff_ne, false_or]
  constructor
  · rintro ⟨⟨hoff, hvalid⟩, hcontains⟩
    exact ⟨hoff, hvalid, hcontains⟩
  · rintro ⟨hoff, hvalid, hcontains⟩
    exact ⟨⟨hoff, hvalid⟩, hcontains⟩

theorem isFirstBest_of_find (htun : tunLUID ≠ 0) {routes : List MibIPforwardRow2}
    {best : MibIPforwardRow2} (h : findBestPhysicalRoute routes targetAddr tunLUID = some best) :
    IsFirstBest routes targetAddr tunLUID best := by
  rw [findBestPhysicalRoute_eq] at h
  have hrank : ∀ r ∈ routes, Usable targetAddr tunLUID r → rank r ≤ rank best := by
    intro r hr husable
    exact List.le_of_mem_argmax (List.mem_filter.mpr ⟨hr, (considered_iff htun r).mpr husable⟩) h
  refine ⟨?_, ?_, ?_, ?_⟩
  · exact (considered_iff htun best).mp (List.mem_filter.mp (List.argmax_mem h)).2
  · intro r hr husable
    obtain hlt | ⟨heq, -⟩ := rank_le.mp (hrank r hr husable)
    · exact hlt.le
    · exact heq.le
  · intro r hr husable hbits
    obtain hlt | ⟨-, hle⟩ := rank_le.mp (hrank r hr husable)
    · exact absurd hbits hlt.ne
    · exact hle
  · obtain ⟨front, back, hsplit, hfront⟩ := argmax_first h
    obtain ⟨before, behind, rfl, rfl, hbehind⟩ := List.filter_eq_append_iff.mp hsplit
    obtain ⟨skipped, after, rfl, hskipped, -, -⟩ := List.filter_eq_cons_iff.mp hbehind
    refine ⟨before ++ skipped, after, by simp, ?_⟩
    intro r hr husable hbits hmetric
    have hconsidered := (considered_iff htun r).mpr husable
    rcases List.mem_append.mp hr with hr | hr
    · exact (hfront r (List.mem_filter.mpr ⟨hr, hconsidered⟩)).ne (rank_inj.mpr ⟨hbits, hmetric⟩)
    · exact hskipped r hr hconsidered

theorem find_eq_none_iff (htun : tunLUID ≠ 0) (routes : List MibIPforwardRow2) :
    findBestPhysicalRoute routes targetAddr tunLUID = none ↔
      ∀ r ∈ routes, ¬ Usable targetAddr tunLUID r := by
  rw [findBestPhysicalRoute_eq, List.argmax_eq_none, List.filter_eq_nil_iff]
  exact forall₂_congr fun r _ => not_congr (considered_iff htun r)

/-- Two first choices from the same rows agree in prefix length and metric. -/
theorem IsFirstBest.agree {routes routes' : List MibIPforwardRow2} {best best' : MibIPforwardRow2}
    (h : IsFirstBest routes targetAddr tunLUID best)
    (h' : IsFirstBest routes' targetAddr tunLUID best') (hperm : routes'.Perm routes) :
    best'.bits = best.bits ∧ best'.metric = best.metric := by
  have hmem : best ∈ routes' := by
    obtain ⟨front, back, rfl, -⟩ := h.first
    exact hperm.mem_iff.mpr (by simp)
  have hmem' : best' ∈ routes := by
    obtain ⟨front, back, rfl, -⟩ := h'.first
    exact hperm.mem_iff.mp (by simp)
  have hbits : best'.bits = best.bits :=
    Nat.le_antisymm (h.longest _ hmem' h'.usable) (h'.longest _ hmem h.usable)
  refine ⟨hbits, UInt32.le_antisymm ?_ ?_⟩
  · exact h'.cheapest _ hmem h.usable hbits.symm
  · exact h.cheapest _ hmem' h'.usable hbits

end

/-- No route is chosen iff none is usable, and else the first with the longest prefix and then the
lowest metric. Another order of the table gives a route of the same length and metric. -/
theorem best_route_is_first_longest_cheapest (routes : List MibIPforwardRow2) (targetAddr : Addr)
    (tunLUID : UInt64) (htun : tunLUID ≠ 0) :
    (findBestPhysicalRoute routes targetAddr tunLUID = none ↔
      ∀ r ∈ routes, ¬ Usable targetAddr tunLUID r) ∧
    (∀ best, findBestPhysicalRoute routes targetAddr tunLUID = some best →
      IsFirstBest routes targetAddr tunLUID best) ∧
    ∀ routes' : List MibIPforwardRow2, routes'.Perm routes →
      (findBestPhysicalRoute routes' targetAddr tunLUID).map (fun r => (r.bits, r.metric)) =
        (findBestPhysicalRoute routes targetAddr tunLUID).map (fun r => (r.bits, r.metric)) := by
  refine ⟨find_eq_none_iff htun routes, fun _ h => isFirstBest_of_find htun h, ?_⟩
  intro routes' hperm
  have hnone : findBestPhysicalRoute routes' targetAddr tunLUID = none ↔
      findBestPhysicalRoute routes targetAddr tunLUID = none := by
    rw [find_eq_none_iff htun, find_eq_none_iff htun]
    exact forall_congr' fun r => by rw [hperm.mem_iff]
  cases h : findBestPhysicalRoute routes targetAddr tunLUID with
  | none => rw [hnone.mpr h]
  | some best =>
    obtain ⟨best', h'⟩ := Option.ne_none_iff_exists'.mp (mt hnone.mp (by rw [h]; simp))
    obtain ⟨hbits, hmetric⟩ :=
      (isFirstBest_of_find htun h).agree (isFirstBest_of_find htun h') hperm
    rw [h', Option.map_some, Option.map_some, hbits, hmetric]

/-- A default route, and a route to one network on another interface. -/
def twoRoutes : List MibIPforwardRow2 :=
  [⟨1, ⟨[0, 0, 0, 0], []⟩, 0, ⟨[192, 168, 1, 1], []⟩, 25⟩,
    ⟨2, ⟨[192, 168, 31, 0], []⟩, 24, ⟨[0, 0, 0, 0], []⟩, 35⟩]

/-- The address in the network goes out over its interface, and the choice is a first best one. -/
theorem network_route_is_chosen :
    ∃ best, findBestPhysicalRoute twoRoutes ⟨[192, 168, 31, 253], []⟩ 9 = some best ∧
      best.interfaceLUID = 2 ∧ IsFirstBest twoRoutes ⟨[192, 168, 31, 253], []⟩ 9 best := by
  obtain ⟨best, hbest, hluid⟩ : ∃ best, findBestPhysicalRoute twoRoutes
      ⟨[192, 168, 31, 253], []⟩ 9 = some best ∧ best.interfaceLUID = 2 := ⟨_, rfl, rfl⟩
  exact ⟨best, hbest, hluid,
    (best_route_is_first_longest_cheapest twoRoutes _ 9 (by decide)).2.1 best hbest⟩

end vproxy.windows
