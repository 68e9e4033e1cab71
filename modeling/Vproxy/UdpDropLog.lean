-- The throttle of the drop diagnostics (handler.go, udpDropLog). Every receiver calls it with a
-- time of its own, which may be an old one when the swap comes. The times that go through are
-- still an interval apart, because a swap is planned from the time that it replaces.
import Mathlib.Algebra.Group.Int.Defs
import Vproxy.SwapLoops

open runs swaploops

namespace vproxy.udpdroplog

/-- One turn of the loop of `allow`, from what the load saw: the time to swap in, unless the last
diagnostic is too recent. -/
def allow (now interval prev : Int64) : Option Int64 :=
  if now - prev < interval then none else some now

variable {ι : Type*} [DecidableEq ι]

/-- Calls of `allow` on one log, each with its own time, step by step as the schedule says. -/
def calls (now : ι → Int64) (interval last : Int64) (schedule : List ι) : State ι Int64 :=
  run (step fun i => allow (now i) interval) (start ι last) schedule

/-- The difference of two times is no overflow. -/
def Fits (a b : Int64) : Prop := -2 ^ 63 ≤ a.toInt - b.toInt ∧ a.toInt - b.toInt < 2 ^ 63

instance (a b : Int64) : Decidable (Fits a b) := inferInstanceAs (Decidable (_ ∧ _))

/-- The second time is at least an interval after the first. -/
def Spaced (interval a b : Int64) : Prop := a.toInt + interval.toInt ≤ b.toInt

instance (interval a b : Int64) : Decidable (Spaced interval a b) :=
  inferInstanceAs (Decidable (_ ≤ _))

/-! ## The calls one after another -/

theorem toInt_sub_of_fits {a b : Int64} (h : Fits a b) : (a - b).toInt = a.toInt - b.toInt := by
  rw [Int64.toInt_sub]
  exact Int.bmod_eq_of_le (by simpa using h.1) (by simpa using h.2)

/-- A time that `allow` lets through is an interval after the last one. -/
theorem allow_spaced {now interval prev v : Int64} (hfits : Fits now prev)
    (h : allow now interval prev = some v) : v = now ∧ Spaced interval prev now := by
  unfold allow at h
  split at h
  · cases h
  · rename_i hlate
    cases h
    rw [Int64.lt_iff_toInt_lt, toInt_sub_of_fits hfits] at hlate
    refine ⟨rfl, ?_⟩
    unfold Spaced
    omega

omit [DecidableEq ι] in
/-- Calls one after another let times through that are an interval apart. -/
theorem serial_spaced {now : ι → Int64} {interval : Int64} (hnow : ∀ i j, Fits (now i) (now j))
    {last final : Int64} (hlast : ∀ i, Fits (now i) last) {through : List ι}
    (h : Serial (fun i => allow (now i) interval) last through final) :
    (last :: through.map now).IsChain (Spaced interval) := by
  induction through generalizing last with
  | nil => exact .singleton last
  | cons i rest ih =>
    obtain ⟨v, hallow, hrest⟩ := h
    obtain ⟨rfl, hspaced⟩ := allow_spaced (hlast i) hallow
    exact .cons_cons hspaced (ih (fun j => hnow j i) hrest)

/-! ## The law -/

/-- The throttle holds: the times that went through, in the order of the swaps, are an interval
apart; they are the times of the calls that returned true, each of them once; and a swap failed
only if another call's swap succeeded between the load of its call and the swap. -/
structure Throttled (now : ι → Int64) (interval : Int64) (s : State ι Int64) : Prop where
  spaced : ((winners s.log).map now).IsChain (Spaced interval)
  returned : ∀ i, s.place i = .returned true ↔ i ∈ winners s.log
  once : (winners s.log).Nodup
  lost : ∀ front i rest, s.log = front ++ .swap i false :: rest → Overtaken front i

/-- Under every schedule the throttle holds. -/
theorem throttle_holds_under_any_schedule (now : ι → Int64) (interval last : Int64)
    (hnow : ∀ i j, Fits (now i) (now j)) (hlast : ∀ i, Fits (now i) last) (schedule : List ι) :
    Throttled now interval (calls now interval last schedule) := by
  obtain ⟨hreturned, honce⟩ :=
    winners_counted (fun i => allow (now i) interval) last schedule
  have hserial := winners_serial (fun i => allow (now i) interval) last schedule
  refine ⟨?_, hreturned, honce, ?_⟩
  · exact (serial_spaced hnow hlast hserial).of_cons
  · intro front i rest hlog
    exact failed_swap_overtaken _ last schedule hlog

/-- Two calls load together and the later time wins. The other one loads again and gives up, and
a call with a time that goes backwards gives up too. -/
theorem late_caller_is_throttled :
    Throttled (fun i : Fin 3 => [100, 103, 90].getD i 0) 5
        (calls (fun i : Fin 3 => [100, 103, 90].getD i 0) 5 0 [0, 1, 1, 0, 0, 2]) ∧
      winners (calls (fun i : Fin 3 => [100, 103, 90].getD i 0) 5 0 [0, 1, 1, 0, 0, 2]).log =
        [1] ∧
      .swap 0 false ∈
        (calls (fun i : Fin 3 => [100, 103, 90].getD i 0) 5 0 [0, 1, 1, 0, 0, 2]).log := by
  refine ⟨?_, by decide, by decide⟩
  exact throttle_holds_under_any_schedule _ 5 0 (by decide) (by decide) _

end vproxy.udpdroplog
