-- Callers that share one cell. Each loads it, plans a new value from what it saw, and swaps the
-- new value in if the cell still holds what it saw; else it starts over. The swaps that succeed
-- are as if their callers had come one after another.
import Mathlib.Data.List.Nodup
import Mathlib.Logic.Function.Basic
import Vproxy.Runs

open runs

namespace swaploops

/-! ## The loop -/

/-- Where a call stands: before its load, before its swap of `seen` for `new`, or returned. -/
inductive Place (V : Type*)
  | load
  | swap (seen new : V)
  | returned (ok : Bool)
  deriving DecidableEq, Repr

/-- A step on the cell, and whose it was. -/
inductive Event (ι : Type*)
  | load (i : ι)
  | swap (i : ι) (ok : Bool)
  deriving DecidableEq, Repr

def Event.caller {ι : Type*} : Event ι → ι
  | .load i => i
  | .swap i _ => i

/-- The cell, the place of each call, and the steps so far. -/
structure State (ι V : Type*) where
  cell : V
  place : ι → Place V
  log : List (Event ι)

/-- Every call is before its first load. -/
def start (ι : Type*) {V : Type*} (cell : V) : State ι V := ⟨cell, fun _ => .load, []⟩

section

variable {ι V : Type*} [DecidableEq ι]

/-- The state after a step of the call `i`. -/
def State.next (s : State ι V) (i : ι) (cell : V) (p : Place V) (e : Event ι) : State ι V :=
  ⟨cell, Function.update s.place i p, s.log ++ [e]⟩

@[simp] theorem State.next_cell (s : State ι V) (i : ι) (cell : V) (p : Place V) (e : Event ι) :
    (s.next i cell p e).cell = cell := rfl

@[simp] theorem State.next_log (s : State ι V) (i : ι) (cell : V) (p : Place V) (e : Event ι) :
    (s.next i cell p e).log = s.log ++ [e] := rfl

@[simp] theorem State.next_place_self (s : State ι V) (i : ι) (cell : V) (p : Place V)
    (e : Event ι) : (s.next i cell p e).place i = p := Function.update_self ..

theorem State.next_place_of_ne {i j : ι} (h : j ≠ i) (s : State ι V) (cell : V) (p : Place V)
    (e : Event ι) : (s.next i cell p e).place j = s.place j := Function.update_of_ne h ..

/-- What a step can do. -/
inductive Moves (plan : ι → V → Option V) (s : State ι V) (i : ι) : State ι V → Prop
  | giveUp (hplace : s.place i = .load) (hplan : plan i s.cell = none) :
    Moves plan s i (s.next i s.cell (.returned false) (.load i))
  | read (v : V) (hplace : s.place i = .load) (hplan : plan i s.cell = some v) :
    Moves plan s i (s.next i s.cell (.swap s.cell v) (.load i))
  | win (v : V) (hplace : s.place i = .swap s.cell v) :
    Moves plan s i (s.next i v (.returned true) (.swap i true))
  | lose (seen v : V) (hplace : s.place i = .swap seen v) (hne : s.cell ≠ seen) :
    Moves plan s i (s.next i s.cell .load (.swap i false))
  | rest (ok : Bool) (hplace : s.place i = .returned ok) : Moves plan s i s

variable [DecidableEq V]

/-- One step of the call `i`. The plan gets what the load saw; without a new value the call
returns. -/
def step (plan : ι → V → Option V) (s : State ι V) (i : ι) : State ι V :=
  match s.place i with
  | .load =>
    match plan i s.cell with
    | none => s.next i s.cell (.returned false) (.load i)
    | some v => s.next i s.cell (.swap s.cell v) (.load i)
  | .swap seen v =>
    if s.cell = seen then s.next i v (.returned true) (.swap i true)
    else s.next i s.cell .load (.swap i false)
  | .returned _ => s

theorem step_moves (plan : ι → V → Option V) (s : State ι V) (i : ι) :
    Moves plan s i (step plan s i) := by
  unfold step
  split
  · rename_i hplace
    split
    · rename_i hplan
      exact .giveUp hplace hplan
    · rename_i v hplan
      exact .read v hplace hplan
  · rename_i seen v hplace
    split
    · rename_i hcell
      subst hcell
      exact .win v hplace
    · rename_i hne
      exact .lose seen v hplace hne
  · rename_i ok hplace
    exact .rest ok hplace

/-- The invariant rule of the loop: one case for each thing that a step can do. -/
theorem run_moves {plan : ι → V → Option V} (Inv : State ι V → Prop)
    (hmove : ∀ s i s', Moves plan s i s' → Inv s → Inv s') {s : State ι V} (h0 : Inv s)
    (schedule : List ι) : Inv (run (step plan) s schedule) :=
  run_invariant_of_step Inv (fun s i h => hmove s i _ (step_moves plan s i) h) h0 schedule

end

/-! ## The swaps that succeed -/

section

variable {ι V : Type*}

/-- The calls whose swap succeeded, in the order of the swaps. -/
def winners (log : List (Event ι)) : List ι :=
  log.filterMap fun
    | .swap i true => some i
    | _ => none

@[simp] theorem winners_nil : winners ([] : List (Event ι)) = [] := rfl

@[simp] theorem winners_load (log : List (Event ι)) (i : ι) :
    winners (log ++ [.load i]) = winners log := by simp [winners]

@[simp] theorem winners_win (log : List (Event ι)) (i : ι) :
    winners (log ++ [.swap i true]) = winners log ++ [i] := by simp [winners]

@[simp] theorem winners_lose (log : List (Event ι)) (i : ι) :
    winners (log ++ [.swap i false]) = winners log := by simp [winners]

/-- The calls one after another, each with its plan on what the one before left. -/
def Serial (plan : ι → V → Option V) : V → List ι → V → Prop
  | a, [], b => a = b
  | a, i :: rest, b => ∃ v, plan i a = some v ∧ Serial plan v rest b

theorem serial_concat {plan : ι → V → Option V} {a b c : V} {calls : List ι} {i : ι}
    (h : Serial plan a calls b) (hplan : plan i b = some c) :
    Serial plan a (calls ++ [i]) c := by
  induction calls generalizing a with
  | nil =>
    cases h
    exact ⟨c, hplan, rfl⟩
  | cons j rest ih =>
    obtain ⟨v, hv, hrest⟩ := h
    exact ⟨v, hv, ih hrest⟩

/-- The cell holds what the winners left one after another, and a swap to come is planned from
what its call saw. -/
structure Serialized (plan : ι → V → Option V) (first : V) (s : State ι V) : Prop where
  serial : Serial plan first (winners s.log) s.cell
  planned : ∀ i seen v, s.place i = .swap seen v → plan i seen = some v

variable [DecidableEq ι]

theorem Serialized.next {plan : ι → V → Option V} {first : V} {s : State ι V} {i : ι} {cell : V}
    {p : Place V} {e : Event ι} (h : Serialized plan first s)
    (hserial : Serial plan first (winners (s.log ++ [e])) cell)
    (hplanned : ∀ seen v, p = .swap seen v → plan i seen = some v) :
    Serialized plan first (s.next i cell p e) := by
  refine ⟨hserial, fun j seen v hj => ?_⟩
  by_cases hji : j = i
  · subst hji
    rw [State.next_place_self] at hj
    exact hplanned seen v hj
  · rw [State.next_place_of_ne hji] at hj
    exact h.planned j seen v hj

theorem serialized_move {plan : ι → V → Option V} {first : V} {s s' : State ι V} {i : ι}
    (hmove : Moves plan s i s') (h : Serialized plan first s) : Serialized plan first s' := by
  cases hmove with
  | giveUp hplace hplan => exact h.next (by simpa using h.serial) (by simp)
  | read w hplace hplan =>
    refine h.next (by simpa using h.serial) ?_
    rintro seen v ⟨⟩
    exact hplan
  | win w hplace =>
    refine h.next ?_ (by simp)
    rw [winners_win]
    exact serial_concat h.serial (h.planned i s.cell w hplace)
  | lose seen w hplace hne => exact h.next (by simpa using h.serial) (by simp)
  | rest ok hplace => exact h

/-- Under every schedule the winners are a serial run. -/
theorem winners_serial [DecidableEq V] (plan : ι → V → Option V) (first : V) (schedule : List ι) :
    Serial plan first (winners (run (step plan) (start ι first) schedule).log)
      (run (step plan) (start ι first) schedule).cell := by
  refine (run_moves (Serialized plan first) (fun _ _ _ => serialized_move) ?_ schedule).serial
  exact ⟨rfl, by simp [start]⟩

/-- The calls that returned true are the winners, each with one swap. -/
structure Counted (s : State ι V) : Prop where
  returned : ∀ i, s.place i = .returned true ↔ i ∈ winners s.log
  once : (winners s.log).Nodup

theorem Counted.next {s : State ι V} {i : ι} {cell : V} {p : Place V} {e : Event ι}
    (h : Counted s) (hothers : ∀ j, j ≠ i → (j ∈ winners (s.log ++ [e]) ↔ j ∈ winners s.log))
    (hown : p = .returned true ↔ i ∈ winners (s.log ++ [e]))
    (honce : (winners (s.log ++ [e])).Nodup) : Counted (s.next i cell p e) := by
  refine ⟨fun j => ?_, honce⟩
  by_cases hji : j = i
  · subst hji
    rw [State.next_place_self, State.next_log, hown]
  · rw [State.next_place_of_ne hji, State.next_log, hothers j hji]
    exact h.returned j

theorem counted_move {plan : ι → V → Option V} {s s' : State ι V} {i : ι}
    (hmove : Moves plan s i s') (h : Counted s) : Counted s' := by
  have hopen : s.place i ≠ .returned true → i ∉ winners s.log := fun hne hmem =>
    hne ((h.returned i).mpr hmem)
  cases hmove with
  | giveUp hplace hplan =>
    exact h.next (by simp) (by simpa using hopen (by simp [hplace])) (by simpa using h.once)
  | read w hplace hplan =>
    exact h.next (by simp) (by simpa using hopen (by simp [hplace])) (by simpa using h.once)
  | win w hplace =>
    refine h.next (by simp +contextual) (by simp) ?_
    rw [winners_win, ← List.concat_eq_append]
    exact h.once.concat (hopen (by simp [hplace]))
  | lose seen w hplace hne =>
    exact h.next (by simp) (by simpa using hopen (by simp [hplace])) (by simpa using h.once)
  | rest ok hplace => exact h

theorem winners_counted [DecidableEq V] (plan : ι → V → Option V) (first : V) (schedule : List ι) :
    Counted (run (step plan) (start ι first) schedule) := by
  refine run_moves Counted (fun _ _ _ => counted_move) ?_ schedule
  exact ⟨by simp [start], by simp [start]⟩

/-! ## The swaps that fail -/

/-- The last step of `i` was its load, and these steps came after it. -/
def SinceLoad (log : List (Event ι)) (i : ι) (mid : List (Event ι)) : Prop :=
  (∃ front, log = front ++ .load i :: mid) ∧ ∀ e ∈ mid, e.caller ≠ i

omit [DecidableEq ι] in
theorem SinceLoad.concat {log mid : List (Event ι)} {i : ι} {e : Event ι}
    (h : SinceLoad log i mid) (he : e.caller ≠ i) : SinceLoad (log ++ [e]) i (mid ++ [e]) := by
  obtain ⟨⟨front, rfl⟩, hothers⟩ := h
  refine ⟨⟨front, by simp⟩, fun f hf => ?_⟩
  rcases List.mem_append.mp hf with hf | hf
  · exact hothers f hf
  · rwa [List.mem_singleton.mp hf]

/-- Another call's swap succeeded after the load of `i`. -/
def Overtaken (log : List (Event ι)) (i : ι) : Prop :=
  ∃ mid, SinceLoad log i mid ∧ ∃ j, j ≠ i ∧ Event.swap j true ∈ mid

/-- A call that is to swap still sees its value or was overtaken, and every swap that failed was
the swap of a call that was overtaken. -/
structure Explained (s : State ι V) : Prop where
  waiting : ∀ i seen v, s.place i = .swap seen v →
    ∃ mid, SinceLoad s.log i mid ∧ (s.cell = seen ∨ ∃ j, j ≠ i ∧ Event.swap j true ∈ mid)
  failed : ∀ front i rest, s.log = front ++ .swap i false :: rest → Overtaken front i

omit [DecidableEq ι] in
/-- Only a failed swap needs an explanation. -/
theorem failed_concat {log : List (Event ι)} {e : Event ι}
    (h : ∀ front i rest, log = front ++ .swap i false :: rest → Overtaken front i)
    (he : ∀ i, e = .swap i false → Overtaken log i) (front : List (Event ι)) (i : ι)
    (rest : List (Event ι)) (hlog : log ++ [e] = front ++ .swap i false :: rest) :
    Overtaken front i := by
  rcases List.eq_nil_or_concat rest with rfl | ⟨rest, last, rfl⟩
  · obtain ⟨rfl, hlast⟩ := List.append_inj' hlog rfl
    exact he i (List.singleton_inj.mp hlast)
  · rw [List.concat_eq_append, ← List.cons_append, ← List.append_assoc] at hlog
    exact h front i rest (List.append_inj' hlog rfl).1

theorem Explained.next {s : State ι V} {i : ι} {cell : V} {p : Place V} {e : Event ι}
    (h : Explained s) (hcaller : e.caller = i) (hcell : cell = s.cell ∨ e = .swap i true)
    (hown : ∀ seen v, p = .swap seen v → e = .load i ∧ cell = seen)
    (hfailed : ∀ j, e = .swap j false → Overtaken s.log j) : Explained (s.next i cell p e) := by
  refine ⟨fun j seen v hj => ?_, failed_concat h.failed hfailed⟩
  by_cases hji : j = i
  · subst hji
    rw [State.next_place_self] at hj
    obtain ⟨rfl, rfl⟩ := hown seen v hj
    exact ⟨[], ⟨⟨s.log, rfl⟩, by simp⟩, .inl rfl⟩
  · -- a call that does not move has one more step behind its load
    rw [State.next_place_of_ne hji] at hj
    obtain ⟨mid, hmid, hseen⟩ := h.waiting j seen v hj
    refine ⟨mid ++ [e], hmid.concat (hcaller ▸ Ne.symm hji), ?_⟩
    rcases hcell with rfl | rfl
    · exact hseen.imp_right fun ⟨k, hk, hmem⟩ => ⟨k, hk, List.mem_append_left _ hmem⟩
    · exact .inr ⟨i, Ne.symm hji, by simp⟩

theorem explained_move {plan : ι → V → Option V} {s s' : State ι V} {i : ι}
    (hmove : Moves plan s i s') (h : Explained s) : Explained s' := by
  cases hmove with
  | giveUp hplace hplan => exact h.next rfl (.inl rfl) (by simp) (by simp)
  | read w hplace hplan =>
    refine h.next rfl (.inl rfl) ?_ (by simp)
    rintro seen v ⟨⟩
    exact ⟨rfl, rfl⟩
  | win w hplace => exact h.next rfl (.inr rfl) (by simp) (by simp)
  | lose seen w hplace hne =>
    refine h.next rfl (.inl rfl) (by simp) ?_
    rintro j ⟨⟩
    obtain ⟨mid, hmid, hcell | hother⟩ := h.waiting i seen w hplace
    · exact absurd hcell hne
    · exact ⟨mid, hmid, hother⟩
  | rest ok hplace => exact h

/-- Under every schedule a swap fails only if its call was overtaken. -/
theorem failed_swap_overtaken [DecidableEq V] (plan : ι → V → Option V) (first : V)
    (schedule : List ι) {front rest : List (Event ι)} {i : ι}
    (hlog : (run (step plan) (start ι first) schedule).log = front ++ .swap i false :: rest) :
    Overtaken front i := by
  refine (run_moves Explained (fun _ _ _ => explained_move) ?_ schedule).failed front i rest hlog
  exact ⟨by simp [start], by simp [start]⟩

end

end swaploops
