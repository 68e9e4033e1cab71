-- A file that several processes read and rewrite without a lock. A process reads the file, works out
-- what to save, opens the file, which empties it, and writes from the start of the file. The steps
-- of different processes come in any order.
import Mathlib.Data.List.Sublists
import Vproxy.Runs

open runs

namespace sharedfile

/-- A text over another one, from its start. -/
def overlay {B : Type} (new old : List B) : List B := new ++ old.drop new.length

/-- How a value is saved. A text that has the end of another one behind it is not read. -/
structure Format (B C : Type) where
  text : C → List B
  read : List B → Option C
  /-- What is read of a saved value. -/
  stored : C → C
  last : B
  text_last : ∀ c, ∃ front, text c = front ++ [last]
  read_text : ∀ c, read (text c) = some (stored c)
  read_torn : ∀ c front, read (text c ++ (front ++ [last])) = none
  read_nil : read [] = none

/-- What an operation saves, if anything, after it has read the file. One that saves something for
a file that is not read does not look at the file. -/
structure Plan (O C : Type) where
  save : O → Option C → Option C
  blind : ∀ op c, save op none = some c → ∀ v, save op v = some c

/-- How far a process is with an operation. -/
inductive Stage (O C : Type) where
  | idle
  | begun (op : O)
  | saving (op : O) (c : C)
  | opened (op : O) (c : C)

/-- The file, and where the processes are. `written` are the operations that have written, and
`since` is what was written since the file was last emptied, if it ever was. -/
structure State (ι B O C : Type) where
  content : Option (List B)
  stage : ι → Stage O C
  written : List O
  since : Option (List C)

inductive Event (ι O : Type) where
  | begin (i : ι) (op : O)
  | step (i : ι)
  /-- The process ends, or the system does not let it go on. -/
  | stop (i : ι)

section

variable {ι B O C : Type} [DecidableEq ι] (fmt : Format B C) (plan : Plan O C)

def State.start (content : Option (List B)) : State ι B O C := ⟨content, fun _ => .idle, [], none⟩

def State.load (s : State ι B O C) : Option C := s.content.bind fmt.read

def State.at (s : State ι B O C) (i : ι) (stage : Stage O C) : State ι B O C :=
  { s with stage := Function.update s.stage i stage }

/-- The next step of a process. -/
def State.advance (s : State ι B O C) (i : ι) : State ι B O C :=
  match s.stage i with
  | .idle => s
  | .begun op =>
    match plan.save op (s.load fmt) with
    | none => s.at i .idle
    | some c => s.at i (.saving op c)
  | .saving op c => { s with content := some [], since := some [] }.at i (.opened op c)
  | .opened op c =>
    { s with
      content := some (overlay (fmt.text c) (s.content.getD []))
      written := s.written ++ [op]
      since := s.since.map (· ++ [c]) }.at i .idle

def State.next (s : State ι B O C) : Event ι O → State ι B O C
  | .begin i op =>
    match s.stage i with
    | .idle => s.at i (.begun op)
    | _ => s
  | .step i => s.advance fmt plan i
  | .stop i => s.at i .idle

/-- The operation on the value of the file, with nothing in between. -/
def apply (v : Option C) (op : O) : Option C :=
  match plan.save op v with
  | none => v
  | some c => some (fmt.stored c)

end

/-! ## Texts over each other -/

section

variable {B C : Type} (fmt : Format B C)

/-- What is in a file that was emptied, after these values were written from its start. -/
def layers (cs : List C) : List B := cs.foldl (fun old c => overlay (fmt.text c) old) []

theorem layers_concat (cs : List C) (c : C) :
    layers fmt (cs ++ [c]) = overlay (fmt.text c) (layers fmt cs) :=
  List.foldl_concat ..

/-- The longest text decides how long the file is. -/
theorem length_layers_le {cs : List C} {n : Nat} :
    (layers fmt cs).length ≤ n ↔ ∀ c ∈ cs, (fmt.text c).length ≤ n := by
  induction cs using List.reverseRecOn with
  | nil => simp [layers]
  | append_singleton cs c ih =>
    have hlength : (layers fmt (cs ++ [c])).length =
        max (fmt.text c).length (layers fmt cs).length := by
      rw [layers_concat, overlay, List.length_append, List.length_drop]
      omega
    rw [hlength, Nat.max_le, ih]
    simp [or_imp, forall_and, and_comm]

theorem layers_last {cs : List C} (h : cs ≠ []) :
    ∃ front, layers fmt cs = front ++ [fmt.last] := by
  induction cs using List.reverseRecOn with
  | nil => exact absurd rfl h
  | append_singleton cs c ih =>
    rw [layers_concat, overlay]
    rcases Nat.lt_or_ge (fmt.text c).length (layers fmt cs).length with hlt | hle
    · have hne : cs ≠ [] := by
        rintro rfl
        exact absurd hlt (Nat.not_lt_zero _)
      obtain ⟨front, hfront⟩ := ih hne
      rw [hfront, List.length_append, List.length_singleton] at hlt
      refine ⟨fmt.text c ++ front.drop (fmt.text c).length, ?_⟩
      rw [hfront, List.drop_append_of_le_length (by omega), List.append_assoc]
    · obtain ⟨front, hfront⟩ := fmt.text_last c
      exact ⟨front, by rw [List.drop_eq_nil_of_le hle, List.append_nil, hfront]⟩

/-- The last value is read if its text covers all the others. -/
theorem read_layers_concat (cs : List C) (c : C) :
    fmt.read (layers fmt (cs ++ [c])) =
      if (layers fmt cs).length ≤ (fmt.text c).length then some (fmt.stored c) else none := by
  rw [layers_concat, overlay]
  split
  · rename_i hle
    rw [List.drop_eq_nil_of_le hle, List.append_nil, fmt.read_text]
  · rename_i hlt
    have hne : cs ≠ [] := by
      rintro rfl
      exact hlt (Nat.zero_le _)
    obtain ⟨front, hfront⟩ := layers_last fmt hne
    rw [hfront, List.length_append, List.length_singleton] at hlt
    rw [hfront, List.drop_append_of_le_length (by omega)]
    exact fmt.read_torn c _

end

/-! ## Any order of steps -/

section

variable {ι B O C : Type} {fmt : Format B C} {plan : Plan O C} {first : Option (List B)}
  {s : State ι B O C}

/-- The process is about to write this. -/
def Stage.Holds (stage : Stage O C) (op : O) (c : C) : Prop :=
  stage = .saving op c ∨ stage = .opened op c

/-- The value comes from some of the operations that have written, in their order. -/
def Planned (fmt : Format B C) (plan : Plan O C) (first : Option (List B)) (written : List O)
    (op : O) (c : C) : Prop :=
  ∃ ops : List O, ops.Sublist written ∧ plan.save op (ops.foldl (apply fmt plan) (first.bind fmt.read)) = some c

theorem Planned.mono {written : List O} {op : O} {c : C}
    (h : Planned fmt plan first written op c) (more : List O) :
    Planned fmt plan first (written ++ more) op c := by
  obtain ⟨ops, hops, hplan⟩ := h
  exact ⟨ops, hops.trans (List.sublist_append_left _ _), hplan⟩

structure Inv (fmt : Format B C) (plan : Plan O C) (first : Option (List B))
    (s : State ι B O C) : Prop where
  untouched : s.since = none → s.content = first ∧ s.written = []
  layered : ∀ cs, s.since = some cs → s.content = some (layers fmt cs)
  emptied : ∀ i op c, s.stage i = .opened op c → s.since.isSome
  planned : ∀ i op c, (s.stage i).Holds op c → Planned fmt plan first s.written op c
  latest : ∀ cs c, s.since = some (cs ++ [c]) →
    ∃ earlier op, s.written = earlier ++ [op] ∧ Planned fmt plan first earlier op c

theorem inv_start : Inv fmt plan first (State.start first : State ι B O C) where
  untouched _ := ⟨rfl, rfl⟩
  layered _ h := by cases h
  emptied _ _ _ h := by cases h
  planned _ _ _ h := by
    rcases h with h | h
    · cases h
    · cases h
  latest _ _ h := by cases h

/-- What is read is the outcome of some of the operations, one after the other. The last one that
has written is among them. -/
theorem Inv.load_eq (h : Inv fmt plan first s) {v : C} (hload : s.load fmt = some v) :
    ∃ ops : List O, ops.Sublist s.written ∧ (s.written ≠ [] → ops.getLast? = s.written.getLast?) ∧
      ops.foldl (apply fmt plan) (first.bind fmt.read) = some v := by
  unfold State.load at hload
  cases hsince : s.since with
  | none =>
    obtain ⟨hcontent, hwritten⟩ := h.untouched hsince
    rw [hcontent] at hload
    exact ⟨[], List.nil_sublist _, fun hne => absurd hwritten hne, hload⟩
  | some cs =>
    rw [h.layered cs hsince, Option.bind_some] at hload
    rcases List.eq_nil_or_concat cs with rfl | ⟨cs, c, rfl⟩
    · rw [show layers fmt [] = [] from rfl, fmt.read_nil] at hload
      cases hload
    · rw [List.concat_eq_append] at hload hsince
      obtain ⟨earlier, op, hwritten, ops, hops, hplan⟩ := h.latest cs c hsince
      rw [read_layers_concat] at hload
      split at hload
      · refine ⟨ops ++ [op], ?_, fun _ => ?_, ?_⟩
        · rw [hwritten]
          exact hops.append (List.Sublist.refl _)
        · rw [hwritten, List.getLast?_concat, List.getLast?_concat]
        · rw [List.foldl_concat, apply, hplan]
          exact hload
      · cases hload

theorem Inv.planned_of_load (h : Inv fmt plan first s) {op : O} {c : C}
    (hplan : plan.save op (s.load fmt) = some c) : Planned fmt plan first s.written op c := by
  cases hload : s.load fmt with
  | none =>
    rw [hload] at hplan
    exact ⟨[], List.nil_sublist _, plan.blind op c hplan _⟩
  | some v =>
    rw [hload] at hplan
    obtain ⟨ops, hops, -, hv⟩ := h.load_eq hload
    exact ⟨ops, hops, by rw [hv, hplan]⟩

/-- The file is read while it is untouched, and when the last text covers the others. -/
theorem Inv.loads_iff (h : Inv fmt plan first s) :
    (s.load fmt).isSome ↔
      s.since = none ∧ (first.bind fmt.read).isSome ∨
      ∃ before c, s.since = some (before ++ [c]) ∧
        ∀ d ∈ before, (fmt.text d).length ≤ (fmt.text c).length := by
  unfold State.load
  cases hsince : s.since with
  | none =>
    rw [(h.untouched hsince).1]
    simp
  | some cs =>
    rw [h.layered cs hsince, Option.bind_some]
    rcases List.eq_nil_or_concat cs with rfl | ⟨before, c, rfl⟩
    · simp [layers, fmt.read_nil]
    · rw [List.concat_eq_append, read_layers_concat]
      simp only [length_layers_le]
      constructor
      · intro hsome
        refine .inr ⟨before, c, rfl, ?_⟩
        by_contra hlong
        rw [if_neg hlong] at hsome
        cases hsome
      · rintro (⟨hnone, -⟩ | ⟨front, d, heq, hle⟩)
        · cases hnone
        · obtain ⟨rfl, hd⟩ := List.append_inj' (Option.some.inj heq) rfl
          obtain rfl := List.head_eq_of_cons_eq hd
          rw [if_pos hle]
          rfl

/-- A file that was there stays there. -/
theorem Inv.content_isSome (h : Inv fmt plan first s) (hfirst : first.isSome) :
    s.content.isSome := by
  cases hsince : s.since with
  | none => rwa [(h.untouched hsince).1]
  | some cs =>
    rw [h.layered cs hsince]
    rfl

/-! ### Steps -/

/-- The file is emptied. -/
theorem Inv.empty (h : Inv fmt plan first s) :
    Inv fmt plan first { s with content := some [], since := some [] } where
  untouched hsince := by cases hsince
  layered _ hcs := by
    cases hcs
    rfl
  emptied _ _ _ _ := rfl
  planned := h.planned
  latest cs c hcs := absurd (Option.some.inj hcs).symm (by simp)

/-- A process writes what it holds. -/
theorem Inv.write (h : Inv fmt plan first s) {i : ι} {op : O} {c : C}
    (hstage : s.stage i = .opened op c) :
    Inv fmt plan first
      { s with
        content := some (overlay (fmt.text c) (s.content.getD []))
        written := s.written ++ [op]
        since := s.since.map (· ++ [c]) } := by
  obtain ⟨cs, hcs⟩ := Option.isSome_iff_exists.mp (h.emptied i op c hstage)
  have hcontent := h.layered cs hcs
  rw [hcs, hcontent]
  exact
    { untouched := fun hsince => by cases hsince
      layered := fun _ heq => by
        cases heq
        rw [layers_concat]
        rfl
      emptied := fun _ _ _ _ => rfl
      planned := fun j op' c' hj => (h.planned j op' c' hj).mono [op]
      latest := fun front d heq => by
        obtain ⟨-, hd⟩ := List.append_inj' (Option.some.inj heq) rfl
        obtain rfl := List.head_eq_of_cons_eq hd
        exact ⟨s.written, op, rfl, h.planned i op c (.inr hstage)⟩ }

section

variable [DecidableEq ι]

theorem Inv.at (h : Inv fmt plan first s) (i : ι) {stage : Stage O C}
    (hemptied : ∀ op c, stage = .opened op c → s.since.isSome)
    (hplanned : ∀ op c, stage.Holds op c → Planned fmt plan first s.written op c) :
    Inv fmt plan first (s.at i stage) where
  untouched := h.untouched
  layered := h.layered
  emptied j op c hj := by
    by_cases hij : j = i
    · subst hij
      exact hemptied op c (by simpa [State.at] using hj)
    · exact h.emptied j op c (by simpa [State.at, hij] using hj)
  planned j op c hj := by
    by_cases hij : j = i
    · subst hij
      exact hplanned op c (by simpa [State.at] using hj)
    · exact h.planned j op c (by simpa [State.at, hij] using hj)
  latest := h.latest

theorem Inv.idle (h : Inv fmt plan first s) (i : ι) : Inv fmt plan first (s.at i .idle) :=
  h.at i (fun _ _ h => by cases h) fun _ _ h => by rcases h with h | h <;> cases h

theorem Inv.next (h : Inv fmt plan first s) (e : Event ι O) :
    Inv fmt plan first (s.next fmt plan e) := by
  cases e with
  | begin i op =>
    rw [State.next]
    split
    · exact h.at i (fun _ _ h => by cases h) fun _ _ h => by rcases h with h | h <;> cases h
    · exact h
  | stop i => exact h.idle i
  | step i =>
    rw [State.next, State.advance]
    split
    · exact h
    · rename_i op hstage
      split
      · exact h.idle i
      · rename_i c hplan
        refine h.at i (fun _ _ h => by cases h) ?_
        rintro op' c' (heq | heq)
        · cases heq
          exact h.planned_of_load hplan
        · cases heq
    · rename_i op c hstage
      refine h.empty.at i (fun _ _ _ => rfl) ?_
      rintro op' c' (heq | heq)
      · cases heq
      · cases heq
        exact h.planned i op c (.inl hstage)
    · rename_i op c hstage
      exact (h.write hstage).idle i

/-- From the first state on the file is what some of the operations have made of it. -/
theorem inv_run (first : Option (List B)) (events : List (Event ι O)) :
    Inv fmt plan first (run (State.next fmt plan) (.start first) events) :=
  run_invariant_of_step (Inv fmt plan first) (fun _ e h => h.next e) inv_start events

end

end

/-! ## One operation after the other -/

section

variable {ι B O C : Type} [DecidableEq ι] {fmt : Format B C} {plan : Plan O C}

/-- A process does an operation from its beginning to its end. -/
def turn (act : ι × O) : List (Event ι O) :=
  [.begin act.1 act.2, .step act.1, .step act.1, .step act.1]

theorem run_turn {s : State ι B O C} (hidle : ∀ i, s.stage i = .idle) (act : ι × O) :
    (run (State.next fmt plan) s (turn act)).load fmt = apply fmt plan (s.load fmt) act.2 ∧
      ∀ i, (run (State.next fmt plan) s (turn act)).stage i = .idle := by
  obtain ⟨i, op⟩ := act
  have hat : ∀ (t : State ι B O C) (stage : Stage O C), (t.at i stage).stage i = stage := by
    intro t stage
    exact Function.update_self ..
  have hagain : ∀ (t : State ι B O C) (a b : Stage O C), (t.at i a).at i b = t.at i b := by
    intro t a b
    simp [State.at]
  have hback : ∀ t : State ι B O C, (∀ j, j ≠ i → t.stage j = .idle) →
      ∀ j, (t.at i .idle).stage j = .idle := by
    intro t ht j
    by_cases hij : j = i
    · subst hij
      exact hat t .idle
    · simp [State.at, hij, ht]
  have hbegin : s.next fmt plan (.begin i op) = s.at i (.begun op) := by
    rw [State.next, hidle]
  have hload : (s.at i (.begun op)).load fmt = s.load fmt := rfl
  simp only [turn, run_cons, run_nil, hbegin]
  unfold apply
  cases hplan : plan.save op (s.load fmt) with
  | none =>
    have hstop : (s.at i (.begun op)).next fmt plan (.step i) = s.at i .idle := by
      rw [State.next, State.advance, hat]
      dsimp only
      rw [hload, hplan]
      dsimp only
      rw [hagain]
    have hstays : (s.at i .idle).next fmt plan (.step i) = s.at i .idle := by
      rw [State.next, State.advance, hat]
    rw [hstop, hstays, hstays]
    exact ⟨rfl, hback s fun j _ => hidle j⟩
  | some c =>
    have hplanned : (s.at i (.begun op)).next fmt plan (.step i) = s.at i (.saving op c) := by
      rw [State.next, State.advance, hat]
      dsimp only
      rw [hload, hplan]
      dsimp only
      rw [hagain]
    have hopened : (s.at i (.saving op c)).next fmt plan (.step i) =
        { s with content := some [], since := some [] }.at i (.opened op c) := by
      rw [State.next, State.advance, hat]
      exact hagain { s with content := some [], since := some [] } (.saving op c) (.opened op c)
    rw [hplanned, hopened, State.next, State.advance, hat]
    dsimp only
    refine ⟨?_, hback _ fun j hij => ?_⟩
    · change fmt.read (fmt.text c ++ List.drop _ []) = _
      rw [List.drop_nil, List.append_nil, fmt.read_text]
    · simp [State.at, hij, hidle]

/-- Without overlaps the file is the value that all operations lead to. -/
theorem load_run_turns {s : State ι B O C} (hidle : ∀ i, s.stage i = .idle)
    (acts : List (ι × O)) :
    (run (State.next fmt plan) s (acts.flatMap turn)).load fmt =
      (acts.map Prod.snd).foldl (apply fmt plan) (s.load fmt) := by
  induction acts generalizing s with
  | nil => rfl
  | cons act acts ih =>
    obtain ⟨hload, hstage⟩ := @run_turn ι B O C _ fmt plan s hidle act
    rw [List.flatMap_cons, run_append, ih hstage, hload]
    rfl

end

end sharedfile
