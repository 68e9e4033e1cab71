-- Two programs that talk over two streams. A read takes what is there in chunks of any size
-- until it has its bytes, and the two programs take turns in any order. When one order comes
-- to an end, every order does, and with the same results.
import Mathlib.Logic.Relation
import Mathlib.Logic.Function.Basic
import Mathlib.Data.List.Basic

namespace duplex

variable {β α γ : Type}

/-- A program that reads one stream and writes another. A read asks for `n` bytes. It goes on
with them, or with `none` when the stream ends before. -/
inductive Proc (β α : Type) where
  | ret (a : α)
  | write (bytes : List β) (next : Proc β α)
  | read (n : Nat) (next : Option (List β) → Proc β α)

namespace Proc

/-- One program after another. -/
def bind : Proc β α → (α → Proc β γ) → Proc β γ
  | ret a, k => k a
  | write bytes next, k => write bytes (next.bind k)
  | read n next, k => read n fun got => (next got).bind k

instance : Monad (Proc β) where
  pure := ret
  bind := bind

@[simp] theorem ret_bind (a : α) (k : α → Proc β γ) : (ret a : Proc β α).bind k = k a := rfl

@[simp] theorem write_bind (bytes : List β) (p : Proc β α) (k : α → Proc β γ) :
    (write bytes p).bind k = write bytes (p.bind k) := rfl

@[simp] theorem read_bind (n : Nat) (next : Option (List β) → Proc β α) (k : α → Proc β γ) :
    (read n next).bind k = read n fun got => (next got).bind k := rfl

theorem bind_ret (p : Proc β α) : p.bind ret = p := by
  induction p with
  | ret a => rfl
  | write bytes next ih => rw [write_bind, ih]
  | read n next ih =>
    rw [read_bind]
    exact congrArg (read n) (funext ih)

theorem bind_bind {δ : Type} (p : Proc β α) (f : α → Proc β γ) (g : γ → Proc β δ) :
    (p.bind f).bind g = p.bind fun a => (f a).bind g := by
  induction p with
  | ret a => rfl
  | write bytes next ih => rw [write_bind, write_bind, write_bind, ih]
  | read n next ih =>
    rw [read_bind, read_bind, read_bind]
    exact congrArg (read n) (funext ih)

instance : LawfulMonad (Proc β) :=
  LawfulMonad.mk' (Proc β) bind_ret (fun _ _ => rfl) bind_bind

/-! ## On a stream that ends -/

/-- The result of a program on a stream that ends, what it leaves of the stream, and what it
writes. -/
def runOn : Proc β α → List β → α × List β × List β
  | ret a, s => (a, s, [])
  | write bytes next, s =>
    let (a, left, out) := next.runOn s
    (a, left, bytes ++ out)
  | read n next, s =>
    if n ≤ s.length then (next (some (s.take n))).runOn (s.drop n) else (next none).runOn []

theorem runOn_bind (p : Proc β α) (k : α → Proc β γ) (s : List β) :
    (p.bind k).runOn s =
      (((k (p.runOn s).1).runOn (p.runOn s).2.1).1, ((k (p.runOn s).1).runOn (p.runOn s).2.1).2.1,
        (p.runOn s).2.2 ++ ((k (p.runOn s).1).runOn (p.runOn s).2.1).2.2) := by
  induction p generalizing s with
  | ret a => rfl
  | write bytes next ih =>
    simp only [write_bind, runOn, ih, List.append_assoc]
  | read n next ih =>
    rw [read_bind, runOn, runOn]
    split
    · exact ih _ _
    · exact ih _ _

/-! ## On a stream that stays open -/

/-- Run as far as the bytes go. This gives the program that is left, which has returned or
waits for more, the bytes it leaves, and what it has written. -/
def settle : Proc β α → List β → Proc β α × List β × List β
  | ret a, s => (ret a, s, [])
  | write bytes next, s =>
    let (p, left, out) := next.settle s
    (p, left, bytes ++ out)
  | read n next, s =>
    if n ≤ s.length then (next (some (s.take n))).settle (s.drop n) else (read n next, s, [])

@[simp] theorem settle_ret (a : α) (s : List β) : (ret a).settle s = (ret a, s, []) := rfl

@[simp] theorem settle_read {n : Nat} {next : Option (List β) → Proc β α} {s : List β}
    (h : n ≤ s.length) :
    (read n next).settle s = (next (some (s.take n))).settle (s.drop n) := if_pos h

/-- A program that returns has a program after it go on from there. -/
theorem settle_bind {p : Proc β α} {s left out : List β} {a : α}
    (h : p.settle s = (ret a, left, out)) (k : α → Proc β γ) :
    (p.bind k).settle s =
      (((k a).settle left).1, ((k a).settle left).2.1, out ++ ((k a).settle left).2.2) := by
  induction p generalizing s out with
  | ret b =>
    cases h
    rfl
  | write bytes next ih =>
    obtain ⟨hp, hleft⟩ := Prod.mk.inj h
    obtain ⟨hl, rfl⟩ := Prod.mk.inj hleft
    have hnext := ih (s := s) (Prod.ext hp (Prod.ext hl rfl))
    simp only [write_bind, settle, hnext, List.append_assoc]
  | read n next ih =>
    by_cases hn : n ≤ s.length
    · rw [settle_read hn] at h
      rw [read_bind, settle_read hn]
      exact ih _ h
    · rw [settle, if_neg hn] at h
      cases h

/-- The stream that ends only adds to what a program does on the open stream. -/
theorem runOn_settle (p : Proc β α) (s : List β) :
    p.runOn s = (((p.settle s).1.runOn (p.settle s).2.1).1,
      ((p.settle s).1.runOn (p.settle s).2.1).2.1,
      (p.settle s).2.2 ++ ((p.settle s).1.runOn (p.settle s).2.1).2.2) := by
  induction p generalizing s with
  | ret a => rfl
  | write bytes next ih =>
    simp only [runOn, settle, List.append_assoc]
    rw [ih s]
  | read n next ih =>
    by_cases hn : n ≤ s.length
    · rw [settle_read hn, runOn, if_pos hn]
      exact ih _ _
    · rw [settle, if_neg hn]
      rfl

theorem runOn_of_settle {p : Proc β α} {s left out : List β} {a : α}
    (h : p.settle s = (ret a, left, out)) : p.runOn s = (a, left, out) := by
  rw [runOn_settle, h]
  simp [runOn]

/-! ## One step of a program -/

/-- The program has returned, or the bytes that are there are too few for its read. -/
def Quiet : Proc β α → List β → Prop
  | ret _, _ => True
  | write _ _, _ => False
  | read n _, s => s.length < n

theorem quiet_settle (p : Proc β α) (s : List β) :
    Quiet (p.settle s).1 (p.settle s).2.1 := by
  induction p generalizing s with
  | ret a => trivial
  | write bytes next ih => exact ih s
  | read n next ih =>
    unfold settle
    split
    · exact ih _ _
    · rename_i hn
      exact Nat.lt_of_not_le hn

/-- One step, from the bytes that are there to the bytes that are left, with what it writes. A
read takes a chunk of any size. -/
inductive Moves : Proc β α → List β → Proc β α → List β → List β → Prop
  | write (bytes : List β) (next : Proc β α) (s : List β) : Moves (write bytes next) s next s bytes
  | done (next : Option (List β) → Proc β α) (s : List β) :
      Moves (read 0 next) s (next (some [])) s []
  | chunk {n m : Nat} (next : Option (List β) → Proc β α) {s : List β} (hm : 0 < m) (hn : m ≤ n)
      (hs : m ≤ s.length) :
      Moves (read n next) s (read (n - m) fun got => next (got.map (s.take m ++ ·))) (s.drop m) []

/-- A write, or a read all at once, and the most steps that it may be cut into. -/
inductive Whole : Proc β α → List β → Proc β α → List β → List β → Nat → Prop
  | write (bytes : List β) (next : Proc β α) (s : List β) :
      Whole (write bytes next) s next s bytes 1
  | read {n : Nat} (next : Option (List β) → Proc β α) {s : List β} (hs : n ≤ s.length) :
      Whole (read n next) s (next (some (s.take n))) (s.drop n) [] (n + 1)

variable {p p' q : Proc β α} {s s' t o o' : List β} {cost : Nat}

/-- Bytes that come later do not change a step. -/
theorem Moves.append (h : Moves p s p' s' o) (t : List β) : Moves p (s ++ t) p' (s' ++ t) o := by
  cases h with
  | write => exact .write ..
  | done => exact .done ..
  | chunk next hm hn hs =>
    have hmove := Moves.chunk next hm hn (s := s ++ t) (by simp; omega)
    rwa [List.take_append_of_le_length hs, List.drop_append_of_le_length hs] at hmove

theorem Whole.append (h : Whole p s p' s' o cost) (t : List β) :
    Whole p (s ++ t) p' (s' ++ t) o cost := by
  cases h with
  | write => exact .write ..
  | @read n next _ hs =>
    have hmove := Whole.read next (n := n) (s := s ++ t) (by simp; omega)
    rwa [List.take_append_of_le_length hs, List.drop_append_of_le_length hs] at hmove

/-- A program that can do something whole can take a step. -/
theorem Whole.moves (h : Whole p s p' s' o cost) : ∃ q t r, Moves p s q t r := by
  cases h with
  | write => exact ⟨_, _, _, .write ..⟩
  | @read n next _ hs =>
    cases n with
    | zero => exact ⟨_, _, _, .done next s⟩
    | succ n => exact ⟨_, _, _, .chunk next n.succ_pos (Nat.le_refl _) hs⟩

/-- A step of a program that can do something whole is a part of it: it is all, or it leaves
something shorter that ends in the same place. -/
theorem Whole.moves_cases (hw : Whole p s p' s' o cost) (hm : Moves p s q t o') :
    o' = o ∧ ((q = p' ∧ t = s' ∧ 0 < cost) ∨
      o = [] ∧ ∃ less < cost, Whole q t p' s' [] less) := by
  cases hw with
  | write bytes next =>
    cases hm
    exact ⟨rfl, Or.inl ⟨rfl, rfl, Nat.one_pos⟩⟩
  | @read n next _ hs =>
    cases hm with
    | done => exact ⟨rfl, Or.inl ⟨rfl, rfl, Nat.succ_pos _⟩⟩
    | @chunk _ m _ _ hpos hmn hms =>
      refine ⟨rfl, Or.inr ⟨rfl, n - m + 1, by omega, ?_⟩⟩
      have hmove := Whole.read (fun got => next (got.map (s.take m ++ ·))) (n := n - m)
        (s := s.drop m) (by simp; omega)
      have htake : s.take m ++ (s.drop m).take (n - m) = s.take n := by
        rw [← List.take_add, Nat.add_sub_cancel' hmn]
      rw [Option.map_some, htake, List.drop_drop, Nat.add_sub_cancel' hmn] at hmove
      exact hmove

/-- A quiet program can only take bytes, and stays quiet. -/
theorem Quiet.moves (hq : Quiet p s) (hm : Moves p s q t o) :
    o = [] ∧ Quiet q t ∧ t.length < s.length ∧ (∀ a, p ≠ ret a) ∧ ∀ a, q ≠ ret a := by
  cases hm with
  | write => exact hq.elim
  | done => exact absurd hq (Nat.not_lt_zero _)
  | @chunk n m next _ hpos hmn hms =>
    have hlt : s.length < n := hq
    refine ⟨rfl, ?_, ?_, nofun, nofun⟩
    · change (s.drop m).length < n - m
      rw [List.length_drop]
      omega
    · rw [List.length_drop]
      omega

end Proc

/-! ## Two programs -/

inductive Party
  | client
  | server
deriving DecidableEq

variable {α : Party → Type}

/-- The two programs, and the bytes that wait for each of them. -/
@[ext] structure Conf (β : Type) (α : Party → Type) where
  procs : ∀ x, Proc β (α x)
  queues : Party → List β

/-- One party goes on to `p` and leaves the bytes `s`. What it writes waits for the other. -/
def Conf.after (c : Conf β α) (x : Party) (p : Proc β (α x)) (s out : List β) : Conf β α where
  procs := Function.update c.procs x p
  queues y := if y = x then s else c.queues y ++ out

inductive Step (c : Conf β α) : Conf β α → Prop
  | move (x : Party) {p : Proc β (α x)} {s out : List β}
      (h : (c.procs x).Moves (c.queues x) p s out) : Step c (c.after x p s out)

/-- The state of its two halves. -/
def Conf.mk₂ (p : Proc β (α .client)) (q : Proc β (α .server)) (s t : List β) : Conf β α where
  procs
    | .client => p
    | .server => q
  queues
    | .client => s
    | .server => t

/-- What a party has returned and left unread, when it has returned. -/
def Proc.result {α : Type} : Proc β α → List β → Option (α × List β)
  | .ret a, s => some (a, s)
  | _, _ => none

theorem result_eq_none {α : Type} {p : Proc β α} {s : List β} (h : ∀ a, p ≠ .ret a) :
    p.result s = none := by
  cases p with
  | ret a => exact absurd rfl (h a)
  | write => rfl
  | read => rfl

def Conf.result (c : Conf β α) (x : Party) : Option (α x × List β) :=
  (c.procs x).result (c.queues x)

variable {c c' : Conf β α} {x y : Party} {p : Proc β (α x)} {s out : List β}

@[simp] theorem after_procs_self : (c.after x p s out).procs x = p := Function.update_self ..

@[simp] theorem after_queues_self : (c.after x p s out).queues x = s := if_pos rfl

theorem after_procs_ne (h : y ≠ x) : (c.after x p s out).procs y = c.procs y :=
  Function.update_of_ne h ..

theorem after_queues_ne (h : y ≠ x) : (c.after x p s out).queues y = c.queues y ++ out :=
  if_neg h

/-- Steps of the two parties may change places. -/
theorem after_comm (h : x ≠ y) (p : Proc β (α x)) (q : Proc β (α y)) (s t r out : List β) :
    (c.after x p s out).after y q (t ++ out) r = (c.after y q t r).after x p (s ++ r) out := by
  apply Conf.ext
  · exact Function.update_comm h p q c.procs
  · funext z
    simp only [Conf.after]
    by_cases hx : z = x
    · subst hx
      simp [h]
    · by_cases hy : z = y
      · subst hy
        simp [hx]
      · cases x <;> cases y <;> cases z <;> simp_all

/-- A second step of one party takes the place of its first. -/
theorem after_after (p q : Proc β (α x)) (s t r out : List β) :
    (c.after x p s out).after x q t r = c.after x q t (out ++ r) := by
  apply Conf.ext
  · exact Function.update_idem ..
  · funext z
    by_cases hz : z = x <;> simp [Conf.after, hz]

/-- A party that stays where it is. -/
theorem after_self (h : c.procs x = p) : c.after x p (c.queues x) [] = c := by
  apply Conf.ext
  · rw [← h]
    exact Function.update_eq_self x c.procs
  · funext y
    by_cases hy : y = x <;> simp [Conf.after, hy]

/-- Some order of whole steps comes to an end with these results, and no order from here takes
more than `n` steps. -/
inductive Ends : Nat → Conf β α → (∀ x, Option (α x × List β)) → Prop
  | rest {n : Nat} {c : Conf β α} {results : ∀ x, Option (α x × List β)}
      (hquiet : ∀ x, (c.procs x).Quiet (c.queues x))
      (hn : (c.queues .client).length + (c.queues .server).length ≤ n)
      (hresults : ∀ x, results x = c.result x) : Ends n c results
  | whole {n cost : Nat} {c : Conf β α} {results : ∀ x, Option (α x × List β)} (x : Party)
      {p : Proc β (α x)} {s out : List β} (h : (c.procs x).Whole (c.queues x) p s out cost)
      (hends : Ends n (c.after x p s out) results) : Ends (n + cost) c results

variable {n : Nat} {results : ∀ x, Option (α x × List β)}

/-- Every step stays on the way to the same end, and is nearer to it. -/
theorem Ends.step (h : Ends n c results) (hstep : Step c c') :
    ∃ m < n, Ends m c' results := by
  induction h generalizing c' with
  | @rest n c results hquiet hn hresults =>
    obtain ⟨x, hmove⟩ := hstep
    obtain ⟨rfl, hq, hlt, hp, hp'⟩ := (hquiet x).moves hmove
    refine ⟨n - 1, ?_, .rest ?_ ?_ ?_⟩
    · cases x <;> omega
    · intro y
      by_cases hy : y = x
      · subst hy
        simpa using hq
      · rw [after_procs_ne hy, after_queues_ne hy, List.append_nil]
        exact hquiet y
    · cases x <;> simp [Conf.after] <;> omega
    · intro y
      rw [hresults]
      unfold Conf.result
      by_cases hy : y = x
      · subst hy
        rw [after_procs_self, result_eq_none hp, result_eq_none hp']
      · rw [after_procs_ne hy, after_queues_ne hy, List.append_nil]
  | @whole n cost c results x p s out hwhole hends ih =>
    obtain ⟨y, hmove⟩ := hstep
    by_cases hxy : x = y
    · -- the same party: the step is a part of the whole one
      subst hxy
      obtain ⟨rfl, ⟨rfl, rfl, hcost⟩ | ⟨rfl, less, hless, hrest⟩⟩ := hwhole.moves_cases hmove
      · exact ⟨n, by omega, hends⟩
      · refine ⟨n + less, by omega, ?_⟩
        apply Ends.whole x (p := p) (s := s)
        · simpa using hrest
        · rwa [after_after]
    · -- the other party: its step and the whole one change places
      rename_i q t r
      have hlater : Step (c.after x p s out) ((c.after x p s out).after y q (t ++ out) r) := by
        apply Step.move
        rw [after_procs_ne (Ne.symm hxy), after_queues_ne (Ne.symm hxy)]
        exact hmove.append out
      obtain ⟨m, hm, hends'⟩ := ih hlater
      refine ⟨m + cost, by omega, ?_⟩
      apply Ends.whole x (p := p) (s := s ++ r)
      · rw [after_procs_ne hxy, after_queues_ne hxy]
        exact hwhole.append r
      · rwa [← after_comm hxy]

/-- Where no step is possible, the results are there. -/
theorem Ends.results_eq (h : Ends n c results) (hstuck : ∀ c', ¬ Step c c') :
    ∀ x, c.result x = results x := by
  cases h with
  | rest _ _ hresults => exact fun x => (hresults x).symm
  | whole x hwhole _ =>
    obtain ⟨q, t, r, hmove⟩ := hwhole.moves
    exact absurd (Step.move x hmove) (hstuck _)

/-- Every run from `c` comes to an end, and has these results there. -/
def AlwaysEnds (c : Conf β α) (results : ∀ x, Option (α x × List β)) : Prop :=
  Acc (fun c' c => Step c c') c ∧
    ∀ c', Relation.ReflTransGen Step c c' → (∀ c'', ¬ Step c' c'') → ∀ x, c'.result x = results x

theorem Ends.acc (h : Ends n c results) : Acc (fun c' c => Step c c') c := by
  induction n using Nat.strongRecOn generalizing c with
  | _ n ih =>
    refine ⟨_, fun c' hstep => ?_⟩
    obtain ⟨m, hm, hends⟩ := h.step hstep
    exact ih m hm hends

theorem Ends.steps (h : Ends n c results) (hsteps : Relation.ReflTransGen Step c c') :
    ∃ m, Ends m c' results := by
  induction hsteps with
  | refl => exact ⟨n, h⟩
  | tail _ hstep ih =>
    obtain ⟨m, hm⟩ := ih
    obtain ⟨k, -, hk⟩ := hm.step hstep
    exact ⟨k, hk⟩

/-- When one order comes to an end, every order does, with the same results. -/
theorem Ends.always (h : Ends n c results) : AlwaysEnds c results := by
  refine ⟨h.acc, fun c' hsteps hstuck => ?_⟩
  obtain ⟨m, hm⟩ := h.steps hsteps
  exact hm.results_eq hstuck

/-- From every state some run comes to an end. -/
theorem exists_stuck (h : Acc (fun c' c : Conf β α => Step c c') c) :
    ∃ c', Relation.ReflTransGen Step c c' ∧ ∀ c'', ¬ Step c' c'' := by
  induction h with
  | intro c _ ih =>
    by_cases hstuck : ∀ c', ¬ Step c c'
    · exact ⟨c, .refl, hstuck⟩
    · push Not at hstuck
      obtain ⟨c', hstep⟩ := hstuck
      obtain ⟨d, hd, hdone⟩ := ih c' hstep
      exact ⟨d, .head hstep hd, hdone⟩

/-- The results are the ones of any order that comes to an end. -/
theorem Ends.always_iff (h : Ends n c results) (wanted : ∀ x, Option (α x × List β)) :
    AlwaysEnds c wanted ↔ ∀ x, results x = wanted x := by
  constructor
  · rintro ⟨hacc, hall⟩ x
    obtain ⟨c', hsteps, hstuck⟩ := exists_stuck hacc
    rw [← h.always.2 c' hsteps hstuck x, hall c' hsteps hstuck x]
  · intro heq
    have hsame : results = wanted := funext heq
    exact hsame ▸ h.always

/-! ## A party that runs as far as it can -/

/-- One party may run as far as its bytes go. -/
theorem Ends.settle (x : Party) {c : Conf β α} (h : Ends n (c.after x
      ((c.procs x).settle (c.queues x)).1 ((c.procs x).settle (c.queues x)).2.1
      ((c.procs x).settle (c.queues x)).2.2) results) : ∃ m, Ends m c results := by
  generalize hp : c.procs x = p at h
  induction p generalizing c n with
  | ret a =>
    rw [Proc.settle_ret, after_self hp] at h
    exact ⟨n, h⟩
  | write bytes next ih =>
    have hnext := ih (c := c.after x next (c.queues x) bytes) (n := n) after_procs_self
      (by rw [after_queues_self, after_after]; exact h)
    obtain ⟨m, hm⟩ := hnext
    refine ⟨m + 1, .whole x ?_ hm⟩
    rw [hp]
    exact .write bytes next _
  | read k next ih =>
    by_cases hk : k ≤ (c.queues x).length
    · rw [Proc.settle_read hk] at h
      have hnext := ih (some ((c.queues x).take k)) (n := n)
        (c := c.after x (next (some ((c.queues x).take k))) ((c.queues x).drop k) [])
        after_procs_self (by rw [after_queues_self, after_after]; exact h)
      obtain ⟨m, hm⟩ := hnext
      refine ⟨m + (k + 1), .whole x ?_ hm⟩
      rw [hp]
      exact .read next hk
    · rw [Proc.settle, if_neg hk, after_self hp] at h
      exact ⟨n, h⟩

section

variable {p p' : Proc β (α .client)} {q q' : Proc β (α .server)} {s s' t t' out : List β}

/-- Two parties that cannot go on are at the end. -/
theorem exists_ends_rest (hp : p.Quiet s) (hq : q.Quiet t) :
    ∃ n, Ends n (.mk₂ p q s t) (Conf.mk₂ (α := α) p q s t).result := by
  refine ⟨_, .rest (fun x => ?_) (Nat.le_refl _) fun _ => rfl⟩
  cases x
  · exact hp
  · exact hq

theorem Ends.settle_client (h : p.settle s = (p', s', out))
    (hends : Ends n (.mk₂ p' q s' (t ++ out)) results) :
    ∃ m, Ends m (.mk₂ p q s t) results := by
  apply Ends.settle .client
  have hafter : (Conf.mk₂ p q s t).after .client p' s' out = .mk₂ p' q s' (t ++ out) := by
    apply Conf.ext <;> funext x <;> cases x <;> rfl
  have hsettle : ((Conf.mk₂ p q s t).procs .client).settle ((Conf.mk₂ p q s t).queues .client) =
    _ := h
  rw [hsettle, hafter]
  exact hends

theorem Ends.settle_server (h : q.settle t = (q', t', out))
    (hends : Ends n (.mk₂ p q' (s ++ out) t') results) :
    ∃ m, Ends m (.mk₂ p q s t) results := by
  apply Ends.settle .server
  have hafter : (Conf.mk₂ p q s t).after .server q' t' out = .mk₂ p q' (s ++ out) t' := by
    apply Conf.ext <;> funext x <;> cases x <;> rfl
  have hsettle : ((Conf.mk₂ p q s t).procs .server).settle ((Conf.mk₂ p q s t).queues .server) =
    _ := h
  rw [hsettle, hafter]
  exact hends

end

end duplex
