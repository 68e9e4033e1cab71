-- Package regexp. A pattern text of a small fragment (literals, dot, anchors,
-- groups, alternatives and the three repetitions) is read into an expression,
-- and an expression says where a match can end. An engine is any type of
-- programs that agrees with this on the fragment.
import Mathlib.Data.List.Infix
import Vproxy.Strings

namespace go.regexp

/-! ## Expressions -/

inductive Re
  | empty
  | char (c : Char)
  | any
  | bol
  | eol
  | seq (a b : Re)
  | alt (a b : Re)
  | star (a : Re)
  | plus (a : Re)
  | opt (a : Re)
  | group (a : Re)
deriving DecidableEq, Repr

/-- The places reached by any number of steps. A step that takes no text is not repeated,
so `fuel` may be the length of the text. -/
def repeated (step : Str → List Str) : Nat → Str → List Str
  | 0, t => [t]
  | fuel + 1, t => t :: (step t).flatMap fun rest =>
      if rest.length < t.length then repeated step fuel rest else []

/-- Every place where a match from `t` can end. A place in a text of length `n` is the text
that is left there. -/
def Re.ends (n : Nat) : Re → Str → List Str
  | .empty, t => [t]
  | .char c, t =>
    match t with
    | [] => []
    | x :: rest => if x = c then [rest] else []
  | .any, t =>
    match t with
    | [] => []
    | x :: rest => if x = '\n' then [] else [rest]
  | .bol, t => if t.length = n then [t] else []
  | .eol, t => if t = [] then [t] else []
  | .seq a b, t => (a.ends n t).flatMap (b.ends n)
  | .alt a b, t => a.ends n t ++ b.ends n t
  | .star a, t => repeated (a.ends n) t.length t
  | .plus a, t => (a.ends n t).flatMap fun rest => repeated (a.ends n) rest.length rest
  | .opt a, t => a.ends n t ++ [t]
  | .group a, t => a.ends n t

/-- Some part of `u` matches. -/
def Re.search (r : Re) (u : Str) : Bool := u.tails.any fun t => r.ends u.length t ≠ []

/-! ## Reading a pattern -/

/-- What the last characters were: nothing special, a backslash, `(` or `(?`. -/
inductive Mode
  | plain
  | escaped
  | opened
  | question
deriving DecidableEq, Repr

/-- A group that is not closed yet: its alternatives so far, then what stands before the
last item, then the last item. The flag of an item says that it has no repetition yet. A
group without `?:` captures. -/
structure Frame where
  alts : Option Re
  done : Re
  last : Option (Re × Bool)
  captures : Bool
deriving DecidableEq, Repr

structure Parser where
  mode : Mode
  frame : Frame
  outer : List Frame
deriving DecidableEq, Repr

def Frame.new : Frame := ⟨none, .empty, none, false⟩

def Frame.seq (f : Frame) : Re :=
  match f.last with
  | none => f.done
  | some a => .seq f.done a.1

def Frame.push (f : Frame) (a : Re) : Frame := { f with done := f.seq, last := some (a, true) }

/-- A repetition takes the last item. There is none after another repetition. -/
def Frame.repeats (f : Frame) (rep : Re → Re) : Option Frame :=
  match f.last with
  | some (a, true) => some { f with last := some (rep a, false) }
  | _ => none

def Frame.close (f : Frame) : Re :=
  match f.alts with
  | none => f.seq
  | some a => .alt a f.seq

def Frame.bar (f : Frame) : Frame := { Frame.new with alts := f.close, captures := f.captures }

/-- The item that a group becomes when it is closed. -/
def Frame.toItem (f : Frame) : Re := if f.captures then .group f.close else f.close

/-- The characters that `regexp.QuoteMeta` escapes. -/
def special : Str := ['\\', '.', '+', '*', '?', '(', ')', '|', '[', ']', '{', '}', '^', '$']

/-- The ASCII characters that stand for themselves after a backslash. -/
def isPunct (c : Char) : Bool := c.toNat < 128 && !c.isAlphanum

def Parser.item (p : Parser) (a : Re) : Parser := ⟨.plain, p.frame.push a, p.outer⟩

def Parser.plainStep (p : Parser) (c : Char) : Option Parser :=
  match c with
  | '\\' => some { p with mode := .escaped }
  | '(' => some { p with mode := .opened }
  | ')' =>
    match p.outer with
    | [] => none
    | f :: fs => some ⟨.plain, f.push p.frame.toItem, fs⟩
  | '|' => some ⟨.plain, p.frame.bar, p.outer⟩
  | '*' => (p.frame.repeats .star).map fun f => ⟨.plain, f, p.outer⟩
  | '+' => (p.frame.repeats .plus).map fun f => ⟨.plain, f, p.outer⟩
  | '?' => (p.frame.repeats .opt).map fun f => ⟨.plain, f, p.outer⟩
  | '.' => some (p.item .any)
  | '^' => some (p.item .bol)
  | '$' => some (p.item .eol)
  -- Classes and counted repetitions are not in the fragment.
  | '[' | ']' | '{' | '}' => none
  | c => some (p.item (.char c))

def Parser.group (p : Parser) (captures : Bool) : Parser :=
  ⟨.plain, { Frame.new with captures }, p.frame :: p.outer⟩

def Parser.step (p : Parser) (c : Char) : Option Parser :=
  match p.mode with
  | .plain => p.plainStep c
  | .escaped => if isPunct c then some (p.item (.char c)) else none
  | .opened => if c = '?' then some { p with mode := .question } else (p.group true).plainStep c
  | .question => if c = ':' then some (p.group false) else none

def Parser.run (p : Parser) (s : Str) : Option Parser := s.foldlM Parser.step p

/-- The expression that a pattern of the fragment stands for. -/
def Re.parse (pattern : Str) : Option Re :=
  match Parser.run ⟨.plain, .new, []⟩ pattern with
  | some ⟨.plain, f, []⟩ => some f.close
  | _ => none

/-- `regexp.QuoteMeta`. -/
def quoteMeta (s : Str) : Str := s.flatMap fun c => if c ∈ special then ['\\', c] else [c]

/-! ## Engines -/

/-- What package regexp offers. On a pattern of the fragment a compiled program searches
as its expression does. -/
class Regexp where
  Prog : Type
  compile : Str → Option Prog
  matchString : Prog → Str → Bool
  findStringSubmatchIndex : Prog → Str → List Int
  expandString : Prog → Str → Str → List Int → Str
  replaceAllString : Prog → Str → Str → Str
  matchString_fragment : ∀ pattern prog r, compile pattern = some prog →
    Re.parse pattern = some r → ∀ u, matchString prog u = r.search u

/-- The engine that has the fragment and no submatches. -/
instance fragment : Regexp where
  Prog := Re
  compile := Re.parse
  matchString := Re.search
  findStringSubmatchIndex _ _ := []
  expandString _ template _ _ := template
  replaceAllString _ _ new := new
  matchString_fragment := by
    intro pattern prog r hc hp u
    rw [hc] at hp
    rw [Option.some.inj hp]

/-! ## What the reader builds -/

theorem run_append (p : Parser) (s t : Str) : p.run (s ++ t) = (p.run s).bind (·.run t) :=
  List.foldlM_append

@[simp] theorem seq_push (f : Frame) (a : Re) : (f.push a).seq = .seq f.seq a := rfl

@[simp] theorem push_alts (f : Frame) (a : Re) : (f.push a).alts = f.alts := rfl

theorem isPunct_of_special (c : Char) (h : c ∈ special) : isPunct c := by
  have hall : special.all isPunct = true := by decide
  exact List.all_eq_true.mp hall c h

theorem plainStep_ordinary (p : Parser) (c : Char) (h : c ∉ special) :
    p.plainStep c = some (p.item (.char c)) := by
  simp only [special, List.mem_cons, List.not_mem_nil, or_false, not_or] at h
  unfold Parser.plainStep
  split <;> simp_all

/-- A quoted text is read as its characters, one after another. -/
theorem run_quoteMeta (s : Str) (f : Frame) (outer : List Frame) :
    Parser.run ⟨.plain, f, outer⟩ (quoteMeta s) =
      some ⟨.plain, s.foldl (fun g c => g.push (.char c)) f, outer⟩ := by
  induction s generalizing f with
  | nil => rfl
  | cons c s ih =>
    have hquote : quoteMeta (c :: s) = quoteMeta [c] ++ quoteMeta s := by simp [quoteMeta]
    have hone : Parser.run ⟨.plain, f, outer⟩ (quoteMeta [c]) =
        some ⟨.plain, f.push (.char c), outer⟩ := by
      by_cases h : c ∈ special
      · have hpunct := isPunct_of_special c h
        simp [quoteMeta, h, Parser.run, Parser.step, Parser.plainStep, hpunct, Parser.item]
      · simp [quoteMeta, h, Parser.run, Parser.step, plainStep_ordinary, Parser.item]
    rw [hquote, run_append, hone]
    exact ih (f.push (.char c))

/-! ## Where matches end -/

theorem search_iff (r : Re) (u : Str) :
    r.search u ↔ ∃ t, t <:+ u ∧ ∃ rest, rest ∈ r.ends u.length t := by
  simp only [Re.search, List.any_eq_true, List.mem_tails, decide_eq_true_eq, ne_eq,
    List.eq_nil_iff_forall_not_mem, not_forall, not_not]

@[simp] theorem mem_ends_seq (n : Nat) (a b : Re) (t rest : Str) :
    rest ∈ (Re.seq a b).ends n t ↔ ∃ mid ∈ a.ends n t, rest ∈ b.ends n mid := by
  change rest ∈ (a.ends n t).flatMap (b.ends n) ↔ _
  exact List.mem_flatMap

@[simp] theorem mem_ends_alt (n : Nat) (a b : Re) (t rest : Str) :
    rest ∈ (Re.alt a b).ends n t ↔ rest ∈ a.ends n t ∨ rest ∈ b.ends n t := by
  change rest ∈ a.ends n t ++ b.ends n t ↔ _
  exact List.mem_append

@[simp] theorem mem_ends_opt (n : Nat) (a : Re) (t rest : Str) :
    rest ∈ (Re.opt a).ends n t ↔ rest ∈ a.ends n t ∨ rest = t := by
  change rest ∈ a.ends n t ++ [t] ↔ _
  rw [List.mem_append, List.mem_singleton]

@[simp] theorem mem_ends_group (n : Nat) (a : Re) (t rest : Str) :
    rest ∈ (Re.group a).ends n t ↔ rest ∈ a.ends n t :=
  Iff.rfl

@[simp] theorem mem_ends_empty (n : Nat) (t rest : Str) :
    rest ∈ Re.empty.ends n t ↔ rest = t :=
  List.mem_singleton

@[simp] theorem mem_ends_char (n : Nat) (c : Char) (t rest : Str) :
    rest ∈ (Re.char c).ends n t ↔ t = c :: rest := by
  cases t with
  | nil =>
    change rest ∈ [] ↔ _
    simp
  | cons x t =>
    change rest ∈ (if x = c then [t] else []) ↔ _
    by_cases h : x = c
    · simp [h, eq_comm]
    · simp [h]

@[simp] theorem mem_ends_eol (n : Nat) (t rest : Str) :
    rest ∈ Re.eol.ends n t ↔ t = [] ∧ rest = [] := by
  change rest ∈ (if t = [] then [t] else []) ↔ _
  by_cases h : t = [] <;> simp [h]

@[simp] theorem mem_ends_bol (n : Nat) (t rest : Str) :
    rest ∈ Re.bol.ends n t ↔ t.length = n ∧ rest = t := by
  change rest ∈ (if t.length = n then [t] else []) ↔ _
  by_cases h : t.length = n <;> simp [h]

/-- A row of characters takes exactly its text. -/
theorem mem_ends_chars (n : Nat) (s : Str) (f : Frame) (t rest : Str) :
    rest ∈ (s.foldl (fun g c => g.push (.char c)) f).seq.ends n t ↔
      s ++ rest ∈ f.seq.ends n t := by
  induction s generalizing f with
  | nil => rfl
  | cons c s ih => simp [ih]

theorem mem_repeated_self (step : Str → List Str) (fuel : Nat) (t : Str) :
    t ∈ repeated step fuel t := by
  cases fuel <;> simp [repeated]

/-- `.*` can take any text without a line break. -/
theorem mem_ends_star_any (n : Nat) (s rest : Str) (h : '\n' ∉ s) :
    rest ∈ (Re.star .any).ends n (s ++ rest) := by
  have hfuel : ∀ fuel, s.length ≤ fuel → rest ∈ repeated (Re.any.ends n) fuel (s ++ rest) := by
    induction s with
    | nil => exact fun fuel _ => mem_repeated_self _ fuel rest
    | cons c s ih =>
      simp only [List.mem_cons, not_or] at h
      intro fuel hf
      obtain _ | fuel := fuel
      · simp at hf
      have hrest := ih h.2 fuel (by simpa using hf)
      have hstep : s ++ rest ∈ Re.any.ends n (c :: (s ++ rest)) := by
        change s ++ rest ∈ (if c = '\n' then [] else [s ++ rest])
        simp [Ne.symm h.1]
      apply List.mem_cons_of_mem
      apply List.mem_flatMap.mpr
      exact ⟨s ++ rest, hstep, by simpa using hrest⟩
  exact hfuel _ (by simp)

end go.regexp
