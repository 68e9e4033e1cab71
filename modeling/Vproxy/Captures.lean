-- Which match package regexp reports, and what the groups of the pattern hold then. The matches
-- from a place are listed in the order in which they are tried, and the first one at the leftmost
-- place is reported.
import Vproxy.Regexes

namespace go.regexp

/-! ## Matches in order -/

def Re.groups : Re → Nat
  | .seq a b | .alt a b => a.groups + b.groups
  | .star a | .plus a | .opt a => a.groups
  | .group a => a.groups + 1
  | _ => 0

/-- The places reached by any number of steps, as many as possible first. -/
def greedily (step : Str → List Str) : Nat → Str → List Str
  | 0, t => [t]
  | fuel + 1, t =>
    ((step t).flatMap fun rest =>
      if rest.length < t.length then greedily step fuel rest else []) ++ [t]

/-- A match: the text that is left, and what each group took, in the order of their brackets. -/
structure Path where
  rest : Str
  groups : List (Option Str)
deriving DecidableEq, Repr

/-- The text taken between a place and a later one. -/
def taken (t rest : Str) : Str := t.take (t.length - rest.length)

/-- A match of what comes next, after groups that are done. -/
def Path.after (gs : List (Option Str)) (x : Path) : Path := ⟨x.rest, gs ++ x.groups⟩

/-- A match of what came first, with groups behind it that took nothing. -/
def Path.skip (k : Nat) (x : Path) : Path := ⟨x.rest, x.groups ++ List.replicate k none⟩

/-- The matches from `t` in a text of length `n`, in the order in which they are tried. What the
groups inside a repetition took is not kept. -/
def Re.paths (n : Nat) : Re → Str → List Path
  | .empty, t => [⟨t, []⟩]
  | .char c, t =>
    match t with
    | [] => []
    | x :: rest => if x = c then [⟨rest, []⟩] else []
  | .any, t =>
    match t with
    | [] => []
    | x :: rest => if x = '\n' then [] else [⟨rest, []⟩]
  | .bol, t => if t.length = n then [⟨t, []⟩] else []
  | .eol, t => if t = [] then [⟨t, []⟩] else []
  | .seq a b, t => (a.paths n t).flatMap fun x => (b.paths n x.rest).map (·.after x.groups)
  | .alt a b, t =>
    (a.paths n t).map (·.skip b.groups) ++
      (b.paths n t).map (·.after (List.replicate a.groups none))
  | .star a, t =>
    (greedily (fun t => (a.paths n t).map (·.rest)) t.length t).map
      (⟨·, List.replicate a.groups none⟩)
  | .plus a, t =>
    ((a.paths n t).flatMap fun x =>
      greedily (fun t => (a.paths n t).map (·.rest)) x.rest.length x.rest).map
      (⟨·, List.replicate a.groups none⟩)
  | .opt a, t => a.paths n t ++ [⟨t, List.replicate a.groups none⟩]
  | .group a, t => (a.paths n t).map fun x => ⟨x.rest, some (taken t x.rest) :: x.groups⟩

/-- The whole match and its groups, of the first match at the leftmost place. -/
def Re.firstMatch (r : Re) (u : Str) : Option (List (Option Str)) :=
  u.tails.findSome? fun t =>
    (r.paths u.length t).head?.map fun x => some (taken t x.rest) :: x.groups

def Re.isCharacter : Re → Bool
  | .char _ | .any => true
  | _ => false

/-- Only single characters are repeated. -/
def Re.repeatsCharacters : Re → Bool
  | .seq a b | .alt a b => a.repeatsCharacters && b.repeatsCharacters
  | .star a | .plus a => a.isCharacter
  | .opt a | .group a => a.repeatsCharacters
  | _ => true

theorem mem_greedily {step step' : Str → List Str} (h : ∀ t rest, rest ∈ step t ↔ rest ∈ step' t)
    (fuel : Nat) (t rest : Str) :
    rest ∈ greedily step fuel t ↔ rest ∈ repeated step' fuel t := by
  induction fuel generalizing t with
  | zero => rfl
  | succ fuel ih =>
    rw [greedily, repeated, List.mem_append, List.mem_singleton, List.mem_cons, List.mem_flatMap,
      List.mem_flatMap, or_comm]
    refine or_congr Iff.rfl (exists_congr fun mid => and_congr (h t mid) ?_)
    split
    · exact ih mid
    · rfl

/-- The matches end where the expression says. -/
theorem mem_paths (n : Nat) (r : Re) (t rest : Str) :
    rest ∈ (r.paths n t).map Path.rest ↔ rest ∈ r.ends n t := by
  induction r generalizing t rest with
  | empty => simp [Re.paths]
  | char c =>
    rw [mem_ends_char]
    cases t with
    | nil => simp [Re.paths]
    | cons x t =>
      by_cases h : x = c
      · simp [Re.paths, h, eq_comm]
      · simp [Re.paths, h]
  | any =>
    cases t with
    | nil => simp [Re.paths, Re.ends]
    | cons x t => by_cases h : x = '\n' <;> simp [Re.paths, Re.ends, h]
  | bol =>
    rw [mem_ends_bol]
    by_cases h : t.length = n <;> simp [Re.paths, h, eq_comm]
  | eol =>
    rw [mem_ends_eol]
    by_cases h : t = [] <;> simp [Re.paths, h]
  | seq a b iha ihb =>
    simp only [List.mem_map] at iha ihb
    simp only [Re.paths, Path.after, List.mem_map, List.mem_flatMap, mem_ends_seq, ← iha, ← ihb]
    constructor
    · rintro ⟨_, ⟨x, hx, y, hy, rfl⟩, rfl⟩
      exact ⟨x.rest, ⟨x, hx, rfl⟩, y, hy, rfl⟩
    · rintro ⟨_, ⟨x, hx, rfl⟩, y, hy, rfl⟩
      exact ⟨_, ⟨x, hx, y, hy, rfl⟩, rfl⟩
  | alt a b iha ihb =>
    rw [mem_ends_alt, ← iha, ← ihb]
    simp [Re.paths, Path.after, Path.skip, Function.comp_def]
  | star a ih =>
    change _ ↔ rest ∈ repeated (a.ends n) t.length t
    rw [← mem_greedily ih]
    simp [Re.paths]
  | plus a ih =>
    change _ ↔ rest ∈ (a.ends n t).flatMap fun mid => repeated (a.ends n) mid.length mid
    simp only [List.mem_flatMap, ← mem_greedily ih, ← ih]
    simp [Re.paths]
  | opt a ih =>
    rw [mem_ends_opt, ← ih]
    simp [Re.paths]
  | group a ih =>
    rw [mem_ends_group, ← ih]
    simp [Re.paths, Function.comp_def]

/-- A match is reported where there is one. -/
theorem isSome_firstMatch (r : Re) (u : Str) : (r.firstMatch u).isSome = r.search u := by
  rw [Bool.eq_iff_iff, search_iff, Re.firstMatch, List.findSome?_isSome_iff]
  simp only [List.mem_tails, Option.isSome_map, ← mem_paths]
  refine exists_congr fun t => and_congr Iff.rfl ?_
  cases r.paths u.length t with
  | nil => simp
  | cons x xs => simp

/-- An expression that only matches at the start of the text. -/
theorem firstMatch_anchored {r : Re} {u : Str}
    (h : ∀ t : Str, t.length ≠ u.length → r.paths u.length t = []) :
    r.firstMatch u =
      (r.paths u.length u).head?.map fun x => some (taken u x.rest) :: x.groups := by
  have hothers : ∀ t ∈ u.tails.tail, t.length ≠ u.length := by
    cases u with
    | nil => simp
    | cons c u =>
      intro t ht
      have hle := ((List.mem_tails t u).mp ht).length_le
      simp only [List.length_cons]
      omega
  have htails : u.tails = u :: u.tails.tail := by cases u <;> rfl
  rw [Re.firstMatch, htails, List.findSome?_cons]
  cases hpaths : (r.paths u.length u).head? with
  | some x => rfl
  | none =>
    refine List.findSome?_eq_none_iff.mpr fun t ht => ?_
    rw [h t (hothers t ht)]
    rfl

/-! ## What one item takes -/

/-- The texts that `.*` can take, the longest first. -/
def lineParts : Str → List Str
  | [] => [[]]
  | c :: t => (if c = '\n' then [] else (lineParts t).map (c :: ·)) ++ [[]]

theorem mem_lineParts {s t : Str} : s ∈ lineParts t ↔ s <+: t ∧ '\n' ∉ s := by
  induction t generalizing s with
  | nil => simp +contextual [lineParts]
  | cons c t ih =>
    cases s with
    | nil => simp [lineParts]
    | cons d s =>
      by_cases hc : c = '\n'
      · simp +contextual [lineParts, hc, List.cons_prefix_cons, eq_comm]
      · simp only [lineParts, hc, if_false, List.mem_append, List.mem_map, List.cons.injEq, ih,
          List.cons_prefix_cons, List.mem_cons, List.not_mem_nil, reduceCtorEq, or_false, not_or]
        constructor
        · rintro ⟨_, ⟨hfront, hs⟩, rfl, rfl⟩
          exact ⟨⟨rfl, hfront⟩, Ne.symm hc, hs⟩
        · rintro ⟨⟨rfl, hfront⟩, _, hs⟩
          exact ⟨s, ⟨hfront, hs⟩, rfl, rfl⟩

theorem pairwise_lineParts (t : Str) :
    (lineParts t).Pairwise fun s s' => s'.length < s.length := by
  induction t with
  | nil => exact List.pairwise_singleton ..
  | cons c t ih =>
    rw [lineParts, List.pairwise_append]
    refine ⟨?_, List.pairwise_singleton .., ?_⟩
    · split
      · exact .nil
      · exact List.pairwise_map.mpr (ih.imp fun h => by simpa using h)
    · intro s hs s' hs'
      obtain rfl := List.mem_singleton.mp hs'
      split at hs
      · cases hs
      · obtain ⟨_, _, rfl⟩ := List.mem_map.mp hs
        simp

theorem greedily_any (n : Nat) {fuel : Nat} {t : Str} (h : t.length ≤ fuel) :
    greedily (fun t => (Re.any.paths n t).map Path.rest) fuel t =
      (lineParts t).map fun s => t.drop s.length := by
  induction t generalizing fuel with
  | nil => cases fuel <;> rfl
  | cons c t ih =>
    obtain _ | fuel := fuel
    · simp at h
    have hrest := ih (Nat.le_of_succ_le_succ h)
    have hstep : (Re.any.paths n (c :: t)).map Path.rest = if c = '\n' then [] else [t] := by
      by_cases hc : c = '\n' <;> simp [Re.paths, hc]
    rw [greedily, hstep]
    by_cases hc : c = '\n'
    · simp [lineParts, hc]
    · simp [lineParts, hc, hrest, Function.comp_def]

/-- A group `(.*)` takes a part of the line, the longest first. -/
theorem paths_group_line (n : Nat) (t : Str) :
    (Re.group (.seq .empty (.star .any))).paths n t =
      (lineParts t).map fun s => ⟨t.drop s.length, [some s]⟩ := by
  have hstar : (Re.star .any).paths n t = (lineParts t).map fun s => ⟨t.drop s.length, []⟩ := by
    change (greedily (fun t => (Re.any.paths n t).map Path.rest) t.length t).map _ = _
    rw [greedily_any n (Nat.le_refl t.length), List.map_map]
    rfl
  have hseq : (Re.seq .empty (.star .any)).paths n t =
      (lineParts t).map fun s => ⟨t.drop s.length, []⟩ := by
    change ((Re.star .any).paths n t).map _ ++ [] = _
    rw [hstar, List.append_nil, List.map_map]
    rfl
  change ((Re.seq .empty (.star .any)).paths n t).map _ = _
  rw [hseq, List.map_map]
  refine List.map_congr_left fun s hs => ?_
  obtain ⟨rest, rfl⟩ := (mem_lineParts.mp hs).1
  simp [taken]

theorem paths_push (n : Nat) (f : Frame) (r : Re) (t : Str) :
    (f.push r).seq.paths n t =
      (f.seq.paths n t).flatMap fun x => (r.paths n x.rest).map (·.after x.groups) :=
  rfl

/-- A row of characters takes exactly its text. -/
theorem paths_chars (n : Nat) (s : Str) (f : Frame) (t : Str) :
    (s.foldl (fun g c => g.push (.char c)) f).seq.paths n t =
      (f.seq.paths n t).flatMap fun x =>
        if s <+: x.rest then [⟨x.rest.drop s.length, x.groups⟩] else [] := by
  induction s generalizing f with
  | nil => simp
  | cons c s ih =>
    rw [List.foldl_cons, ih, paths_push, List.flatMap_assoc]
    refine List.flatMap_congr fun x _ => ?_
    obtain ⟨rest, groups⟩ := x
    cases rest with
    | nil => simp [Re.paths]
    | cons d rest =>
      by_cases hd : d = c
      · simp [Re.paths, hd, Path.after]
      · simp [Re.paths, hd, Ne.symm hd]

/-- The expression of a text without special characters. -/
def Re.text (s : Str) : Re := (s.foldl (fun g c => g.push (.char c)) Frame.new).seq

theorem paths_text (n : Nat) (s t : Str) :
    (Re.text s).paths n t = if s <+: t then [⟨t.drop s.length, []⟩] else [] := by
  rw [Re.text, paths_chars]
  exact List.flatMap_singleton ..

end go.regexp
