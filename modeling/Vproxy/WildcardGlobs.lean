-- Wildcard patterns are globs (rewrite.go, wildcardToRegex). The regexp of a pattern matches
-- exactly the URLs that fill its stars, with the scheme left open where the pattern names none,
-- and its groups are the texts of the stars in the greedy way to fill them.
import Vproxy.GreedyRows
import Vproxy.RewriteIndex
import Vproxy.Templates

open go go.regexp rows

namespace vproxy

/-! ## Ways to fill a pattern -/

/-- The pattern with its stars replaced by these texts, in turn. -/
def fillStars : Str → List Str → Str
  | [], _ => []
  | c :: p, stars =>
    if c = '*' then stars.headD [] ++ fillStars p stars.tail else c :: fillStars p stars

/-- The pattern starts with no scheme and no slashes. -/
def LeavesScheme (p : Str) : Prop :=
  ¬ hasPrefix p "http://" ∧ ¬ hasPrefix p "https://" ∧ ¬ hasPrefix p "//"

instance (p : Str) : Decidable (LeavesScheme p) :=
  inferInstanceAs (Decidable (¬ hasPrefix p "http://" ∧ ¬ hasPrefix p "https://" ∧
    ¬ hasPrefix p "//"))

structure Decomposition where
  scheme : Str
  slashes : Str
  stars : List Str

def Decomposition.pieces (d : Decomposition) : List Str := d.scheme :: d.slashes :: d.stars

/-- What may stand in front of the pattern. -/
def schemesOf (p : Str) : List Str := if LeavesScheme p then ["https:", "http:", ""] else [""]

def slashesOf (p : Str) : List Str := if LeavesScheme p then ["//", ""] else [""]

/-- The URL is the pattern with its stars filled, maybe with something in front. -/
structure Decomposes (p u : Str) (d : Decomposition) : Prop where
  text : u = d.scheme ++ (d.slashes ++ fillStars p d.stars)
  count : d.stars.length = p.count '*'
  scheme : d.scheme ∈ schemesOf p
  slashes : d.slashes ∈ slashesOf p

/-- Each piece in turn, from the left, is as long as it can be. -/
def GreedyDecomposition (p u : Str) (d : Decomposition) : Prop :=
  Decomposes p u d ∧ ∀ d', Decomposes p u d' → ∀ k, d'.pieces.take k = d.pieces.take k →
    (d'.pieces.getD k []).length ≤ (d.pieces.getD k []).length

/-! ## The rows of pieces, in order -/

/-- Those of the texts that `t` starts with. -/
def fronts (texts : List Str) (t : Str) : List Str := texts.filter (· <+: t)

/-- The ways to fill the stars of a pattern, the longest texts first. -/
def starRows : Str → Str → List (List Str)
  | [], t => if t = [] then [[]] else []
  | c :: p, t =>
    if c = '*' then choose (lineParts t) fun s => starRows p (t.drop s.length)
    else
      match t with
      | [] => []
      | x :: t => if x = c then starRows p t else []

def pieceRows (p u : Str) : List (List Str) :=
  choose (fronts (schemesOf p) u) fun s =>
    choose (fronts (slashesOf p) (u.drop s.length)) fun s' =>
      starRows p ((u.drop s.length).drop s'.length)

theorem mem_starRows {p t : Str} {stars : List Str} :
    stars ∈ starRows p t ↔
      t = fillStars p stars ∧ stars.length = p.count '*' ∧ ∀ s ∈ stars, '\n' ∉ s := by
  induction p generalizing t stars with
  | nil =>
    simp only [starRows, fillStars, List.count_nil, List.length_eq_zero_iff]
    split
    · simp +contextual [*]
    · simp [*]
  | cons c p ih =>
    by_cases hc : c = '*'
    · subst hc
      simp only [starRows, if_true, mem_choose, mem_lineParts, ih, fillStars, List.count_cons_self]
      constructor
      · rintro ⟨s, ⟨⟨rest, rfl⟩, hs⟩, more, ⟨htext, hcount, hmore⟩, rfl⟩
        rw [List.drop_left] at htext
        refine ⟨by rw [htext]; rfl, by rw [List.length_cons, hcount], ?_⟩
        rintro s' (_ | ⟨_, hs'⟩)
        · exact hs
        · exact hmore s' hs'
      · rintro ⟨htext, hcount, hlines⟩
        cases stars with
        | nil => cases hcount
        | cons s more =>
          refine ⟨s, ⟨⟨_, htext.symm⟩, hlines s (List.mem_cons_self ..)⟩, more, ?_, rfl⟩
          refine ⟨?_, Nat.succ.inj hcount, fun s' hs' => hlines s' (List.mem_cons_of_mem _ hs')⟩
          rw [htext]
          exact List.drop_left
    · rw [fillStars, if_neg hc, List.count_cons_of_ne (by simpa using hc), starRows.eq_def]
      simp only [hc, if_false]
      cases t with
      | nil => simp
      | cons x t =>
        by_cases hx : x = c
        · simp [hx, ih]
        · simp [hx]

theorem pairwise_starRows (p t : Str) : (starRows p t).Pairwise Before := by
  induction p generalizing t with
  | nil =>
    rw [starRows]
    split
    · exact List.pairwise_singleton ..
    · exact .nil
  | cons c p ih =>
    rw [starRows.eq_def]
    dsimp only
    split
    · exact pairwise_choose (pairwise_lineParts t) fun s _ => ih _
    · split
      · exact .nil
      · split
        · exact ih _
        · exact .nil

theorem pairwise_fronts {texts : List Str} (h : texts.Pairwise fun s s' => s'.length < s.length)
    (t : Str) : (fronts texts t).Pairwise fun s s' => s'.length < s.length :=
  h.filter _

theorem pairwise_pieceRows (p u : Str) : (pieceRows p u).Pairwise Before := by
  have hschemes : (schemesOf p).Pairwise fun s s' => s'.length < s.length := by
    unfold schemesOf
    split <;> decide
  have hslashes : (slashesOf p).Pairwise fun s s' => s'.length < s.length := by
    unfold slashesOf
    split <;> decide
  refine pairwise_choose (pairwise_fronts hschemes u) fun s _ => ?_
  exact pairwise_choose (pairwise_fronts hslashes _) fun s' _ => pairwise_starRows p _

theorem fronts_cons (s : Str) (texts : List Str) (t : Str) :
    fronts (s :: texts) t = if s <+: t then s :: fronts texts t else fronts texts t := by
  simp [fronts, List.filter_cons]

theorem mem_fronts {texts : List Str} {s t : Str} :
    s ∈ fronts texts t ↔ s ∈ texts ∧ ∃ rest, t = s ++ rest := by
  simp only [fronts, List.mem_filter, decide_eq_true_eq]
  refine and_congr Iff.rfl (exists_congr fun rest => eq_comm)

theorem not_mem_fillStars {p : Str} {stars : List Str} {c : Char}
    (hcount : stars.length = p.count '*') (h : c ∉ fillStars p stars) : ∀ s ∈ stars, c ∉ s := by
  induction p generalizing stars with
  | nil =>
    obtain rfl := List.length_eq_zero_iff.mp hcount
    simp
  | cons d p ih =>
    by_cases hd : d = '*'
    · subst hd
      rw [List.count_cons_self] at hcount
      cases stars with
      | nil => cases hcount
      | cons s stars =>
        rw [fillStars, if_pos rfl, List.headD_cons, List.tail_cons, List.mem_append, not_or] at h
        rintro s' (_ | ⟨_, hs'⟩)
        · exact h.1
        · exact ih (Nat.succ.inj hcount) h.2 s' hs'
    · rw [List.count_cons_of_ne (by simpa using hd)] at hcount
      rw [fillStars, if_neg hd, List.mem_cons, not_or] at h
      exact ih hcount h.2

/-- The rows of a URL are its decompositions. -/
theorem mem_pieceRows {p u : Str} (hu : '\n' ∉ u) {d : Decomposition} :
    d.pieces ∈ pieceRows p u ↔ Decomposes p u d := by
  obtain ⟨scheme, slashes, stars⟩ := d
  simp only [pieceRows, mem_choose, Decomposition.pieces, List.cons.injEq, mem_starRows, mem_fronts]
  constructor
  · rintro ⟨_, ⟨hscheme, rest, rfl⟩, _, ⟨_, ⟨hslashes, rest', hrest'⟩, _, ⟨htext, hcount, _⟩, rfl⟩,
      rfl, hrow⟩
    obtain ⟨rfl, rfl⟩ := List.cons.inj hrow
    rw [List.drop_left] at hrest' htext
    subst hrest'
    rw [List.drop_left] at htext
    subst htext
    exact ⟨rfl, hcount, hscheme, hslashes⟩
  · rintro ⟨rfl, hcount, hscheme, hslashes⟩
    refine ⟨scheme, ⟨hscheme, _, rfl⟩, _, ⟨slashes, ⟨hslashes, _, List.drop_left⟩, stars, ?_, rfl⟩,
      rfl, rfl⟩
    refine ⟨by simp, hcount, not_mem_fillStars hcount fun h => hu ?_⟩
    simp [h]

theorem exists_pieces {p u : Str} {row : List Str} (h : row ∈ pieceRows p u) :
    ∃ d : Decomposition, row = d.pieces := by
  obtain ⟨s, _, _, hmore, rfl⟩ := mem_choose.mp h
  obtain ⟨s', _, stars, _, rfl⟩ := mem_choose.mp hmore
  exact ⟨⟨s, s', stars⟩, rfl⟩

/-- The greedy decomposition is the first row. -/
theorem greedyDecomposition_iff {p u : Str} (hu : '\n' ∉ u) {d : Decomposition} :
    GreedyDecomposition p u d ↔ (pieceRows p u).head? = some d.pieces := by
  rw [← greedy_iff_head (pairwise_pieceRows p u), GreedyDecomposition, Greedy, mem_pieceRows hu]
  refine and_congr Iff.rfl ⟨fun h row hrow => ?_, fun h d' hd' => ?_⟩
  · obtain ⟨d', rfl⟩ := exists_pieces hrow
    exact h d' ((mem_pieceRows hu).mp hrow)
  · exact h d'.pieces ((mem_pieceRows hu).mpr hd')

/-! ## The matches of the regexp -/

/-- The frame that reads these items after `f`, and then the end of the text. -/
theorem paths_wild (n : Nat) (p : Str) (f : Frame) (t : Str) :
    ((p.foldl (fun g c => g.push (wildItem c)) f).push .eol).seq.paths n t =
      (f.seq.paths n t).flatMap fun x =>
        (starRows p x.rest).map fun stars => ⟨[], x.groups ++ stars.map some⟩ := by
  induction p generalizing f with
  | nil =>
    rw [List.foldl_nil, paths_push]
    refine List.flatMap_congr fun x _ => ?_
    by_cases h : x.rest = [] <;> simp [Re.paths, starRows, h, Path.after]
  | cons c p ih =>
    rw [List.foldl_cons, ih, paths_push, List.flatMap_assoc]
    refine List.flatMap_congr fun x _ => ?_
    obtain ⟨rest, groups⟩ := x
    by_cases hc : c = '*'
    · subst hc
      have hitem : wildItem '*' = .group (.seq .empty (.star .any)) := rfl
      simp only [hitem, paths_group_line, starRows, if_true, choose]
      simp [List.flatMap_map, List.map_flatMap, Path.after, Function.comp_def]
    · have hitem : wildItem c = .char c := if_neg hc
      rw [hitem, starRows.eq_def]
      cases rest with
      | nil => simp [Re.paths, hc]
      | cons d rest =>
        by_cases hd : d = c
        · simp [Re.paths, hc, hd, Path.after]
        · simp [Re.paths, hc, hd]

/-- `(?:https?:)?`. -/
def schemeItem : Re := .opt (.seq (.seq (.text "http") (.opt (.char 's'))) (.char ':'))

/-- `(?://)?`. -/
def slashesItem : Re := .opt (.text "//")

theorem paths_schemeItem (n : Nat) (t : Str) :
    schemeItem.paths n t =
      (fronts ["https:", "http:", ""] t).map fun s => ⟨t.drop s.length, []⟩ := by
  have hitem : schemeItem.paths n t = ((((Re.text "http").paths n t).flatMap fun x =>
      ((Re.opt (.char 's')).paths n x.rest).map (·.after x.groups)).flatMap fun x =>
        ((Re.char ':').paths n x.rest).map (·.after x.groups)) ++ [⟨t, []⟩] := rfl
  rw [hitem, paths_text]
  by_cases hhttp : ("http" : Str) <+: t
  · obtain ⟨rest, rfl⟩ := hhttp
    rw [if_pos (List.prefix_append ..), List.drop_left]
    cases rest with
    | nil => rfl
    | cons x rest =>
      by_cases hs : x = 's'
      · subst hs
        cases rest with
        | nil => rfl
        | cons y rest =>
          by_cases hcolon : y = ':'
          · subst hcolon
            simp [Re.paths, fronts, Path.after]
          · simp [Re.paths, fronts, Path.after, hcolon, Ne.symm hcolon]
      · by_cases hcolon : x = ':'
        · subst hcolon
          simp [Re.paths, Re.groups, fronts, Path.after]
        · simp [Re.paths, fronts, Path.after, hs, Ne.symm hs, hcolon, Ne.symm hcolon]
  · have hshort : ¬ ("http:" : Str) <+: t := fun h => hhttp (.trans (by decide) h)
    have hlong : ¬ ("https:" : Str) <+: t := fun h => hhttp (.trans (by decide) h)
    rw [if_neg hhttp, fronts_cons, if_neg hlong, fronts_cons, if_neg hshort]
    rfl

theorem paths_slashesItem (n : Nat) (t : Str) :
    slashesItem.paths n t = (fronts ["//", ""] t).map fun s => ⟨t.drop s.length, []⟩ := by
  have hitem : slashesItem.paths n t = (Re.text "//").paths n t ++ [⟨t, []⟩] := rfl
  rw [hitem, paths_text]
  rw [fronts_cons]
  split <;> rfl

theorem paths_anchored (n : Nat) (t : Str) :
    anchored.seq.paths n t = if t.length = n then [⟨t, []⟩] else [] := by
  change (if t.length = n then [⟨t, []⟩] else [] : List Path).map (·.after []) ++ [] = _
  split <;> rfl

/-- What the front of the regexp of a pattern takes. -/
theorem paths_wildFront (n : Nat) (p t : Str) :
    (wildFront p).seq.paths n t =
      if t.length = n then
        (fronts (schemesOf p) t).flatMap fun s =>
          (fronts (slashesOf p) (t.drop s.length)).map fun s' =>
            ⟨(t.drop s.length).drop s'.length, []⟩
      else [] := by
  by_cases hp : LeavesScheme p
  · have hfront : wildFront p = schemeOpen := if_pos hp
    have hitem : schemeOpen.seq.paths n t = ((anchored.seq.paths n t).flatMap fun x =>
        (schemeItem.paths n x.rest).map (·.after x.groups)).flatMap fun x =>
          (slashesItem.paths n x.rest).map (·.after x.groups) := rfl
    rw [hfront, hitem, paths_anchored, schemesOf, if_pos hp, slashesOf, if_pos hp]
    split
    · simp [paths_schemeItem, paths_slashesItem, List.flatMap_map, Path.after, Function.comp_def]
    · rfl
  · have hfront : wildFront p = anchored := if_neg hp
    rw [hfront, paths_anchored, schemesOf, if_neg hp, slashesOf, if_neg hp]
    split
    · simp [fronts]
    · rfl

/-- The regexp of a pattern. -/
def wildRegexp (p : Str) : Re :=
  ((p.foldl (fun g c => g.push (wildItem c)) (wildFront p)).push .eol).seq

theorem paths_wildRegexp (p u : Str) :
    (wildRegexp p).paths u.length u =
      (pieceRows p u).map fun row => ⟨[], (row.drop 2).map some⟩ := by
  rw [wildRegexp, paths_wild, paths_wildFront, if_pos rfl]
  simp [pieceRows, choose, List.flatMap_assoc, List.flatMap_map, List.map_flatMap,
    Function.comp_def]

/-- The match that is reported is the first row. -/
theorem firstMatch_wildRegexp (p u : Str) :
    (wildRegexp p).firstMatch u =
      (pieceRows p u).head?.map fun row => some u :: (row.drop 2).map some := by
  rw [firstMatch_anchored, paths_wildRegexp, List.head?_map, Option.map_map]
  · simp [Function.comp_def, taken]
  · intro t ht
    rw [wildRegexp, paths_wild, paths_wildFront, if_neg ht]
    rfl

theorem repeatsCharacters_foldl (p : Str) (f : Frame) :
    (p.foldl (fun g c => g.push (wildItem c)) f).seq.repeatsCharacters =
      f.seq.repeatsCharacters := by
  induction p generalizing f with
  | nil => rfl
  | cons c p ih =>
    have hitem : (wildItem c).repeatsCharacters = true := by
      unfold wildItem
      split <;> rfl
    rw [List.foldl_cons, ih, seq_push, Re.repeatsCharacters, hitem, Bool.and_true]

theorem repeatsCharacters_wildRegexp (p : Str) : (wildRegexp p).repeatsCharacters = true := by
  rw [wildRegexp, seq_push, Re.repeatsCharacters, repeatsCharacters_foldl, wildFront]
  split <;> rfl

section engine

variable [Words] [Submatches]

/-- The regexp of a wildcard pattern matches the URLs that the pattern decomposes, and its groups
are the texts of the stars in the greedy decomposition. -/
theorem wildcard_matches_as_a_glob {p u : Str} (hu : '\n' ∉ u) {prog : Regexp.Prog}
    (hprog : Regexp.compile (wildcardToRegex p) = some prog) :
    (Regexp.matchString prog u = true ↔ ∃ d, Decomposes p u d) ∧
    (Regexp.matchString prog u = true → ∃ d, GreedyDecomposition p u d) ∧
    ∀ d, GreedyDecomposition p u d →
      Submatches.findStringSubmatch prog u = some (some u :: d.stars.map some) := by
  have hfind : Submatches.findStringSubmatch prog u =
      (pieceRows p u).head?.map fun row => some u :: (row.drop 2).map some := by
    rw [Submatches.findStringSubmatch_fragment _ _ _ hprog (parse_wildcard p)
      (repeatsCharacters_wildRegexp p)]
    exact firstMatch_wildRegexp p u
  have hgreedy : Regexp.matchString prog u = true → ∃ d, GreedyDecomposition p u d := by
    intro hmatch
    rw [Submatches.matchString_eq, hfind, Option.isSome_map, Option.isSome_iff_exists] at hmatch
    obtain ⟨row, hrow⟩ := hmatch
    obtain ⟨d, rfl⟩ := exists_pieces (List.mem_of_mem_head? hrow)
    exact ⟨d, (greedyDecomposition_iff hu).mpr hrow⟩
  refine ⟨⟨fun hmatch => ?_, fun ⟨d, hd⟩ => ?_⟩, hgreedy, fun d hd => ?_⟩
  · obtain ⟨d, hd, _⟩ := hgreedy hmatch
    exact ⟨d, hd⟩
  · rw [Submatches.matchString_eq, hfind, Option.isSome_map, List.isSome_head?]
    exact List.ne_nil_of_mem ((mem_pieceRows hu).mpr hd)
  · rw [hfind, (greedyDecomposition_iff hu).mp hd]
    rfl

end engine

/-- The first star takes as much as it can, and the scheme is not part of it. -/
theorem first_star_is_the_longest :
    withGroups.matchString (wildRegexp "a.cn/*b*") "http://a.cn/xbyb" = true ∧
    withGroups.findStringSubmatch (wildRegexp "a.cn/*b*") "http://a.cn/xbyb" =
      some [some ("http://a.cn/xbyb" : Str), some ("xby" : Str), some []] := by
  have hglob := @wildcard_matches_as_a_glob _ withGroups "a.cn/*b*" "http://a.cn/xbyb" (by decide)
    (wildRegexp "a.cn/*b*") (parse_wildcard _)
  refine ⟨hglob.1.mpr ⟨⟨"http:", "//", ["xby", ""]⟩, by decide, by decide, by decide, by decide⟩, ?_⟩
  decide

end vproxy
