-- Templates of package regexp. A `$` stands for a group of a match, whose name goes on as long as
-- there are letters, digits and underscores. So a number is read right only where none of these
-- follows it. An engine with groups fills a template from the match that it reports.
import Vproxy.Captures

namespace go.regexp

/-! ## Names in a template -/

/-- The characters of a name in a template: the letters and digits of package unicode and the
underscore. They are fixed on ASCII and open beyond it. -/
class Words where
  isWord : Char → Bool
  isWord_ascii : ∀ c, c.toNat < 128 → isWord c = (c.isAlphanum || c == '_')

instance asciiWords : Words where
  isWord c := c.isAlphanum || c == '_'
  isWord_ascii _ _ := rfl

/-- The number that a name is. A number has no zero in front, and not too many digits. -/
def number (name : Str) : Option Nat :=
  if name.head? = some '0' ∧ 1 < name.length then none
  else name.foldlM (fun num c =>
    if isDigit c ∧ num < 100000000 then some (num * 10 + digitVal c) else none) 0

/-- Whether a text starts with a brace, and what is behind it. -/
def openBrace (str : Str) : Bool × Str :=
  match str with
  | '{' :: str => (true, str)
  | str => (false, str)

section

variable [Words]

/-- The name that a text behind a `$` starts with, and what is left. -/
def extract (str : Str) : Option (Str × Str) :=
  let (brace, str) := openBrace str
  let name := str.takeWhile Words.isWord
  let rest := str.dropWhile Words.isWord
  if name = [] then none
  else if brace then
    match rest with
    | '}' :: rest => some (name, rest)
    | _ => none
  else some (name, rest)

/-- What a name stands for. The whole match has number 0. -/
def groupText (names : List Str) (groups : List (Option Str)) (name : Str) : Str :=
  match number name with
  | some i => (groups[i]?.join).getD []
  | none =>
    (((names.zip groups).find? fun group => group.1 = name ∧ group.2.isSome).bind (·.2)).getD []

/-- The loop of `expand`. Each turn takes at least one character. -/
def expandLoop (names : List Str) (groups : List (Option Str)) : Nat → Str → Str
  | 0, template => template
  | fuel + 1, template =>
    match cut template '$' with
    | none => template
    | some (front, after) =>
      match after with
      | '$' :: after => front ++ '$' :: expandLoop names groups fuel after
      | after =>
        match extract after with
        | none => front ++ '$' :: expandLoop names groups fuel after
        | some (name, rest) =>
          front ++ groupText names groups name ++ expandLoop names groups fuel rest

def expand (names : List Str) (groups : List (Option Str)) (template : Str) : Str :=
  expandLoop names groups template.length template

/-! ## References by number -/

/-- Literal texts with references `$1` to `$m` between them. A reference stands with the text that
follows it. The first group has number 0 here. -/
structure Template (m : Nat) where
  front : Str
  refs : List (Fin m × Str)
  front_plain : '$' ∉ front
  refs_plain : ∀ r ∈ refs, '$' ∉ r.2

variable {m : Nat}

def refsText (refs : List (Fin m × Str)) : Str :=
  refs.flatMap fun r => '$' :: (itoa (r.1 + 1) ++ r.2)

def Template.text (t : Template m) : Str := t.front ++ refsText t.refs

/-- The template with the texts of these groups in place of the references. -/
def Template.fill (t : Template m) (groups : List (Option Str)) : Str :=
  t.front ++ t.refs.flatMap fun r => (groups[(r.1 : Nat)]?.join).getD [] ++ r.2

/-- No name goes on behind the number of a reference, which has at most nine digits. -/
def Template.Readable (t : Template m) : Prop :=
  ∀ r ∈ t.refs, (r.1 : Nat) + 1 < 1000000000 ∧ ∀ c ∈ r.2.head?, Words.isWord c = false

/-- The references as they are read: each name takes all that it can of the text behind it. -/
def readRefs (names : List Str) (groups : List (Option Str)) (refs : List (Fin m × Str)) : Str :=
  refs.flatMap fun r =>
    groupText names groups (itoa (r.1 + 1) ++ r.2.takeWhile Words.isWord) ++
      r.2.dropWhile Words.isWord

omit [Words] in
theorem number_itoa {n : Nat} (hn : 0 < n) :
    number (itoa n) = if n < 1000000000 then some n else none := by
  have hloop : ∀ n, (itoa n).foldlM (fun num c =>
      if isDigit c ∧ num < 100000000 then some (num * 10 + digitVal c) else none) 0 =
        if n < 1000000000 then some n else none := by
    intro n
    induction n using Nat.strongRecOn with
    | ind n ih =>
      unfold itoa at ih ⊢
      have hdigit : ∀ d : Nat, d < 10 → isDigit d.digitChar = true ∧ digitVal d.digitChar = d := by
        decide
      by_cases hlt : n < 10
      · obtain ⟨hd, hv⟩ := hdigit n hlt
        rw [Nat.toDigits_of_lt_base hlt, if_pos (by omega)]
        simp [hd, hv]
      · obtain ⟨hd, hv⟩ := hdigit (n % 10) (Nat.mod_lt _ (by decide))
        rw [Nat.toDigits_of_base_le (by decide) (by omega), List.foldlM_append,
          ih (n / 10) (by omega)]
        by_cases hsmall : n < 1000000000
        · have hten : n / 10 < 100000000 := by omega
          rw [if_pos hsmall, if_pos (by omega)]
          simp [hd, hv, hten]
          omega
        · rw [if_neg hsmall]
          split
          · have hten : ¬ n / 10 < 100000000 := by omega
            simp [hten]
          · rfl
  obtain ⟨d, ds, hds, hd⟩ := itoa_head hn
  rw [number, if_neg, hloop]
  rw [hds]
  simp [hd]

theorem isWord_of_isDigit {c : Char} (h : isDigit c = true) : Words.isWord c = true := by
  have hdigit : c.isDigit = true := by
    simp only [isDigit, Bool.and_eq_true, decide_eq_true_eq] at h
    simp only [Char.isDigit, Bool.and_eq_true, decide_eq_true_eq]
    exact h
  have hascii : c.toNat < 128 := by
    simp only [isDigit, Bool.and_eq_true, decide_eq_true_eq] at h
    exact Nat.lt_of_le_of_lt h.2 (by decide)
  rw [Words.isWord_ascii c hascii]
  simp [Char.isAlphanum, hdigit]

theorem takeWhile_word (lit : Str) {more : Str}
    (hmore : ∀ c ∈ more.head?, Words.isWord c = false) :
    (lit ++ more).takeWhile Words.isWord = lit.takeWhile Words.isWord ∧
      (lit ++ more).dropWhile Words.isWord = lit.dropWhile Words.isWord ++ more := by
  induction lit with
  | nil =>
    cases more with
    | nil => exact ⟨rfl, rfl⟩
    | cons c more => simp [hmore c rfl]
  | cons c lit ih =>
    by_cases hc : Words.isWord c = true
    · simp [hc, ih]
    · simp [hc]

/-- The name of a reference goes on into the text behind it, but not into the next reference. -/
theorem extract_reference {n : Nat} (hn : 0 < n) (lit : Str) {more : Str}
    (hmore : ∀ c ∈ more.head?, Words.isWord c = false) :
    extract (itoa n ++ (lit ++ more)) =
      some (itoa n ++ lit.takeWhile Words.isWord, lit.dropWhile Words.isWord ++ more) := by
  obtain ⟨htake, hdrop⟩ := takeWhile_word lit hmore
  have hwords : ∀ c ∈ itoa n, Words.isWord c = true := fun c hc =>
    isWord_of_isDigit (List.all_eq_true.mp (all_isDigit_itoa n) c hc)
  obtain ⟨d, ds, hds, -⟩ := itoa_head hn
  have hopen : openBrace (itoa n ++ (lit ++ more)) = (false, itoa n ++ (lit ++ more)) := by
    unfold openBrace
    split
    · rename_i rest heq
      have hdigit := List.all_eq_true.mp (all_isDigit_itoa n) '{' (by
        rw [hds] at heq ⊢
        simp [(List.cons.inj heq).1])
      exact absurd hdigit (by decide)
    · rfl
  have hplain : extract (itoa n ++ (lit ++ more)) =
      if (itoa n ++ (lit ++ more)).takeWhile Words.isWord = [] then none
      else some ((itoa n ++ (lit ++ more)).takeWhile Words.isWord,
        (itoa n ++ (lit ++ more)).dropWhile Words.isWord) := by
    rw [extract, hopen]
    rfl
  rw [hplain, List.takeWhile_append_of_pos hwords, List.dropWhile_append_of_pos hwords, htake,
    hdrop, if_neg (by simp [hds])]

/-- A turn of the loop at a name. -/
theorem expandLoop_name {names : List Str} {groups : List (Option Str)} {fuel : Nat}
    {front after name rest : Str} (hfront : '$' ∉ front) (hafter : after.head? ≠ some '$')
    (hname : extract after = some (name, rest)) :
    expandLoop names groups (fuel + 1) (front ++ '$' :: after) =
      front ++ groupText names groups name ++ expandLoop names groups fuel rest := by
  rw [expandLoop, cut_append hfront]
  dsimp only
  split
  · exact absurd rfl hafter
  · rw [hname]

theorem head?_refsText (refs : List (Fin m × Str)) :
    ∀ c ∈ (refsText refs).head?, Words.isWord c = false := by
  cases refs with
  | nil => simp [refsText]
  | cons r refs =>
    rintro c ⟨⟩
    rw [Words.isWord_ascii '$' (by decide)]
    decide

theorem expandLoop_refs {names : List Str} {groups : List (Option Str)}
    {refs : List (Fin m × Str)} (hrefs : ∀ r ∈ refs, '$' ∉ r.2) {front : Str}
    (hfront : '$' ∉ front) {fuel : Nat} (hfuel : (front ++ refsText refs).length ≤ fuel) :
    expandLoop names groups fuel (front ++ refsText refs) = front ++ readRefs names groups refs := by
  induction refs generalizing front fuel with
  | nil =>
    have hcut : cut front '$' = none := if_neg hfront
    cases fuel <;> simp [refsText, readRefs, expandLoop, hcut]
  | cons r refs ih =>
    obtain ⟨i, lit⟩ := r
    obtain _ | fuel := fuel
    · simp [refsText] at hfuel
    have htext : refsText ((i, lit) :: refs) =
        '$' :: (itoa (i + 1) ++ (lit ++ refsText refs)) := by
      simp [refsText]
    have hdollar : (itoa (i + 1) ++ (lit ++ refsText refs)).head? ≠ some '$' := by
      obtain ⟨d, ds, hds, -⟩ := itoa_head (Nat.succ_pos i)
      intro h
      have hd : d = '$' := by simpa [hds] using h
      have hdigit := List.all_eq_true.mp (all_isDigit_itoa (i + 1)) d (by simp [hds])
      rw [hd] at hdigit
      exact absurd hdigit (by decide)
    have hrest : '$' ∉ lit.dropWhile Words.isWord := fun h =>
      hrefs (i, lit) (List.mem_cons_self ..) ((List.dropWhile_sublist _).mem h)
    rw [htext] at hfuel ⊢
    rw [expandLoop_name hfront hdollar (extract_reference (Nat.succ_pos i) lit (head?_refsText refs)),
      ih (fun r hr => hrefs r (List.mem_cons_of_mem _ hr)) hrest]
    · simp [readRefs]
    · have hshort := (List.dropWhile_sublist (l := lit) Words.isWord).length_le
      simp only [List.length_append, List.length_cons] at hfuel ⊢
      omega

/-- What a template with references by number becomes. -/
theorem expand_text (t : Template m) (names : List Str) (groups : List (Option Str)) :
    expand names groups t.text = t.front ++ readRefs names groups t.refs :=
  expandLoop_refs t.refs_plain t.front_plain (Nat.le_refl _)

/-- A readable template is filled as it is meant, whatever the groups are called. -/
theorem Template.Readable.expand_text {t : Template m} (h : t.Readable) (names : List Str)
    (whole : Option Str) (groups : List (Option Str)) :
    expand names (whole :: groups) t.text = t.fill groups := by
  rw [regexp.expand_text, fill, readRefs]
  congr 1
  refine List.flatMap_congr fun r hr => ?_
  obtain ⟨hdigits, hword⟩ := h r hr
  have htake : r.2.takeWhile Words.isWord = [] ∧ r.2.dropWhile Words.isWord = r.2 := by
    cases hlit : r.2 with
    | nil => exact ⟨rfl, rfl⟩
    | cons c lit =>
      have hc := hword c (by rw [hlit]; rfl)
      simp [hc]
  rw [htake.1, htake.2, List.append_nil, groupText, number_itoa (Nat.succ_pos _), if_pos hdigits]
  rfl

omit [Words] in
theorem groupText_empty {groups : List (Option Str)} (h : ∀ g ∈ groups, g = some [])
    (names : List Str) (name : Str) : groupText names groups name = [] := by
  unfold groupText
  split
  · rename_i i _
    cases hi : groups[i]? with
    | none => rfl
    | some g =>
      obtain rfl := h g (List.mem_of_getElem? hi)
      rfl
  · cases hfind : (names.zip groups).find? fun group => group.1 = name ∧ group.2.isSome with
    | none => rfl
    | some group =>
      have hgroup := h group.2 (List.of_mem_zip (List.mem_of_find?_eq_some hfind)).2
      rw [Option.bind_some, hgroup]
      rfl

omit [Words] in
/-- Rows of parts that are no longer than others make a shorter text, or the same lengths. -/
theorem length_eq_of_flatMap_eq {ι : Type} {l : List ι} {a b : ι → Str}
    (hle : ∀ r ∈ l, (a r).length ≤ (b r).length) (h : l.flatMap a = l.flatMap b) :
    ∀ r ∈ l, (a r).length = (b r).length := by
  have hsum : ∀ l : List ι, (∀ r ∈ l, (a r).length ≤ (b r).length) →
      (l.flatMap a).length ≤ (l.flatMap b).length ∧
      ((l.flatMap a).length = (l.flatMap b).length → ∀ r ∈ l, (a r).length = (b r).length) := by
    intro l
    induction l with
    | nil => simp
    | cons r l ih =>
      intro hle
      obtain ⟨hshort, hsame⟩ := ih fun r hr => hle r (List.mem_cons_of_mem _ hr)
      have hr := hle r (List.mem_cons_self ..)
      simp only [List.flatMap_cons, List.length_append]
      refine ⟨Nat.add_le_add hr hshort, fun heq => List.forall_mem_cons.mpr ⟨by omega, ?_⟩⟩
      exact hsame (by omega)
  exact (hsum l hle).2 (congrArg List.length h)

/-- Filled from empty groups, a literal is left whole only if no name goes on into it. -/
theorem Template.literals_of_expand {t : Template m}
    (h : expand [] (List.replicate (m + 1) (some [])) t.text = t.fill (List.replicate m (some []))) :
    ∀ r ∈ t.refs, r.2.takeWhile Words.isWord = [] := by
  have hgroup : ∀ r : Fin m × Str,
      ((List.replicate m (some ([] : Str)))[(r.1 : Nat)]?.join).getD [] = [] := by
    intro r
    simp
  have hname : ∀ name, groupText [] (List.replicate (m + 1) (some [])) name = [] :=
    groupText_empty (fun g hg => List.eq_of_mem_replicate hg) []
  rw [regexp.expand_text, fill, List.append_cancel_left_eq, readRefs] at h
  simp only [hgroup, hname, List.nil_append] at h
  intro r hr
  have hlength := length_eq_of_flatMap_eq
    (fun r _ => (List.dropWhile_sublist (l := r.2) Words.isWord).length_le) h r hr
  have hsplit := congrArg List.length (List.takeWhile_append_dropWhile (p := Words.isWord)
    (l := r.2))
  rw [List.length_append] at hsplit
  exact List.length_eq_zero_iff.mp (by omega)

/-- Filled from groups of one character, a number is found only if it has at most nine digits. -/
theorem Template.numbers_of_expand {t : Template m} {whole : Option Str} {c : Char}
    (hwhole : ∀ r ∈ t.refs, r.2.takeWhile Words.isWord = [])
    (h : expand [] (whole :: List.replicate m (some [c])) t.text =
      t.fill (List.replicate m (some [c]))) :
    ∀ r ∈ t.refs, (r.1 : Nat) + 1 < 1000000000 := by
  have hname : ∀ i : Fin m, groupText [] (whole :: List.replicate m (some [c])) (itoa (i + 1)) =
      if (i : Nat) + 1 < 1000000000 then [c] else [] := by
    intro i
    rw [groupText, number_itoa (Nat.succ_pos _)]
    by_cases hdigits : (i : Nat) + 1 < 1000000000
    · simp [hdigits]
    · simp [hdigits]
  have hparts : ∀ r ∈ t.refs,
      groupText [] (whole :: List.replicate m (some [c]))
          (itoa (r.1 + 1) ++ r.2.takeWhile Words.isWord) ++ r.2.dropWhile Words.isWord =
        (if (r.1 : Nat) + 1 < 1000000000 then [c] else []) ++ r.2 := by
    intro r hr
    have hdrop := List.takeWhile_append_dropWhile (p := Words.isWord) (l := r.2)
    rw [hwhole r hr, List.nil_append] at hdrop
    rw [hwhole r hr, List.append_nil, hname, hdrop]
  have hgroup : ∀ r : Fin m × Str,
      ((List.replicate m (some [c]))[(r.1 : Nat)]?.join).getD [] = [c] := by
    intro r
    simp
  rw [regexp.expand_text, fill, List.append_cancel_left_eq, readRefs] at h
  simp only [hgroup] at h
  rw [List.flatMap_congr hparts] at h
  intro r hr
  by_contra hlong
  have hlength := length_eq_of_flatMap_eq (fun r _ => by split <;> simp) h r hr
  rw [if_neg hlong] at hlength
  simp at hlength

/-- A template that is filled as it is meant both ways is readable. -/
theorem Template.readable_of_expand {t : Template m} {whole : Option Str} {c : Char}
    (hempty : expand [] (List.replicate (m + 1) (some [])) t.text =
      t.fill (List.replicate m (some [])))
    (hone : expand [] (whole :: List.replicate m (some [c])) t.text =
      t.fill (List.replicate m (some [c]))) : t.Readable := by
  have hwhole := literals_of_expand hempty
  refine fun r hr => ⟨numbers_of_expand hwhole hone r hr, fun d hd => ?_⟩
  have htake := hwhole r hr
  cases hrest : r.2 with
  | nil => simp [hrest] at hd
  | cons e lit =>
    rw [hrest] at hd htake
    obtain rfl : e = d := Option.some.inj hd
    simpa [List.takeWhile_cons] using htake

/-! ## Engines with groups -/

/-- An engine that reports groups. On a pattern of the fragment that repeats only characters it
reports the first match. -/
class Submatches extends Regexp where
  subexpNames : Prog → List Str
  findStringSubmatch : Prog → Str → Option (List (Option Str))
  matchString_eq : ∀ prog u, matchString prog u = (findStringSubmatch prog u).isSome
  findStringSubmatchIndex_eq_nil : ∀ prog u,
    findStringSubmatchIndex prog u = [] ↔ findStringSubmatch prog u = none
  expandString_eq : ∀ prog template u groups, findStringSubmatch prog u = some groups →
    expandString prog template u (findStringSubmatchIndex prog u) =
      expand (subexpNames prog) groups template
  findStringSubmatch_fragment : ∀ pattern prog r, compile pattern = some prog →
    Re.parse pattern = some r → r.repeatsCharacters → ∀ u,
      findStringSubmatch prog u = r.firstMatch u

/-- The engine that has the fragment. Its index pairs are those of the whole match only. -/
@[reducible] def withGroups : Submatches where
  Prog := Re
  compile := Re.parse
  matchString := Re.search
  findStringSubmatchIndex r u := if r.search u then [0, u.length] else []
  expandString r template u _ := expand [] ((r.firstMatch u).getD []) template
  replaceAllString _ _ new := new
  matchString_fragment := fragment.matchString_fragment
  subexpNames _ := []
  findStringSubmatch := Re.firstMatch
  matchString_eq r u := (isSome_firstMatch r u).symm
  findStringSubmatchIndex_eq_nil r u := by
    rw [← isSome_firstMatch]
    cases r.firstMatch u with
    | none => simp
    | some groups => simp
  expandString_eq r template u groups h := by rw [h, Option.getD_some]
  findStringSubmatch_fragment := by
    intro pattern prog r hc hp _ u
    rw [hc] at hp
    rw [Option.some.inj hp]

end

end go.regexp
