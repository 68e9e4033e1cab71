-- Go strings and the parts of the packages strings, strconv and fmt that the
-- program calls. A string is the list of its characters. Case and white space
-- beyond ASCII come from the tables of package unicode, which stay open.
import Mathlib.Algebra.Group.Nat.Defs
import Mathlib.Data.List.Basic
import Mathlib.Data.List.Infix
import Mathlib.Data.List.TakeWhile

/-- A Go string. -/
abbrev Str := List Char

instance : Coe String Str := ⟨String.toList⟩

instance : LawfulBEq Str := inferInstanceAs (LawfulBEq (List Char))

namespace go

/-! ## Package unicode -/

def asciiSpaces : List Char := ['\t', '\n', '\x0b', '\x0c', '\r', ' ']

/-- The tables of package unicode. They are fixed on ASCII and open beyond it. `sameFold`
says that two characters are equal but for case. -/
class Unicode where
  isSpace : Char → Bool
  toUpper : Char → Char
  toLower : Char → Char
  sameFold : Char → Char → Bool
  isSpace_ascii : ∀ c, c.toNat < 128 → (isSpace c = true ↔ c ∈ asciiSpaces)
  toUpper_ascii : ∀ c, c.toNat < 128 → toUpper c = c.toUpper
  toLower_ascii : ∀ c, c.toNat < 128 → toLower c = c.toLower
  sameFold_ascii : ∀ c d, c.toNat < 128 → d.toNat < 128 →
    (sameFold c d = true ↔ c.toLower = d.toLower)

/-- Tables with no space and no cased letter beyond ASCII. -/
instance asciiTables : Unicode where
  isSpace c := decide (c ∈ asciiSpaces)
  toUpper := Char.toUpper
  toLower := Char.toLower
  sameFold c d := c.toLower == d.toLower
  isSpace_ascii := by simp
  toUpper_ascii := by simp
  toLower_ascii := by simp
  sameFold_ascii := by simp

/-! ## Package strings -/

/-- `strings.HasPrefix`. -/
def hasPrefix (s p : Str) : Bool := p.isPrefixOf s

/-- `strings.HasSuffix`. -/
def hasSuffix (s p : Str) : Bool := p.isSuffixOf s

/-- `strings.Contains`. -/
def contains (s sub : Str) : Bool := s.tails.any (fun t => sub.isPrefixOf t)

theorem contains_iff (s sub : Str) : contains s sub = true ↔ sub <:+: s := by
  unfold contains
  rw [List.any_eq_true, List.infix_iff_prefix_suffix]
  constructor
  · rintro ⟨t, ht, hsub⟩
    exact ⟨t, List.isPrefixOf_iff_prefix.mp hsub, (List.mem_tails _ _).mp ht⟩
  · rintro ⟨t, hsub, ht⟩
    exact ⟨t, (List.mem_tails _ _).mpr ht, List.isPrefixOf_iff_prefix.mpr hsub⟩

/-- `strings.TrimPrefix`. -/
def trimPrefix (s p : Str) : Str := if hasPrefix s p then s.drop p.length else s

/-- `strings.TrimSuffix`. -/
def trimSuffix (s p : Str) : Str :=
  if hasSuffix s p then s.take (s.length - p.length) else s

/-- `strings.Cut` at a character: the text before it and after it, when it is there. -/
def cut (s : Str) (sep : Char) : Option (Str × Str) :=
  if sep ∈ s then some (s.takeWhile (· ≠ sep), (s.dropWhile (· ≠ sep)).tail) else none

theorem cut_append {front rest : Str} {sep : Char} (h : sep ∉ front) :
    cut (front ++ sep :: rest) sep = some (front, rest) := by
  have hfront : ∀ c ∈ front, decide (c ≠ sep) = true := by
    intro c hc
    exact decide_eq_true (ne_of_mem_of_not_mem hc h)
  unfold cut
  rw [if_pos (by simp), List.takeWhile_append_of_pos hfront, List.dropWhile_append_of_pos hfront]
  simp

theorem cut_front {s front rest : Str} {sep : Char} (h : cut s sep = some (front, rest)) :
    front <+: s := by
  unfold cut at h
  split at h
  · obtain ⟨rfl, -⟩ := Prod.mk.inj (Option.some.inj h)
    exact List.takeWhile_prefix _
  · cases h

/-- The text before the first of the characters that `stop` accepts. -/
def before (s : Str) (stop : Char → Bool) : Str := s.takeWhile (fun c => !stop c)

/-- `strings.LastIndex` of a character. -/
def lastIndex (s : Str) (c : Char) : Option Nat :=
  if c ∈ s then some (s.length - 1 - s.reverse.idxOf c) else none

theorem lastIndex_append (a b : Str) (c : Char) (h : c ∉ b) :
    lastIndex (a ++ c :: b) c = some a.length := by
  have hidx : (a ++ c :: b).reverse.idxOf c = b.length := by
    rw [List.reverse_append, List.reverse_cons, List.append_assoc,
      List.idxOf_append_of_notMem (by simpa using h)]
    simp
  unfold lastIndex
  rw [if_pos (by simp), hidx]
  simp only [List.length_append, List.length_cons]
  congr 1
  omega

/-- The last place of a character in a text. -/
theorem lastIndex_eq_some {s : Str} {c : Char} {i : Nat} (h : lastIndex s c = some i) :
    ∃ a b, s = a ++ c :: b ∧ c ∉ b ∧ a.length = i := by
  have hmem : c ∈ s := by
    by_contra hnot
    simp [lastIndex, hnot] at h
  obtain ⟨b, a, hrev, hb⟩ := List.eq_append_cons_of_mem (List.mem_reverse.mpr hmem)
  have hs : s = a.reverse ++ c :: b.reverse := by
    rw [← List.reverse_reverse s, hrev]
    simp
  have hnot : c ∉ b.reverse := by simpa using hb
  refine ⟨a.reverse, b.reverse, hs, hnot, ?_⟩
  rw [hs, lastIndex_append _ _ _ hnot] at h
  exact Option.some.inj h

/-- What stands after the last place of a character is the same for any two ways to say it. -/
theorem append_cons_inj_last {a b a' b' : Str} {c : Char} (h : a ++ c :: b = a' ++ c :: b')
    (hb : c ∉ b) (hb' : c ∉ b') : a = a' ∧ b = b' := by
  have hlen : a.length = a'.length := by
    have hidx := lastIndex_append a b c hb
    rw [h, lastIndex_append a' b' c hb'] at hidx
    exact (Option.some.inj hidx).symm
  obtain ⟨rfl, htail⟩ := List.append_inj h hlen
  exact ⟨rfl, (List.cons.inj htail).2⟩

/-- `strings.SplitN(s, sep, 3)`. -/
def splitN3 (s : Str) (sep : Char) : List Str :=
  match cut s sep with
  | none => [s]
  | some (a, rest) =>
    match cut rest sep with
    | none => [a, rest]
    | some (b, c) => [a, b, c]

/-- `strings.ReplaceAll` of a two-character text. -/
def replacePair (a b : Char) (new : Str) : Str → Str
  | [] => []
  | [c] => [c]
  | c :: tail@(d :: rest) =>
    if c = a ∧ d = b then new ++ replacePair a b new rest else c :: replacePair a b new tail

/-- More text at the end only goes on with the last part. -/
theorem splitOnP_append (p : Char → Bool) (a b : Str) :
    ∃ init g h rest, a.splitOnP p = init ++ [g] ∧
      (a ++ b).splitOnP p = init ++ (g ++ h) :: rest := by
  induction a with
  | nil =>
    obtain ⟨h, rest, hb⟩ := List.exists_cons_of_ne_nil (List.splitOnP_ne_nil p b)
    exact ⟨[], [], h, rest, List.splitOnP_nil, hb⟩
  | cons c a ih =>
    obtain ⟨init, g, h, rest, ha, hab⟩ := ih
    rw [List.cons_append, List.splitOnP_cons_eq_if_modifyHead,
      List.splitOnP_cons_eq_if_modifyHead, ha, hab]
    split
    · exact ⟨[] :: init, g, h, rest, rfl, rfl⟩
    · cases init with
      | nil => exact ⟨[], c :: g, h, rest, rfl, rfl⟩
      | cons f init => exact ⟨(c :: f) :: init, g, h, rest, rfl, rfl⟩

section tables

variable [Unicode]

/-- `strings.ToUpper`. -/
def toUpper (s : Str) : Str := s.map Unicode.toUpper

/-- `strings.ToLower`. -/
def toLower (s : Str) : Str := s.map Unicode.toLower

/-- `strings.TrimSpace`. -/
def trimSpace (s : Str) : Str :=
  ((s.dropWhile Unicode.isSpace).reverse.dropWhile Unicode.isSpace).reverse

/-- `strings.Fields`: the words between runs of white space. -/
def fields (s : Str) : List Str := (s.splitOnP Unicode.isSpace).filter (· ≠ [])

theorem ne_nil_of_mem_fields {s x : Str} (h : x ∈ fields s) : x ≠ [] := by
  simpa using (List.mem_filter.mp h).2

/-- A field of the front of a text is in its place a field of the text, but the last may go on. -/
theorem getElem?_fields_front {a s x : Str} {i : Nat} (h : a <+: s)
    (hx : (fields a)[i]? = some x) :
    ∃ y, (fields s)[i]? = some y ∧ x <+: y ∧ (i + 1 < (fields a).length → x = y) := by
  obtain ⟨b, rfl⟩ := h
  obtain ⟨init, g, g', rest, ha, hab⟩ := splitOnP_append Unicode.isSpace a b
  have hfront : fields a = init.filter (· ≠ []) ++ [g].filter (· ≠ []) := by
    rw [fields, ha, List.filter_append]
  have hwhole : fields (a ++ b) =
      init.filter (· ≠ []) ++ ((g ++ g') :: rest).filter (· ≠ []) := by
    rw [fields, hab, List.filter_append]
  rw [hfront] at hx ⊢
  rw [hwhole]
  generalize init.filter (· ≠ []) = before at hx ⊢
  by_cases hi : i < before.length
  · rw [List.getElem?_append_left hi] at hx ⊢
    exact ⟨x, hx, List.prefix_refl x, fun _ => rfl⟩
  · rw [List.getElem?_append_right (Nat.le_of_not_lt hi)] at hx ⊢
    by_cases hg : g = []
    · simp [hg] at hx
    · rw [List.filter_cons_of_pos (by simpa using hg), List.filter_nil,
        List.getElem?_singleton] at hx
      split at hx
      · rename_i hzero
        cases hx
        refine ⟨x ++ g', ?_, List.prefix_append _ _, ?_⟩
        · rw [List.filter_cons_of_pos (by simp [hg]), hzero]
          rfl
        · intro hlong
          rw [List.filter_cons_of_pos (by simpa using hg), List.length_append] at hlong
          simp at hlong
          omega
      · cases hx

/-- `strings.EqualFold`. -/
def equalFold : Str → Str → Bool
  | [], [] => true
  | c :: s, d :: t => Unicode.sameFold c d && equalFold s t
  | _, _ => false

end tables

/-! ## Packages strconv and fmt -/

def isDigit (c : Char) : Bool := '0' ≤ c && c ≤ '9'

def digitVal (c : Char) : Nat := c.toNat - '0'.toNat

/-- The value of a row of decimal digits. -/
def decimal (s : Str) : Nat := s.foldl (fun n c => 10 * n + digitVal c) 0

/-- `strconv.Itoa` of a number that is not negative. -/
def itoa (n : Nat) : Str := Nat.toDigits 10 n

/-- The largest value of a Go `int`. -/
def maxInt : Nat := 2 ^ 63 - 1

/-- `strconv.Atoi`. The value comes with `true` when the call gives no error. After a
syntax error the value is 0, and after a range error it is the nearest `int`. -/
def atoi (s : Str) : Int × Bool :=
  let (neg, ds) := match s with
    | '-' :: rest => (true, rest)
    | '+' :: rest => (false, rest)
    | _ => (false, s)
  if ds = [] ∨ ¬ ds.all isDigit then (0, false)
  else if neg then
    if decimal ds ≤ maxInt + 1 then (-(decimal ds : Int), true) else (-(maxInt + 1 : Int), false)
  else
    if decimal ds ≤ maxInt then (decimal ds, true) else (maxInt, false)

/-- `fmt.Sscanf(s, "%d", &n)` with `n` zero before: the number that `s` starts with. -/
def sscanfInt (s : Str) : Int :=
  let (neg, ds) := match s with
    | '-' :: rest => (true, rest.takeWhile isDigit)
    | '+' :: rest => (false, rest.takeWhile isDigit)
    | _ => (false, s.takeWhile isDigit)
  if neg then
    if decimal ds ≤ maxInt + 1 then -(decimal ds : Int) else 0
  else
    if decimal ds ≤ maxInt then decimal ds else 0

/-- The sign of a number and what stands after it. -/
def signed (s : Str) : Bool × Str :=
  match s with
  | '-' :: rest => (true, rest)
  | '+' :: rest => (false, rest)
  | _ => (false, s)

theorem atoi_signed (s : Str) : atoi s =
    if (signed s).2 = [] ∨ ¬ (signed s).2.all isDigit then (0, false)
    else if (signed s).1 then
      if decimal (signed s).2 ≤ maxInt + 1 then (-(decimal (signed s).2 : Int), true)
      else (-(maxInt + 1 : Int), false)
    else
      if decimal (signed s).2 ≤ maxInt then (decimal (signed s).2, true) else (maxInt, false) := by
  rfl

theorem sscanfInt_signed (s : Str) : sscanfInt s =
    if (signed s).1 then
      if decimal ((signed s).2.takeWhile isDigit) ≤ maxInt + 1 then
        -(decimal ((signed s).2.takeWhile isDigit) : Int) else 0
    else
      if decimal ((signed s).2.takeWhile isDigit) ≤ maxInt then
        decimal ((signed s).2.takeWhile isDigit) else 0 := by
  have hsplit : (match s with
      | '-' :: rest => (true, rest.takeWhile isDigit)
      | '+' :: rest => (false, rest.takeWhile isDigit)
      | _ => (false, s.takeWhile isDigit)) =
      ((signed s).1, (signed s).2.takeWhile isDigit) := by
    unfold signed
    split <;> rfl
  exact congrArg (fun p : Bool × Str =>
    if p.1 then if decimal p.2 ≤ maxInt + 1 then -(decimal p.2 : Int) else 0
    else if decimal p.2 ≤ maxInt then decimal p.2 else 0) hsplit

theorem mem_of_mem_signed {s : Str} {c : Char} (h : c ∈ (signed s).2) : c ∈ s := by
  unfold signed at h
  split at h
  · exact List.mem_cons_of_mem _ h
  · exact List.mem_cons_of_mem _ h
  · exact h

/-- A number that `Atoi` takes has a digit, and `Sscanf` reads the same number. -/
theorem sscanfInt_eq {s : Str} (h : (atoi s).2 = true) :
    sscanfInt s = (atoi s).1 ∧ ∃ c ∈ s, isDigit c := by
  rw [atoi_signed] at h ⊢
  split at h
  · cases h
  rename_i hdigits
  rw [if_neg hdigits]
  simp only [not_or, not_not] at hdigits
  obtain ⟨hne, hall⟩ := hdigits
  have hwhole : (signed s).2.takeWhile isDigit = (signed s).2 :=
    List.takeWhile_eq_self_iff.mpr (List.all_eq_true.mp hall)
  obtain ⟨c, hc⟩ := List.exists_mem_of_ne_nil _ hne
  refine ⟨?_, c, mem_of_mem_signed hc, List.all_eq_true.mp hall c hc⟩
  rw [sscanfInt_signed, hwhole]
  split at h
  · rename_i hneg
    rw [if_pos hneg, if_pos hneg]
    split at h
    · rename_i hle
      rw [if_pos hle, if_pos hle]
    · cases h
  · rename_i hneg
    rw [if_neg hneg, if_neg hneg]
    split at h
    · rename_i hle
      rw [if_pos hle, if_pos hle]
    · cases h

theorem toUpper_of_isDigit {c : Char} (h : isDigit c) : c.toUpper = c := by
  simp only [isDigit, Bool.and_eq_true, decide_eq_true_eq] at h
  have hnot : ¬ 97 ≤ c.val := fun hle => absurd (UInt32.le_trans hle h.2) (by decide)
  unfold Char.toUpper
  grind

/-- `strconv.ParseUint` in base 10, for a number of `bits` bits. -/
def parseUint (s : Str) (bits : Nat) : Option Nat :=
  if s = [] ∨ ¬ s.all isDigit ∨ 2 ^ bits ≤ decimal s then none else some (decimal s)

theorem decimal_itoa (n : Nat) : decimal (itoa n) = n :=
  Nat.ofDigitChars_toDigits (by decide) (by decide)

theorem all_isDigit_itoa (n : Nat) : (itoa n).all isDigit := by
  rw [List.all_eq_true]
  intro c hc
  have hdigit := Nat.isDigit_of_mem_toDigits (by decide) (by decide) hc
  simp only [Char.isDigit, Bool.and_eq_true, decide_eq_true_eq] at hdigit
  simp only [isDigit, Bool.and_eq_true, decide_eq_true_eq]
  exact hdigit

/-- The text of a positive number starts with a digit that is not 0. -/
theorem itoa_head {n : Nat} (h : 0 < n) : ∃ d ds, itoa n = d :: ds ∧ d ≠ '0' := by
  induction n using Nat.strongRecOn with
  | ind n ih =>
    unfold itoa
    by_cases hlt : n < 10
    · rw [Nat.toDigits_of_lt_base hlt]
      have hdigit : ∀ m : Nat, m < 10 → 0 < m → m.digitChar ≠ '0' := by decide
      exact ⟨_, _, rfl, hdigit n hlt h⟩
    · obtain ⟨d, ds, hds, hd⟩ := ih (n / 10) (by omega) (by omega)
      unfold itoa at hds
      rw [Nat.toDigits_of_base_le (by decide) (by omega), hds]
      exact ⟨d, _, rfl, hd⟩

theorem atoi_itoa {n : Nat} (hpos : 0 < n) (h : n ≤ maxInt) : atoi (itoa n) = ((n : Int), true) := by
  obtain ⟨d, ds, hds, hd⟩ := itoa_head hpos
  have hall := all_isDigit_itoa n
  have hdigit : isDigit d := List.all_eq_true.mp hall d (by simp [hds])
  have hsigned : signed (itoa n) = (false, itoa n) := by
    rw [hds]
    unfold signed
    split
    · rename_i heq
      obtain ⟨rfl, -⟩ := List.cons.inj heq
      cases hdigit
    · rename_i heq
      obtain ⟨rfl, -⟩ := List.cons.inj heq
      cases hdigit
    · rfl
  rw [atoi_signed, hsigned]
  dsimp only
  rw [if_neg, if_neg (by decide), decimal_itoa, if_pos h]
  simp only [not_or, not_not]
  exact ⟨Nat.toDigits_ne_nil, hall⟩

theorem parseUint_itoa {n bits : Nat} (h : n < 2 ^ bits) : parseUint (itoa n) bits = some n := by
  unfold parseUint
  rw [if_neg, decimal_itoa]
  rw [decimal_itoa]
  simp only [not_or, not_not]
  exact ⟨Nat.toDigits_ne_nil, all_isDigit_itoa n, Nat.not_le.mpr h⟩

/-! ## Strings and bytes -/

/-- The string of these bytes. A byte is the character of its code. -/
def text (b : List UInt8) : Str := b.map fun x => Char.ofNat x.toNat

/-- The bytes of such a string. -/
def bytes (s : Str) : List UInt8 := s.map fun c => UInt8.ofNat c.toNat

theorem toNat_ofNat_byte (x : UInt8) : (Char.ofNat x.toNat).toNat = x.toNat := by
  have hlt := x.toNat_lt
  have hvalid : x.toNat.isValidChar := Or.inl (by omega)
  rw [Char.ofNat, dif_pos hvalid]
  rfl

theorem lt_of_mem_text {b : List UInt8} {c : Char} (h : c ∈ text b) : c.toNat < 256 := by
  obtain ⟨x, -, rfl⟩ := List.mem_map.mp h
  rw [toNat_ofNat_byte]
  exact x.toNat_lt

theorem text_bytes {s : Str} (h : ∀ c ∈ s, c.toNat < 256) : text (bytes s) = s := by
  unfold bytes text
  rw [List.map_map]
  conv_rhs => rw [← List.map_id s]
  apply List.map_congr_left
  intro c hc
  rw [Function.comp, UInt8.toNat_ofNat', Nat.mod_eq_of_lt (h c hc), Char.ofNat_toNat]
  rfl

end go
