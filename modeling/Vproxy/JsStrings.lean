-- JavaScript strings, as far as code in a browser trims them and looks at how they start. A
-- string is the list of its characters. Upper case beyond ASCII stays open.
import Vproxy.Strings
import Mathlib.Data.List.DropRight

open go

namespace js

/-! ## Characters -/

/-- The white space beyond ASCII. -/
def wideSpaces : List Char :=
  ['\u00a0', '\u1680', '\u2000', '\u2001', '\u2002', '\u2003', '\u2004', '\u2005',
    '\u2006', '\u2007', '\u2008', '\u2009', '\u200a', '\u2028', '\u2029', '\u202f',
    '\u205f', '\u3000', '\ufeff']

/-- White space and line terminators: what `\s` takes and `trim` cuts off. -/
def isSpace (c : Char) : Bool := c ∈ asciiSpaces ++ wideSpaces

/-- The upper case of a character may be several characters. It is fixed on ASCII. -/
class Casing where
  upper : Char → Str
  upper_ascii : ∀ c, c.toNat < 128 → upper c = [c.toUpper]

/-- A casing with no cased letter beyond ASCII. -/
instance asciiCasing : Casing where
  upper c := [c.toUpper]
  upper_ascii _ _ := rfl

/-! ## Strings -/

def trim (s : Str) : Str := (s.dropWhile isSpace).rdropWhile isSpace

def startsWith (s p : Str) : Bool := p.isPrefixOf s

/-- The test `/^p/i` for a text `p` of ASCII characters, which no other character equals. -/
def startsWithFold (s p : Str) : Bool := startsWith (s.map Char.toUpper) (p.map Char.toUpper)

/-- `s.replace(/^p\s*/, '')` for a string with `n` characters in the place of `p`. -/
def dropFront (n : Nat) (s : Str) : Str := (s.drop n).dropWhile isSpace

def toUpperCase [Casing] (s : Str) : Str := s.flatMap Casing.upper

/-- `s.replace(/c/g, new)`, for a `new` without dollar signs. -/
def replaceAll (c : Char) (new s : Str) : Str := s.flatMap fun d => if d = c then new else [d]

/-! ## Trimming -/

section trimming

variable (p : Char → Bool)

theorem rdropWhile_cons {c : Char} (hc : p c = false) (s : Str) :
    (c :: s).rdropWhile p = c :: s.rdropWhile p := by
  unfold List.rdropWhile
  rw [List.reverse_cons, List.dropWhile_append]
  split
  · rename_i hempty
    rw [List.isEmpty_iff.mp hempty]
    simp [hc]
  · simp

/-- Nothing to cut off at the front of a text that is trimmed. -/
theorem dropWhile_trimmed (s : Str) :
    ((s.dropWhile p).rdropWhile p).dropWhile p = (s.dropWhile p).rdropWhile p := by
  cases hs : s.dropWhile p with
  | nil => rfl
  | cons c rest =>
    have hc : p c = false := by
      have hhead := List.head?_dropWhile_not p s
      rw [hs] at hhead
      simpa using hhead
    rw [rdropWhile_cons p hc]
    exact List.dropWhile_cons_of_neg (by simp [hc])

theorem trimmed_twice (s : Str) :
    (((s.dropWhile p).rdropWhile p).dropWhile p).rdropWhile p =
      (s.dropWhile p).rdropWhile p := by
  rw [dropWhile_trimmed, List.rdropWhile_idempotent]

variable {p} {q : Char → Bool}

theorem dropWhile_congr {s : Str} (h : ∀ c ∈ s, p c = q c) : s.dropWhile p = s.dropWhile q := by
  induction s with
  | nil => rfl
  | cons c s ih =>
    rw [List.dropWhile_cons, List.dropWhile_cons, h c (by simp), ih fun d hd => h d (by simp [hd])]

theorem rdropWhile_congr {s : Str} (h : ∀ c ∈ s, p c = q c) :
    s.rdropWhile p = s.rdropWhile q := by
  unfold List.rdropWhile
  rw [dropWhile_congr fun c hc => h c (List.mem_reverse.mp hc)]

end trimming

theorem mem_of_mem_trim {s : Str} {c : Char} (h : c ∈ trim s) : c ∈ s :=
  (List.dropWhile_sublist _).mem ((List.rdropWhile_prefix isSpace _).mem h)

theorem mem_of_mem_splitOn {s part : Str} {sep c : Char} (h : part ∈ s.splitOn sep)
    (hc : c ∈ part) : c ∈ s := by
  induction s generalizing part with
  | nil =>
    obtain rfl : part = [] := by simpa using h
    cases hc
  | cons d s ih =>
    obtain ⟨first, others, hparts⟩ : ∃ a l, s.splitOn sep = a :: l :=
      List.exists_cons_of_ne_nil (List.splitOnP_ne_nil _ _)
    unfold List.splitOn at h hparts ih
    rw [List.splitOnP_cons_eq_if_modifyHead] at h
    rw [hparts] at h ih
    split at h
    · obtain rfl | h := List.mem_cons.mp h
      · cases hc
      · exact List.mem_cons_of_mem _ (ih h hc)
    · obtain rfl | h := List.mem_cons.mp h
      · obtain rfl | hc := List.mem_cons.mp hc
        · exact List.mem_cons_self
        · exact List.mem_cons_of_mem _ (ih List.mem_cons_self hc)
      · exact List.mem_cons_of_mem _ (ih (List.mem_cons_of_mem _ h) hc)

/-! ## Go and JavaScript on ASCII -/

def Ascii (s : Str) : Prop := ∀ c ∈ s, c.toNat < 128

theorem ascii_of_all {s : Str} (h : s.all (·.toNat < 128) = true) : Ascii s :=
  fun c hc => of_decide_eq_true (List.all_eq_true.mp h c hc)

theorem Ascii.trim {s : Str} (h : Ascii s) : Ascii (trim s) :=
  fun c hc => h c (mem_of_mem_trim hc)

section ascii

variable [Unicode]

theorem isSpace_eq {c : Char} (h : c.toNat < 128) : isSpace c = Unicode.isSpace c := by
  have hwide : wideSpaces.all (128 ≤ ·.toNat) = true := by decide
  have hnot : c ∉ wideSpaces := by
    intro hc
    have hge := List.all_eq_true.mp hwide c hc
    simp only [decide_eq_true_eq] at hge
    omega
  rw [Bool.eq_iff_iff, Unicode.isSpace_ascii c h]
  simp [isSpace, hnot]

theorem trim_eq {s : Str} (h : Ascii s) : trim s = trimSpace s := by
  have hfront : s.dropWhile isSpace = s.dropWhile Unicode.isSpace :=
    dropWhile_congr fun c hc => isSpace_eq (h c hc)
  unfold trim
  rw [hfront]
  exact rdropWhile_congr fun c hc => isSpace_eq (h c ((List.dropWhile_sublist _).mem hc))

theorem trimSpace_trimSpace (s : Str) : trimSpace (trimSpace s) = trimSpace s :=
  trimmed_twice Unicode.isSpace s

theorem toUpper_eq {s : Str} (h : Ascii s) : toUpper s = s.map Char.toUpper :=
  List.map_congr_left fun c hc => Unicode.toUpper_ascii c (h c hc)

theorem toUpperCase_eq [Casing] {s : Str} (h : Ascii s) : toUpperCase s = toUpper s := by
  rw [toUpper_eq h]
  unfold toUpperCase
  induction s with
  | nil => rfl
  | cons c s ih =>
    rw [List.flatMap_cons, Casing.upper_ascii c (h c (by simp)), ih fun d hd => h d (by simp [hd])]
    rfl

/-- The parts between separators, trimmed on either side. -/
theorem map_trim_splitOn {s : Str} (h : Ascii s) (sep : Char) :
    (s.splitOn sep).map trim = (s.splitOn sep).map trimSpace :=
  List.map_congr_left fun _ hpart => trim_eq fun c hc => h c (mem_of_mem_splitOn hpart hc)

end ascii

end js
