-- JSON as package encoding/json writes it: the escapes of a string, and a value on one line or
-- indented. What is written is read again as the same value, by the machine that reads JSON.
import Vproxy.Json

open go go.net

namespace go.json

/-! ## Strings -/

/-- `\uXXXX`. -/
def unicodeEscape (n : Nat) : Str :=
  ['\\', 'u', (n / 4096 % 16).digitChar, (n / 256 % 16).digitChar, (n / 16 % 16).digitChar,
    (n % 16).digitChar]

/-- The characters that are written by their code: controls, those that mean something in HTML, and
the line ends of JavaScript. -/
def byCode (c : Char) : Bool :=
  c.toNat < 0x20 || c == '<' || c == '>' || c == '&' || c.toNat == 0x2028 || c.toNat == 0x2029

/-- `appendString` for one character. -/
def quoteChar (c : Char) : Str :=
  if c = '"' ∨ c = '\\' then ['\\', c]
  else if c = '\x08' then ['\\', 'b']
  else if c = '\x0c' then ['\\', 'f']
  else if c = '\n' then ['\\', 'n']
  else if c = '\r' then ['\\', 'r']
  else if c = '\t' then ['\\', 't']
  else if byCode c then unicodeEscape c.toNat
  else [c]

/-- The text between the quotes. -/
def quoted (s : Str) : Str := s.flatMap quoteChar

def quote (s : Str) : Str := '"' :: (quoted s ++ ['"'])

/-- The ways in which a character is written. -/
theorem quoteChar_cases (c : Char) :
    (∃ e, e ≠ 'u' ∧ ("bfnrt\\/\"" : Str).contains e = true ∧ escaped e = c ∧
      quoteChar c = ['\\', e]) ∨
    (byCode c = true ∧ quoteChar c = unicodeEscape c.toNat) ∨
    (c ≠ '"' ∧ c ≠ '\\' ∧ ¬ c.toNat < 0x20 ∧ quoteChar c = [c]) := by
  unfold quoteChar
  split
  · rename_i h
    left
    rcases h with rfl | rfl
    · exact ⟨'"', by decide, by decide, by decide, rfl⟩
    · exact ⟨'\\', by decide, by decide, by decide, rfl⟩
  rename_i hquote
  split
  · rename_i h
    exact .inl ⟨'b', by decide, by decide, by rw [h]; decide, rfl⟩
  split
  · rename_i h
    exact .inl ⟨'f', by decide, by decide, by rw [h]; decide, rfl⟩
  split
  · rename_i h
    exact .inl ⟨'n', by decide, by decide, by rw [h]; decide, rfl⟩
  split
  · rename_i h
    exact .inl ⟨'r', by decide, by decide, by rw [h]; decide, rfl⟩
  split
  · rename_i h
    exact .inl ⟨'t', by decide, by decide, by rw [h]; decide, rfl⟩
  split
  · rename_i h
    exact .inr (.inl ⟨h, rfl⟩)
  · rename_i h
    rw [not_or] at hquote
    refine .inr (.inr ⟨hquote.1, hquote.2, fun hlt => h ?_, rfl⟩)
    simp [byCode, hlt]

theorem isHex_digitChar {d : Nat} (h : d < 16) : isHex d.digitChar = true := by
  have hall : ∀ d : Fin 16, isHex (d : Nat).digitChar = true := by decide
  exact hall ⟨d, h⟩

theorem hexVal_digitChar {d : Nat} (h : d < 16) : hexVal d.digitChar = some d := by
  have hall : ∀ d : Fin 16, hexVal (d : Nat).digitChar = some (d : Nat) := by decide
  exact hall ⟨d, h⟩

theorem hexNum_digits {n : Nat} (h : n < 65536) :
    hexNum [(n / 4096 % 16).digitChar, (n / 256 % 16).digitChar, (n / 16 % 16).digitChar,
      (n % 16).digitChar] = n := by
  simp only [hexNum, List.foldl_cons, List.foldl_nil,
    hexVal_digitChar (Nat.mod_lt _ (by decide : 16 > 0)), Option.getD_some]
  omega

/-- A character that is written by its code is no half of a pair. -/
theorem code_of_byCode {c : Char} (h : byCode c = true) : c.toNat < 0xd800 := by
  simp only [byCode, Bool.or_eq_true, beq_iff_eq, decide_eq_true_eq] at h
  rcases h with ((((h | rfl) | rfl) | rfl) | h) | h
  · omega
  · decide
  · decide
  · decide
  · omega
  · omega

theorem rune_toNat {c : Char} (h : c.toNat < 0xd800) : rune c.toNat = c := by
  unfold rune
  rw [if_neg (by omega)]
  exact Char.ofNat_toNat c

/-- A string is read as it was written. -/
theorem unquote_quoted (s : Str) : unquote (quoted s) = s := by
  unfold unquote
  induction s with
  | nil => rfl
  | cons c s ih =>
    have hcons : quoted (c :: s) = quoteChar c ++ quoted s := rfl
    rw [hcons]
    obtain ⟨e, hu, -, he, hquote⟩ | ⟨hcode, hquote⟩ | ⟨-, hslash, -, hquote⟩ := quoteChar_cases c
    · have hpieces : pieces ('\\' :: e :: quoted s) = .char (escaped e) :: pieces (quoted s) := by
        rw [pieces]
        rintro _ _ _ _ _ rfl
        exact absurd rfl hu
      rw [hquote]
      change join none (pieces ('\\' :: e :: quoted s)) = _
      rw [hpieces, he]
      change c :: join none (pieces (quoted s)) = _
      rw [ih]
    · have hlt := code_of_byCode hcode
      have hpieces : pieces (unicodeEscape c.toNat ++ quoted s) =
          .unit c.toNat :: pieces (quoted s) := by
        change Piece.unit (hexNum _) :: _ = _
        rw [hexNum_digits (by omega)]
        rfl
      rw [hquote, hpieces, join, if_neg (by omega), rune_toNat hlt, ih]
    · have hpieces : pieces (c :: quoted s) = .char c :: pieces (quoted s) := by
        rw [pieces]
        · rintro _ _ _ _ _ h
          exact absurd h hslash
        · rintro _ _ h
          exact absurd h hslash
      rw [hquote]
      change join none (pieces (c :: quoted s)) = _
      rw [hpieces]
      change c :: join none (pieces (quoted s)) = _
      rw [ih]

/-! ## Reading a string -/

theorem step_plain {isKey : Bool} {raw : Str} {stack : List Frame} {c : Char} (hquote : c ≠ '"')
    (hslash : c ≠ '\\') (hcontrol : ¬ c.toNat < 0x20) :
    Scanner.step ⟨.string isKey .plain raw, stack⟩ c = ⟨.string isKey .plain (c :: raw), stack⟩ := by
  simp [Scanner.step, StrState.step, hquote, hslash, hcontrol]

theorem step_hex {isKey : Bool} {raw : Str} {stack : List Frame} {n : Nat} {c : Char}
    (hc : isHex c = true) :
    Scanner.step ⟨.string isKey (.hex (n + 2)) raw, stack⟩ c =
      ⟨.string isKey (.hex (n + 1)) (c :: raw), stack⟩ := by
  simp [Scanner.step, StrState.step, hc]

theorem step_lastHex {isKey : Bool} {raw : Str} {stack : List Frame} {c : Char}
    (hc : isHex c = true) :
    Scanner.step ⟨.string isKey (.hex 1) raw, stack⟩ c =
      ⟨.string isKey .plain (c :: raw), stack⟩ := by
  simp [Scanner.step, StrState.step, hc]

/-- A written character is read inside the string. -/
theorem run_quoteChar (isKey : Bool) (raw : Str) (stack : List Frame) (c : Char) :
    Scanner.run ⟨.string isKey .plain raw, stack⟩ (quoteChar c) =
      ⟨.string isKey .plain ((quoteChar c).reverse ++ raw), stack⟩ := by
  have hescape : Scanner.step ⟨.string isKey .plain raw, stack⟩ '\\' =
      ⟨.string isKey .escape ('\\' :: raw), stack⟩ := by
    simp [Scanner.step, StrState.step]
  obtain ⟨e, hu, he, -, hquote⟩ | ⟨-, hquote⟩ | ⟨hne, hslash, hcontrol, hquote⟩ :=
    quoteChar_cases c
  · rw [hquote]
    change Scanner.step (Scanner.step ⟨.string isKey .plain raw, stack⟩ '\\') e = _
    have hstate : StrState.step .escape e = some .plain := by
      rw [StrState.step, if_neg hu, if_pos he]
    rw [hescape]
    simp [Scanner.step, hstate]
  · have hlt : ∀ k, k % 16 < 16 := fun k => Nat.mod_lt _ (by decide)
    have hu : Scanner.step ⟨.string isKey .escape ('\\' :: raw), stack⟩ 'u' =
        ⟨.string isKey (.hex 4) ('u' :: '\\' :: raw), stack⟩ := by
      simp [Scanner.step, StrState.step]
    rw [hquote]
    simp only [unicodeEscape, Scanner.run, List.foldl_cons, List.foldl_nil, hescape, hu,
      step_hex (isHex_digitChar (hlt _)), step_lastHex (isHex_digitChar (hlt _))]
    rfl
  · rw [hquote]
    exact step_plain hne hslash hcontrol

theorem run_quoted (isKey : Bool) (raw : Str) (stack : List Frame) (s : Str) :
    Scanner.run ⟨.string isKey .plain raw, stack⟩ (quoted s) =
      ⟨.string isKey .plain ((quoted s).reverse ++ raw), stack⟩ := by
  induction s generalizing raw with
  | nil => rfl
  | cons c s ih =>
    have hcons : quoted (c :: s) = quoteChar c ++ quoted s := rfl
    rw [hcons, run_append, run_quoteChar, ih, List.reverse_append, List.append_assoc]

theorem run_quote_end (isKey : Bool) (stack : List Frame) (s : Str) :
    Scanner.run ⟨.string isKey .plain [], stack⟩ (quoted s ++ ['"']) =
      if isKey then (⟨.string isKey .plain (quoted s).reverse, stack⟩ : Scanner).setKey s
      else (⟨.string isKey .plain (quoted s).reverse, stack⟩ : Scanner).finish (.str s) := by
  rw [run_append, run_quoted, List.append_nil]
  change Scanner.step ⟨.string isKey .plain (quoted s).reverse, stack⟩ '"' = _
  simp [Scanner.step, unquote_quoted]

/-! ## Numbers -/

def NumState.begin (c : Char) : Option NumState :=
  if c = '-' then some .neg else if c = '0' then some .zero else if isDigit c then some .int else none

/-- The text is that of a number. -/
def isNumber : Str → Bool
  | [] => false
  | c :: rest => ((NumState.begin c).bind fun st => rest.foldlM NumState.step st).any NumState.accepts

/-- A number as an integer is written. -/
def intLiteral (n : Int) : Str := if n < 0 then '-' :: itoa n.natAbs else itoa n.natAbs

theorem run_number {st st' : NumState} {rest : Str} (h : rest.foldlM NumState.step st = some st')
    (literal : Str) (stack : List Frame) :
    Scanner.run ⟨.number st literal, stack⟩ rest = ⟨.number st' (rest.reverse ++ literal), stack⟩ := by
  induction rest generalizing st literal with
  | nil =>
    cases h
    rfl
  | cons c rest ih =>
    obtain ⟨st₁, hstep, hrest⟩ := Option.bind_eq_some_iff.mp h
    have hnext : Scanner.step ⟨.number st literal, stack⟩ c = ⟨.number st₁ (c :: literal), stack⟩ := by
      simp [Scanner.step, hstep]
    change Scanner.run (Scanner.step ⟨.number st literal, stack⟩ c) rest = _
    rw [hnext, ih hrest]
    simp

theorem not_isSpace_of_begin {c : Char} {st : NumState} (h : NumState.begin c = some st) :
    isSpace c = false ∧ c ≠ ']' := by
  have hdigit : ∀ {d : Char}, isDigit d = false → d ≠ '-' → c ≠ d := by
    rintro d hd hne rfl
    unfold NumState.begin at h
    have hzero : c ≠ '0' := by
      rintro rfl
      exact absurd hd (by decide)
    rw [if_neg hne, if_neg hzero, hd] at h
    cases h
  refine ⟨?_, hdigit (by decide) (by decide)⟩
  simp only [isSpace, Bool.or_eq_false_iff, beq_eq_false_iff_ne]
  exact ⟨⟨⟨hdigit (by decide) (by decide), hdigit (by decide) (by decide)⟩,
    hdigit (by decide) (by decide)⟩, hdigit (by decide) (by decide)⟩

theorem step_begin {c : Char} {st : NumState} (h : NumState.begin c = some st)
    (stack : List Frame) : Scanner.step ⟨.value, stack⟩ c = ⟨.number st [c], stack⟩ := by
  have hspace := (not_isSpace_of_begin h).1
  change Scanner.beginValue _ c = _
  unfold NumState.begin at h
  unfold Scanner.beginValue
  rw [if_neg (by simp [hspace])]
  split at h
  · rename_i hc
    cases h
    subst hc
    rfl
  rename_i hminus
  split at h
  · rename_i hc
    cases h
    subst hc
    rfl
  rename_i hzero
  split at h
  · rename_i hdigit
    cases h
    have hne : ∀ d, isDigit d = false → c ≠ d := by
      rintro d hd rfl
      rw [hdigit] at hd
      cases hd
    rw [if_neg (hne _ (by decide)), if_neg (hne _ (by decide)), if_neg (hne _ (by decide)),
      if_neg hminus, if_neg hzero, if_pos hdigit]
  · cases h

/-- A number is read up to its end. -/
theorem run_isNumber {literal : Str} (h : isNumber literal = true) :
    (∃ c rest, literal = c :: rest ∧ isSpace c = false ∧ c ≠ ']') ∧
      ∃ st, NumState.accepts st = true ∧ ∀ stack,
        Scanner.run ⟨.value, stack⟩ literal = ⟨.number st literal.reverse, stack⟩ := by
  cases literal with
  | nil => cases h
  | cons c rest =>
    rw [isNumber, Option.any_eq_true_iff_get] at h
    obtain ⟨hsome, haccepts⟩ := h
    obtain ⟨st', hrun⟩ := Option.isSome_iff_exists.mp hsome
    simp only [hrun, Option.get_some] at haccepts
    obtain ⟨st, hbegin, hrest⟩ := Option.bind_eq_some_iff.mp hrun
    refine ⟨⟨c, rest, rfl, not_isSpace_of_begin hbegin⟩, st', haccepts, fun stack => ?_⟩
    change Scanner.run (Scanner.step ⟨.value, stack⟩ c) rest = _
    rw [step_begin hbegin, run_number hrest, List.reverse_cons]

/-! ## Values -/

/-- White space between the parts: a line end with the indentation of a depth, and the space after
a colon. -/
structure Layout where
  newline : Nat → Str
  space : Str
  newline_isSpace : ∀ d, (newline d).all isSpace = true
  space_isSpace : space.all isSpace = true

/-- `MarshalIndent` with two spaces. -/
def indented : Layout where
  newline d := '\n' :: List.replicate (2 * d) ' '
  space := [' ']
  newline_isSpace d := by simp [isSpace]
  space_isSpace := rfl

mutual

def Value.render (l : Layout) (d : Nat) : Value → Str
  | .null => "null"
  | .bool b => if b then "true" else "false"
  | .num literal => literal
  | .str s => quote s
  | .arr [] => "[]"
  | .arr (v :: items) =>
    '[' :: (l.newline (d + 1) ++ (v.render l (d + 1) ++
      (renderItems l (d + 1) items ++ (l.newline d ++ [']']))))
  | .obj [] => "\x7b\x7d"
  | .obj ((k, v) :: members) =>
    '\x7b' :: (l.newline (d + 1) ++ (quote k ++ ':' :: (l.space ++ (v.render l (d + 1) ++
      (renderMembers l (d + 1) members ++ (l.newline d ++ ['\x7d']))))))

/-- The items after the first. -/
def renderItems (l : Layout) (d : Nat) : List Value → Str
  | [] => []
  | v :: items => ',' :: (l.newline d ++ (v.render l d ++ renderItems l d items))

/-- The members after the first. -/
def renderMembers (l : Layout) (d : Nat) : List (Str × Value) → Str
  | [] => []
  | (k, v) :: members =>
    ',' :: (l.newline d ++ (quote k ++ ':' :: (l.space ++ (v.render l d ++
      renderMembers l d members))))

end

mutual

/-- How many arrays and objects are open at once. -/
def Value.depth : Value → Nat
  | .null | .bool _ | .num _ | .str _ => 0
  | .arr items => depthItems items + 1
  | .obj members => depthMembers members + 1

def depthItems : List Value → Nat
  | [] => 0
  | v :: items => max v.depth (depthItems items)

def depthMembers : List (Str × Value) → Nat
  | [] => 0
  | (_, v) :: members => max v.depth (depthMembers members)

end

mutual

/-- The numbers are texts of numbers. -/
def Value.Valid : Value → Prop
  | .null | .bool _ | .str _ => True
  | .num literal => isNumber literal = true
  | .arr items => ValidItems items
  | .obj members => ValidMembers members

def ValidItems : List Value → Prop
  | [] => True
  | v :: items => v.Valid ∧ ValidItems items

def ValidMembers : List (Str × Value) → Prop
  | [] => True
  | (_, v) :: members => v.Valid ∧ ValidMembers members

end

/-! ## Reading a value -/

/-- The machine has read the value. A number waits for what comes behind it. -/
def ReadAs (s : Scanner) (v : Value) (stack : List Frame) : Prop :=
  s = (⟨.next, stack⟩ : Scanner).finish v ∨
    ∃ literal st, v = .num literal ∧ NumState.accepts st = true ∧
      s = ⟨.number st literal.reverse, stack⟩

/-- What can come behind a value. -/
def ends (c : Char) : Bool := isSpace c || c == ',' || c == ']' || c == '\x7d'

theorem step_accepts_none {st : NumState} {c : Char} (h : st.accepts = true) (hc : ends c = true) :
    st.step c = none := by
  have hnot : isDigit c = false ∧ c ≠ '.' ∧ c ≠ 'e' ∧ c ≠ 'E' := by
    simp only [ends, isSpace, Bool.or_eq_true, beq_iff_eq] at hc
    rcases hc with ((((((rfl | rfl) | rfl) | rfl)) | rfl) | rfl) | rfl <;> decide
  obtain ⟨hdigit, hdot, he, hE⟩ := hnot
  cases st with
  | zero | int | frac | expDigits => simp [NumState.step, hdigit, hdot, he, hE]
  | neg | dot | exp | expSign => cases h

theorem finish_cons (mode : Mode) (f : Frame) (stack : List Frame) (v : Value) :
    ∃ g, (⟨mode, f :: stack⟩ : Scanner).finish v = ⟨.next, g :: stack⟩ := by
  cases f <;> exact ⟨_, rfl⟩

theorem ReadAs.step {s : Scanner} {v : Value} {f : Frame} {stack : List Frame} {c : Char}
    (h : ReadAs s v (f :: stack)) (hc : ends c = true) :
    s.step c = ((⟨.next, f :: stack⟩ : Scanner).finish v).afterValue c := by
  obtain rfl | ⟨literal, st, rfl, haccepts, rfl⟩ := h
  · obtain ⟨g, hg⟩ := finish_cons .next f stack v
    rw [hg]
    rfl
  · have hnone := step_accepts_none haccepts hc
    have hfinish : (⟨.number st literal.reverse, f :: stack⟩ : Scanner).finish (.num literal) =
        (⟨.next, f :: stack⟩ : Scanner).finish (.num literal) := by cases f <;> rfl
    simp [Scanner.step, hnone, haccepts, hfinish]

theorem run_spaces {s : Scanner} (h : ∀ c, isSpace c = true → s.step c = s) {ws : Str}
    (hws : ws.all isSpace = true) : s.run ws = s := by
  induction ws with
  | nil => rfl
  | cons c ws ih =>
    rw [List.all_cons, Bool.and_eq_true] at hws
    change Scanner.run (s.step c) ws = s
    rw [h c hws.1, ih hws.2]

theorem step_space_next (stack : List Frame) {c : Char} (hc : isSpace c = true) :
    Scanner.step ⟨.next, stack⟩ c = ⟨.next, stack⟩ := by
  change Scanner.afterValue _ c = _
  rw [Scanner.afterValue, if_pos hc]

/-- The array or object at the top of the stack is complete but for its closing character. -/
def Closes (s : Scanner) (close : Char) (v : Value) (stack : List Frame) : Prop :=
  s.stack.length = stack.length + 1 ∧ s.step close = (⟨.next, stack⟩ : Scanner).finish v

theorem ReadAs.stack_eq {s : Scanner} {v : Value} {f : Frame} {stack : List Frame}
    (h : ReadAs s v (f :: stack)) : s.stack.length = stack.length + 1 := by
  obtain rfl | ⟨literal, st, -, -, rfl⟩ := h
  · obtain ⟨g, hg⟩ := finish_cons .next f stack v
    rw [hg, List.length_cons]
  · rfl

/-- White space before the end of the array or object. -/
theorem ReadAs.run_spaces {s : Scanner} {v : Value} {f : Frame} {stack : List Frame}
    (h : ReadAs s v (f :: stack)) {ws : Str} (hws : ws.all isSpace = true) :
    ReadAs (s.run ws) v (f :: stack) := by
  cases ws with
  | nil => exact h
  | cons b ws =>
    rw [List.all_cons, Bool.and_eq_true] at hws
    obtain ⟨g, hg⟩ := finish_cons .next f stack v
    have hfirst := h.step (c := b) (by simp [ends, hws.1])
    rw [hg, Scanner.afterValue, if_pos hws.1] at hfirst
    left
    change Scanner.run (s.step b) ws = _
    rw [hfirst, json.run_spaces (fun c hc => step_space_next _ hc) hws.2, hg]

/-- The first character of a value. -/
def Starts (text : Str) : Prop := ∃ c rest, text = c :: rest ∧ isSpace c = false ∧ c ≠ ']'

theorem starts_render (l : Layout) (d : Nat) {v : Value} (h : v.Valid) : Starts (v.render l d) := by
  cases v with
  | null => exact ⟨'n', "ull", rfl, by decide, by decide⟩
  | bool b =>
    cases b with
    | false => exact ⟨'f', "alse", rfl, by decide, by decide⟩
    | true => exact ⟨'t', "rue", rfl, by decide, by decide⟩
  | num literal => exact (run_isNumber h).1
  | str s => exact ⟨'"', _, rfl, by decide, by decide⟩
  | arr items => cases items <;> exact ⟨'[', _, rfl, by decide, by decide⟩
  | obj members => rcases members with _ | ⟨⟨k, v⟩, members⟩ <;>
      exact ⟨'\x7b', _, rfl, by decide, by decide⟩

/-- The first item of an array is read like any value. -/
theorem run_firstItem {text : Str} (h : Starts text) (stack : List Frame) :
    Scanner.run ⟨.firstItem, stack⟩ text = Scanner.run ⟨.value, stack⟩ text := by
  obtain ⟨c, rest, rfl, hspace, hbracket⟩ := h
  have hstep : Scanner.step ⟨.firstItem, stack⟩ c = Scanner.step ⟨.value, stack⟩ c := by
    change (if c = ']' then _ else Scanner.beginValue _ c) = Scanner.beginValue _ c
    rw [if_neg hbracket]
    unfold Scanner.beginValue
    rw [hspace]
    rfl
  change Scanner.run (Scanner.step ⟨.firstItem, stack⟩ c) rest = _
  rw [hstep]
  rfl

theorem step_space_value (stack : List Frame) {c : Char} (hc : isSpace c = true) :
    Scanner.step ⟨.value, stack⟩ c = ⟨.value, stack⟩ := by
  change Scanner.beginValue _ c = _
  rw [Scanner.beginValue, if_pos hc]

theorem step_space_firstItem (stack : List Frame) {c : Char} (hc : isSpace c = true) :
    Scanner.step ⟨.firstItem, stack⟩ c = ⟨.firstItem, stack⟩ := by
  have hbracket : c ≠ ']' := by
    rintro rfl
    cases hc
  change (if c = ']' then _ else Scanner.beginValue _ c) = _
  rw [if_neg hbracket, Scanner.beginValue, if_pos hc]

/-- The modes before a key. -/
def BeforeKey (mode : Mode) : Prop := mode = .firstKey ∨ mode = .key

theorem step_beforeKey {mode : Mode} (h : BeforeKey mode) (stack : List Frame) {c : Char}
    (hc : c ≠ '\x7d') : Scanner.step ⟨mode, stack⟩ c = Scanner.beginKey ⟨mode, stack⟩ c := by
  obtain rfl | rfl := h
  · exact if_neg hc
  · rfl

theorem step_space_beforeKey {mode : Mode} (h : BeforeKey mode) (stack : List Frame) {c : Char}
    (hc : isSpace c = true) : Scanner.step ⟨mode, stack⟩ c = ⟨mode, stack⟩ := by
  have hbrace : c ≠ '\x7d' := by
    rintro rfl
    cases hc
  rw [step_beforeKey h stack hbrace, Scanner.beginKey, if_pos hc]

/-- A key, its colon and the space behind it. -/
theorem run_key {mode : Mode} (h : BeforeKey mode) (l : Layout) (members : List (Str × Value))
    (old k : Str) (stack : List Frame) (rest : Str) :
    Scanner.run ⟨mode, .obj members old :: stack⟩ (quote k ++ ':' :: (l.space ++ rest)) =
      Scanner.run ⟨.value, .obj members k :: stack⟩ rest := by
  have hbegin : Scanner.step ⟨mode, .obj members old :: stack⟩ '"' =
      ⟨.string true .plain [], .obj members old :: stack⟩ := by
    rw [step_beforeKey h _ (by decide)]
    rfl
  have hkey : Scanner.run ⟨mode, .obj members old :: stack⟩ (quote k) =
      ⟨.colon, .obj members k :: stack⟩ := by
    change Scanner.run (Scanner.step _ '"') (quoted k ++ ['"']) = _
    rw [hbegin, run_quote_end]
    rfl
  rw [run_append, hkey]
  change Scanner.run ⟨.value, .obj members k :: stack⟩ (l.space ++ rest) = _
  rw [run_append, run_spaces (fun c hc => step_space_value _ hc) l.space_isSpace]

mutual

/-- A value is read as it was written. -/
theorem readAs_render (l : Layout) : ∀ (v : Value) (d : Nat), v.Valid → ∀ stack : List Frame,
    v.depth + stack.length ≤ maxNestingDepth →
    ReadAs (Scanner.run ⟨.value, stack⟩ (v.render l d)) v stack
  | .null, _, _, _, _ => .inl rfl
  | .bool false, _, _, _, _ => .inl rfl
  | .bool true, _, _, _, _ => .inl rfl
  | .num literal, _, hvalid, stack, _ => by
    obtain ⟨st, haccepts, hrun⟩ := (run_isNumber hvalid).2
    exact .inr ⟨literal, st, rfl, haccepts, hrun stack⟩
  | .str s, _, _, stack, _ => by
    left
    change Scanner.run ⟨.string false .plain [], stack⟩ (quoted s ++ ['"']) = _
    rw [run_quote_end]
    cases stack with
    | nil => rfl
    | cons f stack => cases f <;> rfl
  | .arr [], d, _, stack, hdepth => by
    left
    have hroom : stack.length < maxNestingDepth := by
      simp only [Value.depth, depthItems] at hdepth
      omega
    change Scanner.run (Scanner.push ⟨.value, stack⟩ (.arr []) .firstItem) [']'] = _
    rw [Scanner.push, if_pos hroom]
    rfl
  | .arr (v :: items), d, hvalid, stack, hdepth => by
    left
    simp only [Value.depth, depthItems] at hdepth
    have hroom : stack.length < maxNestingDepth := by omega
    have hfirst := readAs_render l v (d + 1) hvalid.1 (.arr [] :: stack)
      (by rw [List.length_cons]; omega)
    have hlast := closes_renderItems l items (d + 1) hvalid.2 (by omega) hfirst d
    change Scanner.run (Scanner.push ⟨.value, stack⟩ (.arr []) .firstItem) _ = _
    rw [Scanner.push, if_pos hroom, run_append,
      run_spaces (fun c hc => step_space_firstItem _ hc) (l.newline_isSpace _), run_append,
      run_firstItem (starts_render l _ hvalid.1), ← List.append_assoc, run_append]
    exact hlast.2
  | .obj [], d, _, stack, hdepth => by
    left
    have hroom : stack.length < maxNestingDepth := by
      simp only [Value.depth, depthMembers] at hdepth
      omega
    change Scanner.run (Scanner.push ⟨.value, stack⟩ (.obj [] []) .firstKey) ['\x7d'] = _
    rw [Scanner.push, if_pos hroom]
    rfl
  | .obj ((k, v) :: members), d, hvalid, stack, hdepth => by
    left
    simp only [Value.depth, depthMembers] at hdepth
    have hroom : stack.length < maxNestingDepth := by omega
    have hfirst := readAs_render l v (d + 1) hvalid.1 (.obj [] k :: stack)
      (by rw [List.length_cons]; omega)
    have hlast := closes_renderMembers l members (d + 1) hvalid.2 (by omega) hfirst d
    change Scanner.run (Scanner.push ⟨.value, stack⟩ (.obj [] []) .firstKey) _ = _
    rw [Scanner.push, if_pos hroom, run_append,
      run_spaces (fun c hc => step_space_beforeKey (.inl rfl) _ hc) (l.newline_isSpace _),
      run_key (.inl rfl), run_append, ← List.append_assoc, run_append]
    exact hlast.2

theorem closes_renderItems (l : Layout) : ∀ (items : List Value) (d : Nat), ValidItems items →
    ∀ {s : Scanner} {v : Value} {pre : List Value} {stack : List Frame},
    depthItems items + stack.length < maxNestingDepth → ReadAs s v (.arr pre :: stack) →
    ∀ outer, Closes (s.run (renderItems l d items ++ l.newline outer)) ']'
      (.arr (pre ++ v :: items)) stack
  | [], d, _, s, v, pre, stack, _, hread, outer => by
    have hend := hread.run_spaces (l.newline_isSpace outer)
    exact ⟨hend.stack_eq, hend.step (by decide)⟩
  | w :: items, d, hvalid, s, v, pre, stack, hdepth, hread, outer => by
    simp only [depthItems] at hdepth
    have hnext := readAs_render l w d hvalid.1 (.arr (pre ++ [v]) :: stack)
      (by rw [List.length_cons]; omega)
    have hlast := closes_renderItems l items d hvalid.2 (by omega) hnext outer
    have hcomma : s.step ',' = ⟨.value, .arr (pre ++ [v]) :: stack⟩ := by
      rw [hread.step (by decide)]
      rfl
    change Closes (Scanner.run (s.step ',') ((l.newline d ++ (w.render l d ++
      renderItems l d items)) ++ _)) _ _ _
    rw [hcomma, List.append_assoc, List.append_assoc, run_append,
      run_spaces (fun c hc => step_space_value _ hc) (l.newline_isSpace _), run_append]
    simpa using hlast

theorem closes_renderMembers (l : Layout) : ∀ (members : List (Str × Value)) (d : Nat),
    ValidMembers members →
    ∀ {s : Scanner} {v : Value} {k : Str} {pre : List (Str × Value)} {stack : List Frame},
    depthMembers members + stack.length < maxNestingDepth → ReadAs s v (.obj pre k :: stack) →
    ∀ outer, Closes (s.run (renderMembers l d members ++ l.newline outer)) '\x7d'
      (.obj (pre ++ (k, v) :: members)) stack
  | [], d, _, s, v, k, pre, stack, _, hread, outer => by
    have hend := hread.run_spaces (l.newline_isSpace outer)
    exact ⟨hend.stack_eq, hend.step (by decide)⟩
  | (k', w) :: members, d, hvalid, s, v, k, pre, stack, hdepth, hread, outer => by
    simp only [depthMembers] at hdepth
    have hnext := readAs_render l w d hvalid.1 (.obj (pre ++ [(k, v)]) k' :: stack)
      (by rw [List.length_cons]; omega)
    have hlast := closes_renderMembers l members d hvalid.2 (by omega) hnext outer
    have hcomma : s.step ',' = ⟨.key, .obj (pre ++ [(k, v)]) [] :: stack⟩ := by
      rw [hread.step (by decide)]
      rfl
    change Closes (Scanner.run (s.step ',') ((l.newline d ++ (quote k' ++ ':' :: (l.space ++
      (w.render l d ++ renderMembers l d members)))) ++ _)) _ _ _
    rw [hcomma, List.append_assoc, run_append,
      run_spaces (fun c hc => step_space_beforeKey (.inr rfl) _ hc) (l.newline_isSpace _),
      List.append_assoc, List.cons_append, List.append_assoc, run_key (.inr rfl), List.append_assoc,
      run_append]
    simpa using hlast

end

/-! ## A whole text -/

/-- The step of `Unmarshal`, where only white space may stand behind the value. -/
def Scanner.stepTop (s : Scanner) (c : Char) : Scanner :=
  match s.mode with
  | .done _ => if isSpace c then s else s.fail
  | .number st _ =>
    if s.stack.isEmpty && (st.step c).isNone && !isSpace c then s.fail else s.step c
  | _ => s.step c

def Scanner.runTop (s : Scanner) (text : Str) : Scanner := text.foldl Scanner.stepTop s

/-- `Unmarshal`, up to the value. -/
def unmarshal (text : Str) : Option Value :=
  match (Scanner.start.runTop text).mode with
  | .done v => some v
  | .number st literal =>
    if st.accepts ∧ (Scanner.start.runTop text).stack.isEmpty then some (.num literal.reverse)
    else none
  | _ => none

/-- Nothing is open, and the value has begun. -/
def Scanner.Closed (s : Scanner) : Prop :=
  match s.mode with
  | .done _ => True
  | .string _ _ _ | .number _ _ | .literal _ _ | .error => s.stack = []
  | _ => False

theorem Scanner.Closed.step {s : Scanner} (h : s.Closed) (c : Char) : (s.step c).Closed := by
  obtain ⟨mode, stack⟩ := s
  cases mode with
  | string isKey st raw =>
    obtain rfl : stack = [] := h
    simp only [Scanner.step]
    split
    · split
      · exact rfl
      · exact trivial
    · split <;> exact rfl
  | number st literal =>
    obtain rfl : stack = [] := h
    simp only [Scanner.step]
    split
    · exact rfl
    · split
      · exact trivial
      · exact rfl
  | literal rest v =>
    obtain rfl : stack = [] := h
    simp only [Scanner.step]
    split
    · split
      · exact trivial
      · exact rfl
    · split <;> exact rfl
    · exact rfl
  | done v => exact trivial
  | error => exact h
  | value | firstItem | firstKey | key | colon | next => cases h

theorem Scanner.Closed.run {s : Scanner} (h : s.Closed) (text : Str) : (s.run text).Closed := by
  induction text generalizing s with
  | nil => exact h
  | cons c text ih => exact ih (h.step c)

theorem stepTop_eq {s : Scanner} (h : ¬ s.Closed) (c : Char) : s.stepTop c = s.step c := by
  obtain ⟨mode, stack⟩ := s
  cases mode with
  | done v => exact absurd trivial h
  | number st literal =>
    have hempty : stack.isEmpty = false := by
      rw [← Bool.not_eq_true, List.isEmpty_iff]
      exact h
    simp only [Scanner.stepTop]
    rw [hempty, if_neg (by simp)]
  | _ => rfl

/-- Before the end of the value the two machines agree. -/
theorem runTop_eq {body : Str} (h : ¬ (Scanner.start.run body).Closed) :
    Scanner.start.runTop body = Scanner.start.run body := by
  induction body using List.reverseRecOn with
  | nil => rfl
  | append_singleton body c ih =>
    rw [run_append] at h ⊢
    have hbefore : ¬ (Scanner.start.run body).Closed := fun hclosed => h (hclosed.run [c])
    unfold Scanner.runTop at ih ⊢
    rw [List.foldl_append, ih hbefore]
    exact stepTop_eq hbefore c

theorem Closes.not_closed {s : Scanner} {close : Char} {v : Value} (h : Closes s close v []) :
    ¬ s.Closed := by
  obtain ⟨mode, stack⟩ := s
  obtain ⟨hlength, hstep⟩ := h
  have hne : stack ≠ [] := by
    rintro rfl
    cases hlength
  cases mode with
  | done w =>
    obtain rfl : stack = [] := congrArg Scanner.stack hstep
    exact absurd rfl hne
  | string | number | literal | error => exact hne
  | value | firstItem | firstKey | key | colon | next => exact id

theorem render_obj_braces (l : Layout) (d : Nat) (members : List (Str × Value)) :
    ∃ middle, (Value.obj members).render l d = '\x7b' :: (middle ++ ['\x7d']) := by
  rcases members with _ | ⟨⟨k, v⟩, members⟩
  · exact ⟨[], rfl⟩
  · refine ⟨l.newline (d + 1) ++ (quote k ++ ':' :: (l.space ++ (v.render l (d + 1) ++
      (renderMembers l (d + 1) members ++ l.newline d)))), ?_⟩
    rw [Value.render]
    simp

/-- An object as it is written: everything but its last brace leaves it open. -/
theorem closes_obj (l : Layout) {members : List (Str × Value)} (hvalid : ValidMembers members)
    (hdepth : depthMembers members < maxNestingDepth) :
    ∃ body, (Value.obj members).render l 0 = body ++ ['\x7d'] ∧
      Closes (Scanner.start.run body) '\x7d' (.obj members) [] := by
  rcases members with _ | ⟨⟨k, v⟩, members⟩
  · exact ⟨['\x7b'], rfl, rfl, rfl⟩
  · simp only [depthMembers] at hdepth
    have hfirst := readAs_render l v 1 hvalid.1 [.obj [] k] (by rw [List.length_singleton]; omega)
    have hlast := closes_renderMembers l members 1 hvalid.2
      (by rw [List.length_nil]; omega) hfirst 0
    refine ⟨'\x7b' :: (l.newline 1 ++ (quote k ++ ':' :: (l.space ++ (v.render l 1 ++
      (renderMembers l 1 members ++ l.newline 0))))), ?_, ?_⟩
    · rw [Value.render]
      simp
    · change Closes (Scanner.run ⟨.firstKey, [.obj [] []]⟩ _) _ _ _
      rw [run_append, run_spaces (fun c hc => step_space_beforeKey (.inl rfl) _ hc)
        (l.newline_isSpace _), run_key (.inl rfl), run_append]
      exact hlast

/-! ## The end of a file -/

theorem runTop_error (stack : List Frame) (text : Str) :
    Scanner.runTop ⟨.error, stack⟩ text = ⟨.error, stack⟩ := by
  induction text with
  | nil => rfl
  | cons c text ih => exact ih

/-- Behind a value only white space may stand. -/
theorem runTop_done (v : Value) (text : Str) :
    Scanner.runTop ⟨.done v, []⟩ text = ⟨if text.all isSpace then .done v else .error, []⟩ := by
  induction text with
  | nil => rfl
  | cons c text ih =>
    have hcons : Scanner.runTop ⟨.done v, []⟩ (c :: text) =
        Scanner.runTop (if isSpace c then ⟨.done v, []⟩ else ⟨.error, []⟩) text := rfl
    rw [hcons, List.all_cons]
    cases isSpace c with
    | true => exact ih
    | false => exact runTop_error [] text

/-- A file with an object is read as it was written, whatever the white space behind it. -/
theorem unmarshal_render_append (l : Layout) {members : List (Str × Value)}
    (hvalid : ValidMembers members) (hdepth : depthMembers members < maxNestingDepth)
    (rest : Str) :
    unmarshal ((Value.obj members).render l 0 ++ rest) =
      if rest.all isSpace then some (.obj members) else none := by
  obtain ⟨body, hbody, hcloses⟩ := closes_obj l hvalid hdepth
  have hrun : Scanner.start.runTop (body ++ ['\x7d']) = ⟨.done (.obj members), []⟩ := by
    have hbefore := runTop_eq hcloses.not_closed
    unfold Scanner.runTop at hbefore ⊢
    rw [List.foldl_append, hbefore]
    exact (stepTop_eq hcloses.not_closed _).trans hcloses.2
  have hrest : Scanner.start.runTop (body ++ ['\x7d'] ++ rest) =
      ⟨if rest.all isSpace then .done (.obj members) else .error, []⟩ := by
    rw [← runTop_done, ← hrun]
    exact List.foldl_append
  rw [hbody, unmarshal, hrest]
  cases rest.all isSpace with
  | true => rfl
  | false => rfl

end go.json
