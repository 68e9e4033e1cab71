-- Records as package encoding/json writes and reads them: one member for each field, under the name
-- of its tag, and none for an empty field that may be left out. A record is read into the value
-- that is there already.
import Vproxy.Floats
import Vproxy.JsonText
import Mathlib.Data.List.Basic

open go go.net floats

namespace go.json

/-! ## Codecs -/

/-- How the values of a type are written and read. A value may be left out. `kept` is what is left
of a value that was written and read into the zero value. -/
structure Codec (α : Type) where
  write : α → Option Value
  /-- Reads into an old value. -/
  read : α → Value → Option α
  zero : α
  kept : α → α
  depth : Nat
  read_write : ∀ x, (write x).elim (some zero) (read zero) = some (kept x)
  valid : ∀ x v, write x = some v → v.Valid ∧ v.depth ≤ depth

/-- The codec never leaves a value out, and never writes `null`. -/
def Codec.Total {α : Type} (c : Codec α) : Prop := ∀ x, ∃ v, c.write x = some v ∧ v ≠ .null

def bool : Codec Bool where
  write b := some (.bool b)
  read old
    | .bool b => some b
    | .null => some old
    | _ => none
  zero := false
  kept b := b
  depth := 0
  read_write _ := rfl
  valid
    | _, _, rfl => ⟨trivial, Nat.le_refl _⟩

def str : Codec Str where
  write s := some (.str s)
  read old
    | .str s => some s
    | .null => some old
    | _ => none
  zero := []
  kept s := s
  depth := 0
  read_write _ := rfl
  valid
    | _, _, rfl => ⟨trivial, Nat.le_refl _⟩

/-! ### Integers -/

theorem foldlM_digits {ds : Str} (h : ds.all isDigit = true) :
    ds.foldlM NumState.step .int = some .int := by
  induction ds with
  | nil => rfl
  | cons d ds ih =>
    rw [List.all_cons, Bool.and_eq_true] at h
    have hstep : NumState.step .int d = some .int := by simp [NumState.step, h.1]
    rw [List.foldlM_cons, hstep]
    exact ih h.2

/-- A positive number, with or without a sign before it. -/
theorem isNumber_of_pos {n : Nat} (h : 0 < n) :
    isNumber (itoa n) = true ∧ isNumber ('-' :: itoa n) = true := by
  obtain ⟨d, ds, hn, hzero⟩ := itoa_head h
  have hall := all_isDigit_itoa n
  rw [hn, List.all_cons, Bool.and_eq_true] at hall
  obtain ⟨hd, hds⟩ := hall
  have hminus : d ≠ '-' := by
    rintro rfl
    cases hd
  have hbegin : NumState.begin d = some .int := by
    rw [NumState.begin, if_neg hminus, if_neg hzero, if_pos hd]
  have hsigned : NumState.step .neg d = some .int := by simp [NumState.step, hzero, hd]
  rw [hn]
  constructor
  · rw [isNumber, hbegin, Option.bind_some, foldlM_digits hds]
    rfl
  · change (((d :: ds).foldlM NumState.step .neg).any NumState.accepts) = true
    rw [List.foldlM_cons, hsigned]
    change ((ds.foldlM NumState.step .int).any NumState.accepts) = true
    rw [foldlM_digits hds]
    rfl

theorem isNumber_intLiteral (n : Int) : isNumber (intLiteral n) = true := by
  unfold intLiteral
  split
  · exact (isNumber_of_pos (by omega)).2
  · rcases Nat.eq_zero_or_pos n.natAbs with hzero | hpos
    · rw [hzero]
      decide
    · exact (isNumber_of_pos hpos).1

/-- What an `int` is written as gives the `int`. -/
theorem atoi_intLiteral (n : Int64) : atoi (intLiteral n.toInt) = (n.toInt, true) := by
  have hle := n.le_toInt
  have hlt := n.toInt_lt
  have hmax : maxInt = 9223372036854775807 := rfl
  unfold intLiteral
  split
  · rename_i hneg
    have hsome : ¬ (itoa n.toInt.natAbs = [] ∨ ¬ (itoa n.toInt.natAbs).all isDigit) := by
      rw [not_or, not_not]
      exact ⟨Nat.toDigits_ne_nil, all_isDigit_itoa _⟩
    have hsigned : signed ('-' :: itoa n.toInt.natAbs) = (true, itoa n.toInt.natAbs) := rfl
    rw [atoi_signed, hsigned, if_neg hsome, if_pos rfl, decimal_itoa, if_pos (by omega)]
    congr 1
    omega
  · rcases Nat.eq_zero_or_pos n.toInt.natAbs with hzero | hpos
    · rw [hzero, Int.natAbs_eq_zero.mp hzero]
      decide
    · rw [atoi_itoa hpos (by omega)]
      congr 1
      omega

/-- `int`. -/
def int : Codec Int64 where
  write n := some (.num (intLiteral n.toInt))
  read old
    | .num literal => let (n, ok) := atoi literal; if ok then some (Int64.ofInt n) else none
    | .null => some old
    | _ => none
  zero := 0
  kept n := n
  depth := 0
  read_write n := by
    simp [atoi_intLiteral]
  valid
    | n, _, rfl => ⟨isNumber_intLiteral _, Nat.le_refl _⟩

/-! ### Numbers with a fraction -/

/-- A `float64` that is neither infinite nor NaN. A JSON text has no others. -/
structure FiniteF64 where
  val : F64
  finite : val.magnitude < 0x7FF0000000000000

def FiniteF64.zero : FiniteF64 := ⟨F64.zero, by decide⟩

/-- The texts of numbers, as package strconv has them: the shortest text is read as the number. -/
class FloatText where
  formatFloat : FiniteF64 → Str
  parseFloat : Str → Option FiniteF64
  isNumber_formatFloat : ∀ x, isNumber (formatFloat x) = true
  parseFloat_formatFloat : ∀ x, parseFloat (formatFloat x) = some x

/-- The laws can be met, if by longer texts: the bits as a number. -/
theorem floatTexts : Nonempty FloatText :=
  ⟨{ formatFloat := fun x => intLiteral x.val.bits.toNat
     parseFloat := fun s =>
       if h : (⟨BitVec.ofNat 64 (decimal s)⟩ : F64).magnitude < 0x7FF0000000000000 then
         some ⟨_, h⟩
       else none
     isNumber_formatFloat := fun _ => isNumber_intLiteral _
     parseFloat_formatFloat := fun x => by
       have hbits : (⟨BitVec.ofNat 64 (decimal (intLiteral x.val.bits.toNat))⟩ : F64) = x.val := by
         rw [intLiteral, if_neg (by omega), Int.natAbs_natCast, decimal_itoa, BitVec.ofNat_toNat,
           BitVec.setWidth_eq]
       simp only [hbits]
       rw [dif_pos x.finite] }⟩

/-- `float64`. -/
def float64 [FloatText] : Codec FiniteF64 where
  write x := some (.num (FloatText.formatFloat x))
  read old
    | .num literal => FloatText.parseFloat literal
    | .null => some old
    | _ => none
  zero := .zero
  kept x := x
  depth := 0
  read_write := FloatText.parseFloat_formatFloat
  valid
    | x, _, rfl => ⟨FloatText.isNumber_formatFloat x, Nat.le_refl _⟩

/-! ### Lists of strings -/

/-- The items of an array of strings, read over the old ones. -/
def readStrs : List Str → List Value → Option (List Str)
  | _, [] => some []
  | old, .str s :: items => (readStrs old.tail items).map (s :: ·)
  | old, .null :: items => (readStrs old.tail items).map (old.headD [] :: ·)
  | _, _ :: _ => none

theorem readStrs_map (old l : List Str) : readStrs old (l.map .str) = some l := by
  induction l generalizing old with
  | nil => rfl
  | cons s l ih => rw [List.map_cons, readStrs, ih, Option.map_some]

theorem validItems_map_str (l : List Str) :
    ValidItems (l.map .str) ∧ depthItems (l.map .str) = 0 := by
  induction l with
  | nil => exact ⟨trivial, rfl⟩
  | cons s l ih => exact ⟨⟨trivial, ih.1⟩, by simp [depthItems, Value.depth, ih.2]⟩

/-- `[]string`, where `nil` is another value than the empty slice. -/
def strs : Codec (Option (List Str)) where
  write
    | none => some .null
    | some l => some (.arr (l.map .str))
  read old
    | .arr items => (readStrs (old.getD []) items).map some
    | .null => some none
    | _ => none
  zero := none
  kept l := l
  depth := 1
  read_write
    | none => rfl
    | some l => by simp [readStrs_map]
  valid
    | none, _, rfl => ⟨trivial, Nat.zero_le _⟩
    | some l, _, rfl => by
      obtain ⟨hvalid, hdepth⟩ := validItems_map_str l
      exact ⟨hvalid, by simp [Value.depth, hdepth]⟩

/-! ### Empty values and pointers -/

/-- The option `omitempty`. -/
def omitempty {α : Type} (c : Codec α) (empty : α → Bool) (kept : α → α)
    (h : ∀ x, kept x = if empty x then c.zero else c.kept x) : Codec α where
  write x := if empty x then none else c.write x
  read := c.read
  zero := c.zero
  kept := kept
  depth := c.depth
  read_write x := by
    rw [h]
    split
    · rfl
    · exact c.read_write x
  valid x v h := by
    split at h
    · cases h
    · exact c.valid x v h

/-- A pointer that is left out when it is `nil`. -/
def pointer {α : Type} (c : Codec α) (h : c.Total) (kept : Option α → Option α)
    (hkept : ∀ p, kept p = p.map c.kept) : Codec (Option α) where
  write p := p.bind c.write
  read old
    | .null => some none
    | v => (c.read (old.getD c.zero) v).map some
  zero := none
  kept := kept
  depth := c.depth
  read_write
    | none => by rw [hkept, Option.bind_none, Option.elim_none, Option.map_none]
    | some x => by
      obtain ⟨v, hv, hne⟩ := h x
      have hread := c.read_write x
      rw [hv] at hread
      have hsome : (c.read c.zero v).map some = some (some (c.kept x)) :=
        congrArg (Option.map some) hread
      rw [Option.bind_some, hv, hkept]
      cases v with
      | null => exact absurd rfl hne
      | bool | num | str | arr | obj => exact hsome
  valid
    | none, v, hv => by cases hv
    | some x, v, hv => c.valid x v hv

/-! ## Records -/

/-- `foldRune`, for the characters that may stand for a letter of a name. -/
def foldRune (c : Char) : Char :=
  if c.toNat = 0x212a then 'K' else if c.toNat = 0x17f then 'S' else c.toUpper

/-- The key is the name, up to the case of letters. -/
def isName (name key : Str) : Bool := name.map foldRune == key.map foldRune

/-- A field of a record, under its name. -/
structure StructField (σ : Type) where
  name : Str
  write : σ → Option Value
  read : σ → Value → Option σ
  depth : Nat
  valid : ∀ s v, write s = some v → v.Valid ∧ v.depth ≤ depth

/-- A field with the codec of its type. -/
def StructField.of {σ α : Type} (name : Str) (c : Codec α) (get : σ → α) (set : σ → α → σ) :
    StructField σ where
  name := name
  write s := c.write (get s)
  read s v := (c.read (get s) v).map (set s)
  depth := c.depth
  valid s v h := c.valid (get s) v h

section

variable {σ α : Type}

def writeMembers (fields : List (StructField σ)) (s : σ) : List (Str × Value) :=
  fields.filterMap fun f => (f.write s).map (f.name, ·)

/-- Keys that are no name are passed over. -/
def readMember (fields : List (StructField σ)) (s : σ) (m : Str × Value) : Option σ :=
  match fields.find? fun f => isName f.name m.1 with
  | none => some s
  | some f => f.read s m.2

def readMembers (fields : List (StructField σ)) (s : σ) (members : List (Str × Value)) : Option σ :=
  members.foldlM (readMember fields) s

/-- No two fields have one name. -/
def Distinct (fields : List (StructField σ)) : Prop :=
  (fields.map StructField.name).Pairwise fun a b => isName a b = false

instance (fields : List (StructField σ)) : Decidable (Distinct fields) :=
  inferInstanceAs (Decidable (List.Pairwise _ _))

/-- A field of `s` is written, and read into another record. -/
def StructField.copy (s acc : σ) (f : StructField σ) : Option σ :=
  (f.write s).elim (some acc) (f.read acc)

/-- Each member is read into the field it was written from. -/
theorem readMembers_writeMembers {fields : List (StructField σ)} (h : Distinct fields) (s acc : σ) :
    readMembers fields acc (writeMembers fields s) = fields.foldlM (StructField.copy s) acc := by
  -- The induction is on what is left of the fields.
  have hrest : ∀ before rest, fields = before ++ rest → ∀ acc,
      readMembers fields acc (writeMembers rest s) = rest.foldlM (StructField.copy s) acc := by
    intro before rest hsplit
    induction rest generalizing before with
    | nil =>
      intro acc
      rfl
    | cons f rest ih =>
      intro acc
      have hih := ih (before ++ [f]) (by rw [hsplit, List.append_assoc]; rfl)
      rw [List.foldlM_cons, StructField.copy]
      cases hwrite : f.write s with
      | none =>
        have hskip : writeMembers (f :: rest) s = writeMembers rest s := by
          simp [writeMembers, hwrite]
        rw [hskip]
        exact hih acc
      | some v =>
        have hcons : writeMembers (f :: rest) s = (f.name, v) :: writeMembers rest s := by
          simp [writeMembers, hwrite]
        have hfind : fields.find? (fun g => isName g.name f.name) = some f := by
          unfold Distinct at h
          rw [hsplit, List.map_append, List.pairwise_append] at h
          rw [hsplit, List.find?_append, List.find?_eq_none.mpr]
          · simp [isName]
          · intro g hg
            have hdiffer := h.2.2 g.name (List.mem_map_of_mem hg) f.name List.mem_cons_self
            simp [hdiffer]
        rw [hcons, readMembers, List.foldlM_cons, readMember, hfind]
        exact congrArg _ (funext hih)
  exact hrest [] fields rfl acc

/-- A field that is still zero takes what is kept of the value. -/
theorem StructField.copy_of {name : Str} {c : Codec α} {get : σ → α} {set : σ → α → σ} {acc : σ}
    (s : σ) (hzero : get acc = c.zero) (hset : set acc c.zero = acc) :
    (StructField.of name c get set).copy s acc = some (set acc (c.kept (get s))) := by
  have hread := c.read_write (get s)
  change (c.write (get s)).elim (some acc) (fun v => (c.read (get acc) v).map (set acc)) = _
  rw [hzero]
  cases hwrite : c.write (get s) with
  | none =>
    rw [hwrite] at hread
    rw [Option.elim_none, ← Option.some.inj hread, hset]
  | some v =>
    rw [hwrite, Option.elim_some] at hread
    rw [Option.elim_some, hread, Option.map_some]

theorem foldlM_copy_of {name : Str} {c : Codec α} {get : σ → α} {set : σ → α → σ} {acc : σ}
    {fields : List (StructField σ)} (s : σ) (hzero : get acc = c.zero)
    (hset : set acc c.zero = acc) :
    (StructField.of name c get set :: fields).foldlM (StructField.copy s) acc =
      fields.foldlM (StructField.copy s) (set acc (c.kept (get s))) := by
  rw [List.foldlM_cons, StructField.copy_of s hzero hset]
  rfl

/-- The depth of the deepest field. -/
def deepest (fields : List (StructField σ)) : Nat := fields.foldr (fun f n => max f.depth n) 0

theorem valid_writeMembers (fields : List (StructField σ)) (s : σ) :
    ValidMembers (writeMembers fields s) ∧
      depthMembers (writeMembers fields s) ≤ deepest fields := by
  induction fields with
  | nil => exact ⟨trivial, Nat.zero_le _⟩
  | cons f fields ih =>
    obtain ⟨hvalid, hdepth⟩ := ih
    have hdeepest : deepest (f :: fields) = max f.depth (deepest fields) := rfl
    rw [hdeepest]
    cases hwrite : f.write s with
    | none =>
      have hskip : writeMembers (f :: fields) s = writeMembers fields s := by
        simp [writeMembers, hwrite]
      rw [hskip]
      exact ⟨hvalid, hdepth.trans (Nat.le_max_right _ _)⟩
    | some v =>
      have hcons : writeMembers (f :: fields) s = (f.name, v) :: writeMembers fields s := by
        simp [writeMembers, hwrite]
      obtain ⟨hv, hvdepth⟩ := f.valid s v hwrite
      rw [hcons]
      refine ⟨⟨hv, hvalid⟩, ?_⟩
      rw [depthMembers]
      omega

/-- The type of a record. `kept` is what its fields keep. -/
def record (fields : List (StructField σ)) (zero : σ) (kept : σ → σ) (hdistinct : Distinct fields)
    (hkept : ∀ s, fields.foldlM (StructField.copy s) zero = some (kept s)) : Codec σ where
  write s := some (.obj (writeMembers fields s))
  read old
    | .obj members => readMembers fields old members
    | .null => some old
    | _ => none
  zero := zero
  kept := kept
  depth := deepest fields + 1
  read_write s := (readMembers_writeMembers hdistinct s zero).trans (hkept s)
  valid s v h := by
    obtain ⟨hvalid, hle⟩ := valid_writeMembers fields s
    cases h
    refine ⟨hvalid, ?_⟩
    rw [Value.depth]
    omega

end

/-! ## Texts -/

section

variable {α : Type} (c : Codec α)

/-- `json.Unmarshal` into a zero value. -/
def Codec.unmarshal (text : Str) : Option α := (json.unmarshal text).bind (c.read c.zero)

/-- `Decode` into a zero value. -/
def Codec.decode (text : Str) : Option α := (json.decode text).bind (c.read c.zero)

/-- The text of a record gives what is kept of it, if only white space stands behind it. -/
theorem Codec.unmarshal_append {x : α} {members : List (Str × Value)}
    (hwrite : c.write x = some (.obj members)) (hdepth : c.depth ≤ maxNestingDepth) (l : Layout)
    (rest : Str) :
    c.unmarshal ((Value.obj members).render l 0 ++ rest) =
      if rest.all isSpace then some (c.kept x) else none := by
  obtain ⟨hvalid, hle⟩ := c.valid x _ hwrite
  rw [Value.depth] at hle
  have hread := c.read_write x
  rw [hwrite, Option.elim_some] at hread
  rw [Codec.unmarshal, unmarshal_render_append l hvalid (by omega)]
  cases rest.all isSpace with
  | true => exact hread
  | false => rfl

end

end go.json
