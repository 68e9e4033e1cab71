-- Machine words and the bytes that they are in memory. The machine is little-endian,
-- so a word that holds an address in network order has its first byte lowest.
import Mathlib.Algebra.Group.Nat.Defs
import Mathlib.Data.List.Basic

namespace words

/-! ## 32-bit words -/

/-- The word whose bytes in memory are `a`, `b`, `c`, `d`. -/
def leWord (a b c d : UInt8) : UInt32 :=
  ⟨(d.toBitVec ++ c.toBitVec ++ b.toBitVec ++ a.toBitVec : BitVec 32)⟩

/-- The byte of the word at offset `i` in memory. -/
def byteAt (w : UInt32) (i : Nat) : UInt8 := ⟨w.toBitVec.extractLsb' (8 * i) 8⟩

/-- The four bytes of the word in memory. -/
def leBytes (w : UInt32) : List UInt8 := [byteAt w 0, byteAt w 1, byteAt w 2, byteAt w 3]

/-- `htonl` and `ntohl`: the bytes in the other order. -/
def swap32 (w : UInt32) : UInt32 := leWord (byteAt w 3) (byteAt w 2) (byteAt w 1) (byteAt w 0)

/-- `htons` and `ntohs`. -/
def swap16 (w : UInt16) : UInt16 := UInt16.ofNat (w.toNat % 256 * 256 + w.toNat / 256)

@[simp] theorem leBytes_leWord (a b c d : UInt8) : leBytes (leWord a b c d) = [a, b, c, d] := by
  unfold leBytes leWord byteAt
  simp only [List.cons.injEq, and_true]
  refine ⟨?_, ?_, ?_, ?_⟩ <;>
  · apply UInt8.toBitVec_inj.mp
    ext i hi
    simp only [BitVec.getElem_extractLsb', BitVec.getLsbD_append]
    grind

@[simp] theorem leWord_leBytes (w : UInt32) :
    leWord (byteAt w 0) (byteAt w 1) (byteAt w 2) (byteAt w 3) = w := by
  unfold leWord byteAt
  apply UInt32.toBitVec_inj.mp
  ext i hi
  grind

theorem leBytes_injective {v w : UInt32} (h : leBytes v = leBytes w) : v = w := by
  simp only [leBytes, List.cons.injEq, and_true] at h
  obtain ⟨h0, h1, h2, h3⟩ := h
  rw [← leWord_leBytes v, ← leWord_leBytes w, h0, h1, h2, h3]

theorem leWord_inj {a b c d e f g h : UInt8} :
    leWord a b c d = leWord e f g h ↔ a = e ∧ b = f ∧ c = g ∧ d = h := by
  constructor
  · intro heq
    have := congrArg leBytes heq
    simpa using this
  · rintro ⟨rfl, rfl, rfl, rfl⟩
    rfl

/-- A mask works byte by byte. -/
theorem leWord_and (a b c d e f g h : UInt8) :
    leWord a b c d &&& leWord e f g h = leWord (a &&& e) (b &&& f) (c &&& g) (d &&& h) := by
  unfold leWord
  apply UInt32.toBitVec_inj.mp
  ext i hi
  simp only [UInt32.toBitVec_and, UInt8.toBitVec_and, BitVec.getElem_and, BitVec.getElem_append]
  grind

/-! ## 16-bit words -/

theorem toNat_swap16 (w : UInt16) : (swap16 w).toNat = w.toNat % 256 * 256 + w.toNat / 256 := by
  have := w.toNat_lt
  unfold swap16
  rw [UInt16.toNat_ofNat']
  omega

@[simp] theorem swap16_swap16 (w : UInt16) : swap16 (swap16 w) = w := by
  have := w.toNat_lt
  apply UInt16.toNat_inj.mp
  rw [toNat_swap16, toNat_swap16]
  omega

theorem swap16_inj {v w : UInt16} : swap16 v = swap16 w ↔ v = w := by
  constructor
  · intro h
    rw [← swap16_swap16 v, h, swap16_swap16]
  · rintro rfl
    rfl

theorem toNat_byteAt (w : UInt32) (i : Nat) :
    (byteAt w i).toNat = w.toNat / 2 ^ (8 * i) % 2 ^ 8 := by
  unfold byteAt
  rw [← UInt8.toNat_toBitVec, BitVec.extractLsb'_toNat, UInt32.toNat_toBitVec,
    Nat.shiftRight_eq_div_pow]

theorem toNat_leWord (a b c d : UInt8) :
    (leWord a b c d).toNat =
      a.toNat + 2 ^ 8 * b.toNat + 2 ^ 16 * c.toNat + 2 ^ 24 * d.toNat := by
  have h := leBytes_leWord a b c d
  simp only [leBytes, List.cons.injEq, and_true] at h
  obtain ⟨h0, h1, h2, h3⟩ := h
  have e0 := congrArg UInt8.toNat h0
  have e1 := congrArg UInt8.toNat h1
  have e2 := congrArg UInt8.toNat h2
  have e3 := congrArg UInt8.toNat h3
  rw [toNat_byteAt] at e0 e1 e2 e3
  have := (leWord a b c d).toNat_lt
  omega

/-- A port in network order in the upper half of a word, swapped, is in host order. -/
theorem swap32_upper (p : UInt16) : (swap32 (p.toUInt32 <<< 16)).toUInt16 = swap16 p := by
  have := p.toNat_lt
  have hshift : (p.toUInt32 <<< 16).toNat = p.toNat * 2 ^ 16 := by
    rw [UInt32.toNat_shiftLeft, Nat.shiftLeft_eq]
    simp only [UInt16.toNat_toUInt32, UInt32.reduceToNat, Nat.reduceMod, Nat.reducePow]
    omega
  apply UInt16.toNat_inj.mp
  unfold swap32
  rw [UInt32.toNat_toUInt16, toNat_leWord, toNat_swap16]
  simp only [toNat_byteAt, hshift, Nat.reducePow, Nat.reduceMul]
  have h3 : p.toNat * 65536 / 16777216 = p.toNat / 256 := by omega
  have h2 : p.toNat * 65536 / 65536 = p.toNat := by omega
  have h1 : p.toNat * 65536 / 256 % 256 = 0 := by omega
  have h0 : p.toNat * 65536 / 1 % 256 = 0 := by omega
  have hmod : p.toNat / 256 % 256 = p.toNat / 256 := by omega
  rw [h3, h2, h1, h0, hmod, Nat.mod_eq_of_lt]
  · omega
  · omega

/-! ## 64-bit words -/

/-- Two words in one of twice the size, the first one high. -/
theorem toNat_pack (hi lo : UInt32) :
    (hi.toUInt64 <<< 32 ||| lo.toUInt64).toNat = hi.toNat * 2 ^ 32 + lo.toNat := by
  have hhi := hi.toNat_lt
  have hlo := lo.toNat_lt
  have hmod : hi.toNat * 2 ^ 32 % 2 ^ 64 = hi.toNat * 2 ^ 32 := Nat.mod_eq_of_lt (by omega)
  rw [UInt64.toNat_or, UInt64.toNat_shiftLeft, UInt32.toNat_toUInt64, UInt32.toNat_toUInt64,
    show (32 : UInt64).toNat % 64 = 32 from rfl, Nat.shiftLeft_eq, hmod, ← Nat.shiftLeft_eq,
    Nat.shiftLeft_add_eq_or_of_lt hlo]

theorem high_pack (hi lo : UInt32) :
    ((hi.toUInt64 <<< 32 ||| lo.toUInt64) >>> 32).toUInt32 = hi := by
  have hhi := hi.toNat_lt
  have hlo := lo.toNat_lt
  apply UInt32.toNat_inj.mp
  rw [UInt64.toNat_toUInt32, UInt64.toNat_shiftRight, toNat_pack,
    show (32 : UInt64).toNat % 64 = 32 from rfl, Nat.shiftRight_eq_div_pow]
  omega

theorem low_pack (hi lo : UInt32) : (hi.toUInt64 <<< 32 ||| lo.toUInt64).toUInt32 = lo := by
  have hlo := lo.toNat_lt
  apply UInt32.toNat_inj.mp
  rw [UInt64.toNat_toUInt32, toNat_pack]
  omega
/-! ## Bytes in a long word -/

theorem toNat_byte_shiftLeft (b : UInt8) {s : UInt64} (hs : s.toNat ≤ 40) :
    (b.toUInt64 <<< s).toNat = 2 ^ s.toNat * b.toNat := by
  have hb := b.toNat_lt
  have hpow : 2 ^ s.toNat ≤ 2 ^ 40 := Nat.pow_le_pow_right (by decide) hs
  rw [UInt64.toNat_shiftLeft, Nat.mod_eq_of_lt (by omega : s.toNat < 64), UInt8.toNat_toUInt64,
    Nat.shiftLeft_eq, Nat.mul_comm, Nat.mod_eq_of_lt]
  calc 2 ^ s.toNat * b.toNat ≤ 2 ^ 40 * 2 ^ 8 := Nat.mul_le_mul hpow (by omega)
    _ < 2 ^ 64 := by decide

/-- One more byte below the bytes of a word. -/
theorem toNat_or_byte {x : UInt64} (b : UInt8) {s : UInt64} (hs : s.toNat ≤ 40)
    (hx : 2 ^ (s.toNat + 8) ∣ x.toNat) :
    (x ||| b.toUInt64 <<< s).toNat = x.toNat + 2 ^ s.toNat * b.toNat ∧
      2 ^ s.toNat ∣ (x ||| b.toUInt64 <<< s).toNat := by
  obtain ⟨a, ha⟩ := hx
  have hlt : 2 ^ s.toNat * b.toNat < 2 ^ (s.toNat + 8) := by
    rw [Nat.pow_add]
    exact Nat.mul_lt_mul_of_pos_left b.toNat_lt (Nat.two_pow_pos _)
  have hor : (x ||| b.toUInt64 <<< s).toNat = x.toNat + 2 ^ s.toNat * b.toNat := by
    rw [UInt64.toNat_or, toNat_byte_shiftLeft b hs, ha, Nat.two_pow_add_eq_or_of_lt hlt]
  refine ⟨hor, ?_⟩
  rw [hor, ha, Nat.pow_add, Nat.mul_assoc, ← Nat.mul_add]
  exact Nat.dvd_mul_right _ _

/-! ## Numbers and words in a list of bytes -/

/-- The number in the bytes `i` and `i + 1`, the first one high. -/
def twoBytes (b : List UInt8) (i : Nat) : Nat :=
  (b.getD i 0).toNat <<< 8 ||| (b.getD (i + 1) 0).toNat

/-- `binary.BigEndian.Uint16`. -/
def beUint16 (b : List UInt8) : Nat := twoBytes b 0

/-- The word at an offset, in the byte order of the machine. -/
def wordAt (b : List UInt8) (i : Nat) : UInt32 :=
  leWord (b.getD i 0) (b.getD (i + 1) 0) (b.getD (i + 2) 0) (b.getD (i + 3) 0)

/-- `binary.BigEndian.Uint32`: the first byte is the highest. -/
def beUint32 (b : List UInt8) : UInt32 :=
  leWord (b.getD 3 0) (b.getD 2 0) (b.getD 1 0) (b.getD 0 0)

theorem beUint16_cons (hi lo : UInt8) (rest : List UInt8) :
    beUint16 (hi :: lo :: rest) = 256 * hi.toNat + lo.toNat := by
  change hi.toNat <<< 8 ||| lo.toNat = _
  rw [← Nat.shiftLeft_add_eq_or_of_lt lo.toNat_lt, Nat.shiftLeft_eq]
  omega

theorem toNat_beUint32 (a b c d : UInt8) : (beUint32 [a, b, c, d]).toNat =
    2 ^ 24 * a.toNat + 2 ^ 16 * b.toNat + 2 ^ 8 * c.toNat + d.toNat := by
  change (leWord d c b a).toNat = _
  rw [toNat_leWord]
  omega

theorem leBytes_beUint32 {b : List UInt8} (h : b.length = 4) :
    leBytes (beUint32 b) = b.reverse := by
  match b, h with
  | [x, y, z, w], _ => exact leBytes_leWord w z y x

/-- Each four bytes in the other order. -/
def mirrored : List UInt8 → List UInt8
  | a :: b :: c :: d :: rest => d :: c :: b :: a :: mirrored rest
  | rest => rest

/-- Each four bytes are the same from both ends. -/
def Mirrors : List UInt8 → Prop
  | a :: b :: c :: d :: rest => a = d ∧ b = c ∧ Mirrors rest
  | _ => True

@[simp] theorem length_mirrored (b : List UInt8) : (mirrored b).length = b.length := by
  fun_induction mirrored b with
  | case1 a b c d rest ih => simp only [List.length_cons, ih]
  | case2 rest h => rfl

theorem mirrored_eq_self (b : List UInt8) : mirrored b = b ↔ Mirrors b := by
  fun_induction mirrored b with
  | case1 a b c d rest ih =>
    simp only [List.cons.injEq, ih, Mirrors]
    constructor
    · rintro ⟨rfl, rfl, -, -, h⟩
      exact ⟨rfl, rfl, h⟩
    · rintro ⟨rfl, rfl, h⟩
      exact ⟨rfl, rfl, rfl, rfl, h⟩
  | case2 rest h => simp [Mirrors]

theorem mirrored_append {front : List UInt8} (h : front.length = 4) (rest : List UInt8) :
    mirrored (front ++ rest) = front.reverse ++ mirrored rest := by
  match front, h with
  | [x, y, z, w], _ => rfl

end words
