-- UTF-8 as Go reads it: a byte that begins no character stands for U+FFFD. What was encoded is
-- decoded again, and a byte below 128 is a character of its own wherever it stands.
import Vproxy.Strings

open go

namespace go.utf8

def encode (s : Str) : List UInt8 := s.flatMap String.utf8EncodeChar

/-- `DecodeRune`: the first character, if the bytes begin with one. -/
def decodeRune? (bytes : List UInt8) : Option Char := bytes.toByteArray.utf8DecodeChar? 0

/-- A text from its bytes. -/
def decode (bytes : List UInt8) : Str :=
  match bytes with
  | [] => []
  | b :: rest =>
    match decodeRune? (b :: rest) with
    | some c => c :: decode (rest.drop (c.utf8Size - 1))
    | none => '\ufffd' :: decode rest
termination_by bytes.length
decreasing_by
  · simp only [List.length_drop, List.length_cons]
    omega
  · exact Nat.lt_succ_self _

theorem encode_append (s t : Str) : encode (s ++ t) = encode s ++ encode t :=
  List.flatMap_append

theorem decodeRune?_encode (c : Char) (rest : List UInt8) :
    decodeRune? (String.utf8EncodeChar c ++ rest) = some c := by
  unfold decodeRune?
  rw [List.toByteArray_append]
  exact ByteArray.utf8DecodeChar?_utf8EncodeChar_append

/-- A first character is the one whose bytes stand in front. -/
theorem decodeRune?_eq_some {bytes : List UInt8} {c : Char} (h : decodeRune? bytes = some c) :
    ∃ rest, bytes = String.utf8EncodeChar c ++ rest := by
  obtain ⟨rest, hrest⟩ := ByteArray.exists_of_utf8DecodeChar?_eq_some h
  refine ⟨rest.data.toList, ?_⟩
  have hdata := congrArg (fun b : ByteArray => b.data.toList) hrest
  simpa only [List.toList_data_toByteArray, ByteArray.data_append, Array.toList_append] using hdata

theorem decode_cons_append (c : Char) (rest : List UInt8) :
    decode (String.utf8EncodeChar c ++ rest) = c :: decode rest := by
  have hrune := decodeRune?_encode c rest
  have hlength := String.length_utf8EncodeChar c
  have hpos := c.utf8Size_pos
  cases hencode : String.utf8EncodeChar c with
  | nil =>
    rw [hencode, List.length_nil] at hlength
    omega
  | cons b tail =>
    rw [hencode, List.length_cons] at hlength
    rw [hencode, List.cons_append] at hrune
    rw [List.cons_append, decode, hrune]
    dsimp only
    rw [← hlength, Nat.add_sub_cancel, List.drop_left]

theorem decode_append (s : Str) (rest : List UInt8) :
    decode (encode s ++ rest) = s ++ decode rest := by
  induction s with
  | nil => rfl
  | cons c s ih =>
    have hcons : encode (c :: s) = String.utf8EncodeChar c ++ encode s := rfl
    rw [hcons, List.append_assoc, decode_cons_append, ih]
    rfl

theorem utf8EncodeChar_ascii {b : UInt8} (hb : b.toNat < 128) :
    String.utf8EncodeChar (Char.ofNat b.toNat) = [b] := by
  have hall : ∀ n : Fin 128, String.utf8EncodeChar (Char.ofNat n) = [UInt8.ofNat n] := by decide
  rw [hall ⟨b.toNat, hb⟩, UInt8.ofNat_toNat]

theorem or_ge (x : UInt8) {y : UInt8} (hy : 128 ≤ y.toNat) : 128 ≤ (x ||| y).toNat := by
  rw [UInt8.toNat_or]
  exact hy.trans Nat.right_le_or

/-- The bytes of a longer character are at least 128. -/
theorem nonascii_bytes {c : Char} (h : 1 < c.utf8Size) :
    ∀ b ∈ String.utf8EncodeChar c, 128 ≤ b.toNat := by
  intro b hb
  rcases c.utf8Size_eq with hsize | hsize | hsize | hsize
  · omega
  · rw [String.utf8EncodeChar_eq_cons_cons hsize] at hb
    simp only [List.mem_cons, List.not_mem_nil, or_false] at hb
    rcases hb with rfl | rfl
    all_goals exact or_ge _ (by decide)
  · rw [String.utf8EncodeChar_eq_cons_cons_cons hsize] at hb
    simp only [List.mem_cons, List.not_mem_nil, or_false] at hb
    rcases hb with rfl | rfl | rfl
    all_goals exact or_ge _ (by decide)
  · rw [String.utf8EncodeChar_eq_cons_cons_cons_cons hsize] at hb
    simp only [List.mem_cons, List.not_mem_nil, or_false] at hb
    rcases hb with rfl | rfl | rfl | rfl
    all_goals exact or_ge _ (by decide)

theorem nil_of_ascii_last {c : Char} {front : List UInt8} {b : UInt8} (hb : b.toNat < 128)
    (h : String.utf8EncodeChar c = front ++ [b]) : front = [] := by
  have hlength := congrArg List.length h
  rw [String.length_utf8EncodeChar, List.length_append, List.length_singleton] at hlength
  by_contra hne
  have hpos := List.length_pos_of_ne_nil hne
  have hlong : 1 < c.utf8Size := by omega
  exact absurd (nonascii_bytes hlong b (by simp [h])) (Nat.not_le.mpr hb)

/-- A byte below 128 at the end is a character. -/
theorem decode_concat (bytes : List UInt8) {b : UInt8} (hb : b.toNat < 128) :
    ∃ front, decode (bytes ++ [b]) = front ++ [Char.ofNat b.toNat] := by
  induction hn : bytes.length using Nat.strongRecOn generalizing bytes with
  | ind n ih =>
  subst hn
  cases bytes with
  | nil =>
    have hone := decode_cons_append (Char.ofNat b.toNat) []
    rw [utf8EncodeChar_ascii hb] at hone
    exact ⟨[], by simpa [decode] using hone⟩
  | cons x rest =>
    cases hrune : decodeRune? (x :: rest ++ [b]) with
    | none =>
      obtain ⟨front, hfront⟩ := ih rest.length (by simp) rest rfl
      refine ⟨'\ufffd' :: front, ?_⟩
      rw [List.cons_append] at hrune ⊢
      rw [decode, hrune]
      dsimp only
      rw [hfront]
      rfl
    | some c =>
      obtain ⟨tail, htail⟩ := decodeRune?_eq_some hrune
      rcases List.eq_nil_or_concat tail with rfl | ⟨before, b', rfl⟩
      · rw [List.append_nil] at htail
        cases nil_of_ascii_last hb htail.symm
      · rw [List.concat_eq_append, ← List.append_assoc] at htail
        obtain ⟨hbefore, hbyte⟩ := List.append_inj' htail rfl
        obtain rfl := List.head_eq_of_cons_eq hbyte
        have hlength := congrArg List.length hbefore
        rw [List.length_append, String.length_utf8EncodeChar] at hlength
        have hpos := c.utf8Size_pos
        obtain ⟨front, hfront⟩ := ih before.length (by omega) before rfl
        refine ⟨c :: front, ?_⟩
        rw [hbefore, List.append_assoc, decode_cons_append, hfront]
        rfl

end go.utf8
