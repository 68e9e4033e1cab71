-- Names as DNS messages write them: each label after a byte with its length, and a zero at the
-- end. The writing can be read in one way only, and no part of it from the front is a writing.
-- Elsewhere in a message, two bytes may stand for a name that is written at an earlier place.
import Mathlib.Data.List.TakeDrop

namespace dns_names

abbrev Label := List UInt8

/-- The bytes of a name. -/
def encode : List Label → List UInt8
  | [] => [0]
  | l :: ls => UInt8.ofNat l.length :: (l ++ encode ls)

/-- Labels that are not empty and not longer than this. -/
def Labels (limit : Nat) (ls : List Label) : Prop := ∀ l ∈ ls, l ≠ [] ∧ l.length ≤ limit

instance (limit : Nat) (ls : List Label) : Decidable (Labels limit ls) :=
  inferInstanceAs (Decidable (∀ l ∈ ls, _))

/-- The message has this name at this place. -/
inductive NameAt (msg : List UInt8) : Nat → List Label → Prop
  | root {i : Nat} : msg[i]? = some 0 → NameAt msg i []
  | label {i : Nat} {l : Label} {ls : List Label} : l ≠ [] → l.length ≤ 63 →
      msg[i]? = some (UInt8.ofNat l.length) → (msg.drop (i + 1)).take l.length = l →
      NameAt msg (i + 1 + l.length) ls → NameAt msg i (l :: ls)
  | pointer {i : Nat} {hi lo : UInt8} {ls : List Label} : 0xc0 ≤ hi → msg[i]? = some hi →
      msg[i + 1]? = some lo → NameAt msg (256 * (hi.toNat - 0xc0) + lo.toNat) ls → NameAt msg i ls

theorem Labels.cons {limit : Nat} {l : Label} {ls : List Label} :
    Labels limit (l :: ls) ↔ (l ≠ [] ∧ l.length ≤ limit) ∧ Labels limit ls :=
  List.forall_mem_cons

theorem Labels.mono {limit limit' : Nat} {ls : List Label} (h : Labels limit ls)
    (hle : limit ≤ limit') : Labels limit' ls :=
  fun l hl => ⟨(h l hl).1, Nat.le_trans (h l hl).2 hle⟩

theorem encode_ne_nil (ls : List Label) : encode ls ≠ [] := by
  cases ls <;> exact List.cons_ne_nil _ _

theorem toNat_length {l : Label} (h : l.length ≤ 255) : (UInt8.ofNat l.length).toNat = l.length := by
  rw [UInt8.toNat_ofNat']
  omega

theorem length_ne_zero {l : Label} (hne : l ≠ []) (h : l.length ≤ 255) :
    UInt8.ofNat l.length ≠ 0 := by
  intro hzero
  have hlen := toNat_length h
  rw [hzero] at hlen
  exact hne (List.length_eq_zero_iff.mp hlen.symm)

/-- What is written can be read in one way. -/
theorem encode_append_inj {ls ls' : List Label} {rest rest' : List UInt8} (h : Labels 255 ls)
    (h' : Labels 255 ls') (heq : encode ls ++ rest = encode ls' ++ rest') :
    ls = ls' ∧ rest = rest' := by
  induction ls generalizing ls' with
  | nil =>
    cases ls' with
    | nil => exact ⟨rfl, (List.cons.inj heq).2⟩
    | cons l' ls' =>
      obtain ⟨⟨hne, hlen⟩, -⟩ := Labels.cons.mp h'
      exact absurd (List.cons.inj heq).1.symm (length_ne_zero hne hlen)
  | cons l ls ih =>
    obtain ⟨⟨hne, hlen⟩, hls⟩ := Labels.cons.mp h
    cases ls' with
    | nil => exact absurd (List.cons.inj heq).1 (length_ne_zero hne hlen)
    | cons l' ls' =>
      obtain ⟨⟨-, hlen'⟩, hls'⟩ := Labels.cons.mp h'
      obtain ⟨hcount, htail⟩ := List.cons.inj heq
      have hsame : l.length = l'.length := by
        rw [← toNat_length hlen, hcount, toNat_length hlen']
      have hbytes : l ++ (encode ls ++ rest) = l' ++ (encode ls' ++ rest') := by
        rw [← List.append_assoc, ← List.append_assoc]
        exact htail
      obtain ⟨rfl, hmore⟩ := List.append_inj hbytes hsame
      obtain ⟨rfl, hrest⟩ := ih hls hls' hmore
      exact ⟨rfl, hrest⟩

/-- No proper front part of a name is a name with something behind it. -/
theorem encode_ne_of_front {ls ls' : List Label} {front more rest : List UInt8}
    (h : Labels 255 ls) (h' : Labels 255 ls') (hsplit : encode ls = front ++ more)
    (hmore : more ≠ []) : front ≠ encode ls' ++ rest := by
  intro hfront
  have heq : encode ls ++ [] = encode ls' ++ (rest ++ more) := by
    rw [List.append_nil, hsplit, hfront, List.append_assoc]
  obtain ⟨-, hnil⟩ := encode_append_inj h h' heq
  exact hmore (List.append_eq_nil_iff.mp hnil.symm).2

/-- A name that does not start with the end starts with a label of the length that is said. -/
theorem encode_starts {ls : List Label} {b : UInt8} {tail rest : List UInt8} (h : Labels 255 ls)
    (heq : b :: tail = encode ls ++ rest) (hb : b ≠ 0) :
    ∃ l ls', ls = l :: ls' ∧ b.toNat = l.length ∧ tail = l ++ (encode ls' ++ rest) := by
  cases ls with
  | nil =>
    obtain ⟨rfl, -⟩ := List.cons.inj heq
    exact absurd rfl hb
  | cons l ls =>
    obtain ⟨rfl, htail⟩ := List.cons.inj heq
    refine ⟨l, ls, rfl, toNat_length (Labels.cons.mp h).1.2, ?_⟩
    rw [htail, ← List.append_assoc]
    rfl

/-- A label of the length that is said, before a name, is a name. -/
theorem encode_extends {ls : List Label} {b : UInt8} {tail rest : List UInt8} (h : Labels 255 ls)
    (heq : tail.drop b.toNat = encode ls ++ rest) (hb : b ≠ 0) (hlen : b.toNat ≤ tail.length) :
    Labels 255 (tail.take b.toNat :: ls) ∧
      b :: tail = encode (tail.take b.toNat :: ls) ++ rest := by
  have hcount : (tail.take b.toNat).length = b.toNat := by
    rw [List.length_take]
    omega
  have hlt := b.toNat_lt
  constructor
  · refine Labels.cons.mpr ⟨⟨?_, ?_⟩, h⟩
    · intro hnil
      rw [hnil] at hcount
      exact hb (UInt8.toNat_inj.mp hcount.symm)
    · omega
  · have hbyte : UInt8.ofNat b.toNat = b := UInt8.ofNat_toNat
    rw [encode, hcount, hbyte, List.cons_append, List.append_assoc, ← heq, List.take_append_drop]

/-- A name that is written at a place is the name there. -/
theorem nameAt_of_encode {msg rest : List UInt8} {ls : List Label} {i : Nat} (h : Labels 63 ls)
    (hmsg : msg.drop i = encode ls ++ rest) : NameAt msg i ls := by
  induction ls generalizing i with
  | nil =>
    refine .root ?_
    rw [← List.head?_drop, hmsg]
    rfl
  | cons l ls ih =>
    obtain ⟨⟨hne, hlen⟩, hls⟩ := Labels.cons.mp h
    have htail : msg.drop (i + 1) = l ++ (encode ls ++ rest) := by
      rw [← List.drop_drop, hmsg]
      simp [encode]
    refine .label hne hlen ?_ ?_ (ih hls ?_)
    · rw [← List.head?_drop, hmsg]
      rfl
    · rw [htail, List.take_left]
    · rw [← List.drop_drop, htail, List.drop_left]

end dns_names
