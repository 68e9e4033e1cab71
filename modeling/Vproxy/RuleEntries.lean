-- The forms of a rule entry. The loop of NewRuleManager tells five forms apart by the first
-- field and the number of fields, and skips what has none of them.
import Vproxy.Router

open go go.net

namespace vproxy

variable [Unicode]

/-! ## Forms -/

/-- The fields of an entry between its commas. -/
def entryFields (entry : Str) : List Str := ((trimSpace entry).splitOn ',').map trimSpace

inductive Form where
  | map (pattern target : Str)
  | intercept (pattern : Str)
  | ipCidr (cidr action : Str)
  /-- Exactly three fields. -/
  | typed (type pattern action : Str)
  | untyped (pattern action : Str)

/-- The form of an entry with the fields `f0`, `f1` and `more`. -/
def formOf (f0 f1 : Str) (more : List Str) : Form :=
  match more with
  | [] => if toUpper f0 = "INTERCEPT" then .intercept f1 else .untyped f0 f1
  | f2 :: rest =>
    if toUpper f0 = "MAP" then .map f1 f2
    else if toUpper f0 = "INTERCEPT" then .intercept f1
    else if toUpper f0 = "IP_CIDR" then .ipCidr f1 f2
    else if rest = [] then .typed f0 f1 f2
    else .untyped f0 f1

/-- What an entry of this form adds. -/
def Form.read : Form → Option Added
  | .map pattern target => some (addPattern "MAP" pattern .map target)
  | .intercept pattern => some (addPattern "INTERCEPT" pattern .intercept [])
  | .ipCidr cidr action =>
    match parseCidrAction (toUpper action), parseCIDR cidr with
    | some a, some n => some (.rule ⟨.ipCidr n, a, []⟩)
    | _, _ => none
  | .typed type pattern action =>
    (parseAction (toUpper action)).map fun a => addPattern (toUpper type) pattern a []
  | .untyped pattern action =>
    (parseAction (toUpper action)).map fun a => addPattern (toUpper pattern) pattern a []

theorem inactive_iff (t : Str) :
    inactive t = true ↔ t = [] ∨ (hasPrefix t "#" ∨ hasPrefix t "//") ∨
      hasPrefix (toUpper t) "DISABLED," := by
  simp only [inactive, Bool.or_eq_true, decide_eq_true_eq, or_assoc]

theorem parseEntry_of_inactive {e : Str} (h : inactive (trimSpace e)) : parseEntry e = none :=
  if_pos h

theorem parseEntry_fields {e f0 f1 : Str} {more : List Str} (h : ¬ inactive (trimSpace e))
    (hf : entryFields e = f0 :: f1 :: more) : parseEntry e = (formOf f0 f1 more).read := by
  unfold entryFields at hf
  unfold parseEntry
  rw [if_neg h, hf]
  dsimp only
  cases more with
  | nil =>
    unfold formOf
    dsimp only
    split <;> simp_all [Form.read]
  | cons f2 rest =>
    unfold formOf
    dsimp only
    split
    · simp_all [Form.read]
    split
    · simp_all [Form.read]
    split
    · cases hact : parseCidrAction (toUpper f2) <;> cases hcidr : parseCIDR f1 <;>
        simp [Form.read, hact, hcidr]
    split <;> rfl

theorem parseEntry_of_few {e : Str} (h : (entryFields e).length < 2) : parseEntry e = none := by
  unfold entryFields at h
  unfold parseEntry
  dsimp only
  split
  · rfl
  · split
    · rename_i hf
      rw [hf, List.length_cons, List.length_cons] at h
      omega
    · rfl

/-- An entry that adds something is active, has two fields, and adds what its form says. -/
theorem parseEntry_some {e : Str} {added : Added} (h : parseEntry e = some added) :
    ¬ inactive (trimSpace e) ∧ ∃ f0 f1 more, entryFields e = f0 :: f1 :: more ∧
      (formOf f0 f1 more).read = some added := by
  have hactive : ¬ inactive (trimSpace e) := by
    intro hoff
    rw [parseEntry_of_inactive hoff] at h
    cases h
  refine ⟨hactive, ?_⟩
  match hf : entryFields e with
  | [] | [_] =>
    rw [parseEntry_of_few (by simp [hf])] at h
    cases h
  | f0 :: f1 :: more =>
    refine ⟨f0, f1, more, rfl, ?_⟩
    rw [← parseEntry_fields hactive hf]
    exact h

/-! ## Skipped entries -/

/-- The action is unknown, or the network does not parse. -/
inductive Form.Faulty : Form → Prop
  | cidrAction {cidr action : Str} :
      parseCidrAction (toUpper action) = none → Faulty (.ipCidr cidr action)
  | cidr {cidr action : Str} : parseCIDR cidr = none → Faulty (.ipCidr cidr action)
  | typed {type pattern action : Str} :
      parseAction (toUpper action) = none → Faulty (.typed type pattern action)
  | untyped {pattern action : Str} :
      parseAction (toUpper action) = none → Faulty (.untyped pattern action)

/-- Why an entry is skipped. -/
inductive Skipped (e : Str) : Prop
  | blank (h : trimSpace e = [])
  | comment (h : hasPrefix (trimSpace e) "#" ∨ hasPrefix (trimSpace e) "//")
  | disabled (h : hasPrefix (toUpper (trimSpace e)) "DISABLED,")
  | fewFields (h : (entryFields e).length < 2)
  | faulty {f0 f1 : Str} {more : List Str} (hf : entryFields e = f0 :: f1 :: more)
      (h : (formOf f0 f1 more).Faulty)

theorem Form.read_eq_none (f : Form) : f.read = none ↔ f.Faulty := by
  constructor
  · intro h
    cases f with
    | map pattern target => cases h
    | intercept pattern => cases h
    | ipCidr cidr action =>
      cases hact : parseCidrAction (toUpper action) with
      | none => exact .cidrAction hact
      | some a =>
        cases hcidr : parseCIDR cidr with
        | none => exact .cidr hcidr
        | some n => simp [Form.read, hact, hcidr] at h
    | typed type pattern action => exact .typed (Option.map_eq_none_iff.mp h)
    | untyped pattern action => exact .untyped (Option.map_eq_none_iff.mp h)
  · intro h
    cases h with
    | cidrAction hact => simp [Form.read, hact]
    | @cidr cidr action hcidr =>
      cases hact : parseCidrAction (toUpper action) <;> simp [Form.read, hact, hcidr]
    | typed hact => exact Option.map_eq_none_iff.mpr hact
    | untyped hact => exact Option.map_eq_none_iff.mpr hact

/-- The loop adds nothing for exactly these entries. -/
theorem parseEntry_eq_none (e : Str) : parseEntry e = none ↔ Skipped e := by
  constructor
  · intro h
    by_cases hoff : inactive (trimSpace e)
    · rcases (inactive_iff _).mp hoff with hblank | hcomment | hdisabled
      · exact .blank hblank
      · exact .comment hcomment
      · exact .disabled hdisabled
    · match hf : entryFields e with
      | [] | [_] => exact .fewFields (by simp [hf])
      | f0 :: f1 :: more =>
        rw [parseEntry_fields hoff hf] at h
        exact .faulty hf ((formOf f0 f1 more).read_eq_none.mp h)
  · intro h
    by_cases hoff : inactive (trimSpace e)
    · exact parseEntry_of_inactive hoff
    · cases h with
      | blank h => exact absurd ((inactive_iff _).mpr (Or.inl h)) hoff
      | comment h => exact absurd ((inactive_iff _).mpr (Or.inr (Or.inl h))) hoff
      | disabled h => exact absurd ((inactive_iff _).mpr (Or.inr (Or.inr h))) hoff
      | fewFields h => exact parseEntry_of_few h
      | faulty hf h =>
        rw [parseEntry_fields hoff hf]
        exact (Form.read_eq_none _).mpr h

end vproxy
