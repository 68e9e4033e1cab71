-- The whitelist of the tc filter (tc_linux.go, tc_redirect.c): Go writes the hardware
-- addresses and IPv4 addresses of the proxied devices into two hash maps, and the filter
-- looks the source of each frame up there. A removal reads addresses that no addition
-- takes, and cuts them.
import Vproxy.BoundedMap
import Vproxy.Ledger
import Vproxy.NetAddr
import Vproxy.Runs
import Vproxy.Words
import Mathlib.Tactic.IntervalCases

open go go.net words runs ledger

namespace go.net

/-! ## net.ParseMAC -/

/-- `xtoi2`: the two hexadecimal digits that the text starts with. A third character must
be `e`. -/
def xtoi2 (s : Str) (e : Char) : Option UInt8 :=
  match s with
  | h :: l :: rest =>
    if rest.head?.any (· ≠ e) then none
    else do
      let hi ← hexVal h
      let lo ← hexVal l
      some (UInt8.ofNat (16 * hi + lo))
  | _ => none

/-- The loop over pairs of digits, as in 01:23:45:67:89:ab. -/
def macPairs (sep : Char) : Nat → Str → Option (List UInt8)
  | 0, _ => some []
  | n + 1, s => do
    let b ← xtoi2 s sep
    let rest ← macPairs sep n (s.drop 3)
    some (b :: rest)

/-- The loop over groups of four digits, as in 0123.4567.89ab. -/
def macQuads : Nat → Str → Option (List UInt8)
  | 0, _ => some []
  | n + 1, s => do
    let b ← xtoi2 (s.take 2) (Char.ofNat 0)
    let c ← xtoi2 (s.drop 2) '.'
    let rest ← macQuads n (s.drop 5)
    some (b :: c :: rest)

/-- The lengths of EUI-48, EUI-64 and IPoIB addresses. -/
def macLength (n : Nat) : Bool := n == 6 || n == 8 || n == 20

def parseMAC (s : Str) : Option (List UInt8) :=
  if s.length < 14 then none
  else if s.getD 2 ' ' = ':' ∨ s.getD 2 ' ' = '-' then
    if (s.length + 1) % 3 ≠ 0 ∨ ¬ macLength ((s.length + 1) / 3) then none
    else macPairs (s.getD 2 ' ') ((s.length + 1) / 3) s
  else if s.getD 4 ' ' = '.' then
    if (s.length + 1) % 5 ≠ 0 ∨ ¬ macLength (2 * (s.length + 1) / 5) then none
    else macQuads ((s.length + 1) / 5) s
  else none

theorem length_macPairs {sep : Char} {n : Nat} {s : Str} {hw : List UInt8}
    (h : macPairs sep n s = some hw) : hw.length = n := by
  induction n generalizing s hw with
  | zero =>
    cases h
    rfl
  | succ n ih =>
    simp only [macPairs, Option.bind_eq_bind, Option.bind_eq_some_iff] at h
    obtain ⟨b, -, rest, hrest, heq⟩ := h
    cases heq
    rw [List.length_cons, ih hrest]

theorem length_macQuads {n : Nat} {s : Str} {hw : List UInt8} (h : macQuads n s = some hw) :
    hw.length = 2 * n := by
  induction n generalizing s hw with
  | zero =>
    cases h
    rfl
  | succ n ih =>
    simp only [macQuads, Option.bind_eq_bind, Option.bind_eq_some_iff] at h
    obtain ⟨b, -, c, -, rest, hrest, heq⟩ := h
    cases heq
    rw [List.length_cons, List.length_cons, ih hrest]
    omega

/-- A parsed hardware address has six bytes or more. -/
theorem length_parseMAC {s : Str} {hw : List UInt8} (h : parseMAC s = some hw) :
    hw.length = 6 ∨ hw.length = 8 ∨ hw.length = 20 := by
  unfold parseMAC at h
  split at h
  · cases h
  · split at h
    · split at h
      · cases h
      · rename_i hlen
        rw [length_macPairs h]
        simp only [macLength, not_or, Bool.or_eq_true, beq_iff_eq] at hlen
        tauto
    · split at h
      · split at h
        · cases h
        · rename_i hlen
          rw [length_macQuads h]
          simp only [macLength, not_or, Bool.or_eq_true, beq_iff_eq] at hlen
          have hdiv : 2 * (s.length + 1) / 5 = 2 * ((s.length + 1) / 5) := by omega
          rw [hdiv] at hlen
          tauto
      · cases h

end go.net

namespace vproxy.ebpf

/-! ## Keys -/

/-- `mac_to_u64`, and the key of both Go functions: the first six bytes, the first one on
top. -/
def macToU64 (mac : List UInt8) : UInt64 :=
  ((byte mac 0).toUInt64 <<< 40) ||| ((byte mac 1).toUInt64 <<< 32) |||
    ((byte mac 2).toUInt64 <<< 24) ||| ((byte mac 3).toUInt64 <<< 16) |||
    ((byte mac 4).toUInt64 <<< 8) ||| ((byte mac 5).toUInt64 <<< 0)

/-- The first byte in memory of the word that the host stores. -/
def isLittleEndian : Bool := byteAt 0x01020304 0 == 0x04

/-- The key of `AddIPToWhitelist` and `RemoveIPFromWhitelist`. -/
def ipKey (v4 : IP) : UInt32 :=
  if isLittleEndian then leWord (byte v4 0) (byte v4 1) (byte v4 2) (byte v4 3)
  else leWord (byte v4 3) (byte v4 2) (byte v4 1) (byte v4 0)

theorem toNat_macToU64 (mac : List UInt8) :
    (macToU64 mac).toNat =
      2 ^ 40 * (byte mac 0).toNat + 2 ^ 32 * (byte mac 1).toNat + 2 ^ 24 * (byte mac 2).toNat +
        2 ^ 16 * (byte mac 3).toNat + 2 ^ 8 * (byte mac 4).toNat + (byte mac 5).toNat := by
  have h0 : ((byte mac 0).toUInt64 <<< 40).toNat = 2 ^ 40 * (byte mac 0).toNat :=
    toNat_byte_shiftLeft _ (s := 40) (by decide)
  obtain ⟨h1, d1⟩ := toNat_or_byte (byte mac 1) (s := 32) (by decide) (h0 ▸ Nat.dvd_mul_right _ _)
  obtain ⟨h2, d2⟩ := toNat_or_byte (byte mac 2) (s := 24) (by decide) d1
  obtain ⟨h3, d3⟩ := toNat_or_byte (byte mac 3) (s := 16) (by decide) d2
  obtain ⟨h4, d4⟩ := toNat_or_byte (byte mac 4) (s := 8) (by decide) d3
  obtain ⟨h5, -⟩ := toNat_or_byte (byte mac 5) (s := 0) (by decide) d4
  unfold macToU64
  rw [h5, h4, h3, h2, h1, h0, UInt64.toNat_zero, Nat.pow_zero, Nat.one_mul]
  rfl

/-- Lists of one length with the same bytes. -/
theorem eq_of_bytes {a b : List UInt8} {n : Nat} (ha : a.length = n) (hb : b.length = n)
    (h : ∀ i < n, byte a i = byte b i) : a = b := by
  apply List.ext_getElem (ha.trans hb.symm)
  intro i hi hi'
  have := h i (by omega)
  simpa [byte, hi, hi'] using this

/-- Two addresses of six bytes have two keys. -/
theorem macToU64_injective {a b : List UInt8} (ha : a.length = 6) (hb : b.length = 6)
    (h : macToU64 a = macToU64 b) : a = b := by
  have hnat := congrArg UInt64.toNat h
  rw [toNat_macToU64, toNat_macToU64] at hnat
  have hlt := fun mac i => (byte mac i).toNat_lt
  have ha1 := hlt a 1
  have ha2 := hlt a 2
  have ha3 := hlt a 3
  have ha4 := hlt a 4
  have ha5 := hlt a 5
  have hb1 := hlt b 1
  have hb2 := hlt b 2
  have hb3 := hlt b 3
  have hb4 := hlt b 4
  have hb5 := hlt b 5
  apply eq_of_bytes ha hb
  intro i hi
  apply UInt8.toNat_inj.mp
  interval_cases i <;> omega

/-- The key of a longer address is that of its first six bytes. -/
theorem macToU64_take (mac : List UInt8) : macToU64 (mac.take 6) = macToU64 mac := by
  have hbyte : ∀ i, i < 6 → byte (mac.take 6) i = byte mac i := by
    intro i hi
    simp [byte, hi]
  simp only [macToU64, hbyte, Nat.reduceLT]

theorem ipKey_eq (v4 : IP) : ipKey v4 = leWord (byte v4 0) (byte v4 1) (byte v4 2) (byte v4 3) :=
  if_pos (by decide)

theorem ipKey_injective {a b : IP} (ha : a.length = 4) (hb : b.length = 4)
    (h : ipKey a = ipKey b) : a = b := by
  rw [ipKey_eq, ipKey_eq, leWord_inj] at h
  obtain ⟨h0, h1, h2, h3⟩ := h
  apply eq_of_bytes ha hb
  intro i hi
  interval_cases i <;> assumption

/-! ## The maps -/

structure TcMaps where
  macWhitelist : BoundedMap UInt64 UInt8 256
  ipWhitelist : BoundedMap UInt32 UInt8 1024

section Maps

variable {κ : Type} [DecidableEq κ] {cap : Nat}

/-- `Map.Put` of the value 1; a full map takes no new key. -/
def mapPut (m : BoundedMap κ UInt8 cap) (key : κ) : Option (BoundedMap κ UInt8 cap) :=
  if m.HasRoom key then some (m.update key 1) else none

/-- `Map.Delete`; a key that is not there is an error. -/
def mapDelete (m : BoundedMap κ UInt8 cap) (key : κ) : Option (BoundedMap κ UInt8 cap) :=
  if (m.lookup key).isSome then some (m.delete key) else none

end Maps

def addMacToWhitelist (t : TcMaps) (macStr : Str) : Option TcMaps := do
  let mac ← parseMAC macStr
  if mac.length ≠ 6 then none
  else (mapPut t.macWhitelist (macToU64 mac)).map (fun m => { t with macWhitelist := m })

/-- There is no test of the length here. -/
def removeMacFromWhitelist (t : TcMaps) (macStr : Str) : Option TcMaps := do
  let mac ← parseMAC macStr
  (mapDelete t.macWhitelist (macToU64 mac)).map (fun m => { t with macWhitelist := m })

def addIPToWhitelist (t : TcMaps) (ipStr : Str) : Option TcMaps := do
  let ip ← parseIP ipStr
  let v4 ← to4 ip
  (mapPut t.ipWhitelist (ipKey v4)).map (fun m => { t with ipWhitelist := m })

def removeIPFromWhitelist (t : TcMaps) (ipStr : Str) : Option TcMaps := do
  let ip ← parseIP ipStr
  let v4 ← to4 ip
  (mapDelete t.ipWhitelist (ipKey v4)).map (fun m => { t with ipWhitelist := m })

/-! ## The filter -/

/-- `tc_ingress`: the mark that the filter writes, where it writes one. The Ethernet
header has 14 bytes, the IPv4 header 20. -/
def tcIngress (proxyMark : UInt32) (t : TcMaps) (data : List UInt8) : Option UInt32 :=
  if data.length < 14 then none
  else if ¬ (byte data 12 = 0x08 ∧ byte data 13 = 0x00) then none -- ETH_P_IP
  else
    let existsMac := (t.macWhitelist.lookup (macToU64 (data.drop 6))).isSome
    let existsIP := 34 ≤ data.length && (t.ipWhitelist.lookup (wordAt data 26)).isSome
    if !(existsMac || existsIP) then none
    else if data.length < 34 then none
    else if wordAt data 30 = 0xFFFFFFFF then none
    else some proxyMark

/-- A frame with a complete IPv4 header. -/
structure IPv4Frame (data : List UInt8) : Prop where
  complete : 34 ≤ data.length
  protocol : byte data 12 = 0x08 ∧ byte data 13 = 0x00

def sourceMac (data : List UInt8) : List UInt8 := (data.drop 6).take 6

def sourceIP (data : List UInt8) : IP := (data.drop 26).take 4

def destinationIP (data : List UInt8) : IP := (data.drop 30).take 4

theorem wordAt_eq (data : List UInt8) (i : Nat) :
    wordAt data i = ipKey ((data.drop i).take 4) := by
  have hbyte : ∀ j, j < 4 → byte ((data.drop i).take 4) j = byte data (i + j) := by
    intro j hj
    simp [byte, hj]
  rw [ipKey_eq, hbyte 0 (by decide), hbyte 1 (by decide), hbyte 2 (by decide), hbyte 3 (by decide)]
  rfl

/-- The filter marks a frame when one of the lists has its source. -/
theorem tcIngress_isSome {data : List UInt8} (hdata : IPv4Frame data)
    (hdst : destinationIP data ≠ [255, 255, 255, 255]) (proxyMark : UInt32) (t : TcMaps) :
    (tcIngress proxyMark t data).isSome ↔
      (t.macWhitelist.lookup (macToU64 (sourceMac data))).isSome ∨
        (t.ipWhitelist.lookup (ipKey (sourceIP data))).isSome := by
  have hlen := hdata.complete
  have hshort : ¬ data.length < 14 := by omega
  have hfull : ¬ data.length < 34 := by omega
  have hbroadcast : wordAt data 30 ≠ 0xFFFFFFFF := by
    intro h
    apply hdst
    have hkey : (0xFFFFFFFF : UInt32) = ipKey [255, 255, 255, 255] := by decide
    rw [wordAt_eq, hkey] at h
    exact ipKey_injective (by simp [destinationIP]; omega) rfl h
  unfold tcIngress
  rw [if_neg hshort, if_neg (not_not.mpr hdata.protocol)]
  simp only [hfull, hbroadcast, if_false, decide_eq_true hlen, Bool.true_and]
  rw [wordAt_eq, sourceMac, macToU64_take, sourceIP, ← Bool.or_eq_true]
  cases (t.macWhitelist.lookup (macToU64 (data.drop 6))).isSome ||
    (t.ipWhitelist.lookup (ipKey ((data.drop 26).take 4))).isSome <;> simp

/-! ## Histories -/

inductive TcCall where
  | addMac (macStr : Str)
  | removeMac (macStr : Str)
  | addIP (ipStr : Str)
  | removeIP (ipStr : Str)
  deriving DecidableEq, Repr

def TcCall.exec (t : TcMaps) : TcCall → Option TcMaps
  | .addMac macStr => addMacToWhitelist t macStr
  | .removeMac macStr => removeMacFromWhitelist t macStr
  | .addIP ipStr => addIPToWhitelist t ipStr
  | .removeIP ipStr => removeIPFromWhitelist t ipStr

/-- The maps, with the calls so far and whether each returned without an error. -/
structure Tc where
  maps : TcMaps
  log : List (TcCall × Bool)

def Tc.step (t : Tc) (call : TcCall) : Tc :=
  ⟨(call.exec t.maps).getD t.maps, t.log ++ [(call, (call.exec t.maps).isSome)]⟩

/-- New maps, after the calls. -/
def Tc.after (calls : List TcCall) : Tc := run Tc.step ⟨⟨.empty, .empty⟩, []⟩ calls

/-- The hardware address that a call added with success. -/
def macAdded : TcCall × Bool → Option (List UInt8)
  | (.addMac macStr, true) => parseMAC macStr
  | _ => none

/-- The hardware address that a call was given to remove. -/
def macRemoved : TcCall × Bool → Option (List UInt8)
  | (.removeMac macStr, _) => parseMAC macStr
  | _ => none

def ipAdded : TcCall × Bool → Option IP
  | (.addIP ipStr, true) => (parseIP ipStr).bind to4
  | _ => none

def ipRemoved : TcCall × Bool → Option IP
  | (.removeIP ipStr, _) => (parseIP ipStr).bind to4
  | _ => none

/-- The address was added, and that same address not removed later. -/
def MacListed (log : List (TcCall × Bool)) (mac : List UInt8) : Prop :=
  Standing (fun e a => macAdded e = some a) (fun e a => macRemoved e = some a) log mac

/-- The address was added, and no address that starts with it removed later. -/
def MacKept (log : List (TcCall × Bool)) (mac : List UInt8) : Prop :=
  Standing (fun e a => macAdded e = some a) (fun e a => (macRemoved e).map (List.take 6) = some a)
    log mac

def IPListed (log : List (TcCall × Bool)) (ip : IP) : Prop :=
  Standing (fun e a => ipAdded e = some a) (fun e a => ipRemoved e = some a) log ip

/-! ## What a call does to one list -/

section Lists

variable {κ : Type} [DecidableEq κ] {cap n : Nat} {enc : List UInt8 → κ}
  {m m' : BoundedMap κ UInt8 cap}

/-- What a call can do to a map with the keys of addresses of `n` bytes: nothing, the key
of the address that it adds, or not the key of the address that it removes. -/
inductive Effect (enc : List UInt8 → κ) (n : Nat) (m : BoundedMap κ UInt8 cap) :
    BoundedMap κ UInt8 cap → Option (List UInt8) → Option (List UInt8) → Prop
  | nothing : Effect enc n m m none none
  | add (a : List UInt8) (hlen : a.length = n) (hroom : m.HasRoom (enc a)) :
      Effect enc n m (m.update (enc a) 1) (some a) none
  | remove (a : List UInt8) (hlen : a.length = n) :
      Effect enc n m (m.delete (enc a)) none (some a)

theorem mapDelete_getD (m : BoundedMap κ UInt8 cap) (key : κ) :
    (mapDelete m key).getD m = m.delete key := by
  unfold mapDelete
  by_cases hkey : (m.lookup key).isSome
  · rw [if_pos hkey, Option.getD_some]
  · rw [if_neg hkey, Option.getD_none, BoundedMap.delete_of_lookup_none]
    simpa using hkey

/-- The map has the keys of the addresses that stand, and still has after the call. -/
theorem lookup_of_effect {ε : Type} {added removed : ε → Option (List UInt8)} {log : List ε} {e : ε}
    (hinj : ∀ a b, a.length = n → b.length = n → enc a = enc b → a = b)
    (h : Effect enc n m m' (added e) (removed e)) {a : List UInt8} (ha : a.length = n)
    (hm : (m.lookup (enc a)).isSome ↔
      Standing (fun e a => added e = some a) (fun e a => removed e = some a) log a) :
    (m'.lookup (enc a)).isSome ↔
      Standing (fun e a => added e = some a) (fun e a => removed e = some a) (log ++ [e]) a := by
  rw [standing_concat]
  generalize added e = x at h ⊢
  generalize removed e = y at h ⊢
  cases h with
  | nothing => simpa using hm
  | add b hb hroom =>
    by_cases hab : b = a
    · subst hab
      simp [BoundedMap.lookup_update_self 1 hroom]
    · have hkey : enc a ≠ enc b := fun heq => hab (hinj b a hb ha heq.symm)
      rw [BoundedMap.lookup_update_ne m 1 hkey, hm]
      simp [hab]
  | remove b hb =>
    by_cases hab : b = a
    · subst hab
      simp
    · have hkey : enc a ≠ enc b := fun heq => hab (hinj b a hb ha heq.symm)
      rw [BoundedMap.lookup_delete_ne m hkey, hm]
      simp [hab]

end Lists

/-- An addition that fails leaves the maps. -/
theorem addMac_cases (t : TcMaps) (macStr : Str) :
    addMacToWhitelist t macStr = none ∨
      ∃ mac, parseMAC macStr = some mac ∧ mac.length = 6 ∧ t.macWhitelist.HasRoom (macToU64 mac) ∧
        addMacToWhitelist t macStr =
          some { t with macWhitelist := t.macWhitelist.update (macToU64 mac) 1 } := by
  unfold addMacToWhitelist
  cases hmac : parseMAC macStr with
  | none => exact Or.inl rfl
  | some mac =>
    simp only [Option.bind_eq_bind, Option.bind_some, mapPut]
    by_cases hlen : mac.length = 6
    · by_cases hroom : t.macWhitelist.HasRoom (macToU64 mac)
      · exact Or.inr ⟨mac, rfl, hlen, hroom, by simp [hlen, hroom]⟩
      · exact Or.inl (by simp [hroom])
    · exact Or.inl (by simp [hlen])

theorem addIP_cases (t : TcMaps) (ipStr : Str) :
    addIPToWhitelist t ipStr = none ∨
      ∃ v4, (parseIP ipStr).bind to4 = some v4 ∧ t.ipWhitelist.HasRoom (ipKey v4) ∧
        addIPToWhitelist t ipStr =
          some { t with ipWhitelist := t.ipWhitelist.update (ipKey v4) 1 } := by
  unfold addIPToWhitelist
  rw [Option.bind_eq_bind, ← Option.bind_assoc]
  cases hip : (parseIP ipStr).bind to4 with
  | none => exact Or.inl rfl
  | some v4 =>
    simp only [Option.bind_some, mapPut]
    by_cases hroom : t.ipWhitelist.HasRoom (ipKey v4)
    · exact Or.inr ⟨v4, rfl, hroom, by simp [hroom]⟩
    · exact Or.inl (by simp [hroom])

/-- After a removal the map has no key of the address, whether or not it had one. -/
theorem removeMac_getD (t : TcMaps) (macStr : Str) :
    (removeMacFromWhitelist t macStr).getD t = (parseMAC macStr).elim t (fun mac =>
      { t with macWhitelist := t.macWhitelist.delete (macToU64 mac) }) := by
  unfold removeMacFromWhitelist
  cases parseMAC macStr with
  | none => rfl
  | some mac =>
    rw [Option.elim_some, ← mapDelete_getD]
    simp only [Option.bind_eq_bind, Option.bind_some]
    cases mapDelete t.macWhitelist (macToU64 mac) <;> rfl

theorem removeIP_getD (t : TcMaps) (ipStr : Str) :
    (removeIPFromWhitelist t ipStr).getD t = ((parseIP ipStr).bind to4).elim t (fun v4 =>
      { t with ipWhitelist := t.ipWhitelist.delete (ipKey v4) }) := by
  unfold removeIPFromWhitelist
  rw [Option.bind_eq_bind, ← Option.bind_assoc]
  cases (parseIP ipStr).bind to4 with
  | none => rfl
  | some v4 =>
    rw [Option.elim_some, ← mapDelete_getD]
    simp only [Option.bind_some]
    cases mapDelete t.ipWhitelist (ipKey v4) <;> rfl

theorem length_bind_to4 {ipStr : Str} {v4 : IP} (h : (parseIP ipStr).bind to4 = some v4) :
    v4.length = 4 := by
  obtain ⟨ip, -, h4⟩ := Option.bind_eq_some_iff.mp h
  exact length_to4 h4

/-- What a call does to the list of hardware addresses. -/
theorem mac_effect (t : TcMaps) (call : TcCall) :
    Effect macToU64 6 t.macWhitelist ((call.exec t).getD t).macWhitelist
      (macAdded (call, (call.exec t).isSome))
      ((macRemoved (call, (call.exec t).isSome)).map (List.take 6)) := by
  cases call with
  | addMac macStr =>
    rcases addMac_cases t macStr with hnone | ⟨mac, hmac, hlen, hroom, hsome⟩
    · simpa [TcCall.exec, hnone, macAdded, macRemoved] using Effect.nothing
    · simpa [TcCall.exec, hsome, macAdded, macRemoved, hmac] using Effect.add mac hlen hroom
  | removeMac macStr =>
    simp only [TcCall.exec, removeMac_getD, macAdded, macRemoved]
    cases hmac : parseMAC macStr with
    | none => exact Effect.nothing
    | some mac =>
      have hlen : (mac.take 6).length = 6 := by
        have := length_parseMAC hmac
        rw [List.length_take]
        omega
      rw [Option.elim_some, Option.map_some, ← macToU64_take]
      exact Effect.remove (mac.take 6) hlen
  | addIP ipStr =>
    rcases addIP_cases t ipStr with hnone | ⟨v4, -, -, hsome⟩
    · simpa [TcCall.exec, hnone, macAdded, macRemoved] using Effect.nothing
    · simpa [TcCall.exec, hsome, macAdded, macRemoved] using Effect.nothing
  | removeIP ipStr =>
    simp only [TcCall.exec, removeIP_getD, macAdded, macRemoved]
    cases (parseIP ipStr).bind to4 <;> exact Effect.nothing

/-- What a call does to the list of IPv4 addresses. -/
theorem ip_effect (t : TcMaps) (call : TcCall) :
    Effect ipKey 4 t.ipWhitelist ((call.exec t).getD t).ipWhitelist
      (ipAdded (call, (call.exec t).isSome)) (ipRemoved (call, (call.exec t).isSome)) := by
  cases call with
  | addMac macStr =>
    rcases addMac_cases t macStr with hnone | ⟨mac, -, -, -, hsome⟩
    · simpa [TcCall.exec, hnone, ipAdded, ipRemoved] using Effect.nothing
    · simpa [TcCall.exec, hsome, ipAdded, ipRemoved] using Effect.nothing
  | removeMac macStr =>
    simp only [TcCall.exec, removeMac_getD, ipAdded, ipRemoved]
    cases parseMAC macStr <;> exact Effect.nothing
  | addIP ipStr =>
    rcases addIP_cases t ipStr with hnone | ⟨v4, hv4, hroom, hsome⟩
    · simpa [TcCall.exec, hnone, ipAdded, ipRemoved] using Effect.nothing
    · simpa [TcCall.exec, hsome, ipAdded, ipRemoved, hv4] using
        Effect.add v4 (length_bind_to4 hv4) hroom
  | removeIP ipStr =>
    simp only [TcCall.exec, removeIP_getD, ipAdded, ipRemoved]
    cases hv4 : (parseIP ipStr).bind to4 with
    | none => exact Effect.nothing
    | some v4 => exact Effect.remove v4 (length_bind_to4 hv4)

/-! ## Whole histories -/

/-- After any calls, the maps have the keys of the addresses that stand. -/
structure Tc.Sound (t : Tc) : Prop where
  mac : ∀ mac, mac.length = 6 →
    ((t.maps.macWhitelist.lookup (macToU64 mac)).isSome ↔ MacKept t.log mac)
  ip : ∀ ip, ip.length = 4 →
    ((t.maps.ipWhitelist.lookup (ipKey ip)).isSome ↔ IPListed t.log ip)

theorem sound_step {t : Tc} (ht : t.Sound) (call : TcCall) : (t.step call).Sound := by
  constructor
  · intro mac hmac
    exact lookup_of_effect (fun _ _ => macToU64_injective) (mac_effect t.maps call) hmac
      (ht.mac mac hmac)
  · intro ip hip
    exact lookup_of_effect (fun _ _ => ipKey_injective) (ip_effect t.maps call) hip (ht.ip ip hip)

theorem sound_after (calls : List TcCall) : (Tc.after calls).Sound := by
  apply run_invariant_of_step Tc.Sound (fun _ call ht => sound_step ht call)
  constructor
  · intro mac _
    simp [MacKept, not_standing_nil]
  · intro ip _
    simp [IPListed, not_standing_nil]

/-- What the filter does after any calls. -/
theorem marked_iff (calls : List TcCall) (proxyMark : UInt32) {data : List UInt8}
    (hdata : IPv4Frame data) (hdst : destinationIP data ≠ [255, 255, 255, 255]) :
    (tcIngress proxyMark (Tc.after calls).maps data).isSome ↔
      MacKept (Tc.after calls).log (sourceMac data) ∨
        IPListed (Tc.after calls).log (sourceIP data) := by
  have hlen := hdata.complete
  have ht := sound_after calls
  rw [tcIngress_isSome hdata hdst, ht.mac _ (by simp [sourceMac]; omega),
    ht.ip _ (by simp [sourceIP]; omega)]

theorem macListed_of_macKept {log : List (TcCall × Bool)} {mac : List UInt8} (hmac : mac.length = 6)
    (h : MacKept log mac) : MacListed log mac := by
  apply standing_mono _ h
  intro e he
  rw [he, Option.map_some, List.take_of_length_le (by omega)]

/-- The filter marks exactly the frames from listed sources, unless a hardware address is
listed, its IPv4 address is not, and a longer address that starts with it was removed since
it was added. -/
theorem whitelist_marks_listed_iff (calls : List TcCall) (proxyMark : UInt32) (data : List UInt8)
    (hdata : IPv4Frame data) (hdst : destinationIP data ≠ [255, 255, 255, 255]) :
    ((tcIngress proxyMark (Tc.after calls).maps data).isSome ↔
        MacListed (Tc.after calls).log (sourceMac data) ∨
          IPListed (Tc.after calls).log (sourceIP data)) ↔
      (MacListed (Tc.after calls).log (sourceMac data) →
        MacKept (Tc.after calls).log (sourceMac data) ∨
          IPListed (Tc.after calls).log (sourceIP data)) := by
  have hlen := hdata.complete
  have hkept : MacKept (Tc.after calls).log (sourceMac data) →
      MacListed (Tc.after calls).log (sourceMac data) :=
    macListed_of_macKept (by simp [sourceMac]; omega)
  rw [marked_iff calls proxyMark hdata hdst]
  tauto

/-- A frame to 1.1.1.1 from a hardware address and an IPv4 address. -/
def frameFrom (mac : List UInt8) (ip : IP) : List UInt8 :=
  [2, 0, 0, 0, 0, 1] ++ mac ++ [0x08, 0x00] ++ [0x45, 0, 0, 20, 0, 0, 0, 0, 64, 6, 0, 0] ++ ip ++
    [1, 1, 1, 1]

/-- The frame of the device that the calls below name. -/
def deviceFrame : List UInt8 := frameFrom [0xaa, 0xbb, 0xcc, 0xdd, 0xee, 0x01] [192, 168, 1, 7]

theorem ipv4Frame_deviceFrame : IPv4Frame deviceFrame := ⟨by decide, by decide⟩

/-- The device is added, under another text than the one that removes its IPv4 address. -/
def deviceCalls : List TcCall :=
  [.addIP "192.168.1.7", .addMac "AABB.CCDD.EE01", .removeIP "::ffff:192.168.1.7"]

theorem listed_device_is_marked :
    IPv4Frame deviceFrame ∧ destinationIP deviceFrame ≠ [255, 255, 255, 255] ∧
      tcIngress 1 (Tc.after deviceCalls).maps deviceFrame = some 1 ∧
      ((tcIngress 1 (Tc.after deviceCalls).maps deviceFrame).isSome ↔
        MacListed (Tc.after deviceCalls).log (sourceMac deviceFrame) ∨
          IPListed (Tc.after deviceCalls).log (sourceIP deviceFrame)) := by
  refine ⟨ipv4Frame_deviceFrame, by decide, by decide, ?_⟩
  apply (whitelist_marks_listed_iff deviceCalls 1 deviceFrame ipv4Frame_deviceFrame (by decide)).mpr
  intro _
  exact Or.inl ⟨[(.addIP "192.168.1.7", true)], (.addMac "AABB.CCDD.EE01", true),
    [(.removeIP "::ffff:192.168.1.7", true)], by decide, by decide, by decide⟩

/-- The removal of an address of eight bytes that starts with the address of the device. -/
def longerCalls : List TcCall :=
  [.addMac "aa:bb:cc:dd:ee:01", .removeMac "aa:bb:cc:dd:ee:01:00:02"]

theorem longer_address_removes_the_device :
    ¬ ((tcIngress 1 (Tc.after longerCalls).maps deviceFrame).isSome ↔
      MacListed (Tc.after longerCalls).log (sourceMac deviceFrame) ∨
        IPListed (Tc.after longerCalls).log (sourceIP deviceFrame)) := by
  intro h
  have hunmarked : ¬ (tcIngress 1 (Tc.after longerCalls).maps deviceFrame).isSome := by decide
  apply hunmarked
  exact h.mpr (Or.inl ⟨[], (.addMac "aa:bb:cc:dd:ee:01", true),
    [(.removeMac "aa:bb:cc:dd:ee:01:00:02", true)], by decide, by decide, by decide⟩)

end vproxy.ebpf
