-- The bypass list of the kernel hooks (loader.go): CIDRManager writes the networks that
-- it is given as text into an LPM trie, and is_cidr_bypass_v4 looks an address up there.
-- The trie has the addresses of the networks that were added last.
import Vproxy.AddrText
import Vproxy.AddrNumbers
import Vproxy.KernelBypass
import Vproxy.Ledger
import Vproxy.Redirect
import Vproxy.Runs
import Mathlib.Data.List.MinMax

open go go.net words runs ledger

namespace vproxy.ebpf

/-! ## The trie -/

/-- Two keys of one node: the kernel compares as many bits as the keys have. -/
def sameNode (k k' : LPMCIDRKey) : Bool :=
  k.prefixlen == k'.prefixlen &&
    maskIP k.addr (cidrMask k.prefixlen 4) == maskIP k'.addr (cidrMask k.prefixlen 4)

/-- `trie_update_elem`. A key of more than 32 bits has no place; what else the kernel
refuses, such as a new node of a full map, is `refuses`. -/
def trieUpdate (refuses : LPMCIDRKey → Bool) (m : List LPMCIDRKey) (k : LPMCIDRKey) :
    Option (List LPMCIDRKey) :=
  if 32 < k.prefixlen ∨ refuses k then none
  else if m.any (sameNode k) then some (m.map (fun k' => if sameNode k k' then k else k'))
  else some (m ++ [k])

/-- `trie_delete_elem`; there is an error where the key has no node. -/
def trieDelete (m : List LPMCIDRKey) (k : LPMCIDRKey) : Option (List LPMCIDRKey) :=
  if 32 < k.prefixlen ∨ ¬ m.any (sameNode k) then none
  else some (m.filter (fun k' => !sameNode k k'))

/-- `trie_lookup_elem` of a whole address: the longest key that the address begins with. -/
def trieLookup (m : List LPMCIDRKey) (addr : List UInt8) : Option LPMCIDRKey :=
  (m.filter (fun k =>
    maskIP k.addr (cidrMask k.prefixlen 4) == maskIP addr (cidrMask k.prefixlen 4))).argmax
      LPMCIDRKey.prefixlen

/-- The hook asks whether the trie has a match, and not for its length. -/
theorem isCidrBypassV4_eq_trieLookup (m : Maps) (w : UInt32) :
    isCidrBypassV4 m w = (trieLookup m.cidrBypassMap (leBytes w)).isSome := by
  rw [Bool.eq_iff_iff, Option.isSome_iff_ne_none, trieLookup, ne_eq, List.argmax_eq_none,
    List.filter_eq_nil_iff, isCidrBypassV4, List.any_eq_true]
  simp only [not_forall, not_not, exists_prop]

/-! ## CIDRManager -/

/-- A call that returned without an error. -/
structure Event where
  adds : Bool
  cidr : Str

/-- The map of the manager, with the calls that succeeded so far. -/
structure CIDRManager where
  m : List LPMCIDRKey
  log : List Event

namespace CIDRManager

def add (refuses : LPMCIDRKey → Bool) (c : CIDRManager) (cidr : Str) : Option CIDRManager := do
  let key ← parseCIDRKey cidr
  let m ← trieUpdate refuses c.m key
  some ⟨m, c.log ++ [⟨true, cidr⟩]⟩

def remove (c : CIDRManager) (cidr : Str) : Option CIDRManager := do
  let key ← parseCIDRKey cidr
  let m ← trieDelete c.m key
  some ⟨m, c.log ++ [⟨false, cidr⟩]⟩

/-- The loop of `AddDefaults`, which ends at the first error. -/
def addAll (refuses : LPMCIDRKey → Bool) : CIDRManager → List Str → CIDRManager
  | c, [] => c
  | c, cidr :: rest =>
    match c.add refuses cidr with
    | some c' => addAll refuses c' rest
    | none => c

def addDefaults (refuses : LPMCIDRKey → Bool) (c : CIDRManager) : CIDRManager :=
  c.addAll refuses defaultCIDRs

-- the defaults that Load leaves in a new map
example : (addDefaults (fun _ => false) ⟨[], []⟩).m = defaultBypass := by decide

/-- What `List` may return: the texts of the keys, in the order in which the kernel goes through
its trie. -/
def Lists (c : CIDRManager) (texts : List Str) : Prop :=
  texts.Perm (c.m.map fun key => ipString key.addr ++ '/' :: itoa key.prefixlen)

end CIDRManager

/-- A call of the manager, with what the kernel refuses at that time. -/
inductive Call where
  | addDefaults (refuses : LPMCIDRKey → Bool)
  | add (refuses : LPMCIDRKey → Bool) (cidr : Str)
  | remove (cidr : Str)

/-- The manager after a call; a call that fails leaves the map as it was. -/
def CIDRManager.step (c : CIDRManager) : Call → CIDRManager
  | .addDefaults refuses => c.addDefaults refuses
  | .add refuses cidr => (c.add refuses cidr).getD c
  | .remove cidr => (c.remove cidr).getD c

/-- The manager of a new map, after the calls. -/
def CIDRManager.after (calls : List Call) : CIDRManager := run CIDRManager.step ⟨[], []⟩ calls

/-! ## Networks -/

/-- The network that a text denotes, in the form that `IPNet.Contains` compares. -/
def networkOf (cidr : Str) : Option IPNet :=
  (parseCIDR cidr).map (fun n => ⟨(networkNumberAndMask n).1, (networkNumberAndMask n).2⟩)

def Event.Installs (e : Event) (n : IPNet) : Prop := e.adds = true ∧ networkOf e.cidr = some n

def Event.Withdraws (e : Event) (n : IPNet) : Prop := e.adds = false ∧ networkOf e.cidr = some n

/-- The last successful call for the network added it. -/
def CIDRManager.Installed (c : CIDRManager) (n : IPNet) : Prop :=
  Standing Event.Installs Event.Withdraws c.log n

/-- The network of a key. -/
def LPMCIDRKey.network (k : LPMCIDRKey) : IPNet := ⟨k.addr, cidrMask k.prefixlen 4⟩

/-- A key as `parseCIDRKey` makes it and the trie takes it. -/
structure LPMCIDRKey.Masked (k : LPMCIDRKey) : Prop where
  length : k.addr.length = 4
  short : k.prefixlen ≤ 32
  masked : maskIP k.addr (cidrMask k.prefixlen 4) = k.addr

theorem maskIP_maskIP (ip : IP) (mask : List UInt8) :
    maskIP (maskIP ip mask) mask = maskIP ip mask := by
  unfold maskIP
  induction ip generalizing mask with
  | nil => rfl
  | cons b ip ih =>
    cases mask with
    | nil => rfl
    | cons x mask =>
      simp only [List.zipWith_cons_cons, ih]
      rw [UInt8.and_assoc, UInt8.and_self]

/-- A sixteen byte network with an IPv4 form has the 96 leading bits of that form. -/
theorem ones_of_to4_masked {ip a : IP} {ones : Nat} (hlen : ip.length = 16)
    (h : to4 (maskIP ip (cidrMask ones 16)) = some a) : 96 ≤ ones := by
  have hmask : (maskIP ip (cidrMask ones 16)).length = 16 := by simp [maskIP, cidrMask, hlen]
  unfold to4 at h
  rw [if_neg (by omega)] at h
  split at h
  case isFalse => cases h
  case isTrue hfront =>
    have hbyte : (maskIP ip (cidrMask ones 16))[11]? = some 255 := by
      have := congrArg (fun l => l[11]?) hfront.2
      simpa [List.getElem?_take, v4InV6Prefix] using this
    by_contra hones
    have hlt : ones < 96 := by omega
    have hfull : ∀ n < 96, (maskByte n 11).toNat < 255 := by decide
    simp only [maskIP, cidrMask, List.getElem?_zipWith, List.getElem?_map] at hbyte
    rw [List.getElem?_eq_getElem (by omega), List.getElem?_range (by decide)] at hbyte
    have hand := congrArg UInt8.toNat (Option.some.inj hbyte)
    rw [UInt8.toNat_and] at hand
    have hle : (ip[11].toNat &&& (maskByte ones 11).toNat) ≤ (maskByte ones 11).toNat :=
      Nat.and_le_right
    have := hfull ones hlt
    rw [hand] at hle
    exact absurd hle (by simpa using this)

/-- What the trie takes of a text is the masked network that the text denotes. -/
theorem parseCIDRKey_spec {cidr : Str} {k : LPMCIDRKey} (h : parseCIDRKey cidr = some k)
    (hshort : k.prefixlen ≤ 32) : k.Masked ∧ networkOf cidr = some k.network := by
  unfold parseCIDRKey at h
  simp only [Option.bind_eq_bind, Option.bind_eq_some_iff] at h
  obtain ⟨n, hn, a, ha, hk⟩ := h
  cases hk
  have hnet : networkOf cidr = some ⟨(networkNumberAndMask n).1, (networkNumberAndMask n).2⟩ := by
    rw [networkOf, hn, Option.map_some]
  obtain ⟨ip, ones, hlen | hlen, hones, rfl⟩ := parseCIDR_spec hn
  · have hmasked : (maskIP ip (cidrMask ones 4)).length = 4 := by simp [maskIP, cidrMask, hlen]
    rw [hlen] at ha hnet hones
    have ha' : to4 (maskIP ip (cidrMask ones 4)) = some (maskIP ip (cidrMask ones 4)) := by
      rw [to4, if_pos hmasked]
    cases ha.symm.trans ha'
    rw [hlen, maskOnes_cidrMask hones]
    refine ⟨⟨hmasked, by omega, maskIP_maskIP _ _⟩, ?_⟩
    rw [hnet, networkNumberAndMask, ha']
    dsimp only
    rw [if_neg (by simp [length_cidrMask]), LPMCIDRKey.network]
  · -- an IPv4-mapped network has at least 96 bits
    rw [hlen] at ha hshort hones
    have := ones_of_to4_masked hlen ha
    rw [maskOnes_cidrMask hones] at hshort
    dsimp only at hshort
    omega

theorem LPMCIDRKey.network_injective {k k' : LPMCIDRKey} (hk : k.Masked) (hk' : k'.Masked)
    (h : k.network = k'.network) : k = k' := by
  obtain ⟨haddr, hmask⟩ := IPNet.mk.inj h
  have hlen : k.prefixlen = k'.prefixlen := by
    rw [← maskOnes_cidrMask (n := 4) hk.short, hmask, maskOnes_cidrMask hk'.short]
  cases k
  cases k'
  cases haddr
  cases hlen
  rfl

theorem sameNode_iff {k k' : LPMCIDRKey} (hk : k.Masked) (hk' : k'.Masked) :
    sameNode k k' = true ↔ k = k' := by
  unfold sameNode
  rw [Bool.and_eq_true, beq_iff_eq, beq_iff_eq]
  constructor
  · rintro ⟨hlen, haddr⟩
    rw [hk.masked, hlen, hk'.masked] at haddr
    apply LPMCIDRKey.network_injective hk hk'
    rw [LPMCIDRKey.network, LPMCIDRKey.network, hlen, haddr]
  · rintro rfl
    exact ⟨rfl, rfl⟩

/-! ## What a call leaves in the map -/

section Trie

variable {m m' : List LPMCIDRKey} {k : LPMCIDRKey} {refuses : LPMCIDRKey → Bool}

/-- A node of the key is the key itself. -/
theorem any_sameNode (hm : ∀ x ∈ m, x.Masked) (hk : k.Masked) :
    m.any (sameNode k) = true ↔ k ∈ m := by
  rw [List.any_eq_true]
  constructor
  · rintro ⟨x, hx, hsame⟩
    rw [(sameNode_iff hk (hm x hx)).mp hsame]
    exact hx
  · intro hmem
    exact ⟨k, hmem, (sameNode_iff hk hk).mpr rfl⟩

/-- The write of a masked key: a key that the map has is written over itself. -/
theorem trieUpdate_eq (hm : ∀ x ∈ m, x.Masked) (hk : k.Masked) :
    trieUpdate refuses m k =
      if refuses k then none else if k ∈ m then some m else some (m ++ [k]) := by
  have hover : m.map (fun x => if sameNode k x then k else x) = m := by
    rw [List.map_congr_left (g := id), List.map_id]
    intro x hx
    by_cases hsame : sameNode k x = true
    · rw [if_pos hsame]
      exact (sameNode_iff hk (hm x hx)).mp hsame
    · rw [if_neg hsame]
      rfl
  have hshort : ¬ 32 < k.prefixlen := Nat.not_lt.mpr hk.short
  unfold trieUpdate
  simp only [hshort, false_or, any_sameNode hm hk, hover]

theorem trieDelete_eq (hm : ∀ x ∈ m, x.Masked) (hk : k.Masked) :
    trieDelete m k = if k ∈ m then some (m.filter (fun x => k ≠ x)) else none := by
  have hfilter : m.filter (fun x => !sameNode k x) = m.filter (fun x => k ≠ x) := by
    apply List.filter_congr
    intro x hx
    rw [Bool.eq_iff_iff, Bool.not_eq_true', ← Bool.not_eq_true, sameNode_iff hk (hm x hx)]
    simp
  have hshort : ¬ 32 < k.prefixlen := Nat.not_lt.mpr hk.short
  unfold trieDelete
  simp only [hshort, false_or, any_sameNode hm hk, hfilter]
  by_cases hmem : k ∈ m <;> simp [hmem]

/-- The keys that the trie takes are short. -/
theorem short_of_trieUpdate (h : trieUpdate refuses m k = some m') : k.prefixlen ≤ 32 := by
  unfold trieUpdate at h
  split at h
  · cases h
  · rename_i hfits
    rw [not_or] at hfits
    omega

theorem short_of_trieDelete (h : trieDelete m k = some m') : k.prefixlen ≤ 32 := by
  unfold trieDelete at h
  split at h
  · cases h
  · rename_i hfits
    rw [not_or] at hfits
    omega

end Trie

/-- The map has a masked key for each network that is installed, and no other key. -/
structure CIDRManager.Sound (c : CIDRManager) : Prop where
  masked : ∀ k ∈ c.m, k.Masked
  installed : ∀ n, c.Installed n ↔ ∃ k ∈ c.m, k.network = n

namespace CIDRManager

variable {c c' : CIDRManager} {cidr : Str} {refuses : LPMCIDRKey → Bool}

/-- What an `Add` that succeeds does. -/
theorem add_cases (hc : c.Sound) (h : c.add refuses cidr = some c') :
    ∃ k, k.Masked ∧ networkOf cidr = some k.network ∧ c'.log = c.log ++ [⟨true, cidr⟩] ∧
      ∀ x, x ∈ c'.m ↔ x ∈ c.m ∨ x = k := by
  unfold add at h
  simp only [Option.bind_eq_bind, Option.bind_eq_some_iff] at h
  obtain ⟨k, hkey, m', hput, heq⟩ := h
  cases heq
  obtain ⟨hk, hnet⟩ := parseCIDRKey_spec hkey (short_of_trieUpdate hput)
  refine ⟨k, hk, hnet, rfl, ?_⟩
  rw [trieUpdate_eq hc.masked hk] at hput
  split at hput
  · cases hput
  · split at hput
    case isTrue hmem =>
      cases hput
      intro x
      constructor
      · exact Or.inl
      · rintro (hx | rfl)
        · exact hx
        · exact hmem
    case isFalse =>
      cases hput
      intro x
      simp

/-- What a `Remove` that succeeds does. -/
theorem remove_cases (hc : c.Sound) (h : c.remove cidr = some c') :
    ∃ k, k.Masked ∧ networkOf cidr = some k.network ∧ c'.log = c.log ++ [⟨false, cidr⟩] ∧
      ∀ x, x ∈ c'.m ↔ x ∈ c.m ∧ k ≠ x := by
  unfold remove at h
  simp only [Option.bind_eq_bind, Option.bind_eq_some_iff] at h
  obtain ⟨k, hkey, m', hdelete, heq⟩ := h
  cases heq
  obtain ⟨hk, hnet⟩ := parseCIDRKey_spec hkey (short_of_trieDelete hdelete)
  refine ⟨k, hk, hnet, rfl, ?_⟩
  rw [trieDelete_eq hc.masked hk] at hdelete
  split at hdelete
  · cases hdelete
    intro x
    simp [List.mem_filter]
  · cases hdelete

/-- What one more event leaves installed. -/
theorem installed_concat (hc : c.Sound) {e : Event} (hlog : c'.log = c.log ++ [e]) (n : IPNet) :
    c'.Installed n ↔
      e.Installs n ∨ ((∃ k ∈ c.m, k.network = n) ∧ ¬ e.Withdraws n) := by
  unfold Installed
  rw [hlog, standing_concat, ← hc.installed n, Installed]

theorem sound_add (hc : c.Sound) (h : c.add refuses cidr = some c') : c'.Sound := by
  obtain ⟨k, hk, hnet, hlog, hmem⟩ := add_cases hc h
  constructor
  · intro x hx
    rcases (hmem x).mp hx with hx | rfl
    · exact hc.masked x hx
    · exact hk
  · intro n
    rw [installed_concat hc hlog]
    simp only [Event.Installs, Event.Withdraws, hnet, hmem, Option.some.injEq, true_and,
      Bool.true_eq_false, false_and, not_false_eq_true, and_true, or_and_right, exists_or,
      exists_eq_left]
    exact or_comm

theorem sound_remove (hc : c.Sound) (h : c.remove cidr = some c') : c'.Sound := by
  obtain ⟨k, hk, hnet, hlog, hmem⟩ := remove_cases hc h
  constructor
  · intro x hx
    exact hc.masked x ((hmem x).mp hx).1
  · intro n
    rw [installed_concat hc hlog]
    simp only [Event.Installs, Event.Withdraws, hnet, hmem, Option.some.injEq, true_and,
      Bool.false_eq_true, false_and, false_or]
    constructor
    · rintro ⟨⟨x, hx, rfl⟩, hne⟩
      exact ⟨x, ⟨hx, fun heq => hne (congrArg _ heq)⟩, rfl⟩
    · rintro ⟨x, ⟨hx, hne⟩, rfl⟩
      exact ⟨⟨x, hx, rfl⟩, fun heq => hne (LPMCIDRKey.network_injective hk (hc.masked x hx) heq)⟩

theorem sound_addAll (hc : c.Sound) (cidrs : List Str) : (c.addAll refuses cidrs).Sound := by
  induction cidrs generalizing c with
  | nil => exact hc
  | cons cidr rest ih =>
    unfold addAll
    cases hadd : c.add refuses cidr with
    | none => exact hc
    | some c' => exact ih (sound_add hc hadd)

theorem sound_step (hc : c.Sound) (call : Call) : (c.step call).Sound := by
  cases call with
  | addDefaults refuses => exact sound_addAll hc defaultCIDRs
  | add refuses cidr =>
    cases hadd : c.add refuses cidr with
    | none => simpa only [step, hadd, Option.getD_none] using hc
    | some c' => simpa only [step, hadd, Option.getD_some] using sound_add hc hadd
  | remove cidr =>
    cases hremove : c.remove cidr with
    | none => simpa only [step, hremove, Option.getD_none] using hc
    | some c' => simpa only [step, hremove, Option.getD_some] using sound_remove hc hremove

theorem sound_empty : CIDRManager.Sound ⟨[], []⟩ := by
  constructor
  · intro k hk
    cases hk
  · intro n
    simp [Installed, not_standing_nil]

/-- After any calls the map is that of the installed networks. -/
theorem sound_after (calls : List Call) : (after calls).Sound :=
  run_invariant_of_step Sound (fun _ call hc => sound_step hc call) sound_empty calls

end CIDRManager

/-! ## The addresses of the map -/

/-- A key matches the addresses of its network. -/
theorem netContains_network {k : LPMCIDRKey} (hk : k.Masked) {ip : IP} (hip : ip.length = 4) :
    netContains k.network ip =
      (maskIP k.addr (cidrMask k.prefixlen 4) == maskIP ip (cidrMask k.prefixlen 4)) := by
  have h4 : to4 k.addr = some k.addr := by rw [to4, if_pos hk.length]
  have hip4 : to4 ip = some ip := by rw [to4, if_pos hip]
  unfold netContains networkNumberAndMask LPMCIDRKey.network
  simp [h4, hip4, hip, hk.length, length_cidrMask]

/-- The hook passes by the addresses of the installed networks. -/
theorem isCidrBypassV4_of_sound {c : CIDRManager} (hc : c.Sound) (m : Maps) (a b d e : UInt8) :
    isCidrBypassV4 { m with cidrBypassMap := c.m } (leWord a b d e) = true ↔
      ∃ n, c.Installed n ∧ netContains n [a, b, d, e] = true := by
  unfold isCidrBypassV4
  rw [List.any_eq_true, leBytes_leWord]
  constructor
  · rintro ⟨k, hk, hmatch⟩
    refine ⟨k.network, (hc.installed _).mpr ⟨k, hk, rfl⟩, ?_⟩
    rw [netContains_network (hc.masked k hk) rfl]
    exact hmatch
  · rintro ⟨n, hn, hcontains⟩
    obtain ⟨k, hk, rfl⟩ := (hc.installed n).mp hn
    rw [netContains_network (hc.masked k hk) rfl] at hcontains
    exact ⟨k, hk, hcontains⟩

/-- The text of a key is read back as the key. -/
theorem parseCIDRKey_text {k : LPMCIDRKey} (hk : k.Masked) :
    parseCIDRKey (ipString k.addr ++ '/' :: itoa k.prefixlen) = some k := by
  obtain ⟨len, addr⟩ := k
  obtain ⟨hlen, hshort, hmasked⟩ := hk
  dsimp only at hlen hshort hmasked ⊢
  obtain ⟨a, b, c, d, rfl⟩ : ∃ a b c d, addr = [a, b, c, d] := by
    match addr, hlen with
    | [a, b, c, d], _ => exact ⟨a, b, c, d, rfl⟩
  have htext : ipString [a, b, c, d] = dotted [a, b, c, d] := rfl
  have hslash : '/' ∉ dotted [a, b, c, d] := by
    intro h
    have := mem_dotted rfl h
    revert this
    decide
  have hdigits : itoa len ≠ [] := Nat.toDigits_ne_nil
  unfold parseCIDRKey parseCIDR
  rw [htext, cut_append hslash]
  simp only [Option.bind_eq_bind, Option.bind_some, parseAddr_dotted, decimal_itoa]
  rw [if_neg (by simp [hdigits, all_isDigit_itoa]; omega)]
  simp only [Option.bind_some, List.length_cons, List.length_nil, hmasked, to4, if_true]
  rw [maskOnes_cidrMask (by omega)]

/-- An `Add` of a listed text writes a key over itself. -/
theorem add_listed {c : CIDRManager} (hc : c.Sound) {texts : List Str} (hlists : c.Lists texts)
    {s : Str} (hs : s ∈ texts) (refuses : LPMCIDRKey → Bool) :
    c.add refuses s = none ∧ (∃ k ∈ c.m, refuses k = true) ∨
      c.add refuses s = some ⟨c.m, c.log ++ [⟨true, s⟩]⟩ := by
  obtain ⟨k, hk, rfl⟩ := List.mem_map.mp (hlists.mem_iff.mp hs)
  have hmasked := hc.masked k hk
  unfold CIDRManager.add
  simp only [parseCIDRKey_text hmasked, Option.bind_eq_bind, Option.bind_some,
    trieUpdate_eq hc.masked hmasked]
  by_cases hrefuses : refuses k = true
  · exact Or.inl ⟨by simp [hrefuses], k, hk, hrefuses⟩
  · exact Or.inr (by simp [hrefuses, hk])

/-- The map denotes the union of the installed networks: after any calls, the hook passes
by exactly the addresses of the networks that a successful call added last. A listed text
that is added again leaves the map as it is, and fails only where the kernel refuses. -/
theorem bypass_map_is_union (calls : List Call) (m : Maps) (a b d e : UInt8) :
    (isCidrBypassV4 { m with cidrBypassMap := (CIDRManager.after calls).m } (leWord a b d e) =
          true ↔
        ∃ n, (CIDRManager.after calls).Installed n ∧ netContains n [a, b, d, e] = true) ∧
      ∀ texts, (CIDRManager.after calls).Lists texts → ∀ s ∈ texts, ∀ refuses : LPMCIDRKey → Bool,
        ((CIDRManager.after calls).step (.add refuses s)).m = (CIDRManager.after calls).m ∧
        ((∀ k, refuses k = false) → ((CIDRManager.after calls).add refuses s).isSome) := by
  have hc := CIDRManager.sound_after calls
  refine ⟨isCidrBypassV4_of_sound hc m a b d e, ?_⟩
  intro texts hlists s hs refuses
  rcases add_listed hc hlists hs refuses with ⟨hnone, k, -, hk⟩ | hsome
  · refine ⟨by rw [CIDRManager.step, hnone, Option.getD_none], ?_⟩
    intro hnever
    rw [hnever k] at hk
    cases hk
  · refine ⟨by rw [CIDRManager.step, hsome, Option.getD_some], ?_⟩
    intro _
    rw [hsome, Option.isSome_some]

/-- The defaults, a text with host bits, the removal of its network under another text, and
an IPv4-mapped text that the trie does not take. -/
def spelledCalls : List Call :=
  [.addDefaults (fun _ => false), .add (fun _ => false) "8.8.8.8/16", .remove "8.8.0.0/16",
    .remove "10.1.2.3/8", .add (fun _ => false) "::ffff:9.9.9.0/120"]

theorem other_spelling_is_removed :
    (∀ texts, (CIDRManager.after spelledCalls).Lists texts ↔
        texts.Perm ["127.0.0.0/8", "172.16.0.0/12", "192.168.0.0/16", "169.254.0.0/16"]) ∧
      (¬ ∃ n, (CIDRManager.after spelledCalls).Installed n ∧ netContains n [10, 0, 0, 1] = true) ∧
      ((CIDRManager.after spelledCalls).step (.add (fun _ => false) "172.16.0.0/12")).m =
        (CIDRManager.after spelledCalls).m := by
  have hkeys : ((CIDRManager.after spelledCalls).m.map fun key =>
      ipString key.addr ++ '/' :: itoa key.prefixlen) =
        (["127.0.0.0/8", "172.16.0.0/12", "192.168.0.0/16", "169.254.0.0/16"] : List Str) := by
    decide
  refine ⟨fun texts => ?_, ?_, ?_⟩
  · rw [CIDRManager.Lists, hkeys]
  · rw [← (bypass_map_is_union spelledCalls loadedMaps 10 0 0 1).1]
    decide
  · exact ((bypass_map_is_union spelledCalls loadedMaps 10 0 0 1).2 _ .rfl _ (by decide) _).1

end vproxy.ebpf
