-- The socket list of macOS (process_darwin.go, getPidByPortSysctl). Records of many lengths come
-- one after another; a socket record names the process, and a later record its local port. A
-- record is read only if it is longer than the field needs, and what is not read leaves the
-- process of an earlier socket standing.
import Vproxy.JsonFields
import Vproxy.Slices
import Vproxy.Words

open go slices words

namespace vproxy.pcblist

/-! ## The call -/

def xsoSocket : UInt32 := 0x001
def xsoInPCB : UInt32 := 0x010
def xsocketEPidOffset : Nat := 124
def xinpcbLPortOffset : Nat := 58

/-- `binary.LittleEndian.Uint32`; a shorter slice panics. -/
def uint32 (b : List UInt8) : Option UInt32 := if 4 ≤ b.length then some (wordAt b 0) else none

/-- `binary.BigEndian.Uint16`; a shorter slice panics. -/
def uint16 (b : List UInt8) : Option Nat := if 2 ≤ b.length then some (beUint16 b) else none

/-- What a record does: the call returns, or the loop goes on with a pid. -/
inductive Turn
  | found (pid : Int)
  | next (currentPID : Int32)
  deriving DecidableEq

/-- The switch over the kind of a record. -/
def turn (targetPort : Int) (recKind : UInt32) (recLen : Nat) (record : Slice UInt8)
    (currentPID : Int32) : Option Turn :=
  if recKind = xsoSocket then
    if recLen > xsocketEPidOffset + 4 then do
      let pid ← (record.between xsocketEPidOffset (xsocketEPidOffset + 4)).bind uint32
      some (.next pid.toInt32)
    else some (.next currentPID)
  else if recKind = xsoInPCB then
    if recLen > xinpcbLPortOffset + 2 then do
      let lport ← (record.between xinpcbLPortOffset (xinpcbLPortOffset + 2)).bind uint16
      if (lport : Int) = targetPort ∧ currentPID > 0 then some (.found currentPID.toInt)
      else some (.next currentPID)
    else some (.next currentPID)
  else some (.next currentPID)

/-- The loop over the records. A panic gives nothing, and so does a lack of fuel. -/
def recordLoop (targetPort : Int) : Nat → Slice UInt8 → Int32 → Option (Option Int)
  | 0, _, _ => none
  | fuel + 1, buf, currentPID =>
    if buf.len ≥ 8 then do
      let recLen ← (buf.between 0 4).bind uint32
      let recKind ← (buf.between 4 8).bind uint32
      if recLen.toNat < 8 ∨ recLen.toNat > buf.len then some none
      else do
        let record ← buf.sliceTo recLen.toNat
        let rest ← buf.sliceFrom recLen.toNat
        match ← turn targetPort recKind recLen.toNat record currentPID with
        | .found pid => some (some pid)
        | .next pid => recordLoop targetPort fuel rest pid
    else some none

/-- The errors of the call. -/
inductive PcbError
  | sysctl (err : Str)
  | tooSmall (len : Nat)
  | outOfRange (xinpgenSize : Nat)
  | notFound (targetPort : Int)
  deriving DecidableEq

def PcbError.text : PcbError → Str
  | .sysctl err => ("sysctl net.inet.tcp.pcblist_n: " : Str) ++ err
  | .tooSmall len => ("pcblist_n buffer too small (" : Str) ++ itoa len ++ (" bytes)" : Str)
  | .outOfRange size => ("pcblist_n xinpgen size " : Str) ++ itoa size ++ (" out of range" : Str)
  | .notFound port => ("no TCP socket found on local port " : Str) ++ json.intLiteral port

/-- `getPidByPortSysctl`, on what the kernel gives. -/
def getPidByPortSysctl (fuel : Nat) (sysctl : Except Str (Slice UInt8)) (targetPort : Int) :
    Option (Except PcbError Int) :=
  match sysctl with
  | .error err => some (.error (.sysctl err))
  | .ok buf =>
    if buf.len < 4 then some (.error (.tooSmall buf.len))
    else do
      let xinpgenSize ← (buf.between 0 4).bind uint32
      if xinpgenSize.toNat < 8 ∨ xinpgenSize.toNat > buf.len then
        some (.error (.outOfRange xinpgenSize.toNat))
      else do
        let rest ← buf.sliceFrom xinpgenSize.toNat
        match ← recordLoop targetPort fuel rest 0 with
        | some pid => some (.ok pid)
        | none => some (.error (.notFound targetPort))

/-! ## The records -/

/-- A record: its kind, and its bytes from its length field on. -/
structure Rec where
  kind : UInt32
  bytes : List UInt8
  deriving DecidableEq

/-- The pid field of a socket record that is long enough to contain it. -/
def Rec.pid (r : Rec) : Option Int32 := (uint32 (r.bytes.drop xsocketEPidOffset)).map (·.toInt32)

/-- The local port of a record that is long enough to contain it. -/
def Rec.lport (r : Rec) : Option Int := (uint16 (r.bytes.drop xinpcbLPortOffset)).map Nat.cast

/-- The first record, and what is behind it. -/
def next (data : List UInt8) : Option (Rec × List UInt8) := do
  let recLen ← uint32 data
  let recKind ← uint32 (data.drop 4)
  if recLen.toNat < 8 ∨ data.length < recLen.toNat then none
  else some (⟨recKind, data.take recLen.toNat⟩, data.drop recLen.toNat)

def recordsUpTo : Nat → List UInt8 → List Rec
  | 0, _ => []
  | n + 1, data =>
    match next data with
    | none => []
    | some (r, rest) => r :: recordsUpTo n rest

/-- The records of these bytes, up to the first that does not fit. -/
def records (data : List UInt8) : List Rec := recordsUpTo data.length data

/-- The records behind the header, which gives its own length. -/
def recordsBehind (data : List UInt8) : List Rec :=
  match uint32 data with
  | some size => if size.toNat < 8 ∨ data.length < size.toNat then []
    else records (data.drop size.toNat)
  | none => []

theorem uint32_isSome {b : List UInt8} : (uint32 b).isSome ↔ 4 ≤ b.length := by
  simp [uint32]

theorem uint16_isSome {b : List UInt8} : (uint16 b).isSome ↔ 2 ≤ b.length := by
  simp [uint16]

theorem uint32_take (b : List UInt8) : uint32 (b.take 4) = uint32 b := by
  match b with
  | [] | [_] | [_, _] | [_, _, _] => rfl
  | _ :: _ :: _ :: _ :: _ => simp [uint32, wordAt]

theorem uint16_take (b : List UInt8) : uint16 (b.take 2) = uint16 b := by
  match b with
  | [] | [_] => rfl
  | _ :: _ :: _ => simp [uint16, beUint16_cons]

/-- Four bytes of a slice, in its length. -/
theorem between_uint32 {s : Slice UInt8} {lo : Nat} (h : lo + 4 ≤ s.len) :
    (s.between lo (lo + 4)).bind uint32 = uint32 (s.data.drop lo) := by
  rw [between_of_le (Nat.le_add_right lo 4) h, Option.bind_some, List.drop_take,
    Nat.add_sub_cancel_left, uint32_take]

theorem between_uint16 {s : Slice UInt8} {lo : Nat} (h : lo + 2 ≤ s.len) :
    (s.between lo (lo + 2)).bind uint16 = uint16 (s.data.drop lo) := by
  rw [between_of_le (Nat.le_add_right lo 2) h, Option.bind_some, List.drop_take,
    Nat.add_sub_cancel_left, uint16_take]

theorem Rec.pid_isSome {r : Rec} : r.pid.isSome ↔ 128 ≤ r.bytes.length := by
  rw [Rec.pid, Option.isSome_map, uint32_isSome, List.length_drop, xsocketEPidOffset]
  omega

theorem Rec.lport_isSome {r : Rec} : r.lport.isSome ↔ 60 ≤ r.bytes.length := by
  rw [Rec.lport, Option.isSome_map, uint16_isSome, List.length_drop, xinpcbLPortOffset]
  omega

theorem next_length {data rest : List UInt8} {r : Rec} (h : next data = some (r, rest)) :
    rest.length < data.length := by
  unfold next at h
  simp only [Option.bind_eq_bind, Option.bind_eq_some_iff] at h
  obtain ⟨recLen, -, recKind, -, h⟩ := h
  split at h
  · cases h
  · cases h
    rw [List.length_drop]
    omega

/-- As many turns as there are bytes are enough. -/
theorem recordsUpTo_congr {n m : Nat} {data : List UInt8} (hn : data.length ≤ n)
    (hm : data.length ≤ m) : recordsUpTo n data = recordsUpTo m data := by
  have hnil : ∀ n, recordsUpTo n [] = [] := by
    intro n
    cases n <;> rfl
  induction n generalizing m data with
  | zero => rw [List.eq_nil_of_length_eq_zero (Nat.le_zero.mp hn), hnil, hnil]
  | succ n ih =>
    cases m with
    | zero => rw [List.eq_nil_of_length_eq_zero (Nat.le_zero.mp hm), hnil, hnil]
    | succ m =>
      unfold recordsUpTo
      cases hnext : next data with
      | none => rfl
      | some found =>
        obtain ⟨r, rest⟩ := found
        have hshort := next_length hnext
        simp only
        rw [ih (by omega) (by omega : rest.length ≤ m)]

theorem records_eq (data : List UInt8) :
    records data = match next data with
      | none => []
      | some (r, rest) => r :: records rest := by
  have hone : records data = recordsUpTo (data.length + 1) data :=
    recordsUpTo_congr (Nat.le_refl _) (Nat.le_succ _)
  rw [hone, recordsUpTo]
  cases hnext : next data with
  | none => rfl
  | some found =>
    have hshort := next_length hnext
    simp only
    rw [records, recordsUpTo_congr (Nat.le_of_lt hshort) (Nat.le_refl _)]

/-! ## The loop over the list of records -/

/-- What a record does, by its bytes alone. -/
def Rec.turn (targetPort : Int) (r : Rec) (currentPID : Int32) : Turn :=
  if r.kind = xsoSocket then
    .next (if 128 < r.bytes.length then r.pid.getD currentPID else currentPID)
  else if r.kind = xsoInPCB ∧ 60 < r.bytes.length ∧ r.lport = some targetPort ∧
      0 < currentPID then
    .found currentPID.toInt
  else .next currentPID

/-- The pid of the first record that makes the loop return. -/
def search (targetPort : Int) : List Rec → Int32 → Option Int
  | [], _ => none
  | r :: rest, currentPID =>
    match r.turn targetPort currentPID with
    | .found pid => some pid
    | .next pid => search targetPort rest pid

/-- A record is read inside its own bytes. -/
theorem turn_eq (targetPort : Int) (kind : UInt32) (record : Slice UInt8) (currentPID : Int32) :
    turn targetPort kind record.len record currentPID =
      some (Rec.turn targetPort ⟨kind, record.data⟩ currentPID) := by
  have hlen := length_data record
  unfold turn Rec.turn
  by_cases hsocket : kind = xsoSocket
  · simp only [hsocket, if_true]
    by_cases hlong : 128 < record.len
    · obtain ⟨w, hw⟩ : ∃ w, uint32 (record.data.drop xsocketEPidOffset) = some w :=
        Option.isSome_iff_exists.mp (uint32_isSome.mpr (by
          rw [List.length_drop, hlen, xsocketEPidOffset]
          omega))
      rw [if_pos (by exact hlong), between_uint32 (by exact Nat.le_of_lt hlong), hw,
        if_pos (by rwa [hlen]), Rec.pid, hw]
      rfl
    · rw [if_neg (by exact hlong), if_neg (by rwa [hlen])]
  · simp only [hsocket, if_false]
    by_cases hpcb : kind = xsoInPCB
    · simp only [hpcb, if_true, true_and]
      by_cases hlong : 60 < record.len
      · obtain ⟨w, hw⟩ : ∃ w, uint16 (record.data.drop xinpcbLPortOffset) = some w :=
          Option.isSome_iff_exists.mp (uint16_isSome.mpr (by
            rw [List.length_drop, hlen, xinpcbLPortOffset]
            omega))
        have hport : Rec.lport ⟨xsoInPCB, record.data⟩ = some (w : Int) := by
          rw [Rec.lport, hw]
          rfl
        rw [if_pos (by exact hlong), between_uint16 (by exact Nat.le_of_lt hlong), hw, hport, hlen]
        simp only [hlong, true_and, Option.some.injEq]
        exact (apply_ite some _ _ _).symm
      · rw [if_neg (by exact hlong), if_neg (by rw [hlen]; exact fun h => hlong h.1)]
    · rw [if_neg hpcb, if_neg fun h => hpcb h.1]

/-- The length and the kind of the first record are read inside the slice. -/
theorem read_head {buf : Slice UInt8} (h : 8 ≤ buf.len) :
    ∃ recLen recKind, (buf.between 0 4).bind uint32 = some recLen ∧
      (buf.between 4 8).bind uint32 = some recKind ∧ uint32 buf.data = some recLen ∧
      uint32 (buf.data.drop 4) = some recKind := by
  have hlen := length_data buf
  obtain ⟨n, hn⟩ : ∃ n, uint32 buf.data = some n :=
    Option.isSome_iff_exists.mp (uint32_isSome.mpr (by omega))
  obtain ⟨kind, hkind⟩ : ∃ kind, uint32 (buf.data.drop 4) = some kind :=
    Option.isSome_iff_exists.mp (uint32_isSome.mpr (by rw [List.length_drop]; omega))
  refine ⟨n, kind, ?_, ?_, hn, hkind⟩
  · rw [between_uint32 (by omega : 0 + 4 ≤ buf.len), List.drop_zero, hn]
  · rw [between_uint32 (by omega : 4 + 4 ≤ buf.len), hkind]

/-- Fewer than eight bytes are no record. -/
theorem next_of_short {data : List UInt8} (h : data.length < 8) : next data = none := by
  unfold next
  cases uint32 data with
  | none => rfl
  | some n =>
    cases hkind : uint32 (data.drop 4) with
    | none => rfl
    | some kind =>
      have hlong := uint32_isSome.mp (hkind ▸ Option.isSome_some)
      rw [List.length_drop] at hlong
      omega

/-- The loop of the code is the search, on every slice and with every fuel above its length. -/
theorem recordLoop_eq (targetPort : Int) {fuel : Nat} {buf : Slice UInt8} (h : buf.len < fuel)
    (currentPID : Int32) :
    recordLoop targetPort fuel buf currentPID =
      some (search targetPort (records buf.data) currentPID) := by
  induction fuel generalizing buf currentPID with
  | zero => exact absurd h (Nat.not_lt_zero _)
  | succ fuel ih =>
    have hlen := length_data buf
    rw [recordLoop, records_eq]
    by_cases hhead : buf.len ≥ 8
    · obtain ⟨n, kind, hfirst, hsecond, hn, hkind⟩ := read_head hhead
      rw [if_pos hhead, hfirst, hsecond, next, hn, hkind]
      simp only [Option.bind_eq_bind, Option.bind_some, hlen]
      by_cases hfits : n.toNat < 8 ∨ n.toNat > buf.len
      · rw [if_pos hfits, if_pos hfits]
        rfl
      · rw [if_neg hfits, if_neg hfits]
        obtain ⟨record, hto, hreclen, hrec⟩ := sliceTo_of_le (by omega : n.toNat ≤ buf.len)
        obtain ⟨rest, hfrom, hrestlen, hrest⟩ := sliceFrom_of_le (by omega : n.toNat ≤ buf.len)
        have hturn := turn_eq targetPort kind record currentPID
        rw [hreclen, hrec] at hturn
        rw [hto, hfrom]
        simp only [Option.bind_some, hturn, search]
        cases Rec.turn targetPort ⟨kind, buf.data.take n.toNat⟩ currentPID with
        | found pid => rfl
        | next pid =>
          rw [← hrest]
          exact ih (by omega) pid
    · rw [if_neg hhead, next_of_short (by omega)]
      rfl

/-- What the call gives for a buffer of at least four bytes. -/
def answer (targetPort : Int) (data : List UInt8) : Except PcbError Int :=
  match uint32 data with
  | none => .error (.tooSmall data.length)
  | some size =>
    if size.toNat < 8 ∨ data.length < size.toNat then .error (.outOfRange size.toNat)
    else match search targetPort (recordsBehind data) 0 with
      | some pid => .ok pid
      | none => .error (.notFound targetPort)

theorem getPidByPortSysctl_eq {fuel : Nat} {buf : Slice UInt8} (h : buf.len < fuel)
    (targetPort : Int) :
    getPidByPortSysctl fuel (.ok buf) targetPort = some (answer targetPort buf.data) := by
  have hlen := length_data buf
  unfold getPidByPortSysctl answer recordsBehind
  by_cases hshort : buf.len < 4
  · have hnone : uint32 buf.data = none := by
      rw [← Option.not_isSome_iff_eq_none, uint32_isSome]
      omega
    simp only [hshort, if_true, hnone, hlen]
  · obtain ⟨size, hsize⟩ : ∃ n, uint32 buf.data = some n :=
      Option.isSome_iff_exists.mp (uint32_isSome.mpr (by omega))
    have hfirst : (buf.between 0 4).bind uint32 = some size := by
      rw [between_uint32 (by omega : 0 + 4 ≤ buf.len), List.drop_zero, hsize]
    simp only [if_neg hshort, hfirst, hsize, Option.bind_eq_bind, Option.bind_some, hlen]
    by_cases hfits : size.toNat < 8 ∨ size.toNat > buf.len
    · rw [if_pos hfits, if_pos hfits]
    · obtain ⟨rest, hfrom, hrestlen, hrest⟩ := sliceFrom_of_le (by omega : size.toNat ≤ buf.len)
      rw [if_neg hfits, if_neg hfits, hfrom, if_neg hfits, Option.bind_some,
        recordLoop_eq targetPort (by omega), hrest, Option.bind_some]
      cases search targetPort (records (buf.data.drop size.toNat)) 0 <;> rfl

/-! ## The pid that the loop carries -/

/-- The pid behind a record. -/
def Rec.carry (currentPID : Int32) (r : Rec) : Int32 :=
  if r.kind = xsoSocket ∧ 128 < r.bytes.length then r.pid.getD currentPID else currentPID

/-- The pid that the loop carries behind these records. -/
def carried (front : List Rec) : Int32 := front.foldl Rec.carry 0

@[simp] theorem carried_concat (front : List Rec) (r : Rec) :
    carried (front ++ [r]) = r.carry (carried front) := by
  simp [carried]

theorem carry_of_not_socket {r : Rec} (h : r.kind ≠ xsoSocket) (pid : Int32) :
    r.carry pid = pid := if_neg fun hsocket => h hsocket.1

theorem carried_of_no_socket {front mid : List Rec} (h : ∀ r ∈ mid, r.kind ≠ xsoSocket) :
    carried (front ++ mid) = carried front := by
  induction mid using List.reverseRecOn with
  | nil => rw [List.append_nil]
  | append_singleton mid r ih =>
    rw [← List.append_assoc, carried_concat, carry_of_not_socket (h r (by simp))]
    exact ih fun r hr => h r (List.mem_append_left _ hr)

/-- With this pid the record makes the loop return. -/
def Rec.Hit (targetPort : Int) (r : Rec) (currentPID : Int32) : Prop :=
  r.kind = xsoInPCB ∧ 60 < r.bytes.length ∧ r.lport = some targetPort ∧ 0 < currentPID

instance (targetPort : Int) (r : Rec) (currentPID : Int32) :
    Decidable (r.Hit targetPort currentPID) := inferInstanceAs (Decidable (_ ∧ _))

theorem search_cons (targetPort : Int) (r : Rec) (rest : List Rec) (pid : Int32) :
    search targetPort (r :: rest) pid =
      if r.Hit targetPort pid then some pid.toInt else search targetPort rest (r.carry pid) := by
  rw [search, Rec.turn, Rec.carry]
  by_cases hsocket : r.kind = xsoSocket
  · have hmiss : ¬ r.Hit targetPort pid := by
      rintro ⟨hkind, -⟩
      rw [hsocket] at hkind
      exact absurd hkind (by decide)
    simp only [hsocket, if_true, hmiss, if_false, true_and]
  · simp only [hsocket, if_false, false_and]
    change (match (if r.Hit targetPort pid then Turn.found pid.toInt else Turn.next pid) with
      | .found pid => some pid
      | .next pid => search targetPort rest pid) = _
    split_ifs <;> rfl

theorem search_append (targetPort : Int) (front rest : List Rec) (pid : Int32) :
    search targetPort (front ++ rest) pid =
      (search targetPort front pid).or (search targetPort rest (front.foldl Rec.carry pid)) := by
  induction front generalizing pid with
  | nil => rfl
  | cons r front ih =>
    rw [List.cons_append, search_cons, search_cons, List.foldl_cons]
    split_ifs
    · rfl
    · exact ih _

/-- The loop comes to this record. -/
def Visited (targetPort : Int) (recs front : List Rec) (r : Rec) (rest : List Rec) : Prop :=
  recs = front ++ r :: rest ∧ search targetPort front 0 = none

/-- A loop that comes to a record came to those before it. -/
theorem Visited.before {targetPort : Int} {recs before mid rest : List Rec} {r r' : Rec}
    (h : Visited targetPort recs (before ++ r' :: mid) r rest) :
    Visited targetPort recs before r' (mid ++ r :: rest) := by
  obtain ⟨hrecs, hnone⟩ := h
  rw [search_append, Option.or_eq_none_iff] at hnone
  exact ⟨by rw [hrecs, List.append_assoc, List.cons_append], hnone.1⟩

theorem search_concat {targetPort : Int} {front : List Rec}
    (hnone : search targetPort front 0 = none) (r : Rec) :
    search targetPort (front ++ [r]) 0 =
      if r.Hit targetPort (carried front) then some (carried front).toInt else none := by
  rw [search_append, hnone, Option.none_or, search_cons]
  rfl

/-- The call returns at the first record that is a hit. -/
theorem search_eq_some_iff {targetPort : Int} {recs : List Rec} {pid : Int} :
    search targetPort recs 0 = some pid ↔ ∃ front r rest, Visited targetPort recs front r rest ∧
      r.Hit targetPort (carried front) ∧ pid = (carried front).toInt := by
  constructor
  · intro h
    induction recs using List.reverseRecOn with
    | nil => cases h
    | append_singleton recs r ih =>
      cases hfront : search targetPort recs 0 with
      | none =>
        rw [search_concat hfront] at h
        split_ifs at h with hhit
        cases h
        exact ⟨recs, r, [], ⟨rfl, hfront⟩, hhit, rfl⟩
      | some found =>
        rw [search_append, hfront, Option.some_or] at h
        obtain ⟨front, r', rest, ⟨hrecs, hnone⟩, hhit⟩ := ih (hfront.trans h)
        exact ⟨front, r', rest ++ [r], ⟨by simp [hrecs], hnone⟩, hhit⟩
  · rintro ⟨front, r, rest, ⟨rfl, hnone⟩, hhit, rfl⟩
    rw [search_append, hnone, Option.none_or, search_cons]
    exact if_pos hhit

/-! ## The law -/

/-- The last socket record of these. -/
def lastSocket (front : List Rec) : Option Rec := front.reverse.find? (·.kind = xsoSocket)

theorem lastSocket_split {front : List Rec} {s : Rec} (h : lastSocket front = some s) :
    s.kind = xsoSocket ∧ ∃ before mid, front = before ++ s :: mid ∧
      ∀ r ∈ mid, r.kind ≠ xsoSocket := by
  obtain ⟨hkind, behind, before, hfront, hothers⟩ := List.find?_eq_some_iff_append.mp h
  refine ⟨by simpa using hkind, before.reverse, behind.reverse, ?_, ?_⟩
  · rw [← List.reverse_reverse front, hfront]
    simp
  · intro r hr
    simpa using hothers r (List.mem_reverse.mp hr)

/-- The record has the port, and its own socket has the pid. -/
def Owns (targetPort pid : Int) (front : List Rec) (r : Rec) : Prop :=
  r.kind = xsoInPCB ∧ r.lport = some targetPort ∧
    ∃ s p, lastSocket front = some s ∧ s.pid = some p ∧ pid = p.toInt

/-- Some record has the port, and its own socket the pid. -/
def Attributed (targetPort pid : Int) (recs : List Rec) : Prop :=
  ∃ front r rest, recs = front ++ r :: rest ∧ Owns targetPort pid front r

/-- No record that contains its field is ignored where the loop comes to it: behind a socket record
the loop carries its pid, and at a record with the port it returns if it carries a pid. -/
structure Heeded (targetPort : Int) (recs : List Rec) : Prop where
  socket : ∀ front r rest p, Visited targetPort recs front r rest → r.kind = xsoSocket →
    r.pid = some p → carried (front ++ [r]) = p
  inpcb : ∀ front r rest, Visited targetPort recs front r rest → r.kind = xsoInPCB →
    r.lport = some targetPort → 0 < carried front →
    (search targetPort (front ++ [r]) 0).isSome

/-- The promise of the call: it ends with one answer, whatever is in memory behind the buffer; a pid
that it returns belongs to the port; and no record that contains its field is ignored. -/
structure Right (buf : Slice UInt8) (targetPort : Int) : Prop where
  ends : ∃ out, ∀ other : Slice UInt8, other.data = buf.data → ∀ fuel, buf.len < fuel →
    getPidByPortSysctl fuel (.ok other) targetPort = some out
  attributed : ∀ fuel pid, buf.len < fuel →
    getPidByPortSysctl fuel (.ok buf) targetPort = some (.ok pid) →
    Attributed targetPort pid (recordsBehind buf.data)
  heeded : Heeded targetPort (recordsBehind buf.data)

/-- What the records must be like. -/
structure Clean (targetPort : Int) (recs : List Rec) : Prop where
  /-- A socket record that ends with its field names the pid that is carried already. -/
  socket : ∀ front r rest, Visited targetPort recs front r rest → r.kind = xsoSocket →
    r.bytes.length = 128 → r.pid = some (carried front)
  /-- No record ends with the port while a pid is carried. -/
  inpcb : ∀ front r rest, Visited targetPort recs front r rest → r.kind = xsoInPCB →
    r.bytes.length = 60 → r.lport = some targetPort → ¬ 0 < carried front
  /-- Where the loop returns, the last socket record contains its field, or a later record with the
  port happens to be of the process that is carried. -/
  owner : ∀ front r rest, Visited targetPort recs front r rest → r.Hit targetPort (carried front) →
    (∃ s, lastSocket front = some s ∧ 128 ≤ s.bytes.length) ∨
    ∃ mid r' rest', rest = mid ++ r' :: rest' ∧
      Owns targetPort (carried front).toInt (front ++ r :: mid) r'

/-- Where the sockets are heeded, the pid of the last one is carried. -/
theorem Heeded.carried_eq {targetPort : Int} {recs front rest : List Rec} {r s : Rec} {p : Int32}
    (h : Heeded targetPort recs) (hvisited : Visited targetPort recs front r rest)
    (hs : lastSocket front = some s) (hp : s.pid = some p) : carried front = p := by
  obtain ⟨hkind, before, mid, rfl, hmid⟩ := lastSocket_split hs
  rw [List.append_cons, carried_of_no_socket hmid]
  exact h.socket before s _ p hvisited.before hkind hp

theorem heeded_of_clean {targetPort : Int} {recs : List Rec} (h : Clean targetPort recs) :
    Heeded targetPort recs where
  socket front r rest p hvisited hkind hp := by
    have hlong : 128 ≤ r.bytes.length := Rec.pid_isSome.mp (hp ▸ Option.isSome_some)
    rw [carried_concat, Rec.carry]
    rcases Nat.lt_or_eq_of_le hlong with hlong | hexact
    · rw [if_pos ⟨hkind, hlong⟩, hp, Option.getD_some]
    · rw [if_neg (by omega)]
      have hsame := h.socket front r rest hvisited hkind hexact.symm
      rw [hp] at hsame
      exact (Option.some.inj hsame).symm
  inpcb front r rest hvisited hkind hport hpid := by
    have hlong : 60 ≤ r.bytes.length := Rec.lport_isSome.mp (hport ▸ Option.isSome_some)
    rcases Nat.lt_or_eq_of_le hlong with hlong | hexact
    · rw [search_concat hvisited.2, if_pos ⟨hkind, hlong, hport, hpid⟩]
      rfl
    · exact absurd hpid (h.inpcb front r rest hvisited hkind hexact.symm hport)

/-- The loop does not come past a record with the port and the pid of its socket. -/
theorem Heeded.stops_at_owner {targetPort pid : Int} {recs front mid rest : List Rec} {r r' : Rec}
    (h : Heeded targetPort recs) (hvisited : Visited targetPort recs (front ++ r' :: mid) r rest)
    (howns : Owns targetPort pid front r') : ¬ 0 < pid := by
  intro hpos
  obtain ⟨hkind, hport, s, p, hs, hp, hpid⟩ := howns
  have hcarried : 0 < carried front := by
    rw [h.carried_eq hvisited.before hs hp, Int32.lt_iff_toInt_lt, ← hpid]
    exact hpos
  have hfound := h.inpcb front r' _ hvisited.before hkind hport hcarried
  have hnone := hvisited.2
  rw [List.append_cons, search_append, Option.or_eq_none_iff] at hnone
  rw [hnone.1] at hfound
  cases hfound

theorem clean_of_heeded {targetPort : Int} {recs : List Rec} (h : Heeded targetPort recs)
    (hpid : ∀ pid, search targetPort recs 0 = some pid → Attributed targetPort pid recs) :
    Clean targetPort recs where
  socket front r rest hvisited hkind hexact := by
    obtain ⟨p, hp⟩ := Option.isSome_iff_exists.mp (Rec.pid_isSome.mpr (Nat.le_of_eq hexact.symm))
    have hcarried := h.socket front r rest p hvisited hkind hp
    rw [carried_concat, Rec.carry, if_neg (by omega)] at hcarried
    rw [hp, hcarried]
  inpcb front r rest hvisited hkind hexact hport hpos := by
    have hfound := h.inpcb front r rest hvisited hkind hport hpos
    rw [search_concat hvisited.2, if_neg fun hhit => by have := hhit.2.1; omega] at hfound
    cases hfound
  owner front r rest hvisited hhit := by
    obtain ⟨front', r', rest', hrecs, howns⟩ :=
      hpid _ (search_eq_some_iff.mpr ⟨front, r, rest, hvisited, hhit, rfl⟩)
    have hlong : ∃ s, lastSocket front' = some s ∧ 128 ≤ s.bytes.length := by
      obtain ⟨-, -, s, p, hs, hp, -⟩ := howns
      exact ⟨s, hs, Rec.pid_isSome.mp (hp ▸ Option.isSome_some)⟩
    have hsplit := hvisited.1.symm.trans hrecs
    rcases List.append_eq_append_iff.mp hsplit with ⟨mid, rfl, hmid⟩ | ⟨mid, rfl, hmid⟩
    · cases mid with
      | nil =>
        rw [List.append_nil] at hlong
        exact .inl hlong
      | cons r₂ mid =>
        obtain ⟨rfl, hrest⟩ := List.cons.inj hmid
        exact .inr ⟨mid, r', rest', hrest, howns⟩
    · cases mid with
      | nil =>
        rw [List.append_nil]
        exact .inl hlong
      | cons r₂ mid =>
        -- the loop came to that record before
        obtain ⟨rfl, -⟩ := List.cons.inj hmid
        exact absurd (Int32.lt_iff_toInt_lt.mp hhit.2.2.2) (h.stops_at_owner hvisited howns)

theorem answer_eq_ok_iff {targetPort pid : Int} {data : List UInt8} :
    answer targetPort data = .ok pid ↔ search targetPort (recordsBehind data) 0 = some pid := by
  unfold answer
  cases hsize : uint32 data with
  | none => simp [recordsBehind, hsize, search]
  | some size =>
    by_cases hfits : size.toNat < 8 ∨ data.length < size.toNat
    · simp [recordsBehind, hsize, hfits, search]
    · simp only [if_neg hfits]
      cases search targetPort (recordsBehind data) 0 <;> simp

/-- The call keeps its promise exactly for clean records. It ends and stays in the buffer for
all. -/
theorem port_goes_to_its_own_socket_iff (buf : Slice UInt8) (targetPort : Int) :
    Right buf targetPort ↔ Clean targetPort (recordsBehind buf.data) := by
  constructor
  · intro h
    refine clean_of_heeded h.heeded fun pid hfound => ?_
    refine h.attributed (buf.len + 1) pid (Nat.lt_succ_self _) ?_
    rw [getPidByPortSysctl_eq (Nat.lt_succ_self _), answer_eq_ok_iff.mpr hfound]
  · intro h
    have hheeded := heeded_of_clean h
    refine ⟨⟨answer targetPort buf.data, ?_⟩, ?_, hheeded⟩
    · intro other hdata fuel hfuel
      have hsame : other.len = buf.len := by rw [← length_data, hdata, length_data]
      rw [getPidByPortSysctl_eq (hsame ▸ hfuel), hdata]
    · intro fuel pid hfuel hout
      rw [getPidByPortSysctl_eq hfuel, Option.some.injEq, answer_eq_ok_iff,
        search_eq_some_iff] at hout
      obtain ⟨front, r, rest, hvisited, hhit, rfl⟩ := hout
      rcases h.owner front r rest hvisited hhit with ⟨s, hs, hlong⟩ | ⟨mid, r', rest', rfl, howns⟩
      · obtain ⟨p, hp⟩ := Option.isSome_iff_exists.mp (Rec.pid_isSome.mpr hlong)
        refine ⟨front, r, rest, hvisited.1, hhit.1, hhit.2.2.1, s, p, hs, hp, ?_⟩
        rw [hheeded.carried_eq hvisited hs hp]
      · exact ⟨front ++ r :: mid, r', rest', by simp [hvisited.1], howns⟩

/-! ## A socket record that ends with its field -/

/-- A record of the kind that has this length, with `field` at the offset. -/
def recordOf (kind : UInt32) (offset : Nat) (field : List UInt8) (len : Nat) : List UInt8 :=
  leBytes (UInt32.ofNat len) ++ leBytes kind ++ List.replicate (offset - 8) 0 ++ field ++
    List.replicate (len - offset - field.length) 0

/-- A socket record of process 7, one of process 9 that ends with its pid, and behind it a record
with port 443. -/
def socketOf7 : List UInt8 := recordOf xsoSocket 124 (leBytes 7) 136
def socketOf9 : List UInt8 := recordOf xsoSocket 124 (leBytes 9) 128
def port443 : List UInt8 := recordOf xsoInPCB 58 [1, 187] 104

/-- The records behind a header of 24 bytes. -/
def endsWithPid : List UInt8 :=
  leBytes 24 ++ List.replicate 20 0 ++ socketOf7 ++ socketOf9 ++ port443

/-- The port of process 9 is taken for one of process 7. -/
theorem full_socket_record_is_ignored :
    recordsBehind endsWithPid =
        [⟨xsoSocket, socketOf7⟩, ⟨xsoSocket, socketOf9⟩, ⟨xsoInPCB, port443⟩] ∧
      Rec.pid ⟨xsoSocket, socketOf9⟩ = some 9 ∧ Rec.lport ⟨xsoInPCB, port443⟩ = some 443 ∧
      getPidByPortSysctl 400 (.ok (.over endsWithPid [])) 443 = some (.ok 7) ∧
      ¬ Right (.over endsWithPid []) 443 := by
  have hrecs : recordsBehind endsWithPid =
      [⟨xsoSocket, socketOf7⟩, ⟨xsoSocket, socketOf9⟩, ⟨xsoInPCB, port443⟩] := by decide +kernel
  have hpid : Rec.pid ⟨xsoSocket, socketOf9⟩ = some 9 := by decide +kernel
  refine ⟨hrecs, hpid, by decide +kernel, by decide +kernel, ?_⟩
  intro hright
  have hheeded := hright.heeded
  rw [data_over, hrecs] at hheeded
  have hcarried := hheeded.socket [⟨xsoSocket, socketOf7⟩] ⟨xsoSocket, socketOf9⟩
    [⟨xsoInPCB, port443⟩] 9 ⟨rfl, by decide +kernel⟩ rfl hpid
  exact absurd hcarried (by decide +kernel)

end vproxy.pcblist
