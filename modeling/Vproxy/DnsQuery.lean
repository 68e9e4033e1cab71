-- Answers to DNS queries. The handler reads one question from the datagram and answers it from
-- the fake-IP pool. The datagram is a slice of a larger buffer, and the handler checks the
-- length of the name but not that of the type and class behind it.
import Vproxy.FakeIp
import Vproxy.Slices
import Vproxy.DnsNames

open go go.net slices dns_names words

namespace vproxy.dns

/-! ## The handler -/

/-- The domain with one more label. -/
def addLabel (domain : Str) (label : List UInt8) : Str :=
  (if domain ≠ [] then domain ++ "." else domain) ++ text label

/-- The loop of `parseDomain`. -/
def parseDomain.loop (data : Slice UInt8) (domain : Str) (curr : Nat) :
    Option (Except Str (Str × Nat)) :=
  if _h : data.len ≤ curr then some (.error "out of bounds")
  else do
    let length := (← data.index curr).toNat
    if length = 0 then some (.ok (domain, curr + 1))
    else if data.len < curr + 1 + length then some (.error "out of bounds")
    else
      let label ← data.between (curr + 1) (curr + 1 + length)
      loop data (addLabel domain label) (curr + 1 + length)
termination_by data.len - curr

/-- The domain at the offset and the offset behind it. -/
def parseDomain (data : Slice UInt8) (offset : Nat) : Option (Except Str (Str × Nat)) :=
  parseDomain.loop data [] offset

/-- What `HandleDNSQuery` returns. -/
structure Answer where
  resp : List UInt8
  domain : Str
  err : Option Str
  deriving DecidableEq

def failed (domain err : Str) : Answer := ⟨[], domain, some err⟩

/-- The type of the question whose name ends at the offset. -/
def qType (query : Slice UInt8) (offset : Nat) : Option Nat :=
  (query.between offset (offset + 2)).map beUint16

/-- `HandleDNSQuery` behind the name. -/
def answerQuestion (pool : FakeIPPool) (query : Slice UInt8) (domain : Str) (offset : Nat) :
    Option (Answer × FakeIPPool) := do
  let id ← query.between 0 2
  let qdCount ← query.between 4 6
  let type ← qType query offset
  if type ≠ 1 then
    if type = 28 then
      let question ← query.between 12 (offset + 4)
      some (⟨id ++ [0x81, 0x80] ++ qdCount ++ [0, 0] ++ [0, 0] ++ [0, 0] ++ question, domain, none⟩,
        pool)
    else some (failed domain "only A and AAAA records supported", pool)
  else
    let (fakeIP, pool) := pool.getIP domain
    let question ← query.between 12 (offset + 4)
    some (⟨id ++ [0x81, 0x80] ++ qdCount ++ [0, 1] ++ [0, 0] ++ [0, 0] ++ question ++
      ([0xc0, 0x0c] ++ [0, 1] ++ [0, 1] ++ [0, 0, 0, 60] ++ [0, 4] ++ (to4 fakeIP).getD []),
      domain, none⟩, pool)

/-- `HandleDNSQuery`. -/
def handleDNSQuery (pool : FakeIPPool) (query : Slice UInt8) : Option (Answer × FakeIPPool) :=
  if query.len < 12 then some (failed [] "packet too short", pool)
  else do
    let qdCount := beUint16 (← query.between 4 6)
    if qdCount ≠ 1 then some (failed [] "only single question supported", pool)
    else
      match ← parseDomain query 12 with
      | .error err => some (failed [] err, pool)
      | .ok (domain, offset) => answerQuestion pool query domain offset

/-! ## The name -/

/-- The labels with dots between them. -/
def nameText (ls : List Label) : Str := ['.'].intercalate (ls.map text)

theorem foldl_addLabel {domain : Str} (h : domain ≠ []) (ls : List Label) :
    ls.foldl addLabel domain = domain ++ ls.flatMap fun l => '.' :: text l := by
  induction ls generalizing domain with
  | nil => simp
  | cons l ls ih =>
    have hadd : addLabel domain l = domain ++ '.' :: text l := by
      simp [addLabel, h]
    rw [List.foldl_cons, hadd, ih (by simp), List.flatMap_cons, List.append_assoc]

theorem nameText_cons (l : Label) (ls : List Label) :
    nameText (l :: ls) = text l ++ ls.flatMap fun l => '.' :: text l := by
  unfold nameText
  induction ls generalizing l with
  | nil => simp
  | cons m ls ih =>
    rw [List.map_cons, List.intercalate_cons_of_ne_nil (by simp), ih m, List.flatMap_cons]
    simp

/-- The loop joins the labels with dots. -/
theorem foldl_addLabel_nil {limit : Nat} {ls : List Label} (h : Labels limit ls) :
    ls.foldl addLabel [] = nameText ls := by
  cases ls with
  | nil => rfl
  | cons l ls =>
    have hne : text l ≠ [] := by
      simpa [text] using (Labels.cons.mp h).1.1
    have hadd : addLabel [] l = text l := rfl
    rw [List.foldl_cons, hadd, foldl_addLabel hne, nameText_cons]

theorem parseDomain.loop_end {s : Slice UInt8} {curr : Nat} (h : s.len ≤ curr) (domain : Str) :
    loop s domain curr = some (.error "out of bounds") := by
  rw [loop, dif_pos h]

/-- One turn of the loop, by the byte at the cursor. -/
theorem parseDomain.loop_cons {s : Slice UInt8} {curr : Nat} {b : UInt8} {tail : List UInt8}
    (h : s.data.drop curr = b :: tail) (domain : Str) :
    loop s domain curr =
      if b.toNat = 0 then some (.ok (domain, curr + 1))
      else if tail.length < b.toNat then some (.error "out of bounds")
      else loop s (addLabel domain (tail.take b.toNat)) (curr + 1 + b.toNat) := by
  have hlen := length_data s
  have hdrop := congrArg List.length h
  rw [List.length_drop, List.length_cons] at hdrop
  have htail : tail = s.data.drop (curr + 1) := by
    rw [← List.drop_drop, h]
    rfl
  have hindex : s.index curr = some b := by
    rw [index_eq, ← List.head?_drop, h]
    rfl
  rw [loop, dif_neg (by omega), hindex]
  simp only [Option.bind_eq_bind, Option.bind_some]
  by_cases hzero : b.toNat = 0
  · rw [if_pos hzero, if_pos hzero]
  rw [if_neg hzero, if_neg hzero]
  by_cases hlong : tail.length < b.toNat
  · rw [if_pos hlong, if_pos (by omega)]
  · have hlabel : s.between (curr + 1) (curr + 1 + b.toNat) = some (tail.take b.toNat) := by
      rw [between_of_le (by omega) (by omega), List.drop_take, ← htail, Nat.add_sub_cancel_left]
    rw [if_neg hlong, if_neg (by omega), hlabel, Option.bind_some]

/-- The loop reads the labels that are written at the cursor, or it runs into the end. -/
theorem parseDomain.loop_spec (s : Slice UInt8) (domain : Str) (curr : Nat) :
    (∃ ls rest, Labels 255 ls ∧ s.data.drop curr = encode ls ++ rest ∧
      loop s domain curr = some (.ok (ls.foldl addLabel domain, curr + (encode ls).length))) ∨
    (∀ ls rest, Labels 255 ls → s.data.drop curr ≠ encode ls ++ rest) ∧
      loop s domain curr = some (.error "out of bounds") := by
  -- On the bytes that are left.
  induction hleft : (s.data.drop curr).length using Nat.strong_induction_on
    generalizing domain curr with
  | _ n ih =>
  cases hdata : s.data.drop curr with
  | nil =>
    have hend : s.len ≤ curr := by
      rw [← length_data s]
      exact List.drop_eq_nil_iff.mp hdata
    refine .inr ⟨?_, loop_end hend domain⟩
    rintro ls rest - heq
    exact encode_ne_nil ls (List.append_eq_nil_iff.mp heq.symm).1
  | cons b tail =>
    rw [loop_cons hdata domain]
    by_cases hzero : b = 0
    · subst hzero
      exact .inl ⟨[], tail, nofun, rfl, rfl⟩
    have hcount : ¬ b.toNat = 0 := fun h => hzero (UInt8.toNat_inj.mp h)
    rw [if_neg hcount]
    by_cases hlong : tail.length < b.toNat
    · rw [if_pos hlong]
      refine .inr ⟨?_, rfl⟩
      intro ls rest hls heq
      obtain ⟨l, ls', -, hlen, htail⟩ := encode_starts hls heq hzero
      rw [htail, List.length_append] at hlong
      omega
    rw [if_neg hlong]
    have hnext : s.data.drop (curr + 1 + b.toNat) = tail.drop b.toNat := by
      rw [← List.drop_drop, ← List.drop_drop, hdata]
      rfl
    have hshort : (s.data.drop (curr + 1 + b.toNat)).length < n := by
      rw [hnext, ← hleft, hdata, List.length_drop, List.length_cons]
      omega
    rcases ih _ hshort (addLabel domain (tail.take b.toNat)) _ rfl with
      ⟨ls, rest, hls, heq, hloop⟩ | ⟨hnone, hloop⟩
    · rw [hnext] at heq
      obtain ⟨hlabels, hbytes⟩ := encode_extends hls heq hzero (by omega)
      refine .inl ⟨_, rest, hlabels, hbytes, ?_⟩
      have hwritten : (encode (tail.take b.toNat :: ls)).length =
          1 + b.toNat + (encode ls).length := by
        rw [encode, List.length_cons, List.length_append, List.length_take]
        omega
      rw [hloop, List.foldl_cons, hwritten, ← Nat.add_assoc, ← Nat.add_assoc]
    · refine .inr ⟨?_, hloop⟩
      intro ls rest hls heq
      obtain ⟨l, ls', rfl, hlen, htail⟩ := encode_starts hls heq hzero
      refine hnone ls' rest (Labels.cons.mp hls).2 ?_
      rw [hnext, htail, hlen, List.drop_left]

theorem parseDomain_of_encode {s : Slice UInt8} {offset : Nat} {ls : List Label}
    {rest : List UInt8} (h : Labels 255 ls) (hdata : s.data.drop offset = encode ls ++ rest) :
    parseDomain s offset = some (.ok (nameText ls, offset + (encode ls).length)) := by
  rcases parseDomain.loop_spec s [] offset with ⟨ls', rest', h', hdata', hloop⟩ | ⟨hnone, -⟩
  · obtain ⟨rfl, -⟩ := encode_append_inj h h' (hdata.symm.trans hdata')
    rw [parseDomain, hloop, foldl_addLabel_nil h]
  · exact absurd hdata (hnone ls rest h)

theorem parseDomain_of_not_encode {s : Slice UInt8} {offset : Nat}
    (h : ∀ ls rest, Labels 255 ls → s.data.drop offset ≠ encode ls ++ rest) :
    parseDomain s offset = some (.error "out of bounds") := by
  rcases parseDomain.loop_spec s [] offset with ⟨ls, rest, hls, hdata, -⟩ | ⟨-, hloop⟩
  · exact absurd hdata (h ls rest hls)
  · exact hloop

/-! ## The answer -/

/-- The datagram asks one question, about the name of these labels, with `rest` behind it. -/
structure Asks (data : List UInt8) (ls : List Label) (rest : List UInt8) : Prop where
  count : beUint16 ((data.take 6).drop 4) = 1
  labels : Labels 255 ls
  name : data.drop 12 = encode ls ++ rest

/-- What a datagram without such a question is told. -/
def refusal (data : List UInt8) : Str :=
  if data.length < 12 then "packet too short"
  else if beUint16 ((data.take 6).drop 4) ≠ 1 then "only single question supported"
  else "out of bounds"

def respHeader (id : List UInt8) (anCount : UInt8) : List UInt8 :=
  id ++ [0x81, 0x80] ++ [0, 1] ++ [0, anCount] ++ [0, 0] ++ [0, 0]

/-- The record of an address, for the name in the question. -/
def respRecord (ip : IP) : List UInt8 :=
  [0xc0, 0x0c] ++ [0, 1] ++ [0, 1] ++ [0, 0, 0, 60] ++ [0, 4] ++ ip

/-- The answer to a question with this type and class and whatever comes behind them. -/
def answered (pool : FakeIPPool) (id : List UInt8) (ls : List Label) (tail : List UInt8) :
    Answer × FakeIPPool :=
  let question := encode ls ++ tail.take 4
  if beUint16 (tail.take 2) = 28 then (⟨respHeader id 0 ++ question, nameText ls, none⟩, pool)
  else
    (⟨respHeader id 1 ++ question ++ respRecord (pool.getIP (nameText ls)).1, nameText ls, none⟩,
      (pool.getIP (nameText ls)).2)

theorem Asks.length {data : List UInt8} {ls : List Label} {rest : List UInt8}
    (h : Asks data ls rest) : 12 ≤ data.length := by
  by_contra hshort
  have hnil := h.name
  rw [List.drop_eq_nil_of_le (by omega)] at hnil
  exact encode_ne_nil ls (List.append_eq_nil_iff.mp hnil.symm).1

theorem Asks.unique {data : List UInt8} {ls ls' : List Label} {rest rest' : List UInt8}
    (h : Asks data ls rest) (h' : Asks data ls' rest') : ls = ls' ∧ rest = rest' :=
  encode_append_inj h.labels h'.labels (h.name.symm.trans h'.name)

theorem to4_getIP (pool : FakeIPPool) (domain : Str) :
    to4 (pool.getIP domain).1 = some (pool.getIP domain).1 := by
  unfold FakeIPPool.getIP
  split <;> exact to4_uint32ToIP _

theorem handle_of_not_asks {data : List UInt8} (h : ∀ ls rest, ¬ Asks data ls rest)
    (pool : FakeIPPool) (stale : List UInt8) :
    handleDNSQuery pool (.over data stale) = some (failed [] (refusal data), pool) := by
  unfold handleDNSQuery refusal
  rw [len_over]
  by_cases hshort : data.length < 12
  · rw [if_pos hshort, if_pos hshort]
  rw [if_neg hshort, if_neg hshort, between_of_le (by decide) (by rw [len_over]; omega), data_over]
  simp only [Option.bind_eq_bind, Option.bind_some]
  by_cases hcount : beUint16 ((data.take 6).drop 4) = 1
  · rw [if_neg (not_not_intro hcount), if_neg (not_not_intro hcount)]
    rw [parseDomain_of_not_encode, Option.bind_some]
    intro ls rest hls hname
    rw [data_over] at hname
    exact h ls rest ⟨hcount, hls, hname⟩
  · rw [if_pos hcount, if_pos hcount]

theorem beUint16_eq_one {b : List UInt8} (hlen : b.length = 2) (h : beUint16 b = 1) : b = [0, 1] := by
  obtain ⟨hi, lo, rfl⟩ := List.length_eq_two.mp hlen
  have hlo := lo.toNat_lt
  rw [beUint16_cons] at h
  obtain rfl : hi = 0 := UInt8.toNat_inj.mp (show hi.toNat = 0 by omega)
  obtain rfl : lo = 1 := UInt8.toNat_inj.mp (show lo.toNat = 1 by omega)
  rfl

section

variable {data : List UInt8} {ls : List Label} {rest : List UInt8}

theorem qType_of_asks (h : Asks data ls rest) (stale : List UInt8) :
    qType (.over data stale) (12 + (encode ls).length) =
      if 2 ≤ (rest ++ stale).length then some (beUint16 ((rest ++ stale).take 2)) else none := by
  have hfront : (data.take 12 ++ encode ls).length = 12 + (encode ls).length := by
    rw [List.length_append, List.length_take, Nat.min_eq_left h.length]
  have hdata : data = data.take 12 ++ encode ls ++ rest := by
    rw [List.append_assoc, ← h.name, List.take_append_drop]
  unfold qType
  conv_lhs => rw [hdata, ← hfront, between_over]
  split <;> rfl

theorem question_of_asks (h : Asks data ls rest) (stale : List UInt8) :
    (Slice.over data stale).between 12 (12 + (encode ls).length + 4) =
      if 4 ≤ (rest ++ stale).length then some (encode ls ++ (rest ++ stale).take 4) else none := by
  have hfront : (data.take 12).length = 12 := by
    rw [List.length_take, Nat.min_eq_left h.length]
  have hdata : data = data.take 12 ++ (encode ls ++ rest) := by
    rw [← h.name, List.take_append_drop]
  have hover := between_over (data.take 12) (encode ls ++ rest) stale ((encode ls).length + 4)
  rw [← hdata, hfront, ← Nat.add_assoc, List.append_assoc, List.take_length_add_append,
    List.length_append] at hover
  rw [hover]
  exact if_congr (by omega) rfl rfl

theorem qdCount_of_asks (h : Asks data ls rest) (stale : List UInt8) :
    (Slice.over data stale).between 4 6 = some [0, 1] := by
  have hlen := h.length
  rw [between_of_le (by decide) (by rw [len_over]; omega), data_over]
  refine congrArg some (beUint16_eq_one ?_ h.count)
  rw [List.length_drop, List.length_take]
  omega

theorem handle_eq_answerQuestion (h : Asks data ls rest) (pool : FakeIPPool)
    (stale : List UInt8) :
    handleDNSQuery pool (.over data stale) =
      answerQuestion pool (.over data stale) (nameText ls) (12 + (encode ls).length) := by
  have hlen := h.length
  have hname : parseDomain (.over data stale) 12 =
      some (.ok (nameText ls, 12 + (encode ls).length)) :=
    parseDomain_of_encode h.labels (by rw [data_over]; exact h.name)
  have hone : ¬ beUint16 [0, 1] ≠ 1 := by decide
  unfold handleDNSQuery
  rw [len_over, if_neg (by omega), qdCount_of_asks h, hname]
  simp only [Option.bind_eq_bind, Option.bind_some, if_neg hone]

/-- The handler reads the type and the class from what lies behind the name in the buffer. -/
theorem handle_of_asks (h : Asks data ls rest) (pool : FakeIPPool) (stale : List UInt8) :
    handleDNSQuery pool (.over data stale) =
      if (rest ++ stale).length < 2 then none
      else if beUint16 ((rest ++ stale).take 2) ≠ 1 ∧ beUint16 ((rest ++ stale).take 2) ≠ 28 then
        some (failed (nameText ls) "only A and AAAA records supported", pool)
      else if (rest ++ stale).length < 4 then none
      else some (answered pool (data.take 2) ls (rest ++ stale)) := by
  have hlen := h.length
  have hid : (Slice.over data stale).between 0 2 = some (data.take 2) := by
    rw [between_of_le (by decide) (by rw [len_over]; omega), data_over]
    rfl
  rw [handle_eq_answerQuestion h]
  unfold answerQuestion
  rw [hid, qdCount_of_asks h, qType_of_asks h, question_of_asks h]
  generalize rest ++ stale = tail
  simp only [Option.bind_eq_bind, Option.bind_some]
  by_cases h2 : tail.length < 2
  · rw [if_pos h2, if_neg (by omega), Option.bind_none]
  rw [if_neg h2, if_pos (by omega), Option.bind_some]
  by_cases h1 : beUint16 (tail.take 2) = 1
  · have hknown : ¬ (beUint16 (tail.take 2) ≠ 1 ∧ beUint16 (tail.take 2) ≠ 28) := by omega
    have hother : ¬ beUint16 (tail.take 2) = 28 := by omega
    rw [if_neg (not_not_intro h1), if_neg hknown]
    by_cases h4 : tail.length < 4
    · rw [if_pos h4, if_neg (Nat.not_le.mpr h4), Option.bind_none]
    · rw [if_neg h4, if_pos (Nat.not_lt.mp h4), Option.bind_some, to4_getIP, answered, if_neg hother]
      rfl
  rw [if_pos h1]
  by_cases h28 : beUint16 (tail.take 2) = 28
  · have hknown : ¬ (beUint16 (tail.take 2) ≠ 1 ∧ beUint16 (tail.take 2) ≠ 28) := by omega
    rw [if_pos h28, if_neg hknown]
    by_cases h4 : tail.length < 4
    · rw [if_pos h4, if_neg (Nat.not_le.mpr h4), Option.bind_none]
    · rw [if_neg h4, if_pos (Nat.not_lt.mp h4), Option.bind_some, answered, if_pos h28]
      rfl
  · rw [if_neg h28, if_pos ⟨h1, h28⟩]

end

end vproxy.dns
