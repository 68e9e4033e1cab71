-- The laws of the DNS handler. Well-formed queries get the right answer. But a name with a label
-- that is too long takes an address as well, and a question that is cut off is read on in
-- whatever the buffer held before.
import Vproxy.DnsQuery

open go go.net slices dns_names words

namespace vproxy.dns

/-! ## Well-formed queries -/

/-- A query with one question. The counts are those of the other sections, and `more` is what
stands in them. -/
structure Query where
  id : List UInt8
  flags : List UInt8
  counts : List UInt8
  labels : List Label
  qclass : List UInt8
  more : List UInt8
  id_length : id.length = 2
  flags_length : flags.length = 2
  counts_length : counts.length = 6
  class_length : qclass.length = 2
  labels_fit : Labels 63 labels

/-- The question with this type. -/
def Query.question (q : Query) (type : List UInt8) : List UInt8 :=
  encode q.labels ++ (type ++ q.qclass)

/-- The bytes of the query with this type. -/
def Query.bytes (q : Query) (type : List UInt8) : List UInt8 :=
  q.id ++ q.flags ++ [0, 1] ++ q.counts ++ (encode q.labels ++ (type ++ q.qclass ++ q.more))

theorem Query.asks (q : Query) (type : List UInt8) :
    Asks (q.bytes type) q.labels (type ++ q.qclass ++ q.more) := by
  obtain ⟨i0, i1, hid⟩ := List.length_eq_two.mp q.id_length
  obtain ⟨f0, f1, hflags⟩ := List.length_eq_two.mp q.flags_length
  have hheader : (q.id ++ q.flags ++ [0, 1] ++ q.counts).length = 12 := by
    simp [hid, hflags, q.counts_length]
  refine ⟨?_, q.labels_fit.mono (by decide), ?_⟩
  · unfold Query.bytes
    rw [hid, hflags]
    exact beUint16_cons 0 1 []
  · rw [← hheader]
    exact List.drop_left

theorem Query.take_id (q : Query) (type : List UInt8) : (q.bytes type).take 2 = q.id := by
  unfold Query.bytes
  rw [List.append_assoc, List.append_assoc, List.append_assoc, ← q.id_length, List.take_left]

/-- The type and the class of a query are read from the query. -/
theorem Query.handle (q : Query) {type : List UInt8} (htype : type.length = 2) (pool : FakeIPPool)
    (stale : List UInt8) :
    handleDNSQuery pool (.over (q.bytes type) stale) =
      if beUint16 type = 1 then
        some (⟨respHeader q.id 1 ++ q.question type ++
          respRecord (pool.getIP (nameText q.labels)).1, nameText q.labels, none⟩,
          (pool.getIP (nameText q.labels)).2)
      else if beUint16 type = 28 then
        some (⟨respHeader q.id 0 ++ q.question type, nameText q.labels, none⟩, pool)
      else some (failed (nameText q.labels) "only A and AAAA records supported", pool) := by
  have htail : type ++ q.qclass ++ q.more ++ stale = type ++ (q.qclass ++ (q.more ++ stale)) := by
    simp
  have h2 : (type ++ q.qclass ++ q.more ++ stale).take 2 = type := by
    rw [htail, ← htype, List.take_left]
  have h4 : (type ++ q.qclass ++ q.more ++ stale).take 4 = type ++ q.qclass := by
    have hlen : (type ++ q.qclass).length = 4 := by
      rw [List.length_append, htype, q.class_length]
    rw [htail, ← List.append_assoc, ← hlen, List.take_left]
  have hlen : 4 ≤ (type ++ q.qclass ++ q.more ++ stale).length := by
    simp only [List.length_append, htype, q.class_length]
    omega
  rw [handle_of_asks (q.asks type), if_neg (by omega), h2, q.take_id]
  by_cases h1 : beUint16 type = 1
  · rw [if_neg (by omega), if_neg (by omega), if_pos h1, answered, h2, h4, if_neg (by omega)]
    rfl
  rw [if_neg h1]
  by_cases h28 : beUint16 type = 28
  · rw [if_neg (by omega), if_neg (by omega), if_pos h28, answered, h2, h4, if_pos h28]
    rfl
  · rw [if_pos ⟨h1, h28⟩, if_neg h28]

/-- The record points to the name in the question. -/
theorem Query.nameAt_record (q : Query) (type : List UInt8) (ip : IP) :
    NameAt (respHeader q.id 1 ++ q.question type ++ respRecord ip)
      (12 + (q.question type).length) q.labels := by
  have hheader : (respHeader q.id 1).length = 12 := by
    simp [respHeader, q.id_length]
  have hpointer : (respHeader q.id 1 ++ q.question type ++ respRecord ip).drop
      (12 + (q.question type).length) = respRecord ip := by
    rw [← hheader, ← List.length_append, List.drop_left]
  refine @NameAt.pointer _ _ 0xc0 0x0c _ (by decide) ?_ ?_ ?_
  · rw [← List.head?_drop, hpointer]
    rfl
  · rw [← List.head?_drop, ← List.drop_drop, hpointer]
    rfl
  · refine nameAt_of_encode q.labels_fit (?_ : _ = encode q.labels ++
      (type ++ q.qclass ++ respRecord ip))
    change (respHeader q.id 1 ++ q.question type ++ respRecord ip).drop 12 = _
    rw [← hheader, List.append_assoc, List.drop_left, Query.question]
    simp

/-! ## What changes the pool -/

/-- The datagram asks for the address of a name that the pool does not know. -/
def AsksNew (pool : FakeIPPool) (data stale : List UInt8) (ls : List Label) (rest : List UInt8) :
    Prop :=
  Asks data ls rest ∧ beUint16 ((rest ++ stale).take 2) = 1 ∧ 4 ≤ (rest ++ stale).length ∧
    pool.domainToIP (nameText ls) = none

theorem getIP_pool_eq_iff (pool : FakeIPPool) (domain : Str) :
    (pool.getIP domain).2 = pool ↔ pool.domainToIP domain ≠ none := by
  unfold FakeIPPool.getIP
  cases hd : pool.domainToIP domain with
  | some ip => simp
  | none =>
    simp only [ne_eq, not_true_eq_false, iff_false]
    intro heq
    have hmap := congrFun (congrArg FakeIPPool.domainToIP heq) domain
    simp [hd] at hmap

theorem domainToIP_getIP {pool : FakeIPPool} {domain : Str} (h : pool.domainToIP domain = none) :
    (pool.getIP domain).2.domainToIP domain = some pool.current := by
  rw [FakeIPPool.getIP, h]
  exact Function.update_self ..

/-- A whole question of type A gets an address from the pool. -/
theorem handle_of_address {data : List UInt8} {ls : List Label} {rest stale : List UInt8}
    (h : Asks data ls rest) (htype : beUint16 ((rest ++ stale).take 2) = 1)
    (hwhole : 4 ≤ (rest ++ stale).length) (pool : FakeIPPool) :
    ∃ a, handleDNSQuery pool (.over data stale) = some (a, (pool.getIP (nameText ls)).2) := by
  rw [handle_of_asks h, if_neg (by omega), if_neg (by omega), if_neg (by omega), answered,
    if_neg (by omega)]
  exact ⟨_, rfl⟩

/-- Nothing else touches the pool. -/
theorem handle_pool {data stale : List UInt8} {pool pool' : FakeIPPool} {a : Answer}
    (h : handleDNSQuery pool (.over data stale) = some (a, pool')) :
    pool' = pool ∨ ∃ ls rest, Asks data ls rest ∧ beUint16 ((rest ++ stale).take 2) = 1 ∧
      4 ≤ (rest ++ stale).length ∧ pool' = (pool.getIP (nameText ls)).2 := by
  by_cases hasks : ∃ ls rest, Asks data ls rest
  · obtain ⟨ls, rest, hq⟩ := hasks
    rw [handle_of_asks hq] at h
    split at h
    · cases h
    split at h
    · cases h
      exact .inl rfl
    rename_i hknown
    split at h
    · cases h
    unfold answered at h
    dsimp only at h
    split at h
    · cases h
      exact .inl rfl
    · cases h
      exact .inr ⟨ls, rest, hq, by omega, by omega, rfl⟩
  · rw [handle_of_not_asks fun ls rest hq => hasks ⟨ls, rest, hq⟩] at h
    cases h
    exact .inl rfl

/-- The handler changes the pool for such a question only. -/
theorem handle_keeps_pool_iff (pool : FakeIPPool) (data stale : List UInt8) :
    (∀ a pool', handleDNSQuery pool (.over data stale) = some (a, pool') → pool' = pool) ↔
      ∀ ls rest, ¬ AsksNew pool data stale ls rest := by
  constructor
  · rintro hkeeps ls rest ⟨hq, htype, hwhole, hnone⟩
    obtain ⟨a, hhandle⟩ := handle_of_address hq htype hwhole pool
    exact (getIP_pool_eq_iff pool _).mp (hkeeps _ _ hhandle) hnone
  · intro hnot a pool' hhandle
    rcases handle_pool hhandle with hsame | ⟨ls, rest, hq, htype, hwhole, hpool⟩
    · exact hsame
    · rw [hpool, getIP_pool_eq_iff]
      exact fun hnone => hnot ls rest ⟨hq, htype, hwhole, hnone⟩

/-- No name is written behind the header. -/
def Malformed (data : List UInt8) : Prop :=
  ∀ ls rest, Labels 63 ls → data.drop 12 ≠ encode ls ++ rest

/-- A name that is cut off is not read, whatever lies behind it. -/
theorem parseDomain_cut {ls : List Label} (hls : Labels 63 ls) {m : Nat}
    (hm : m < (encode ls).length) (front stale : List UInt8) :
    parseDomain (.over (front ++ (encode ls).take m) stale) front.length =
      some (.error "out of bounds") := by
  apply parseDomain_of_not_encode
  intro ls' rest hls'
  rw [data_over, List.drop_left]
  refine encode_ne_of_front (hls.mono (by decide)) hls' (List.take_append_drop m _).symm ?_
  rw [ne_eq, List.drop_eq_nil_iff]
  omega

/-- A name that is malformed and still read has a long label. -/
theorem Malformed.long_label {data : List UInt8} (h : Malformed data) {ls : List Label}
    {rest : List UInt8} (hq : Asks data ls rest) : ∃ l ∈ ls, 63 < l.length := by
  by_contra hshort
  push Not at hshort
  exact h ls rest (fun l hl => ⟨(hq.labels l hl).1, hshort l hl⟩) hq.name

/-- The handler answers well-formed queries. Of the malformed names it takes those with a label
of more than 63 bytes, and they change the pool. -/
theorem hijacker_answers_well_formed_queries (pool : FakeIPPool) :
    (∀ (q : Query) type stale, parseDomain (.over (q.bytes type) stale) 12 =
      some (.ok (nameText q.labels, 12 + (encode q.labels).length))) ∧
    (∀ (q : Query) stale, ∃ resp, handleDNSQuery pool (.over (q.bytes [0, 1]) stale) =
        some (⟨resp, nameText q.labels, none⟩, (pool.getIP (nameText q.labels)).2) ∧
      resp = respHeader q.id 1 ++ q.question [0, 1] ++
        respRecord (pool.getIP (nameText q.labels)).1 ∧
      NameAt resp (12 + (q.question [0, 1]).length) q.labels) ∧
    (∀ (q : Query) stale, handleDNSQuery pool (.over (q.bytes [0, 28]) stale) =
      some (⟨respHeader q.id 0 ++ q.question [0, 28], nameText q.labels, none⟩, pool)) ∧
    (∀ (q : Query) type stale, type.length = 2 → type ≠ [0, 1] →
      ∃ a, handleDNSQuery pool (.over (q.bytes type) stale) = some (a, pool)) ∧
    (∀ front ls m stale, Labels 63 ls → m < (encode ls).length →
      parseDomain (.over (front ++ (encode ls).take m) stale) front.length =
        some (.error "out of bounds")) ∧
    ∀ data stale, Malformed data →
      ((∀ a pool', handleDNSQuery pool (.over data stale) = some (a, pool') → pool' = pool) ↔
        ¬ ∃ ls rest, AsksNew pool data stale ls rest ∧ ∃ l ∈ ls, 63 < l.length) := by
  refine ⟨?_, ?_, ?_, ?_, ?_, ?_⟩
  · intro q type stale
    exact parseDomain_of_encode (q.asks type).labels
      ((congrArg (List.drop 12) (data_over _ _)).trans (q.asks type).name)
  · intro q stale
    exact ⟨_, q.handle rfl pool stale, rfl, q.nameAt_record _ _⟩
  · intro q stale
    exact q.handle rfl pool stale
  · intro q type stale htype hother
    rw [q.handle htype, if_neg (fun h1 => hother (beUint16_eq_one htype h1))]
    split
    · exact ⟨_, rfl⟩
    · exact ⟨_, rfl⟩
  · intro front ls m stale hls hm
    exact parseDomain_cut hls hm front stale
  · intro data stale hmal
    rw [handle_keeps_pool_iff]
    constructor
    · rintro hall ⟨ls, rest, hnew, -⟩
      exact hall ls rest hnew
    · intro hnone ls rest hnew
      exact hnone ⟨ls, rest, hnew, hmal.long_label hnew.1⟩

/-- A pool of eight addresses that has given out none. -/
theorem fresh_pool : ∃ p, newFakeIPPool "10.0.0.0/29" = some p ∧ p.current = 0x0a000002 ∧
    ∀ domain, p.domainToIP domain = none :=
  ⟨_, rfl, by decide, fun _ => rfl⟩

/-- A query for `a`. -/
def plainQuery : Query where
  id := [0x12, 0x34]
  flags := [1, 0]
  counts := [0, 0, 0, 0, 0, 0]
  labels := [[97]]
  qclass := [0, 1]
  more := []
  id_length := rfl
  flags_length := rfl
  counts_length := rfl
  class_length := rfl
  labels_fit := by decide

/-- A question about mail leaves the pool alone, and a name of one byte is no name. -/
theorem mail_query_keeps_the_pool :
    ∃ p, newFakeIPPool "10.0.0.0/29" = some p ∧
      (∃ a, handleDNSQuery p (.over (plainQuery.bytes [0, 15]) []) = some (a, p)) ∧
      parseDomain (.over [1] []) 0 = some (.error "out of bounds") := by
  obtain ⟨p, hp, -, -⟩ := fresh_pool
  obtain ⟨-, -, -, hother, hcut, -⟩ := hijacker_answers_well_formed_queries p
  refine ⟨p, hp, hother plainQuery [0, 15] [] rfl (by decide), ?_⟩
  exact hcut [] [[97]] 1 [] (by decide) (by decide)

/-- A query for a name with one label of 64 bytes. -/
def longQuery : List UInt8 :=
  [0x12, 0x34, 1, 0, 0, 1, 0, 0, 0, 0, 0, 0] ++
    (encode [List.replicate 64 97] ++ [0, 1, 0, 1])

/-- The name is malformed, and it takes an address of the pool. -/
theorem long_label_takes_an_address :
    Malformed longQuery ∧ ∃ p, newFakeIPPool "10.0.0.0/29" = some p ∧
      p.domainToIP (List.replicate 64 'a') = none ∧
      ∃ a p', handleDNSQuery p (.over longQuery []) = some (a, p') ∧ a.err = none ∧
        p'.domainToIP (List.replicate 64 'a') = some 0x0a000002 := by
  have hasks : Asks longQuery [List.replicate 64 97] [0, 1, 0, 1] := ⟨by decide, by decide, rfl⟩
  have hname : nameText [List.replicate 64 97] = List.replicate 64 'a' := by decide
  constructor
  · intro ls rest hls heq
    obtain ⟨rfl, -⟩ := hasks.unique ⟨hasks.count, hls.mono (by decide), heq⟩
    exact absurd (hls _ (List.mem_singleton.mpr rfl)).2 (by decide)
  · obtain ⟨p, hp, hcurrent, hnew⟩ := fresh_pool
    have hhandle : handleDNSQuery p (.over longQuery []) =
        some (answered p (longQuery.take 2) [List.replicate 64 97] [0, 1, 0, 1]) := by
      rw [handle_of_asks hasks]
      rfl
    refine ⟨p, hp, hnew _, _, _, hhandle, rfl, ?_⟩
    rw [← hcurrent, ← hname]
    exact domainToIP_getIP (hnew _)

/-! ## What lies behind the datagram -/

/-- The datagram ends before the class of its question does. -/
def CutOff (data : List UInt8) : Prop :=
  ∀ ls rest, Labels 255 ls → data.drop 12 = encode ls ++ rest → rest.length < 4

/-- With `k` bytes behind the datagram, whatever they are, the handler answers by the datagram
alone and tells a cut-off question an error. -/
structure ReadsDatagram (pool : FakeIPPool) (data : List UInt8) (k : Nat) : Prop where
  answers : ∀ stale, stale.length = k → ∃ r, handleDNSQuery pool (.over data stale) = some r
  same : ∀ stale stale', stale.length = k → stale'.length = k →
    handleDNSQuery pool (.over data stale) = handleDNSQuery pool (.over data stale')
  cut_off : CutOff data → ∀ stale, stale.length = k →
    ∃ a, handleDNSQuery pool (.over data stale) = some (a, pool) ∧ a.err ≠ none

/-- One error for all that may lie behind is enough. -/
theorem ReadsDatagram.of_error {pool : FakeIPPool} {data : List UInt8} {k : Nat} {domain err : Str}
    (h : ∀ stale, stale.length = k →
      handleDNSQuery pool (.over data stale) = some (failed domain err, pool)) :
    ReadsDatagram pool data k where
  answers stale hk := ⟨_, h stale hk⟩
  same stale stale' hk hk' := by rw [h stale hk, h stale' hk']
  cut_off _ stale hk := ⟨_, h stale hk, nofun⟩

section

variable {pool pool' : FakeIPPool} {data rest stale : List UInt8} {ls : List Label} {k : Nat}

/-- With the whole question there, nothing behind it counts. -/
theorem handle_of_complete (h : Asks data ls rest) (hrest : 4 ≤ rest.length) :
    handleDNSQuery pool (.over data stale) =
      if beUint16 (rest.take 2) ≠ 1 ∧ beUint16 (rest.take 2) ≠ 28 then
        some (failed (nameText ls) "only A and AAAA records supported", pool)
      else some (answered pool (data.take 2) ls rest) := by
  have h2 : (rest ++ stale).take 2 = rest.take 2 := List.take_append_of_le_length (by omega)
  have h4 : (rest ++ stale).take 4 = rest.take 4 := List.take_append_of_le_length (by omega)
  have hlen : 4 ≤ (rest ++ stale).length := by
    rw [List.length_append]
    omega
  rw [handle_of_asks h, if_neg (by omega), h2, if_neg (Nat.not_lt.mpr hlen)]
  unfold answered
  rw [h2, h4]

theorem ReadsDatagram.of_complete (h : Asks data ls rest) (hrest : 4 ≤ rest.length) :
    ReadsDatagram pool data k where
  answers stale _ := by
    rw [handle_of_complete h hrest]
    split <;> exact ⟨_, rfl⟩
  same stale stale' _ _ := by rw [handle_of_complete h hrest, handle_of_complete h hrest]
  cut_off hcut := absurd (hcut ls rest h.labels h.name) (Nat.not_lt.mpr hrest)

/-- The type that the handler reads is there and is not served. -/
def Unserved (tail : List UInt8) : Prop :=
  2 ≤ tail.length ∧ beUint16 (tail.take 2) ≠ 1 ∧ beUint16 (tail.take 2) ≠ 28

theorem handle_of_unserved (h : Asks data ls rest) (htype : Unserved (rest ++ stale)) :
    handleDNSQuery pool (.over data stale) =
      some (failed (nameText ls) "only A and AAAA records supported", pool) := by
  rw [handle_of_asks h, if_neg (Nat.not_lt.mpr htype.1), if_pos htype.2]

/-- A question with an error has a type that is not served. -/
theorem unserved_of_error (h : Asks data ls rest) {a : Answer}
    (hhandle : handleDNSQuery pool (.over data stale) = some (a, pool')) (herr : a.err ≠ none) :
    Unserved (rest ++ stale) := by
  rw [handle_of_asks h] at hhandle
  by_cases h2 : (rest ++ stale).length < 2
  · rw [if_pos h2] at hhandle
    cases hhandle
  rw [if_neg h2] at hhandle
  refine ⟨Nat.not_lt.mp h2, ?_⟩
  by_contra hserved
  rw [if_neg hserved] at hhandle
  split at hhandle
  · cases hhandle
  · unfold answered at hhandle
    split at hhandle
    · cases hhandle
      exact herr rfl
    · cases hhandle
      exact herr rfl

/-- The type is not served whatever lies behind, if two bytes of it are there and say so, or one
byte does and there is room for the other. -/
theorem unserved_iff : (∀ stale, stale.length = k → Unserved (rest ++ stale)) ↔
    Unserved rest ∨ ∃ b, rest = [b] ∧ b ≠ 0 ∧ 0 < k := by
  constructor
  · intro hall
    have hzeros := hall (List.replicate k 0) List.length_replicate
    have hroom := hzeros.1
    rw [List.length_append, List.length_replicate] at hroom
    -- The buffer may go on with the bytes of type A that are missing.
    rcases rest with _ | ⟨b, _ | ⟨c, rest⟩⟩
    · rw [List.length_nil] at hroom
      have hone := (hall (0 :: 1 :: List.replicate (k - 2) 0) (by simp; omega)).2.1
      exact absurd (beUint16_cons 0 1 []) hone
    · rw [List.length_singleton] at hroom
      refine .inr ⟨b, rfl, ?_, by omega⟩
      rintro rfl
      have hone := (hall (1 :: List.replicate (k - 1) 0) (by simp; omega)).2.1
      exact absurd (beUint16_cons 0 1 []) hone
    · exact .inl ⟨by simp, hzeros.2⟩
  · rintro (⟨hlen, htype⟩ | ⟨b, rfl, hb, hk⟩) stale hstale
    · refine ⟨?_, ?_⟩
      · rw [List.length_append]
        omega
      · rw [List.take_append_of_le_length hlen]
        exact htype
    · obtain ⟨c, stale, rfl⟩ := List.exists_cons_of_length_pos (hstale ▸ hk)
      have hfirst : b.toNat ≠ 0 := fun h => hb (UInt8.toNat_inj.mp h)
      simp only [Unserved, List.singleton_append, List.length_cons, List.take_succ_cons,
        List.take_zero, beUint16_cons]
      omega

end

/-- The handler goes by the datagram alone exactly if the question is whole, or its type is there,
at least in its first byte, and is not served. -/
theorem handler_reads_beyond_the_datagram (pool : FakeIPPool) (data : List UInt8) (k : Nat) :
    ReadsDatagram pool data k ↔
      ∀ ls rest, Asks data ls rest →
        4 ≤ rest.length ∨ Unserved rest ∨ ∃ b, rest = [b] ∧ b ≠ 0 ∧ 0 < k := by
  constructor
  · intro hreads ls rest h
    rw [← unserved_iff]
    by_cases hwhole : 4 ≤ rest.length
    · exact .inl hwhole
    have hcut : CutOff data := by
      intro ls' rest' hls' heq
      obtain ⟨rfl, rfl⟩ := h.unique ⟨h.count, hls', heq⟩
      omega
    refine .inr fun stale hk => ?_
    obtain ⟨a, hhandle, herr⟩ := hreads.cut_off hcut stale hk
    exact unserved_of_error h hhandle herr
  · intro hcond
    by_cases hasks : ∃ ls rest, Asks data ls rest
    · obtain ⟨ls, rest, h⟩ := hasks
      rcases hcond ls rest h with hwhole | hunserved
      · exact .of_complete h hwhole
      · exact .of_error fun stale hk => handle_of_unserved h (unserved_iff.mpr hunserved stale hk)
    · have hnone : ∀ ls rest, ¬ Asks data ls rest := fun ls rest h => hasks ⟨ls, rest, h⟩
      exact .of_error fun stale _ => handle_of_not_asks hnone pool stale

/-- A query that ends with the name `a`. -/
def cutQuery : List UInt8 := [0x12, 0x34, 1, 0, 0, 1, 0, 0, 0, 0, 0, 0] ++ (encode [[97]] ++ [])

/-- The handler panics when the buffer ends there too, and answers when an older query goes on. -/
theorem cut_off_question_is_answered :
    CutOff cutQuery ∧ ∃ p, newFakeIPPool "10.0.0.0/29" = some p ∧
      handleDNSQuery p (.over cutQuery []) = none ∧
      ∃ a p', handleDNSQuery p (.over cutQuery [0, 1, 0, 1]) = some (a, p') ∧ a.err = none ∧
        p.domainToIP "a" = none ∧ p'.domainToIP "a" = some 0x0a000002 := by
  have hasks : Asks cutQuery [[97]] [] := ⟨by decide, by decide, rfl⟩
  constructor
  · intro ls rest hls heq
    obtain ⟨-, rfl⟩ := hasks.unique ⟨hasks.count, hls, heq⟩
    decide
  · obtain ⟨p, hp, hcurrent, hnew⟩ := fresh_pool
    have hhandle : handleDNSQuery p (.over cutQuery [0, 1, 0, 1]) =
        some (answered p (cutQuery.take 2) [[97]] [0, 1, 0, 1]) := by
      rw [handle_of_asks hasks]
      rfl
    refine ⟨p, hp, ?_, _, _, hhandle, rfl, hnew _, ?_⟩
    · rw [handle_of_asks hasks]
      rfl
    · rw [← hcurrent]
      exact domainToIP_getIP (hnew _)

end vproxy.dns
