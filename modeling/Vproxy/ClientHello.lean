-- The server name of a ClientHello (extractSNIFromPayload). The code skips the fields by their
-- declared lengths and takes the name of the first server_name extension. It never reads outside
-- the payload, and it reads back the name that a sender writes. But it compares the length of the
-- name with the end of all extensions only, so a name may reach out of its extension.
import Vproxy.ConnectHead

open go slices words

namespace vproxy

/-! ## The checks on the indices -/

/-- The number in the bytes `i` and `i + 1` of a slice; a panic gives nothing. -/
def checkedTwoBytes (b : Slice UInt8) (i : Nat) : Option Nat := do
  let hi ← b.index i
  let lo ← b.index (i + 1)
  return hi.toNat <<< 8 ||| lo.toNat

/-- The loop of `extractSNIFromPayload`, with the checks that Go makes on every index. -/
def extractSNIFromPayload.checkedLoop (payload : Slice UInt8) (stop offset : Nat) :
    Option (Except Str Str) :=
  if offset + 4 ≤ stop then do
    let extType ← checkedTwoBytes payload offset
    let extLen ← checkedTwoBytes payload (offset + 2)
    if extType = 0 then
      if 5 ≤ extLen ∧ offset + 4 + 5 ≤ stop then
        let nameLen ← checkedTwoBytes payload (offset + 4 + 3)
        if offset + 4 + 5 + nameLen ≤ stop then
          let name ← payload.between (offset + 4 + 5) (offset + 4 + 5 + nameLen)
          return .ok (text name)
        else return .error "SNI not found"
      else return .error "SNI not found"
    else checkedLoop payload stop (offset + 4 + extLen)
  else return .error "SNI not found"
termination_by stop - offset

/-- `extractSNIFromPayload` with these checks. -/
def extractSNIFromPayload.checked (payload : Slice UInt8) : Option (Except Str Str) :=
  if payload.len < 42 then return .error "payload too short"
  else do
    let kind ← payload.index 0
    if kind ≠ 1 then return .error "not a ClientHello message"
    else
      let sessionIDLen ← payload.index 38
      let offset := 39 + sessionIDLen.toNat
      if payload.len < offset + 2 then return .error "invalid ClientHello"
      else
        let cipherSuitesLen ← checkedTwoBytes payload offset
        let offset := offset + 2 + cipherSuitesLen
        if payload.len < offset + 1 then return .error "invalid ClientHello"
        else
          let compressionMethodsLen ← payload.index offset
          let offset := offset + 1 + compressionMethodsLen.toNat
          if payload.len < offset + 2 then return .error "no extensions"
          else
            let extensionsLen ← checkedTwoBytes payload offset
            let offset := offset + 2
            checkedLoop payload (min (offset + extensionsLen) payload.len) offset

section

variable {payload : Slice UInt8}

theorem index_of_lt {i : Nat} (h : i < payload.len) :
    payload.index i = some (payload.data.getD i 0) := by
  rw [index_eq, List.getD_eq_getElem?_getD]
  have hlen : i < payload.data.length := length_data payload ▸ h
  rw [List.getElem?_eq_getElem hlen, Option.getD_some]

theorem checkedTwoBytes_of_lt {i : Nat} (h : i + 1 < payload.len) :
    checkedTwoBytes payload i = some (twoBytes payload.data i) := by
  unfold checkedTwoBytes
  rw [index_of_lt (Nat.lt_of_succ_lt h), index_of_lt h]
  rfl

theorem checkedLoop_eq {stop : Nat} (hstop : stop ≤ payload.len) (offset : Nat) :
    extractSNIFromPayload.checkedLoop payload stop offset =
      some (extractSNIFromPayload.loop payload.data stop offset) := by
  induction hleft : stop - offset using Nat.strong_induction_on generalizing offset with
  | h left ih =>
    rw [extractSNIFromPayload.checkedLoop, extractSNIFromPayload.loop]
    split
    · rename_i hheader
      rw [checkedTwoBytes_of_lt (by omega), checkedTwoBytes_of_lt (by omega)]
      simp only [Option.bind_eq_bind, Option.bind_some]
      split
      · split
        · rename_i hroom
          rw [checkedTwoBytes_of_lt (by omega), Option.bind_some]
          split
          · rename_i hname
            rw [between_of_le (by omega) (by omega), Option.bind_some, List.drop_take,
              Nat.add_sub_cancel_left]
            rfl
          · rfl
        · rfl
      · exact ih _ (by omega) _ rfl
    · rfl

/-- No index is out of range. -/
theorem checked_eq (payload : Slice UInt8) :
    extractSNIFromPayload.checked payload = some (extractSNIFromPayload payload.data) := by
  unfold extractSNIFromPayload.checked extractSNIFromPayload
  rw [length_data]
  split
  · rfl
  rw [index_of_lt (by omega), index_of_lt (by omega)]
  simp only [Option.bind_eq_bind, Option.bind_some]
  split
  · rfl
  split
  · rfl
  rw [checkedTwoBytes_of_lt (by omega), Option.bind_some]
  split
  · rfl
  rw [index_of_lt (by omega), Option.bind_some]
  split
  · rfl
  rw [checkedTwoBytes_of_lt (by omega), Option.bind_some]
  exact checkedLoop_eq (Nat.min_le_right _ _) _

end

/-! ## The message -/

/-- A vector with its length in one byte. -/
def vec8 (b : List UInt8) : List UInt8 := UInt8.ofNat b.length :: b

/-- A vector with its length in two bytes. -/
def vec16 (b : List UInt8) : List UInt8 := socks.portBytes b.length ++ b

structure Extension where
  extType : UInt16
  data : List UInt8
  data_lt : data.length < 2 ^ 16

def Extension.encode (e : Extension) : List UInt8 := socks.portBytes e.extType.toNat ++ vec16 e.data

/-- A well-formed ClientHello. The extensions may be missing as a whole. -/
structure ClientHello where
  version : UInt16
  random : List UInt8
  random_length : random.length = 32
  sessionID : List UInt8
  sessionID_le : sessionID.length ≤ 255
  cipherSuites : List UInt8
  cipherSuites_lt : cipherSuites.length < 2 ^ 16
  compressionMethods : List UInt8
  compressionMethods_le : compressionMethods.length ≤ 255
  extensions : Option (List Extension)
  extensions_lt : ∀ exts, extensions = some exts → (exts.flatMap Extension.encode).length < 2 ^ 16

/-- The extensions with their length. -/
def ClientHello.tail (hello : ClientHello) : List UInt8 :=
  match hello.extensions with
  | none => []
  | some exts => vec16 (exts.flatMap Extension.encode)

def ClientHello.body (hello : ClientHello) : List UInt8 :=
  socks.portBytes hello.version.toNat ++ (hello.random ++ (vec8 hello.sessionID ++
    (vec16 hello.cipherSuites ++ (vec8 hello.compressionMethods ++ hello.tail))))

/-- The handshake message: its type, its length in three bytes, and the fields. -/
def ClientHello.encode (hello : ClientHello) : List UInt8 :=
  let length := hello.body.length
  1 :: UInt8.ofNat (length >>> 16) :: UInt8.ofNat (length >>> 8) :: UInt8.ofNat length :: hello.body

/-- The data of a server_name extension whose first entry is a host name. -/
def serverNameList (name more : List UInt8) : List UInt8 := vec16 (0 :: vec16 name ++ more)

/-- The first server_name extension, if there is one. -/
def ClientHello.serverName (hello : ClientHello) : Option Extension :=
  (hello.extensions.getD []).find? fun e => e.extType = 0

/-! ## A cursor in the payload -/

/-- At this offset the payload goes on with `rest`. -/
def At (payload : List UInt8) (offset : Nat) (rest : List UInt8) : Prop :=
  ∃ front, front.length = offset ∧ payload = front ++ rest

section

variable {payload a rest : List UInt8} {offset : Nat}

theorem At.skip (h : At payload offset (a ++ rest)) : At payload (offset + a.length) rest := by
  obtain ⟨front, rfl, rfl⟩ := h
  exact ⟨front ++ a, by simp, by simp⟩

theorem At.length_eq (h : At payload offset rest) : payload.length = offset + rest.length := by
  obtain ⟨front, rfl, rfl⟩ := h
  exact List.length_append

theorem At.getD (h : At payload offset rest) (i : Nat) :
    payload.getD (offset + i) 0 = rest.getD i 0 := by
  obtain ⟨front, rfl, rfl⟩ := h
  rw [List.getD_append_right _ _ _ _ (Nat.le_add_right _ _), Nat.add_sub_cancel_left]

theorem At.byte {b : UInt8} (h : At payload offset (b :: rest)) : payload.getD offset 0 = b :=
  h.getD 0

theorem At.number {n : Nat} (h : At payload offset (socks.portBytes n ++ rest)) (hn : n < 2 ^ 16) :
    twoBytes payload offset = n := by
  unfold twoBytes
  rw [← Nat.add_zero offset, Nat.add_assoc, h.getD, h.getD]
  exact socks.portBytes_value hn

theorem At.take (h : At payload offset (a ++ rest)) :
    (payload.drop offset).take a.length = a := by
  obtain ⟨front, rfl, rfl⟩ := h
  rw [List.drop_left, List.take_left]

/-- Past a vector with its length in one byte. -/
theorem At.vec8 (h : At payload offset (vec8 a ++ rest)) (ha : a.length ≤ 255) :
    (payload.getD offset 0).toNat = a.length ∧ At payload (offset + 1 + a.length) rest := by
  refine ⟨?_, ?_⟩
  · rw [At.byte h, UInt8.toNat_ofNat', Nat.mod_eq_of_lt (by omega)]
  · have hskip : At payload (offset + 1) (a ++ rest) := At.skip (a := [UInt8.ofNat a.length]) h
    exact hskip.skip

/-- Past a vector with its length in two bytes. -/
theorem At.vec16 (h : At payload offset (vec16 a ++ rest)) (ha : a.length < 2 ^ 16) :
    twoBytes payload offset = a.length ∧ At payload (offset + 2) (a ++ rest) := by
  have hfields : At payload offset (socks.portBytes a.length ++ (a ++ rest)) := by
    rw [← List.append_assoc]
    exact h
  exact ⟨hfields.number ha, hfields.skip⟩

/-- At an extension. -/
theorem At.extension {e : Extension} (h : At payload offset (e.encode ++ rest)) :
    twoBytes payload offset = e.extType.toNat ∧ twoBytes payload (offset + 2) = e.data.length ∧
      At payload (offset + 4) (e.data ++ rest) := by
  have hfields : At payload offset
      (socks.portBytes e.extType.toNat ++ (vproxy.vec16 e.data ++ rest)) := by
    rw [← List.append_assoc]
    exact h
  obtain ⟨hlen, hdata⟩ := At.vec16 hfields.skip e.data_lt
  exact ⟨hfields.number e.extType.toNat_lt, hlen, hdata⟩

end

/-! ## Reading a message back -/

theorem length_extension (e : Extension) : e.encode.length = 4 + e.data.length := by
  simp only [Extension.encode, vec16, socks.portBytes, List.length_append, List.length_cons,
    List.length_nil]
  omega

section

variable {payload rest : List UInt8} {offset : Nat} {exts : List Extension}

/-- The loop passes an extension of another type. -/
theorem loop_other {e : Extension} {stop : Nat} (h : At payload offset (e.encode ++ rest))
    (hstop : offset + 4 ≤ stop) (htype : e.extType ≠ 0) :
    extractSNIFromPayload.loop payload stop offset =
      extractSNIFromPayload.loop payload stop (offset + e.encode.length) := by
  obtain ⟨hnumber, hlen, -⟩ := h.extension
  have hne : twoBytes payload offset ≠ 0 := by
    rw [hnumber]
    intro hzero
    exact htype (UInt16.toNat_inj.mp hzero)
  rw [extractSNIFromPayload.loop, if_pos hstop]
  dsimp only
  rw [if_neg hne, hlen, length_extension, Nat.add_assoc]

/-- The loop takes the host name of a server_name extension. -/
theorem loop_serverName {e : Extension} {stop : Nat} {name more : List UInt8}
    (h : At payload offset (e.encode ++ rest)) (hstop : offset + e.encode.length ≤ stop)
    (htype : e.extType = 0) (hdata : e.data = serverNameList name more) :
    extractSNIFromPayload.loop payload stop offset = .ok (text name) := by
  obtain ⟨hnumber, hlen, hat⟩ := h.extension
  have hfits := e.data_lt
  have hdataLen : e.data.length = 5 + name.length + more.length := by
    rw [hdata]
    simp only [serverNameList, vec16, socks.portBytes, List.length_append, List.length_cons,
      List.length_nil]
    omega
  rw [length_extension] at hstop
  -- The length of the list and the type of the entry, and then the name with its length.
  have hname : At payload (offset + 4 + 3) (vec16 name ++ (more ++ rest)) := by
    have hsplit : e.data ++ rest =
        (socks.portBytes (0 :: vec16 name ++ more).length ++ [0]) ++
          (vec16 name ++ (more ++ rest)) := by
      rw [hdata, serverNameList, vec16]
      simp only [List.append_assoc, List.cons_append, List.nil_append]
    rw [hsplit] at hat
    exact hat.skip
  obtain ⟨hnameLen, hbytes⟩ := hname.vec16 (by omega)
  rw [extractSNIFromPayload.loop, if_pos (by omega)]
  dsimp only
  rw [if_pos (by rw [hnumber, htype]; rfl), hlen, if_pos ⟨by omega, by omega⟩, hnameLen,
    if_pos (by omega), hbytes.take]

/-- Over a list of extensions the loop comes to the first server_name, or to the end. -/
theorem loop_exts (h : At payload offset (exts.flatMap Extension.encode ++ rest)) :
    let stop := offset + (exts.flatMap Extension.encode).length
    match exts.find? fun e => e.extType = 0 with
    | none => extractSNIFromPayload.loop payload stop offset = .error "SNI not found"
    | some e => ∃ o rest', At payload o (e.encode ++ rest') ∧ o + e.encode.length ≤ stop ∧
        extractSNIFromPayload.loop payload stop offset =
          extractSNIFromPayload.loop payload stop o := by
  induction exts generalizing offset with
  | nil =>
    have hend : ¬ offset + 4 ≤ offset + ([].flatMap Extension.encode).length := by
      rw [List.flatMap_nil, List.length_nil]
      omega
    dsimp only [List.find?_nil]
    rw [extractSNIFromPayload.loop, if_neg hend]
  | cons first exts ih =>
    rw [List.flatMap_cons, List.append_assoc] at h
    rw [List.flatMap_cons, List.length_append]
    by_cases htype : first.extType = 0
    · have hfind : (first :: exts).find? (fun e => e.extType = 0) = some first := by
        simp [htype]
      rw [hfind]
      exact ⟨offset, _, h, by omega, rfl⟩
    · have hfind : (first :: exts).find? (fun e => e.extType = 0) =
          exts.find? fun e => e.extType = 0 := by
        simp [htype]
      have hrest := ih h.skip
      rw [hfind]
      dsimp only at hrest ⊢
      rw [loop_other h (by rw [length_extension]; omega) htype, ← Nat.add_assoc]
      exact hrest

end

/-- Every message has the 42 bytes that the code asks for. -/
theorem ClientHello.length_encode (hello : ClientHello) :
    hello.encode.length = 42 + hello.sessionID.length + hello.cipherSuites.length +
      hello.compressionMethods.length + hello.tail.length := by
  have hrandom := hello.random_length
  simp only [encode, body, vec8, vec16, socks.portBytes, List.length_append, List.length_cons,
    List.length_nil]
  omega

/-- The fields before the extensions are skipped. -/
theorem extractSNIFromPayload_encode (hello : ClientHello) :
    ∃ offset, At hello.encode offset hello.tail ∧
      extractSNIFromPayload hello.encode =
        if hello.encode.length < offset + 2 then .error "no extensions"
        else extractSNIFromPayload.loop hello.encode
          (min (offset + 2 + twoBytes hello.encode offset) hello.encode.length) (offset + 2) := by
  have hbody : At hello.encode 4 hello.body :=
    ⟨1 :: UInt8.ofNat (hello.body.length >>> 16) :: UInt8.ofNat (hello.body.length >>> 8) ::
      [UInt8.ofNat hello.body.length], rfl, rfl⟩
  have hrandom := hbody.skip
  have hsession := hrandom.skip
  have hstart : 4 + (socks.portBytes hello.version.toNat).length + hello.random.length = 38 :=
    congrArg _ hello.random_length
  rw [hstart] at hsession
  obtain ⟨hsessionLen, hsuites⟩ := hsession.vec8 hello.sessionID_le
  obtain ⟨hsuitesLen, hsuitesData⟩ := hsuites.vec16 hello.cipherSuites_lt
  obtain ⟨hmethodsLen, htail⟩ := hsuitesData.skip.vec8 hello.compressionMethods_le
  refine ⟨_, htail, ?_⟩
  have hkind : hello.encode.getD 0 0 = 1 := rfl
  have hlong := hello.length_encode
  have hlen := htail.length_eq
  unfold extractSNIFromPayload
  rw [if_neg (by omega), if_neg (by rw [hkind]; exact fun hne => hne rfl)]
  dsimp only
  rw [hsessionLen, if_neg (by omega), hsuitesLen, if_neg (by omega), hmethodsLen]

/-- With extensions the loop runs over them. -/
theorem extractSNIFromPayload_exts {hello : ClientHello} {exts : List Extension}
    (h : hello.extensions = some exts) :
    ∃ offset, At hello.encode offset (exts.flatMap Extension.encode ++ []) ∧
      extractSNIFromPayload hello.encode = extractSNIFromPayload.loop hello.encode
        (offset + (exts.flatMap Extension.encode).length) offset := by
  obtain ⟨offset, htail, heq⟩ := extractSNIFromPayload_encode hello
  have hvec : hello.tail = vec16 (exts.flatMap Extension.encode) ++ [] := by
    unfold ClientHello.tail
    rw [h, List.append_nil]
  rw [hvec] at htail
  obtain ⟨hlen, hexts⟩ := htail.vec16 (hello.extensions_lt exts h)
  have hend := hexts.length_eq
  rw [List.append_nil] at hend
  refine ⟨offset + 2, hexts, ?_⟩
  rw [heq, if_neg (by omega), hlen, hend, Nat.min_self]

/-- No read of the payload is out of range. A ClientHello whose first server_name starts with a
host name gives that name, and one without a server_name gives an error. -/
theorem server_name_is_read_back :
    (∀ payload : Slice UInt8,
      extractSNIFromPayload.checked payload = some (extractSNIFromPayload payload.data)) ∧
    (∀ (hello : ClientHello) (e : Extension) (name more : List UInt8),
      hello.serverName = some e → e.data = serverNameList name more →
        extractSNIFromPayload hello.encode = .ok (text name)) ∧
    ∀ hello : ClientHello, hello.serverName = none →
      ∃ err, extractSNIFromPayload hello.encode = .error err := by
  refine ⟨checked_eq, ?_, ?_⟩
  · intro hello e name more hfirst hdata
    obtain ⟨exts, hexts⟩ : ∃ exts, hello.extensions = some exts := by
      rcases hexts : hello.extensions with _ | exts
      · rw [ClientHello.serverName, hexts] at hfirst
        cases hfirst
      · exact ⟨exts, rfl⟩
    rw [ClientHello.serverName, hexts, Option.getD_some] at hfirst
    obtain ⟨offset, hat, heq⟩ := extractSNIFromPayload_exts hexts
    have hloop := loop_exts hat
    rw [hfirst] at hloop
    obtain ⟨o, rest, he, hroom, hcome⟩ := hloop
    have htype : e.extType = 0 := by simpa using List.find?_some hfirst
    rw [heq, hcome, loop_serverName he hroom htype hdata]
  · intro hello hnone
    rcases hexts : hello.extensions with _ | exts
    · obtain ⟨offset, htail, heq⟩ := extractSNIFromPayload_encode hello
      have hempty : hello.tail = [] := by
        unfold ClientHello.tail
        rw [hexts]
      have hend := htail.length_eq
      rw [hempty, List.length_nil] at hend
      exact ⟨_, by rw [heq, if_pos (by omega)]⟩
    · rw [ClientHello.serverName, hexts, Option.getD_some] at hnone
      obtain ⟨offset, hat, heq⟩ := extractSNIFromPayload_exts hexts
      have hloop := loop_exts hat
      rw [hnone] at hloop
      exact ⟨_, heq.trans hloop⟩

/-! ## Where a name comes from -/

/-- The walk over the extensions by their declared lengths comes from `offset` to the first
server_name, at `ext`. -/
inductive FirstServerName (payload : List UInt8) (stop : Nat) : Nat → Nat → Prop
  | here {offset : Nat} : offset + 4 ≤ stop → twoBytes payload offset = 0 →
      FirstServerName payload stop offset offset
  | next {offset ext : Nat} : offset + 4 ≤ stop → twoBytes payload offset ≠ 0 →
      FirstServerName payload stop (offset + 4 + twoBytes payload (offset + 2)) ext →
        FirstServerName payload stop offset ext

/-- The offset of the first extension, and the end of the extensions. -/
def extensionsOf (payload : List UInt8) : Nat × Nat :=
  let suites := 39 + (payload.getD 38 0).toNat
  let methods := suites + 2 + twoBytes payload suites
  let exts := methods + 1 + (payload.getD methods 0).toNat
  (exts + 2, min (exts + 2 + twoBytes payload exts) payload.length)

/-- The walk over the entries of a list of server names: each has a type, a length and a name. -/
inductive EntryAt (payload : List UInt8) : Nat → Nat → Prop
  | here {offset : Nat} : EntryAt payload offset offset
  | next {offset entry : Nat} : EntryAt payload (offset + 3 + twoBytes payload (offset + 1)) entry →
      EntryAt payload offset entry

/-- The bytes from `lo` to `hi` are in the server_name extension at `ext`, in its list, and in an
entry of the list that is a host name. -/
structure InServerName (payload : List UInt8) (ext lo hi : Nat) : Prop where
  in_extension : ext + 4 ≤ lo ∧ hi ≤ ext + 4 + twoBytes payload (ext + 2)
  in_list : ext + 6 ≤ lo ∧ hi ≤ ext + 6 + twoBytes payload (ext + 4)
  in_entry : ∃ entry, EntryAt payload (ext + 6) entry ∧ payload.getD entry 0 = 0 ∧
    entry + 3 ≤ lo ∧ hi ≤ entry + 3 + twoBytes payload (entry + 1)

/-- The length of the name in the first entry. -/
def nameLength (payload : List UInt8) (ext : Nat) : Nat := twoBytes payload (ext + 7)

theorem loop_ok {payload : List UInt8} {stop offset : Nat} {name : Str}
    (h : extractSNIFromPayload.loop payload stop offset = .ok name) :
    ∃ ext, FirstServerName payload stop offset ext ∧ ext + 9 + nameLength payload ext ≤ stop ∧
      name = text ((payload.drop (ext + 9)).take (nameLength payload ext)) := by
  induction hleft : stop - offset using Nat.strong_induction_on generalizing offset with
  | h left ih =>
    rw [extractSNIFromPayload.loop] at h
    split at h
    · rename_i hheader
      dsimp only at h
      split at h
      · rename_i htype
        refine ⟨offset, .here hheader htype, ?_⟩
        split at h
        · split at h
          · rename_i hroom
            exact ⟨hroom, (Except.ok.inj h).symm⟩
          · cases h
        · cases h
      · rename_i htype
        obtain ⟨ext, hext, hrest⟩ := ih _ (by omega) h rfl
        exact ⟨ext, .next hheader htype hext, hrest⟩
    · cases h

theorem extractSNIFromPayload_ok {payload : List UInt8} {name : Str}
    (h : extractSNIFromPayload payload = .ok name) :
    ∃ ext, FirstServerName payload (extensionsOf payload).2 (extensionsOf payload).1 ext ∧
      ext + 9 + nameLength payload ext ≤ (extensionsOf payload).2 ∧
      name = text ((payload.drop (ext + 9)).take (nameLength payload ext)) := by
  unfold extractSNIFromPayload at h
  split at h
  · cases h
  split at h
  · cases h
  dsimp only at h
  split at h
  · cases h
  split at h
  · cases h
  split at h
  · cases h
  · exact loop_ok h

/-- Only the first entry can hold the bytes right behind its own header. -/
theorem entryAt_le {payload : List UInt8} {offset entry : Nat} (h : EntryAt payload offset entry)
    (hle : entry ≤ offset) : entry = offset := by
  have hge : ∀ {o e}, EntryAt payload o e → o ≤ e := by
    intro o e he
    induction he with
    | here => exact Nat.le_refl _
    | next _ ih => omega
  exact Nat.le_antisymm hle (hge h)

theorem inServerName_iff (payload : List UInt8) (ext : Nat) :
    InServerName payload ext (ext + 9) (ext + 9 + nameLength payload ext) ↔
      payload.getD (ext + 6) 0 = 0 ∧
        nameLength payload ext + 5 ≤ twoBytes payload (ext + 2) ∧
        nameLength payload ext + 3 ≤ twoBytes payload (ext + 4) := by
  constructor
  · rintro ⟨⟨-, hext⟩, ⟨-, hlist⟩, entry, hentry, htype, hlo, -⟩
    obtain rfl := entryAt_le hentry (by omega)
    exact ⟨htype, by omega, by omega⟩
  · rintro ⟨htype, hext, hlist⟩
    refine ⟨⟨by omega, by omega⟩, ⟨by omega, by omega⟩, ext + 6, .here, htype, by omega, ?_⟩
    exact Nat.le_refl _

/-- A name that is found consists of the bytes behind the header of the first entry of the first
server_name. They are in that extension, in its list and in an entry for a host name exactly when
the entry has that type and its length agrees with the lengths around it. -/
theorem sniffed_name_is_in_the_server_name_iff (payload : List UInt8) (name : Str)
    (h : extractSNIFromPayload payload = .ok name) :
    ∃ ext, FirstServerName payload (extensionsOf payload).2 (extensionsOf payload).1 ext ∧
      ext + 9 + nameLength payload ext ≤ (extensionsOf payload).2 ∧
      name = text ((payload.drop (ext + 9)).take (nameLength payload ext)) ∧
      (InServerName payload ext (ext + 9) (ext + 9 + nameLength payload ext) ↔
        payload.getD (ext + 6) 0 = 0 ∧
          nameLength payload ext + 5 ≤ twoBytes payload (ext + 2) ∧
          nameLength payload ext + 3 ≤ twoBytes payload (ext + 4)) := by
  obtain ⟨ext, hext, hroom, hname⟩ := extractSNIFromPayload_ok h
  exact ⟨ext, hext, hroom, hname, inServerName_iff payload ext⟩

/-- The first extension of these messages is their server_name. -/
theorem firstServerName_start {payload : List UInt8} {ext : Nat}
    (h : FirstServerName payload (extensionsOf payload).2 (extensionsOf payload).1 ext)
    (htype : twoBytes payload (extensionsOf payload).1 = 0) : ext = (extensionsOf payload).1 := by
  cases h with
  | here => rfl
  | next _ hne => exact absurd htype hne

theorem a_cn_is_in_its_extension :
    ∃ ext, InServerName (clientHello (bytes "a.cn")) ext (ext + 9)
      (ext + 9 + nameLength (clientHello (bytes "a.cn")) ext) := by
  obtain ⟨ext, hext, -, -, hiff⟩ := sniffed_name_is_in_the_server_name_iff
    (clientHello (bytes "a.cn")) _ (extractSNIFromPayload_clientHello (by decide))
  obtain rfl := firstServerName_start hext (by decide)
  exact ⟨_, hiff.mpr (by decide)⟩

/-- The extension ends where the name begins. -/
def shortExtension : List UInt8 :=
  helloFront ++ [0, 13, 0, 0, 0, 5, 0, 3, 0, 0, 4] ++ bytes "a.cn"

theorem name_behind_its_extension :
    extractSNIFromPayload shortExtension = .ok "a.cn" ∧
      ∀ ext, FirstServerName shortExtension (extensionsOf shortExtension).2
        (extensionsOf shortExtension).1 ext →
          ¬ InServerName shortExtension ext (ext + 9) (ext + 9 + nameLength shortExtension ext) := by
  refine ⟨?_, ?_⟩
  · have hloop : extractSNIFromPayload shortExtension =
        extractSNIFromPayload.loop shortExtension 57 44 := by decide +kernel
    rw [hloop, extractSNIFromPayload.loop]
    decide +kernel
  · intro ext hext hin
    obtain rfl := firstServerName_start hext (by decide)
    exact absurd hin.in_extension (by decide)

end vproxy
