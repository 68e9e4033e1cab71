-- The record that a connect hook stores, byte by byte, and the two readers of it: the
-- methods of OriginalDst (loader.go) copy the bytes of the address, and lookupTCPFromMap
-- (tproxy_linux.go) reads words and writes them out again, the highest byte first.
import Vproxy.KernelBypass

open go go.net words vproxy.ebpf

namespace vproxy

/-! ## The record -/

def familyCode : Family → UInt32
  | .inet => 2
  | .inet6 => 10

/-- The sixteen bytes of a command. -/
def commBytes (comm : List UInt8) : List UInt8 := (comm ++ List.replicate 16 0).take 16

/-- The bytes of `struct original_dst` in the memory of a little-endian machine. -/
def originalDstBytes (d : OriginalDst) : List UInt8 :=
  d.ip.bytes ++ leBytes d.port.toUInt32 ++ leBytes (familyCode d.family) ++ leBytes d.task.pid ++
    commBytes d.task.comm

/-- `binary.BigEndian.Uint16` of the first two bytes of a word in memory. -/
def bePort (w : UInt32) : UInt16 :=
  UInt16.ofNat (beUint16 (leBytes w))

theorem bePort_toUInt32 (p : UInt16) : bePort p.toUInt32 = swap16 p := by
  have hlt := p.toNat_lt
  unfold bePort swap16 leBytes
  rw [beUint16_cons, toNat_byteAt, toNat_byteAt, UInt16.toNat_toUInt32]
  congr 1
  omega

/-! ## The reader of loader.go -/

/-- `OriginalDst` of the Go side. -/
structure GoOriginalDst where
  ip : List UInt8
  port : UInt32
  family : UInt32
  pid : UInt32
  comm : List UInt8
  deriving DecidableEq

def readOriginalDst (r : List UInt8) : GoOriginalDst :=
  ⟨r.take 16, wordAt r 16, wordAt r 20, wordAt r 24, (r.drop 28).take 16⟩

def GoOriginalDst.toNetIP (d : GoOriginalDst) : IP :=
  if d.family = familyCode .inet6 then d.ip else d.ip.take 4

def GoOriginalDst.toTCPAddr (d : GoOriginalDst) : SocketAddr := ⟨d.toNetIP, bePort d.port⟩

def GoOriginalDst.toUDPAddr (d : GoOriginalDst) : SocketAddr := ⟨d.toNetIP, bePort d.port⟩

/-! ## The reader of tproxy_linux.go -/

/-- `binary.BigEndian.PutUint32`. -/
def beBytes (w : UInt32) : List UInt8 := [byteAt w 3, byteAt w 2, byteAt w 1, byteAt w 0]

/-- The address that `lookupTCPFromMap` makes of a record. -/
def mapAddress (r : List UInt8) : IP :=
  if wordAt r 20 = familyCode .inet6 then
    beBytes (wordAt r 0) ++ beBytes (wordAt r 4) ++ beBytes (wordAt r 8) ++ beBytes (wordAt r 12)
  else beBytes (wordAt r 0)

/-- The text that it returns. -/
def mapText (r : List UInt8) : Str :=
  let port := itoa (bePort (wordAt r 16)).toNat
  if wordAt r 20 = familyCode .inet6 then '[' :: ipString (mapAddress r) ++ ("]:" : Str) ++ port
  else ipString (mapAddress r) ++ ':' :: port

/-- What `lookupTCPFromMap` gives for the cookie of a connection: the text, the map without the
entry, and what `RecordProcessMetadata` is told. -/
structure TextLookup where
  addr : Option Str
  rest : BoundedMap UInt64 OriginalDst maxEntries
  recorded : Option (UInt16 × UInt32 × List UInt8)

def lookupTCPFromMap (m : BoundedMap UInt64 OriginalDst maxEntries) (cookie : UInt64)
    (remotePort : UInt16) : TextLookup :=
  match m.lookupAndDelete cookie with
  | (none, _) => ⟨none, m, none⟩
  | (some dst, rest) =>
    let r := originalDstBytes dst
    ⟨some (mapText r), rest,
      if 0 < wordAt r 24 then
        some (remotePort, wordAt r 24, ((r.drop 28).take 16).takeWhile (· ≠ 0))
      else none⟩

/-! ## What the readers find -/

section

variable (d : OriginalDst)

theorem wordAt_ip : wordAt (originalDstBytes d) 0 = d.ip.w0 ∧
    wordAt (originalDstBytes d) 4 = d.ip.w1 ∧ wordAt (originalDstBytes d) 8 = d.ip.w2 ∧
    wordAt (originalDstBytes d) 12 = d.ip.w3 :=
  ⟨leWord_leBytes _, leWord_leBytes _, leWord_leBytes _, leWord_leBytes _⟩

theorem wordAt_port : wordAt (originalDstBytes d) 16 = d.port.toUInt32 := leWord_leBytes _

theorem wordAt_family : wordAt (originalDstBytes d) 20 = familyCode d.family := leWord_leBytes _

/-- The methods of loader.go give the address of the model. -/
theorem toTCPAddr_read : (readOriginalDst (originalDstBytes d)).toTCPAddr = d.toAddr := by
  unfold GoOriginalDst.toTCPAddr GoOriginalDst.toNetIP readOriginalDst OriginalDst.toAddr
    OriginalDst.toNetIP
  dsimp only
  rw [wordAt_port, wordAt_family, bePort_toUInt32]
  cases d.family <;> rfl

theorem toUDPAddr_read : (readOriginalDst (originalDstBytes d)).toUDPAddr = d.toAddr :=
  toTCPAddr_read d

theorem mapAddress_eq : mapAddress (originalDstBytes d) = mirrored d.toNetIP := by
  obtain ⟨h0, h1, h2, h3⟩ := wordAt_ip d
  unfold mapAddress OriginalDst.toNetIP
  rw [wordAt_family, h0, h1, h2, h3]
  cases d.family <;> rfl

theorem length_toNetIP : d.toNetIP.length = 4 ∨ d.toNetIP.length = 16 := by
  unfold OriginalDst.toNetIP
  cases d.family
  · exact Or.inl rfl
  · exact Or.inr rfl

end

/-! ## Texts -/

/-- The text is that of an address and a port. -/
def IsTextOf (text : Str) (addr : SocketAddr) : Prop :=
  ∃ host port, splitHostPort text = some (host, port) ∧ parseIP host = to16 addr.ip ∧
    parseUint port 16 = some addr.port.toNat

theorem length_mapAddress (d : OriginalDst) :
    (mapAddress (originalDstBytes d)).length = 4 ∨ (mapAddress (originalDstBytes d)).length = 16 := by
  rw [mapAddress_eq, length_mirrored]
  exact length_toNetIP d

theorem colon_not_mem_ipString {ip : IP} (h : ip.length = 4) : ':' ∉ ipString ip := by
  have h4 : to4 ip = some ip := if_pos h
  unfold ipString
  rw [h4]
  intro hmem
  rcases mem_dotted h hmem with hc | hc <;> exact absurd hc (by decide)

/-- The text splits into the text of the address and the port. -/
theorem splitHostPort_mapText (d : OriginalDst) :
    splitHostPort (mapText (originalDstBytes d)) =
      some (ipString (mapAddress (originalDstBytes d)), itoa (swap16 d.port).toNat) := by
  have hplain := plain_ipString (length_mapAddress d)
  obtain ⟨hport, hcolon⟩ := plain_itoa (swap16 d.port).toNat
  unfold mapText
  dsimp only
  rw [wordAt_port, bePort_toUInt32, wordAt_family]
  cases hf : d.family with
  | inet =>
    rw [if_neg (by decide)]
    apply splitHostPort_colon hplain hport _ hcolon
    apply colon_not_mem_ipString
    rw [mapAddress_eq, OriginalDst.toNetIP, hf]
    rfl
  | inet6 =>
    rw [if_pos rfl]
    exact splitHostPort_brackets hplain hport hcolon

theorem to16_inj {ip jp : IP} (hlen : ip.length = jp.length) (h : ip.length = 4 ∨ ip.length = 16) :
    to16 ip = to16 jp ↔ ip = jp := by
  unfold to16
  rw [← hlen]
  rcases h with h | h <;> simp [h]

theorem isTextOf_mapText_iff (d : OriginalDst) :
    IsTextOf (mapText (originalDstBytes d)) d.toAddr ↔ Mirrors d.toNetIP := by
  have hport : parseUint (itoa (swap16 d.port).toNat) 16 = some d.toAddr.port.toNat :=
    parseUint_itoa (UInt16.toNat_lt _)
  have hlen : (mapAddress (originalDstBytes d)).length = d.toNetIP.length := by
    rw [mapAddress_eq, length_mirrored]
  unfold IsTextOf
  simp only [splitHostPort_mapText, Option.some.injEq, Prod.mk.injEq]
  rw [← mirrored_eq_self, ← mapAddress_eq, ← to16_inj hlen (length_mapAddress d),
    ← parseIP_ipString (length_mapAddress d)]
  constructor
  · rintro ⟨host, port, ⟨rfl, rfl⟩, hip, -⟩
    exact hip
  · intro hip
    exact ⟨_, _, ⟨rfl, rfl⟩, hip, hport⟩

/-! ## The readers and the hooks -/

/-- A connect hook that redirects writes the record of the address it found. -/
theorem connectHook_stores {family : Family} {m : Maps} {ctx : SockAddr}
    (h : redirects family m ctx) :
    (connectHook family m ctx).1 = storeConnect m ctx (stored family ctx) := by
  cases family <;> exact (hook_maps _ _ _ m ctx).trans (if_pos h)

theorem addr_lookupTCPFromMap (m : BoundedMap UInt64 OriginalDst maxEntries) (cookie : UInt64)
    (remotePort : UInt16) :
    (lookupTCPFromMap m cookie remotePort).addr =
      (m.lookup cookie).map fun d => mapText (originalDstBytes d) := by
  unfold lookupTCPFromMap BoundedMap.lookupAndDelete
  cases m.lookup cookie <;> rfl

/-- Both readers give back the address and the port of a connect, exactly when each word of the
address reads the same in both byte orders. -/
theorem readers_agree (family : Family) (ctx : SockAddr) :
    let r := originalDstBytes (stored family ctx)
    let dst := ctx.addr family
    ((readOriginalDst r).toTCPAddr = dst ∧ (readOriginalDst r).toUDPAddr = dst ∧
      IsTextOf (mapText r) dst) ↔ Mirrors dst.ip := by
  have haddr := toAddr_stored family ctx
  dsimp only
  rw [toTCPAddr_read, toUDPAddr_read, haddr, ← haddr, isTextOf_mapText_iff]
  simp
  rfl

/-- The second reader turns the address around. -/
theorem second_reader_mirrors_the_address :
    let r := originalDstBytes (stored .inet (connectCtx 203 0 113 7))
    (readOriginalDst r).toTCPAddr = ⟨[203, 0, 113, 7], 443⟩ ∧ mapText r = "7.113.0.203:443" := by
  decide +kernel

end vproxy
