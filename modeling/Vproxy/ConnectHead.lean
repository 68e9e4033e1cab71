-- The request to an HTTP upstream (dialHTTPWithTimeout). The target goes into the text of the
-- request as it is. It may come from a SOCKS request, from an SNI or from a DNS query, and all
-- three may hold any bytes, so a name with white space in it makes a request of its own.
import Vproxy.HttpHeads
import Vproxy.Peeking
import Vproxy.Socks
import Vproxy.DnsQuery
import Vproxy.Dial
import Mathlib.Data.List.GetD

open go go.net go.regexp http_heads slices dns_names words

namespace vproxy

/-! ## The request -/

/-- The bytes that `dialHTTPWithTimeout` writes to the upstream. -/
def connectHead (target : Str) : Str :=
  "CONNECT " ++ target ++ " HTTP/1.1\r\nHost: " ++ target ++ "\r\n\r\n"

/-- The request that is meant. -/
def connectRequest (target : Str) : http_heads.Request :=
  ⟨"CONNECT", target, "HTTP/1.1", [("Host", target)]⟩

theorem connectHead_eq (target : Str) : connectHead target = writeHead (connectRequest target) := by
  have hmethod : ("CONNECT " : Str) = ("CONNECT" : Str) ++ (" " : Str) := by decide
  have hversion : (" HTTP/1.1\r\nHost: " : Str) =
      (" " : Str) ++ ("HTTP/1.1" : Str) ++ ("\r\n" : Str) ++ ("Host" : Str) ++ (": " : Str) := by
    decide
  have hend : ("\r\n\r\n" : Str) = ("\r\n" : Str) ++ ("\r\n" : Str) := by decide
  have hwrite : writeHead (connectRequest target) =
      ("CONNECT" : Str) ++ (" " : Str) ++ target ++ (" " : Str) ++ ("HTTP/1.1" : Str) ++
        ("\r\n" : Str) ++ (("Host" : Str) ++ (": " : Str) ++ target ++ ("\r\n" : Str) ++ []) ++
        ("\r\n" : Str) := rfl
  unfold connectHead
  rw [hmethod, hversion, hend, hwrite]
  -- The texts are parts here; their letters do not count.
  generalize ("CONNECT" : Str) = method
  generalize ("HTTP/1.1" : Str) = version
  generalize ("Host" : Str) = name
  generalize (" " : Str) = space
  generalize (": " : Str) = colon
  generalize ("\r\n" : Str) = crlf
  simp only [List.append_assoc, List.append_nil]

theorem dropWhile_isBlank {s : Str} (h : ∀ c ∈ s, isSep c = false) : s.dropWhile isBlank = s := by
  cases s with
  | nil => rfl
  | cons c s =>
    have hc := h c List.mem_cons_self
    have hblank : ¬ isBlank c := by
      intro hblank
      simp only [isBlank, Bool.or_eq_true, decide_eq_true_eq] at hblank
      rcases hblank with rfl | rfl <;> cases hc
    exact List.dropWhile_cons_of_neg hblank

theorem trimBlanks_field {s : Str} (h : isField s) : trimBlanks s = s := by
  have hsep := ((isField_iff s).mp h).2
  unfold trimBlanks
  rw [dropWhile_isBlank hsep, dropWhile_isBlank, List.reverse_reverse]
  intro c hc
  exact hsep c (List.mem_reverse.mp hc)

theorem valid_connectRequest {target : Str} (h : isField target) :
    (connectRequest target).Valid := by
  have hmethod : isField "CONNECT" := by decide
  have hversion : isField "HTTP/1.1" := by decide
  have hname : isField "Host" ∧ ':' ∉ ("Host" : Str) := by decide
  refine ⟨hmethod, h, hversion, ?_⟩
  intro header hheader
  obtain rfl := List.mem_singleton.mp hheader
  refine ⟨hname.1, hname.2, ?_, trimBlanks_field h⟩
  intro c hc
  have hsep := ((isField_iff target).mp h).2 c hc
  refine ⟨?_, ?_⟩
  · rintro rfl
    cases hsep
  · rintro rfl
    cases hsep

/-- The upstream reads the request that is meant just when the target is one field. -/
theorem readOnly_connectHead (target : Str) :
    readOnly (connectHead target) = some (connectRequest target) ↔ isField target := by
  constructor
  · intro h
    exact isField_of_readOnly h
  · intro h
    rw [connectHead_eq]
    exact readOnly_writeHead (valid_connectRequest h)

/-! ## Where a target comes from -/

/-- The address of a SOCKS request, the SNI of a TLS handshake, or the name of a DNS query that
is restored from the pool for a connection to a port. -/
inductive Origin where
  | socks (a : socks.Addr)
  | sni (payload : List UInt8)
  | dns (query : Slice UInt8) (port : UInt16)

/-- A name that is not empty, and the port. -/
def namedTarget (domain port : Str) : Option Str :=
  if domain = [] then none else some (joinHostPort domain port)

/-- The target that `dialHTTPWithTimeout` is called with. -/
def Origin.target : Origin → Option Str
  | .socks a => if socks.wireLen a = some a.length then (socks.Addr.string a).toOption else none
  | .sni payload =>
    match extractSNIFromPayload payload with
    | .ok domain => namedTarget domain "443"
    | .error _ => none
  | .dns query port =>
    match dns.parseDomain query 12 with
    | some (.ok (domain, _)) => namedTarget domain (itoa port.toNat)
    | _ => none

theorem joinHostPort_ne_nil (host port : Str) : joinHostPort host port ≠ [] := by
  unfold joinHostPort
  split
  · exact List.cons_ne_nil _ _
  · simp

theorem namedTarget_ne_nil {domain port target : Str} (h : namedTarget domain port = some target) :
    target ≠ [] := by
  unfold namedTarget at h
  split at h
  · cases h
  · cases h
    exact joinHostPort_ne_nil _ _

theorem Origin.target_ne_nil {o : Origin} {target : Str} (h : o.target = some target) :
    target ≠ [] := by
  unfold Origin.target at h
  split at h
  · rename_i a
    split at h
    · rename_i hwire
      obtain ⟨p, hp, ⟨host, hhost, rfl⟩ | ⟨ip, hip, rfl⟩ | ⟨ip, hip, rfl⟩⟩ :=
        socks.addr_cases hwire
      · rw [socks.string_domain host hhost hp] at h
        cases h
        exact joinHostPort_ne_nil _ _
      · rw [socks.string_ipv4 hip hp] at h
        cases h
        exact joinHostPort_ne_nil _ _
      · rw [socks.string_ipv6 hip hp] at h
        cases h
        exact joinHostPort_ne_nil _ _
    · cases h
  · split at h
    · exact namedTarget_ne_nil h
    · cases h
  · split at h
    · exact namedTarget_ne_nil h
    · cases h

/-- The request is read as one CONNECT for the target exactly when the target holds no white
space. -/
theorem connect_request_is_single_iff (o : Origin) (target : Str) (h : o.target = some target) :
    readOnly (connectHead target) = some (connectRequest target) ↔
      ∀ c ∈ target, isSep c = false := by
  rw [readOnly_connectHead, isField_iff]
  constructor
  · rintro ⟨-, hsep⟩
    exact hsep
  · intro hsep
    exact ⟨o.target_ne_nil h, hsep⟩

theorem connect_to_a_cn :
    (Origin.socks [3, 4, 97, 46, 99, 110, 1, 187]).target = some "a.cn:443" ∧
      readOnly (connectHead "a.cn:443") = some (connectRequest "a.cn:443") := by
  have htarget : (Origin.socks [3, 4, 97, 46, 99, 110, 1, 187]).target = some "a.cn:443" := by
    decide +kernel
  have hsep : ("a.cn:443" : Str).all (fun c => isSep c = false) = true := by decide
  refine ⟨htarget, (connect_request_is_single_iff _ _ htarget).mpr fun c hc => ?_⟩
  exact of_decide_eq_true (List.all_eq_true.mp hsep c hc)

/-! ## Any name -/

/-- The front of a ClientHello without session, cipher suites and compression methods. -/
def helloFront : List UInt8 := 1 :: List.replicate 38 0 ++ [0, 0, 0]

/-- The length of the extensions, and the SNI as the only one. -/
def sniExtension (name : List UInt8) : List UInt8 :=
  socks.portBytes (9 + name.length) ++ [0, 0] ++ socks.portBytes (5 + name.length) ++
    socks.portBytes (3 + name.length) ++ [0] ++ socks.portBytes name.length ++ name

/-- A ClientHello with this name in its SNI. -/
def clientHello (name : List UInt8) : List UInt8 := helloFront ++ sniExtension name

theorem length_helloFront : helloFront.length = 42 := by decide

theorem twoBytes_zero {b : List UInt8} {i : Nat} (hhi : b.getD i 0 = 0)
    (hlo : b.getD (i + 1) 0 = 0) : twoBytes b i = 0 := by
  rw [twoBytes, hhi, hlo]
  rfl

theorem getD_clientHello_front (name : List UInt8) {i : Nat} (h : i < 42) :
    (clientHello name).getD i 0 = helloFront.getD i 0 :=
  List.getD_append _ _ _ _ (length_helloFront ▸ h)

theorem twoBytes_clientHello (name : List UInt8) (i : Nat) :
    twoBytes (clientHello name) (42 + i) = twoBytes (sniExtension name) i := by
  have hget : ∀ j, (clientHello name).getD (42 + j) 0 = (sniExtension name).getD j 0 := by
    intro j
    rw [clientHello, List.getD_append_right _ _ _ _ (by rw [length_helloFront]; omega),
      length_helloFront, Nat.add_sub_cancel_left]
  rw [twoBytes, twoBytes, Nat.add_assoc, hget, hget]

/-- Any bytes can be the name of an SNI. -/
theorem extractSNIFromPayload_clientHello {name : List UInt8} (h : 9 + name.length < 2 ^ 16) :
    extractSNIFromPayload (clientHello name) = .ok (text name) := by
  have hlen : (clientHello name).length = 53 + name.length := by
    simp only [clientHello, sniExtension, socks.portBytes, List.length_append, length_helloFront,
      List.length_cons, List.length_nil]
    omega
  have htype : (clientHello name).getD 0 0 = 1 := getD_clientHello_front name (by decide)
  have hsession : (clientHello name).getD 38 0 = 0 := by
    rw [getD_clientHello_front name (by decide)]
    decide
  have hsuites : twoBytes (clientHello name) 39 = 0 := by
    apply twoBytes_zero <;> rw [getD_clientHello_front name (by decide)] <;> decide
  have hmethods : (clientHello name).getD 41 0 = 0 := by
    rw [getD_clientHello_front name (by decide)]
    decide
  have hexts : twoBytes (clientHello name) 42 = 9 + name.length :=
    (twoBytes_clientHello name 0).trans (socks.portBytes_value h)
  have hext : twoBytes (clientHello name) 44 = 0 :=
    (twoBytes_clientHello name 2).trans (twoBytes_zero rfl rfl)
  have hextLen : twoBytes (clientHello name) 46 = 5 + name.length :=
    (twoBytes_clientHello name 4).trans (socks.portBytes_value (by omega))
  have hnameLen : twoBytes (clientHello name) 51 = name.length :=
    (twoBytes_clientHello name 9).trans (socks.portBytes_value (by omega))
  have hname : (clientHello name).drop 53 = name := by
    have hsplit : clientHello name = (helloFront ++ (sniExtension name).take 11) ++ name := by
      rw [List.append_assoc]
      rfl
    have hcut : (helloFront ++ (sniExtension name).take 11).length = 53 := by
      rw [List.length_append, length_helloFront]
      rfl
    rw [hsplit, List.drop_left' hcut]
  have hloop : extractSNIFromPayload (clientHello name) =
      extractSNIFromPayload.loop (clientHello name) (53 + name.length) 44 := by
    unfold extractSNIFromPayload
    simp only [hlen, htype, hsession, hsuites, hmethods, hexts, UInt8.toNat_zero, Nat.add_zero,
      Nat.reduceAdd, ne_eq, not_true_eq_false, if_false]
    rw [if_neg (by omega), if_neg (by omega), if_neg (by omega), if_neg (by omega),
      Nat.min_eq_left (by omega)]
    congr 1
    omega
  rw [hloop, extractSNIFromPayload.loop, if_pos (by omega)]
  simp only [hext, hextLen, Nat.reduceAdd, if_true, hnameLen, hname]
  rw [if_pos ⟨by omega, by omega⟩, if_pos (by omega), List.take_length]

/-- A name that ends the line and adds a header. -/
def forgingName : Str := "a HTTP/1.1\r\nX: b"

def forgingQuery : Slice UInt8 :=
  .over ([0, 1, 1, 0, 0, 1, 0, 0, 0, 0, 0, 0] ++ encode [bytes forgingName] ++ [0, 1, 0, 1]) []

/-- From each origin such a name reaches the upstream, and its request has another target and a
header that the name brought in. -/
theorem name_forges_a_header :
    (Origin.socks (3 :: 16 :: bytes forgingName ++ [1, 187])).target =
        some (joinHostPort forgingName "443") ∧
      (Origin.sni (clientHello (bytes forgingName))).target =
        some (joinHostPort forgingName "443") ∧
      (Origin.dns forgingQuery 443).target = some (joinHostPort forgingName "443") ∧
      readOnly (connectHead (joinHostPort forgingName "443")) =
        some ⟨"CONNECT", "[a", "HTTP/1.1",
          [("X", "b]:443 HTTP/1.1"), ("Host", "[a HTTP/1.1"), ("X", "b]:443")]⟩ := by
  have hname : text (bytes forgingName) = forgingName := by decide +kernel
  refine ⟨by decide +kernel, ?_, ?_, by decide +kernel⟩
  · have hsni : extractSNIFromPayload (clientHello (bytes forgingName)) = _ :=
      extractSNIFromPayload_clientHello (by decide +kernel)
    dsimp only [Origin.target]
    rw [hsni, hname]
    rfl
  · have hdata : forgingQuery.data.drop 12 = encode [bytes forgingName] ++ [0, 1, 0, 1] := by
      decide +kernel
    have hparse := dns.parseDomain_of_encode (by decide +kernel) hdata
    dsimp only [Origin.target]
    rw [hparse]
    decide +kernel

end vproxy
