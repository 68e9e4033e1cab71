-- Package net/url as far as the program reads it: which texts parse, and the scheme, the
-- host, the path and the query of a parsed URL. An escaped byte of a host stands for the
-- character of its code.
import Vproxy.NetAddr

open go go.net

namespace go.url

/-! ## Escapes -/

/-- Where a text stands; the rules for escapes differ. -/
inductive Mode where
  | path
  | userPassword
  | host
  | zone
  deriving DecidableEq, Repr

def isLetter (c : Char) : Bool := ('a' ≤ c && c ≤ 'z') || ('A' ≤ c && c ≤ 'Z')

/-- The ASCII characters that stand unescaped in a host. -/
def hostChar (c : Char) : Bool :=
  isLetter c || isDigit c || ("!$&'()*+,;=:[]<>\"-_.~" : Str).contains c

/-- What an escape of the code `16 * x + y` may be in this place. -/
def escapeAllowed (mode : Mode) (x y : Nat) : Bool :=
  let v := 16 * x + y
  match mode with
  | .host => 8 ≤ x || v == 0x25
  | .zone => v == 0x25 || v == 0x20 || hostChar (Char.ofNat v)
  | _ => true

/-- `unescape`. -/
def unescape (mode : Mode) : Str → Option Str
  | [] => some []
  | '%' :: a :: b :: rest =>
    match hexVal a, hexVal b with
    | some x, some y =>
      if escapeAllowed mode x y then
        (unescape mode rest).map (Char.ofNat (16 * x + y) :: ·)
      else none
    | _, _ => none
  | '%' :: _ => none
  | c :: rest =>
    if (mode = .host ∨ mode = .zone) ∧ c.toNat < 128 ∧ ¬ hostChar c then none
    else (unescape mode rest).map (c :: ·)

/-! ## The authority -/

/-- Empty, or a colon and digits. -/
def validOptionalPort : Str → Bool
  | [] => true
  | c :: rest => c == ':' && rest.all isDigit

def validUserinfo (s : Str) : Bool :=
  s.all (fun c => isLetter c || isDigit c || ("-._:~!$&'()*+,;=%@" : Str).contains c)

/-- The index of the text `%25`. -/
def zoneIndex (s : Str) : Option Nat :=
  (List.range s.length).find? (fun i => hasPrefix (s.drop i) "%25")

/-- The name between brackets: the part from `%25` on is a zone. -/
def unescapeLiteral (hostname : Str) : Option Str :=
  match zoneIndex hostname with
  | some i => do
    let hostPart ← unescape .host (hostname.take i)
    let zonePart ← unescape .zone (hostname.drop i)
    some (hostPart ++ zonePart)
  | none => unescape .host hostname

/-- `parseHost`. Only an IPv6 address stands between brackets. -/
def parseHost (host : Str) : Option Str :=
  match lastIndex host '[' with
  | some openIdx =>
    match lastIndex host ']' with
    | none => none
    | some closeIdx =>
      let colonPort := host.drop (closeIdx + 1)
      if ¬ validOptionalPort colonPort then none
      else do
        let port ← unescape .host colonPort
        let name ← unescapeLiteral ((host.take closeIdx).drop (openIdx + 1))
        let addr ← parseAddr name
        if addr.bytes.length = 4 then none else some ('[' :: name ++ ']' :: port)
  | none =>
    match lastIndex host ':' with
    | some i => if validOptionalPort (host.drop i) then unescape .host host else none
    | none => unescape .host host

/-- The userinfo is well formed: the name and the password unescape. -/
def userinfoOk (userinfo : Str) : Bool :=
  validUserinfo userinfo &&
    match cut userinfo ':' with
    | none => (unescape .userPassword userinfo).isSome
    | some (name, password) =>
      (unescape .userPassword name).isSome && (unescape .userPassword password).isSome

/-- `parseAuthority`, the host alone. -/
def parseAuthority (authority : Str) : Option Str :=
  match lastIndex authority '@' with
  | none => parseHost authority
  | some i => do
    let host ← parseHost (authority.drop (i + 1))
    if userinfoOk (authority.take i) then some host else none

/-! ## The URL -/

/-- The fields of `url.URL` that the program reads. The path is the text as it was given. -/
structure URL where
  scheme : Str
  host : Str
  path : Str
  rawQuery : Str
  deriving DecidableEq, Repr

/-- `getScheme`: the scheme and the rest; an error is `none`. -/
def getScheme (raw : Str) : Option (Str × Str) :=
  let s := raw.takeWhile (fun c => isLetter c || isDigit c || c == '+' || c == '-' || c == '.')
  match raw.drop s.length with
  | ':' :: rest =>
    match s with
    | [] => none
    | c :: _ => if isLetter c then some (s, rest) else some ([], raw)
  | _ => some ([], raw)

/-- The end of `parse`: the path must unescape. -/
def withPath (u : URL) (rest : Str) : Option URL :=
  (unescape .path rest).map (fun _ => { u with path := rest })

/-- `parse`, of a text without a fragment. -/
def parseNoFragment (raw : Str) : Option URL :=
  if raw.any (fun c => c.toNat < 32 || c.toNat = 127) then none
  else if raw = "*" then some ⟨[], [], ['*'], []⟩
  else
    match getScheme raw with
    | none => none
    | some (scheme, rest) =>
      let scheme := scheme.map Char.toLower
      let query := (rest.dropWhile (· ≠ '?')).tail
      let rest := before rest (· == '?')
      if ¬ hasPrefix rest "/" ∧ scheme ≠ [] then some ⟨scheme, [], [], query⟩ -- opaque
      else if ¬ hasPrefix rest "/" ∧ (before rest (· == '/')).contains ':' then none
      else if (scheme ≠ [] ∨ ¬ hasPrefix rest "///") ∧ hasPrefix rest "//" then do
        let host ← parseAuthority (before (rest.drop 2) (· == '/'))
        withPath ⟨scheme, host, [], query⟩ ((rest.drop 2).dropWhile (· ≠ '/'))
      else withPath ⟨scheme, [], [], query⟩ rest

/-- `url.Parse`. -/
def parse (raw : Str) : Option URL :=
  match cut raw '#' with
  | none => parseNoFragment raw
  | some (u, frag) => do
    let url ← parseNoFragment u
    let _ ← unescape .path frag
    some url

/-- The host and the port of `splitHostPort`. -/
def splitHost (hostPort : Str) : Str × Str :=
  let (host, port) :=
    match lastIndex hostPort ':' with
    | some i =>
      if validOptionalPort (hostPort.drop i) then (hostPort.take i, hostPort.drop (i + 1))
      else (hostPort, [])
    | none => (hostPort, [])
  if hasPrefix host "[" ∧ hasSuffix host "]" then ((host.drop 1).dropLast, port) else (host, port)

/-- `shouldEscape` in a path. -/
def escapedInPath (c : Char) : Bool :=
  !(isLetter c || isDigit c || ("-_.~$&+,/:;=@" : Str).contains c)

/-- `validEncoded` of a path. -/
def validPath (path : Str) : Bool :=
  path.all (fun c => ("!'()*[]%" : Str).contains c || !escapedInPath c)

def upperHex (n : Nat) : Char := if n < 10 then Char.ofNat (48 + n) else Char.ofNat (55 + n)

def escapeByte (v : Nat) : Str :=
  if v < 128 ∧ ¬ escapedInPath (Char.ofNat v) then [Char.ofNat v]
  else ['%', upperHex (v / 16), upperHex (v % 16)]

/-- `escape` of the bytes that the text of a path stands for. -/
def escapePath : Str → Str
  | [] => []
  | '%' :: a :: b :: rest =>
    escapeByte (16 * (hexVal a).getD 0 + (hexVal b).getD 0) ++ escapePath rest
  | c :: rest => (String.utf8EncodeChar c).flatMap (fun b => escapeByte b.toNat) ++ escapePath rest

/-- `URL.EscapedPath`: the path as it was given, when that is a valid encoding. -/
def URL.escapedPath (u : URL) : Str := if validPath u.path then u.path else escapePath u.path

/-- `escape` of a byte of a host. -/
def escapeHostByte (v : Nat) : Str :=
  if v < 128 ∧ hostChar (Char.ofNat v) then [Char.ofNat v]
  else ['%', upperHex (v / 16), upperHex (v % 16)]

/-- `escape` of the bytes that the text of a host stands for. -/
def escapeHost : Str → Str
  | [] => []
  | '%' :: a :: b :: rest =>
    escapeHostByte (16 * (hexVal a).getD 0 + (hexVal b).getD 0) ++ escapeHost rest
  | c :: rest =>
    (String.utf8EncodeChar c).flatMap (fun b => escapeHostByte b.toNat) ++ escapeHost rest

/-- `RequestURI` of a URL with this path and query. The path must unescape. A query without
text keeps its `?`. -/
def requestURI (p : Str) : Option Str :=
  let path := before p (· == '?')
  if hasPrefix path "/" then
    (unescape .path path).map fun _ =>
      (⟨[], [], path, []⟩ : URL).escapedPath ++ p.dropWhile (· ≠ '?')
  else none

def URL.hostname (u : URL) : Str := (splitHost u.host).1

def URL.port (u : URL) : Str := (splitHost u.host).2

/-! ## The port of a parsed host -/

theorem unescape_cons {mode : Mode} {c : Char} (hc : c ≠ '%') (s : Str) :
    unescape mode (c :: s) =
      if (mode = .host ∨ mode = .zone) ∧ c.toNat < 128 ∧ ¬ hostChar c then none
      else (unescape mode s).map (c :: ·) := by
  rw [unescape.eq_4]
  · exact fun _ _ _ h => absurd h hc
  · exact hc

theorem unescape_digits {mode : Mode} {ds : Str} (h : ds.all isDigit) :
    unescape mode ds = some ds := by
  induction ds with
  | nil => rfl
  | cons c ds ih =>
    simp only [List.all_cons, Bool.and_eq_true] at h
    have hc : c ≠ '%' := by
      rintro rfl
      exact absurd h.1 (by decide)
    rw [unescape_cons hc, if_neg, ih h.2]
    · rfl
    · simp [hostChar, h.1]

/-- What an escape in a host stands for is no colon. -/
theorem escape_ne_colon {x y : Nat} (h : escapeAllowed .host x y) :
    Char.ofNat (16 * x + y) ≠ ':' := by
  intro heq
  have hcode : (Char.ofNat (16 * x + y)).toNat = 58 := by
    rw [heq]
    rfl
  simp only [escapeAllowed, Bool.or_eq_true, decide_eq_true_eq, beq_iff_eq] at h
  by_cases hvalid : (16 * x + y).isValidChar
  · rw [Char.ofNat, dif_pos hvalid] at hcode
    have hvalue : 16 * x + y = 58 := hcode
    omega
  · rw [Char.ofNat, dif_neg hvalid] at hcode
    cases hcode

/-- An escape with its two digits, then the rest. -/
theorem unescape_escape {mode : Mode} {s x : Str} (h : unescape mode ('%' :: s) = some x) :
    ∃ a b rest i j x', s = a :: b :: rest ∧ hexVal a = some i ∧ hexVal b = some j ∧
      escapeAllowed mode i j ∧ unescape mode rest = some x' ∧ x = Char.ofNat (16 * i + j) :: x' := by
  match s with
  | [] | [_] => simp [unescape] at h
  | a :: b :: rest =>
    rw [unescape] at h
    split at h
    · rename_i i j hi hj
      split at h
      · rename_i hallowed
        obtain ⟨x', hx', rfl⟩ := Option.map_eq_some_iff.mp h
        exact ⟨a, b, rest, i, j, x', rfl, hi, hj, hallowed, hx', rfl⟩
      · cases h
    · cases h

/-- A colon stays where it is, with the digits after it. -/
theorem unescape_colon {ds : Str} (hds : ds.all isDigit) : ∀ {b x : Str},
    unescape .host (b ++ ':' :: ds) = some x → ∃ b', x = b' ++ ':' :: ds
  | [], x, h => by
    rw [List.nil_append, unescape_cons (by decide), if_neg (by decide), unescape_digits hds] at h
    exact ⟨[], (Option.some.inj h).symm⟩
  | c :: b, x, h => by
    rw [List.cons_append] at h
    by_cases hc : c = '%'
    · subst hc
      obtain ⟨d, e, rest, i, j, x', hs, hi, hj, -, hx', rfl⟩ := unescape_escape h
      match b with
      | [] =>
        obtain ⟨rfl, -⟩ := List.cons.inj hs
        cases hi
      | [_] =>
        obtain ⟨-, hs⟩ := List.cons.inj hs
        obtain ⟨rfl, -⟩ := List.cons.inj hs
        cases hj
      | _ :: _ :: b =>
        obtain ⟨-, hs⟩ := List.cons.inj hs
        obtain ⟨-, rfl⟩ := List.cons.inj hs
        obtain ⟨b', rfl⟩ := unescape_colon hds hx'
        exact ⟨_ :: b', rfl⟩
    · rw [unescape_cons hc] at h
      split at h
      · cases h
      · obtain ⟨x', hx', rfl⟩ := Option.map_eq_some_iff.mp h
        obtain ⟨b', rfl⟩ := unescape_colon hds hx'
        exact ⟨c :: b', rfl⟩

/-- A host without a colon gets none. -/
theorem colon_of_unescape : ∀ {s x : Str}, unescape .host s = some x → ':' ∈ x → ':' ∈ s
  | [], x, h, hx => by
    obtain rfl := Option.some.inj h
    exact hx
  | c :: s, x, h, hx => by
    by_cases hc : c = '%'
    · subst hc
      obtain ⟨d, e, rest, i, j, x', rfl, hi, hj, hallowed, hx', rfl⟩ := unescape_escape h
      rcases List.mem_cons.mp hx with heq | hx
      · exact absurd heq.symm (escape_ne_colon hallowed)
      · have hrest := colon_of_unescape hx' hx
        simp [hrest]
    · rw [unescape_cons hc] at h
      split at h
      · cases h
      · obtain ⟨x', hx', rfl⟩ := Option.map_eq_some_iff.mp h
        rcases List.mem_cons.mp hx with rfl | hx
        · exact List.mem_cons_self
        · exact List.mem_cons_of_mem _ (colon_of_unescape hx' hx)

theorem validOptionalPort_cons {c : Char} {s : Str} (h : validOptionalPort (c :: s)) :
    c = ':' ∧ s.all isDigit := by
  simpa [validOptionalPort] using h

theorem notMem_of_digits {ds : Str} (h : ds.all isDigit) {c : Char} (hc : isDigit c = false) :
    c ∉ ds := by
  intro hmem
  rw [List.all_eq_true.mp h c hmem] at hc
  cases hc

/-- A host is an address between brackets and a port, or one text without brackets. -/
theorem parseHost_cases {a host : Str} (h : parseHost a = some host) :
    (∃ openIdx closeIdx port name addr, lastIndex a '[' = some openIdx ∧
      lastIndex a ']' = some closeIdx ∧ validOptionalPort (a.drop (closeIdx + 1)) ∧
      unescape .host (a.drop (closeIdx + 1)) = some port ∧
      unescapeLiteral ((a.take closeIdx).drop (openIdx + 1)) = some name ∧
      parseAddr name = some addr ∧ host = '[' :: name ++ ']' :: port) ∨
    ((∀ i, lastIndex a ':' = some i → validOptionalPort (a.drop i)) ∧
      unescape .host a = some host) := by
  unfold parseHost at h
  split at h
  · rename_i openIdx hopen
    left
    split at h
    · cases h
    rename_i closeIdx hclose
    dsimp only at h
    split at h
    · cases h
    rename_i hvalid
    obtain ⟨port, hport, h⟩ := Option.bind_eq_some_iff.mp h
    obtain ⟨name, hname, h⟩ := Option.bind_eq_some_iff.mp h
    obtain ⟨addr, haddr, h⟩ := Option.bind_eq_some_iff.mp h
    split at h
    · cases h
    exact ⟨openIdx, closeIdx, port, name, addr, hopen, hclose, not_not.mp hvalid, hport, hname,
      haddr, (Option.some.inj h).symm⟩
  · right
    split at h
    · rename_i i hlast
      split at h
      · rename_i hvalid
        refine ⟨?_, h⟩
        intro j hj
        obtain rfl := Option.some.inj (hlast.symm.trans hj)
        exact hvalid
      · cases h
    · rename_i hlast
      refine ⟨?_, h⟩
      intro j hj
      rw [hlast] at hj
      cases hj

/-- The host of a URL splits into a name and a port of digits, when it splits. -/
theorem parseHost_port {a x host port : Str} (h : parseHost a = some x)
    (hx : splitHostPort x = some (host, port)) : port.all isDigit := by
  obtain ⟨-, ⟨-, hclose⟩, hcolon, hform⟩ := splitHostPort_eq_some hx
  obtain ⟨front, hfront⟩ : ∃ front, x = front ++ ':' :: port := by
    rcases hform with hform | hform
    · exact ⟨_, hform⟩
    · exact ⟨_, hform⟩
  obtain ⟨-, closeIdx, colonPort, name, -, -, -, hvalid, hcolonPort, -, -, rfl⟩ | ⟨hvalid, h⟩ :=
    parseHost_cases h
  · match hrest : a.drop (closeIdx + 1) with
    | [] =>
      -- The text ends in a bracket, and no port does.
      rw [hrest] at hcolonPort
      obtain rfl := Option.some.inj hcolonPort
      have hlast : (':' :: port).getLast? = some ']' := by
        rw [← List.getLast?_append_of_ne_nil front (List.cons_ne_nil _ _), ← hfront]
        exact List.getLast?_concat
      rcases List.mem_cons.mp (List.mem_of_getLast? hlast) with hbad | hmem
      · cases hbad
      · exact absurd hmem hclose
    | c :: ds =>
      rw [hrest] at hvalid hcolonPort
      obtain ⟨rfl, hdigits⟩ := validOptionalPort_cons hvalid
      rw [unescape_cons (by decide), if_neg (by decide), unescape_digits hdigits] at hcolonPort
      obtain rfl := Option.some.inj hcolonPort
      have hsame : front ++ ':' :: port = ('[' :: name ++ [']']) ++ ':' :: ds := by
        rw [← hfront]
        simp
      obtain ⟨-, rfl⟩ := append_cons_inj_last hsame hcolon
        (notMem_of_digits hdigits (by decide))
      exact hdigits
  · have hmem : ':' ∈ a := colon_of_unescape h (by simp [hfront])
    obtain ⟨i, hlast⟩ : ∃ i, lastIndex a ':' = some i := ⟨_, if_pos hmem⟩
    have hdigits := hvalid i hlast
    obtain ⟨b, ds, rfl, hds, rfl⟩ := lastIndex_eq_some hlast
    rw [List.drop_left] at hdigits
    obtain ⟨-, hdigits⟩ := validOptionalPort_cons hdigits
    obtain ⟨b', hb'⟩ := unescape_colon hdigits h
    obtain ⟨-, rfl⟩ := append_cons_inj_last (hfront.symm.trans hb') hcolon
      (notMem_of_digits hdigits (by decide))
    exact hdigits

theorem infix_of_before (s : Str) (p : Char → Bool) : before s p <:+: s :=
  (List.takeWhile_prefix _).isInfix

theorem parseAuthority_host {authority host : Str} (h : parseAuthority authority = some host) :
    ∃ a, a <:+: authority ∧ parseHost a = some host := by
  unfold parseAuthority at h
  split at h
  · exact ⟨_, List.infix_rfl, h⟩
  · obtain ⟨x, hx, h⟩ := Option.bind_eq_some_iff.mp h
    split at h
    · obtain rfl := Option.some.inj h
      exact ⟨_, (List.drop_suffix _ _).isInfix, hx⟩
    · cases h

/-- The text is its scheme, a colon and the rest, or it has no scheme. -/
theorem getScheme_cases {raw scheme rest : Str} (h : getScheme raw = some (scheme, rest)) :
    (scheme = [] ∧ rest = raw) ∨ raw = scheme ++ ':' :: rest := by
  unfold getScheme at h
  dsimp only at h
  split at h
  · rename_i more hcolon
    split at h
    · cases h
    · rename_i c s hs
      split at h
      · obtain ⟨rfl, rfl⟩ := Prod.mk.inj (Option.some.inj h)
        right
        rw [← hcolon]
        exact (List.prefix_iff_eq_append.mp (List.takeWhile_prefix _)).symm
      · obtain ⟨rfl, rfl⟩ := Prod.mk.inj (Option.some.inj h)
        exact .inl ⟨rfl, rfl⟩
  · obtain ⟨rfl, rfl⟩ := Prod.mk.inj (Option.some.inj h)
    exact .inl ⟨rfl, rfl⟩

theorem getScheme_rest {raw scheme rest : Str} (h : getScheme raw = some (scheme, rest)) :
    rest <:+ raw := by
  obtain ⟨-, rfl⟩ | rfl := getScheme_cases h
  · exact List.suffix_rfl
  · exact (List.suffix_cons ':' rest).trans (List.suffix_append _ _)

/-- The scheme is read off first, then the host. -/
theorem parseNoFragment_cases {raw : Str} {u : URL} (h : parseNoFragment raw = some u) :
    (u.scheme = [] ∧ u.host = []) ∨ ∃ scheme rest, getScheme raw = some (scheme, rest) ∧
      u.scheme = scheme.map Char.toLower ∧
      (u.host = [] ∨
        parseAuthority (before ((before rest (· == '?')).drop 2) (· == '/')) = some u.host) := by
  unfold parseNoFragment at h
  split at h
  · cases h
  split at h
  · obtain rfl := Option.some.inj h
    exact .inl ⟨rfl, rfl⟩
  split at h
  · cases h
  rename_i scheme rest hscheme
  refine .inr ⟨scheme, rest, hscheme, ?_⟩
  dsimp only at h
  split at h
  · obtain rfl := Option.some.inj h
    exact ⟨rfl, .inl rfl⟩
  split at h
  · cases h
  split at h
  · obtain ⟨host, hhost, h⟩ := Option.bind_eq_some_iff.mp h
    obtain ⟨-, -, rfl⟩ := Option.map_eq_some_iff.mp h
    exact ⟨rfl, .inr hhost⟩
  · obtain ⟨-, -, rfl⟩ := Option.map_eq_some_iff.mp h
    exact ⟨rfl, .inl rfl⟩

/-- The text before the fragment gives the URL. -/
theorem parse_front {raw : Str} {u : URL} (h : parse raw = some u) :
    ∃ front, front <+: raw ∧ parseNoFragment front = some u := by
  unfold parse at h
  split at h
  · exact ⟨raw, List.prefix_rfl, h⟩
  · rename_i front frag hcut
    obtain ⟨url, hurl, h⟩ := Option.bind_eq_some_iff.mp h
    obtain ⟨-, -, h⟩ := Option.bind_eq_some_iff.mp h
    obtain rfl := Option.some.inj h
    exact ⟨front, cut_front hcut, hurl⟩

/-- The host of a parsed URL is empty or comes from its authority. -/
theorem parse_host {raw : Str} {u : URL} (h : parse raw = some u) :
    u.host = [] ∨ ∃ a, a <:+: raw ∧ parseHost a = some u.host := by
  obtain ⟨front, hfront, hurl⟩ := parse_front h
  obtain ⟨-, hnil⟩ | ⟨scheme, rest, hscheme, -, hhost⟩ := parseNoFragment_cases hurl
  · exact .inl hnil
  refine hhost.imp_right ?_
  intro hauthority
  obtain ⟨a, ha, hparse⟩ := parseAuthority_host hauthority
  have hrest := (infix_of_before rest (· == '?')).trans (getScheme_rest hscheme).isInfix
  have hafter := (List.drop_suffix 2 _).isInfix.trans (hrest.trans hfront.isInfix)
  exact ⟨a, ha.trans ((infix_of_before _ _).trans hafter), hparse⟩

theorem splitHost_colon (a : Str) {port : Str} (hport : port.all isDigit) :
    splitHost (a ++ ':' :: port) =
      if hasPrefix a "[" ∧ hasSuffix a "]" then ((a.drop 1).dropLast, port) else (a, port) := by
  have hvalid : validOptionalPort (':' :: port) = true := by simpa [validOptionalPort] using hport
  have hdrop : (a ++ ':' :: port).drop (a.length + 1) = port := by simp
  unfold splitHost
  rw [lastIndex_append _ _ _ (notMem_of_digits hport (by decide))]
  simp only [List.drop_left, hvalid, if_true, List.take_left, hdrop]

theorem splitHost_of_no_colon {s : Str} (h : ':' ∉ s) :
    splitHost s = if hasPrefix s "[" ∧ hasSuffix s "]" then ((s.drop 1).dropLast, [])
      else (s, []) := by
  unfold splitHost lastIndex
  rw [if_neg h]

theorem brackets_of_append (name : Str) :
    hasPrefix ('[' :: name ++ [']']) "[" ∧ hasSuffix ('[' :: name ++ [']']) "]" :=
  ⟨rfl, List.isSuffixOf_iff_suffix.mpr (List.suffix_append _ _)⟩

theorem no_brackets_of_plain {name : Str} (h : Plain name) :
    ¬ (hasPrefix name "[" ∧ hasSuffix name "]") := by
  rintro ⟨hfront, -⟩
  exact h.1 ((List.isPrefixOf_iff_prefix.mp hfront).mem (by simp))

/-- Where a host splits into name and port, `Hostname` and `Port` give the same two. -/
theorem splitHost_eq {s host port : Str} (h : splitHostPort s = some (host, port))
    (hport : port.all isDigit) : splitHost s = (host, port) := by
  obtain ⟨hplain, -, -, rfl | rfl⟩ := splitHostPort_eq_some h
  · rw [splitHost_colon _ hport, if_pos (brackets_of_append host)]
    simp
  · rw [splitHost_colon _ hport, if_neg (no_brackets_of_plain hplain)]

/-- The same for a name to which the port is added. -/
theorem splitHost_eq_of_append {s host port port' : Str} (hs : ':' ∉ s)
    (hport : port.all isDigit) (h : splitHostPort (s ++ ':' :: port) = some (host, port')) :
    splitHost s = (host, []) ∧ port' = port := by
  have hcolon := notMem_of_digits hport (by decide : isDigit ':' = false)
  obtain ⟨hplain, -, hcolon', hform | hform⟩ := splitHostPort_eq_some h
  · obtain ⟨rfl, rfl⟩ := append_cons_inj_last hform hcolon hcolon'
    rw [splitHost_of_no_colon hs, if_pos (brackets_of_append host)]
    simp
  · obtain ⟨rfl, rfl⟩ := append_cons_inj_last hform hcolon hcolon'
    rw [splitHost_of_no_colon hs, if_neg (no_brackets_of_plain hplain)]
    exact ⟨rfl, rfl⟩

/-! ## The host in the text of a URL -/

/-- A text without escapes unescapes to itself. -/
theorem unescape_plain {mode : Mode} : ∀ {s x : Str}, '%' ∉ s → unescape mode s = some x → x = s
  | [], x, _, h => (Option.some.inj h).symm
  | c :: s, x, hs, h => by
    rw [List.mem_cons, not_or] at hs
    rw [unescape_cons (Ne.symm hs.1)] at h
    split at h
    · cases h
    · obtain ⟨y, hy, rfl⟩ := Option.map_eq_some_iff.mp h
      rw [unescape_plain hs.2 hy]

theorem unescapeLiteral_plain {s x : Str} (hs : '%' ∉ s) (h : unescapeLiteral s = some x) :
    x = s := by
  unfold unescapeLiteral at h
  split at h
  · rename_i i _
    obtain ⟨host, hhost, h⟩ := Option.bind_eq_some_iff.mp h
    obtain ⟨zone, hzone, h⟩ := Option.bind_eq_some_iff.mp h
    obtain rfl := unescape_plain (fun hmem => hs (List.mem_of_mem_take hmem)) hhost
    obtain rfl := unescape_plain (fun hmem => hs (List.mem_of_mem_drop hmem)) hzone
    rw [← Option.some.inj h, List.take_append_drop]
  · exact unescape_plain hs h

/-- The bracket closes after it opens, for no address is empty. What stands from the one bracket
on is the name, the other bracket and the rest. -/
theorem drop_bracket {a name : Str} {openIdx closeIdx : Nat} (hopen : lastIndex a '[' = some openIdx)
    (hclose : lastIndex a ']' = some closeIdx)
    (hname : (a.take closeIdx).drop (openIdx + 1) = name) (hne : name ≠ []) :
    a.drop openIdx = '[' :: name ++ ']' :: a.drop (closeIdx + 1) := by
  obtain ⟨front, rest, hfront, -, rfl⟩ := lastIndex_eq_some hopen
  obtain ⟨front', rest', hfront', -, rfl⟩ := lastIndex_eq_some hclose
  have hinner : front'.drop (front.length + 1) = name := by
    rw [← hname, hfront', List.take_left]
  have hlt : front.length < front'.length := by
    by_contra hle
    rw [List.drop_eq_nil_of_le (by omega)] at hinner
    exact hne hinner.symm
  have hrest : a.drop (front'.length + 1) = rest' := by simp [hfront']
  have hopened : a.drop front.length = '[' :: rest := by rw [hfront, List.drop_left]
  have hdrop : a.drop front.length = front'.drop front.length ++ ']' :: rest' := by
    rw [hfront', List.drop_append_of_le_length hlt.le]
  obtain ⟨c, inner, hcons⟩ := List.exists_cons_of_ne_nil
    (show front'.drop front.length ≠ [] by simp; omega)
  rw [← List.tail_drop, hcons, List.tail_cons] at hinner
  rw [hopened, hcons, List.cons_append] at hdrop
  obtain ⟨rfl, hafter⟩ := List.cons.inj hdrop
  rw [hopened, hafter, hinner, hrest]
  rfl

/-- The host is a part of the text, when the text has no escapes. -/
theorem parseHost_part {a host : Str} (ha : '%' ∉ a) (h : parseHost a = some host) :
    host <:+: a := by
  obtain ⟨openIdx, closeIdx, port, name, addr, hopen, hclose, -, hport, hname, haddr, rfl⟩ |
    ⟨-, h⟩ := parseHost_cases h
  · obtain rfl := unescape_plain (fun hmem => ha (List.mem_of_mem_drop hmem)) hport
    have hplain := unescapeLiteral_plain
      (fun hmem => ha (List.mem_of_mem_take (List.mem_of_mem_drop hmem))) hname
    have hne : name ≠ [] := by
      rintro rfl
      cases haddr
    rw [← drop_bracket hopen hclose hplain.symm hne]
    exact (List.drop_suffix _ _).isInfix
  · rw [unescape_plain ha h]

theorem splitHost_part (s : Str) : (splitHost s).1 <:+: s := by
  unfold splitHost
  split
  rename_i host port hcut
  have hhost : host <:+: s := by
    split at hcut
    · split at hcut
      · obtain ⟨rfl, -⟩ := Prod.mk.inj hcut
        exact (List.take_prefix _ s).isInfix
      · obtain ⟨rfl, -⟩ := Prod.mk.inj hcut
        exact List.infix_rfl
    · obtain ⟨rfl, -⟩ := Prod.mk.inj hcut
      exact List.infix_rfl
  split
  · exact (List.dropLast_prefix _).isInfix.trans ((List.drop_suffix 1 host).isInfix.trans hhost)
  · exact hhost

/-- The name of the host stands in a URL without escapes. -/
theorem hostname_part {raw : Str} {u : URL} (hraw : '%' ∉ raw) (h : parse raw = some u) :
    u.hostname <:+: raw := by
  obtain hnil | ⟨a, ha, hhost⟩ := parse_host h
  · have hname : u.hostname = [] := by
      rw [URL.hostname, hnil]
      rfl
    rw [hname]
    exact List.nil_infix
  · have hpart := parseHost_part (fun hmem => hraw (ha.mem hmem)) hhost
    exact (splitHost_part u.host).trans (hpart.trans ha)

/-! ## Names -/

/-! ## The scheme of a URL -/

end go.url
