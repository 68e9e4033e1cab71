-- The process of a client connection (proc_linux.go): a cache by port number, the four
-- socket tables of /proc in a fixed order, and the descriptor links of the processes. A
-- port that is not found is followed by a second try with the port of the proxy itself.
import Vproxy.Dial
import Vproxy.SocketTables

open go go.net

namespace vproxy.proc

/-! ## The files -/

def NetTable.transport : NetTable → Transport
  | .tcp | .tcp6 => .tcp
  | .udp | .udp6 => .udp

/-- A descriptor of a process, and whether its link can be read. -/
structure Fd where
  link : Str
  readable : Bool
  deriving DecidableEq

/-- A process: its descriptors, whether they can be listed, and where its name comes from. -/
structure Process where
  fds : List Fd
  listed : Bool
  comm : Option Str
  exe : Option Str

section

variable [Unicode]

/-- What a call finds in /proc. -/
structure Proc where
  tables : NetTables
  self : Nat
  entries : Option (List (Str × Bool))
  process : Nat → Process

def Proc.rows (p : Proc) (t : NetTable) : List SockRow := (p.tables.file t).rows.map TableRow.row

end

/-! ## Sockets and processes -/

def socketLink (inode : Str) : Str := ("socket:[" : Str) ++ inode ++ ("]" : Str)

section

variable [Unicode]

/-- The name of a process: its command, the file name of its program, or its number. -/
def Process.name (q : Process) (pid : Nat) : Str :=
  let comm := trimSpace (q.comm.getD [])
  if comm ≠ [] then comm
  else if q.exe.getD [] ≠ [] then base (q.exe.getD [])
  else ("pid-" : Str) ++ itoa pid

def checkPidFd (p : Proc) (pid : Nat) (targetLink : Str) : Option Str :=
  if (p.process pid).listed &&
      (p.process pid).fds.any (fun fd => fd.readable && fd.link == targetLink) then
    some ((p.process pid).name pid)
  else none

/-- The process that an entry of /proc stands for, if it is not the proxy. -/
def pidOf (p : Proc) (entry : Str × Bool) : Option Nat :=
  let (pid, ok) := atoi entry.1
  if !entry.2 || !ok || pid ≤ 0 || pid == (p.self : Int) then none else some pid.toNat

/-- One turn of the loop over the directory. -/
def checkEntry (p : Proc) (inode : Str) (entry : Str × Bool) : Option (Str × Nat) := do
  let pid ← pidOf p entry
  let name ← checkPidFd p pid (socketLink inode)
  return (name, pid)

/-- `findProcessBySocketInode`: the proxy first, then the directory. -/
def findProcessBySocketInode (p : Proc) (inode : Str) : Option (Str × Nat) :=
  match checkPidFd p p.self (socketLink inode) with
  | some name => some (name, p.self)
  | none => do
    let entries ← p.entries
    entries.findSome? (checkEntry p inode)

end

/-! ## The cache -/

structure CacheEntry where
  port : Nat
  pid : Nat
  name : Str
  expiresAt : Nat
  deriving DecidableEq, Repr

abbrev ProcCache := List CacheEntry

def newProcCache : ProcCache := []

def ProcCache.get (c : ProcCache) (now port : Nat) : Option CacheEntry :=
  (c.find? (fun e => e.port == port)).filter (fun e => now ≤ e.expiresAt)

/-- Five seconds. -/
def ttl : Nat := 5000000000

def ProcCache.put (c : ProcCache) (now port pid : Nat) (name : Str) : ProcCache :=
  let c := if 2048 < c.length then c.filter (fun e => now ≤ e.expiresAt) else c
  ⟨port, pid, name, now + ttl⟩ :: c.filter (fun e => e.port != port)

def recordProcessMetadata (c : ProcCache) (now port pid : Nat) (name : Str) : ProcCache :=
  if 0 < port ∧ 0 < pid ∧ name ≠ [] then c.put now port pid name else c

/-! ## The process of a connection -/

structure Answer where
  name : Str
  pid : Nat
  deriving DecidableEq

section

variable [Unicode]

def resolveProcessByPort (p : Proc) (c : ProcCache) (now port : Nat) :
    Option (Answer × ProcCache) :=
  if port = 0 then none
  else
    match c.get now port with
    | some e => some (⟨e.name, e.pid⟩, c)
    | none => do
      let (_, inode) ← findSocketInodeByPort p.tables port
      let (name, pid) ← findProcessBySocketInode p inode
      some (⟨name, pid⟩, c.put now port pid name)

/-- An address of a connection. -/
inductive ConnAddr where
  | net (t : Transport) (port : UInt16)
  | other

/-- The two ends of a connection, where it has them. -/
structure Conn where
  remoteAddr : Option ConnAddr
  localAddr : Option ConnAddr

/-- The port of an end, or the value from before. -/
def portOf (before : Nat) : Option ConnAddr → Nat
  | some (.net _ port) => port.toNat
  | _ => before

/-- `ResolveProcessByConn`; the clock is read for each try. -/
def resolveProcessByConn (p : Proc) (c : ProcCache) (now now' : Nat) (conn : Conn) :
    Option (Answer × ProcCache) :=
  let port := portOf 0 conn.remoteAddr
  match (if 0 < port then resolveProcessByPort p c now port else none) with
  | some answer => some answer
  | none =>
    let port := portOf port conn.localAddr
    if 0 < port then resolveProcessByPort p c now' port else none

end

/-! ## Owners -/

/-- The process has a descriptor of a socket of the transport with the local port. -/
def Owns [Unicode] (p : Proc) (t : Transport) (port : UInt16) (pid : Nat) : Prop :=
  ∃ table, table.transport = t ∧ ∃ row ∈ p.rows table, row.localPort = port ∧
    ∃ fd ∈ (p.process pid).fds, fd.link = socketLink (itoa row.inode)

/-- A connection that was accepted: both ends are of its transport. -/
def accepted (t : Transport) (client proxy : UInt16) : Conn :=
  ⟨some (.net t client), some (.net t proxy)⟩

/-! ## What is known of a port -/

/-- The entry for a port that has not expired. -/
def Cached (c : ProcCache) (now : Nat) (port : UInt16) (e : CacheEntry) : Prop :=
  (∃ before after, c = before ++ e :: after ∧ ∀ e' ∈ before, e'.port ≠ port.toNat) ∧
    e.port = port.toNat ∧ now ≤ e.expiresAt

section

variable [Unicode]

/-- The first table in which an inode is read for a port, and what is read of it. -/
def FirstRead (p : Proc) (port : UInt16) (table : NetTable) (inode : Str) : Prop :=
  ∃ before after, procFiles = before ++ table :: after ∧
    (∀ t ∈ before, seenIn p.tables port t = none) ∧ seenIn p.tables port table = some inode

/-- The inode is that of a row with the port. -/
def NamesRow (p : Proc) (t : NetTable) (port : UInt16) (inode : Str) : Prop :=
  ∃ row ∈ p.rows t, row.localPort = port ∧ inode = itoa row.inode

/-- A descriptor of the process can be read as the socket with this inode. -/
def Holds (p : Proc) (inode : Str) (pid : Nat) : Prop :=
  (p.process pid).listed = true ∧
    ∃ fd ∈ (p.process pid).fds, fd.readable = true ∧ fd.link = socketLink inode

/-- An entry of /proc is the directory of a process that is not the proxy. -/
def Lists (p : Proc) (entry : Str × Bool) (pid : Nat) : Prop :=
  entry.2 = true ∧ atoi entry.1 = ((pid : Int), true) ∧ 0 < pid ∧ pid ≠ p.self

/-- The proxy itself, if it holds the socket, and otherwise the first process that does. -/
def FirstHolder (p : Proc) (inode : Str) (pid : Nat) : Prop :=
  pid = p.self ∧ Holds p inode p.self ∨
    ¬ Holds p inode p.self ∧ ∃ before entry after, p.entries = some (before ++ entry :: after) ∧
      Lists p entry pid ∧ Holds p inode pid ∧
      ∀ entry' ∈ before, ∀ pid', Lists p entry' pid' → ¬ Holds p inode pid'

/-- The process that is named for a port: that of the cache, or the holder of the socket that is
read from the tables. -/
inductive Named (p : Proc) (c : ProcCache) (now : Nat) (port : UInt16) : Nat → Prop
  | cached {e : CacheEntry} : port ≠ 0 → Cached c now port e → Named p c now port e.pid
  | scanned {table : NetTable} {inode : Str} {pid : Nat} : port ≠ 0 →
    (∀ e, ¬ Cached c now port e) → FirstRead p port table inode → FirstHolder p inode pid →
    Named p c now port pid

end

/-! ## The calls -/

section

variable [Unicode] {p : Proc} {c : ProcCache} {now now' : Nat}

omit [Unicode] in
theorem get_eq_some_iff {port : UInt16} {e : CacheEntry} :
    c.get now port.toNat = some e ↔ Cached c now port e := by
  unfold ProcCache.get Cached
  rw [Option.filter_eq_some_iff, List.find?_eq_some_iff_append]
  constructor
  · rintro ⟨⟨hport, before, after, hc, hbefore⟩, hlive⟩
    exact ⟨⟨before, after, hc, fun e' he' => by simpa using hbefore e' he'⟩, by simpa using hport,
      by simpa using hlive⟩
  · rintro ⟨⟨before, after, hc, hbefore⟩, hport, hlive⟩
    exact ⟨⟨by simpa using hport, before, after, hc, fun e' he' => by simpa using hbefore e' he'⟩,
      by simpa using hlive⟩

omit [Unicode] in
theorem get_eq_none_iff {port : UInt16} :
    c.get now port.toNat = none ↔ ∀ e, ¬ Cached c now port e := by
  simp only [Option.eq_none_iff_forall_ne_some, ← get_eq_some_iff, ne_eq]

theorem checkPidFd_eq_some_iff {pid : Nat} {inode name : Str} :
    checkPidFd p pid (socketLink inode) = some name ↔
      Holds p inode pid ∧ (p.process pid).name pid = name := by
  unfold checkPidFd Holds
  simp [List.any_eq_true]

theorem checkPidFd_eq_none_iff {pid : Nat} {inode : Str} :
    checkPidFd p pid (socketLink inode) = none ↔ ¬ Holds p inode pid := by
  simp only [Option.eq_none_iff_forall_ne_some, ne_eq, checkPidFd_eq_some_iff]
  exact ⟨fun h hholds => h _ ⟨hholds, rfl⟩, fun h _ hname => h hname.1⟩

theorem pidOf_eq_some_iff {entry : Str × Bool} {pid : Nat} :
    pidOf p entry = some pid ↔ Lists p entry pid := by
  unfold pidOf Lists
  obtain ⟨n, ok⟩ := atoi entry.1
  dsimp only
  constructor
  · intro h
    split at h
    · cases h
    · rename_i hkept
      simp only [Bool.or_eq_true, Bool.not_eq_true', decide_eq_true_eq, beq_iff_eq, not_or,
        Bool.not_eq_false] at hkept
      obtain ⟨⟨⟨hdir, rfl⟩, hpos⟩, hself⟩ := hkept
      cases h
      refine ⟨hdir, ?_, by omega, by omega⟩
      rw [Int.toNat_of_nonneg (by omega)]
  · rintro ⟨hdir, heq, hpos, hself⟩
    cases heq
    rw [if_neg]
    · rfl
    · simp [hdir]
      omega

theorem checkEntry_iff {inode : Str} {entry : Str × Bool} {pid : Nat} :
    (∃ name, checkEntry p inode entry = some (name, pid)) ↔
      Lists p entry pid ∧ Holds p inode pid := by
  unfold checkEntry
  simp only [Option.bind_eq_bind, Option.bind_eq_some_iff, pidOf_eq_some_iff,
    checkPidFd_eq_some_iff, Option.pure_def, Option.some.injEq, Prod.mk.injEq]
  constructor
  · rintro ⟨_, pid', hlists, _, ⟨hholds, -⟩, -, rfl⟩
    exact ⟨hlists, hholds⟩
  · rintro ⟨hlists, hholds⟩
    exact ⟨_, pid, hlists, _, ⟨hholds, rfl⟩, rfl, rfl⟩

theorem findProcessBySocketInode_iff {inode : Str} {pid : Nat} :
    (∃ name, findProcessBySocketInode p inode = some (name, pid)) ↔ FirstHolder p inode pid := by
  unfold findProcessBySocketInode FirstHolder
  cases hself : checkPidFd p p.self (socketLink inode) with
  | some name =>
    have hholds := (checkPidFd_eq_some_iff.mp hself).1
    simp [hholds, eq_comm]
  | none =>
    have hholds := checkPidFd_eq_none_iff.mp hself
    simp only [hholds, and_false, false_or, not_false_eq_true, true_and]
    constructor
    · rintro ⟨name, h⟩
      obtain ⟨entries, hentries, hfound⟩ := Option.bind_eq_some_iff.mp h
      obtain ⟨before, entry, after, rfl, hturn, hbefore⟩ := List.findSome?_eq_some_iff.mp hfound
      obtain ⟨hlists, hholds⟩ := checkEntry_iff.mp ⟨name, hturn⟩
      refine ⟨before, entry, after, hentries, hlists, hholds, fun entry' hmem pid' hl hh => ?_⟩
      obtain ⟨name', hturn'⟩ := checkEntry_iff.mpr ⟨hl, hh⟩
      rw [hbefore entry' hmem] at hturn'
      cases hturn'
    · rintro ⟨before, entry, after, hentries, hlists, hholds, hbefore⟩
      obtain ⟨name, hturn⟩ := checkEntry_iff.mpr ⟨hlists, hholds⟩
      refine ⟨name, Option.bind_eq_some_iff.mpr ⟨_, hentries, ?_⟩⟩
      refine List.findSome?_eq_some_iff.mpr ⟨before, entry, after, rfl, hturn, ?_⟩
      intro entry' hmem
      rw [Option.eq_none_iff_forall_ne_some]
      rintro ⟨name', pid'⟩ hturn'
      obtain ⟨hl, hh⟩ := checkEntry_iff.mp ⟨name', hturn'⟩
      exact hbefore entry' hmem pid' hl hh

theorem findSocketInodeByPort_eq_some_iff {port : UInt16} {table : NetTable} {inode : Str} :
    findSocketInodeByPort p.tables port.toNat = some (table, inode) ↔
      FirstRead p port table inode := by
  rw [findSocketInodeByPort_eq, List.findSome?_eq_some_iff]
  constructor
  · rintro ⟨before, table', after, hfiles, hread, hbefore⟩
    obtain ⟨inode', hseen, heq⟩ := Option.map_eq_some_iff.mp hread
    cases heq
    exact ⟨before, after, hfiles, fun t ht => Option.map_eq_none_iff.mp (hbefore t ht), hseen⟩
  · rintro ⟨before, after, hfiles, hbefore, hseen⟩
    refine ⟨before, table, after, hfiles, by rw [hseen]; rfl, fun t ht => ?_⟩
    rw [hbefore t ht]
    rfl

/-- The answers under a port. -/
theorem resolveProcessByPort_iff {port : UInt16} {pid : Nat} :
    (∃ a c', resolveProcessByPort p c now port.toNat = some (a, c') ∧ a.pid = pid) ↔
      Named p c now port pid := by
  have hzero : port.toNat = 0 ↔ port = 0 := UInt16.toNat_inj (b := 0)
  unfold resolveProcessByPort
  constructor
  · rintro ⟨a, c', h, rfl⟩
    split at h
    · cases h
    rename_i hport
    have hne := mt hzero.mpr hport
    split at h
    · rename_i e hget
      cases h
      exact .cached hne (get_eq_some_iff.mp hget)
    · rename_i hget
      simp only [Option.bind_eq_bind, Option.bind_eq_some_iff] at h
      obtain ⟨⟨table, inode⟩, hsocket, ⟨name, pid⟩, hprocess, heq⟩ := h
      cases heq
      exact .scanned hne (get_eq_none_iff.mp hget) (findSocketInodeByPort_eq_some_iff.mp hsocket)
        (findProcessBySocketInode_iff.mp ⟨name, hprocess⟩)
  · rintro (⟨hne, hcached⟩ | ⟨hne, hmiss, hread, hholder⟩)
    · rw [if_neg (mt hzero.mp hne), get_eq_some_iff.mpr hcached]
      exact ⟨_, _, rfl, rfl⟩
    · obtain ⟨name, hprocess⟩ := findProcessBySocketInode_iff.mpr hholder
      rw [if_neg (mt hzero.mp hne), get_eq_none_iff.mpr hmiss]
      simp [findSocketInodeByPort_eq_some_iff.mpr hread, hprocess]

/-- The two tries for an accepted connection. -/
theorem resolveProcessByConn_accepted (t : Transport) (client proxy : UInt16) :
    resolveProcessByConn p c now now' (accepted t client proxy) =
      (resolveProcessByPort p c now client.toNat).or
        (resolveProcessByPort p c now' proxy.toNat) := by
  have hzero : ∀ (n : Nat) (port : UInt16),
      (if 0 < port.toNat then resolveProcessByPort p c n port.toNat else none) =
        resolveProcessByPort p c n port.toNat := by
    intro n port
    split
    · rfl
    · rename_i hport
      rw [resolveProcessByPort, if_pos (by omega)]
  unfold resolveProcessByConn accepted portOf
  dsimp only
  rw [hzero, hzero]
  cases resolveProcessByPort p c now client.toNat <;> rfl

theorem resolveProcessByConn_iff (t : Transport) (client proxy : UInt16) (pid : Nat) :
    (∃ a c', resolveProcessByConn p c now now' (accepted t client proxy) = some (a, c') ∧
        a.pid = pid) ↔
      Named p c now client pid ∨
        (∀ pid', ¬ Named p c now client pid') ∧ Named p c now' proxy pid := by
  rw [resolveProcessByConn_accepted]
  cases hclient : resolveProcessByPort p c now client.toNat with
  | some answer =>
    obtain ⟨a, c'⟩ := answer
    have hnamed : Named p c now client a.pid := resolveProcessByPort_iff.mp ⟨a, c', hclient, rfl⟩
    rw [Option.some_or, ← hclient, resolveProcessByPort_iff]
    exact ⟨Or.inl, fun h => h.resolve_right fun hnone => hnone.1 _ hnamed⟩
  | none =>
    have hnone : ∀ pid', ¬ Named p c now client pid' := by
      intro pid' hnamed
      obtain ⟨a, c', hsome, -⟩ := resolveProcessByPort_iff.mpr hnamed
      rw [hclient] at hsome
      cases hsome
    rw [Option.none_or, resolveProcessByPort_iff]
    exact ⟨fun h => Or.inr ⟨hnone, h⟩, fun h => (h.resolve_left (hnone pid)).2⟩

/-- A process that was recorded for a port is named for five seconds, whatever /proc says. -/
theorem recorded_process_is_named {port pid : Nat} {name : Str} (hport : 0 < port) (hpid : 0 < pid)
    (hname : name ≠ []) (hlive : now' ≤ now + ttl) :
    resolveProcessByPort p (recordProcessMetadata c now port pid name) now' port =
      some (⟨name, pid⟩, recordProcessMetadata c now port pid name) := by
  have hget : (recordProcessMetadata c now port pid name).get now' port =
      some ⟨port, pid, name, now + ttl⟩ := by
    rw [recordProcessMetadata, if_pos ⟨hport, hpid, hname⟩]
    simp [ProcCache.put, ProcCache.get, hlive]
  unfold resolveProcessByPort
  rw [if_neg (by omega), hget]

/-! ## Which answers name the client -/

/-- The states in which the answer names the client. An entry of the cache for its port is of a
process with such a socket. Without one, the first table in which an inode is read for the port
is of the transport of the connection and gives the inode of a row whole, or the holder of that
inode has such a socket as well. And where nobody is named for the port of the client, whoever
is named for the port of the proxy has one. -/
structure NamesClient (p : Proc) (c : ProcCache) (now now' : Nat) (t : Transport)
    (client proxy : UInt16) : Prop where
  cached : client ≠ 0 → ∀ e, Cached c now client e → Owns p t client e.pid
  scanned : client ≠ 0 → (∀ e, ¬ Cached c now client e) → ∀ table inode pid,
    FirstRead p client table inode → FirstHolder p inode pid →
    table.transport = t ∧ NamesRow p table client inode ∨ Owns p t client pid
  fallback : (∀ pid, ¬ Named p c now client pid) → ∀ pid, Named p c now' proxy pid →
    Owns p t client pid

theorem FirstHolder.link {inode : Str} {pid : Nat} (h : FirstHolder p inode pid) :
    ∃ fd ∈ (p.process pid).fds, fd.link = socketLink inode := by
  have hholds : Holds p inode pid := by
    obtain ⟨rfl, hself⟩ | ⟨-, before, entry, after, -, -, hholds, -⟩ := h
    · exact hself
    · exact hholds
  obtain ⟨-, fd, hfd, -, hlink⟩ := hholds
  exact ⟨fd, hfd, hlink⟩

/-- The holder of the inode of a row owns a socket of the transport of that table. -/
theorem NamesRow.owns {table : NetTable} {port : UInt16} {inode : Str} {pid : Nat}
    (h : NamesRow p table port inode) (hholder : FirstHolder p inode pid) :
    Owns p table.transport port pid := by
  obtain ⟨row, hmem, hport, rfl⟩ := h
  exact ⟨table, rfl, row, hmem, hport, hholder.link⟩

theorem namesRow_of_liveIn {t : NetTable} {port : UInt16} {inode : Str}
    (h : liveIn p.tables port t = some inode) : NamesRow p t port inode := by
  unfold liveIn NetFile.liveInode at h
  split at h
  · obtain ⟨r, hfind, rfl⟩ := Option.map_eq_some_iff.mp h
    have hlive : r.row.Live port := by simpa using List.find?_some hfind
    exact ⟨r.row, List.mem_map_of_mem (List.mem_of_find?_eq_some hfind), hlive.1, rfl⟩
  · cases h

/-- The client is named when somebody is named for its port, the cache has no entry for it, there
is no socket of the other transport with it, and the scans read the inodes whole. -/
theorem namesClient_of_scan {t : Transport} {client proxy : UInt16}
    (hmiss : ∀ e, ¬ Cached c now client e)
    (hother : ∀ table, table.transport ≠ t → ∀ row ∈ p.rows table, row.localPort ≠ client)
    (hwhole : ∀ table, seenIn p.tables client table = liveIn p.tables client table)
    (hanswer : ∃ pid, Named p c now client pid) :
    NamesClient p c now now' t client proxy := by
  refine ⟨fun _ e he => absurd he (hmiss e), fun _ _ table inode pid hread _ => ?_, fun hnone => ?_⟩
  · obtain ⟨-, -, -, -, hseen⟩ := hread
    have hrow := namesRow_of_liveIn (hwhole table ▸ hseen)
    refine Or.inl ⟨?_, hrow⟩
    obtain ⟨row, hmem, hport, -⟩ := hrow
    by_contra hne
    exact hother table hne row hmem hport
  · obtain ⟨pid, hnamed⟩ := hanswer
    exact absurd hnamed (hnone pid)

theorem NamesClient.owns {t : Transport} {client proxy : UInt16} {pid : Nat}
    (h : NamesClient p c now now' t client proxy) (hnamed : Named p c now client pid) :
    Owns p t client pid := by
  obtain ⟨hne, hcached⟩ | ⟨hne, hmiss, hread, hholder⟩ := hnamed
  · exact h.cached hne _ hcached
  · obtain ⟨rfl, hrow⟩ | howns := h.scanned hne hmiss _ _ _ hread hholder
    · exact hrow.owns hholder
    · exact howns

/-- The process that an accepted connection is attributed to has a socket of its transport with
the port of the client, exactly in those states. A state without an entry for the port, without a
socket of the other transport with it, and in which the inodes are read whole, is one of them, if
somebody is named for the port. -/
theorem attribution_names_client_iff (p : Proc) (c : ProcCache) (now now' : Nat) (t : Transport)
    (client proxy : UInt16) :
    ((∀ a c', resolveProcessByConn p c now now' (accepted t client proxy) = some (a, c') →
        Owns p t client a.pid) ↔ NamesClient p c now now' t client proxy) ∧
      ((∀ e, ¬ Cached c now client e) →
        (∀ table, table.transport ≠ t → ∀ row ∈ p.rows table, row.localPort ≠ client) →
        (∀ table, seenIn p.tables client table = liveIn p.tables client table) →
        (∃ pid, Named p c now client pid) → NamesClient p c now now' t client proxy) := by
  have hnames : (∀ a c', resolveProcessByConn p c now now' (accepted t client proxy) =
      some (a, c') → Owns p t client a.pid) ↔
      ∀ pid, Named p c now client pid ∨
        (∀ pid', ¬ Named p c now client pid') ∧ Named p c now' proxy pid → Owns p t client pid := by
    simp only [← resolveProcessByConn_iff t client proxy]
    exact ⟨fun h pid ⟨a, c', hsome, hpid⟩ => hpid ▸ h a c' hsome,
      fun h a c' hsome => h a.pid ⟨a, c', hsome, rfl⟩⟩
  refine ⟨hnames.trans ⟨fun h => ⟨?_, ?_, ?_⟩, ?_⟩, namesClient_of_scan⟩
  · intro hne e hcached
    exact h _ (Or.inl (.cached hne hcached))
  · intro hne hmiss table inode pid hread hholder
    exact Or.inr (h _ (Or.inl (.scanned hne hmiss hread hholder)))
  · intro hnone pid hnamed
    exact h _ (Or.inr ⟨hnone, hnamed⟩)
  · rintro h pid (hnamed | ⟨hnone, hnamed⟩)
    · exact h.owns hnamed
    · exact h.fallback hnone pid hnamed

end

/-- A row with a port and an inode. -/
def rowOf (port : UInt16) (inode : Nat) : SockRow :=
  ⟨"0:", "00000000", port, #v["00000000:0000", "07", "00000000:00000000", "00:00000000", "00000000",
    "0", "0"], inode, []⟩

/-- A file with this row only, in one read. -/
def fileOf (port : UInt16) (inode : Nat)
    (hfields : fields (kernelLine (rowOf port inode)) = (rowOf port inode).fields)
    (hline : '\n' ∉ kernelLine (rowOf port inode) ∧ '\r' ∉ kernelLine (rowOf port inode)) :
    NetFile where
  header := tcpHeader
  rows := [⟨rowOf port inode, kernelLine (rowOf port inode), hfields, hline⟩]
  reads := [tcpHeader ++ '\n' :: (kernelLine (rowOf port inode) ++ ['\n'])]
  header_line := emptyTable.header_line
  reads_text := by simp [TableRow.text]

/-- Process 10 has the TCP socket with port 5353, process 20 the UDP socket. -/
def sharedPort : Proc where
  tables :=
    { file
        | .tcp => fileOf 5353 7 (by decide +kernel) (by decide +kernel)
        | .udp => fileOf 5353 8 (by decide +kernel) (by decide +kernel)
        | _ => emptyTable
      opens _ := true }
  self := 1
  entries := some [("1", true), ("10", true), ("20", true), ("net", true)]
  process
    | 10 => ⟨[⟨"socket:[7]", true⟩], true, some "server", none⟩
    | 20 => ⟨[⟨"socket:[8]", true⟩], true, some "client", none⟩
    | _ => ⟨[], true, none, none⟩

/-- With an empty cache, the owner of the UDP socket is taken for that of the TCP socket. And five
seconds after process 30 was recorded for the port, it is named for a TCP client with that port,
though it has no socket at all. -/
theorem udp_client_is_taken_for_tcp :
    (∃ a c', resolveProcessByConn sharedPort newProcCache 0 0 (accepted .udp 5353 12345) =
        some (a, c') ∧ a.pid = 10 ∧ ¬ Owns sharedPort .udp 5353 a.pid) ∧
      ∃ a c', resolveProcessByConn sharedPort (recordProcessMetadata newProcCache 0 5353 30 "gone")
          ttl ttl (accepted .tcp 5353 12345) = some (a, c') ∧ a.pid = 30 ∧
        ¬ Owns sharedPort .tcp 5353 a.pid := by
  refine ⟨⟨⟨"server", 10⟩, [⟨5353, 10, "server", ttl⟩], by decide +kernel, rfl, ?_⟩,
    ⟨"gone", 30⟩, recordProcessMetadata newProcCache 0 5353 30 "gone", ?_, rfl, ?_⟩
  · rintro ⟨table, htable, row, hrow, -, fd, hfd, hlink⟩
    have hfd' : fd = ⟨"socket:[7]", true⟩ := List.mem_singleton.mp hfd
    subst hfd'
    cases table with
    | tcp => cases htable
    | tcp6 => cases htable
    | udp =>
      have hrow' : row = rowOf 5353 8 := List.mem_singleton.mp hrow
      subst hrow'
      exact absurd hlink (by decide)
    | udp6 => cases hrow
  · rw [resolveProcessByConn_accepted]
    change (resolveProcessByPort _ _ _ 5353).or _ = _
    rw [recorded_process_is_named (by decide) (by decide) (by decide) (Nat.le_add_left _ _)]
    exact Option.some_or
  · rintro ⟨-, -, -, -, -, fd, hfd, -⟩
    cases hfd

end vproxy.proc
