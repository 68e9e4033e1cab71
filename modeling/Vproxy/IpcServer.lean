-- The IPC daemon (internal/ipc) and the move of a process into the cgroup. A peer sends one
-- request, and the daemon writes a process id for it. The law says for which requests that is a
-- process which the request names and the peer may move.
import Vproxy.JsonFields

open go go.json

namespace vproxy.ipc

/-! ## Requests -/

/-- `Request`. The raw message is the value that it is the text of. -/
structure Request where
  type : Str
  data : Option Value

/-- A member of an object that is decoded into a `Request`; a value of the wrong type is an
error. -/
def Request.setField (req : Request) (member : Str × Value) : Option Request :=
  if isName "type" member.1 then (str.read req.type member.2).map fun s => { req with type := s }
  else if isName "data" member.1 then some { req with data := some member.2 }
  else some req

def decodeRequest : Value → Option Request
  | .null => some ⟨[], none⟩
  | .obj members => members.foldlM Request.setField ⟨[], none⟩
  | _ => none

/-- `AttachRequest` after `Unmarshal`: the pid that the data set, and whether there was no
error. -/
structure Unmarshaled where
  pid : Option Int
  ok : Bool
  deriving DecidableEq

/-- An error leaves the pid as it was. -/
def Unmarshaled.setField (r : Unmarshaled) (member : Str × Value) : Unmarshaled :=
  if isName "pid" member.1 then
    match member.2 with
    | .num literal => if (atoi literal).2 then { r with pid := some (atoi literal).1 }
      else { r with ok := false }
    | .null => r
    | _ => { r with ok := false }
  else r

def unmarshalAttach : Option Value → Unmarshaled
  | some .null => ⟨none, true⟩
  | some (.obj members) => members.foldl Unmarshaled.setField ⟨none, true⟩
  | _ => ⟨none, false⟩

/-- The request that a byte stream starts with. -/
def readRequest (stream : List UInt8) : Option Request :=
  (decode (text stream)).bind decodeRequest

/-- The pid of the `AttachRequest` that the daemon works with. -/
def Request.pid (req : Request) : Int :=
  if req.type = "attach" then (unmarshalAttach req.data).pid.getD 0 else 0

/-! ## The daemon -/

structure PeerCred where
  pid : Int32
  uid : UInt32
  deriving DecidableEq

/-- What the daemon finds: the peer, the processes with their owners, and the cgroup. There are
processes with a positive id only, and only these and the daemon itself can be moved. -/
structure System where
  /-- `getPeerCred`. -/
  cred : Except Str PeerCred
  /-- The owner of `/proc/p`. -/
  owner : Int → Option UInt32
  owner_pos : ∀ p, (owner p).isSome → 0 < p
  /-- The error of a write of `p` to `cgroup.procs`. -/
  writeError : Int → Option Str
  writeError_none : ∀ p, writeError p = none → p = 0 ∨ (owner p).isSome
  daemon : Int
  /-- The processes in the cgroup. -/
  members : List Int
  uptime : Str

structure Server where
  version : Str
  /-- The error of the handler, when there is a handler. -/
  repairHandler : Option (Option Str)

inductive Response where
  | status (success : Bool) (error version uptime : Str)
  | attach (success : Bool) (error : Str)
  deriving DecidableEq

/-- What a connection comes to: the answer, and the id that is written to `cgroup.procs`. -/
structure Outcome where
  response : Option Response
  written : Option Int
  deriving DecidableEq

def isProcessOwnedBy (sys : System) (pid : Int) (uid : UInt32) : Bool := sys.owner pid = some uid

/-- `MoveProcessToVProxyCgroup`: its error, if it has one. -/
def moveProcessToVProxyCgroup (sys : System) (pid : Int) : Option Str :=
  (sys.writeError pid).map fun e =>
    "failed to move pid " ++ intLiteral pid ++ " to cgroup: " ++ e ++
      ". Ensure 'sudo vproxy init' was run"

/-- The reply to an attempt that may have an error. -/
def attachResponse : Option Str → Response
  | none => .attach true []
  | some e => .attach false e

def handleAttach (sys : System) (req : Request) : Outcome :=
  match sys.cred with
  | .error e => ⟨some (.attach false ("failed to retrieve peer credentials: " ++ e)), none⟩
  | .ok cred =>
    if cred.uid ≠ 0 ∧ req.pid ≠ cred.pid.toInt ∧ ¬ isProcessOwnedBy sys req.pid cred.uid then
      ⟨some (.attach false "permission denied: cannot attach process owned by another user"), none⟩
    else ⟨some (attachResponse (moveProcessToVProxyCgroup sys req.pid)), some req.pid⟩

def handleConnection (s : Server) (sys : System) (stream : List UInt8) : Outcome :=
  match readRequest stream with
  | none => ⟨none, none⟩
  | some req =>
    if req.type = "status" then
      ⟨some (.status true [] (if s.version = [] then "dev" else s.version) sys.uptime), none⟩
    else if req.type = "repair" then
      match s.repairHandler with
      | some error => ⟨some (attachResponse error), none⟩
      | none => ⟨some (.attach false "repair handler not configured"), none⟩
    else if req.type = "attach" ∨ req.type = [] then handleAttach sys req
    else ⟨none, none⟩

/-- The processes in the cgroup after the connection. Writing 0 moves the daemon. -/
def membersAfter (s : Server) (sys : System) (stream : List UInt8) : List Int :=
  match (handleConnection s sys stream).written with
  | none => sys.members
  | some p =>
    if (sys.writeError p).isSome then sys.members
    else (if p = 0 then sys.daemon else p) :: sys.members

/-! ## What is written -/

/-- The peer may move the process. -/
def Entitled (sys : System) (cred : PeerCred) (p : Int) : Prop :=
  cred.uid = 0 ∨ p = cred.pid.toInt ∨ sys.owner p = some cred.uid

theorem written_attach {sys : System} {req : Request} {p : Int} :
    (handleAttach sys req).written = some p ↔
      ∃ cred, sys.cred = .ok cred ∧ Entitled sys cred req.pid ∧ p = req.pid := by
  unfold handleAttach Entitled
  cases hcred : sys.cred with
  | error e => simp
  | ok cred =>
    dsimp only
    split
    · rename_i hdenied
      obtain ⟨hroot, hown, howner⟩ := hdenied
      simp_all [isProcessOwnedBy]
    · rename_i hallowed
      simp only [isProcessOwnedBy, decide_eq_true_eq] at hallowed
      grind

/-- A request for an attachment: of the type attach, or of no type. -/
def Request.IsAttach (req : Request) : Prop := req.type = "attach" ∨ req.type = []

theorem written_iff {s : Server} {sys : System} {stream : List UInt8} {p : Int} :
    (handleConnection s sys stream).written = some p ↔
      ∃ req cred, readRequest stream = some req ∧ req.IsAttach ∧ sys.cred = .ok cred ∧
        Entitled sys cred req.pid ∧ p = req.pid := by
  unfold handleConnection Request.IsAttach
  cases hread : readRequest stream with
  | none => simp
  | some req =>
    dsimp only
    split
    · rename_i hstatus
      simp [hstatus]
    split
    · rename_i hrepair
      cases s.repairHandler <;> simp [hrepair]
    split
    · rename_i hattach
      rw [written_attach]
      constructor
      · rintro ⟨cred, hcred, hentitled, rfl⟩
        exact ⟨req, cred, rfl, hattach, hcred, hentitled, rfl⟩
      · rintro ⟨_, cred, ⟨⟩, -, hcred, hentitled, rfl⟩
        exact ⟨cred, hcred, hentitled, rfl⟩
    · rename_i hattach
      refine iff_of_false nofun ?_
      rintro ⟨_, -, ⟨⟩, hattach', -⟩
      exact hattach hattach'

/-- The stream is a well-formed attach request that carries the pid `p`. -/
def Carries (stream : List UInt8) (p : Int) : Prop :=
  ∃ req, readRequest stream = some req ∧ req.type = "attach" ∧
    unmarshalAttach req.data = ⟨some p, true⟩

theorem pid_of_carries {stream : List UInt8} {p : Int} {req : Request} (h : Carries stream p)
    (hread : readRequest stream = some req) : req.IsAttach ∧ req.pid = p := by
  obtain ⟨req', hread', htype, hdata⟩ := h
  obtain rfl := Option.some.inj (hread.symm.trans hread')
  refine ⟨.inl htype, ?_⟩
  unfold Request.pid
  rw [if_pos htype, hdata]
  rfl

/-- The request is well formed and names a process. Or else the peer is not root, and the pid that
the decoding leaves, 0 when none is named, is neither its own nor that of a process it owns. -/
def Careful (sys : System) (stream : List UInt8) : Prop :=
  ∀ req cred, readRequest stream = some req → req.IsAttach → sys.cred = .ok cred →
    (∃ p, Carries stream p ∧ 0 < p) ∨
      (cred.uid ≠ 0 ∧ req.pid ≠ cred.pid.toInt ∧ sys.owner req.pid ≠ some cred.uid)

/-- The daemon writes only the process that a well-formed request names and the peer may move, and
any other request leaves the cgroup as it is, exactly when the peer is careful. -/
theorem daemon_moves_what_was_named (s : Server) (sys : System) (stream : List UInt8) :
    ((∀ p, (handleConnection s sys stream).written = some p →
        Carries stream p ∧ 0 < p ∧ ∃ cred, sys.cred = .ok cred ∧ Entitled sys cred p) ∧
      ((¬ ∃ p, Carries stream p ∧ 0 < p) → membersAfter s sys stream = sys.members)) ↔
      Careful sys stream := by
  constructor
  · rintro ⟨hwritten, -⟩ req cred hread hattach hcred
    by_cases hentitled : Entitled sys cred req.pid
    · have hw : (handleConnection s sys stream).written = some req.pid :=
        written_iff.mpr ⟨req, cred, hread, hattach, hcred, hentitled, rfl⟩
      obtain ⟨hcarries, hpos, -⟩ := hwritten _ hw
      exact .inl ⟨_, hcarries, hpos⟩
    · unfold Entitled at hentitled
      simp only [not_or] at hentitled
      exact .inr hentitled
  · intro hcareful
    have hall : ∀ p, (handleConnection s sys stream).written = some p →
        Carries stream p ∧ 0 < p ∧ ∃ cred, sys.cred = .ok cred ∧ Entitled sys cred p := by
      intro p hw
      obtain ⟨req, cred, hread, hattach, hcred, hentitled, rfl⟩ := written_iff.mp hw
      rcases hcareful req cred hread hattach hcred with ⟨q, hcarries, hpos⟩ | hdenied
      · obtain ⟨-, rfl⟩ := pid_of_carries hcarries hread
        exact ⟨hcarries, hpos, cred, hcred, hentitled⟩
      · obtain ⟨hroot, hown, howner⟩ := hdenied
        rcases hentitled with h | h | h <;> contradiction
    refine ⟨hall, ?_⟩
    intro hnone
    unfold membersAfter
    cases hw : (handleConnection s sys stream).written with
    | none => rfl
    | some p => exact absurd ⟨p, (hall p hw).1, (hall p hw).2.1⟩ hnone

/-! ## A request without a pid -/

/-- A machine with one process, which belongs to the user 1000. -/
def smallHost (cred : PeerCred) : System where
  cred := .ok cred
  owner p := if p = 4242 then some 1000 else none
  owner_pos := by
    intro p hp
    split at hp
    · omega
    · cases hp
  writeError p := if p = 0 ∨ p = 4242 then none else some "no such process"
  writeError_none := by
    intro p hp
    split at hp
    · rename_i h
      exact h.imp_right fun h => by simp [h]
    · cases hp
  daemon := 77
  members := []
  uptime := "1h"

/-- An attach request of root without a pid moves the daemon, and so does the text null from a peer
whose pid cannot be seen from here. -/
theorem request_without_pid_moves_the_daemon :
    (handleConnection ⟨[], none⟩ (smallHost ⟨1, 0⟩)
        (bytes "\x7b\"type\":\"attach\",\"data\":\x7b\x7d\x7d")).written = some 0 ∧
      membersAfter ⟨[], none⟩ (smallHost ⟨1, 0⟩)
        (bytes "\x7b\"type\":\"attach\",\"data\":\x7b\x7d\x7d") = [77] ∧
      (handleConnection ⟨[], none⟩ (smallHost ⟨0, 1000⟩) (bytes "null")).written = some 0 := by
  decide +kernel

end vproxy.ipc
