-- The loop over the requests of an intercepted connection (handlePlainHTTP). A request is
-- mocked, rewritten, mapped to a file or forwarded. The answers from a file, and an error
-- about a rewrite target, leave the body of the request in the stream.
import Vproxy.Handler
import Vproxy.Framing

open go go.net go.url go.regexp framing

namespace vproxy

section

variable [Regexp] [Unicode]

/-! ## The branches -/

/-- How a request of the loop is answered. -/
inductive Branch where
  | mock (file : Str)
  | rewrite (targetURL : Str)
  | mapFile (file : Str)
  | badGateway
  | forwarded
deriving DecidableEq

/-- The host without its port, and the host as the URL shows it. -/
def hostNames (host : Str) : Str × Str :=
  match splitHostPort host with
  | some (h, p) => (h, if p = "443" ∨ p = "80" then h else host)
  | none => (host, host)

def fullURL (host requestURI : Str) : Str := "https://" ++ (hostNames host).2 ++ requestURI

/-- The branch after the rewrites. `server` says that there is a connection to a server. -/
def ProxyHandler.legacyBranch (ph : ProxyHandler) (server : Bool) (url : Str) : Branch :=
  let (action, target) := ph.rm.matchURL url
  if action = .map ∧ hasPrefix target "file://" then .mapFile (trimPrefix target "file://")
  else if server then .forwarded
  else .badGateway

/-- The branch that a request with this URI takes. -/
def ProxyHandler.branch (ph : ProxyHandler) (host : Str) (server : Bool) (requestURI : Str) :
    Branch :=
  let url := fullURL host requestURI
  match ph.matchRewrite url (hostNames host).1 with
  | some res =>
    match res.action with
    | .mock => .mock res.localFile
    | .proxy => if res.targetURL ≠ [] then .rewrite res.targetURL else ph.legacyBranch server url
  | none => ph.legacyBranch server url

/-- What a branch does with the body before the loop reads on. `forwardRewriteRequest` reads
it once the target parses. A forwarded request ends the loop when the server or the client
fails, that is when `up` is false. -/
def Branch.turn (up : Bool) : Branch → Turn
  | .mock _ => .skip
  | .rewrite targetURL => if (parse targetURL).isSome then .drain else .skip
  | .mapFile _ => .skip
  | .badGateway => .stop
  | .forwarded => if up then .drain else .stop

/-- The loop as a loop over messages. `requestURI` is what the loop asks of a request, and
`up k` says that the exchange with the server works in turn `k`. -/
def ProxyHandler.mitmTurn (ph : ProxyHandler) (host : Str) (server : Bool) {Req : Type}
    (requestURI : Req → Str) (up : Nat → Bool) (k : Nat) (req : Req) : Turn :=
  (ph.branch host server (requestURI req)).turn (up k)

/-! ## The law -/

/-- The branch leaves the body where it is. -/
def Branch.LeavesBody : Branch → Prop
  | .mock _ => True
  | .rewrite targetURL => parse targetURL = none
  | .mapFile _ => True
  | .badGateway => False
  | .forwarded => False

/-- The loop goes on after the request. -/
def Branch.GoesOn (up : Bool) : Branch → Prop
  | .badGateway => False
  | .forwarded => up = true
  | _ => True

/-- Every request that the loop comes to and that takes a branch which leaves the body has an
empty body. -/
def ProxyHandler.BodiesRead (ph : ProxyHandler) (host : Str) (server : Bool) {Byte Req : Type}
    {rd : Reader Byte Req} (requestURI : Req → Str) (up : Nat → Bool) :
    Nat → List (Message rd) → Prop
  | _, [] => True
  | k, m :: ms =>
    let b := ph.branch host server (requestURI m.req)
    (b.LeavesBody → m.body = []) ∧
      (b.GoesOn (up k) → ph.BodiesRead host server requestURI up (k + 1) ms)

theorem bodiesRead_iff (ph : ProxyHandler) (host : Str) (server : Bool) {Byte Req : Type}
    {rd : Reader Byte Req} (requestURI : Req → Str) (up : Nat → Bool) (k : Nat)
    (ms : List (Message rd)) :
    Drained (ph.mitmTurn host server requestURI up) k ms ↔
      ph.BodiesRead host server requestURI up k ms := by
  induction ms generalizing k with
  | nil => rfl
  | cons m ms ih =>
    have hturn : ph.mitmTurn host server requestURI up k m.req =
        (ph.branch host server (requestURI m.req)).turn (up k) := rfl
    rw [Drained, hturn, ProxyHandler.BodiesRead, ← ih]
    cases ph.branch host server (requestURI m.req) with
    | mock file => simp [Branch.turn, Branch.LeavesBody, Branch.GoesOn]
    | mapFile file => simp [Branch.turn, Branch.LeavesBody, Branch.GoesOn]
    | badGateway => simp [Branch.turn, Branch.LeavesBody, Branch.GoesOn]
    | forwarded => cases up k <;> simp [Branch.turn, Branch.LeavesBody, Branch.GoesOn]
    | rewrite targetURL =>
      cases hp : parse targetURL <;> simp [Branch.turn, Branch.LeavesBody, Branch.GoesOn, hp]

/-- Each request is read at its first byte exactly when no request that is mocked, mapped, or
rewritten to a target that does not parse has a body. -/
theorem requests_stay_framed (ph : ProxyHandler) (host : Str) (server : Bool) {Byte Req : Type}
    (rd : Reader Byte Req) (requestURI : Req → Str) (up : Nat → Bool) (ms : List (Message rd)) :
    Framed rd (ph.mitmTurn host server requestURI up) 0 ms ↔
      ph.BodiesRead host server requestURI up 0 ms := by
  rw [framed_iff, bodiesRead_iff]

end

/-! ## A request inside a body -/

/-- A stream seen as header blocks and other bytes. The bytes of a body may be a block. -/
inductive Block where
  | head (requestURI : Str) (contentLength : Nat)
  | byte (b : UInt8)
deriving DecidableEq

/-- A block with a content length, then the body. -/
def blocks : Reader Block (Str × Nat) where
  readHead
    | .head requestURI contentLength :: rest => some ((requestURI, contentLength), rest)
    | _ => none
  readBody req s := s.drop req.2
  eof := rfl

def post (requestURI : Str) (body : List Block) : Message blocks where
  req := (requestURI, body.length)
  head := [.head requestURI body.length]
  body := body
  head_reads _ := rfl
  body_reads s := by simp [blocks]

/-- A mocked request with a body: the next request is read from the body. -/
theorem mocked_body_is_read_as_a_request :
    let ph := setupServices ⟨0, 8118, 0⟩ (bareConfig ["https://a.cn/x file:///y"] [])
    let turn := ph.mitmTurn "a.cn:443" false Prod.fst (fun _ => true)
    let ms := [post "/x" [.head "/admin" 0]]
    reads blocks turn 2 0 (wire ms) = [wire ms, [.head "/admin" 0]] ∧
      ¬ Framed blocks turn 0 ms := by
  intro ph turn ms
  have hreads : reads blocks turn 2 0 (wire ms) = [wire ms, [.head "/admin" 0]] := by
    decide +kernel
  refine ⟨hreads, fun hframed => ?_⟩
  have hnext := hframed 2 1 [.head "/admin" 0] (by rw [hreads]; rfl)
  cases hnext

end vproxy
