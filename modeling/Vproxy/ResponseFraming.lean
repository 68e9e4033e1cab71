-- The responses of the loop over the requests of an intercepted connection. The loop reads the
-- next request after every response but the last. An answer from a file is built without a length,
-- so the client can find its end only if it is empty. What comes from a server goes out as it was
-- framed.
import Vproxy.MitmLoop
import Vproxy.HttpResponses

open go go.net go.url go.regexp http_responses

namespace vproxy

/-! ## The code -/

/-- What the loop finds outside: the local files, the type for a path, and in turn `k` what the
transport of `forwardRewriteRequest` gives and what the server answers. -/
structure Answers where
  readFile : Str → Option (List UInt8)
  typeByExtension : Str → Str
  roundTrip : Nat → Option Received
  exchange : Nat → Option Received

/-- A response that the code builds from a status, header fields and a body. -/
def built (status : Nat) (header : List (Str × Str)) (body : Option (List UInt8)) : Response :=
  ⟨status, true, header, some 0, false, false, false, body, none⟩

def statusBadGateway : Response := built 502 [] none

/-- The response of `serveLocalFile`. -/
def serveLocalFile (a : Answers) (path : Str) : Response :=
  match a.readFile path with
  | none =>
    built 404 [("Content-Type", "text/plain")] (some (bytes "Local file not found by vproxy"))
  | some data =>
    let contentType := a.typeByExtension path
    let contentType := if contentType = [] then ("application/octet-stream" : Str) else contentType
    built 200
      [("Content-Type", contentType),
        ("Content-Length", itoa data.length),
        ("Access-Control-Allow-Origin", "*"),
        ("Access-Control-Allow-Methods", "GET, POST, OPTIONS, PUT, DELETE, PATCH"),
        ("Access-Control-Allow-Headers", "*"),
        ("Server", "vproxy-mitm")]
      (some data)

/-- The response of `forwardRewriteRequest`. -/
def forwardRewriteRequest (a : Answers) (k : Nat) (method targetURL : Str) : Response :=
  match parse targetURL with
  | none => statusBadGateway
  | some _ =>
    match a.roundTrip k with
    | none => statusBadGateway
    | some resp => resp.response method

/-- A request of the loop. -/
structure MitmRequest where
  method : Str
  requestURI : Str

/-- The response of a turn, and whether the loop goes on. A forwarded request without an answer
ends the loop without a response, and so does an answer that cannot be written. -/
def Branch.answer (a : Answers) (k : Nat) (method : Str) : Branch → Option Response × Bool
  | .mock file => (some (serveLocalFile a file), true)
  | .rewrite targetURL => (some (forwardRewriteRequest a k method targetURL), true)
  | .mapFile file => (some (serveLocalFile a file), true)
  | .badGateway => (some statusBadGateway, false)
  | .forwarded =>
    match a.exchange k with
    | none => (none, false)
    | some resp => (some (resp.response method), (resp.response method).write.ok)

/-- A response that was written, and whether the loop waits for another request after it. -/
structure Answered where
  method : Str
  response : Response
  goesOn : Bool

section

variable [Regexp] [Unicode]

/-- The responses of the loop from turn `k` on. -/
def ProxyHandler.answers (ph : ProxyHandler) (host : Str) (server : Bool) (a : Answers) :
    Nat → List MitmRequest → List Answered
  | _, [] => []
  | k, req :: reqs =>
    let (response, goesOn) := (ph.branch host server req.requestURI).answer a k req.method
    response.toList.map (⟨req.method, ·, goesOn⟩) ++
      if goesOn then ph.answers host server a (k + 1) reqs else []

/-! ## The law -/

/-- The client finds the end of the response, or the connection is closed. -/
def Answered.Ends (r : Answered) : Prop :=
  r.goesOn = true → r.response.write.delimited r.method r.response.status = true

instance (r : Answered) : Decidable r.Ends := inferInstanceAs (Decidable (_ → _))

/-- The response of this branch ends where it says. -/
def Branch.Framed (a : Answers) (k : Nat) (method : Str) : Branch → Prop
  | .mock file => a.readFile file = some []
  | .rewrite targetURL =>
    (parse targetURL).isSome → ∀ resp, a.roundTrip k = some resp → resp.Framed method
  | .mapFile file => a.readFile file = some []
  | .badGateway => True
  | .forwarded => ∀ resp, a.exchange k = some resp → (resp.response method).write.ok = true →
      resp.Framed method

/-- So it is in every turn that the loop comes to. -/
def ProxyHandler.Framed (ph : ProxyHandler) (host : Str) (server : Bool) (a : Answers) :
    Nat → List MitmRequest → Prop
  | _, [] => True
  | k, req :: reqs =>
    (ph.branch host server req.requestURI).Framed a k req.method ∧
      (((ph.branch host server req.requestURI).answer a k req.method).2 = true →
        ph.Framed host server a (k + 1) reqs)

omit [Regexp] [Unicode] in
/-- A response of the code itself is delimited just when it has no bytes. -/
theorem delimited_status (method : Str) (status : Nat) (header : List (Str × Str))
    (body : Option (List UInt8)) :
    (built status header body).write.delimited method status = true ↔ body.getD [] = [] :=
  delimited_built method (r := built status header body) rfl rfl rfl

omit [Regexp] [Unicode] in
theorem delimited_serveLocalFile (a : Answers) (method path : Str) :
    (serveLocalFile a path).write.delimited method (serveLocalFile a path).status = true ↔
      a.readFile path = some [] := by
  unfold serveLocalFile
  cases a.readFile path with
  | none =>
    have hsome : bytes "Local file not found by vproxy" ≠ [] := by decide
    exact (delimited_status method 404 _ _).trans (iff_of_false hsome nofun)
  | some data =>
    refine (delimited_status method 200 _ _).trans ?_
    rw [Option.some.injEq]
    rfl

omit [Regexp] [Unicode] in
theorem delimited_forwardRewriteRequest (a : Answers) (k : Nat) (method targetURL : Str) :
    (forwardRewriteRequest a k method targetURL).write.delimited method
        (forwardRewriteRequest a k method targetURL).status = true ↔
      ((parse targetURL).isSome → ∀ resp, a.roundTrip k = some resp → resp.Framed method) := by
  have hbad : statusBadGateway.write.delimited method statusBadGateway.status = true :=
    (delimited_status method 502 [] none).mpr rfl
  unfold forwardRewriteRequest
  cases parse targetURL with
  | none => exact iff_of_true hbad nofun
  | some u =>
    cases a.roundTrip k with
    | none => exact iff_of_true hbad (fun _ => nofun)
    | some resp =>
      refine (delimited_received resp method).trans ⟨?_, ?_⟩
      · intro hframed _ resp' hresp
        exact Option.some.inj hresp ▸ hframed
      · intro hall
        exact hall rfl resp rfl

omit [Regexp] [Unicode] in
/-- One turn: the response ends where the client finds its end, exactly when it is framed. -/
theorem ends_answer_iff (b : Branch) (a : Answers) (k : Nat) (method : Str) :
    (∀ r ∈ (b.answer a k method).1, (⟨method, r, (b.answer a k method).2⟩ : Answered).Ends) ↔
      b.Framed a k method := by
  unfold Answered.Ends
  cases b with
  | mock file => simpa [Branch.answer, Branch.Framed] using delimited_serveLocalFile a method file
  | rewrite targetURL =>
    simpa [Branch.answer, Branch.Framed] using delimited_forwardRewriteRequest a k method targetURL
  | mapFile file => simpa [Branch.answer, Branch.Framed] using delimited_serveLocalFile a method file
  | badGateway => simp [Branch.answer, Branch.Framed]
  | forwarded =>
    simp only [Branch.answer, Branch.Framed]
    cases a.exchange k with
    | none => simp
    | some resp => simp [← delimited_received, Received.response]

/-- After every response of the loop the client finds its end or the connection is closed,
exactly when in every turn that the loop comes to the answer is framed: a local file is there and
is empty, and what comes from a server is in chunks or has the length of its body. -/
theorem responses_are_delimited_iff (ph : ProxyHandler) (host : Str) (server : Bool) (a : Answers)
    (k : Nat) (reqs : List MitmRequest) :
    (∀ r ∈ ph.answers host server a k reqs, r.Ends) ↔ ph.Framed host server a k reqs := by
  induction reqs generalizing k with
  | nil => simp [ProxyHandler.answers, ProxyHandler.Framed]
  | cons req reqs ih =>
    rw [ProxyHandler.Framed, ← ends_answer_iff, ← ih, ProxyHandler.answers]
    generalize (ph.branch host server req.requestURI).answer a k req.method = turn
    obtain ⟨response, goesOn⟩ := turn
    cases goesOn with
    | false => simp
    | true => simp [or_imp, forall_and]

end

/-- A file with this text, and no server. -/
def localFile (data : List UInt8) : Answers where
  readFile path := if path = "/y" then some data else none
  typeByExtension _ := []
  roundTrip _ := none
  exchange _ := none

/-- A mocked answer with a body goes out with neither a length nor chunks, and the loop waits for
the next request. -/
theorem mocked_answer_is_not_delimited :
    let ph := setupServices ⟨0, 8118, 0⟩ (bareConfig ["https://a.cn/x file:///y"] [])
    let a := localFile (bytes "hi")
    let answers := ph.answers "a.cn:443" false a 0 [⟨"GET", "/x"⟩]
    answers.map (fun r => (r.response.write, r.goesOn)) =
        [(⟨.none, true, bytes "hi", true⟩, true)] ∧
      ¬ ∀ r ∈ answers, r.Ends := by
  constructor <;> decide +kernel

end vproxy
