-- The way back to raw bytes in handlePlainHTTP. When the first request cannot be read, the bytes
-- in the buffer are written to the server and the rest is relayed. The lines that the parser took
-- before it failed are in neither, so the server gets the stream without them.
import Vproxy.LineReader
import Vproxy.HttpHeads
import Vproxy.Relay

open go readers bufio runs

namespace vproxy

variable {ε σ : Type}

def crlf : LineEnd UInt8 := ⟨13, 10⟩

/-! ## The code -/

/-- The first `http.ReadRequest`, for a parser of lines. When it fails, the bytes that
`clientReader.Peek(clientReader.Buffered())` gives, and what the connection has still to give. -/
def handlePlainHTTP.fallback (next : σ → List UInt8 → Verdict σ) (start : σ)
    (client : Source UInt8 ε) : Option (List UInt8 × Source UInt8 ε) :=
  let (ok, clientReader) := (Reader.new client).readLines crlf next start
  if ok then none else some (clientReader.buf, clientReader.src)

/-- What belongs to the server and to the client of the relay. -/
def ofServerAndClient (server client : List UInt8) : relay.Side → List UInt8
  | .left => server
  | .right => client

/-- The relay after that, with the server on the left and the client on the right. Of what the
client has still to give, `held` is in a wrapper of the connection and `socket` is behind it. -/
def handlePlainHTTP.relayed (kinds : relay.Side → relay.Kind) (held socket server : List UInt8)
    (acts : List relay.Act) : relay.Relay UInt8 :=
  run (relay.step kinds)
    (relay.start (ofServerAndClient [] held) (ofServerAndClient server socket)) acts

/-- What the server has got: the bytes of the buffer, and what the relay has written. -/
def handlePlainHTTP.delivered (buffered : List UInt8) (r : relay.Relay UInt8) : List UInt8 :=
  buffered ++ (r.loop .right).written

/-! ## The law -/

/-- The buffer and the rest are the stream without the lines that the parser took. -/
theorem fallback_spec {next : σ → List UInt8 → Verdict σ} {start : σ} {client : Source UInt8 ε}
    {buffered : List UInt8} {rest : Source UInt8 ε}
    (h : handlePlainHTTP.fallback next start client = some (buffered, rest)) :
    ∃ taken, client.stream = taken ++ (buffered ++ rest.stream) ∧
      (taken = [] ↔ (Reader.new client).fill.buf = []) := by
  obtain ⟨first, more, htakes, -⟩ := Reader.takes_readLines crlf next start (Reader.new client)
  have hnothing := Reader.readLines_takes_nothing_iff crlf next start client
  unfold handlePlainHTTP.fallback at h
  dsimp only at h
  split at h
  · cases h
  · obtain ⟨rfl, rfl⟩ := Prod.mk.inj (Option.some.inj h)
    refine ⟨first ++ more, htakes, ?_⟩
    rw [← hnothing]
    have hall : client.stream = (first ++ more) ++ _ := htakes
    constructor
    · intro hnil
      rw [hnil] at hall
      exact hall.symm
    · intro hsame
      rw [hsame] at hall
      exact List.self_eq_append_left.mp hall

/-- The server gets the whole stream of the client, under every interleaving of the relay, exactly
when the first fill of the buffer got no byte and a client without `CloseWrite` has nothing left
behind its wrapper. -/
theorem raw_fallback_is_lossless_iff (kinds : relay.Side → relay.Kind)
    (next : σ → List UInt8 → Verdict σ) (start : σ) (client rest : Source UInt8 ε)
    (buffered held socket server : List UInt8)
    (hfails : handlePlainHTTP.fallback next start client = some (buffered, rest))
    (hrest : held ++ socket = rest.stream) :
    (∀ acts, (relay.result (handlePlainHTTP.relayed kinds held socket server acts)).isSome →
      handlePlainHTTP.delivered buffered (handlePlainHTTP.relayed kinds held socket server acts) =
        client.stream) ↔
      (Reader.new client).fill.buf = [] ∧ ((kinds .right).hasCloseWrite ∨ socket = []) := by
  obtain ⟨taken, hstream, hnothing⟩ := fallback_spec hfails
  rw [← hrest] at hstream
  rw [← hnothing, hstream]
  unfold handlePlainHTTP.delivered
  constructor
  · intro hall
    -- The server ends first, so a client without `CloseWrite` is closed before it is read.
    obtain ⟨acts, hresult, hwritten⟩ := relay.exists_run_other_first kinds
      (ofServerAndClient [] held) (ofServerAndClient server socket) .right
    have hlen := congrArg List.length (hall acts hresult)
    unfold handlePlainHTTP.relayed at hlen
    rw [hwritten] at hlen
    simp only [ofServerAndClient, List.length_append] at hlen
    split at hlen
    · rename_i hclose
      exact ⟨List.eq_nil_of_length_eq_zero (by omega), .inl hclose⟩
    · rw [List.length_nil] at hlen
      exact ⟨List.eq_nil_of_length_eq_zero (by omega),
        .inr (List.eq_nil_of_length_eq_zero (by omega))⟩
  · rintro ⟨rfl, hsafe⟩ acts hresult
    have hright : relay.SafeAt (ofServerAndClient [] held) (ofServerAndClient server socket) .right
        (handlePlainHTTP.relayed kinds held socket server acts) := relay.safeAt_run hsafe acts
    have hwritten := hright.whole.written_of_done (relay.isSome_result.mp hresult .right)
    exact congrArg _ hwritten

theorem fallback_of_empty {client : Source UInt8 ε} (h : (Reader.new client).fill.buf = [])
    (next : σ → List UInt8 → Verdict σ) (start : σ) :
    handlePlainHTTP.fallback next start client = some ([], (Reader.new client).fill.src) := by
  unfold handlePlainHTTP.fallback
  rw [Reader.readLines_of_none (Reader.readLine_of_empty crlf h)]
  rfl

/-- Both sides end, the server first. -/
def bothEnd : List relay.Act :=
  [.read .left 0, .read .left 1, .write .left, .read .left 0, .close .left, .read .right 0,
    .close .right]

/-- Nothing comes from the client, so nothing is lost. -/
theorem silent_client_loses_nothing :
    handlePlainHTTP.delivered [] (handlePlainHTTP.relayed (fun _ => .tcp) [] [] [104] bothEnd) =
      [] :=
  (raw_fallback_is_lossless_iff (fun _ => .tcp) (fun (_ : Unit) _ => .failed) ()
    (⟨[], false, .eof⟩ : Source UInt8 Unit) ⟨[], false, .eof⟩ [] [] [] [104]
    (fallback_of_empty rfl _ _) rfl).mpr ⟨rfl, .inl rfl⟩ bothEnd (by decide)

/-! ## A protocol that is not HTTP -/

/-- A parser of request heads: the request line first, and then header lines. -/
def requestLines : Bool → List UInt8 → Verdict Bool
  | false, line =>
    if (http_heads.readRequestLine (http_heads.chomp (text line))).isSome then .more true
    else .failed
  | true, line =>
    if http_heads.chomp (text line) = [] then .done
    else if (http_heads.readHeader (http_heads.chomp (text line))).isSome then .more true
    else .failed

/-- The parser fails on the first line, and the buffer has what is behind it. -/
theorem fallback_of_first_line {client : Source UInt8 ε}
    (h : crlf.nl ∈ (Reader.new client).fill.buf) {next : σ → List UInt8 → Verdict σ} {start : σ}
    (hnext : next start ((Reader.new client).fill.buf.takeWhile (· ≠ crlf.nl)) = .failed) :
    handlePlainHTTP.fallback next start client =
      some (crlf.behind (Reader.new client).fill.buf, (Reader.new client).fill.src) := by
  unfold handlePlainHTTP.fallback
  rw [Reader.readLines_of_failed (Reader.readLine_of_mem crlf h) hnext]
  rfl

/-- A client that greets with a line of its own protocol. -/
def greeting : Source UInt8 Unit := ⟨[bytes "SSH-2.0-a\r\nb"], false, .eof⟩

/-- The greeting does not reach the server. -/
theorem greeting_is_lost :
    handlePlainHTTP.fallback requestLines false greeting = some (bytes "b", ⟨[], false, .eof⟩) ∧
      ∃ acts, (relay.result (handlePlainHTTP.relayed (fun _ => .tcp) [] [] [] acts)).isSome ∧
        handlePlainHTTP.delivered (bytes "b")
          (handlePlainHTTP.relayed (fun _ => .tcp) [] [] [] acts) ≠ greeting.stream := by
  refine ⟨?_, [.read .left 0, .close .left, .read .right 0, .close .right], ?_, ?_⟩
  · rw [fallback_of_first_line (by decide +kernel) (by decide +kernel)]
    decide +kernel
  · decide
  · decide +kernel

end vproxy
