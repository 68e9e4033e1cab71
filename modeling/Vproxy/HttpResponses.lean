-- Responses as package net/http writes them. The framing comes from the fields of the response: a
-- length, chunks, or nothing, and then only the end of the connection ends the body. A header field
-- with a length does not count.
import Vproxy.Strings

open go

namespace http_responses

/-- `http.Response`. A content length of -1 is `none`, and no body is `none`. Of the request only
the method counts. -/
structure Response where
  status : Nat
  proto11 : Bool
  header : List (Str × Str)
  contentLength : Option Nat
  chunked : Bool
  uncompressed : Bool
  close : Bool
  body : Option (List UInt8)
  requestMethod : Option Str
  deriving DecidableEq

inductive Framing where
  | length (n : Nat)
  | chunked
  | none
  deriving DecidableEq, Repr

/-- What is written: how the body is framed, whether `Connection: close` is announced, the bytes
of the body, and whether `Write` reports no error. -/
structure Sent where
  framing : Framing
  close : Bool
  body : List UInt8
  ok : Bool
  deriving DecidableEq, Repr

/-- The bytes of the body. -/
def Response.bytes (r : Response) : List UInt8 := r.body.getD []

/-- The length that `Write` goes on with: zero beside a body means that it is not known. -/
def Response.knownLength (r : Response) : Option Nat :=
  if r.contentLength = some 0 ∧ r.bytes ≠ [] then none else r.contentLength

/-- Without a body a length of zero is written for these methods, whatever the field says. -/
def sendsZero (method : Option Str) : Bool :=
  method = some ("POST" : Str) || method = some ("PUT" : Str) || method = some ("PATCH" : Str)

/-- `Response.Write` to a connection that takes all bytes. -/
def Response.write (r : Response) : Sent :=
  let close := r.close ||
    (r.knownLength = none && r.proto11 && !r.chunked && !r.uncompressed)
  if r.requestMethod = some ("HEAD" : Str) then
    ⟨if r.chunked then .chunked else r.knownLength.elim .none .length, close, [], true⟩
  else if r.chunked && r.proto11 && r.body.isSome then ⟨.chunked, close, r.bytes, true⟩
  else if r.body = none then
    ⟨if r.contentLength = some 0 || sendsZero r.requestMethod then .length 0 else .none, close, [],
      true⟩
  else
    match r.knownLength with
    | none => ⟨.none, close, r.bytes, true⟩
    | some n => ⟨.length n, close, r.bytes.take n, r.bytes.length = n⟩

/-- A status without a body. -/
def bodyless (status : Nat) : Bool := 100 ≤ status && status ≤ 199 || status = 204 || status = 304

/-- A client that asked with this method finds the end of the response at its last byte. -/
def Sent.delimited (method : Str) (status : Nat) (s : Sent) : Bool :=
  if method = "HEAD" || bodyless status then s.body.isEmpty
  else
    match s.framing with
    | .length n => s.body.length = n
    | .chunked => true
    | .none => false

/-! ## Which responses are delimited -/

/-- The check by the client, with the bytes of the body as they are. -/
theorem delimited_iff (method : Str) (status : Nat) (s : Sent) :
    s.delimited method status = true ↔
      if method = "HEAD" ∨ bodyless status then s.body = []
      else s.framing = .chunked ∨ s.framing = .length s.body.length := by
  unfold Sent.delimited
  simp only [Bool.or_eq_true, decide_eq_true_eq]
  split
  · exact List.isEmpty_iff
  · cases s.framing with
    | length n => simp [eq_comm]
    | chunked => simp
    | none => simp

/-- What is written of a response that is built without a length. -/
theorem write_built {r : Response} (hmethod : r.requestMethod = none)
    (hlen : r.contentLength = some 0) (hchunked : r.chunked = false) :
    r.write.body = r.bytes ∧
      r.write.framing = if r.bytes = [] then .length 0 else .none := by
  obtain ⟨status, proto11, header, contentLength, chunked, uncompressed, close, body, method⟩ := r
  obtain rfl : method = none := hmethod
  obtain rfl : contentLength = some 0 := hlen
  obtain rfl : chunked = false := hchunked
  cases body with
  | none => exact ⟨rfl, rfl⟩
  | some b =>
    cases b with
    | nil => exact ⟨rfl, rfl⟩
    | cons b bs => exact ⟨rfl, rfl⟩

/-- Such a response is delimited just when it has no bytes. -/
theorem delimited_built (method : Str) {r : Response} (hmethod : r.requestMethod = none)
    (hlen : r.contentLength = some 0) (hchunked : r.chunked = false) :
    r.write.delimited method r.status = true ↔ r.bytes = [] := by
  obtain ⟨hbody, hframing⟩ := write_built hmethod hlen hchunked
  rw [delimited_iff, hbody, hframing]
  split
  · rfl
  · by_cases hempty : r.bytes = []
    · simp [hempty]
    · simp [hempty]

/-- A response that was read from a server. Its body ends at the declared length, or before. -/
structure Received where
  status : Nat
  proto11 : Bool
  header : List (Str × Str)
  contentLength : Option Nat
  chunked : Bool
  uncompressed : Bool
  close : Bool
  body : List UInt8
  body_le : ∀ n, contentLength = some n → body.length ≤ n

/-- The response to a request with this method, its body read into memory. -/
def Received.response (r : Received) (method : Str) : Response :=
  ⟨r.status, r.proto11, r.header, r.contentLength, r.chunked, r.uncompressed, r.close, some r.body,
    some method⟩

/-- The response says where it ends. -/
def Received.Framed (r : Received) (method : Str) : Prop :=
  method = "HEAD" ∨
    if bodyless r.status then r.body = []
    else r.chunked = true ∧ r.proto11 = true ∨ r.contentLength = some r.body.length

/-- What was read has no more bytes than it declares, so `Write` takes the length as it is. -/
theorem knownLength_received (r : Received) (method : Str) :
    (r.response method).knownLength = r.contentLength := by
  apply if_neg
  rintro ⟨hzero, hbytes⟩
  exact hbytes (List.eq_nil_of_length_eq_zero (Nat.le_zero.mp (r.body_le 0 hzero)))

/-- A response that was read goes out with its length, in chunks, or with neither. -/
theorem write_received (r : Received) {method : Str} (hmethod : method ≠ "HEAD") :
    (r.response method).write.body = r.body ∧
      ((r.response method).write.framing = .chunked ∨
        (r.response method).write.framing = .length r.body.length ↔
          r.chunked = true ∧ r.proto11 = true ∨ r.contentLength = some r.body.length) := by
  have hhead : ¬ (r.response method).requestMethod = some ("HEAD" : Str) := by
    intro h
    exact hmethod (Option.some.inj h)
  have hbody : (r.response method).body ≠ none := Option.some_ne_none _
  unfold Response.write
  rw [if_neg hhead]
  by_cases hte : r.chunked = true ∧ r.proto11 = true
  · have hchunked : ((r.response method).chunked && (r.response method).proto11 &&
        (r.response method).body.isSome) = true := by
      simp [Received.response, hte.1, hte.2]
    rw [if_pos hchunked]
    simp [hte, Response.bytes, Received.response]
  · have hchunked : ¬ ((r.response method).chunked && (r.response method).proto11 &&
        (r.response method).body.isSome) = true := by
      simpa [Received.response] using hte
    rw [if_neg hchunked, if_neg hbody, knownLength_received]
    have hbytes : (r.response method).bytes = r.body := rfl
    cases hlen : r.contentLength with
    | none => simp [hte, hbytes]
    | some n =>
      have htake : r.body.take n = r.body := List.take_of_length_le (r.body_le n hlen)
      simp [hte, hbytes, htake]

theorem delimited_received (r : Received) (method : Str) :
    (r.response method).write.delimited method r.status = true ↔ r.Framed method := by
  unfold Received.Framed
  by_cases hmethod : method = "HEAD"
  · have hhead : (r.response method).requestMethod = some ("HEAD" : Str) := congrArg some hmethod
    have hbody : (r.response method).write.body = [] := by
      unfold Response.write
      rw [if_pos hhead]
    rw [delimited_iff, if_pos (.inl hmethod)]
    exact ⟨fun _ => .inl hmethod, fun _ => hbody⟩
  · obtain ⟨hbody, hframing⟩ := write_received r hmethod
    rw [delimited_iff, hbody, hframing]
    simp only [hmethod, false_or]

end http_responses
