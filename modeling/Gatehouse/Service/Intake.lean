import Gatehouse.Service.Server

/-!
# Taking requests in

The body of a request arrives piece by piece and is awaited for a limited time.  A request whose
body is too large, breaks off or comes too late is refused before an endpoint sees it.
-/

namespace Gatehouse.Service

/-- How the arrival of a body ended. -/
inductive Arrival where
  | complete
  | broken (reason : String)
  | late
  deriving DecidableEq, Repr

/-- A body as far as it has arrived. -/
structure Delivery where
  received : List UInt8
  arrival : Arrival

/-- Why a request is refused. -/
inductive Refusal where
  | tooLarge
  | broken (reason : String)
  | late
  deriving DecidableEq, Repr

def Refusal.error : Refusal → ServiceError
  | .tooLarge => .http .payloadTooLarge "Request body too large"
  | .broken _ => .badRequest "Failed to read request body"
  | .late => .http .requestTimeout "Request body read timed out"

def Refusal.lines (peer : String) : Refusal → Log
  | .tooLarge => []
  | .broken reason => [.warn "Failed to read request body" [("peer", peer), ("error", reason)]]
  | .late => [.warn "Request body read timed out" [("peer", peer)]]

def announcedLength? (headers : Http.Headers) : Option Nat :=
  (headers.text? "content-length").bind fun text =>
    if text.all Char.isDigit then text.toNat? else none

/-- The body that a request is handled with.  The announced length is looked at first, and then a
body that has grown too large is refused however it goes on. -/
def accept (limit : Nat) (headers : Http.Headers) (d : Delivery) : Except Refusal (List UInt8) :=
  if (announcedLength? headers).any (limit < ·) then .error .tooLarge
  else if limit < d.received.length then .error .tooLarge
  else match d.arrival with
    | .complete => .ok d.received
    | .broken reason => .error (.broken reason)
    | .late => .error .late

/-- Answers a request whose body is still to come. -/
def Server.receive {σ : Type} (s : Server σ) (around : Circumstances) (request : Request)
    (d : Delivery) : Server.Answer σ :=
  match accept s.settings.maxBodyBytes request.headers d with
  | .ok body => s.dispatch around { request with body }
  | .error refusal =>
    let peer := (request.peer.map (·.text)).getD ""
    ⟨errorWriter refusal.error none, s, refusal.lines peer, []⟩

end Gatehouse.Service
