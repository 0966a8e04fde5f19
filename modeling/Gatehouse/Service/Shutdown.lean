import Gatehouse.Log

/-!
# Shutdown

A stopping service takes no new connections and waits for the open ones.  The signal to stop is
given once and stays given; the tracker counts the tokens that open connections hold.
-/

namespace Gatehouse.Service

/-- The signal to stop. -/
structure ShutdownSignal where
  triggered : Bool := false
  deriving DecidableEq, Repr

/-- Gives the signal; once given it stays. -/
def ShutdownSignal.trigger (_ : ShutdownSignal) : ShutdownSignal := ⟨true⟩

/-- The connections, by the number of the token that each of them holds. -/
structure ConnectionTracker where
  /-- The number of the next token. -/
  next : Nat := 0
  /-- The tokens that are held. -/
  held : List Nat := []
  deriving DecidableEq, Repr

namespace ConnectionTracker

def acquire (t : ConnectionTracker) : Nat × ConnectionTracker :=
  (t.next, ⟨t.next + 1, t.next :: t.held⟩)

/-- Takes a token back.  One that is not held changes nothing. -/
def release (t : ConnectionTracker) (token : Nat) : ConnectionTracker :=
  { t with held := t.held.erase token }

def active (t : ConnectionTracker) : Nat := t.held.length

/-- Whether no connection is left to wait for. -/
def isDrained (t : ConnectionTracker) : Bool := t.held.isEmpty

end ConnectionTracker

/-- What a stopping server reports: the connections that were open at the signal, and those that
are left after it has waited. -/
def closingLog (seconds opened left : Nat) : Log :=
  let remaining (n : Nat) := ("connections", toString n)
  [.info "Shutdown signal received, stopping server" [],
    .info "Waiting for connections to close" [("timeout", s!"{seconds}s"), remaining opened]] ++
  (if left = 0 then []
    else [.warn "Shutdown timeout reached with connections still open" [remaining left]]) ++
  [.info "Server stopped" []]

end Gatehouse.Service
