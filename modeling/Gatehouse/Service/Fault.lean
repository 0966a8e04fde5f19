import Gatehouse.Config.Loader
import Gatehouse.Net.Host
import Gatehouse.Telemetry.Session

/-!
# Why a service does not start

A service that cannot start says why: its settings, its telemetry, two handlers in one place, or an
address that it cannot listen on.
-/

namespace Gatehouse.Service

open Net (Host HostFault SocketAddress)

inductive StartFault where
  | badAddress (address : String)
  | cannotListen (address : SocketAddress) (fault : HostFault)
  | repeatedMount (mount : String)
  | settings (error : Config.LoadError)
  | telemetry (error : Telemetry.TelemetryError)
  deriving DecidableEq, Repr

def StartFault.message : StartFault → String
  | .badAddress address => s!"bind error: invalid address '{address}': {Net.syntaxMessage}"
  | .cannotListen address fault =>
    s!"bind error: failed to bind to {address.text}: {fault.message}"
  | .repeatedMount mount => s!"duplicate mount point: {mount}"
  | .settings error => error.message
  | .telemetry error => error.message

def listenAddress (host : Host) (address : String) : Except StartFault SocketAddress :=
  match SocketAddress.parse? address with
  | none => .error (.badAddress address)
  | some a =>
    match host.listenFault? a with
    | none => .ok a
    | some fault => .error (.cannotListen a fault)

end Gatehouse.Service
