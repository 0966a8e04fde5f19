import Gatehouse.Net.Address

/-!
# Hosts

What a service can listen on, and whether anybody can reach it there, is decided by its host.  The
isolated host has no interface that is up: nothing checks who owns an IPv4 address, no IPv6 address
belongs to the host, and no connection reaches it.
-/

namespace Gatehouse.Net

/-- Why a host refuses the use of an address. -/
inductive HostFault where
  | notOwned
  | invalid
  | noInterface
  | unreachable
  deriving DecidableEq, Repr

def HostFault.message : HostFault → String
  | .notOwned => "Cannot assign requested address (os error 99)"
  | .invalid => "Invalid argument (os error 22)"
  | .noInterface => "No such device (os error 19)"
  | .unreachable => "Network is unreachable (os error 101)"

/-- A host, by the faults of its addresses. -/
structure Host where
  listenFault? : SocketAddress → Option HostFault
  connectFault? : SocketAddress → Option HostFault

def isMapped (groups : List Nat) : Bool := groups.take 6 == [0, 0, 0, 0, 0, 0xffff]

/-- Addresses of groups of hosts. -/
def isMulticast (groups : List Nat) : Bool := groups.headD 0 / 0x100 == 0xff

/-- Addresses that mean something on one link only. -/
def isLinkLocal (groups : List Nat) : Bool := groups.headD 0 / 0x40 == 0xfe80 / 0x40

/-- The number of the only interface of an isolated host. -/
def loopbackInterface : Nat := 1

def Host.isolated : Host where
  listenFault? a :=
    match a.ip with
    | .v4 _ => none
    | .v6 groups =>
      if groups.all (· == 0) || isMapped groups then none
      else if isMulticast groups then some .invalid
      else if isLinkLocal groups then
        if a.scope = 0 then some .invalid
        else if a.scope = loopbackInterface then some .notOwned
        else some .noInterface
      else some .notOwned
  connectFault? _ := some .unreachable

end Gatehouse.Net
