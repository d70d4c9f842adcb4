import LogRelay.Address.Numeric
import LogRelay.Duration
import LogRelay.Wire.Frame

/-!
# The network between writers and the relay

A relay cannot listen on a host that cannot be a name or that stands for a group of receivers, nor
on a port that is kept for programs with special rights. Apart from that, on the loopback network it
listens on any host, and writers reach it. Where no interface is up, it listens on hosts of four
octets and on hosts that stand for all interfaces, and every attempt of a writer to connect fails
before anything else is looked at.
-/

namespace LogRelay

/-- The way from writers to the relay. -/
inductive Network where
  /-- Writers reach whatever listens. -/
  | loopback
  /-- No interface is up, so there is no route to any address. -/
  | unreachable
deriving DecidableEq, Repr

namespace Network

/-- The number of the loopback interface. -/
def loopbackInterface : Nat := 1

/-- The least port that is open to programs without special rights; zero lets the network pick. -/
def firstOpenPort : UInt16 := 1024

/-- Whether a listener on the loopback host and some port keeps others from that port of a host. -/
def sharesLoopback (numeric : Option Address.Numeric) : Bool :=
  match numeric with
  | some n => n.isLoopback || n.isUnspecified
  | none => true

/-- Why a relay cannot listen on a host while no interface is up. -/
def downListenFault? (n : Address.Numeric) : Option SystemFault :=
  if n.isLinkLocal then
    if n.scope = 0 then some .invalidArgument
    else if n.scope = loopbackInterface then some .addressNotAvailable
    else some .noDevice
  else if n.octets?.isSome || n.isUnspecified then none
  else some .addressNotAvailable

/-- Why a writer cannot connect to a host while no interface is up. -/
def downConnectFault (n : Address.Numeric) : SystemFault :=
  if n.isLinkLocal && n.scope = 0 then .invalidArgument
  else if n.octets?.isSome || n.isMulticast then .networkUnreachable
  else .addressNotAvailable

/-- Why a relay cannot listen on a host and port; `taken` says whether another listener holds the
port of the loopback host. -/
def listenFault? (network : Network) (taken : Bool) (host : String) (port : UInt16) :
    Option SystemFault :=
  let numeric := Address.Numeric.ofHost? host
  if Address.holdsNul host then some .unusableName
  else if numeric.any Address.Numeric.isMulticast then some .invalidArgument
  else if 0 < port && port < firstOpenPort then some .permissionDenied
  else
    let down := match network with
      | .unreachable => numeric.bind downListenFault?
      | .loopback => none
    down.or (if taken && sharesLoopback numeric then some .addressInUse else none)

/-- Why an attempt to connect to a host fails, given whether something listens there. -/
def connectFault? (network : Network) (listening : Bool) (host : String) (timeout : Duration) :
    Option SystemFault :=
  if Address.holdsNul host then some .unusableName
  else
    match network with
    | .unreachable =>
      some (((Address.Numeric.ofHost? host).map downConnectFault).getD .networkUnreachable)
    | .loopback =>
      if timeout = .zero then some .zeroTimeout
      else if listening then none
      else some .connectionRefused

/-- The attempt of a writer to connect to a host and port. -/
def connect (network : Network) (listening : Bool) (host : String) (port : UInt16)
    (timeout : Duration) : Except TransportError Unit :=
  match network.connectFault? listening host timeout with
  | some fault => .error (.connect (Address.tcp host port) fault)
  | none => .ok ()

end Network

/-- What arrived from connections that were made one after another. -/
structure Intake where
  /-- The messages in order. -/
  messages : List (List UInt8)
  /-- What was wrong with connections, in order. -/
  faults : List SystemFault
deriving DecidableEq, Repr

/-- Nothing arrived, not even the mark that ends an intake. -/
inductive IntakeFault where
  | idle
deriving DecidableEq, Repr

/-- Receives the chunks of connections that are made one after another, up to a closing mark. -/
def Network.collect (network : Network) (connections : List (List ByteArray)) :
    Except IntakeFault Intake :=
  match network with
  | .unreachable => .error .idle
  | .loopback =>
    let received := connections.map fun chunks =>
      Wire.receive (chunks.map fun chunk => chunk.data.toList)
    .ok ⟨received.flatMap (·.1), received.filterMap (·.2)⟩

end LogRelay
