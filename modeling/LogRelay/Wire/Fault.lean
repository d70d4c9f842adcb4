/-!
# Faults of connections

What the network refuses, and what the relay reports about it.
-/

namespace LogRelay

/-- Why the system or a connection refused something. -/
inductive SystemFault where
  /-- Another listener holds the address. -/
  | addressInUse
  /-- A host holds a character that no name can hold. -/
  | unusableName
  /-- The port is kept for programs with special rights. -/
  | permissionDenied
  /-- There is no interface of that number. -/
  | noDevice
  /-- No interface has the address. -/
  | addressNotAvailable
  /-- The address does not stand for one host on a known link. -/
  | invalidArgument
  /-- There is no way to the address. -/
  | networkUnreachable
  /-- Nothing listens at the address. -/
  | connectionRefused
  /-- A connection may not be given no time at all. -/
  | zeroTimeout
  /-- A message is longer than a frame may be. -/
  | oversizedFrame
  /-- A connection ended inside a frame. -/
  | unfinishedFrame
  /-- A reason given in words. -/
  | other (reason : String)
deriving DecidableEq, Repr

/-- The text of a fault. -/
def SystemFault.message : SystemFault → String
  | .addressInUse => "Address already in use (os error 98)"
  | .unusableName => "file name contained an unexpected NUL byte"
  | .permissionDenied => "Permission denied (os error 13)"
  | .noDevice => "No such device (os error 19)"
  | .addressNotAvailable => "Cannot assign requested address (os error 99)"
  | .invalidArgument => "Invalid argument (os error 22)"
  | .networkUnreachable => "Network is unreachable (os error 101)"
  | .connectionRefused => "Connection refused (os error 111)"
  | .zeroTimeout => "cannot set a 0 duration timeout"
  | .oversizedFrame => "frame size too big"
  | .unfinishedFrame => "bytes remaining on stream"
  | .other reason => reason

/-- What is reported about a connection. -/
inductive TransportError where
  /-- The relay cannot listen at an address. -/
  | bind (address : String) (fault : SystemFault)
  /-- A writer cannot reach an address. -/
  | connect (address : String) (fault : SystemFault)
  /-- A message cannot be sent. -/
  | send (fault : SystemFault)
deriving DecidableEq, Repr

namespace TransportError

/-- The fault behind an error. -/
def fault : TransportError → SystemFault
  | .bind _ fault => fault
  | .connect _ fault => fault
  | .send fault => fault

/-- The text of the report. -/
def message : TransportError → String
  | .bind address fault => "Unable to bind to " ++ address ++ ": " ++ fault.message
  | .connect address fault => "Unable to connect to " ++ address ++ ": " ++ fault.message
  | .send fault => "Failed to send message: " ++ fault.message

end TransportError

end LogRelay
