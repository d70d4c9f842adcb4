/-!
# Addresses

A relay listens on a host and a port. Addresses are written `tcp://host:port`; a host that holds a
colon is put in brackets unless it already starts with one. A host that stands for all interfaces
is reached through the loopback host.
-/

namespace LogRelay.Address

/-- The host of the local interface. -/
def loopbackHost : String := "127.0.0.1"

/-- The host that stands for all interfaces. -/
def wildcardHost : String := "0.0.0.0"

/-- The host to listen on when none is configured. -/
def defaultHost : String := wildcardHost

/-- The host through which a local writer reaches a relay that listens on `host`. -/
def connectHost (host : String) : String :=
  if host = wildcardHost || host = "" then loopbackHost
  else if host = "::" || host = "[::]" then "::1"
  else host

/-- Whether a host holds the character that ends names, so that it cannot be looked up. -/
def holdsNul (host : String) : Bool :=
  host.toList.contains '\x00'

/-- Whether a host has to be put in brackets. -/
def needsBrackets (host : List Char) : Bool :=
  host.contains ':' && host.head? != some '['

/-- A host as it stands in an address. -/
def hostChars (host : List Char) : List Char :=
  if needsBrackets host then '[' :: host ++ [']'] else host

/-- The scheme in front of an address. -/
def scheme : List Char :=
  ['t', 'c', 'p', ':', '/', '/']

/-- The address of a host and port, with the scheme. -/
def tcpChars (host : List Char) (port : UInt16) : List Char :=
  scheme ++ hostChars host ++ ':' :: Nat.toDigits 10 port.toNat

/-- What is left when the scheme is taken off the front as often as it stands there. -/
def dropScheme : List Char → List Char
  | 't' :: 'c' :: 'p' :: ':' :: '/' :: '/' :: rest => dropScheme rest
  | cs => cs

/-- The address `tcp://host:port`. -/
def tcp (host : String) (port : UInt16) : String :=
  String.ofList (tcpChars host.toList port)

/-- The address without its scheme. -/
def socket (host : String) (port : UInt16) : String :=
  String.ofList (dropScheme (tcpChars host.toList port))

end LogRelay.Address
