/-!
# Faults in URLs

What can be wrong with a text that is read as a URL.
-/

namespace MovieCatalog.Url

/-- A fault. -/
inductive Fault where
  | emptyHost
  | invalidPort
  | invalidDomain
  | invalidIpv4
  | invalidIpv6
  | forbiddenInHost
  | relativeWithoutBase
  | relativeToOpaque
deriving DecidableEq, Repr

/-- The message of a fault. -/
def Fault.message : Fault → String
  | emptyHost => "empty host"
  | invalidPort => "invalid port number"
  | invalidDomain => "invalid international domain name"
  | invalidIpv4 => "invalid IPv4 address"
  | invalidIpv6 => "invalid IPv6 address"
  | forbiddenInHost => "invalid domain character"
  | relativeWithoutBase => "relative URL without a base"
  | relativeToOpaque => "relative URL with a cannot-be-a-base base"

end MovieCatalog.Url
