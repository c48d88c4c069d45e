import FileLocator.Text.Basic

/-! # Why some text is no URL -/

namespace FileLocator.Url

inductive Fault where
  /-- The text does not begin with a scheme. -/
  | relative
  /-- The scheme or the rest of the authority needs a host. -/
  | emptyHost
  /-- A name host is not text, or holds a character that no name may hold. -/
  | domainName
  /-- A host that is kept as written holds a character that no host may hold. -/
  | hostCharacter
  | ipv4Address
  | ipv6Address
  /-- The port is no number, or above 65535. -/
  | port
  deriving DecidableEq, Repr

def Fault.message : Fault → Text
  | .relative => "relative URL without a base".toList
  | .emptyHost => "empty host".toList
  | .domainName => "invalid international domain name".toList
  | .hostCharacter => "invalid domain character".toList
  | .ipv4Address => "invalid IPv4 address".toList
  | .ipv6Address => "invalid IPv6 address".toList
  | .port => "invalid port number".toList

end FileLocator.Url
