import FileLocator.Url.Fault
import FileLocator.Url.Host.Ipv4
import FileLocator.Url.Host.Ipv6
import FileLocator.Url.Host.Name

/-! # Hosts

What stands between user information and port. Schemes with a known structure take names, which are
unescaped, mapped and brought into ASCII, and addresses; other schemes take any text without delimiters
and keep it as it is written.
-/

namespace FileLocator.Url

inductive Host where
  /-- No name at all, as between the second and third slash of `file:///x`. -/
  | empty
  /-- A name in ASCII. -/
  | domain (name : Text)
  | ipv4 (ip : Ipv4)
  | ipv6 (ip : Ipv6)
  /-- Text that is kept, apart from escapes, as it is written. -/
  | verbatim (name : Text)
  deriving DecidableEq, Repr

namespace Host

def text : Host → Text
  | empty => []
  | domain name => name
  | ipv4 ip => ip.text
  | ipv6 ip => '[' :: ip.text ++ [']']
  | verbatim name => name

/-- The characters that would end or divide a host. -/
def isDelimiter (c : Char) : Bool := " #/:<>?@[\\]^|".toList.contains c

/-- The ASCII characters that no name may hold. -/
def isDenied (c : Char) : Bool := c.toNat < 0x20 || c.toNat == 0x7F || c == '%' || isDelimiter c

/-- The characters that no host may hold even where hosts are kept as written. -/
def isForbidden (c : Char) : Bool := c == '\x00' || c == '\t' || c == '\n' || c == '\r' || isDelimiter c

/-- The address between brackets. -/
def bracketed (written : Text) : Except Fault Host :=
  match written.getLast? with
  | some ']' =>
    match Ipv6.parse? written.dropLast with
    | some ip => .ok (.ipv6 ip)
    | none => .error .ipv6Address
  | _ => .error .ipv6Address

/-- Read a name or an IPv4 address, mapped and without escapes. -/
def ofMapped (name : Text) : Except Fault Host :=
  if name.any isDenied then .error .domainName
  else
    let ascii := asciiName name
    if !isSound ascii then .error .domainName
    else if ascii = [] then .error .emptyHost
    else if Ipv4.endsInNumber ascii then
      match Ipv4.parse? ascii with
      | some ip => .ok (.ipv4 ip)
      | none => .error .ipv4Address
    else .ok (.domain ascii)

/-- Read a name or an address. -/
def parseName (written : Text) : Except Fault Host :=
  match written with
  | [] => .error .emptyHost
  | '[' :: rest => bracketed rest
  | written =>
    match Utf8.decode (Percent.unescape written) with
    | .error _ => .error .domainName
    | .ok name => ofMapped (mapped name)

/-- Read a host that is kept as written. -/
def parseVerbatim (written : Text) : Except Fault Host :=
  match written with
  | [] => .ok .empty
  | '[' :: rest => bracketed rest
  | written =>
    if written.any isForbidden then .error .hostCharacter
    else .ok (.verbatim (Percent.escape .controls written))

/-- Read the host of a `file` URL, where `localhost` names no host. -/
def parseFile (written : Text) : Except Fault Host :=
  if written = [] then .ok .empty
  else
    match parseName written with
    | .ok host => .ok (if host = .domain "localhost".toList then .empty else host)
    | .error fault => .error fault

end Host

end FileLocator.Url
