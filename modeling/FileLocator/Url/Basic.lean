import FileLocator.Url.Host.Basic
import FileLocator.Url.Route

/-! # URLs

The parts of a URL and its normal form. An authority is what `//` announces: user information, a host,
which may be empty, and a port. The parts hold their text escaped, so the normal form only joins them.
A path that begins with two slashes would read as an authority, and is marked by `/.` if there is none.
-/

namespace FileLocator

namespace Url

structure Authority where
  username : Text
  password : Text
  host : Host
  port : Option Nat
  deriving DecidableEq, Repr

/-- Some text behind a mark, or nothing. -/
def marked (mark : Char) : Option Text → Text
  | some text => mark :: text
  | none => []

namespace Authority

def portText (authority : Authority) : Text := marked ':' (authority.port.map (Nat.toDigits 10))

/-- User information with its `@`, if there is any. -/
def credentials (authority : Authority) : Text :=
  if authority.username = [] ∧ authority.password = [] then []
  else authority.username ++ (if authority.password = [] then [] else ':' :: authority.password) ++ ['@']

def text (authority : Authority) : Text := authority.credentials ++ authority.host.text ++ authority.portText

/-- A bare host. -/
def ofHost (host : Host) : Authority := { username := [], password := [], host, port := none }

end Authority

end Url

structure Url where
  scheme : Text
  authority : Option Url.Authority
  route : Url.Route
  query : Option Text
  fragment : Option Text
  deriving DecidableEq, Repr

namespace Url

/-- The path, escaped. -/
def path (url : Url) : Text := url.route.text

def username (url : Url) : Text :=
  match url.authority with
  | some authority => authority.username
  | none => []

/-- The password; an empty one counts as none. -/
def password? (url : Url) : Option Text :=
  match url.authority with
  | some authority => if authority.password = [] then none else some authority.password
  | none => none

/-- The host; an empty one counts as none. -/
def host? (url : Url) : Option Text :=
  match url.authority with
  | some authority => if authority.host = .empty then none else some authority.host.text
  | none => none

/-- The port, if it is written and not the usual one of the scheme. -/
def port? (url : Url) : Option Nat := url.authority.bind (·.port)

/-- What stands between the colon and the path. -/
def lead (url : Url) : Text :=
  match url.authority with
  | some authority => "//".toList ++ authority.text
  | none => if (Text.after? "//".toList url.path).isSome then "/.".toList else []

/-- The normal form of a URL. -/
def href (url : Url) : Text :=
  url.scheme ++ ':' :: url.lead ++ url.path ++ marked '?' url.query ++ marked '#' url.fragment

end Url

end FileLocator
