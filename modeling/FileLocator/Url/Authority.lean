import FileLocator.Url.Basic

/-! # Reading authorities

The last `@` ends the user information, whose first colon begins a password. A colon outside brackets
ends the host, and the digits behind it are the port.
-/

namespace FileLocator.Url.Authority

/-- What user information may not hold raw. -/
def escaped : Percent.EscapeSet := Route.escaped.including "/:;=@[\\]^|"

/-- User name and password. -/
def parseCredentials (written : Text) : Text × Text :=
  let (username, password) := Text.cut ':' written
  (Percent.escape escaped username, Percent.escape escaped (password.getD []))

/-- The host of an authority and what follows it, from the colon on. -/
def cutHost (inBrackets : Bool) : Text → Text × Text
  | [] => ([], [])
  | c :: rest =>
    if c == ':' && !inBrackets then ([], c :: rest)
    else
      let (host, behind) := cutHost (c == '[' || (inBrackets && c != ']')) rest
      (c :: host, behind)

def parseHost (kind : Kind) (written : Text) : Except Fault Host :=
  if kind.isKnown then Host.parseName written else Host.parseVerbatim written

/-- A port, and the text that is left for the path: a backslash ends the port whatever the scheme. The
usual port of a scheme counts as none. -/
def parsePort (kind : Kind) (written : Text) : Except Fault (Option Nat × Text) :=
  let digits := written.takeWhile Char.isDigit
  let left := written.dropWhile Char.isDigit
  let port := Nat.ofDigitChars 10 digits 0
  if left ≠ [] ∧ left.head? ≠ some '\\' ∨ 65535 < port then .error .port
  else if digits = [] ∨ kind.defaultPort? = some port then .ok (none, left)
  else .ok (some port, left)

/-- Read an authority, with the text that is left for the path. User information and ports need a host,
and so does an `@` alone, unless it is the end of the URL. -/
def parse (kind : Kind) (atEnd : Bool) (written : Text) : Except Fault (Authority × Text) :=
  let (userinfo, place) := (Text.cutLast? '@' written).getD ([], written)
  let (username, password) := parseCredentials userinfo
  let (hostText, portText) := cutHost false place
  if written = ['@'] ∧ !atEnd then .error .emptyHost
  else
    match parseHost kind hostText with
    | .error fault => .error fault
    | .ok host =>
      match portText with
      | [] =>
        if host = .empty ∧ ¬(username = [] ∧ password = []) then .error .emptyHost
        else .ok ({ username, password, host, port := none }, [])
      | _ :: digits =>
        if host = .empty then .error .emptyHost
        else
          match parsePort kind digits with
          | .error fault => .error fault
          | .ok (port, left) => .ok ({ username, password, host, port }, left)

end FileLocator.Url.Authority
