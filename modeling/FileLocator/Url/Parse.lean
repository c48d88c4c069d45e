import FileLocator.Url.Authority

/-! # Reading URLs

A written URL is read without a base, so it begins with a scheme. Blanks around it and breaks inside it
are skipped. The text behind the scheme is cut at its first `#`, and what is in front of that at its
first `?`. How the body that remains is cut into authority and path depends on the scheme.
-/

namespace FileLocator.Url

/-! ## Query and fragment -/

/-- What a query may not hold raw. -/
def queryEscaped (kind : Kind) : Percent.EscapeSet :=
  let common := Percent.EscapeSet.controls.including " \"<>#"
  if kind.isKnown then common.including (String.singleton '\'') else common

/-- What a fragment may not hold raw. -/
def fragmentEscaped : Percent.EscapeSet := Percent.EscapeSet.controls.including " \"<>`"

/-! ## Bodies -/

/-- The authority and the path of a URL. -/
abbrev Body := Option Authority × Route

/-- What two slashes at the start of a `file` body announce: the text of a host and that of a path. A
drive letter is no host. -/
def cutFileHost? (written : Text) : Option (Text × Text) :=
  let slash := Kind.file.isSlash
  match written.dropWhile Text.isBreak with
  | [] => none
  | first :: rest =>
    match rest.dropWhile Text.isBreak with
    | [] => none
    | second :: behind =>
      if slash first && slash second then
        let name := Text.unbroken (behind.takeWhile (!slash ·))
        if Route.isDrive name then some ([], behind) else some (name, behind.dropWhile (!slash ·))
      else none

/-- The authority and path of a `file` URL with its host and the written segments of its path. A drive
letter that comes up as the first segment takes the place of the host. -/
def fileBody (host : Host) (written : List Text) : Body :=
  (some (Authority.ofHost (if Route.meetsDrive [] written then .empty else host)),
    .segments (Route.collapse (Route.resolve .file written)))

/-- A `file` body. The slash behind an empty host begins an empty segment, so no drive letter can be
the first one there. -/
def parseFileBody (written : Text) : Except Fault Body :=
  match cutFileHost? written with
  | none => .ok (fileBody .empty (Route.pieces .file written))
  | some (name, path) =>
    match Host.parseFile name with
    | .error fault => .error fault
    | .ok .empty => .ok (fileBody .empty (Text.pieces Kind.file.isSlash path))
    | .ok host => .ok (fileBody host (Route.pieces .file path))

/-- A body that begins with an authority. -/
def parseAuthorityBody (kind : Kind) (more : Bool) (written : Text) : Except Fault Body :=
  let authorityText := written.takeWhile (!kind.isSlash ·)
  let pathText := written.dropWhile (!kind.isSlash ·)
  match Authority.parse kind (pathText = [] && !more) authorityText with
  | .error fault => .error fault
  | .ok (authority, left) =>
    let pathText := left ++ pathText
    let names :=
      if pathText = [] ∧ !kind.isKnown then [] else Route.resolve kind (Route.pieces kind pathText)
    .ok (some authority, .segments names)

/-- The body of a URL; `more` says that a query or a fragment follows. -/
def parseBody (kind : Kind) (more : Bool) (written : Text) : Except Fault Body :=
  match kind with
  | .file => parseFileBody written
  | .network _ => parseAuthorityBody kind more ((Text.unbroken written).dropWhile kind.isSlash)
  | .generic =>
    let body := Text.unbroken written
    match Text.after? "//".toList body with
    | some behind => parseAuthorityBody kind more behind
    | none =>
      if body.head? = some '/' then .ok (none, .segments (Route.resolve kind (Route.pieces kind body)))
      else .ok (none, .verbatim (Percent.escape .controls body))

/-- Read a URL. -/
def parse (written : Text) : Except Fault Url :=
  match Scheme.split? (Text.trim Text.isEdgeBlank written) with
  | none => .error .relative
  | some (scheme, rest) =>
    let kind := Kind.ofScheme scheme
    let (front, fragment) := Text.cut '#' rest
    let (body, query) := Text.cut '?' front
    match parseBody kind (query.isSome || fragment.isSome) body with
    | .error fault => .error fault
    | .ok (authority, route) =>
      .ok
        { scheme, authority, route
          query := query.map fun text => Percent.escape (queryEscaped kind) (Text.unbroken text)
          fragment := fragment.map fun text => Percent.escape fragmentEscaped (Text.unbroken text) }

end FileLocator.Url
