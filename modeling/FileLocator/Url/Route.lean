import FileLocator.Percent
import FileLocator.Url.Scheme

/-! # Paths of URLs

A path is a list of segments, each behind a slash, or text that is kept as written. Segments are
resolved as they are read: `.` vanishes, `..` takes the segment before it along, and the characters
that a path may not hold are escaped. A drive letter, a letter followed by `:` or `|`, is never taken
along, and at the start of a `file` path it is written with `:`.
-/

namespace FileLocator.Url

inductive Route where
  /-- Text that is no hierarchy, as in `mailto:`. -/
  | verbatim (text : Text)
  /-- Each segment behind a slash. -/
  | segments (names : List Text)
  deriving DecidableEq, Repr

namespace Route

/-- Each name behind a slash. -/
def slashed (names : List Text) : Text := names.flatMap ('/' :: ·)

def text : Route → Text
  | verbatim text => text
  | segments names => slashed names

/-- What a segment may not hold raw. -/
def escaped : Percent.EscapeSet := Percent.EscapeSet.controls.including " \"<>`#?\x7b\x7d"

/-- Does some text begin with a drive letter? -/
def startsWithDrive : Text → Bool
  | letter :: mark :: _ => letter.isAlpha && (mark == ':' || mark == '|')
  | _ => false

/-- Is a segment just a drive letter? -/
def isDrive (name : Text) : Bool := startsWithDrive name && name.length == 2

/-- Does a segment stay when `..` follows it? A backslash ends a drive letter as a slash does, so what
stands behind it stays as well. -/
def isFixed (name : Text) : Bool :=
  startsWithDrive name && (name.length == 2 || (name.drop 2).head? == some '\\')

/-- The segment that stands for the place itself, also with its dot escaped. -/
def isDot (name : Text) : Bool :=
  let spelled := name.map Char.toLower
  spelled == ".".toList || spelled == "%2e".toList

/-- The segment that stands for the place above, also with a dot escaped. -/
def isDotDot (name : Text) : Bool :=
  let spelled := name.map Char.toLower
  spelled == "..".toList || spelled == "%2e.".toList || spelled == ".%2e".toList || spelled == "%2e%2e".toList

/-- What is left when the last segment is taken along. -/
def shorten (names : List Text) : List Text :=
  match names.getLast? with
  | some last => if isFixed last then names else names.dropLast
  | none => names

/-- A drive letter in its common form. -/
def driveName (name : Text) : Text := name.take 1 ++ [':']

/-- The two parts of a segment in which a drive letter is followed by a break and by more: the break
ends the drive letter as a slash would. -/
def brokenDrive? (written : Text) : Option (Text × Text) :=
  match written.dropWhile Text.isBreak with
  | [] => none
  | letter :: rest =>
    match rest.dropWhile Text.isBreak with
    | ':' :: skipped :: behind =>
      if letter.isAlpha && Text.isBreak skipped && Text.unbroken behind ≠ [] then
        some ([letter, ':'], Text.unbroken behind)
      else none
    | _ => none

/-- What a segment that is no dot segment becomes, at the start of a `file` path. -/
def leading (written : Text) : List Text :=
  match brokenDrive? written with
  | some (drive, behind) => [drive, Percent.escape escaped behind]
  | none =>
    let name := Text.unbroken written
    if isDrive name then [driveName name] else [Percent.escape escaped name]

/-- The resolved segments once one more has been read. -/
def follow (kind : Kind) (done : List Text) (written : Text) : List Text :=
  let name := Text.unbroken written
  if isDotDot name then shorten done
  else if isDot name then done
  else if kind = .file ∧ done = [] then leading written
  else done ++ [Percent.escape escaped name]

/-- Resolve the segments of a written path. A dot segment that comes last leaves an empty segment, so
that the path ends in a slash. -/
def resolve (kind : Kind) (written : List Text) : List Text :=
  let names := written.foldl (follow kind) []
  match written.getLast? with
  | some last => if isDot (Text.unbroken last) || isDotDot (Text.unbroken last) then names ++ [[]] else names
  | none => names

/-- Does a drive letter come up as the first segment, behind those that are `done`? -/
def meetsDrive (done : List Text) : List Text → Bool
  | [] => false
  | written :: rest =>
    (done = [] && brokenDrive? written = none && isDrive (Text.unbroken written)) ||
      meetsDrive (follow .file done written) rest

/-- The segments of a written path, without the slash that it may begin with. -/
def pieces (kind : Kind) (written : Text) : List Text :=
  let parts := Text.pieces kind.isSlash written
  match parts with
  | first :: second :: others => if Text.unbroken first = [] then second :: others else parts
  | _ => parts

/-- Drop the empty segments at the start of a path, of which one is left if there is nothing else. -/
def collapse (names : List Text) : List Text :=
  match names.dropWhile (· = []) with
  | [] => [[]]
  | kept => kept

end Route

end FileLocator.Url
