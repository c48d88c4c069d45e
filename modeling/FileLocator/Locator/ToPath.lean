import FileLocator.Locator.Basic
import FileLocator.Traced

/-! # From locators to paths

The text of a `file` locator, without its query, is unescaped as a whole, and what stands behind
`file:` is the path; `+` is itself and never a space. On Windows the text behind `file://` may name a
share, and a probe decides whether it does. A text without a slash behind the colon leaves the path to
the URL.
-/

namespace FileLocator

inductive PathOutcome where
  | converted (path : Path)
  /-- The locator has another scheme. -/
  | notApplicable (scheme : Text)
  deriving DecidableEq, Repr

namespace PathOutcome

def path? : PathOutcome → Option Path
  | converted path => some path
  | notApplicable _ => none

/-- Outcomes agree when they lead to the same place or name the same scheme. -/
def same : PathOutcome → PathOutcome → Bool
  | converted first, converted second => first.same second
  | notApplicable first, notApplicable second => first == second
  | _, _ => false

end PathOutcome

namespace Locator

/-- The text of a locator up to its query. -/
def beforeQuery (locator : Locator) : Text :=
  if locator.query?.isSome then locator.text.takeWhile (· != '?') else locator.text

/-- Escape every plus sign. -/
def escapePlus (text : Text) : Text := text.flatMap fun c => if c = '+' then "%2B".toList else [c]

/-- The text of a locator up to its query, unescaped. -/
def decoded (locator : Locator) : Except Percent.Fault Text := Percent.decode (escapePlus locator.beforeQuery)

/-- Read the escape of the space. -/
def unescapeSpaces : Text → Text
  | [] => []
  | '%' :: '2' :: '0' :: rest => ' ' :: unescapeSpaces rest
  | c :: rest => c :: unescapeSpaces rest

/-- Authority and path of the URL, for locators without a slash behind the colon. -/
def authorityPath (locator : Locator) : Text :=
  let path := unescapeSpaces locator.path
  if locator.authority = [] then path else "//".toList ++ locator.authority ++ path

/-- What stands behind `file://`, on Windows: a share if there is one, else a path on the current
drive. Nothing is asked if no host stands there. -/
def shareOrDrive (probe : Probe) (rest : Text) : Traced Text :=
  if rest = [] ∨ rest.head? = some '/' then pure rest
  else do
    let candidate := "//".toList ++ rest
    if ← Traced.ask probe (.presence (Platform.windows.nativePath candidate)) then
      pure candidate
    else
      Traced.report (.missingShare candidate)
      pure rest

/-- The path that decoded text names, written with slashes. -/
def rawPath (locator : Locator) (platform : Platform) (probe : Probe) (text : Text) : Traced Text :=
  match Text.after? "file://".toList text with
  | some rest => if platform.isWindows then shareOrDrive probe rest else pure rest
  | none =>
    match Text.after? "file:/".toList text with
    | some rest => pure ('/' :: rest)
    | none => pure locator.authorityPath

/-- The path that a locator names. -/
def toPath (locator : Locator) (platform : Platform) (probe : Probe) :
    Traced (Except LocatorError PathOutcome) :=
  if locator.isFile then
    match locator.decoded with
    | .error fault => pure (.error (.undecodable locator.text fault))
    | .ok text => do
      let raw ← locator.rawPath platform probe text
      let path := platform.nativePath raw
      Traced.report (.decoded locator.text path)
      pure (.ok (.converted path))
  else pure (.ok (.notApplicable locator.scheme))

end Locator

end FileLocator
