import FileLocator.Locator.Basic
import FileLocator.Traced

/-! # From paths to locators

A path is made absolute, its names are escaped one by one, and a directory gets a trailing slash. The
result is read as a locator. Plus signs and spaces are escaped as well, since other readers of locators
disagree about them.
-/

namespace FileLocator

/-- Why a path has no locator. -/
inductive PathFault where
  /-- The path is relative, and there is no working directory. -/
  | noWorkingDirectory
  /-- The path is relative even to the working directory. -/
  | notAbsolute
  | invalid (error : LocatorError)
  deriving DecidableEq, Repr

def PathFault.message : PathFault → Text
  | noWorkingDirectory =>
    "can not resolve the current directory: No such file or directory (os error 2)".toList
  | notAbsolute => "path can not be expressed as a file locator".toList
  | invalid error => error.message

inductive LocatorOutcome where
  | converted (locator : Locator)
  | failed (path : Path) (fault : PathFault)
  deriving Repr

namespace LocatorOutcome

def locator? : LocatorOutcome → Option Locator
  | converted locator => some locator
  | failed .. => none

end LocatorOutcome

namespace Path

/-- What the name of a file may not hold raw in a URL. -/
def escaped : Percent.EscapeSet := Percent.EscapeSet.controls.including " \"#<>?`\x7b\x7d/%\\"

/-- A path made absolute. -/
def absolute? (path : Path) (workingDirectory : Option Path) : Option Path :=
  if path.isAbsolute then some path else workingDirectory.map (·.join path)

/-- The URL of an absolute path, with each name behind a slash. -/
def urlText (path : Path) (isDirectory : Bool) : Text :=
  let names := path.components.flatMap fun name => '/' :: Percent.escapeBytes escaped name
  "file://".toList ++ names ++ if isDirectory ∨ names = [] then ['/'] else []

/-- Escape what `urlText` leaves and other readers take for something else. -/
def escapeLeftovers (text : Text) : Text :=
  text.flatMap fun c => if c = '+' then "%2B".toList else if c = ' ' then "%20".toList else [c]

/-- The locator of a path. -/
def toLocator (path : Path) (probe : Probe) (workingDirectory : Option Path) : Traced LocatorOutcome :=
  match path.absolute? workingDirectory with
  | none => pure (.failed path .noWorkingDirectory)
  | some absolute => do
    let isDirectory ← Traced.ask probe (.directory absolute)
    if absolute.isAbsolute then
      match Locator.parse (escapeLeftovers (absolute.urlText isDirectory)) with
      | .ok locator => do
        Traced.report (.encoded path locator.text)
        pure (.converted locator)
      | .error error => pure (.failed path (.invalid error))
    else pure (.failed path .notAbsolute)

end Path

end FileLocator
