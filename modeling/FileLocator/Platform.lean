import FileLocator.Path
import FileLocator.Text.Blank

/-! # Platform families

Paths have one of two native shapes. On Windows backslashes separate and a drive letter stands before
the first of them; elsewhere a path is taken as it is.
-/

namespace FileLocator

inductive Platform where
  | windows
  | other
  deriving DecidableEq, Repr

namespace Platform

def isWindows (platform : Platform) : Bool := platform == windows

def name : Platform → Text
  | windows => "windows".toList
  | other => "other".toList

/-- The family of an operating system: Windows if its name says so anywhere, in any case. -/
def ofSystemName (name : Text) : Platform :=
  if Text.occurs "WINDOWS".toList (name.map Char.toUpper) then windows else other

/-- The family that a setting asks for. -/
def ofSetting? (value : Text) : Option Platform :=
  let word := (Text.trim Text.isBlank value).map Char.toLower
  if word = "windows".toList then some windows
  else if word ∈ ["other".toList, "unix".toList, "posix".toList] then some other
  else none

/-- A path written with slashes, in the shape that is native on Windows. -/
def backslashed (raw : Text) : Text :=
  match raw.map fun c => if c = '/' then '\\' else c with
  | '\\' :: letter :: ':' :: rest =>
    if letter.isAlpha then letter :: ':' :: rest else '\\' :: letter :: ':' :: rest
  | text => text

/-- A path written with slashes, in native shape. -/
def nativePath (platform : Platform) (raw : Text) : Path :=
  match platform with
  | windows => Path.ofText (backslashed raw)
  | other => Path.ofText raw

end Platform

end FileLocator
