import FileLocator.Probe

/-! # File trees

A snapshot of directories and files, as far as questions about presence need it. A path is followed
name by name from the root or from the working directory; every place on the way, also before `..`, a
dot or a trailing slash, has to be a directory. Paths with a NUL byte, names above 255 bytes and paths
above 4095 bytes lead nowhere.
-/

namespace FileLocator

open Utf8 (Bytes)

/-- A place in a tree, by the names from the root. -/
abbrev Place := List Bytes

structure FileTree where
  directories : List Place
  files : List Place

namespace FileTree

inductive Entry where
  | directory
  | file
  deriving DecidableEq, Repr

def empty : FileTree := { directories := [], files := [] }

/-- What is at a place. The root is always there. -/
def entry? (tree : FileTree) (place : Place) : Option Entry :=
  if place = [] ∨ place ∈ tree.directories then some .directory
  else if place ∈ tree.files then some .file
  else none

/-- The place that a name leads to. -/
def enter (place : Place) (name : Bytes) : Place :=
  if name = [Path.dot, Path.dot] then place.dropLast else place ++ [name]

/-- The place that a path starts from, seen from `here`. -/
def origin (here : Place) (path : Path) : Place := if path.isAbsolute then [] else here

/-- What is at the end of a way that leads on from a place. -/
def follow (tree : FileTree) (place : Place) : List Bytes → Option Entry
  | [] => tree.entry? place
  | name :: rest =>
    if tree.entry? place ≠ some .directory ∨ 255 < name.length then none
    else if name = [] ∨ name = [Path.dot] then tree.follow place rest
    else tree.follow (enter place name) rest

/-- What is at a path, seen from the working directory `here`, if there is one. -/
def find? (tree : FileTree) (here : Option Place) (path : Path) : Option Entry :=
  if path.bytes = [] ∨ 4095 < path.bytes.length ∨ path.bytes.contains 0 then none
  else if path.isAbsolute then tree.follow [] path.pieces
  else here.bind fun place => tree.follow place path.pieces

/-- The probe that looks paths up. -/
def probe (tree : FileTree) (here : Option Place) : Probe :=
  { presence := fun path => (tree.find? here path).isSome
    directory := fun path => tree.find? here path == some .directory }

/-- The places that some names lead through, from the first place to the last. -/
def way (place : Place) : List Bytes → List Place
  | [] => [place]
  | name :: rest => place :: way (enter place name) rest

/-- Add the directory at a path, seen from `here`, and every directory that the path leads through. -/
def addDirectory (tree : FileTree) (here : Place) (path : Path) : FileTree :=
  { tree with directories := tree.directories ++ way (origin here path) path.components }

/-- Add the file at a path, seen from `here`. -/
def addFile (tree : FileTree) (here : Place) (path : Path) : FileTree :=
  { tree with files := tree.files ++ [path.components.foldl enter (origin here path)] }

end FileTree

end FileLocator
