import FileLocator.Utf8

/-! # Paths

A path is a string of bytes, and only the slash and the dot mean something in it. Two paths are the
same place when both or neither begin at the root and they pass through the same names: repeated and
trailing slashes and single dots do not matter, except for a dot that begins a relative path, and `..`
is a name like any other. Following a relative path appends its names (`components_join`).
-/

namespace FileLocator

structure Path where
  bytes : Utf8.Bytes
  deriving DecidableEq, Repr

namespace Path

open Utf8 (Bytes)

def slash : UInt8 := 47
def dot : UInt8 := 46

def ofText (text : Text) : Path := ⟨Utf8.encode text⟩

/-- The text of a path, if its bytes are text. -/
def text? (path : Path) : Option Text :=
  match Utf8.decode path.bytes with
  | .ok text => some text
  | .error _ => none

/-- The text of a path, with a replacement character for each stretch of bytes that is none. -/
def shown (path : Path) : Text :=
  (Utf8.scan path.bytes).map fun
    | .char c => c
    | _ => '\uFFFD'

def isAbsolute (path : Path) : Bool := path.bytes.head? == some slash

/-- What stands between the slashes. -/
def pieces (path : Path) : List Bytes := Text.pieces (· == slash) path.bytes

/-- The names that a path passes through. -/
def components (path : Path) : List Bytes := path.pieces.filter fun name => name != [] && name != [dot]

/-- Does a relative path begin with a dot of its own? -/
def startsHere (path : Path) : Bool := path.pieces.head? == some [dot]

/-- Do two paths lead to the same place by the same names? -/
def same (first second : Path) : Bool :=
  first.isAbsolute == second.isAbsolute && first.startsHere == second.startsHere &&
    first.components == second.components

/-- Follow `path` from `base`: an absolute path replaces it. -/
def join (base path : Path) : Path :=
  if path.isAbsolute then path
  else if base.bytes = [] ∨ base.bytes.getLast? = some slash then ⟨base.bytes ++ path.bytes⟩
  else ⟨base.bytes ++ slash :: path.bytes⟩

/-- Some names from the root. -/
def ofComponents (names : List Bytes) : Path :=
  if names = [] then ⟨[slash]⟩ else ⟨names.flatMap (slash :: ·)⟩

theorem same_iff {first second : Path} :
    first.same second = true ↔
      first.isAbsolute = second.isAbsolute ∧ first.startsHere = second.startsHere ∧
        first.components = second.components := by
  simp [same, and_assoc]

/-- A slash ends a name and begins the next. -/
theorem components_append_slash (before behind : Bytes) :
    components ⟨before ++ slash :: behind⟩ = components ⟨before⟩ ++ components ⟨behind⟩ := by
  simp [components, pieces]

/-- The names of a relative path follow those of the path it starts from. -/
theorem components_join {base path : Path} (relative : path.isAbsolute = false) :
    (base.join path).components = base.components ++ path.components := by
  rw [join, if_neg (by simp [relative])]
  split
  · next closed =>
    rcases closed with none | last
    · simp [components, pieces, none, Text.pieces]
    · obtain ⟨front, split⟩ := List.getLast?_eq_some_iff.mp last
      have joined : base.bytes ++ path.bytes = front ++ slash :: path.bytes := by simp [split]
      have alone : base.components = components ⟨front⟩ := by
        rw [show base = ⟨front ++ slash :: []⟩ from congrArg Path.mk split, components_append_slash]
        simp [components, pieces, Text.pieces]
      rw [joined, components_append_slash, alone]
  · exact components_append_slash base.bytes path.bytes

end Path

end FileLocator
