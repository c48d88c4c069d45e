import FileLocator.Path

/-! # Questions about paths

Conversion asks its surroundings two kinds of question about a path, and a probe is whatever answers
them. What is asked is part of the outcome of a conversion, so a probe can be a file system, a list or
a rule.
-/

namespace FileLocator

inductive Question where
  /-- Is there anything at this path? -/
  | presence (path : Path)
  /-- Is there a directory at this path? -/
  | directory (path : Path)
  deriving DecidableEq, Repr

structure Probe where
  presence : Path → Bool
  directory : Path → Bool

namespace Probe

def answer (probe : Probe) : Question → Bool
  | .presence path => probe.presence path
  | .directory path => probe.directory path

/-- A rule about presence; nothing is a directory. -/
def ofPresence (presence : Path → Bool) : Probe := { presence, directory := fun _ => false }

/-- Present is every path that, as it is shown, begins with one of `leads`. -/
def beginningWith (leads : List Text) : Probe :=
  ofPresence fun path => leads.any fun lead => (Text.after? lead path.shown).isSome

/-- Present and directories are just the listed paths, byte for byte. -/
def listed (present directories : List Path) : Probe :=
  { presence := fun path => present.any (· == path)
    directory := fun path => directories.any (· == path) }

end Probe

end FileLocator
