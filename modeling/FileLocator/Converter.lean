import FileLocator.Machine
import FileLocator.Locator.OfPath
import FileLocator.Locator.ToPath

/-! # Converters

A converter fixes the platform whose paths it reads and the probe that it asks. Settings name either;
what they leave open the host decides.
-/

namespace FileLocator

structure Converter where
  platform : Platform
  probe : Probe

namespace Converter

structure Settings where
  platform : Option Platform := none
  probe : Option Probe := none

/-- A converter by settings, on a host with a platform. -/
def build (settings : Settings) (hostPlatform : Platform) (hostProbe : Probe) : Converter :=
  { platform := settings.platform.getD hostPlatform, probe := settings.probe.getD hostProbe }

def toPath (converter : Converter) (locator : Locator) : Traced (Except LocatorError PathOutcome) :=
  locator.toPath converter.platform converter.probe

def toLocator (converter : Converter) (workingDirectory : Option Path) (path : Path) :
    Traced LocatorOutcome :=
  path.toLocator converter.probe workingDirectory

/-- What comes of a path that is converted to a locator and back. -/
structure RoundTrip where
  there : LocatorOutcome
  back : Option (Except LocatorError PathOutcome)
  /-- Did the way lead back to the same place? -/
  same : Bool

/-- Convert a path to a locator and back. -/
def roundTrip (converter : Converter) (workingDirectory : Option Path) (path : Path) : Traced RoundTrip := do
  match ← converter.toLocator workingDirectory path with
  | .failed given fault => pure { there := .failed given fault, back := none, same := false }
  | .converted locator => do
    let back ← converter.toPath locator
    let same := match back with
      | .ok (.converted found) => found.same path
      | _ => false
    pure { there := .converted locator, back := some back, same }

end Converter

end FileLocator
