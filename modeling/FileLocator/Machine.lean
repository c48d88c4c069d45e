import FileLocator.FileTree
import FileLocator.Traced

/-! # Machines

The machine and process that a conversion runs in: the system it reports, a setting that may override
the platform, the files, and the working directory, which may be gone.
-/

namespace FileLocator

structure Machine where
  systemName : Text
  /-- The value of the setting that overrides the platform. -/
  setting : Option Path
  files : FileTree
  /-- The working directory, if it can be read. -/
  workingDirectory : Option Place

namespace Machine

/-- The platform that conversions run on unless told otherwise. A setting that is no text counts as
none. -/
def platform (machine : Machine) : Traced Platform :=
  let detected := Platform.ofSystemName machine.systemName
  match machine.setting.bind (·.text?) with
  | none => pure detected
  | some value =>
    match Platform.ofSetting? value with
    | some platform => do
      Traced.report (.platformOverridden value platform)
      pure platform
    | none => do
      Traced.report (.settingIgnored value detected)
      pure detected

/-- The files of the machine, as they answer questions. -/
def probe (machine : Machine) : Probe := machine.files.probe machine.workingDirectory

def workingPath (machine : Machine) : Option Path := machine.workingDirectory.map Path.ofComponents

end Machine

end FileLocator
