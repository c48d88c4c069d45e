import FileLocator.Platform
import FileLocator.Quoted

/-! # Records

What conversions report about themselves, and the lines that are written for it.
-/

namespace FileLocator

inductive Level where
  | trace
  | debug
  | warn
  deriving DecidableEq, Repr

inductive Record where
  | decoded (locator : Text) (path : Path)
  | encoded (path : Path) (locator : Text)
  /-- A share that a locator may have meant is not there. -/
  | missingShare (candidate : Text)
  | platformOverridden (value : Text) (platform : Platform)
  | settingIgnored (value : Text) (detected : Platform)
  deriving DecidableEq, Repr

/-- The name of the setting that overrides the platform. -/
def platformSetting : Text := "FILEURL_PLATFORM".toList

namespace Record

def level : Record → Level
  | decoded .. => .trace
  | encoded .. => .trace
  | missingShare .. => .debug
  | platformOverridden .. => .debug
  | settingIgnored .. => .warn

def message : Record → Text
  | decoded locator path => "decoded ".toList ++ locator ++ " to ".toList ++ Quoted.quoteBytes path.bytes
  | encoded path locator => "encoded ".toList ++ Quoted.quoteBytes path.bytes ++ " as ".toList ++ locator
  | missingShare candidate =>
    "UNC path ".toList ++ Quoted.quote candidate ++
      " does not exist, reading it relative to the current drive".toList
  | platformOverridden value platform =>
    "platform family overridden by ".toList ++ platformSetting ++ '=' :: Quoted.quote value ++ ": ".toList ++
      platform.name
  | settingIgnored value detected =>
    "ignoring unrecognised ".toList ++ platformSetting ++ '=' :: Quoted.quote value ++
      ", using detected ".toList ++ detected.name

end Record

end FileLocator
