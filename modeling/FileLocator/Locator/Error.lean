import FileLocator.Url.Fault
import FileLocator.Percent

/-! # What can go wrong with a locator -/

namespace FileLocator

inductive Argument where
  | base
  | segment
  deriving DecidableEq, Repr

def Argument.name : Argument → Text
  | base => "base".toList
  | segment => "segment".toList

/-- Why some text is no locator. -/
inductive LocatorFault where
  | url (fault : Url.Fault)
  /-- There is no separator to cut at. -/
  | noSeparator
  deriving DecidableEq, Repr

def LocatorFault.message : LocatorFault → Text
  | url fault => fault.message
  | noSeparator => "no '/' separator to truncate at".toList

inductive LocatorError where
  | missing (argument : Argument)
  | invalid (locator : Text) (fault : LocatorFault)
  | undecodable (locator : Text) (fault : Percent.Fault)
  deriving DecidableEq, Repr

def LocatorError.message : LocatorError → Text
  | missing argument => "argument '".toList ++ argument.name ++ "' must not be null".toList
  | invalid locator fault => "invalid locator '".toList ++ locator ++ "': ".toList ++ fault.message
  | undecodable locator fault => "can not decode locator '".toList ++ locator ++ "': ".toList ++ fault.message

end FileLocator
