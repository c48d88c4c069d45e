import FileLocator.Locator.Basic

/-! # Algebra of locators

New locators from old ones by cutting and extending the text as it is written. What comes out is read
again, so it is a locator or an error; no file is looked at.
-/

namespace FileLocator.Locator

/-- Replace everything behind the last dot of the text, or append an extension if there is no dot. -/
def changeExtension (locator : Locator) (extension : Text) : Except LocatorError Locator :=
  let stem := match Text.cutLast? '.' locator.text with
    | some (before, _) => before
    | none => locator.text
  parse (stem ++ '.' :: extension)

/-- Text that ends in a slash. -/
def closed (text : Text) : Text := if text.getLast? = some '/' then text else text ++ ['/']

/-- Append a segment behind a slash. -/
def append (base : Locator) (segment : Text) : Except LocatorError Locator :=
  parse (closed base.text ++ segment)

/-- Append a segment if both are given; the base is looked at first. -/
def extend : Option Locator → Option Text → Except LocatorError Locator
  | none, _ => .error (.missing .base)
  | some _, none => .error (.missing .segment)
  | some base, some segment => base.append segment

/-- Text that does not end in the mark of an archive without the slash behind it. -/
def entered (text : Text) : Text := if text.getLast? = some '!' then text ++ ['/'] else text

/-- Cut at the last slash. -/
def parent (locator : Locator) : Except LocatorError Locator :=
  match Text.cutLast? '/' locator.text with
  | some (before, _) => parse (entered before)
  | none => .error (.invalid locator.text .noSeparator)

/-- The parents one above the other, `limit` at most, and the error that ends them. A locator that is
its own parent ends them as well. -/
def ancestors (limit : Nat) (locator : Locator) : List Text × Option LocatorError :=
  match limit with
  | 0 => ([], none)
  | limit + 1 =>
    match locator.parent with
    | .error error => ([], some error)
    | .ok above =>
      if above == locator then ([above.text], none)
      else
        let (others, error) := ancestors limit above
        (above.text :: others, error)

end FileLocator.Locator
