import FileLocator.Converter
import FileLocator.Locator.Algebra

/-! # Sessions

A run of steps over a current locator and a current path. A step that fails says so and leaves both as
they are.
-/

namespace FileLocator

inductive Step where
  | parse (written : Text)
  | changeExtension (extension : Text)
  | extend (segment : Option Text)
  | parent
  /-- Replace the locator by the normal form of its URL. -/
  | normalize
  | toPath
  /-- Convert a path, by default the current one. -/
  | ofPath (path : Option Path)

/-- What a step has to say. -/
inductive Note where
  | silent
  | failed (error : LocatorError)
  | noLocator
  | path (outcome : PathOutcome)
  | locator (outcome : LocatorOutcome)

structure Session where
  locator : Option Locator
  path : Option Path

namespace Session

def start : Session := { locator := none, path := none }

/-- The session after an operation on locators. -/
def move (session : Session) : Except LocatorError Locator → Note × Session
  | .ok locator => (.silent, { session with locator := some locator })
  | .error error => (.failed error, session)

/-- The session after an operation that needs the current locator. -/
def withLocator (session : Session) (operation : Locator → Traced (Note × Session)) :
    Traced (Note × Session) :=
  match session.locator with
  | some locator => operation locator
  | none => pure (.noLocator, session)

/-- Take one step. -/
def step (converter : Converter) (workingDirectory : Option Path) (session : Session) :
    Step → Traced (Note × Session)
  | .parse written => pure (session.move (Locator.parse written))
  | .changeExtension extension =>
    session.withLocator fun locator => pure (session.move (locator.changeExtension extension))
  | .extend segment => pure (session.move (Locator.extend session.locator segment))
  | .parent => session.withLocator fun locator => pure (session.move locator.parent)
  | .normalize => session.withLocator fun locator => pure (session.move (.ok (Locator.ofUrl locator.url)))
  | .toPath =>
    session.withLocator fun locator => do
      match ← converter.toPath locator with
      | .error error => pure (.failed error, session)
      | .ok (.converted path) => pure (.path (.converted path), { session with path := some path })
      | .ok (.notApplicable scheme) => pure (.path (.notApplicable scheme), session)
  | .ofPath given => do
    let path := (given.orElse fun _ => session.path).getD ⟨[]⟩
    match ← converter.toLocator workingDirectory path with
    | .converted locator => pure (.locator (.converted locator), { session with locator := some locator })
    | .failed path fault => pure (.locator (.failed path fault), session)

end Session

end FileLocator
