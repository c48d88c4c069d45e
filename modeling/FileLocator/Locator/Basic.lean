import FileLocator.Locator.Error
import FileLocator.Url.Parse

/-! # Locators

A locator is a URL together with the way it is written. Only the blanks around it, the breaks inside it
and the case of its scheme are lost when it is read: `file:/x` and `file:///x` are different locators of
one URL, and locators are compared by their text.
-/

namespace FileLocator

structure Locator where
  text : Text
  url : Url
  deriving Repr

namespace Locator

/-- The text of a URL as written, with its scheme in normal form. -/
def keep (cleaned : Text) (url : Url) : Text :=
  if url.scheme.length ≤ cleaned.length then url.scheme ++ cleaned.drop url.scheme.length else url.href

/-- Read a locator. -/
def parse (written : Text) : Except LocatorError Locator :=
  let cleaned := Text.clean written
  match Url.parse cleaned with
  | .ok url => .ok { text := keep cleaned url, url }
  | .error fault => .error (.invalid written (.url fault))

/-- A URL in its normal form. -/
def ofUrl (url : Url) : Locator := { text := url.href, url }

/-- Locators are equal when they are written alike. -/
instance : BEq Locator := ⟨fun first second => first.text == second.text⟩

def scheme (locator : Locator) : Text := locator.url.scheme

def isFile (locator : Locator) : Bool := locator.scheme == "file".toList

/-- User information, host and port, put together from the parts of the URL. -/
def authority (locator : Locator) : Text :=
  let url := locator.url
  let user :=
    if url.username = [] ∧ url.password? = none then []
    else url.username ++ Url.marked ':' url.password? ++ ['@']
  user ++ url.host?.getD [] ++ Url.marked ':' (url.port?.map (Nat.toDigits 10))

/-- User name, password, host and port are put together as in the normal form, whichever of them are missing. -/
theorem authority_eq_text {locator : Locator} {place : Url.Authority} (announced : locator.url.authority = some place) :
    locator.authority = place.text := by
  have host : locator.url.host?.getD [] = place.host.text := by
    simp only [Url.host?, announced]
    split
    · next none => simp [none, Url.Host.text]
    · rfl
  have port : locator.url.port? = place.port := by simp [Url.port?, announced]
  have username : locator.url.username = place.username := by simp [Url.username, announced]
  have password : locator.url.password? = if place.password = [] then none else some place.password := by
    simp [Url.password?, announced]
  simp only [authority, host, port, username, password, Url.Authority.text, Url.Authority.credentials,
    Url.Authority.portText]
  by_cases secret : place.password = []
  · simp [secret, Url.marked]
  · simp [secret, Url.marked]

def host? (locator : Locator) : Option Text := locator.url.host?

/-- The path, escaped. -/
def path (locator : Locator) : Text := locator.url.path

def query? (locator : Locator) : Option Text := locator.url.query

def fragment? (locator : Locator) : Option Text := locator.url.fragment

end Locator

end FileLocator
