import FileLocator.Text.Blank

/-! # Schemes

A scheme is a letter followed by letters, digits and `+`, `-`, `.`, in lower case. It decides how the
rest of a URL is read: six schemes have a known structure, in which `\` is as good as `/`, and one of
them, `file`, has hosts of its own kind and drive letters.
-/

namespace FileLocator.Url

/-- How the text behind a scheme is read. -/
inductive Kind where
  | file
  /-- A host is required, and the port given here need not be written. -/
  | network (defaultPort : Nat)
  /-- Nothing is known but the common syntax. -/
  | generic
  deriving DecidableEq, Repr

namespace Kind

def ofScheme (scheme : Text) : Kind :=
  if scheme = "file".toList then file
  else if scheme = "http".toList ∨ scheme = "ws".toList then network 80
  else if scheme = "https".toList ∨ scheme = "wss".toList then network 443
  else if scheme = "ftp".toList then network 21
  else generic

def isKnown : Kind → Bool
  | generic => false
  | _ => true

/-- The port that need not be written. -/
def defaultPort? : Kind → Option Nat
  | network port => some port
  | _ => none

/-- What separates the segments of a path and ends an authority. -/
def isSlash (kind : Kind) (c : Char) : Bool := c == '/' || (kind.isKnown && c == '\\')

end Kind

namespace Scheme

/-- What may follow the first letter. -/
def isSchemeChar (c : Char) : Bool := c.isAlphanum || c == '+' || c == '-' || c == '.'

/-- The scheme of a written URL and the text behind its colon. Breaks inside it are skipped. -/
def split? (written : Text) : Option (Text × Text) :=
  let name := Text.unbroken (written.takeWhile (· != ':'))
  match name, written.dropWhile (· != ':') with
  | first :: others, ':' :: rest =>
    if first.isAlpha && others.all isSchemeChar then some ((first :: others).map Char.toLower, rest) else none
  | _, _ => none

end Scheme

end FileLocator.Url
