import FileLocator.Text.Extender
import FileLocator.Text.Unseen
import FileLocator.Utf8

/-! # Quoted text for log records

Records show text and paths between double quotes, so that every character can be made out. Quote,
backslash and the common controls have two-character escapes. Characters without a picture and marks
that would be drawn on their neighbour are written by number, and bytes that are no text in hexadecimal.
-/

namespace FileLocator.Quoted

open Utf8 (Bytes)

/-- Can a character be made out by itself? -/
def isPrintable (c : Char) : Bool := !Text.isUnseen c && !Text.isAttached c

/-- Printable ASCII can. -/
theorem isPrintable_of_ascii {c : Char} (low : 0x20 ≤ c.toNat) (high : c.toNat < 0x7F) :
    isPrintable c = true := by
  have all : ∀ n < 0x7F, 0x20 ≤ n → isPrintable (Char.ofNat n) = true := by decide +kernel
  simpa using all c.toNat high low

/-- A character between the quotes. -/
def escapeChar (c : Char) : Text :=
  if c = '"' ∨ c = '\\' then ['\\', c]
  else if c = '\n' then ['\\', 'n']
  else if c = '\r' then ['\\', 'r']
  else if c = '\t' then ['\\', 't']
  else if c = '\x00' then ['\\', '0']
  else if isPrintable c then [c]
  else ['\\', 'u', '\x7b'] ++ Nat.toDigits 16 c.toNat ++ ['\x7d']

/-- Text between double quotes. -/
def quote (text : Text) : Text := '"' :: text.flatMap escapeChar ++ ['"']

/-- A byte that belongs to no character. -/
def escapeByte (b : UInt8) : Text :=
  ['\\', 'x'] ++ (Nat.toDigits 16 (b.toNat / 16) ++ Nat.toDigits 16 (b.toNat % 16)).map Char.toUpper

/-- A stretch of scanned bytes between the quotes. -/
def escapePiece : Utf8.Piece → Text
  | .char c => escapeChar c
  | .broken bytes => bytes.flatMap escapeByte
  | .unfinished bytes => bytes.flatMap escapeByte

/-- Bytes between double quotes, as text wherever they are text. -/
def quoteBytes (bytes : Bytes) : Text := '"' :: (Utf8.scan bytes).flatMap escapePiece ++ ['"']

end FileLocator.Quoted
