import FileLocator.Utf8

/-! # Percent escapes

A byte is escaped as `%` and two hexadecimal digits, in capitals when written and in either case when
read. Escaping works on the bytes of a text and is directed by the set of bytes to escape; sets are
built from `controls`, so that bytes outside ASCII are in each of them. Unescaping leaves a `%` alone
that starts no escape; the first such `%` is reported by `malformedAt?`, in bytes, for readers that
insist on well-formed text.
-/

namespace FileLocator.Percent

open Utf8 (Bytes)

/-- The value of a hexadecimal digit, in either case. -/
def digit? (c : Char) : Option Nat :=
  if '0' ≤ c ∧ c ≤ '9' then some (c.toNat - 48)
  else if 'A' ≤ c ∧ c ≤ 'F' then some (c.toNat - 55)
  else if 'a' ≤ c ∧ c ≤ 'f' then some (c.toNat - 87)
  else none

/-- The digit for a value below 16, in capitals. -/
def digit (n : Nat) : Char := if n < 10 then Char.ofNat (48 + n) else Char.ofNat (55 + n)

theorem digit?_digit {n : Nat} (small : n < 16) : digit? (digit n) = some n := by
  revert n
  decide

/-- The bytes that a component may not hold raw. -/
abbrev EscapeSet := UInt8 → Bool

/-- Control characters and everything outside ASCII. -/
def EscapeSet.controls : EscapeSet := fun b => b < 0x20 || 0x7F ≤ b

/-- Add some ASCII characters to a set. -/
def EscapeSet.including (escaped : EscapeSet) (more : String) : EscapeSet :=
  fun b => escaped b || more.toList.contains (Char.ofNat b.toNat)

/-- One byte as an escape. -/
def escapeByte (b : UInt8) : Text := ['%', digit (b.toNat / 16), digit (b.toNat % 16)]

/-- Bytes as text, with the bytes of the set escaped. -/
def escapeBytes (escaped : EscapeSet) (bytes : Bytes) : Text :=
  bytes.flatMap fun b => if escaped b then escapeByte b else [Char.ofNat b.toNat]

/-- Text with the bytes of the set escaped. -/
def escape (escaped : EscapeSet) (text : Text) : Text := escapeBytes escaped (Utf8.encode text)

/-- The byte that an escape names, from its two digits. -/
def escaped? (high low : Char) : Option UInt8 :=
  match digit? high, digit? low with
  | some high, some low => some (.ofNat (high * 16 + low))
  | _, _ => none

/-- Read every escape; a `%` that starts none stands for itself. -/
def unescape : Text → Bytes
  | [] => []
  | '%' :: high :: low :: rest =>
    match escaped? high low with
    | some b => b :: unescape rest
    | none => Utf8.encodeChar '%' ++ unescape (high :: low :: rest)
  | c :: rest => Utf8.encodeChar c ++ unescape rest

/-- The byte offset, from `index`, of the first `%` that starts no escape. -/
def malformedFrom? : Nat → Text → Option Nat
  | _, [] => none
  | index, '%' :: high :: low :: rest =>
    if (escaped? high low).isSome then malformedFrom? (index + 3) rest else some index
  | index, c :: rest =>
    if c = '%' then some index else malformedFrom? (index + (Utf8.encodeChar c).length) rest

/-- The byte offset of the first `%` that starts no escape. -/
def malformedAt? (text : Text) : Option Nat := malformedFrom? 0 text

/-- Why escaped text can not be read. -/
inductive Fault where
  /-- The `%` at this byte starts no escape. -/
  | malformed (index : Nat)
  /-- The bytes named are no text. -/
  | notText (fault : Utf8.Fault)
  deriving DecidableEq, Repr

def Fault.message : Fault → Text
  | .malformed index => "malformed escape sequence at byte ".toList ++ Nat.toDigits 10 index
  | .notText fault => "decoded bytes are not UTF-8: ".toList ++ fault.message

/-- Read text in which every `%` must start an escape. -/
def decode (text : Text) : Except Fault Text :=
  match malformedAt? text with
  | some index => .error (.malformed index)
  | none => (Utf8.decode (unescape text)).mapError .notText

end FileLocator.Percent
