import FileLocator.Percent

/-! # IPv4 addresses in URLs

A host whose last label is a number is an address, in one of the spellings that old resolvers
accepted: one to four parts, each decimal, octal behind `0` or hexadecimal behind `0x`. Every part
but the last is one byte, and the last part fills all the bytes that are left.
-/

namespace FileLocator.Url

structure Ipv4 where
  address : UInt32
  deriving DecidableEq, Repr

namespace Ipv4

/-- The value of digits in some base, if all are digits of that base. -/
def digits? (base : Nat) (text : Text) : Option Nat :=
  text.foldlM (fun value c => (Percent.digit? c).bind fun digit =>
    if digit < base then some (value * base + digit) else none) 0

/-- The value of one part; `0x` alone is zero. -/
def part? : Text → Option Nat
  | [] => none
  | '0' :: 'x' :: rest => digits? 16 rest
  | '0' :: 'X' :: rest => digits? 16 rest
  | '0' :: second :: rest => digits? 8 (second :: rest)
  | text => digits? 10 text

/-- The labels of a name, without the empty one behind a final dot. -/
def labels (name : Text) : List Text :=
  let all := Text.pieces (· == '.') name
  if all.getLast? = some [] then all.dropLast else all

/-- A host is an address if its last label is a number, even one too large for a part. -/
def endsInNumber (name : Text) : Bool :=
  match (labels name).getLast? with
  | none => false
  | some last => (last ≠ [] && last.all Char.isDigit) || (part? last).isSome

/-- The number that some parts make: bytes from the left, and a last part for the rest. -/
def combine? : Nat → List Nat → Option Nat
  | _, [] => none
  | width, [last] => if last < 256 ^ width then some last else none
  | width, part :: rest =>
    if part < 256 then (combine? (width - 1) rest).map (part * 256 ^ (width - 1) + ·) else none

/-- Read an address. -/
def parse? (name : Text) : Option Ipv4 :=
  let parts := labels name
  if parts.length ≤ 4 then do
    let values ← parts.mapM part?
    let address ← combine? 4 values
    return ⟨.ofNat address⟩
  else none

/-- An address as four decimal bytes. -/
def text (ip : Ipv4) : Text :=
  let n := ip.address.toNat
  let bytes := [n / 16777216, n / 65536 % 256, n / 256 % 256, n % 256]
  (bytes.map (Nat.toDigits 10)).intersperse ['.'] |>.flatten

end Ipv4

end FileLocator.Url
