import FileLocator.Percent

/-! # IPv6 addresses in URLs

Eight groups of up to four hexadecimal digits. Once, `::` may stand for one or more groups of zero,
and the last two groups may be written as four decimal bytes. Addresses are written back in
lower case with the first of the longest runs of two or more zero groups as `::`.
-/

namespace FileLocator.Url

structure Ipv6 where
  groups : List UInt16
  complete : groups.length = 8
  deriving DecidableEq, Repr

namespace Ipv6

/-- One group of one to four digits. -/
def group? (text : Text) : Option UInt16 :=
  if text = [] ∨ 4 < text.length then none
  else (text.foldlM (fun value c => (Percent.digit? c).map (value * 16 + ·)) 0).map .ofNat

/-- One decimal byte, without leading zeros. -/
def byte? : Text → Option Nat
  | [] => none
  | ['0'] => some 0
  | '0' :: _ => none
  | text =>
    if text.all Char.isDigit then
      let value := Nat.ofDigitChars 10 text 0
      if value < 256 then some value else none
    else none

/-- Four decimal bytes as two groups. -/
def dotted? (text : Text) : Option (List UInt16) :=
  match (Text.pieces (· == '.') text).mapM byte? with
  | some [a, b, c, d] => some [.ofNat (a * 256 + b), .ofNat (c * 256 + d)]
  | _ => none

/-- Some groups, the last of which may be dotted if nothing follows it. -/
def groups? (mayEndDotted : Bool) : List Text → Option (List UInt16)
  | [] => some []
  | [last] =>
    if mayEndDotted && last.contains '.' then dotted? last else (group? last).map fun group => [group]
  | first :: rest => do
    let group ← group? first
    let groups ← groups? mayEndDotted rest
    return group :: groups

/-- The groups of one side of `::`, which may be empty. -/
def side? (mayEndDotted : Bool) (text : Text) : Option (List UInt16) :=
  if text = [] then some [] else groups? mayEndDotted (Text.pieces (· == ':') text)

/-- The parts before and behind the first `::`. -/
def gap? : Text → Option (Text × Text)
  | ':' :: ':' :: rest => some ([], rest)
  | [] => none
  | c :: rest => (gap? rest).map fun (before, behind) => (c :: before, behind)

/-- All groups of an address, with the zeros that `::` stands for. -/
def allGroups? (text : Text) : Option (List UInt16) :=
  match gap? text with
  | none => groups? true (Text.pieces (· == ':') text)
  | some (before, behind) => do
    let front ← side? false before
    let back ← side? true behind
    let known := front.length + back.length
    if known < 8 then return front ++ List.replicate (8 - known) 0 ++ back else none

/-- Read an address, without its brackets. -/
def parse? (text : Text) : Option Ipv6 := do
  let groups ← allGroups? text
  if complete : groups.length = 8 then return ⟨groups, complete⟩ else none

/-- How many groups of zero some groups begin with. -/
def zeros (groups : List UInt16) : Nat := (groups.takeWhile (· == 0)).length

/-- The start and length of the longest run of zero groups, the first of several, at or behind
`start`. -/
def longestRun (start : Nat) : List UInt16 → Nat × Nat
  | [] => (start, 0)
  | group :: rest =>
    let here := zeros (group :: rest)
    let later := longestRun (start + 1) rest
    if later.2 ≤ here then (start, here) else later

def joined (groups : List UInt16) : Text :=
  (groups.map fun group => Nat.toDigits 16 group.toNat).intersperse [':'] |>.flatten

/-- An address as it stands between brackets. -/
def text (ip : Ipv6) : Text :=
  let (start, length) := longestRun 0 ip.groups
  if length < 2 then joined ip.groups
  else joined (ip.groups.take start) ++ "::".toList ++ joined (ip.groups.drop (start + length))

end Ipv6

end FileLocator.Url
