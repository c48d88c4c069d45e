import FileLocator.Text.Basic

/-! # UTF-8

The byte form of text. Writing is total. Scanning is total too: it splits any bytes into characters
and the stretches between them that are none, and loses nothing. Reading is scanning that refuses
the first such stretch. Overlong forms, surrogates and values above U+10FFFF break off at the second
byte, as soon as no continuation can mend them.
-/

namespace FileLocator.Utf8

abbrev Bytes := List UInt8

/-- Why some bytes are no text. -/
inductive Fault where
  /-- The `length` bytes at `index` begin no character. -/
  | invalid (length index : Nat)
  /-- The bytes end inside the character that starts at `index`. -/
  | truncated (index : Nat)
  deriving DecidableEq, Repr

def Fault.message : Fault → Text
  | .invalid length index =>
    "invalid utf-8 sequence of ".toList ++ Nat.toDigits 10 length ++ " bytes from index ".toList ++
      Nat.toDigits 10 index
  | .truncated index => "incomplete utf-8 byte sequence from index ".toList ++ Nat.toDigits 10 index

/-- The one to four bytes of a character. -/
def encodeChar (c : Char) : Bytes :=
  let n := c.toNat
  if n < 0x80 then [.ofNat n]
  else if n < 0x800 then [.ofNat (0xC0 + n / 64), .ofNat (0x80 + n % 64)]
  else if n < 0x10000 then [.ofNat (0xE0 + n / 4096), .ofNat (0x80 + n / 64 % 64), .ofNat (0x80 + n % 64)]
  else
    [.ofNat (0xF0 + n / 262144), .ofNat (0x80 + n / 4096 % 64), .ofNat (0x80 + n / 64 % 64),
      .ofNat (0x80 + n % 64)]

def encode (text : Text) : Bytes := text.flatMap encodeChar

@[simp] theorem encode_nil : encode [] = [] := rfl

@[simp] theorem encode_cons (c : Char) (text : Text) : encode (c :: text) = encodeChar c ++ encode text := rfl

@[simp] theorem encode_append (first second : Text) :
    encode (first ++ second) = encode first ++ encode second := List.flatMap_append

theorem encodeChar_ascii {c : Char} (ascii : c.toNat < 0x80) : encodeChar c = [.ofNat c.toNat] := by
  simp [encodeChar, ascii]

/-- Behind the lead byte of a character, each byte carries six bits. -/
def isTail (b : UInt8) : Bool := decide (0x80 ≤ b.toNat ∧ b.toNat < 0xC0)

/-- The second bytes that the lead byte of a three- or four-byte character admits: those that neither
write a character longer than need be nor leave the range of characters. -/
def admitsSecond (lead second : UInt8) : Bool :=
  let least := if lead.toNat = 0xE0 then 0xA0 else if lead.toNat = 0xF0 then 0x90 else 0x80
  let bound := if lead.toNat = 0xED then 0xA0 else if lead.toNat = 0xF4 then 0x90 else 0xC0
  decide (least ≤ second.toNat ∧ second.toNat < bound)

/-- The six bits of a byte behind the lead byte. -/
def bits (b : UInt8) : Nat := b.toNat - 0x80

/-- What scanning finds. -/
inductive Piece where
  /-- A character. -/
  | char (c : Char)
  /-- Bytes that begin no character. -/
  | broken (bytes : Bytes)
  /-- The beginning of a character that the end of the bytes cuts off. -/
  | unfinished (bytes : Bytes)
  deriving DecidableEq, Repr

def Piece.bytes : Piece → Bytes
  | .char c => encodeChar c
  | .broken bytes => bytes
  | .unfinished bytes => bytes

@[simp] theorem Piece.bytes_char (c : Char) : (Piece.char c).bytes = encodeChar c := rfl

/-- The piece that a byte begins, with the bytes behind it at hand. -/
def first (lead : UInt8) (behind : Bytes) : Piece :=
  let n := lead.toNat
  if n < 0x80 then .char (Char.ofNat n)
  else if n < 0xC2 ∨ 0xF4 < n then .broken [lead]
  else
    match behind with
    | [] => .unfinished [lead]
    | second :: behind =>
      if n < 0xE0 then
        if isTail second then .char (Char.ofNat ((n - 0xC0) * 64 + bits second)) else .broken [lead]
      else if admitsSecond lead second then
        match behind with
        | [] => .unfinished [lead, second]
        | third :: behind =>
          if isTail third then
            if n < 0xF0 then .char (Char.ofNat ((n - 0xE0) * 4096 + bits second * 64 + bits third))
            else
              match behind with
              | [] => .unfinished [lead, second, third]
              | fourth :: _ =>
                if isTail fourth then
                  .char (Char.ofNat
                    ((n - 0xF0) * 262144 + bits second * 4096 + bits third * 64 + bits fourth))
                else .broken [lead, second, third]
          else .broken [lead, second]
      else .broken [lead]

/-- Split what is left of some bytes when the next `skipped` of them are spoken for. -/
def scanBehind : Nat → Bytes → List Piece
  | _, [] => []
  | skipped + 1, _ :: rest => scanBehind skipped rest
  | 0, lead :: rest =>
    let piece := first lead rest
    piece :: scanBehind (piece.bytes.length - 1) rest

/-- Split bytes into characters and the stretches that are none. -/
def scan (bytes : Bytes) : List Piece := scanBehind 0 bytes

/-- The text of some pieces, the first of which starts at `index`, if all are characters. -/
def collect : Nat → List Piece → Except Fault Text
  | _, [] => .ok []
  | index, .char c :: rest => (collect (index + (encodeChar c).length) rest).map (c :: ·)
  | index, .broken bytes :: _ => .error (.invalid bytes.length index)
  | index, .unfinished _ :: _ => .error (.truncated index)

/-- Read bytes as text. -/
def decode (bytes : Bytes) : Except Fault Text := collect 0 (scan bytes)

end FileLocator.Utf8
