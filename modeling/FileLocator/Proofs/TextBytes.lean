import FileLocator.Utf8.Lemmas
import Mathlib.Tactic.ByContra

/-! # Bytes that are text

Some bytes are text when they are written so for some text. ASCII bytes stand for ASCII characters wherever
they stand, so they divide text into text.
-/

namespace FileLocator.Utf8

/-- Every byte of a character outside ASCII is outside ASCII. -/
theorem le_of_mem_encodeChar {c : Char} (wide : 0x80 ≤ c.toNat) {b : UInt8} (member : b ∈ encodeChar c) :
    0x80 ≤ b.toNat := by
  have bound : c.toNat < 0x110000 := by
    have valid : c.toNat < 0xD800 ∨ 0xDFFF < c.toNat ∧ c.toNat < 0x110000 := c.valid
    omega
  rw [encodeChar] at member
  generalize c.toNat = n at wide bound member
  rw [if_neg (by omega)] at member
  split at member
  · simp only [List.mem_cons, List.not_mem_nil, or_false] at member
    rcases member with rfl | rfl <;> rw [toNat_ofNat_of_lt (by omega)] <;> omega
  split at member
  · simp only [List.mem_cons, List.not_mem_nil, or_false] at member
    rcases member with rfl | rfl | rfl <;> rw [toNat_ofNat_of_lt (by omega)] <;> omega
  · simp only [List.mem_cons, List.not_mem_nil, or_false] at member
    rcases member with rfl | rfl | rfl | rfl <;> rw [toNat_ofNat_of_lt (by omega)] <;> omega

theorem encodeChar_ne_nil (c : Char) : encodeChar c ≠ [] := by
  obtain ⟨lead, tail, bytes, -⟩ := first_encodeChar c []
  rw [bytes]
  exact List.cons_ne_nil lead tail

theorem encodeChar_ofNat {b : UInt8} (ascii : b.toNat < 0x80) : encodeChar (Char.ofNat b.toNat) = [b] := by
  have value := toNat_char_ofNat (Or.inl (by omega : b.toNat < 0xD800))
  rw [encodeChar_ascii (by omega), value, UInt8.ofNat_toNat]

/-- The ASCII bytes of a text are its ASCII characters. -/
theorem mem_of_mem_encode {text : Text} {b : UInt8} (member : b ∈ encode text) (ascii : b.toNat < 0x80) :
    Char.ofNat b.toNat ∈ text := by
  obtain ⟨c, present, part⟩ := List.mem_flatMap.mp member
  have small : c.toNat < 0x80 := by
    by_contra large
    have big := le_of_mem_encodeChar (Nat.not_lt.mp large) part
    omega
  rw [encodeChar_ascii small, List.mem_singleton] at part
  rwa [part, toNat_ofNat_of_lt (by omega), Char.ofNat_toNat]

theorem encodeChar_append_eq_encode_iff {c : Char} {behind : Bytes} {text : Text} :
    encodeChar c ++ behind = encode text ↔ ∃ rest, text = c :: rest ∧ behind = encode rest := by
  constructor
  · intro same
    have pieces := congrArg scan same
    rw [scan_encodeChar_append] at pieces
    cases text with
    | nil => cases pieces
    | cons head rest =>
      rw [encode_cons, scan_encodeChar_append] at pieces
      have equal : c = head := Piece.char.inj (List.cons.inj pieces).1
      subst equal
      exact ⟨rest, rfl, List.append_cancel_left same⟩
  · rintro ⟨rest, rfl, rfl⟩
    rfl

/-! ## Dividing text -/

/-- Bytes that some text is written as. -/
def IsText (bytes : Bytes) : Prop := ∃ text, bytes = encode text

theorem isText_iff {bytes : Bytes} : IsText bytes ↔ ∃ text, decode bytes = .ok text :=
  exists_congr fun _ => decode_eq_ok_iff.symm

theorem IsText.append {first second : Bytes} (front : IsText first) (behind : IsText second) :
    IsText (first ++ second) := by
  obtain ⟨text, rfl⟩ := front
  obtain ⟨text', rfl⟩ := behind
  exact ⟨text ++ text', (encode_append text text').symm⟩

theorem isText_encode_append {text : Text} {behind : Bytes} :
    IsText (encode text ++ behind) ↔ IsText behind := by
  induction text with
  | nil => rfl
  | cons c text ih =>
    rw [encode_cons, List.append_assoc, ← ih]
    constructor
    · rintro ⟨whole, same⟩
      obtain ⟨rest, -, same⟩ := encodeChar_append_eq_encode_iff.mp same
      exact ⟨rest, same⟩
    · rintro ⟨rest, same⟩
      exact ⟨c :: rest, by rw [same, encode_cons]⟩

/-- An ASCII byte divides text into text. -/
theorem isText_append_cons_iff {before behind : Bytes} {b : UInt8} (ascii : b.toNat < 0x80) :
    IsText (before ++ b :: behind) ↔ IsText before ∧ IsText behind := by
  constructor
  · rintro ⟨text, same⟩
    induction text generalizing before with
    | nil => simp at same
    | cons c text ih =>
      rw [encode_cons] at same
      -- The byte stands inside the first character, or in what follows it.
      rcases List.append_eq_append_iff.mp same with ⟨left, char, rest⟩ | ⟨left, front, rest⟩
      · cases left with
        | nil =>
          rw [List.append_nil] at char
          have alone : [] ++ b :: behind = encode text := rest
          exact ⟨⟨[c], by simp [char]⟩, (ih alone).2⟩
        | cons head tail =>
          obtain ⟨rfl, rfl⟩ := List.cons.inj rest
          have small : c.toNat < 0x80 := by
            by_contra large
            have big := le_of_mem_encodeChar (b := b) (Nat.not_lt.mp large) (by simp [char])
            omega
          have single := congrArg List.length char
          rw [encodeChar_ascii small, List.length_append, List.length_singleton, List.length_cons] at single
          have none : before = [] := List.eq_nil_of_length_eq_zero (by omega)
          have none' : tail = [] := List.eq_nil_of_length_eq_zero (by omega)
          rw [none, none']
          exact ⟨⟨[], rfl⟩, ⟨text, rfl⟩⟩
      · obtain ⟨inner, behind⟩ := ih rest.symm
        rw [front]
        exact ⟨IsText.append ⟨[c], by simp⟩ inner, behind⟩
  · rintro ⟨front, rest⟩
    have mark : IsText [b] := ⟨[Char.ofNat b.toNat], by simp [encodeChar_ofNat ascii]⟩
    exact front.append (mark.append rest)

end FileLocator.Utf8
