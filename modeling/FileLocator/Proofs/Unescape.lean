import FileLocator.Proofs.Escapes

/-! # Reading escapes one by one

Escaped text is a sequence of escapes, of `%` signs that start none and of other characters
(`escape_induction`). Unescaping reads it in this order, and the search for a `%` that starts no escape
walks along it. Text is decoded exactly when there is no such `%` and the bytes named are those of a text.
-/

namespace FileLocator.Percent

open Utf8 (Bytes)

/-- A `%` in front of this text starts no escape. -/
def Lone (rest : Text) : Prop := ∀ high low more, rest = high :: low :: more → escaped? high low = none

theorem unescape_escape {high low : Char} {b : UInt8} (digits : escaped? high low = some b) (rest : Text) :
    unescape ('%' :: high :: low :: rest) = b :: unescape rest := by
  rw [unescape, digits]

theorem unescape_sign {rest : Text} (lone : Lone rest) :
    unescape ('%' :: rest) = Utf8.encodeChar '%' ++ unescape rest := by
  rw [unescape.eq_def]
  split
  · contradiction
  · next high low more same =>
    cases same
    rw [lone high low more rfl]
  · next c more _ same =>
    cases same
    rfl

theorem malformedFrom?_escape {high low : Char} {b : UInt8} (digits : escaped? high low = some b)
    (index : Nat)
    (rest : Text) : malformedFrom? index ('%' :: high :: low :: rest) = malformedFrom? (index + 3) rest := by
  rw [malformedFrom?, digits]
  rfl

theorem malformedFrom?_sign {rest : Text} (lone : Lone rest) (index : Nat) :
    malformedFrom? index ('%' :: rest) = some index := by
  rw [malformedFrom?.eq_def]
  split
  · contradiction
  · next high low more same =>
    cases same
    rw [lone high low more rfl]
    rfl
  · next c more _ same =>
    cases same
    rfl

theorem malformedFrom?_cons_of_ne {c : Char} (plain : c ≠ '%') (index : Nat) (rest : Text) :
    malformedFrom? index (c :: rest) = malformedFrom? (index + (Utf8.encodeChar c).length) rest := by
  rw [malformedFrom?, if_neg plain]
  exact fun high low tail same => absurd same plain

/-- Escaped text from its end: an escape, a sign that starts none, or a character that is no sign. -/
@[elab_as_elim] theorem escape_induction {motive : Text → Prop} (nil : motive [])
    (escape : ∀ high low b rest, escaped? high low = some b → motive rest → motive ('%' :: high :: low :: rest))
    (sign : ∀ rest, Lone rest → motive rest → motive ('%' :: rest))
    (plain : ∀ c rest, c ≠ '%' → motive rest → motive (c :: rest)) (text : Text) : motive text := by
  fun_induction unescape text with
  | case1 => exact nil
  | case2 high low rest b digits ih => exact escape high low b rest digits ih
  | case3 high low rest none ih =>
    refine sign _ ?_ ih
    rintro _ _ _ same
    cases same
    exact none
  | case4 c rest short ih =>
    by_cases same : c = '%'
    · subst same
      refine sign rest ?_ ih
      intro high low more shape
      exact absurd shape (short high low more rfl)
    · exact plain c rest same ih

/-- Where the search starts is only added to what it finds. -/
theorem malformedFrom?_add (start index : Nat) (text : Text) :
    malformedFrom? (start + index) text = (malformedFrom? index text).map (start + ·) := by
  induction text using escape_induction generalizing index with
  | nil => rfl
  | escape high low b rest digits ih =>
    rw [malformedFrom?_escape digits, malformedFrom?_escape digits, Nat.add_assoc, ih]
  | sign rest lone ih => rw [malformedFrom?_sign lone, malformedFrom?_sign lone, Option.map_some]
  | plain c rest other ih =>
    rw [malformedFrom?_cons_of_ne other, malformedFrom?_cons_of_ne other, Nat.add_assoc, ih]

theorem malformedFrom?_eq_none_iff {index : Nat} {text : Text} :
    malformedFrom? index text = none ↔ malformedAt? text = none := by
  rw [malformedAt?, ← Nat.add_zero index, malformedFrom?_add, Option.map_eq_none_iff]

/-- Text is decoded when every `%` in it starts an escape and the bytes named are those of the result. -/
theorem decode_eq_ok_iff {text decoded : Text} :
    decode text = .ok decoded ↔ malformedAt? text = none ∧ unescape text = Utf8.encode decoded := by
  rw [decode, ← Utf8.decode_eq_ok_iff]
  cases malformedAt? text with
  | some index => simp
  | none => cases Utf8.decode (unescape text) <;> simp [Except.mapError]

/-! ## Decoding from the front -/

/-- A character that is no sign is decoded to itself. -/
theorem decode_cons_of_ne {c : Char} (plain : c ≠ '%') {rest decoded : Text} :
    decode (c :: rest) = .ok decoded ↔ ∃ others, decoded = c :: others ∧ decode rest = .ok others := by
  rw [decode_eq_ok_iff, malformedAt?, malformedFrom?_cons_of_ne plain, malformedFrom?_eq_none_iff,
    unescape_cons_of_ne plain, Utf8.encodeChar_append_eq_encode_iff]
  constructor
  · rintro ⟨formed, others, rfl, bytes⟩
    exact ⟨others, rfl, decode_eq_ok_iff.mpr ⟨formed, bytes⟩⟩
  · rintro ⟨others, rfl, read⟩
    obtain ⟨formed, bytes⟩ := decode_eq_ok_iff.mp read
    exact ⟨formed, others, rfl, bytes⟩

theorem decode_append_of_not_mem {front : Text} (plain : '%' ∉ front) {rest decoded : Text} :
    decode (front ++ rest) = .ok decoded ↔ ∃ others, decoded = front ++ others ∧ decode rest = .ok others := by
  induction front generalizing decoded with
  | nil => simp
  | cons c front ih =>
    rw [List.mem_cons, not_or] at plain
    rw [List.cons_append, decode_cons_of_ne (Ne.symm plain.1)]
    constructor
    · rintro ⟨others, rfl, read⟩
      obtain ⟨behind, rfl, inner⟩ := (ih plain.2).mp read
      exact ⟨behind, rfl, inner⟩
    · rintro ⟨behind, rfl, read⟩
      exact ⟨front ++ behind, rfl, (ih plain.2).mpr ⟨behind, rfl, read⟩⟩

/-- An escape of an ASCII character is decoded to that character. -/
theorem decode_escape_ascii {high low c : Char} (ascii : c.toNat < 0x80)
    (digits : escaped? high low = some (.ofNat c.toNat)) {rest decoded : Text} :
    decode ('%' :: high :: low :: rest) = .ok decoded ↔
      ∃ others, decoded = c :: others ∧ decode rest = .ok others := by
  have bytes : UInt8.ofNat c.toNat :: unescape rest = Utf8.encodeChar c ++ unescape rest := by
    rw [Utf8.encodeChar_ascii ascii]
    rfl
  rw [decode_eq_ok_iff, malformedAt?, malformedFrom?_escape digits, malformedFrom?_eq_none_iff,
    unescape_escape digits, bytes, Utf8.encodeChar_append_eq_encode_iff]
  constructor
  · rintro ⟨formed, others, rfl, bytes⟩
    exact ⟨others, rfl, decode_eq_ok_iff.mpr ⟨formed, bytes⟩⟩
  · rintro ⟨others, rfl, read⟩
    obtain ⟨formed, bytes⟩ := decode_eq_ok_iff.mp read
    exact ⟨formed, others, rfl, bytes⟩

/-- No text but the empty one names no bytes. -/
theorem eq_nil_of_unescape {text : Text} (silent : unescape text = []) : text = [] := by
  cases text using escape_induction with
  | nil => rfl
  | escape high low b rest digits =>
    rw [unescape_escape digits] at silent
    cases silent
  | sign rest lone =>
    rw [unescape_sign lone] at silent
    cases silent
  | plain c rest other =>
    rw [unescape_cons_of_ne other] at silent
    exact absurd (List.append_eq_nil_iff.mp silent).1 (Utf8.encodeChar_ne_nil c)

theorem eq_nil_of_decode {text : Text} (read : decode text = .ok []) : text = [] :=
  eq_nil_of_unescape (decode_eq_ok_iff.mp read).2

/-! ## What text spells -/

/-- The text has no `%` that starts no escape, and these are the bytes that it names. -/
structure Spells (text : Text) (bytes : Bytes) : Prop where
  formed : malformedAt? text = none
  bytes : unescape text = bytes

theorem spells_nil : Spells [] [] := ⟨rfl, rfl⟩

theorem Spells.cons_of_ne {c : Char} (plain : c ≠ '%') {text : Text} {bytes : Bytes}
    (spells : Spells text bytes) :
    Spells (c :: text) (Utf8.encodeChar c ++ bytes) where
  formed := by
    rw [malformedAt?, malformedFrom?_cons_of_ne plain, malformedFrom?_eq_none_iff]
    exact spells.formed
  bytes := by rw [unescape_cons_of_ne plain, spells.bytes]

theorem Spells.escapeByte (b : UInt8) {text : Text} {bytes : Bytes} (spells : Spells text bytes) :
    Spells (escapeByte b ++ text) (b :: bytes) where
  formed := by
    rw [malformedAt?]
    change malformedFrom? 0 ('%' :: digit (b.toNat / 16) :: digit (b.toNat % 16) :: text) = none
    rw [malformedFrom?_escape (escaped?_digits b), malformedFrom?_eq_none_iff]
    exact spells.formed
  bytes := by rw [unescape_escapeByte_append, spells.bytes]

theorem Spells.append_of_not_mem {front : Text} (plain : '%' ∉ front) {text : Text} {bytes : Bytes}
    (spells : Spells text bytes) : Spells (front ++ text) (Utf8.encode front ++ bytes) := by
  induction front with
  | nil => exact spells
  | cons c front ih =>
    rw [List.mem_cons, not_or] at plain
    rw [List.cons_append, Utf8.encode_cons, List.append_assoc]
    exact (ih plain.2).cons_of_ne (Ne.symm plain.1)

/-- Escaped bytes are spelled well, whatever else the set holds than the sign and the wide bytes. -/
theorem Spells.escapeBytes {escaped : EscapeSet} (sign : escaped 0x25 = true)
    (ascii : ∀ b, escaped b = false → b.toNat < 0x80) (front : Bytes) {text : Text} {bytes : Bytes}
    (spells : Spells text bytes) : Spells (Percent.escapeBytes escaped front ++ text) (front ++ bytes) := by
  induction front with
  | nil => exact spells
  | cons b front ih =>
    rw [escapeBytes_cons, List.append_assoc]
    cases member : escaped b with
    | true => exact ih.escapeByte b
    | false =>
      have mark := Utf8.encodeChar_ofNat (ascii b member)
      have plain : Char.ofNat b.toNat ≠ '%' := by
        intro same
        rw [same] at mark
        rw [← (List.cons.inj mark).1] at member
        change escaped 0x25 = false at member
        rw [sign] at member
        cases member
      have step := ih.cons_of_ne plain
      rw [mark] at step
      exact step

theorem decode_of_spells {text : Text} {bytes : Bytes} (spells : Spells text bytes) :
    decode text = (Utf8.decode bytes).mapError .notText := by
  rw [decode, spells.formed, spells.bytes]

end FileLocator.Percent
