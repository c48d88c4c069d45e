import FileLocator.Percent
import FileLocator.Utf8.Lemmas

/-! # Percent escapes are read back

Escaping distributes over appending, and so does unescaping behind whole escapes. Bytes come back from
their escapes whatever the set, as long as `%` and the bytes outside ASCII are in it
(`unescape_escapeBytes_append`).
-/

namespace FileLocator.Percent

open Utf8 (Bytes)

@[simp] theorem escapeBytes_append (escaped : EscapeSet) (first second : Bytes) :
    escapeBytes escaped (first ++ second) = escapeBytes escaped first ++ escapeBytes escaped second :=
  List.flatMap_append

@[simp] theorem escape_append (escaped : EscapeSet) (first second : Text) :
    escape escaped (first ++ second) = escape escaped first ++ escape escaped second := by
  simp [escape]

theorem escaped?_digits (b : UInt8) : escaped? (digit (b.toNat / 16)) (digit (b.toNat % 16)) = some b := by
  have bound := b.toNat_lt
  rw [escaped?, digit?_digit (by omega), digit?_digit (by omega)]
  simp [Nat.div_add_mod']

@[simp] theorem unescape_escapeByte_append (b : UInt8) (rest : Text) :
    unescape (escapeByte b ++ rest) = b :: unescape rest := by
  simp [escapeByte, unescape, escaped?_digits]

theorem unescape_cons_of_ne {c : Char} (plain : c ≠ '%') (rest : Text) :
    unescape (c :: rest) = Utf8.encodeChar c ++ unescape rest := by
  rw [unescape]
  exact fun high low tail same => absurd same plain

/-- Bytes come back from their escapes. -/
theorem unescape_escapeBytes_append {escaped : EscapeSet} (sign : escaped 0x25 = true)
    (ascii : ∀ b, escaped b = false → b.toNat < 0x80) (bytes : Bytes) (rest : Text) :
    unescape (escapeBytes escaped bytes ++ rest) = bytes ++ unescape rest := by
  induction bytes with
  | nil => rfl
  | cons b bytes ih =>
    have split : escapeBytes escaped (b :: bytes) = escapeBytes escaped [b] ++ escapeBytes escaped bytes :=
      escapeBytes_append escaped [b] bytes
    rw [split, List.append_assoc]
    by_cases member : escaped b = true
    · simp [escapeBytes, member, ← ih]
    · have raw : escaped b = false := by simpa using member
      have small := ascii b raw
      have value := Utf8.toNat_char_ofNat (Or.inl (by omega : b.toNat < 0xD800))
      have plain : Char.ofNat b.toNat ≠ '%' := by
        intro same
        rw [same] at value
        have sign' : b = 0x25 := UInt8.toNat_inj.mp value.symm
        rw [sign', sign] at raw
        cases raw
      simp only [escapeBytes, List.flatMap_cons, List.flatMap_nil, raw, Bool.false_eq_true, if_false,
        List.cons_append, List.nil_append, List.append_nil]
      rw [unescape_cons_of_ne plain, Utf8.encodeChar_ascii (by omega), value, UInt8.ofNat_toNat]
      exact congrArg (b :: ·) ih

end FileLocator.Percent
