import FileLocator.Percent.Lemmas
import FileLocator.Proofs.TextBytes

/-! # What escaping writes

Escaped text consists of escapes and of printable ASCII that the set lets through. What holds of `%`, of
the digits and of every character that is let through holds of all escaped text
(`forall_mem_escapeBytes`), and a text of characters that are let through is its own escaped form.
-/

namespace FileLocator.Percent

open Utf8 (Bytes)

/-- What every set holds: the control characters and everything outside ASCII. -/
def EscapeSet.IsWide (escaped : EscapeSet) : Prop :=
  ∀ b, escaped b = false → 0x20 ≤ b.toNat ∧ b.toNat < 0x7F

theorem EscapeSet.isWide_controls : EscapeSet.controls.IsWide := by
  intro b raw
  simp only [EscapeSet.controls, Bool.or_eq_false_iff, decide_eq_false_iff_not, UInt8.lt_iff_toNat_lt,
    UInt8.le_iff_toNat_le] at raw
  exact ⟨Nat.not_lt.mp raw.1, Nat.not_le.mp raw.2⟩

theorem EscapeSet.including_eq_false_iff {escaped : EscapeSet} {more : String} {b : UInt8} :
    escaped.including more b = false ↔ escaped b = false ∧ Char.ofNat b.toNat ∉ more.toList := by
  simp [EscapeSet.including]

theorem EscapeSet.IsWide.including {escaped : EscapeSet} (wide : escaped.IsWide) (more : String) :
    (escaped.including more).IsWide := fun b raw => wide b (EscapeSet.including_eq_false_iff.mp raw).1

theorem escape_nil (escaped : EscapeSet) : escape escaped [] = [] := rfl

theorem escape_cons (escaped : EscapeSet) (c : Char) (text : Text) :
    escape escaped (c :: text) = escapeBytes escaped (Utf8.encodeChar c) ++ escape escaped text :=
  escapeBytes_append escaped (Utf8.encodeChar c) (Utf8.encode text)

theorem escapeBytes_cons (escaped : EscapeSet) (b : UInt8) (bytes : Bytes) :
    escapeBytes escaped (b :: bytes) =
      (if escaped b then escapeByte b else [Char.ofNat b.toNat]) ++ escapeBytes escaped bytes := List.flatMap_cons

/-! ## Characters of escaped text -/

theorem forall_mem_escapeByte {P : Char → Prop} (sign : P '%') (digits : ∀ n < 16, P (digit n)) (b : UInt8) :
    ∀ c ∈ escapeByte b, P c := by
  have bound := b.toNat_lt
  intro c member
  simp only [escapeByte, List.mem_cons, List.not_mem_nil, or_false] at member
  rcases member with rfl | rfl | rfl
  · exact sign
  · exact digits _ (by omega)
  · exact digits _ (by omega)

theorem forall_mem_escapeBytes {P : Char → Prop} {escaped : EscapeSet} (sign : P '%')
    (digits : ∀ n < 16, P (digit n)) (bytes : Bytes)
    (raw : ∀ b ∈ bytes, escaped b = false → P (Char.ofNat b.toNat)) :
    ∀ c ∈ escapeBytes escaped bytes, P c := by
  intro c member
  obtain ⟨b, present, part⟩ := List.mem_flatMap.mp member
  split at part
  · exact forall_mem_escapeByte sign digits b c part
  · next passes =>
    rw [List.mem_singleton.mp part]
    exact raw b present (Bool.eq_false_iff.mpr passes)

theorem forall_mem_escape {P : Char → Prop} {escaped : EscapeSet} (sign : P '%')
    (digits : ∀ n < 16, P (digit n)) (raw : ∀ b, escaped b = false → P (Char.ofNat b.toNat)) (text : Text) :
    ∀ c ∈ escape escaped text, P c := forall_mem_escapeBytes sign digits _ fun b _ => raw b

/-- A mark that is no part of an escape is in escaped text only if the set lets a byte through as that mark. -/
theorem not_mem_escapeBytes {escaped : EscapeSet} (wide : escaped.IsWide) {mark : Char} (sign : mark ≠ '%')
    (digits : ∀ n < 16, digit n ≠ mark) {bytes : Bytes}
    (absent : ∀ b ∈ bytes, escaped b = false → b ≠ .ofNat mark.toNat) : mark ∉ escapeBytes escaped bytes := by
  have others : ∀ c ∈ escapeBytes escaped bytes, c ≠ mark := by
    refine forall_mem_escapeBytes (P := (· ≠ mark)) sign.symm digits bytes ?_
    intro b member raw same
    have small := (wide b raw).2
    have value := Utf8.toNat_char_ofNat (Or.inl (by omega : b.toNat < 0xD800))
    apply absent b member raw
    rw [← same, value, UInt8.ofNat_toNat]
  exact fun member => others mark member rfl

/-! ## What escaping leaves alone -/

theorem escapeBytes_encodeChar {escaped : EscapeSet} {c : Char} (ascii : c.toNat < 0x80)
    (raw : escaped (.ofNat c.toNat) = false) : escapeBytes escaped (Utf8.encodeChar c) = [c] := by
  have value : (UInt8.ofNat c.toNat).toNat = c.toNat := Utf8.toNat_ofNat_of_lt (by omega)
  rw [Utf8.encodeChar_ascii ascii, escapeBytes_cons, raw, value, Char.ofNat_toNat]
  rfl

/-- Text of ASCII characters that the set lets through is its own escaped form. -/
theorem escape_eq_self {escaped : EscapeSet} {text : Text}
    (raw : ∀ c ∈ text, c.toNat < 0x80 ∧ escaped (.ofNat c.toNat) = false) : escape escaped text = text := by
  induction text with
  | nil => rfl
  | cons c rest ih =>
    obtain ⟨ascii, passes⟩ := raw c (List.mem_cons_self ..)
    rw [escape_cons, escapeBytes_encodeChar ascii passes,
      ih fun other member => raw other (List.mem_cons_of_mem _ member)]
    rfl

/-- Escaped text begins with an escape or with the first character as it was. -/
theorem head?_escape {escaped : EscapeSet} (wide : escaped.IsWide) (c : Char) (text : Text) :
    (escape escaped (c :: text)).head? = some '%' ∨ (escape escaped (c :: text)).head? = some c := by
  rw [escape_cons]
  by_cases passes : c.toNat < 0x80 ∧ escaped (.ofNat c.toNat) = false
  · right
    rw [escapeBytes_encodeChar passes.1 passes.2]
    rfl
  · left
    obtain ⟨lead, tail, bytes, -⟩ := Utf8.first_encodeChar c []
    have member : escaped lead = true := by
      by_contra raw
      have passed : escaped lead = false := Bool.eq_false_iff.mpr raw
      have small := (wide lead passed).2
      have ascii : c.toNat < 0x80 := by
        by_contra large
        have big := Utf8.le_of_mem_encodeChar (b := lead) (Nat.not_lt.mp large) (by simp [bytes])
        omega
      rw [Utf8.encodeChar_ascii ascii] at bytes
      rw [(List.cons.inj bytes).1] at passes
      exact passes ⟨ascii, passed⟩
    rw [bytes, escapeBytes_cons, member]
    rfl

end FileLocator.Percent
