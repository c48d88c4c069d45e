import FileLocator.Proofs.Neat
import FileLocator.Proofs.Unescape

/-! # One text, spelled with more escapes

A text may be spelled in many ways: any of its characters may be written as escapes of their bytes, with
digits of either case, apart from `%` and from the digits of an escape that is there already (`Respells`).
All spellings name the same bytes and are decoded alike, whether or not every `%` starts an escape. Escaping
the characters of a set is one way to spell a text.
-/

namespace FileLocator.Percent

open Utf8 (Bytes)
open Text (isEdgeBlank isBreak NeatBehind)

/-! ## Digits -/

/-- Digits are ASCII, and their values are small. -/
theorem bounds_of_digit? {c : Char} {n : Nat} (value : digit? c = some n) : c.toNat < 0x80 ∧ n < 16 := by
  rw [digit?] at value
  simp only [Char.le_def, UInt32.le_iff_toNat_le] at value
  change (if 48 ≤ c.toNat ∧ c.toNat ≤ 57 then _ else if 65 ≤ c.toNat ∧ c.toNat ≤ 70 then _
    else if 97 ≤ c.toNat ∧ c.toNat ≤ 102 then _ else _) = _ at value
  split at value
  · cases value
    omega
  split at value
  · cases value
    omega
  split at value
  · cases value
    omega
  · cases value

/-- What the digits satisfy one by one. -/
theorem forall_digit {P : Char → Prop} (each : ∀ n < 0x80, (digit? (.ofNat n)).isSome = true → P (.ofNat n))
    {c : Char} {n : Nat} (value : digit? c = some n) : P c := by
  have digit : (digit? c).isSome = true := by rw [value, Option.isSome_some]
  revert digit
  apply Text.forall_ascii _ (bounds_of_digit? value).1
  exact each

theorem isEdgeBlank_eq_false_of_digit? {c : Char} {n : Nat} (value : digit? c = some n) :
    isEdgeBlank c = false := by
  apply forall_digit _ value
  decide +kernel

/-- Decimal digits are written in one way only. -/
theorem eq_digit_of_digit? {c : Char} {n : Nat} (value : digit? c = some n) (decimal : n < 10) : c = digit n := by
  have ascii := (bounds_of_digit? value).1
  revert value
  apply Text.forall_ascii (P := fun c => digit? c = some n → c = digit n) _ ascii
  revert n
  decide +kernel

/-- The two digits of an escape are those of its byte. -/
theorem digits_of_escaped? {high low : Char} {b : UInt8} (digits : escaped? high low = some b) :
    digit? high = some (b.toNat / 16) ∧ digit? low = some (b.toNat % 16) := by
  rw [escaped?] at digits
  split at digits
  · next first second top bottom =>
    have small := (bounds_of_digit? top).2
    have small' := (bounds_of_digit? bottom).2
    have byte : first * 16 + second = b.toNat := by
      rw [← Option.some.inj digits, Utf8.toNat_ofNat_of_lt (by omega)]
    rw [top, bottom, ← byte]
    constructor
    · congr 1
      omega
    · congr 1
      omega
  · cases digits

theorem exists_digit?_of_escaped? {high low : Char} {b : UInt8} (digits : escaped? high low = some b) :
    (∃ n, digit? high = some n) ∧ ∃ n, digit? low = some n :=
  ⟨⟨_, (digits_of_escaped? digits).1⟩, ⟨_, (digits_of_escaped? digits).2⟩⟩

theorem escaped?_eq_none_of_high {high : Char} (other : digit? high = none) (low : Char) :
    escaped? high low = none := by
  rw [escaped?, other]

theorem escaped?_eq_none_of_low {low : Char} (other : digit? low = none) (high : Char) :
    escaped? high low = none := by
  rw [escaped?, other]
  cases digit? high <;> rfl

/-! ## Spellings -/

/-- The text is an escape of each of these bytes. -/
inductive WrittenOut : Bytes → Text → Prop
  | nil : WrittenOut [] []
  | cons {high low : Char} {b : UInt8} {bytes : Bytes} {text : Text} (digits : escaped? high low = some b)
      (rest : WrittenOut bytes text) : WrittenOut (b :: bytes) ('%' :: high :: low :: text)

/-- The second text is the first with some of its characters written out. -/
inductive Respells : Text → Text → Prop
  | nil : Respells [] []
  /-- An escape stays as it is. -/
  | escape {high low : Char} {b : UInt8} {text other : Text} (digits : escaped? high low = some b)
      (rest : Respells text other) : Respells ('%' :: high :: low :: text) ('%' :: high :: low :: other)
  /-- So does a `%` that starts none. -/
  | sign {text other : Text} (lone : Lone text) (rest : Respells text other) :
      Respells ('%' :: text) ('%' :: other)
  | raw {c : Char} {text other : Text} (plain : c ≠ '%') (rest : Respells text other) :
      Respells (c :: text) (c :: other)
  | writtenOut {c : Char} {spelled text other : Text} (plain : c ≠ '%')
      (written : WrittenOut (Utf8.encodeChar c) spelled) (rest : Respells text other) :
      Respells (c :: text) (spelled ++ other)

namespace WrittenOut

theorem head {bytes : Bytes} {text : Text} (written : WrittenOut bytes text) (nonempty : bytes ≠ []) :
    ∃ rest, text = '%' :: rest := by
  cases written with
  | nil => exact absurd rfl nonempty
  | cons => exact ⟨_, rfl⟩

theorem unescape_append {bytes : Bytes} {text : Text} (written : WrittenOut bytes text) (rest : Text) :
    unescape (text ++ rest) = bytes ++ unescape rest := by
  induction written with
  | nil => rfl
  | cons digits inner ih =>
    rw [List.cons_append, List.cons_append, List.cons_append, unescape_escape digits, ih]
    rfl

theorem malformedAt?_append {bytes : Bytes} {text : Text} (written : WrittenOut bytes text) (rest : Text) :
    malformedAt? (text ++ rest) = none ↔ malformedAt? rest = none := by
  induction written with
  | nil => rfl
  | cons digits inner ih =>
    rw [List.cons_append, List.cons_append, List.cons_append, malformedAt?, malformedFrom?_escape digits,
      malformedFrom?_eq_none_iff, ih]

theorem forall_mem {P : Char → Prop} (sign : P '%') (digit : ∀ c n, digit? c = some n → P c) {bytes : Bytes}
    {text : Text} (written : WrittenOut bytes text) : ∀ c ∈ text, P c := by
  induction written with
  | nil => simp
  | cons digits inner ih =>
    obtain ⟨⟨_, top⟩, ⟨_, bottom⟩⟩ := exists_digit?_of_escaped? digits
    simp only [List.forall_mem_cons]
    exact ⟨sign, digit _ _ top, digit _ _ bottom, ih⟩

end WrittenOut

namespace Respells

/-- A spelling begins with an escape or as the text does. -/
theorem cons_inv {c : Char} {text rest : Text} (same : Respells text (c :: rest)) :
    c = '%' ∨ ∃ tail, text = c :: tail ∧ Respells tail rest := by
  generalize shape : c :: rest = other at same
  cases same with
  | nil => cases shape
  | escape => exact .inl (List.cons.inj shape).1
  | sign => exact .inl (List.cons.inj shape).1
  | raw plain behind =>
    obtain ⟨rfl, rfl⟩ := List.cons.inj shape
    exact .inr ⟨_, rfl, behind⟩
  | writtenOut plain written behind =>
    obtain ⟨more, rfl⟩ := written.head (Utf8.encodeChar_ne_nil _)
    exact .inl (List.cons.inj shape).1

theorem eq_nil {text : Text} (same : Respells text []) : text = [] := by
  generalize shape : [] = other at same
  cases same with
  | nil => rfl
  | escape => cases shape
  | sign => cases shape
  | raw => cases shape
  | writtenOut plain written behind =>
    obtain ⟨more, rfl⟩ := written.head (Utf8.encodeChar_ne_nil _)
    cases shape

variable {text other : Text} (same : Respells text other)

include same

/-- No character that is written out makes an escape of the `%` in front of it. -/
theorem lone (alone : Lone text) : Lone other := by
  rintro high low more rfl
  rcases same.cons_inv with rfl | ⟨tail, rfl, behind⟩
  · exact escaped?_eq_none_of_high rfl low
  rcases behind.cons_inv with rfl | ⟨last, rfl, -⟩
  · exact escaped?_eq_none_of_low rfl high
  · exact alone high low last rfl

/-- All spellings name the same bytes. -/
theorem unescape_eq : unescape other = unescape text := by
  induction same with
  | nil => rfl
  | escape digits rest ih => rw [unescape_escape digits, unescape_escape digits, ih]
  | sign alone rest ih => rw [unescape_sign (rest.lone alone), unescape_sign alone, ih]
  | raw plain rest ih => rw [unescape_cons_of_ne plain, unescape_cons_of_ne plain, ih]
  | writtenOut plain written rest ih => rw [written.unescape_append, unescape_cons_of_ne plain, ih]

theorem malformedAt?_eq_none_iff : malformedAt? other = none ↔ malformedAt? text = none := by
  induction same with
  | nil => rfl
  | escape digits rest ih =>
    rw [malformedAt?, malformedAt?, malformedFrom?_escape digits, malformedFrom?_escape digits,
      malformedFrom?_eq_none_iff, malformedFrom?_eq_none_iff, ih]
  | sign alone rest ih =>
    rw [malformedAt?, malformedAt?, malformedFrom?_sign (rest.lone alone), malformedFrom?_sign alone]
  | raw plain rest ih =>
    rw [malformedAt?, malformedAt?, malformedFrom?_cons_of_ne plain, malformedFrom?_cons_of_ne plain,
      malformedFrom?_eq_none_iff, malformedFrom?_eq_none_iff, ih]
  | writtenOut plain written rest ih =>
    rw [written.malformedAt?_append, ih]
    conv_rhs => rw [malformedAt?, malformedFrom?_cons_of_ne plain, malformedFrom?_eq_none_iff]

/-- All spellings are decoded alike. -/
theorem decode_eq_ok_iff {decoded : Text} : decode other = .ok decoded ↔ decode text = .ok decoded := by
  rw [Percent.decode_eq_ok_iff, Percent.decode_eq_ok_iff, same.malformedAt?_eq_none_iff, same.unescape_eq]

/-! ## Characters of a spelling -/

theorem forall_mem {P : Char → Prop} (sign : P '%') (digit : ∀ c n, digit? c = some n → P c)
    (each : ∀ c ∈ text, P c) : ∀ c ∈ other, P c := by
  induction same with
  | nil => exact each
  | escape digits rest ih =>
    simp only [List.forall_mem_cons] at each ⊢
    exact ⟨each.1, each.2.1, each.2.2.1, ih each.2.2.2⟩
  | sign alone rest ih =>
    rw [List.forall_mem_cons] at each ⊢
    exact ⟨each.1, ih each.2⟩
  | raw plain rest ih =>
    rw [List.forall_mem_cons] at each ⊢
    exact ⟨each.1, ih each.2⟩
  | writtenOut plain written rest ih =>
    rw [List.forall_mem_cons] at each
    exact List.forall_mem_append.mpr ⟨written.forall_mem sign digit, ih each.2⟩

theorem not_mem {mark : Char} (sign : mark ≠ '%') (digit : digit? mark = none) (absent : mark ∉ text) :
    mark ∉ other := by
  have others : ∀ c ∈ other, c ≠ mark := by
    refine same.forall_mem (P := (· ≠ mark)) sign.symm ?_ ?_
    · rintro c n value rfl
      rw [digit] at value
      cases value
    · rintro c member rfl
      exact absent member
  exact fun member => others mark member rfl

theorem solid_of_getLast? (solid : ∀ c ∈ text.getLast?, isEdgeBlank c = false) :
    ∀ c ∈ other.getLast?, isEdgeBlank c = false := by
  have sign : isEdgeBlank '%' = false := by decide
  induction same with
  | nil => exact solid
  | @escape high low b text other digits rest ih =>
    have inner := ih (Text.solid_of_getLast?_right ['%', high, low] solid)
    change ∀ d ∈ (['%', high, low] ++ other).getLast?, isEdgeBlank d = false
    apply Text.solid_of_getLast?_append inner
    rintro rfl
    rwa [rest.eq_nil] at solid
  | @sign text other alone rest ih =>
    have inner := ih (Text.solid_of_getLast?_right ['%'] solid)
    change ∀ d ∈ (['%'] ++ other).getLast?, isEdgeBlank d = false
    apply Text.solid_of_getLast?_append inner
    rintro -
    simpa using sign
  | @raw c text other plain rest ih =>
    have inner := ih (Text.solid_of_getLast?_right [c] solid)
    change ∀ d ∈ ([c] ++ other).getLast?, isEdgeBlank d = false
    apply Text.solid_of_getLast?_append inner
    rintro rfl
    rwa [rest.eq_nil] at solid
  | @writtenOut c spelled text other plain written rest ih =>
    have inner := ih (Text.solid_of_getLast?_right [c] solid)
    apply Text.solid_of_getLast?_append inner
    rintro - d final
    exact written.forall_mem sign (fun _ _ => isEdgeBlank_eq_false_of_digit?) d (List.mem_of_getLast? final)

/-- Writing characters out makes no blank. -/
theorem neatBehind (neat : NeatBehind text) : NeatBehind other where
  stays := same.forall_mem (by decide)
    (fun _ _ value => Text.isBreak_eq_false_of_solid (isEdgeBlank_eq_false_of_digit? value)) neat.stays
  last := same.solid_of_getLast? neat.last

end Respells

/-! ## Escaping as a spelling -/

theorem writtenOut_escapeBytes {escaped : EscapeSet} {bytes : Bytes} (each : ∀ b ∈ bytes, escaped b = true) :
    WrittenOut bytes (escapeBytes escaped bytes) := by
  induction bytes with
  | nil => exact .nil
  | cons b bytes ih =>
    rw [List.forall_mem_cons] at each
    rw [escapeBytes_cons, if_pos each.1]
    exact .cons (escaped?_digits b) (ih each.2)

/-- A character is written out by escaping, or stays as it is. -/
theorem escapeBytes_encodeChar_cases {escaped : EscapeSet} (wide : escaped.IsWide) (c : Char) :
    escapeBytes escaped (Utf8.encodeChar c) = [c] ∨
      WrittenOut (Utf8.encodeChar c) (escapeBytes escaped (Utf8.encodeChar c)) := by
  by_cases passes : c.toNat < 0x80 ∧ escaped (.ofNat c.toNat) = false
  · exact .inl (escapeBytes_encodeChar passes.1 passes.2)
  · right
    apply writtenOut_escapeBytes
    intro b member
    by_contra raw
    have passed : escaped b = false := Bool.eq_false_iff.mpr raw
    have small : c.toNat < 0x80 := by
      by_contra large
      have big := Utf8.le_of_mem_encodeChar (Nat.not_lt.mp large) member
      have bound := (wide b passed).2
      omega
    rw [Utf8.encodeChar_ascii small, List.mem_singleton] at member
    exact passes ⟨small, member ▸ passed⟩

/-- Escaping with a set that lets `%` and the digits through spells the text. -/
theorem respells_escape {escaped : EscapeSet} (wide : escaped.IsWide) (sign : escaped 0x25 = false)
    (digits : ∀ n < 0x80, (digit? (.ofNat n)).isSome = true → escaped (.ofNat (Char.ofNat n).toNat) = false)
    (text : Text) : Respells text (escape escaped text) := by
  have kept : ∀ (c : Char) (rest : Text), c.toNat < 0x80 → escaped (.ofNat c.toNat) = false →
      escape escaped (c :: rest) = c :: escape escaped rest := by
    intro c rest ascii raw
    rw [escape_cons, escapeBytes_encodeChar ascii raw]
    rfl
  have digit : ∀ {c n} (rest : Text), digit? c = some n → escape escaped (c :: rest) = c :: escape escaped rest := by
    intro c n rest value
    have raw : escaped (.ofNat c.toNat) = false := by
      apply forall_digit _ value
      exact digits
    exact kept c rest (bounds_of_digit? value).1 raw
  induction text using escape_induction with
  | nil => exact .nil
  | escape high low b rest named ih =>
    obtain ⟨⟨_, top⟩, ⟨_, bottom⟩⟩ := exists_digit?_of_escaped? named
    rw [kept '%' _ (by decide) sign, digit _ top, digit _ bottom]
    exact .escape named ih
  | sign rest lone ih =>
    rw [kept '%' _ (by decide) sign]
    exact .sign lone ih
  | plain c rest other ih =>
    rw [escape_cons]
    rcases escapeBytes_encodeChar_cases wide c with stays | written
    · rw [stays]
      exact .raw other ih
    · exact .writtenOut other written ih

end FileLocator.Percent
