import FileLocator.Locator.ToPath
import FileLocator.Proofs.Locator.Reading
import FileLocator.Proofs.Respelling

/-! # The decoded text of a locator

Escaping the plus signs first spells the same text, so it changes nothing about what is decoded. The
scheme and its colon come through unchanged, so decoded text that begins with `file:` belongs to a `file`
locator.
-/

namespace FileLocator.Locator

open Percent (escaped? decode)

/-! ## Plus signs -/

theorem escapePlus_cons_of_ne {c : Char} (other : c ≠ '+') (rest : Text) :
    escapePlus (c :: rest) = c :: escapePlus rest := by
  rw [escapePlus, List.flatMap_cons, if_neg other]
  rfl

/-- Escaping the plus signs is one way to spell the text. -/
theorem respells_escapePlus (text : Text) : Percent.Respells text (escapePlus text) := by
  have plus : ∀ {c : Char} {n : Nat}, Percent.digit? c = some n → c ≠ '+' := by
    rintro c n value rfl
    cases value
  induction text using Percent.escape_induction with
  | nil => exact .nil
  | escape high low b rest digits ih =>
    obtain ⟨⟨_, top⟩, ⟨_, bottom⟩⟩ := Percent.exists_digit?_of_escaped? digits
    rw [escapePlus_cons_of_ne (by decide), escapePlus_cons_of_ne (plus top), escapePlus_cons_of_ne (plus bottom)]
    exact .escape digits ih
  | sign rest lone ih =>
    rw [escapePlus_cons_of_ne (by decide)]
    exact .sign lone ih
  | plain c rest other ih =>
    by_cases same : c = '+'
    · subst same
      have digits : escaped? '2' 'B' = some 0x2B := rfl
      exact .writtenOut other (.cons digits .nil) ih
    · rw [escapePlus_cons_of_ne same]
      exact .raw other ih

/-- Escaping the plus signs changes nothing about the decoded text. -/
theorem decode_escapePlus_eq_ok_iff {text decoded : Text} :
    decode (escapePlus text) = .ok decoded ↔ decode text = .ok decoded :=
  (respells_escapePlus text).decode_eq_ok_iff

theorem decoded_eq_ok_iff {locator : Locator} {text : Text} :
    locator.decoded = .ok text ↔ decode locator.beforeQuery = .ok text := decode_escapePlus_eq_ok_iff

theorem spells_escapePlus {text : Text} {bytes : Utf8.Bytes} (spells : Percent.Spells text bytes) :
    Percent.Spells (escapePlus text) bytes where
  formed := (respells_escapePlus text).malformedAt?_eq_none_iff.mpr spells.formed
  bytes := by rw [(respells_escapePlus text).unescape_eq, spells.bytes]

theorem decoded_of_spells {locator : Locator} (whole : locator.query? = none) {bytes : Utf8.Bytes}
    (spells : Percent.Spells locator.text bytes) : locator.decoded = (Utf8.decode bytes).mapError .notText := by
  rw [decoded, beforeQuery, whole]
  exact Percent.decode_of_spells (spells_escapePlus spells)

/-! ## The scheme in front -/

/-- The query is cut off behind what comes before the first question mark. -/
theorem isPrefix_beforeQuery {locator : Locator} {front : Text} (absent : '?' ∉ front)
    (begins : front <+: locator.text) : front <+: locator.beforeQuery := by
  rw [beforeQuery]
  split
  · obtain ⟨rest, text⟩ := begins
    rw [← text, Text.takeWhile_append_of_not_mem absent]
    exact List.prefix_append ..
  · exact begins

/-- A beginning without escapes comes through when the text is decoded. -/
theorem isPrefix_of_decoded {locator : Locator} {front : Text} (absent : '?' ∉ front) (plain : '%' ∉ front)
    (begins : front <+: locator.text) {text : Text} (read : locator.decoded = .ok text) : front <+: text := by
  obtain ⟨behind, before⟩ := isPrefix_beforeQuery absent begins
  rw [decoded_eq_ok_iff, ← before, Percent.decode_append_of_not_mem plain] at read
  obtain ⟨others, rfl, -⟩ := read
  exact List.prefix_append ..

/-- Text without a question mark is decoded as a whole. -/
theorem beforeQuery_of_not_mem {locator : Locator} (absent : '?' ∉ locator.text) :
    locator.beforeQuery = locator.text := by
  rw [beforeQuery]
  split
  · have whole := Text.takeWhile_append_of_not_mem absent []
    rwa [List.append_nil, List.takeWhile_nil, List.append_nil] at whole
  · rfl

theorem beforeQuery_of_append {locator : Locator} {front behind : Text} (absent : '?' ∉ front)
    (text : locator.text = front ++ '?' :: behind) (asks : locator.query?.isSome = true) :
    locator.beforeQuery = front := by
  rw [beforeQuery, if_pos asks, text, Text.takeWhile_append_of_not_mem absent,
    List.takeWhile_cons_of_neg (by decide), List.append_nil]

namespace Reachable

variable {locator : Locator} (reachable : Reachable (fun url => Url.Scheme.IsProper url.scheme) locator)

include reachable

/-- The text of a locator that comes up begins with its scheme. -/
theorem text_eq :
    Url.Scheme.IsProper locator.scheme ∧ ∃ rest, locator.text = locator.scheme ++ ':' :: rest := by
  rcases reachable.origin with ⟨written, read⟩ | ⟨url, proper, rfl⟩
  · obtain ⟨name, rest, -, -, valid, scheme, text⟩ := text_of_parse read
    refine ⟨?_, rest, text⟩
    rw [scheme]
    exact valid.isProper_map_toLower
  · exact ⟨proper, _, Url.href_eq url⟩

theorem isPrefix_text : locator.scheme ++ [':'] <+: locator.text := by
  obtain ⟨-, rest, text⟩ := reachable.text_eq
  exact ⟨rest, by rw [text, List.append_assoc]; rfl⟩

theorem not_mem_lead {mark : Char} (other : Url.Scheme.isSchemeChar mark = false) (apart : mark ≠ ':') :
    mark ∉ locator.scheme ++ [':'] := by
  rw [List.mem_append, not_or, List.mem_singleton]
  exact ⟨reachable.text_eq.1.not_mem other, apart⟩

theorem beforeQuery_eq : ∃ rest, locator.beforeQuery = locator.scheme ++ ':' :: rest := by
  have absent : '?' ∉ locator.scheme ++ [':'] := reachable.not_mem_lead rfl (by decide)
  obtain ⟨others, before⟩ := isPrefix_beforeQuery absent reachable.isPrefix_text
  exact ⟨others, by rw [← before, List.append_assoc]; rfl⟩

/-- Decoding leaves the scheme and its colon in front. -/
theorem decoded_eq {text : Text} (read : locator.decoded = .ok text) :
    ∃ rest, text = locator.scheme ++ ':' :: rest := by
  have absent : '?' ∉ locator.scheme ++ [':'] := reachable.not_mem_lead rfl (by decide)
  have plain : '%' ∉ locator.scheme ++ [':'] := reachable.not_mem_lead rfl (by decide)
  obtain ⟨others, rfl⟩ := isPrefix_of_decoded absent plain reachable.isPrefix_text read
  exact ⟨others, List.append_assoc ..⟩

/-- Text that begins with `file:` is that of a `file` locator. -/
theorem isFile_of_text {rest : Text} (text : locator.text = "file:".toList ++ rest) : locator.isFile = true := by
  obtain ⟨proper, behind, same⟩ := reachable.text_eq
  have shape : locator.scheme ++ ':' :: behind = "file".toList ++ ':' :: rest := by
    rw [← same, text]
    rfl
  obtain ⟨scheme, -⟩ := Text.append_cons_inj (proper.not_mem rfl) (by decide) shape
  rw [isFile, scheme]
  rfl

theorem isFile_of_decoded {rest : Text} (read : locator.decoded = .ok ("file:".toList ++ rest)) :
    locator.isFile = true := by
  obtain ⟨behind, same⟩ := reachable.decoded_eq read
  have shape : locator.scheme ++ ':' :: behind = "file".toList ++ ':' :: rest := same.symm
  obtain ⟨scheme, -⟩ := Text.append_cons_inj (reachable.text_eq.1.not_mem rfl) (by decide) shape
  rw [isFile, scheme]
  rfl

end Reachable

end FileLocator.Locator
