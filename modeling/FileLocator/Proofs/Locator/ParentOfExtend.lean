import FileLocator.Proofs.Locator.Parents

/-! # Cutting off what was appended

A segment is appended behind a slash, and without slashes of its own it is what the next cut takes away
(`parent_of_extend`), whatever is dropped from it when the text is cleaned. What is left is the text that the segment
was appended to, without the slash between them unless that marks the inside of an archive.
-/

namespace FileLocator.Locator

open Text (cleanBehind isEdgeBlank)

/-- Text without the slash that it ends in. -/
def opened (text : Text) : Text := if text.getLast? = some '/' then text.dropLast else text

theorem closed_eq (text : Text) : closed text = opened text ++ ['/'] := by
  rw [closed, opened]
  by_cases ends : text.getLast? = some '/'
  · obtain ⟨init, rfl⟩ := List.getLast?_eq_some_iff.mp ends
    rw [if_pos ends, if_pos ends, List.dropLast_concat]
  · rw [if_neg ends, if_neg ends]

theorem eq_opened_or (text : Text) : text = opened text ∨ text = opened text ++ ['/'] := by
  by_cases ends : text.getLast? = some '/'
  · right
    rw [← closed_eq, closed, if_pos ends]
  · left
    rw [opened, if_neg ends]

theorem opened_behind (scheme rest : Text) : opened (scheme ++ ':' :: rest) = scheme ++ ':' :: opened rest := by
  have same : (scheme ++ ':' :: rest).getLast? = some '/' ↔ rest.getLast? = some '/' :=
    getLast?_behind_iff (by decide)
  rw [opened, opened]
  by_cases ends : rest.getLast? = some '/'
  · rw [if_pos (same.mpr ends), if_pos ends]
    obtain ⟨init, rfl⟩ := List.getLast?_eq_some_iff.mp ends
    rw [← List.cons_append, ← List.append_assoc, List.dropLast_concat, List.dropLast_concat]
  · rw [if_neg (same.not.mpr ends), if_neg ends]

section Extended

variable {base : Locator} {rest : Text} (rereads : base.Rereads rest)

include rereads

/-- The text that something is appended to holds more than slashes behind the scheme of a network. -/
theorem Rereads.begun_opened : Url.Begun (Url.Kind.ofScheme base.scheme) (opened rest) := by
  intro network
  obtain ⟨c, member, solid⟩ := rereads.readable.begun network
  refine ⟨c, ?_, solid⟩
  rcases eq_opened_or rest with same | same
  · rwa [← same]
  · rw [same, List.mem_append, List.mem_singleton] at member
    refine member.resolve_right ?_
    rintro rfl
    rw [Url.Kind.isSlash_slash] at solid
    cases solid

theorem Rereads.neatBehind_closed : Text.NeatBehind (opened rest ++ ['/']) := by
  apply Text.neatBehind_append_slash
  intro c member
  apply rereads.neat.stays
  rcases eq_opened_or rest with same | same
  · rwa [same]
  · rw [same]
    exact List.mem_append_left _ member

/-- An extended locator is read again, with what cleaning leaves of the segment behind the slash. -/
theorem Rereads.of_extend {segment : Text} {extended : Locator}
    (made : extend (some base) (some segment) = .ok extended) :
    extended.scheme = base.scheme ∧ extended.Rereads (opened rest ++ '/' :: cleanBehind segment) := by
  have text : closed base.text ++ segment = base.scheme ++ ':' :: (opened rest ++ ['/'] ++ segment) := by
    rw [closed_eq, rereads.text, opened_behind]
    simp only [List.append_assoc, List.cons_append]
  have read : parse (base.scheme ++ ':' :: (opened rest ++ ['/'] ++ segment)) = .ok extended := by
    rw [← text]
    exact made
  have again := rereads_of_parse_behind rereads.proper read
  rwa [Text.cleanBehind_append rereads.neatBehind_closed, List.append_assoc] at again

end Extended

/-- The parent of an extended locator is read from the text that the segment was appended to, without the slash
between them unless it marks the inside of an archive. -/
theorem parent_of_extend {base : Locator} (reachable : Reachable Url.IsRead base) {segment : Text}
    (slashless : '/' ∉ segment) (solid : ∀ c ∈ (opened base.text).getLast?, isEdgeBlank c = false)
    {extended : Locator} (made : extend (some base) (some segment) = .ok extended) :
    ∃ above, extended.parent = .ok above ∧
      above.text =
        if (opened base.text).getLast? = some '!' then opened base.text ++ ['/'] else opened base.text := by
  obtain ⟨rest, rereads⟩ := reachable.exists_rereads
  obtain ⟨scheme, again⟩ := rereads.of_extend made
  have final : '/' ∉ cleanBehind segment := fun member =>
    slashless ((isPrefix_trimEnd segment).subset (List.mem_of_mem_filter member))
  rw [rereads.text, opened_behind] at solid ⊢
  have ends : ∀ c ∈ (opened rest).getLast?, isEdgeBlank c = false :=
    Text.solid_of_getLast?_right (base.scheme ++ [':']) (by rwa [List.append_assoc])
  have begun := rereads.begun_opened
  rw [← scheme] at begun
  obtain ⟨above, read⟩ := (exists_parse_behind_iff again.proper).mpr (again.readable_entered rfl begun (.inr ends))
  refine ⟨above, (again.parent_eq rfl final).trans read, ?_⟩
  rw [((parse_behind_eq_ok_iff again.proper).mp read).2]
  change _ = entered (base.scheme ++ ':' :: opened rest)
  rw [entered_behind, scheme]
  congr 2
  by_cases archive : (opened rest).getLast? = some '!'
  · rw [again.cleanBehind_entered_of_archive rfl archive, entered_eq_append archive]
  · rw [again.cleanBehind_entered_of_ne rfl archive, entered_eq_self archive, Text.trimEnd_eq_self ends]

/-- A segment of which cleaning leaves a question mark, inside of an archive. -/
theorem parent_of_extend_archive : ∃ base extended above, parse "jar:file:/a.zip!/".toList = .ok base ∧
    '/' ∉ "\t?\n ".toList ∧ (∀ c ∈ (opened base.text).getLast?, isEdgeBlank c = false) ∧
    extend (some base) (some "\t?\n ".toList) = .ok extended ∧ extended.text = "jar:file:/a.zip!/?".toList ∧
    extended.parent = .ok above ∧ above.text = "jar:file:/a.zip!/".toList := by
  have runs : ∃ base extended, parse "jar:file:/a.zip!/".toList = .ok base ∧ base.text = "jar:file:/a.zip!/".toList ∧
      extend (some base) (some "\t?\n ".toList) = .ok extended ∧ extended.text = "jar:file:/a.zip!/?".toList :=
    ⟨_, _, rfl, rfl, rfl, rfl⟩
  obtain ⟨base, extended, read, text, made, shown⟩ := runs
  have slashless : '/' ∉ "\t?\n ".toList := by decide
  have solid : ∀ c ∈ (opened base.text).getLast?, isEdgeBlank c = false := by
    rw [text]
    rintro c ⟨⟩
    rfl
  obtain ⟨above, parent, left⟩ := parent_of_extend (.parse read) slashless solid made
  rw [text] at left
  exact ⟨base, extended, above, read, slashless, solid, made, shown, parent, left⟩

end FileLocator.Locator
