import FileLocator.Proofs.Locator.Parents

/-! # How a parent is written

A parent is written as its locator is up to the last slash, and that slash is kept only behind the mark of an archive.
Reading drops the blanks that come up at the end, and they are part of the last name that is left. So the text of a
parent is the text in front of the slash exactly if no blank stands there, and where nothing but blanks stands between
the mark of an archive and the slash, the parent is the bare mark (`parent_text`).
-/

namespace FileLocator

namespace Text

theorem trimEnd_eq_self_iff {text : Text} :
    trimEnd isEdgeBlank text = text ↔ ∀ c ∈ text.getLast?, isEdgeBlank c = false := by
  constructor
  · intro same c final
    rw [← same] at final
    exact solid_of_getLast?_trimEnd final
  · exact trimEnd_eq_self

/-- Trimmed text ends in the last character that is not blank. -/
theorem getLast?_trimEnd_iff {text : Text} {c : Char} :
    (trimEnd isEdgeBlank text).getLast? = some c ↔
      isEdgeBlank c = false ∧ ∃ front blanks, text = front ++ c :: blanks ∧ ∀ b ∈ blanks, isEdgeBlank b = true := by
  constructor
  · intro final
    refine ⟨solid_of_getLast?_trimEnd final, ?_⟩
    obtain ⟨front, kept⟩ := List.getLast?_eq_some_iff.mp final
    refine ⟨front, text.rtakeWhile isEdgeBlank, ?_, fun b => List.mem_rtakeWhile_imp⟩
    calc
      text = text.rdropWhile isEdgeBlank ++ text.rtakeWhile isEdgeBlank :=
        (List.rdropWhile_append_rtakeWhile ..).symm
      _ = front ++ [c] ++ text.rtakeWhile isEdgeBlank := by rw [← trimEnd_eq_rdropWhile, kept]
      _ = front ++ c :: text.rtakeWhile isEdgeBlank := by simp
  · rintro ⟨solid, front, blanks, rfl, loose⟩
    rw [trimEnd_append isEdgeBlank front c blanks solid loose]
    exact List.getLast?_concat

end Text

namespace Locator

open Text (isEdgeBlank trimEnd)

section Cut

variable {locator above : Locator} {rest before after : Text} (rereads : locator.Rereads rest)
  (text : locator.text = before ++ '/' :: after)

include rereads text

/-- A slash in the text of a locator stands behind the scheme. -/
theorem Rereads.exists_front :
    ∃ front, before = locator.scheme ++ ':' :: front ∧ rest = front ++ '/' :: after := by
  have slashless : '/' ∉ locator.scheme ++ [':'] := List.not_mem_append (rereads.proper.not_mem rfl) (by decide)
  have begins : locator.scheme ++ [':'] <+: before ++ '/' :: after := by
    rw [← text, rereads.text]
    exact ⟨rest, by simp⟩
  obtain ⟨front, rfl⟩ := Text.isPrefix_of_append_cons slashless begins
  have whole : locator.text = locator.scheme ++ ':' :: (front ++ '/' :: after) := by simpa using text
  exact ⟨front, by simp, rereads.eq_of_text whole⟩

theorem Rereads.parent_text_eq (final : '/' ∉ after) (made : locator.parent = .ok above) :
    above.text = if before.getLast? = some '!' then before ++ ['/'] else trimEnd isEdgeBlank before := by
  obtain ⟨front, rfl, shape⟩ := rereads.exists_front text
  rw [rereads.parent_eq shape final] at made
  have written := ((parse_behind_eq_ok_iff rereads.proper).mp made).2
  have ends : (locator.scheme ++ ':' :: front).getLast? = some '!' ↔ front.getLast? = some '!' :=
    getLast?_behind_iff (by decide)
  by_cases archive : front.getLast? = some '!'
  · rw [if_pos (ends.mpr archive), written, rereads.cleanBehind_entered_of_archive shape archive]
    simp
  · have trimmed : trimEnd isEdgeBlank (locator.scheme ++ ':' :: front) =
        locator.scheme ++ ':' :: trimEnd isEdgeBlank front := by
      simpa using Text.trimEnd_append_of_solid rereads.proper.neat_lead.last front
    rw [if_neg (ends.not.mpr archive), written, rereads.cleanBehind_entered_of_ne shape archive, trimmed]

end Cut

/-- A parent is written as the text in front of the last slash, with that slash behind the mark of an archive, exactly
if no blank stands in front of the slash. It ends in the bare mark exactly if blanks alone stand between the two. -/
theorem parent_text {locator above : Locator} (reachable : Reachable Url.IsRead locator) {before after : Text}
    (text : locator.text = before ++ '/' :: after) (final : '/' ∉ after) (made : locator.parent = .ok above) :
    above.text = (if before.getLast? = some '!' then before ++ ['/'] else trimEnd isEdgeBlank before) ∧
      (above.text = (if before.getLast? = some '!' then before ++ ['/'] else before) ↔
        ∀ c ∈ before.getLast?, isEdgeBlank c = false) ∧
      (above.text.getLast? = some '!' ↔
        ∃ front blanks, before = front ++ '!' :: blanks ∧ blanks ≠ [] ∧ ∀ c ∈ blanks, isEdgeBlank c = true) := by
  obtain ⟨rest, rereads⟩ := reachable.exists_rereads
  have written := rereads.parent_text_eq text final made
  by_cases archive : before.getLast? = some '!'
  · simp only [if_pos archive] at written ⊢
    refine ⟨written, iff_of_true written ?_, iff_of_false (by simp [written]) ?_⟩
    · rw [archive]
      rintro c ⟨⟩
      rfl
    · rintro ⟨front, blanks, rfl, nonempty, loose⟩
      have last : blanks.getLast? = some '!' := by
        rwa [List.getLast?_append_cons, List.getLast?_cons_of_ne_nil nonempty] at archive
      exact absurd (loose '!' (List.mem_of_getLast? last)) (by decide)
  · simp only [if_neg archive] at written ⊢
    refine ⟨written, written ▸ Text.trimEnd_eq_self_iff, ?_⟩
    rw [written, Text.getLast?_trimEnd_iff]
    constructor
    · rintro ⟨-, front, blanks, rfl, loose⟩
      refine ⟨front, blanks, rfl, ?_, loose⟩
      rintro rfl
      exact archive List.getLast?_concat
    · rintro ⟨front, blanks, rfl, -, loose⟩
      exact ⟨rfl, front, blanks, rfl, loose⟩

/-- A blank in the name of the directory in front of the last slash, and the parent that has lost it. -/
theorem parent_text_blank : ∃ locator above, parse "file:///a.zip!/b \u001f/c".toList = .ok locator ∧
    locator.text = "file:///a.zip!/b \u001f".toList ++ '/' :: ['c'] ∧ '/' ∉ ['c'] ∧ locator.parent = .ok above ∧
    above.text = "file:///a.zip!/b".toList := by
  have runs : ∃ locator above, parse "file:///a.zip!/b \u001f/c".toList = .ok locator ∧
      locator.text = "file:///a.zip!/b \u001f".toList ++ '/' :: ['c'] ∧ locator.parent = .ok above :=
    ⟨_, _, rfl, rfl, rfl⟩
  obtain ⟨locator, above, read, text, made⟩ := runs
  have slashless : '/' ∉ ['c'] := by decide
  have left := (parent_text (.parse read) text slashless made).1
  exact ⟨locator, above, read, text, slashless, made, left.trans (by decide)⟩

/-- The mark of an archive and a blank: the parent of what stands behind the slash is the bare mark. -/
theorem parent_text_bare_mark : ∃ locator above, parse "file:/a.zip! /b".toList = .ok locator ∧
    locator.text = "file:/a.zip! ".toList ++ '/' :: ['b'] ∧ '/' ∉ ['b'] ∧ locator.parent = .ok above ∧
    above.text = "file:/a.zip!".toList ∧ above.text.getLast? = some '!' :=
  ⟨_, _, rfl, rfl, by decide, rfl, rfl, rfl⟩

end Locator

end FileLocator
