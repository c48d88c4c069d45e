import FileLocator.Proofs.Locator.Encoding
import FileLocator.Proofs.Locator.Platforms

/-! # From a path to its locator and back

An absolute path has a locator whatever its bytes are. Where they are text the locator leads back to the same
place, through the same names; where they are not it says so. What the names hold does not matter, be it
marks that mean something in a URL or what looks like an escape.
-/

namespace FileLocator.Path

open Platform (other)

/-- The path that conversions work on. -/
theorem absolute?_of_isAbsolute (path : Path) {workingDirectory : Path}
    (rooted : workingDirectory.isAbsolute = true) :
    ∃ absolute, path.absolute? (some workingDirectory) = some absolute ∧ absolute.isAbsolute = true ∧
      absolute = if path.isAbsolute then path else workingDirectory.join path := by
  rw [absolute?]
  split
  · next already => exact ⟨path, rfl, already, rfl⟩
  · exact ⟨workingDirectory.join path, rfl, isAbsolute_join rooted, rfl⟩

/-- The locator of an absolute path that is text leads to the path through the same names. -/
theorem toPath_of_isText {locator : Locator} {absolute : Path} {closed : Bool} (file : locator.isFile = true)
    (whole : locator.query? = none) (text : locator.text = absolute.locatorText closed)
    (readable : Utf8.IsText absolute.bytes) (probe : Probe) :
    (locator.toPath other probe).value = .ok (.converted (absolute.rooted closed)) := by
  have spells := absolute.spells_locatorText closed
  rw [← text] at spells
  exact Locator.toPath_of_spells file whole spells (isText_rooted_iff.mpr readable) probe

theorem toPath_of_not_isText {locator : Locator} {absolute : Path} {closed : Bool}
    (file : locator.isFile = true)
    (whole : locator.query? = none) (text : locator.text = absolute.locatorText closed)
    (garbled : ¬ Utf8.IsText absolute.bytes) (probe : Probe) :
    ∃ fault, (locator.toPath other probe).value = .error (.undecodable locator.text (.notText fault)) := by
  have spells := absolute.spells_locatorText closed
  rw [← text] at spells
  have read := Locator.decoded_of_spells whole spells
  rw [← isText_rooted_iff, ← Utf8.isText_encode_append, Utf8.isText_iff] at garbled
  cases failed : Utf8.decode (Utf8.encode "file://".toList ++ (absolute.rooted closed).bytes) with
  | ok shown => exact absurd ⟨shown, failed⟩ garbled
  | error fault =>
    rw [failed] at read
    refine ⟨fault, ?_⟩
    rw [Locator.toPath, if_pos file, read]
    rfl

theorem text?_eq_some_iff {path : Path} {text : Text} :
    path.text? = some text ↔ path.bytes = Utf8.encode text := by
  rw [text?, ← Utf8.decode_eq_ok_iff]
  cases Utf8.decode path.bytes <;> simp

/-- A path comes back from its locator as the same place exactly when it is text; otherwise the locator can not
be decoded. -/
theorem toLocator_toPath (path workingDirectory : Path) (rooted : workingDirectory.isAbsolute = true)
    (probe back : Probe) :
    let absolute := if path.isAbsolute then path else workingDirectory.join path
    ∃ locator, (path.toLocator probe (some workingDirectory)).value = .converted locator ∧
      match absolute.text? with
      | some _ =>
        ∃ found, (locator.toPath other back).value = .ok (.converted found) ∧ found.same absolute = true
      | none =>
        ∃ fault, (locator.toPath other back).value = .error (.undecodable locator.text (.notText fault)) := by
  obtain ⟨absolute, made, absolutely, same⟩ := absolute?_of_isAbsolute path rooted
  rw [← same]
  obtain ⟨locator, read, text, file, whole⟩ := absolute.parse_locatorText (probe.directory absolute)
  refine ⟨locator, toLocator_value made absolutely probe read, ?_⟩
  cases shown : absolute.text? with
  | some shown' =>
    have readable : Utf8.IsText absolute.bytes := ⟨shown', text?_eq_some_iff.mp shown⟩
    exact ⟨_, toPath_of_isText file whole text readable back, same_rooted absolutely _⟩
  | none =>
    have garbled : ¬ Utf8.IsText absolute.bytes := by
      rintro ⟨other, bytes⟩
      rw [text?_eq_some_iff.mpr bytes] at shown
      cases shown
    exact toPath_of_not_isText file whole text garbled back

theorem toLocator_toPath_relative : ∃ locator,
    ((ofText "a+b %20?#".toList).toLocator (.ofPresence fun _ => false) (some (ofText "/tmp".toList))).value =
      .converted locator ∧
    ∃ found, (locator.toPath other (.ofPresence fun _ => true)).value = .ok (.converted found) ∧
      found.same (ofText "/tmp/a+b %20?#".toList) = true :=
  toLocator_toPath (ofText "a+b %20?#".toList) (ofText "/tmp".toList) (by decide) _ _

end FileLocator.Path
