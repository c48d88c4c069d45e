import FileLocator.Proofs.Locator.Platforms

/-! # When a share is asked for

Windows looks for a share when the decoded text names a host. In the text as it is written this means two
slashes behind `file:`, each of them possibly escaped, and then something else than a slash (`OpensShare`).
The URL has no say in it: it may be without a host where the text opens a share.
-/

namespace FileLocator.Percent

/-- The text behind a slash that stands first, as it is or escaped. -/
def skipSlash? : Text → Option Text
  | '/' :: rest => some rest
  | '%' :: '2' :: 'F' :: rest => some rest
  | '%' :: '2' :: 'f' :: rest => some rest
  | _ => none

theorem eq_of_digit?_fifteen {c : Char} (value : digit? c = some 15) : c = 'F' ∨ c = 'f' := by
  have ascii := (bounds_of_digit? value).1
  revert value
  apply Text.forall_ascii _ ascii
  decide +kernel

/-- The slash has two escapes. -/
theorem escaped?_eq_slash_iff {high low : Char} :
    escaped? high low = some 0x2F ↔ high = '2' ∧ (low = 'F' ∨ low = 'f') := by
  constructor
  · intro digits
    obtain ⟨top, bottom⟩ := digits_of_escaped? digits
    exact ⟨eq_digit_of_digit? top (by decide), eq_of_digit?_fifteen bottom⟩
  · rintro ⟨rfl, rfl | rfl⟩ <;> rfl

theorem decode_of_skipSlash? {text rest decoded : Text} (skipped : skipSlash? text = some rest) :
    decode text = .ok decoded ↔ ∃ others, decoded = '/' :: others ∧ decode rest = .ok others := by
  rw [skipSlash?.eq_def] at skipped
  split at skipped
  · cases skipped
    exact decode_cons_of_ne (by decide)
  · cases skipped
    exact decode_escape_ascii (by decide) rfl
  · cases skipped
    exact decode_escape_ascii (by decide) rfl
  · cases skipped

/-- A slash that comes first in decoded text is one in the text, as it is or escaped. -/
theorem isSome_skipSlash?_of_decode {text decoded : Text} (read : decode text = .ok ('/' :: decoded)) :
    ∃ rest, skipSlash? text = some rest ∧ decode rest = .ok decoded := by
  induction text using escape_induction with
  | nil => cases read
  | escape high low b rest digits ih =>
    have bytes := (decode_eq_ok_iff.mp read).2
    rw [unescape_escape digits, Utf8.encode_cons] at bytes
    obtain rfl : b = 0x2F := (List.cons.inj bytes).1
    obtain ⟨rfl, low⟩ := escaped?_eq_slash_iff.mp digits
    obtain ⟨others, same, inner⟩ := (decode_escape_ascii (c := '/') (by decide) digits).mp read
    obtain ⟨-, rfl⟩ := List.cons.inj same
    rcases low with rfl | rfl
    · exact ⟨rest, rfl, inner⟩
    · exact ⟨rest, rfl, inner⟩
  | sign rest lone ih =>
    have formed := (decode_eq_ok_iff.mp read).1
    rw [malformedAt?, malformedFrom?_sign lone] at formed
    cases formed
  | plain c rest other ih =>
    obtain ⟨others, same, inner⟩ := (decode_cons_of_ne other).mp read
    obtain ⟨rfl, rfl⟩ := List.cons.inj same
    exact ⟨rest, rfl, inner⟩

/-- Decoded text begins with something else than a slash when the text does. -/
theorem decode_eq_solid_iff {text : Text} :
    (∃ first rest, first ≠ '/' ∧ decode text = .ok (first :: rest)) ↔
      (∃ decoded, decode text = .ok decoded) ∧ text ≠ [] ∧ skipSlash? text = none := by
  constructor
  · rintro ⟨first, rest, differs, read⟩
    refine ⟨⟨_, read⟩, ?_, ?_⟩
    · rintro rfl
      cases read
    · cases skipped : skipSlash? text with
      | none => rfl
      | some behind =>
        obtain ⟨others, same, -⟩ := (decode_of_skipSlash? skipped).mp read
        exact absurd (List.cons.inj same).1 differs
  · rintro ⟨⟨decoded, read⟩, nonempty, solid⟩
    cases decoded with
    | nil => exact absurd (eq_nil_of_decode read) nonempty
    | cons first rest =>
      refine ⟨first, rest, ?_, read⟩
      rintro rfl
      obtain ⟨behind, skipped, -⟩ := isSome_skipSlash?_of_decode read
      rw [solid] at skipped
      cases skipped

end FileLocator.Percent

namespace FileLocator.Locator

open Percent (skipSlash?)
open Platform (windows)

/-- Behind `file:` and two slashes, each of which may be escaped, there is something else than a slash. -/
def OpensShare (text : Text) : Prop :=
  ∃ first second rest, text = "file:".toList ++ first ∧ skipSlash? first = some second ∧
    skipSlash? second = some rest ∧ rest ≠ [] ∧ skipSlash? rest = none

/-- A named host is one that the text opens a share for. -/
theorem Reachable.namesHost_iff {locator : Locator}
    (reachable : Reachable (fun url => Url.Scheme.IsProper url.scheme) locator) :
    locator.NamesHost ↔ (∃ text, locator.decoded = .ok text) ∧ OpensShare locator.beforeQuery := by
  have plain : '%' ∉ "file:".toList := by decide
  constructor
  · rintro ⟨first, rest, differs, read⟩
    have file : locator.scheme = "file".toList := by
      have file := reachable.isFile_of_decoded read
      rwa [isFile, beq_iff_eq] at file
    obtain ⟨behind, before⟩ := reachable.beforeQuery_eq
    rw [file] at before
    have inner : Percent.decode behind = .ok ('/' :: '/' :: first :: rest) := by
      have whole := decoded_eq_ok_iff.mp read
      rw [before] at whole
      obtain ⟨others, same, inner⟩ := (Percent.decode_append_of_not_mem plain).mp whole
      have shape : "file://".toList ++ first :: rest = "file:".toList ++ '/' :: '/' :: first :: rest := rfl
      rw [shape] at same
      rw [inner, List.append_cancel_left same]
    obtain ⟨second, skipped, inner⟩ := Percent.isSome_skipSlash?_of_decode inner
    obtain ⟨last, skipped', behind⟩ := Percent.isSome_skipSlash?_of_decode inner
    obtain ⟨-, nonempty, solid⟩ := Percent.decode_eq_solid_iff.mp ⟨first, rest, differs, behind⟩
    exact ⟨⟨_, read⟩, _, second, last, before, skipped, skipped', nonempty, solid⟩
  · rintro ⟨⟨text, read⟩, behind, second, last, before, skipped, skipped', nonempty, solid⟩
    have whole := decoded_eq_ok_iff.mp read
    rw [before] at whole
    obtain ⟨afterColon, rfl, inner⟩ := (Percent.decode_append_of_not_mem plain).mp whole
    obtain ⟨afterFirst, rfl, inner'⟩ := (Percent.decode_of_skipSlash? skipped).mp inner
    obtain ⟨afterSecond, rfl, inner''⟩ := (Percent.decode_of_skipSlash? skipped').mp inner'
    obtain ⟨first, rest, differs, end'⟩ := Percent.decode_eq_solid_iff.mpr ⟨⟨_, inner''⟩, nonempty, solid⟩
    rw [inner''] at end'
    rw [Except.ok.inj end'] at read
    exact ⟨first, rest, differs, read⟩

theorem independent_of_runs {locator : Locator} {run : Traced (Except LocatorError PathOutcome)}
    (quiet : run.questions = []) (runs : ∀ probe, locator.toPath windows probe = run) :
    (∀ probe, (locator.toPath windows probe).questions = []) ∧
      ∀ probe probe', (locator.toPath windows probe).value = (locator.toPath windows probe').value := by
  constructor
  · intro probe
    rw [runs, quiet]
  · intro probe probe'
    rw [runs, runs]

/-- A conversion on Windows asks nothing, and its result does not depend on the probe, exactly when the text
opens no share or can not be decoded. -/
theorem toPath_independent_iff {locator : Locator}
    (reachable : Reachable (fun url => Url.Scheme.IsProper url.scheme) locator) (file : locator.isFile = true) :
    ((∀ probe, (locator.toPath windows probe).questions = []) ↔
      ¬ ((∃ text, locator.decoded = .ok text) ∧ OpensShare locator.beforeQuery)) ∧
    ((∀ probe probe', (locator.toPath windows probe).value = (locator.toPath windows probe').value) ↔
      ¬ ((∃ text, locator.decoded = .ok text) ∧ OpensShare locator.beforeQuery)) := by
  rw [← reachable.namesHost_iff]
  cases locator.course with
  | foreign unlike runs =>
    rw [file] at unlike
    cases unlike
  | undecodable fault nameless runs =>
    obtain ⟨quiet, same⟩ := independent_of_runs rfl (runs windows)
    exact ⟨iff_of_true quiet nameless, iff_of_true same nameless⟩
  | direct raw nameless runs =>
    obtain ⟨quiet, same⟩ := independent_of_runs rfl (runs windows)
    exact ⟨iff_of_true quiet nameless, iff_of_true same nameless⟩
  | sharing raw named plain asks =>
    constructor
    · refine iff_of_false ?_ (not_not.mpr named)
      intro quiet
      have asked := quiet (.ofPresence fun _ => true)
      rw [asks] at asked
      cases asked
    · refine iff_of_false ?_ (not_not.mpr named)
      intro same
      have values := same (.ofPresence fun _ => true) (.ofPresence fun _ => false)
      rw [asks, asks] at values
      exact Platform.nativePath_slashes_ne raw (PathOutcome.converted.inj (Except.ok.inj values))

theorem toPath_independent_drive : ∃ locator, parse "file:///C:/a.shp".toList = .ok locator ∧
    locator.isFile = true ∧ ∀ probe, (locator.toPath windows probe).questions = [] := by
  have read : parse "file:///C:/a.shp".toList = .ok _ := rfl
  refine ⟨_, read, rfl, (toPath_independent_iff (.parse read) rfl).1.mpr ?_⟩
  rintro ⟨-, first, second, rest, text, skipped, skipped', -, solid⟩
  cases text
  cases skipped
  cases skipped'
  cases solid

/-- A locator whose URL has no host opens a share by an escaped slash. -/
theorem toPath_asks_without_host : ∃ locator, parse "file:/%2Fserver/share/a.shp".toList = .ok locator ∧
    locator.isFile = true ∧ locator.host? = none ∧
    (locator.toPath windows (.ofPresence fun _ => true)).value =
      .ok (.converted (.ofText "\\\\server\\share\\a.shp".toList)) ∧
    (locator.toPath windows (.ofPresence fun _ => false)).value =
      .ok (.converted (.ofText "server\\share\\a.shp".toList)) ∧
    (locator.toPath windows (.ofPresence fun _ => false)).questions =
      [.presence (.ofText "\\\\server\\share\\a.shp".toList)] :=
  ⟨_, rfl, rfl, rfl, rfl, rfl, rfl⟩

end FileLocator.Locator
