import FileLocator.Proofs.Locator.Encoding

/-! # The locator of a path is canonical

Every path is encoded unless it is relative and there is no working directory, and no more is asked for it than
whether it is a directory (`Encodes`). Two paths from the root have the same text just if they pass through the same
names and both or neither are taken for a directory (`locatorText_eq_iff`), for the text spells the names back. A
parser of URLs escapes nothing in the text once more, and it would resolve no name but one of two dots, so the text
is the normal form of its URL (`href_rootUrl_of_locatorText`).
-/

namespace FileLocator

namespace Path

open Percent (escapeBytes unescape)
open Utf8 (Bytes)

/-! ## Every path is encoded -/

/-- What comes of a path that is encoded by way of an absolute one. -/
structure Encodes (given absolute : Path) (probe : Probe) (run : Traced LocatorOutcome) (locator : Locator) :
    Prop where
  value : run.value = .converted locator
  /-- Whether there is a directory is asked of the absolute path as it is written, and nothing else is asked. -/
  questions : run.questions = [.directory absolute]
  records : run.records = [.encoded given locator.text]
  /-- Each name is escaped behind a slash, and a directory and the root end in one. -/
  text : locator.text = absolute.locatorText (probe.directory absolute)
  body : ∃ body, locator.text = "file://".toList ++ body ∧ IsEncoded body
  scheme : locator.scheme = "file".toList
  authority : locator.authority = []
  query : locator.query? = none
  fragment : locator.fragment? = none

theorem encodes_of_absolute {path absolute : Path} {workingDirectory : Option Path}
    (made : path.absolute? workingDirectory = some absolute) (rooted : absolute.isAbsolute = true)
    (probe : Probe) : ∃ locator, Encodes path absolute probe (path.toLocator probe workingDirectory) locator := by
  obtain ⟨rest, -, encoded, read⟩ := absolute.parse_locatorText_eq (probe.directory absolute)
  have body := (IsEncoded.closing absolute (probe.directory absolute)).escapedNames absolute.components
  rw [toLocator_eq made rooted probe read]
  exact ⟨_,
    { value := rfl
      questions := rfl
      records := rfl
      text := rfl
      body := ⟨_, rfl, body⟩
      scheme := rfl
      authority := rfl
      query := Url.query_rootUrl (encoded.not_mem (by decide) (by decide))
      fragment := Url.fragment_rootUrl (encoded.not_mem (by decide) (by decide)) }⟩

theorem encodes_of_isAbsolute {path : Path} (rooted : path.isAbsolute = true) (probe : Probe)
    (workingDirectory : Option Path) :
    ∃ locator, Encodes path path probe (path.toLocator probe workingDirectory) locator :=
  encodes_of_absolute (if_pos rooted) rooted probe

theorem Encodes.not_failed {given absolute : Path} {probe : Probe} {run : Traced LocatorOutcome}
    {locator : Locator} (encodes : Encodes given absolute probe run locator) :
    ¬ ∃ path fault, run.value = .failed path fault := by
  rintro ⟨path, fault, failed⟩
  rw [encodes.value] at failed
  cases failed

/-- Encoding fails for a relative path without a working directory and for no other reason. -/
theorem toLocator_total (path : Path) (probe : Probe) {workingDirectory : Option Path}
    (rooted : ∀ directory, workingDirectory = some directory → directory.isAbsolute = true) :
    ((∃ given fault, (path.toLocator probe workingDirectory).value = .failed given fault) ↔
      path.isAbsolute = false ∧ workingDirectory = none) ∧
    match path.isAbsolute, workingDirectory with
    | true, _ => ∃ locator, Encodes path path probe (path.toLocator probe workingDirectory) locator
    | false, some directory =>
      ∃ locator, Encodes path (directory.join path) probe (path.toLocator probe workingDirectory) locator
    | false, none => path.toLocator probe workingDirectory = pure (.failed path .noWorkingDirectory) := by
  cases known : path.isAbsolute with
  | true =>
    obtain ⟨locator, encodes⟩ := encodes_of_isAbsolute known probe workingDirectory
    exact ⟨iff_of_false encodes.not_failed (by simp), locator, encodes⟩
  | false =>
    have relative : ¬ path.isAbsolute = true := by simp [known]
    cases workingDirectory with
    | some directory =>
      have made : path.absolute? (some directory) = some (directory.join path) := if_neg relative
      obtain ⟨locator, encodes⟩ := encodes_of_absolute made (isAbsolute_join (rooted directory rfl)) probe
      exact ⟨iff_of_false encodes.not_failed (by simp), locator, encodes⟩
    | none =>
      have made : path.absolute? none = none := if_neg relative
      have fails : path.toLocator probe none = pure (.failed path .noWorkingDirectory) := by rw [toLocator, made]
      exact ⟨iff_of_true ⟨path, _, congrArg Traced.value fails⟩ ⟨rfl, rfl⟩, fails⟩

/-- A relative path below a working directory. -/
theorem toLocator_total_relative :
    (∀ directory, some (ofText "/tmp".toList) = some directory → directory.isAbsolute = true) ∧
      ∃ locator, Encodes (ofText "a b".toList) (ofText "/tmp/a b".toList) (.listed [] [])
        ((ofText "a b".toList).toLocator (.listed [] []) (some (ofText "/tmp".toList))) locator ∧
        locator.text = "file:///tmp/a%20b".toList := by
  have rooted : ∀ directory, some (ofText "/tmp".toList) = some directory → directory.isAbsolute = true := by
    rintro directory same
    cases same
    decide
  obtain ⟨locator, encodes⟩ := (toLocator_total (ofText "a b".toList) (.listed [] []) rooted).2
  exact ⟨rooted, locator, encodes, encodes.text⟩

/-! ## Paths have locators of their own -/

/-- The same text means the same names, and the same answer about the directory except for the root. -/
theorem locatorText_eq_iff {first second : Path} {closed closed' : Bool} :
    first.locatorText closed = second.locatorText closed' ↔
      first.components = second.components ∧ (closed = closed' ∨ first.components = []) := by
  constructor
  · intro same
    have spelled := first.spells_locatorText closed
    rw [same] at spelled
    have bytes := spelled.bytes.symm.trans (second.spells_locatorText closed').bytes
    have paths : first.rooted closed = second.rooted closed' :=
      congrArg Path.mk (List.append_cancel_left bytes)
    have names : first.components = second.components := by
      rw [← components_rooted first closed, paths, components_rooted]
    refine ⟨names, ?_⟩
    by_cases root : first.components = []
    · exact .inr root
    · left
      unfold locatorText at same
      rw [names] at same root
      have ends := List.append_cancel_left (List.append_cancel_left same)
      simp only [closing, names, root, or_false] at ends
      revert ends
      cases closed <;> cases closed' <;> simp
  · rintro ⟨names, answer⟩
    have ends : first.closing closed = second.closing closed' := by
      rw [closing, closing, ← names]
      rcases answer with rfl | root
      · rfl
      · rw [if_pos (.inr root), if_pos (.inr root)]
    unfold locatorText
    rw [names, ends]

/-- The root is the one path from the root without a name. -/
theorem same_root_iff {path : Path} (rooted : path.isAbsolute = true) :
    path.same (ofText "/".toList) = true ↔ path.components = [] := by
  have root : (ofText "/".toList).isAbsolute = true := by decide
  have nameless : (ofText "/".toList).components = [] := by decide
  rw [same_iff_of_isAbsolute rooted root, nameless]

/-- Two paths from the root share a locator just if they are the same place and the answers about a directory
agree; the root is written the same under both answers. -/
theorem toLocator_text_eq_iff {first second : Path} (rooted : first.isAbsolute = true)
    (rooted' : second.isAbsolute = true) (probe probe' : Probe) (workingDirectory workingDirectory' : Option Path) :
    ∃ locator locator', (first.toLocator probe workingDirectory).value = .converted locator ∧
      (second.toLocator probe' workingDirectory').value = .converted locator' ∧
      (locator.text = locator'.text ↔ first.same second = true ∧
        (probe.directory first = probe'.directory second ∨ first.same (ofText "/".toList) = true)) := by
  obtain ⟨locator, encodes⟩ := encodes_of_isAbsolute rooted probe workingDirectory
  obtain ⟨locator', encodes'⟩ := encodes_of_isAbsolute rooted' probe' workingDirectory'
  refine ⟨locator, locator', encodes.value, encodes'.value, ?_⟩
  rw [encodes.text, encodes'.text, locatorText_eq_iff, same_iff_of_isAbsolute rooted rooted', same_root_iff rooted]

/-- Bytes that are no text, with slashes and a dot too many. -/
theorem toLocator_text_eq_iff_respelled :
    isAbsolute ⟨[slash, 0xFF, slash, slash, 0x2B, slash, dot]⟩ = true ∧
      isAbsolute ⟨[slash, 0xFF, slash, 0x2B]⟩ = true ∧
      ∃ locator locator',
        (toLocator ⟨[slash, 0xFF, slash, slash, 0x2B, slash, dot]⟩ (.listed [] []) none).value = .converted locator ∧
        (toLocator ⟨[slash, 0xFF, slash, 0x2B]⟩ (.listed [] []) none).value = .converted locator' ∧
        locator.text = locator'.text := by
  have rooted : isAbsolute ⟨[slash, 0xFF, slash, slash, 0x2B, slash, dot]⟩ = true := by decide
  have rooted' : isAbsolute ⟨[slash, 0xFF, slash, 0x2B]⟩ = true := by decide
  obtain ⟨locator, locator', read, read', texts⟩ :=
    toLocator_text_eq_iff rooted rooted' (.listed [] []) (.listed [] []) none none
  exact ⟨rooted, rooted', locator, locator', read, read', texts.mpr ⟨by decide, .inl rfl⟩⟩

/-! ## Normal forms -/

theorem unescape_escapeBytes (name : Bytes) : unescape (escapeBytes encoded name) = name := by
  have ascii : ∀ b, encoded b = false → b.toNat < 0x80 := fun b raw => Nat.lt_succ_of_lt (isWide_encoded b raw).2
  have whole := Percent.unescape_escapeBytes_append (by decide) ascii name []
  rwa [List.append_nil, Percent.unescape, List.append_nil] at whole

/-- No name but that of two dots is written as a segment that would be resolved. -/
theorem isDot_escapeBytes {name : Bytes} (valid : IsName name) :
    Url.Route.isDot (escapeBytes encoded name) = false := by
  by_contra dotted
  have bytes := Url.Route.unescape_append_of_isDot (Bool.of_not_eq_false dotted) []
  rw [List.append_nil, unescape_escapeBytes] at bytes
  exact valid.solid bytes

theorem isDotDot_escapeBytes {name : Bytes} (straight : name ≠ [dot, dot]) :
    Url.Route.isDotDot (escapeBytes encoded name) = false := by
  by_contra dots
  obtain ⟨first, second, parts, front, back⟩ := Url.Route.exists_of_isDotDot (Bool.of_not_eq_false dots)
  have bytes := unescape_escapeBytes name
  have last := Url.Route.unescape_append_of_isDot back []
  rw [List.append_nil] at last
  rw [parts, Url.Route.unescape_append_of_isDot front, last] at bytes
  exact straight bytes.symm

/-- What stands between the slashes of the text is a name or nothing. -/
theorem eq_nil_or_exists_of_mem_pieces {path : Path} {closed : Bool} {segment : Text}
    (member : segment ∈ Text.pieces (· == '/') (escapedNames path.components ++ path.closing closed)) :
    segment = [] ∨ ∃ name ∈ path.components, segment = escapeBytes encoded name := by
  have slashless : ∀ part ∈ path.components.map (escapeBytes encoded), ∀ c ∈ part, (c == '/') = false := by
    rintro part inside c present
    obtain ⟨name, -, rfl⟩ := List.mem_map.mp inside
    exact beq_eq_false_iff_ne.mpr fun same => slash_not_mem_escapeBytes name (same ▸ present)
  have names : Text.pieces (· == '/') (escapedNames path.components) =
      [] :: path.components.map (escapeBytes encoded) := by
    rw [escapedNames, ← List.flatMap_map]
    exact Text.pieces_flatMap_cons rfl slashless
  have kept : segment ∈ Text.pieces (· == '/') (escapedNames path.components) ∨ segment = [] := by
    rcases path.closing_cases closed with none | slash
    · rw [none, List.append_nil] at member
      exact .inl member
    · rw [slash, Text.pieces_append_cons (· == '/') _ _ _ rfl] at member
      exact (List.mem_append.mp member).imp_right List.mem_singleton.mp
  rcases kept with inside | empty
  · rw [names, List.mem_cons, List.mem_map] at inside
    rcases inside with empty | ⟨name, known, rfl⟩
    · exact .inl empty
    · exact .inr ⟨name, known, rfl⟩
  · exact .inl empty

/-- The slash in front of the first name belongs to `file:///`. -/
theorem body_locatorText {path : Path} {closed : Bool} {rest : Text}
    (root : path.locatorText closed = "file:///".toList ++ rest) :
    escapedNames path.components ++ path.closing closed = '/' :: rest := by
  have whole : "file://".toList ++ (escapedNames path.components ++ path.closing closed) =
      "file://".toList ++ '/' :: rest := root
  exact List.append_cancel_left whole

/-- No slash follows `file:///`, since no name is empty. -/
theorem head?_ne_slash {path : Path} {closed : Bool} {rest : Text}
    (root : path.locatorText closed = "file:///".toList ++ rest) : rest.head? ≠ some '/' := by
  have body := body_locatorText root
  cases names : path.components with
  | nil =>
    rw [names, closing, if_pos (.inr names)] at body
    rw [← (List.cons.inj body).2]
    simp
  | cons name others =>
    have member : name ∈ path.components := by
      rw [names]
      exact List.mem_cons_self ..
    have valid := isName_of_mem_components member
    obtain ⟨c, tail, first⟩ := List.exists_cons_of_ne_nil (escapeBytes_ne_nil valid.nonempty)
    have other : c ≠ '/' := by
      rintro rfl
      exact slash_not_mem_escapeBytes name (first ▸ List.mem_cons_self ..)
    rw [names, escapedNames_cons, first] at body
    rw [← (List.cons.inj body).2]
    simpa using other

/-- The text is the normal form of the URL that it is read as. -/
theorem href_rootUrl_of_locatorText {path : Path} (straight : [dot, dot] ∉ path.components) {closed : Bool}
    {rest : Text} (root : path.locatorText closed = "file:///".toList ++ rest) (printed : IsEncoded rest) :
    (Url.rootUrl rest).href = path.locatorText closed := by
  have whole : Percent.escape Url.Route.escaped rest = rest :=
    Percent.escape_eq_self (printed.forall_mem (by decide +kernel))
  have dotless : ∀ segment ∈ Text.pieces (· == '/') rest,
      Url.Route.isDot segment = false ∧ Url.Route.isDotDot segment = false := by
    intro segment member
    have inside : segment ∈ Text.pieces (· == '/') ('/' :: rest) := List.mem_cons_of_mem _ member
    rw [← body_locatorText root] at inside
    rcases eq_nil_or_exists_of_mem_pieces inside with rfl | ⟨name, known, rfl⟩
    · exact ⟨rfl, rfl⟩
    · have other : name ≠ [dot, dot] := fun same => straight (same ▸ known)
      exact ⟨isDot_escapeBytes (isName_of_mem_components known), isDotDot_escapeBytes other⟩
  rw [Url.href_rootUrl (head?_ne_slash root) (printed.not_mem (by decide) (by decide))
    (printed.not_mem (by decide) (by decide)) (printed.not_mem (by decide) (by decide)) printed.neatBehind.stays
    dotless, whole, root]

/-- The locator of a path without a name of two dots is the normal form of its URL. Drive letters make no
difference, since the first name stands behind an empty host. -/
theorem toLocator_normal {path : Path} (rooted : path.isAbsolute = true) (straight : [dot, dot] ∉ path.components)
    (probe : Probe) (workingDirectory : Option Path) :
    ∃ locator, (path.toLocator probe workingDirectory).value = .converted locator ∧
      locator.text = locator.url.href ∧ (Locator.ofUrl locator.url == locator) = true := by
  obtain ⟨rest, root, printed, read⟩ := path.parse_locatorText_eq (probe.directory path)
  have normal := href_rootUrl_of_locatorText straight root printed
  refine ⟨_, toLocator_value (if_pos rooted) rooted probe read, normal.symm, ?_⟩
  change ((Url.rootUrl rest).href == path.locatorText (probe.directory path)) = true
  rw [normal, beq_self_eq_true]

/-- Marks that need an escape, behind what looks like a drive letter. -/
theorem toLocator_normal_marks :
    (ofText "/C|/%41 é+.shp".toList).isAbsolute = true ∧ [dot, dot] ∉ (ofText "/C|/%41 é+.shp".toList).components ∧
      ∃ locator,
        ((ofText "/C|/%41 é+.shp".toList).toLocator (.listed [] [ofText "/C|/%41 é+.shp".toList]) none).value =
            .converted locator ∧
        locator.text = locator.url.href ∧ (Locator.ofUrl locator.url == locator) = true := by
  have rooted : (ofText "/C|/%41 é+.shp".toList).isAbsolute = true := by decide
  have straight : [dot, dot] ∉ (ofText "/C|/%41 é+.shp".toList).components := by decide
  exact ⟨rooted, straight, toLocator_normal rooted straight (.listed [] [ofText "/C|/%41 é+.shp".toList]) none⟩

end Path

end FileLocator
