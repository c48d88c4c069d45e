import FileLocator.Locator.Algebra
import FileLocator.Proofs.Locator.RoundTrip

/-! # Locators of paths are cut and extended as paths are

The locator of a path from the root holds one escaped name behind each slash, so appending text to it follows
the path that the text names, and cutting it at its last slash drops the last name. There is one exception: of
the locator of a single name nothing but `file://` is left, which is no locator of the root and leads to the
empty path. A dot is never escaped, and nothing that is escaped brings one in, so the last dot of the text is the
last dot of the last name if there is one.
-/

namespace FileLocator.Path

open Percent (Spells escapeBytes)
open Platform (other)
open Utf8 (Bytes IsText)

/-! ## The last name -/

/-- The text of an open locator ends in the name of its path. -/
theorem getLast?_locatorText_ne_slash {path : Path} (below : path.components ≠ []) :
    (path.locatorText false).getLast? ≠ some '/' := by
  have named := isName_of_mem_components (List.getLast_mem below)
  have split := List.dropLast_append_getLast below
  generalize path.components.getLast below = last at named split
  have nonempty := escapeBytes_ne_nil named.nonempty
  rw [locatorText_open below, ← split, escapedNames_append]
  intro final
  rw [escapedNames_singleton, ← List.append_assoc, List.getLast?_append_cons,
    List.getLast?_cons_of_ne_nil nonempty] at final
  exact slash_not_mem_escapeBytes last (List.mem_of_getLast? final)

/-! ## Extending -/

theorem closed_locatorText (path : Path) (isDirectory : Bool) :
    Locator.closed (path.locatorText isDirectory) = path.locatorText true := by
  by_cases slashed : isDirectory = true ∨ path.components = []
  · have same : path.locatorText isDirectory = path.locatorText true := by
      have both : path.closing isDirectory = path.closing true := (if_pos slashed).trans (if_pos (.inl rfl)).symm
      unfold locatorText
      rw [both]
    have final : (path.locatorText true).getLast? = some '/' := by
      rw [locatorText_closed, ← List.append_assoc, List.getLast?_concat]
    rw [same, Locator.closed, if_pos final]
  · rw [not_or, Bool.not_eq_true] at slashed
    obtain ⟨rfl, below⟩ := slashed
    rw [Locator.closed, if_neg (getLast?_locatorText_ne_slash below), locatorText_open below, locatorText_closed,
      List.append_assoc]

/-- Text without an escape spells itself behind the names. -/
theorem spells_escapedNames_append (names : List Bytes) {behind : Text} (plain : '%' ∉ behind) :
    Spells ("file://".toList ++ (escapedNames names ++ behind))
      (Utf8.encode "file://".toList ++ (names.flatMap (slash :: ·) ++ Utf8.encode behind)) := by
  have last := Percent.spells_nil.append_of_not_mem plain
  rw [List.append_nil, List.append_nil] at last
  exact (spells_names names last).append_of_not_mem (by decide)

/-- Neat text without an escape behind the names is read as a locator of the path that both spell. -/
theorem parse_escapedNames_append {names : List Bytes} {behind : Text}
    (slashed : (escapedNames names ++ behind).head? = some '/') (plain : '%' ∉ behind) (absent : '?' ∉ behind)
    (neat : Text.NeatBehind behind) (readable : IsText (names.flatMap (slash :: ·) ++ Utf8.encode behind))
    (back : Probe) :
    ∃ locator, Locator.parse ("file://".toList ++ (escapedNames names ++ behind)) = .ok locator ∧
      (locator.toPath other back).value =
        .ok (.converted ⟨names.flatMap (slash :: ·) ++ Utf8.encode behind⟩) := by
  have encoded : IsEncoded (escapedNames names) := by
    have whole := IsEncoded.nil.escapedNames names
    rwa [List.append_nil] at whole
  have neat' : Text.NeatBehind (escapedNames names ++ behind) := encoded.neatBehind.append neat
  have absent' : '?' ∉ escapedNames names ++ behind := fun member =>
    (List.mem_append.mp member).elim (encoded.not_mem (by decide) (by decide)) absent
  have spells := spells_escapedNames_append names plain
  obtain ⟨rest, shape⟩ := List.head?_eq_some_iff.mp slashed
  rw [shape] at neat' absent' spells ⊢
  obtain ⟨locator, read, isRoot⟩ :=
    Locator.exists_parse_root neat'.of_cons fun member => absent' (List.mem_cons_of_mem _ member)
  change Spells ("file:///".toList ++ rest) _ at spells
  rw [← isRoot.text] at spells
  exact ⟨locator, read, Locator.toPath_of_spells isRoot.file isRoot.whole spells readable back⟩

theorem components_flatMap_slash (path : Path) (bytes : Bytes) :
    components ⟨path.components.flatMap (slash :: ·) ++ slash :: bytes⟩ = path.components ++ components ⟨bytes⟩ := by
  have valid : ∀ name ∈ path.components, IsName name := fun _ => isName_of_mem_components
  have names := components_flatMap valid (.inl rfl)
  rw [List.append_nil] at names
  rw [components_append_slash, names]

theorem isText_flatMap_slash {path : Path} (readable : IsText path.bytes) (segment : Text) :
    IsText (path.components.flatMap (slash :: ·) ++ slash :: Utf8.encode segment) := by
  apply isText_iff_components.mpr
  rw [components_flatMap_slash]
  exact List.forall_mem_append.mpr ⟨isText_iff_components.mp readable, isText_iff_components.mp ⟨segment, rfl⟩⟩

/-- Some text behind the names leads to the same place as the path that follows the text. -/
theorem same_join {base : Path} (rooted : base.isAbsolute = true) {segment : Text}
    (relative : segment.head? ≠ some '/') :
    same ⟨base.components.flatMap (slash :: ·) ++ slash :: Utf8.encode segment⟩ (base.join (ofText segment)) =
      true := by
  have absolute : isAbsolute ⟨base.components.flatMap (slash :: ·) ++ slash :: Utf8.encode segment⟩ = true := by
    cases base.components <;> rfl
  rw [same_iff_of_isAbsolute absolute (isAbsolute_join rooted), components_flatMap_slash,
    components_join (isAbsolute_ofText relative)]
  rfl

/-- Text below the locator of a path is a locator of what the path leads to by that text. -/
theorem extend_of_locatorText {base : Path} (rooted : base.isAbsolute = true) (readable : IsText base.bytes)
    {locator : Locator} {isDirectory : Bool} (text : locator.text = base.locatorText isDirectory) {segment : Text}
    (relative : segment.head? ≠ some '/') (plain : '%' ∉ segment) (absent : '?' ∉ segment)
    (neat : Text.NeatBehind segment) (back : Probe) :
    ∃ child found, Locator.extend (some locator) (some segment) = .ok child ∧
      (child.toPath other back).value = .ok (.converted found) ∧
      found.same (base.join (ofText segment)) = true := by
  have slashed : (escapedNames base.components ++ '/' :: segment).head? = some '/' := by
    cases base.components <;> rfl
  have lead : Text.NeatBehind ['/'] := by decide
  obtain ⟨child, read, leads⟩ := parse_escapedNames_append slashed (by simp [plain]) (by simp [absent])
    (lead.append neat) (isText_flatMap_slash readable segment) back
  refine ⟨child, _, ?_, leads, same_join rooted relative⟩
  rw [Locator.extend, Locator.append, text, closed_locatorText, locatorText_closed, List.append_assoc,
    List.append_assoc]
  exact read

/-- Extending the locator of a path by some text follows the text from the path. -/
theorem toLocator_extend_toPath {base : Path} (rooted : base.isAbsolute = true) (readable : IsText base.bytes)
    (workingDirectory : Option Path) (probe back : Probe) {segment : Text} (relative : segment.head? ≠ some '/')
    (plain : '%' ∉ segment) (absent : '?' ∉ segment) (neat : Text.NeatBehind segment) :
    ∃ locator child found, (base.toLocator probe workingDirectory).value = .converted locator ∧
      Locator.extend (some locator) (some segment) = .ok child ∧
      (child.toPath other back).value = .ok (.converted found) ∧
      found.same (base.join (ofText segment)) = true := by
  obtain ⟨locator, read, text, -, -⟩ := base.parse_locatorText (probe.directory base)
  have made : base.absolute? workingDirectory = some base := if_pos rooted
  obtain ⟨child, found, extended, leads, same⟩ :=
    extend_of_locatorText rooted readable text relative plain absent neat back
  exact ⟨locator, child, found, toLocator_value made rooted probe read, extended, leads, same⟩

theorem toLocator_extend_toPath_marks : ∃ locator child found,
    ((ofText "/data dir".toList).toLocator (.ofPresence fun _ => true) none).value = .converted locator ∧
    Locator.extend (some locator) (some "a+b/../c#1 é.shp".toList) = .ok child ∧
    (child.toPath other (.ofPresence fun _ => true)).value = .ok (.converted found) ∧
    found.same ((ofText "/data dir".toList).join (ofText "a+b/../c#1 é.shp".toList)) = true :=
  toLocator_extend_toPath (by decide) ⟨_, rfl⟩ none _ _ (by decide) (by decide) (by decide) (by decide)

/-! ## Cutting -/

theorem cutLast?_locatorText {path : Path} {names : List Bytes} {last : Bytes}
    (split : path.components = names ++ [last]) :
    Text.cutLast? '/' (path.locatorText false) =
      some ("file://".toList ++ escapedNames names, escapeBytes encoded last) := by
  have below : path.components ≠ [] := by simp [split]
  rw [Text.cutLast?_eq_some_iff, locatorText_open below, split, escapedNames_append, escapedNames_singleton,
    List.append_assoc]
  exact ⟨rfl, slash_not_mem_escapeBytes last⟩

/-- What is left of the text when names are left is the text for the path through them, closed if the last of
them ends in the mark of an archive. -/
theorem entered_escapedNames {path : Path} (below : path.components ≠ []) :
    ∃ closed, Locator.entered ("file://".toList ++ escapedNames path.components) = path.locatorText closed := by
  rw [Locator.entered]
  split
  · exact ⟨true, by rw [locatorText_closed, List.append_assoc]⟩
  · exact ⟨false, (locatorText_open below).symm⟩

/-- The locator above that of a path with more than one name is a locator of the path without its last name. -/
theorem parent_of_locatorText {path : Path} {locator : Locator} (text : locator.text = path.locatorText false)
    (deep : path.above.components ≠ []) (readable : IsText path.bytes) (back : Probe) :
    ∃ above found, locator.parent = .ok above ∧ (above.toPath other back).value = .ok (.converted found) ∧
      found.same path.above = true := by
  have names := path.components_above
  have below : path.components ≠ [] := fun none => deep (by rw [names, none]; rfl)
  have split : path.components = path.above.components ++ [path.components.getLast below] := by
    rw [names, List.dropLast_append_getLast]
  obtain ⟨closed, entered⟩ := entered_escapedNames deep
  obtain ⟨above, read, shown, file, whole⟩ := path.above.parse_locatorText closed
  have parts : IsText path.above.bytes := by
    rw [isText_iff_components, names]
    exact fun name member => isText_iff_components.mp readable name (List.dropLast_subset _ member)
  refine ⟨above, path.above.rooted closed, ?_, toPath_of_isText file whole shown parts back,
    same_rooted (isAbsolute_ofComponents _) closed⟩
  rw [Locator.parent, text, cutLast?_locatorText split]
  dsimp only
  rw [entered]
  exact read

/-- Nothing but the two slashes is left above a single name, and they lead to the empty path. -/
theorem parent_of_single {path : Path} {locator : Locator} (text : locator.text = path.locatorText false)
    {name : Bytes} (single : path.components = [name]) (back : Probe) :
    ∃ above, locator.parent = .ok above ∧ above.text = "file://".toList ∧
      (above.toPath other back).value = .ok (.converted ⟨[]⟩) := by
  have split : path.components = [] ++ [name] := single
  have bare : ∃ above, Locator.parse "file://".toList = .ok above ∧ above.text = "file://".toList ∧
      (above.toPath other back).value = .ok (.converted ⟨[]⟩) := ⟨_, rfl, rfl, rfl⟩
  obtain ⟨above, read, left, empty⟩ := bare
  refine ⟨above, ?_, left, empty⟩
  rw [Locator.parent, text, cutLast?_locatorText split]
  exact read

/-- Cutting the locator of a path drops the last name of the path, unless that is the only one. -/
theorem toLocator_parent_toPath {path : Path} (rooted : path.isAbsolute = true) (readable : IsText path.bytes)
    (below : path.components ≠ []) (workingDirectory : Option Path) {probe : Probe}
    (file : probe.directory path = false) (back : Probe) :
    ∃ locator above found, (path.toLocator probe workingDirectory).value = .converted locator ∧
      locator.parent = .ok above ∧ (above.toPath other back).value = .ok (.converted found) ∧
      (path.components.length ≠ 1 → found.same path.above = true) ∧
      (path.components.length = 1 → above.text = "file://".toList ∧ found = ⟨[]⟩) := by
  obtain ⟨locator, read, text, -, -⟩ := path.parse_locatorText false
  have made : path.absolute? workingDirectory = some path := if_pos rooted
  have encoded : (path.toLocator probe workingDirectory).value = .converted locator := by
    apply toLocator_value made rooted
    rw [file]
    exact read
  by_cases single : path.components.length = 1
  · obtain ⟨name, alone⟩ := List.length_eq_one_iff.mp single
    obtain ⟨above, cut, left, empty⟩ := parent_of_single text alone back
    exact ⟨locator, above, ⟨[]⟩, encoded, cut, empty, fun more => absurd single more, fun _ => ⟨left, rfl⟩⟩
  · have deep : path.above.components ≠ [] := by
      intro none
      have length := congrArg List.length none
      rw [components_above, List.length_dropLast, List.length_nil] at length
      have some := List.length_pos_iff.mpr below
      omega
    obtain ⟨above, found, cut, leads, same⟩ := parent_of_locatorText text deep readable back
    exact ⟨locator, above, found, encoded, cut, leads, fun _ => same, fun one => absurd one single⟩

theorem toLocator_parent_toPath_archive : ∃ locator above found,
    ((ofText "/a b.zip!/x+y.shp".toList).toLocator (.ofPresence fun _ => true) none).value = .converted locator ∧
    locator.parent = .ok above ∧
    (above.toPath other (.ofPresence fun _ => true)).value = .ok (.converted found) ∧
    found.same (ofText "/a b.zip!".toList) = true := by
  have rooted : (ofText "/a b.zip!/x+y.shp".toList).isAbsolute = true := by decide
  have file : (Probe.ofPresence fun _ => true).directory (ofText "/a b.zip!/x+y.shp".toList) = false := rfl
  obtain ⟨locator, above, found, encoded, cut, leads, same, -⟩ :=
    toLocator_parent_toPath rooted ⟨_, rfl⟩ (by decide) none file (.ofPresence fun _ => true)
  exact ⟨locator, above, found, encoded, cut, leads, same (by decide)⟩

/-- The locator above that of a single name leads to the empty path, which is not the root. -/
theorem toLocator_parent_toPath_ne : ∃ locator above,
    ((ofText "/a".toList).toLocator (.ofPresence fun _ => false) none).value = .converted locator ∧
    locator.parent = .ok above ∧
    (above.toPath other (.ofPresence fun _ => false)).value = .ok (.converted (ofText [])) ∧
    (ofText []).same (ofText "/a".toList).above = false :=
  ⟨_, _, rfl, rfl, rfl, by decide⟩

/-! ## Changing the extension -/

theorem dot_not_mem_escapeBytes {name : Bytes} (absent : dot ∉ name) : '.' ∉ escapeBytes encoded name := by
  apply Percent.not_mem_escapeBytes isWide_encoded (by decide) (by decide)
  rintro b member - rfl
  exact absent member

/-- The last dot of the text is the last dot of the last name, with or without a slash behind the name. -/
theorem cutLast?_dot_locatorText {path : Path} {names : List Bytes} {stem old : Bytes}
    (split : path.components = names ++ [stem ++ dot :: old]) (last : dot ∉ old) (closed : Bool) :
    Text.cutLast? '.' (path.locatorText closed) =
      some ("file://".toList ++ escapedNames (names ++ [stem]),
        escapeBytes encoded old ++ path.closing closed) := by
  have divided : escapeBytes encoded (stem ++ dot :: old) =
      escapeBytes encoded stem ++ '.' :: escapeBytes encoded old := Percent.escapeBytes_append _ _ _
  rw [Text.cutLast?_eq_some_iff]
  constructor
  · change "file://".toList ++ (escapedNames path.components ++ path.closing closed) = _
    rw [split, escapedNames_append, escapedNames_append, escapedNames_singleton, escapedNames_singleton, divided]
    simp only [List.append_assoc, List.cons_append]
  · intro member
    rcases List.mem_append.mp member with inner | slash
    · exact dot_not_mem_escapeBytes last inner
    · rcases path.closing_cases closed with none | some
      · rw [none] at slash
        cases slash
      · rw [some] at slash
        exact absurd slash (by decide)

/-- A path from the root through names is text if the names are. -/
theorem isText_ofComponents {names : List Bytes} (valid : ∀ name ∈ names, IsName name)
    (readable : ∀ name ∈ names, IsText name) : IsText (ofComponents names).bytes := by
  rw [isText_iff_components, components_ofComponents valid]
  exact readable

/-- Changing the extension of the locator of a path gives a locator of the path with that extension. -/
theorem changeExtension_of_locatorText {path : Path} (readable : IsText path.bytes) {locator : Locator}
    {isDirectory : Bool} (text : locator.text = path.locatorText isDirectory) {names : List Bytes}
    {stem old : Bytes} (split : path.components = names ++ [stem ++ dot :: old]) (last : dot ∉ old)
    {extension : Text} (nonempty : extension ≠ []) (slashless : '/' ∉ extension) (plain : '%' ∉ extension)
    (absent : '?' ∉ extension) (neat : Text.NeatBehind extension) (back : Probe) :
    ∃ changed, locator.changeExtension extension = .ok changed ∧
      (changed.toPath other back).value = .ok (.converted (path.withExtension extension)) := by
  have valid : ∀ name ∈ path.components, IsName name := fun _ => isName_of_mem_components
  have parts := isText_iff_components.mp readable
  rw [split, List.forall_mem_append, List.forall_mem_singleton] at valid parts
  have renamed := valid.2.extended nonempty slashless
  have bytes : (names ++ [stem]).flatMap (slash :: ·) ++ Utf8.encode ('.' :: extension) =
      (path.withExtension extension).bytes := by
    rw [withExtension_eq split last, ofComponents, if_neg (by simp), List.flatMap_append, List.flatMap_append,
      List.flatMap_singleton, List.flatMap_singleton, List.append_assoc]
    rfl
  have readable' : IsText (path.withExtension extension).bytes := by
    have stemText := (Utf8.isText_append_cons_iff (by decide)).mp parts.2
    rw [withExtension_eq split last]
    apply isText_ofComponents
    · exact List.forall_mem_append.mpr ⟨valid.1, List.forall_mem_singleton.mpr renamed⟩
    · refine List.forall_mem_append.mpr ⟨parts.1, List.forall_mem_singleton.mpr ?_⟩
      exact (Utf8.isText_append_cons_iff (by decide)).mpr ⟨stemText.1, extension, rfl⟩
  have slashed : (escapedNames (names ++ [stem]) ++ '.' :: extension).head? = some '/' := by
    cases names <;> rfl
  have lead : Text.NeatBehind ['.'] := by decide
  rw [← bytes] at readable'
  obtain ⟨changed, read, leads⟩ := parse_escapedNames_append slashed (by simp [plain]) (by simp [absent])
    (lead.append neat) readable' back
  rw [bytes] at leads
  refine ⟨changed, ?_, leads⟩
  rw [Locator.changeExtension, text, cutLast?_dot_locatorText split last]
  dsimp only
  rw [List.append_assoc]
  exact read

/-- Changing the extension of the locator of a path changes the extension of the path. -/
theorem toLocator_changeExtension_toPath {path : Path} (rooted : path.isAbsolute = true)
    (readable : IsText path.bytes) (workingDirectory : Option Path) (probe back : Probe) {name : Bytes}
    (last : path.components.getLast? = some name) (dotted : dot ∈ name) {extension : Text}
    (nonempty : extension ≠ []) (slashless : '/' ∉ extension) (plain : '%' ∉ extension) (absent : '?' ∉ extension)
    (neat : Text.NeatBehind extension) :
    ∃ locator changed found, (path.toLocator probe workingDirectory).value = .converted locator ∧
      locator.changeExtension extension = .ok changed ∧
      (changed.toPath other back).value = .ok (.converted found) ∧
      found.same (path.withExtension extension) = true := by
  obtain ⟨locator, read, text, -, -⟩ := path.parse_locatorText (probe.directory path)
  have made : path.absolute? workingDirectory = some path := if_pos rooted
  obtain ⟨names, split⟩ := List.getLast?_eq_some_iff.mp last
  cases cut : Text.cutLast? dot name with
  | none => exact absurd dotted (Text.cutLast?_eq_none_iff.mp cut)
  | some parts =>
    obtain ⟨stem, old⟩ := parts
    obtain ⟨rfl, final⟩ := Text.cutLast?_eq_some_iff.mp cut
    obtain ⟨changed, renamed, leads⟩ := changeExtension_of_locatorText readable text split final nonempty
      slashless plain absent neat back
    exact ⟨locator, changed, _, toLocator_value made rooted probe read, renamed, leads, by simp [same]⟩

theorem toLocator_changeExtension_toPath_marks : ∃ locator changed found,
    ((ofText "/v1.2/a+b%.tar.gz".toList).toLocator
      { presence := fun _ => true, directory := fun _ => true } none).value = .converted locator ∧
    locator.changeExtension "x#1 é.shp".toList = .ok changed ∧
    (changed.toPath other (.ofPresence fun _ => true)).value = .ok (.converted found) ∧
    found.same (ofText "/v1.2/a+b%.tar.x#1 é.shp".toList) = true := by
  have rooted : (ofText "/v1.2/a+b%.tar.gz".toList).isAbsolute = true := by decide
  have readable : IsText (ofText "/v1.2/a+b%.tar.gz".toList).bytes := ⟨_, rfl⟩
  have last : (ofText "/v1.2/a+b%.tar.gz".toList).components.getLast? =
      some (Utf8.encode "a+b%.tar.gz".toList) := by decide
  have nonempty : "x#1 é.shp".toList ≠ [] := by decide
  obtain ⟨locator, changed, found, encoded, renamed, leads, alike⟩ :=
    toLocator_changeExtension_toPath rooted readable none
      { presence := fun _ => true, directory := fun _ => true } (.ofPresence fun _ => true) last (by decide)
      nonempty (by decide) (by decide) (by decide) (by decide)
  have expected : (ofText "/v1.2/a+b%.tar.gz".toList).withExtension "x#1 é.shp".toList =
      ofText "/v1.2/a+b%.tar.x#1 é.shp".toList := by decide
  rw [expected] at alike
  exact ⟨locator, changed, found, encoded, renamed, leads, alike⟩

end FileLocator.Path
