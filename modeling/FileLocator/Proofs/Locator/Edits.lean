import FileLocator.Proofs.Locator.Encoding
import FileLocator.Session

/-! # Runs of edits

An edit derives a locator from the text of another one. It cuts the text at its last dot or slash at most, and
writes behind what is left, so it does not reach into a beginning without dots and slashes
(`exists_parse_append_of_grows`, `exists_parse_append_of_parent`). Reading cleans no more than the end. Two
beginnings are kept along every run for this reason: `file:///`, as long as the text only grows, and a scheme
without dots with its colon.
-/

namespace FileLocator

/-- A mark that is not in the beginning of some text is cut at behind that beginning. -/
theorem Text.isPrefix_of_cutLast? {mark : Char} {front source before after : Text} (absent : mark ∉ front)
    (begins : front <+: source) (cut : cutLast? mark source = some (before, after)) : front <+: before := by
  obtain ⟨rfl, -⟩ := cutLast?_eq_some_iff.mp cut
  exact isPrefix_of_append_cons absent begins

/-- A way to derive a locator from another one. -/
inductive Edit where
  | changeExtension (extension : Text)
  | extend (segment : Text)
  | parent
  /-- Take the normal form of the URL. -/
  | normalize
  deriving DecidableEq, Repr

namespace Edit

/-- Does an edit only write behind what it leaves? -/
def grows : Edit → Bool
  | changeExtension _ | extend _ => true
  | parent | normalize => false

/-- The edit as a step of a session. -/
def step : Edit → Step
  | changeExtension extension => .changeExtension extension
  | extend segment => .extend (some segment)
  | parent => .parent
  | normalize => .normalize

end Edit

namespace Locator

open Url.Scheme (IsProper)

def edit (locator : Locator) : Edit → Except LocatorError Locator
  | .changeExtension extension => locator.changeExtension extension
  | .extend segment => extend (some locator) (some segment)
  | .parent => locator.parent
  | .normalize => .ok (ofUrl locator.url)

/-- The locator after an edit; an edit that fails leaves it as it was. -/
def edited (locator : Locator) (change : Edit) : Locator :=
  match locator.edit change with
  | .ok target => target
  | .error _ => locator

/-- Sessions edit their locator in this way. -/
theorem step_edit (converter : Converter) (workingDirectory path : Option Path) (locator : Locator)
    (change : Edit) :
    (Session.step converter workingDirectory { locator := some locator, path } change.step).value.2 =
      { locator := some (locator.edited change), path } := by
  have moved : ∀ result : Except LocatorError Locator, result = locator.edit change →
      (Session.move { locator := some locator, path } result).2 =
        { locator := some (locator.edited change), path } := by
    rintro result rfl
    rw [edited]
    cases locator.edit change <;> rfl
  cases change <;> exact moved _ rfl

/-! ## What an edit leaves in front -/

section Front

variable {front : Text} {locator : Locator} (begins : front <+: locator.text)

include begins

theorem exists_parse_append_of_grows (dotless : '.' ∉ front) {change : Edit} (grows : change.grows = true) :
    ∃ behind, locator.edit change = parse (front ++ behind) := by
  cases change with
  | changeExtension extension =>
    have stem : ∃ middle,
        locator.edit (.changeExtension extension) = parse ((front ++ middle) ++ '.' :: extension) := by
      rw [edit, changeExtension]
      cases cut : Text.cutLast? '.' locator.text with
      | none =>
        obtain ⟨rest, text⟩ := begins
        exact ⟨rest, by rw [text]⟩
      | some parts =>
        obtain ⟨middle, before⟩ := Text.isPrefix_of_cutLast? dotless begins cut
        exact ⟨middle, by rw [before]⟩
    obtain ⟨middle, made⟩ := stem
    rw [List.append_assoc] at made
    exact ⟨_, made⟩
  | extend segment =>
    have whole : front <+: closed locator.text := by
      rw [closed]
      split
      · exact begins
      · exact begins.trans (List.prefix_append ..)
    obtain ⟨middle, text⟩ := whole.trans (List.prefix_append _ segment)
    exact ⟨middle, congrArg parse text.symm⟩
  | parent => cases grows
  | normalize => cases grows

theorem exists_parse_append_of_parent (slashless : '/' ∉ front) {target : Locator}
    (read : locator.parent = .ok target) : ∃ behind, parse (front ++ behind) = .ok target := by
  rw [parent] at read
  split at read
  · next before after cut =>
    have whole : front <+: entered before := by
      rw [entered]
      split
      · exact (Text.isPrefix_of_cutLast? slashless begins cut).trans (List.prefix_append ..)
      · exact Text.isPrefix_of_cutLast? slashless begins cut
    obtain ⟨middle, text⟩ := whole
    exact ⟨middle, by rw [text]; exact read⟩
  · cases read

end Front

/-! ## Growing behind the root -/

/-- Whatever is written behind `file:///` is a locator with an empty host. -/
theorem parse_root_append (behind : Text) :
    parse ("file:///".toList ++ behind) =
      .ok { text := "file:///".toList ++ Text.cleanBehind behind, url := Url.rootUrl (Text.cleanBehind behind) } := by
  have lead : Text.IsSolid "file:///".toList := by decide
  have neat := neat_root (Text.neatBehind_cleanBehind behind)
  have same : Text.clean ("file:///".toList ++ behind) =
      Text.clean ("file:///".toList ++ Text.cleanBehind behind) := by
    rw [Text.clean_append lead.neat (by decide), Text.clean_eq_self neat]
  rw [parse_eq_ok_congr same]
  exact parse_root neat

/-- A `file` locator whose text begins with an empty host and a slash. -/
structure IsRooted (locator : Locator) : Prop where
  file : locator.isFile = true
  root : "file:///".toList <+: locator.text

/-- Every edit that grows succeeds behind the root, and the root stays in front. -/
theorem IsRooted.edit {locator : Locator} (rooted : locator.IsRooted) {change : Edit} (grows : change.grows = true) :
    ∃ target, locator.edit change = .ok target ∧ target.IsRooted := by
  obtain ⟨behind, made⟩ := exists_parse_append_of_grows rooted.root (by decide) grows
  rw [parse_root_append] at made
  exact ⟨_, made, { file := rfl, root := List.prefix_append .. }⟩

theorem IsRooted.foldlM_edit {locator : Locator} (rooted : locator.IsRooted) {edits : List Edit}
    (grow : ∀ change ∈ edits, change.grows = true) :
    ∃ reached, edits.foldlM Locator.edit locator = .ok reached ∧ reached.IsRooted := by
  induction edits generalizing locator with
  | nil => exact ⟨locator, rfl, rooted⟩
  | cons change edits ih =>
    rw [List.forall_mem_cons] at grow
    obtain ⟨target, made, still⟩ := rooted.edit grow.1
    rw [List.foldlM_cons, made]
    exact ih still grow.2

/-- Conversion asks nothing, and leads to a path unless the text can not be decoded. -/
structure DecodesQuietly (locator : Locator) : Prop where
  questions : ∀ platform probe, (locator.toPath platform probe).questions = []
  value : ∀ platform probe, (∃ path, (locator.toPath platform probe).value = .ok (.converted path)) ∨
    ∃ fault, (locator.toPath platform probe).value = .error (.undecodable locator.text fault)

/-- No escape names a host behind the root, since the three slashes are decoded to themselves. -/
theorem IsRooted.not_namesHost {locator : Locator} (rooted : locator.IsRooted) : ¬ locator.NamesHost := by
  rintro ⟨first, rest, differs, read⟩
  obtain ⟨others, same⟩ := isPrefix_of_decoded (by decide) (by decide) rooted.root read
  have whole : "file://".toList ++ '/' :: others = "file://".toList ++ first :: rest := same
  exact differs (List.cons.inj (List.append_cancel_left whole)).1.symm

theorem IsRooted.decodesQuietly {locator : Locator} (rooted : locator.IsRooted) : locator.DecodesQuietly := by
  cases locator.course with
  | foreign elsewhere runs =>
    rw [rooted.file] at elsewhere
    cases elsewhere
  | undecodable fault nameless runs =>
    constructor
    · intro platform probe
      rw [runs]
      rfl
    · intro platform probe
      exact .inr ⟨fault, by rw [runs]; rfl⟩
  | direct raw nameless runs =>
    constructor
    · intro platform probe
      rw [runs]
      rfl
    · intro platform probe
      exact .inl ⟨platform.nativePath raw, by rw [runs]; rfl⟩
  | sharing raw named plain asks => exact absurd named rooted.not_namesHost

theorem isPrefix_of_toLocator {path : Path} {probe : Probe} {workingDirectory : Option Path} {locator : Locator}
    (read : (path.toLocator probe workingDirectory).value = .converted locator) :
    "file:///".toList <+: locator.text := by
  cases made : path.absolute? workingDirectory with
  | none =>
    rw [Path.toLocator, made] at read
    cases read
  | some absolute =>
    by_cases rooted : absolute.isAbsolute = true
    · obtain ⟨rest, root, -, found⟩ := absolute.parse_locatorText_eq (probe.directory absolute)
      rw [Path.toLocator_value made rooted probe found] at read
      cases read
      exact ⟨rest, root.symm⟩
    · rw [Path.toLocator, made, Traced.value_bind, if_neg rooted] at read
      cases read

/-- Every locator of a path begins with `file:///`, and from any locator that does, edits that grow never fail,
keep that beginning, and lead to locators that are decoded without a question. -/
theorem foldlM_edit_of_root :
    (∀ (path : Path) (probe : Probe) (workingDirectory : Option Path) (locator : Locator),
      (path.toLocator probe workingDirectory).value = .converted locator →
        "file:///".toList <+: locator.text) ∧
    ∀ locator : Locator, Reachable (fun url => IsProper url.scheme) locator →
      "file:///".toList <+: locator.text → ∀ edits : List Edit, (∀ change ∈ edits, change.grows = true) →
        ∃ reached, edits.foldlM edit locator = .ok reached ∧ "file:///".toList <+: reached.text ∧
          reached.DecodesQuietly := by
  refine ⟨fun _ _ _ _ => isPrefix_of_toLocator, ?_⟩
  intro locator reachable root edits grow
  obtain ⟨rest, text⟩ := root
  have slashes : locator.text = "file:".toList ++ ("///".toList ++ rest) := text.symm
  have rooted : locator.IsRooted := { file := reachable.isFile_of_text slashes, root := ⟨rest, text⟩ }
  obtain ⟨reached, made, still⟩ := rooted.foldlM_edit grow
  exact ⟨reached, made, still.root, still.decodesQuietly⟩

/-- Arguments that hold breaks, marks and what is no escape. -/
theorem foldlM_edit_of_root_marks : ∃ locator, parse "file:///a.d/x".toList = .ok locator ∧
    "file:///".toList <+: locator.text ∧
    (∀ change ∈ [Edit.changeExtension "x:/y\\".toList, .extend "%zz\t#? ".toList], change.grows = true) ∧
    ∃ reached, [Edit.changeExtension "x:/y\\".toList, .extend "%zz\t#? ".toList].foldlM edit locator = .ok reached ∧
      "file:///".toList <+: reached.text ∧ reached.DecodesQuietly := by
  have read : parse "file:///a.d/x".toList = .ok _ := rfl
  have root : "file:///".toList <+: "file:///a.d/x".toList := by decide
  have grow : ∀ change ∈ [Edit.changeExtension "x:/y\\".toList, .extend "%zz\t#? ".toList],
      change.grows = true := by decide
  exact ⟨_, read, root, grow, foldlM_edit_of_root.2 _ (.parse read) root _ grow⟩

/-! ## Keeping the scheme -/

/-- A locator with this scheme, whose text begins with it. -/
structure HasScheme (locator : Locator) (scheme : Text) : Prop where
  same : locator.scheme = scheme
  begins : scheme ++ [':'] <+: locator.text

/-- Whatever is written behind a scheme and its colon is read with that scheme. -/
theorem hasScheme_of_parse {scheme behind : Text} (proper : IsProper scheme) {locator : Locator}
    (read : parse ((scheme ++ [':']) ++ behind) = .ok locator) : locator.HasScheme scheme := by
  obtain ⟨name, rest, shape, colon, -, lower, text⟩ := text_of_parse read
  rw [Text.clean_append proper.neat_lead (by simp), List.append_assoc] at shape
  obtain ⟨rfl, -⟩ := Text.append_cons_inj (proper.not_mem rfl) colon shape
  rw [proper.lower] at lower
  refine { same := lower, begins := ⟨rest, ?_⟩ }
  rw [text, lower, List.append_assoc]
  rfl

section Scheme

variable {scheme : Text} (proper : IsProper scheme) (dotless : '.' ∉ scheme)

include proper dotless

/-- An edit that succeeds keeps a scheme without dots. -/
theorem HasScheme.edit {locator : Locator} (has : locator.HasScheme scheme) {change : Edit} {target : Locator}
    (made : locator.edit change = .ok target) : target.HasScheme scheme := by
  have dots : '.' ∉ scheme ++ [':'] := by
    rw [List.mem_append, not_or]
    exact ⟨dotless, by decide⟩
  by_cases grows : change.grows = true
  · obtain ⟨behind, same⟩ := exists_parse_append_of_grows has.begins dots grows
    rw [same] at made
    exact hasScheme_of_parse proper made
  · cases change with
    | changeExtension extension => exact absurd rfl grows
    | extend segment => exact absurd rfl grows
    | parent =>
      have slashes : '/' ∉ scheme ++ [':'] := by
        rw [List.mem_append, not_or]
        exact ⟨proper.not_mem rfl, by decide⟩
      obtain ⟨behind, read⟩ := exists_parse_append_of_parent has.begins slashes made
      exact hasScheme_of_parse proper read
    | normalize =>
      cases made
      have url : locator.url.scheme = scheme := has.same
      refine { same := url, begins := ?_ }
      change _ <+: locator.url.href
      rw [Url.href_eq, url]
      exact ⟨_, List.append_assoc ..⟩

theorem HasScheme.edited {locator : Locator} (has : locator.HasScheme scheme) (change : Edit) :
    (locator.edited change).HasScheme scheme := by
  rw [Locator.edited]
  split
  · next target made => exact has.edit proper dotless made
  · exact has

theorem HasScheme.foldl_edited {locator : Locator} (has : locator.HasScheme scheme) (edits : List Edit) :
    (edits.foldl Locator.edited locator).HasScheme scheme := by
  induction edits generalizing locator with
  | nil => exact has
  | cons change edits ih => exact ih (has.edited proper dotless change)

end Scheme

theorem Reachable.hasScheme {locator : Locator} (reachable : Reachable (fun url => IsProper url.scheme) locator) :
    locator.HasScheme locator.scheme where
  same := rfl
  begins := reachable.isPrefix_text

theorem toPath_ne_notApplicable {locator : Locator} (file : locator.isFile = true) (platform : Platform)
    (probe : Probe) (scheme : Text) : (locator.toPath platform probe).value ≠ .ok (.notApplicable scheme) := by
  cases locator.course with
  | foreign elsewhere runs =>
    rw [file] at elsewhere
    cases elsewhere
  | undecodable fault nameless runs => simp [runs]
  | direct raw nameless runs => simp [runs, direct]
  | sharing raw named plain asks =>
    cases platform with
    | windows => simp [asks, sharing]
    | other => simp [plain, direct]

/-- No run of edits changes a scheme without dots. So a `file` locator stays one that has a path, and no other
locator comes to have one. -/
theorem scheme_foldl_edited {locator : Locator}
    (reachable : Reachable (fun url => IsProper url.scheme) locator) (dotless : '.' ∉ locator.scheme)
    (edits : List Edit) :
    let reached := edits.foldl edited locator
    reached.scheme = locator.scheme ∧ locator.scheme ++ [':'] <+: reached.text ∧
      ∀ platform probe,
        (locator.isFile = true →
          ∀ scheme, (reached.toPath platform probe).value ≠ .ok (.notApplicable scheme)) ∧
        (locator.isFile = false →
          reached.toPath platform probe = pure (.ok (.notApplicable locator.scheme))) := by
  intro reached
  have kept : reached.HasScheme locator.scheme :=
    reachable.hasScheme.foldl_edited reachable.text_eq.1 dotless edits
  have same : reached.isFile = locator.isFile := by rw [isFile, isFile, kept.same]
  refine ⟨kept.same, kept.begins, fun platform probe => ⟨?_, ?_⟩⟩
  · intro file
    exact toPath_ne_notApplicable (same.trans file) platform probe
  · intro elsewhere
    rw [toPath, same, elsewhere, kept.same]
    rfl

/-- Edits that would write another scheme in front, and one that fails. -/
theorem scheme_foldl_edited_nested : ∃ locator, parse "JAR:file:/some.zip".toList = .ok locator ∧
    '.' ∉ locator.scheme ∧
    ([Edit.extend "x:/y".toList, .changeExtension "://".toList, .normalize, .parent, .parent, .parent, .parent,
      .extend ".".toList].foldl edited locator).scheme = "jar".toList := by
  have read : parse "JAR:file:/some.zip".toList = .ok _ := rfl
  exact ⟨_, read, by decide, (scheme_foldl_edited (.parse read) (by decide) _).1⟩

end Locator

end FileLocator
