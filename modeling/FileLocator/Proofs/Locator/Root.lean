import FileLocator.Proofs.Locator.Platforms
import FileLocator.Proofs.Url.Root

/-! # Locators with an empty host and a path from the root

Neat text behind `file:///` is always a locator, and it is kept as written. Without a query, the path is what
the text is decoded to, behind a slash, and no question is asked (`ReadsAs`). This holds on both platforms up
to the shape of the path. Hence all spellings of a text behind `file:///` lead to the same path.
-/

namespace FileLocator.Locator

open Percent (EscapeSet Respells)
open Platform (other)

/-- Neat text behind `file:///` is a locator, with nothing to lose. -/
theorem parse_root {rest : Text} (neat : Text.Neat ("file:///".toList ++ rest)) :
    parse ("file:///".toList ++ rest) = .ok { text := "file:///".toList ++ rest, url := Url.rootUrl rest } := by
  rw [parse_eq_ok_iff, Text.clean_eq_self neat]
  constructor
  · apply Url.parse_root
    exact Text.trim_eq_self neat.head neat.last
  · have lower : (Url.rootUrl rest).scheme = "file".toList.map Char.toLower := rfl
    have shape : "file:///".toList ++ rest = "file".toList ++ (":///".toList ++ rest) := rfl
    rw [shape, keep_append lower]
    rfl

theorem neat_root {rest : Text} (neat : Text.NeatBehind rest) : Text.Neat ("file:///".toList ++ rest) := by
  have lead : Text.IsSolid "file:///".toList := by decide
  exact lead.neat.append (by decide) neat

/-- A locator with an empty host, no query, and this text behind `file:///`. -/
structure IsRoot (locator : Locator) (rest : Text) : Prop where
  text : locator.text = "file:///".toList ++ rest
  file : locator.isFile = true
  whole : locator.query? = none

theorem isRoot_of_parse_root {rest : Text} (absent : '?' ∉ rest) :
    IsRoot { text := "file:///".toList ++ rest, url := Url.rootUrl rest } rest where
  text := rfl
  file := rfl
  whole := Url.query_rootUrl absent

theorem exists_parse_root {rest : Text} (neat : Text.NeatBehind rest) (absent : '?' ∉ rest) :
    ∃ locator, parse ("file:///".toList ++ rest) = .ok locator ∧ locator.IsRoot rest :=
  ⟨_, parse_root (neat_root neat), isRoot_of_parse_root absent⟩

/-! ## Conversions -/

/-- Conversion leads to what some text is decoded to, behind a slash, or fails where that text can not be
decoded; nothing is asked. -/
structure ReadsAs (locator : Locator) (text : Text) : Prop where
  converted : ∀ path, Percent.decode text = .ok path → ∀ platform probe,
    (locator.toPath platform probe).value = .ok (.converted (platform.nativePath ('/' :: path)))
  undecodable : (∀ path, Percent.decode text ≠ .ok path) → ∀ platform probe,
    ∃ fault, (locator.toPath platform probe).value = .error (.undecodable locator.text fault)
  quiet : ∀ platform probe, (locator.toPath platform probe).questions = []

/-- The text behind `file:///` may be replaced by one that is decoded alike. -/
theorem IsRoot.readsAs {locator : Locator} {rest text : Text} (root : locator.IsRoot rest)
    (alike : ∀ path, Percent.decode rest = .ok path ↔ Percent.decode text = .ok path) :
    locator.ReadsAs text := by
  have before : locator.beforeQuery = "file:///".toList ++ rest := by
    rw [beforeQuery, root.whole, ← root.text]
    rfl
  have plain : '%' ∉ "file:///".toList := by decide
  cases read : locator.decoded with
  | ok shown =>
    have whole := decoded_eq_ok_iff.mp read
    rw [before, Percent.decode_append_of_not_mem plain] at whole
    obtain ⟨path, rfl, inner⟩ := whole
    have lead : locator.decoded = .ok ("file://".toList ++ '/' :: path) := read
    have runs := toPath_of_nameless root.file lead (.inr rfl)
    have reading := (alike path).mp inner
    refine { converted := ?_, undecodable := fun never => absurd reading (never path), quiet := ?_ }
    · intro path' reading' platform probe
      rw [reading] at reading'
      rw [runs, ← Except.ok.inj reading']
      rfl
    · intro platform probe
      rw [runs]
      rfl
  | error fault =>
    have runs : ∀ platform probe,
        locator.toPath platform probe = pure (.error (.undecodable locator.text fault)) := by
      intro platform probe
      rw [toPath, if_pos root.file, read]
    refine { converted := ?_, undecodable := ?_, quiet := ?_ }
    · intro path reading
      have inner := (alike path).mpr reading
      have whole := (Percent.decode_append_of_not_mem plain).mpr ⟨path, rfl, inner⟩
      rw [← before, ← decoded_eq_ok_iff, read] at whole
      cases whole
    · intro never platform probe
      exact ⟨fault, by rw [runs]; rfl⟩
    · intro platform probe
      rw [runs]
      rfl

/-- All spellings of a text behind `file:///` are locators of what that text is decoded to. -/
theorem parse_readsAs_of_respells {text other : Text} (same : Respells text other)
    (neat : Text.NeatBehind text) (absent : '?' ∉ text) :
    ∃ first second, parse ("file:///".toList ++ text) = .ok first ∧
      parse ("file:///".toList ++ other) = .ok second ∧ first.ReadsAs text ∧ second.ReadsAs text := by
  have absent' : '?' ∉ other := same.not_mem (by decide) rfl absent
  obtain ⟨first, read, root⟩ := exists_parse_root neat absent
  obtain ⟨second, read', root'⟩ := exists_parse_root (same.neatBehind neat) absent'
  exact ⟨first, second, read, read', root.readsAs fun _ => .rfl, root'.readsAs fun _ => same.decode_eq_ok_iff⟩

/-- Escaping the marks makes no difference to the path. -/
theorem parse_readsAs_of_respells_marks : ∃ first second,
    parse ("file:///".toList ++ "é+b c/d#e".toList) = .ok first ∧
    parse ("file:///".toList ++ "%C3%A9%2Bb%20c%2Fd%23e".toList) = .ok second ∧
    ∀ probe, (first.toPath other probe).value = .ok (.converted (.ofText ('/' :: "é+b c/d#e".toList))) ∧
      (second.toPath other probe).value = .ok (.converted (.ofText ('/' :: "é+b c/d#e".toList))) := by
  have wide : (EscapeSet.controls.including "+ /#").IsWide := EscapeSet.isWide_controls.including _
  have same := Percent.respells_escape wide (by decide) (by decide +kernel) "é+b c/d#e".toList
  have spelled : Percent.escape (EscapeSet.controls.including "+ /#") "é+b c/d#e".toList =
      "%C3%A9%2Bb%20c%2Fd%23e".toList := by decide +kernel
  rw [spelled] at same
  have reading : Percent.decode "é+b c/d#e".toList = .ok "é+b c/d#e".toList := by decide +kernel
  obtain ⟨first, second, read, read', here, there⟩ :=
    parse_readsAs_of_respells same (by decide) (by decide)
  exact ⟨first, second, read, read', fun probe =>
    ⟨here.converted _ reading other probe, there.converted _ reading other probe⟩⟩

/-! ## Normal forms -/

/-- The normal form of a URL with a path that holds no dot segment leads to the same path as the text that it was
read from. -/
theorem ofUrl_readsAs {text : Text} (relative : text.head? ≠ some '/') (query : '?' ∉ text)
    (fragment : '#' ∉ text) (backslash : '\\' ∉ text) (neat : Text.NeatBehind text)
    (dotless : ∀ segment ∈ Text.pieces (· == '/') text,
      Url.Route.isDot segment = false ∧ Url.Route.isDotDot segment = false) :
    ∃ locator, parse ("file:///".toList ++ text) = .ok locator ∧ locator.ReadsAs text ∧
      (ofUrl locator.url).ReadsAs text := by
  have same : Respells text (Percent.escape Url.Route.escaped text) :=
    Percent.respells_escape Url.Route.isWide_escaped (by decide) (by decide +kernel) text
  have root := isRoot_of_parse_root query
  have normal : IsRoot (ofUrl (Url.rootUrl text)) (Percent.escape Url.Route.escaped text) :=
    { text := Url.href_rootUrl relative query fragment backslash neat.stays dotless
      file := rfl
      whole := root.whole }
  exact ⟨_, parse_root (neat_root neat), root.readsAs fun _ => .rfl, normal.readsAs fun _ => same.decode_eq_ok_iff⟩

theorem ofUrl_readsAs_blank : ∃ locator, parse ("file:///".toList ++ "a b/%41é.shp".toList) = .ok locator ∧
    (ofUrl locator.url).text = "file:///a%20b/%41%C3%A9.shp".toList ∧
    ∀ probe, (locator.toPath other probe).value = .ok (.converted (.ofText ('/' :: "a b/Aé.shp".toList))) ∧
      ((ofUrl locator.url).toPath other probe).value = .ok (.converted (.ofText ('/' :: "a b/Aé.shp".toList))) := by
  have reading : Percent.decode "a b/%41é.shp".toList = .ok "a b/Aé.shp".toList := by decide +kernel
  have relative : "a b/%41é.shp".toList.head? ≠ some '/' := by decide
  obtain ⟨locator, read, written, normal⟩ :=
    ofUrl_readsAs relative (by decide) (by decide) (by decide) (by decide) (by decide)
  refine ⟨locator, read, ?_, fun probe =>
    ⟨written.converted _ reading other probe, normal.converted _ reading other probe⟩⟩
  cases read
  decide

end FileLocator.Locator
