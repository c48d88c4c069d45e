import FileLocator.Proofs.Locator.Platforms
import FileLocator.Proofs.Url.File

/-! # Queries make no difference

What follows a question mark is a query, whatever it holds, and it is cut off before the text is decoded. So
with a query and without one, a `file` locator leads to the same path after the same questions, or fails for the
same reason (`parse_query_convertsAs`). For a text without a slash behind `file:` the path is taken from the URL,
and there the query is kept apart as well.
-/

namespace FileLocator.Locator

open Text (Neat cleanBehind)
open Url (parseBehind parseFileBody)

/-- Two locators lead to the same path after the same questions, or fail for the same reason. -/
structure ConvertsAs (first second : Locator) : Prop where
  questions : ∀ platform probe,
    (first.toPath platform probe).questions = (second.toPath platform probe).questions
  outcome : ∀ platform probe,
    (∃ path, (first.toPath platform probe).value = .ok (.converted path) ∧
      (second.toPath platform probe).value = .ok (.converted path)) ∨
    ∃ fault, (first.toPath platform probe).value = .error (.undecodable first.text fault) ∧
      (second.toPath platform probe).value = .error (.undecodable second.text fault)

theorem convertsAs_of_decoded {first second : Locator} (file : first.isFile = true) (file' : second.isFile = true)
    (same : first.decoded = second.decoded)
    (raw : ∀ platform probe text, first.decoded = .ok text →
      first.rawPath platform probe text = second.rawPath platform probe text) : ConvertsAs first second := by
  cases read : first.decoded with
  | error fault =>
    have runs : ∀ platform probe, first.toPath platform probe = pure (.error (.undecodable first.text fault)) := by
      intro platform probe
      rw [toPath, if_pos file, read]
    have runs' : ∀ platform probe, second.toPath platform probe = pure (.error (.undecodable second.text fault)) := by
      intro platform probe
      rw [toPath, if_pos file', ← same, read]
    constructor
    · intro platform probe
      rw [runs, runs']
      rfl
    · intro platform probe
      exact .inr ⟨fault, by rw [runs]; rfl, by rw [runs']; rfl⟩
  | ok text =>
    have read' : second.decoded = .ok text := same ▸ read
    constructor
    · intro platform probe
      rw [toPath_of_decoded file read, toPath_of_decoded file' read', raw platform probe text read]
      rfl
    · intro platform probe
      refine .inl ⟨platform.nativePath (second.rawPath platform probe text).value, ?_, ?_⟩
      · rw [toPath_of_decoded file read, raw platform probe text read]
        rfl
      · rw [toPath_of_decoded file' read']
        rfl

/-! ## What the path is taken from -/

theorem rawPath_congr {first second : Locator} (same : first.authorityPath = second.authorityPath)
    (platform : Platform) (probe : Probe) (text : Text) :
    first.rawPath platform probe text = second.rawPath platform probe text := by
  rw [rawPath, rawPath, same]

/-- Behind `file://` the URL is not looked at. -/
theorem rawPath_eq_of_lead (first second : Locator) (platform : Platform) (probe : Probe) {text : Text}
    (lead : "file://".toList <+: text) :
    first.rawPath platform probe text = second.rawPath platform probe text := by
  obtain ⟨rest, rfl⟩ := lead
  rw [rawPath_lead, rawPath_lead]

theorem authorityPath_congr {first second : Locator} (authority : first.url.authority = second.url.authority)
    (route : first.url.route = second.url.route) : first.authorityPath = second.authorityPath := by
  have place : first.authority = second.authority := by
    obtain ⟨text, url⟩ := first
    obtain ⟨text', url'⟩ := second
    obtain ⟨scheme, front, path, query, fragment⟩ := url
    dsimp only at authority
    rw [authority]
    rfl
  have path : first.path = second.path := by rw [Locator.path, Locator.path, Url.path, Url.path, route]
  rw [authorityPath, authorityPath, place, path]

/-! ## Reading with a query -/

/-- Neat text behind `file:` is a locator if it is a URL, with nothing to lose. -/
theorem parse_of_neat {rest : Text} (neat : Neat ("file:".toList ++ rest)) {url : Url}
    (read : parseBehind "file".toList rest = .ok url) (scheme : url.scheme = "file".toList) :
    parse ("file:".toList ++ rest) = .ok { text := "file:".toList ++ rest, url } := by
  rw [parse_eq_ok_iff, Text.clean_eq_self neat, Url.parse_of_neat neat]
  have lower : url.scheme = "file".toList.map Char.toLower := scheme
  have shape : "file:".toList ++ rest = "file".toList ++ ':' :: rest := rfl
  refine ⟨read, ?_⟩
  rw [shape, keep_append lower, scheme]

/-- The text of a `file` locator without marks is the body of a URL, which is that of the locator unless two
slashes begin it. -/
theorem Reachable.exists_parseFileBody {locator : Locator} (reachable : Reachable Url.IsRead locator)
    (file : locator.isFile = true) (query : '?' ∉ locator.text) (fragment : '#' ∉ locator.text) :
    ∃ rest body, locator.text = "file:".toList ++ rest ∧ Neat locator.text ∧ parseFileBody rest = .ok body ∧
      ((locator.url.authority, locator.url.route) = body ∨ "//".toList <+: rest) := by
  rw [isFile, beq_iff_eq] at file
  rcases reachable.origin with ⟨written, read⟩ | ⟨url, known, rfl⟩
  · have neat := neat_of_parse read
    obtain ⟨name, rest, -, -, -, -, text⟩ := text_of_parse read
    rw [file] at text
    change locator.text = "file:".toList ++ rest at text
    have again := (parse_eq_ok_iff.mp (parse_text_of_parse read)).1
    rw [Text.clean_eq_self neat] at again
    rw [text] at neat query fragment again
    rw [Url.parse_of_neat neat] at again
    have absent : '?' ∉ rest := fun member => query (List.mem_append_right _ member)
    have absent' : '#' ∉ rest := fun member => fragment (List.mem_append_right _ member)
    exact ⟨rest, _, text, text ▸ neat, Url.parseFileBody_of_parseBehind absent absent' again, .inl rfl⟩
  -- The body may be read as another path than that of the URL, but behind two slashes only the text matters.
  · obtain ⟨path, body, text, parts⟩ := known.exists_parseFileBody file query fragment
    obtain ⟨written, read⟩ := known
    exact ⟨_, body, text, Url.neat_href read, parts, .inr (List.prefix_append ..)⟩

/-- A query behind the body of a `file` URL is read as one, and the body as before. -/
theorem exists_parse_query {rest : Text} {body : Url.Body} (query : '?' ∉ rest) (fragment : '#' ∉ rest)
    (neat : Neat ("file:".toList ++ rest)) (read : parseFileBody rest = .ok body) (asked : Text) :
    ∃ asking behind, parse ("file:".toList ++ rest ++ '?' :: asked) = .ok asking ∧
      asking.text = "file:".toList ++ rest ++ '?' :: behind ∧ asking.isFile = true ∧
      asking.query?.isSome = true ∧ (asking.url.authority, asking.url.route) = body := by
  -- The question mark is no blank, so cleaning does not reach what stands in front of it.
  have mark : Text.IsSolid ['?'] := by decide
  have lead : Neat ("file:".toList ++ rest ++ ['?']) := neat.append (by simp) mark.neat.neatBehind
  have cleaned : Text.clean ("file:".toList ++ rest ++ '?' :: asked) =
      "file:".toList ++ (rest ++ '?' :: cleanBehind asked) := by
    rw [List.append_cons, Text.clean_append lead (by simp)]
    simp only [List.append_assoc]
    rfl
  have neat' := Text.neat_clean ("file:".toList ++ rest ++ '?' :: asked)
  have twice := Text.clean_eq_self neat'
  rw [cleaned] at neat'
  obtain ⟨url, again, scheme, same, some⟩ := Url.parseBehind_file_append query fragment read (cleanBehind asked)
  have found := parse_of_neat neat' again scheme
  rw [← cleaned] at found
  refine ⟨_, cleanBehind asked, (parse_eq_ok_congr twice).mp found, ?_, ?_, some, same⟩
  · rw [cleaned, List.append_assoc]
  · rw [isFile, Locator.scheme, scheme]
    rfl

/-- A query makes no difference to what a `file` locator leads to. -/
theorem parse_query_convertsAs {locator : Locator} (reachable : Reachable Url.IsRead locator)
    (file : locator.isFile = true) (query : '?' ∉ locator.text) (fragment : '#' ∉ locator.text) (asked : Text) :
    ∃ asking, parse (locator.text ++ '?' :: asked) = .ok asking ∧ asking.isFile = true ∧
      ConvertsAs asking locator := by
  obtain ⟨rest, body, text, neat, parts, origin⟩ := reachable.exists_parseFileBody file query fragment
  have before := beforeQuery_of_not_mem query
  rw [text] at neat query fragment
  obtain ⟨asking, behind, read, text', file', some, same⟩ :=
    exists_parse_query (fun member => query (List.mem_append_right _ member))
      (fun member => fragment (List.mem_append_right _ member)) neat parts asked
  have before' : asking.beforeQuery = locator.beforeQuery := by
    rw [before, text]
    exact beforeQuery_of_append query text' some
  have decoded : asking.decoded = locator.decoded := by rw [Locator.decoded, Locator.decoded, before']
  rw [← text] at read
  refine ⟨asking, read, file', convertsAs_of_decoded file' file decoded ?_⟩
  intro platform probe shown found
  rcases origin with origin | ⟨path, slashes⟩
  · obtain ⟨authority, route⟩ := Prod.mk.inj (same.trans origin.symm)
    exact rawPath_congr (authorityPath_congr authority route) platform probe shown
  · apply rawPath_eq_of_lead
    apply isPrefix_of_decoded (by decide) (by decide) _ found
    rw [text', ← slashes]
    exact ⟨path ++ '?' :: behind, by simp⟩

/-- A query that holds marks and what is no escape, behind a text whose path is taken from the URL. -/
theorem parse_query_convertsAs_marks : ∃ locator asking, parse "file:a%20b".toList = .ok locator ∧
    locator.isFile = true ∧ parse ("file:a%20b".toList ++ '?' :: "x+/%zz?#\t".toList) = .ok asking ∧
    asking.isFile = true ∧ ConvertsAs asking locator := by
  have read : parse "file:a%20b".toList = .ok _ := rfl
  obtain ⟨asking, found, file, same⟩ :=
    parse_query_convertsAs (.parse read) rfl (by decide) (by decide) "x+/%zz?#\t".toList
  exact ⟨_, asking, read, rfl, found, file, same⟩

end FileLocator.Locator
