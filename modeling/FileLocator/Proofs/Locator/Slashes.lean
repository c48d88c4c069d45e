import FileLocator.Proofs.Locator.Root
import FileLocator.Proofs.Url.Body
import FileLocator.Proofs.Url.File

/-! # One slash and three

A path from the root may be written behind `file:/` or behind `file:///`. Both spellings are decoded or neither is,
and they lead to the same path without a question, unless the decoded path begins with a slash of its own: behind one
slash that slash is taken for the start of a host, and the two paths part (`parse_one_slash`). What counts is the
decoded text, so an escaped slash has the same effect.
-/

namespace FileLocator.Locator

open Platform (other)
open Text (Neat NeatBehind)

/-! ## Text up to its query -/

/-- Text up to the query that a URL has which ends in it: a question mark behind the fragment begins none. -/
def upToQuery (text : Text) : Text := if '?' ∈ (Text.cut '#' text).1 then text.takeWhile (· != '?') else text

theorem beforeQuery_eq_append {locator : Locator} {front text : Text} (absent : '?' ∉ front)
    (written : locator.text = front ++ text)
    (asks : locator.query?.isSome = true ↔ '?' ∈ (Text.cut '#' text).1) :
    locator.beforeQuery = front ++ upToQuery text := by
  rw [beforeQuery, upToQuery, written]
  by_cases query : '?' ∈ (Text.cut '#' text).1
  · rw [if_pos (asks.mpr query), if_pos query, Text.takeWhile_append_of_not_mem absent]
  · rw [if_neg fun some => query (asks.mp some), if_neg query]

/-! ## Both spellings -/

/-- A `file` locator with these slashes and this text behind the colon, up to its query. -/
structure IsSpelled (locator : Locator) (slashes text : Text) : Prop where
  file : locator.isFile = true
  before : locator.beforeQuery = "file:".toList ++ slashes ++ upToQuery text

theorem isSpelled_of_parse {slashes text : Text} (query : '?' ∉ slashes) (fragment : '#' ∉ slashes)
    (neat : Neat ("file:".toList ++ (slashes ++ text))) {locator : Locator}
    (read : parse ("file:".toList ++ (slashes ++ text)) = .ok locator) : locator.IsSpelled slashes text := by
  obtain ⟨found, kept⟩ := parse_eq_ok_iff.mp read
  rw [Text.clean_eq_self neat] at found kept
  rw [Url.parse_of_neat neat] at found
  obtain ⟨scheme, -, asks⟩ := Url.parts_of_parseBehind found
  have lower : locator.url.scheme = "file".toList.map Char.toLower := scheme
  have shape : "file:".toList ++ (slashes ++ text) = "file".toList ++ ':' :: (slashes ++ text) := rfl
  rw [shape, keep_append lower, scheme] at kept
  have front : '?' ∉ "file:".toList ++ slashes := by
    rw [List.mem_append, not_or]
    exact ⟨by decide, query⟩
  refine { file := ?_, before := beforeQuery_eq_append front ?_ ?_ }
  · rw [isFile, Locator.scheme, scheme]
    rfl
  · rw [kept, List.append_assoc]
    rfl
  · rw [query?, asks, Text.cut_append_of_not_mem fragment, List.mem_append]
    exact or_iff_right query

theorem IsSpelled.decoded_iff {locator : Locator} {slashes text : Text} (spelled : locator.IsSpelled slashes text)
    (plain : '%' ∉ slashes) {shown : Text} :
    locator.decoded = .ok shown ↔
      ∃ path, shown = "file:".toList ++ slashes ++ path ∧ Percent.decode (upToQuery text) = .ok path := by
  have front : '%' ∉ "file:".toList ++ slashes := by
    rw [List.mem_append, not_or]
    exact ⟨by decide, plain⟩
  rw [decoded_eq_ok_iff, spelled.before, Percent.decode_append_of_not_mem front]

theorem IsSpelled.exists_error {locator : Locator} {slashes text : Text} (spelled : locator.IsSpelled slashes text)
    (plain : '%' ∉ slashes) (never : ∀ path, Percent.decode (upToQuery text) ≠ .ok path) (platform : Platform)
    (probe : Probe) : ∃ error, (locator.toPath platform probe).value = .error error := by
  cases read : locator.decoded with
  | error fault =>
    rw [toPath, if_pos spelled.file, read]
    exact ⟨_, rfl⟩
  | ok shown =>
    obtain ⟨path, -, inner⟩ := (spelled.decoded_iff plain).mp read
    exact absurd inner (never path)

theorem IsSpelled.exists_converted {locator : Locator} {slashes text path : Text}
    (spelled : locator.IsSpelled slashes text) (plain : '%' ∉ slashes)
    (reading : Percent.decode (upToQuery text) = .ok path) (platform : Platform) (probe : Probe) :
    ∃ path, (locator.toPath platform probe).value = .ok (.converted path) := by
  have read := (spelled.decoded_iff plain).mpr ⟨path, rfl, reading⟩
  rw [toPath_of_decoded spelled.file read]
  exact ⟨_, rfl⟩

/-- Behind three slashes, the decoded text is the path from the root. -/
theorem IsSpelled.toPath_three {locator : Locator} {text path : Text} (spelled : locator.IsSpelled "///".toList text)
    (reading : Percent.decode (upToQuery text) = .ok path) (platform : Platform) (probe : Probe) :
    locator.toPath platform probe = locator.direct platform ('/' :: path) := by
  have read : locator.decoded = .ok ("file://".toList ++ '/' :: path) :=
    (spelled.decoded_iff (by decide)).mpr ⟨path, rfl, reading⟩
  exact toPath_of_nameless spelled.file read (.inr rfl) platform probe

/-- Behind one slash it is so as well, unless it begins with another. -/
theorem IsSpelled.toPath_one {locator : Locator} {text path : Text} (spelled : locator.IsSpelled "/".toList text)
    (reading : Percent.decode (upToQuery text) = .ok path) (single : path.head? ≠ some '/') (platform : Platform)
    (probe : Probe) : locator.toPath platform probe = locator.direct platform ('/' :: path) := by
  have read : locator.decoded = .ok ("file:/".toList ++ path) :=
    (spelled.decoded_iff (by decide)).mpr ⟨path, rfl, reading⟩
  have otherwise : Text.after? "file://".toList ("file:/".toList ++ path) = none := by
    rw [Option.eq_none_iff_forall_ne_some]
    intro rest lead
    rw [Text.after?_eq_some_iff] at lead
    have shape : "file:/".toList ++ path = "file:/".toList ++ '/' :: rest := lead
    rw [List.append_cancel_left shape] at single
    exact single rfl
  rw [toPath_of_decoded spelled.file read, rawPath, otherwise]
  simp only [Text.after?_append]
  rfl

/-- A second slash behind one makes the rest a path as it is, without a slash in front. -/
theorem IsSpelled.toPath_one_of_slash {locator : Locator} {text path : Text}
    (spelled : locator.IsSpelled "/".toList text) (reading : Percent.decode (upToQuery text) = .ok ('/' :: path))
    (probe : Probe) : locator.toPath other probe = locator.direct other path := by
  have read : locator.decoded = .ok ("file://".toList ++ path) :=
    (spelled.decoded_iff (by decide)).mpr ⟨'/' :: path, rfl, reading⟩
  exact toPath_other_of_lead spelled.file read probe

/-! ## Where they part -/

/-- What two locators have to do with each other that are written with one slash and with three in front of a text. -/
structure Spellings (text : Text) (one three : Locator) : Prop where
  error_iff : ∀ platform probe probe',
    (∃ error, (one.toPath platform probe).value = .error error) ↔
      ∃ error, (three.toPath platform probe').value = .error error
  /-- They fail exactly when the text up to its query can not be decoded. -/
  decodes : ∀ platform probe,
    (∃ path, (one.toPath platform probe).value = .ok (.converted path)) ↔
      ∃ shown, Percent.decode (upToQuery text) = .ok shown
  same : ∀ shown, Percent.decode (upToQuery text) = .ok shown → shown.head? ≠ some '/' →
    ∀ platform probe probe', ∃ path,
      (one.toPath platform probe).value = .ok (.converted path) ∧
      (three.toPath platform probe').value = .ok (.converted path) ∧
      (one.toPath platform probe).questions = [] ∧ (three.toPath platform probe').questions = []
  apart : ∀ shown, Percent.decode (upToQuery text) = .ok shown → shown.head? = some '/' →
    ∀ probe probe', ∃ path path',
      (one.toPath other probe).value = .ok (.converted path) ∧
      (three.toPath other probe').value = .ok (.converted path') ∧ path ≠ path'

theorem spellings_of_error {text : Text} {one three : Locator} (single : one.IsSpelled "/".toList text)
    (triple : three.IsSpelled "///".toList text) (never : ∀ shown, Percent.decode (upToQuery text) ≠ .ok shown) :
    Spellings text one three where
  error_iff platform probe probe' :=
    iff_of_true (single.exists_error (by decide) never platform probe)
      (triple.exists_error (by decide) never platform probe')
  decodes platform probe := by
    obtain ⟨error, failed⟩ := single.exists_error (by decide) never platform probe
    rw [failed]
    exact iff_of_false (by simp) fun ⟨shown, reading⟩ => never shown reading
  same shown reading := absurd reading (never shown)
  apart shown reading := absurd reading (never shown)

theorem spellings_of_ok {text shown : Text} {one three : Locator} (single : one.IsSpelled "/".toList text)
    (triple : three.IsSpelled "///".toList text) (reading : Percent.decode (upToQuery text) = .ok shown) :
    Spellings text one three where
  error_iff platform probe probe' := by
    obtain ⟨path, converted⟩ := single.exists_converted (by decide) reading platform probe
    obtain ⟨path', converted'⟩ := triple.exists_converted (by decide) reading platform probe'
    rw [converted, converted']
    exact iff_of_false (by simp) (by simp)
  decodes platform probe :=
    iff_of_true (single.exists_converted (by decide) reading platform probe) ⟨shown, reading⟩
  same found same alone platform probe probe' := by
    rw [single.toPath_one same alone, triple.toPath_three same]
    exact ⟨_, rfl, rfl, rfl, rfl⟩
  apart found same slash probe probe' := by
    obtain ⟨path, rfl⟩ := List.head?_eq_some_iff.mp slash
    rw [single.toPath_one_of_slash same, triple.toPath_three same]
    refine ⟨.ofText path, .ofText ('/' :: '/' :: path), rfl, rfl, fun equal => ?_⟩
    have texts := congrArg List.length (Utf8.encode_inj.mp (Path.mk.inj equal))
    rw [List.length_cons, List.length_cons] at texts
    omega

/-- Text that can be read behind one slash can be read behind three, and leads to the same path unless it begins with
a slash when it is decoded. -/
theorem parse_one_slash {text : Text} (neat : NeatBehind text) {one : Locator}
    (read : parse ("file:/".toList ++ text) = .ok one) :
    ∃ three, parse ("file:///".toList ++ text) = .ok three ∧ Spellings text one three := by
  have root := neat_root neat
  have three := parse_root root
  have lead : Text.IsSolid "file:/".toList := by decide
  have neat' : Neat ("file:/".toList ++ text) := lead.neat.append (by decide) neat
  have shape : "file:/".toList ++ text = "file:".toList ++ ("/".toList ++ text) := rfl
  have shape' : "file:///".toList ++ text = "file:".toList ++ ("///".toList ++ text) := rfl
  refine ⟨_, three, ?_⟩
  rw [shape] at read neat'
  rw [shape'] at root three
  have single := isSpelled_of_parse (by decide) (by decide) neat' read
  have triple := isSpelled_of_parse (by decide) (by decide) root three
  cases reading : Percent.decode (upToQuery text) with
  | error fault =>
    apply spellings_of_error single triple
    intro shown other
    rw [reading] at other
    cases other
  | ok shown => exact spellings_of_ok single triple reading

/-- A plus sign and a query make no difference, and an escaped slash in front makes the paths part. -/
theorem parse_one_slash_escaped :
    (∃ one three, parse ("file:/".toList ++ "a+b%20c?d/e".toList) = .ok one ∧
      parse ("file:///".toList ++ "a+b%20c?d/e".toList) = .ok three ∧
      ∀ platform probe probe', ∃ path, (one.toPath platform probe).value = .ok (.converted path) ∧
        (three.toPath platform probe').value = .ok (.converted path)) ∧
    ∃ one three, parse ("file:/".toList ++ "%2Fa".toList) = .ok one ∧
      parse ("file:///".toList ++ "%2Fa".toList) = .ok three ∧
      ∀ probe probe', ∃ path path', (one.toPath other probe).value = .ok (.converted path) ∧
        (three.toPath other probe').value = .ok (.converted path') ∧ path ≠ path' := by
  constructor
  · have read : parse ("file:/".toList ++ "a+b%20c?d/e".toList) = .ok _ := rfl
    obtain ⟨three, read', spelled⟩ := parse_one_slash (by decide) read
    refine ⟨_, three, read, read', fun platform probe probe' => ?_⟩
    obtain ⟨path, here, there, -, -⟩ := spelled.same "a+b c".toList rfl (by decide) platform probe probe'
    exact ⟨path, here, there⟩
  · have read : parse ("file:/".toList ++ "%2Fa".toList) = .ok _ := rfl
    obtain ⟨three, read', spelled⟩ := parse_one_slash (by decide) read
    exact ⟨_, three, read, read', spelled.apart "/a".toList rfl rfl⟩

end FileLocator.Locator
