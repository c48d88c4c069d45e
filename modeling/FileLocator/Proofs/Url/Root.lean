import FileLocator.Proofs.Unescape
import FileLocator.Proofs.Url.Breaks
import FileLocator.Proofs.Url.Scheme
import FileLocator.Proofs.Url.Solid

/-! # URLs with an empty host and a path from the root

Whatever follows `file:///` is a path, a query and a fragment, so such text is always a URL, and it has no
host. If it is a path alone and holds no dot segment, every segment stays in its place and the normal form only
escapes what a path may not hold (`href_rootUrl`).
-/

namespace FileLocator

theorem Text.cut_append_of_not_mem {mark : Char} {front : Text} (absent : mark ∉ front) (rest : Text) :
    cut mark (front ++ rest) = (front ++ (cut mark rest).1, (cut mark rest).2) := by
  have passes : ∀ c ∈ front, decide (c ≠ mark) = true := fun c member =>
    decide_eq_true fun same => absent (same ▸ member)
  rw [cut, List.takeWhile_append_of_pos passes, List.dropWhile_append_of_pos passes]
  rfl

namespace Url

theorem Scheme.isName_file : IsName "file".toList where
  letter := ⟨'f', "ile".toList, rfl, by decide⟩
  chars := List.all_eq_true.mp rfl

theorem kind_file : Kind.ofScheme "file".toList = .file := by decide

/-- The names of a path from the root, as a `file` URL with an empty host holds them. -/
def rootNames (body : Text) : List Text :=
  Route.collapse (Route.resolve .file (Text.pieces Kind.file.isSlash ('/' :: body)))

theorem parseFileBody_root (body : Text) :
    parseFileBody ("///".toList ++ body) = .ok (some (.ofHost .empty), .segments (rootNames body)) := by
  have cut : cutFileHost? ("///".toList ++ body) = some ([], '/' :: body) := rfl
  have host : Host.parseFile [] = .ok .empty := rfl
  rw [parseFileBody, cut]
  simp only [host, fileBody, ite_self, rootNames]

/-- The parts of a URL behind `file:///`. -/
def rootUrl (rest : Text) : Url :=
  { scheme := "file".toList
    authority := some (.ofHost .empty)
    route := .segments (rootNames (bodyText rest))
    query := (Text.cut '?' (Text.cut '#' rest).1).2.map fun text =>
      Percent.escape (queryEscaped .file) (Text.unbroken text)
    fragment := (Text.cut '#' rest).2.map fun text => Percent.escape fragmentEscaped (Text.unbroken text) }

theorem query_rootUrl {rest : Text} (absent : '?' ∉ rest) : (rootUrl rest).query = none := by
  have front : '?' ∉ (Text.cut '#' rest).1 := fun member => absent (List.takeWhile_subset _ member)
  rw [rootUrl, Text.cut_of_not_mem front]
  rfl

theorem fragment_rootUrl {rest : Text} (absent : '#' ∉ rest) : (rootUrl rest).fragment = none := by
  rw [rootUrl, Text.cut_of_not_mem absent]
  rfl

theorem parse_root {written rest : Text}
    (root : Text.trim Text.isEdgeBlank written = "file:///".toList ++ rest) :
    parse written = .ok (rootUrl rest) := by
  have shape : "file:///".toList ++ rest = "file".toList ++ ':' :: ("///".toList ++ rest) := rfl
  have lower : "file".toList.map Char.toLower = "file".toList := by decide
  rw [parse_eq, root, shape, Scheme.split?_of_isName Scheme.isName_file, lower]
  dsimp only
  rw [parseBehind, kind_file, Text.cut_append_of_not_mem (by decide)]
  dsimp only
  rw [Text.cut_append_of_not_mem (by decide), parseBody, parseFileBody_root]
  rfl

/-! ## The normal form -/

namespace Route

open Text (unbroken isBreak)

/-- A dot segment names the byte of the dot, also where it is escaped. -/
theorem unescape_append_of_isDot {segment : Text} (dotted : isDot segment = true) (rest : Text) :
    Percent.unescape (segment ++ rest) = 0x2E :: Percent.unescape rest := by
  simp only [isDot, Bool.or_eq_true, beq_iff_eq] at dotted
  rcases dotted with plain | escaped
  · obtain ⟨c, rfl, lower⟩ := List.map_eq_singleton_iff.mp plain
    have dot : c = '.' := (Text.eq_or_eq_toUpper lower).elim id id
    rw [dot]
    exact Percent.unescape_cons_of_ne (by decide) rest
  · obtain ⟨sign, digits, rfl, lower, behind⟩ := List.map_eq_cons_iff.mp escaped
    obtain ⟨high, last, rfl, lower', behind⟩ := List.map_eq_cons_iff.mp behind
    obtain ⟨low, rfl, lower''⟩ := List.map_eq_singleton_iff.mp behind
    have first : sign = '%' := (Text.eq_or_eq_toUpper lower).elim id id
    have second : high = '2' := (Text.eq_or_eq_toUpper lower').elim id id
    have digits : Percent.escaped? '2' low = some 0x2E := by
      rcases Text.eq_or_eq_toUpper lower'' with rfl | rfl
      · rfl
      · rfl
    rw [first, second]
    exact Percent.unescape_escape digits rest

/-- A double dot segment is made of two dot segments. -/
theorem exists_of_isDotDot {segment : Text} (dots : isDotDot segment = true) :
    ∃ first second, segment = first ++ second ∧ isDot first = true ∧ isDot second = true := by
  have divided : ∀ front back : Text, isDot front = true → isDot back = true → front.map Char.toLower = front →
      back.map Char.toLower = back → segment.map Char.toLower = front ++ back →
      ∃ first second, segment = first ++ second ∧ isDot first = true ∧ isDot second = true := by
    intro front back before behind lower lower' same
    obtain ⟨first, second, rfl, rfl, rfl⟩ := List.map_eq_append_iff.mp same
    rw [isDot, lower] at before
    rw [isDot, lower'] at behind
    exact ⟨first, second, rfl, before, behind⟩
  simp only [isDotDot, Bool.or_eq_true, beq_iff_eq] at dots
  rcases dots with ((same | same) | same) | same
  · exact divided ".".toList ".".toList rfl rfl rfl rfl same
  · exact divided "%2e".toList ".".toList rfl rfl rfl rfl same
  · exact divided ".".toList "%2e".toList rfl rfl rfl rfl same
  · exact divided "%2e".toList "%2e".toList rfl rfl rfl rfl same

/-- A segment that is resolved to itself, escaped. -/
structure IsPlain (segment : Text) : Prop where
  stays : ∀ c ∈ segment, isBreak c = false
  dot : isDot segment = false
  dotDot : isDotDot segment = false

theorem follow_of_isPlain {kind : Kind} {done : List Text} (started : done ≠ []) {segment : Text}
    (plain : IsPlain segment) : follow kind done segment = done ++ [Percent.escape escaped segment] := by
  have whole : unbroken segment = segment := Text.unbroken_eq_self_iff.mpr plain.stays
  rw [follow, whole, plain.dotDot, plain.dot]
  simp [started]

theorem foldl_follow_of_isPlain {kind : Kind} {done segments : List Text} (started : done ≠ [])
    (plain : ∀ segment ∈ segments, IsPlain segment) :
    segments.foldl (follow kind) done = done ++ segments.map (Percent.escape escaped) := by
  induction segments generalizing done with
  | nil => simp
  | cons segment segments ih =>
    rw [List.forall_mem_cons] at plain
    rw [List.foldl_cons, follow_of_isPlain started plain.1, ih (by simp) plain.2, List.map_cons,
      List.append_assoc]
    rfl

/-- The empty segment in front keeps what follows from being a drive letter. -/
theorem resolve_of_isPlain {segments : List Text} (plain : ∀ segment ∈ segments, IsPlain segment) :
    resolve .file ([] :: segments) = [] :: segments.map (Percent.escape escaped) := by
  have empty : IsPlain [] := ⟨by simp, rfl, rfl⟩
  have first : follow .file [] [] = [[]] := by decide
  have last : ∀ segment, ([] :: segments).getLast? = some segment → IsPlain segment := fun segment final =>
    List.forall_mem_cons.mpr ⟨empty, plain⟩ segment (List.mem_of_getLast? final)
  have names : ([] :: segments).foldl (follow .file) [] = [] :: segments.map (Percent.escape escaped) := by
    rw [List.foldl_cons, first, foldl_follow_of_isPlain (by simp) plain]
    rfl
  rw [resolve, names]
  split
  · next segment final =>
    have whole : unbroken segment = segment := Text.unbroken_eq_self_iff.mpr (last segment final).stays
    rw [whole, (last segment final).dot, (last segment final).dotDot]
    rfl
  · rfl

/-- Escaping goes past the slashes of a path. -/
theorem slashed_escape_pieces (text : Text) :
    slashed ((Text.pieces (· == '/') text).map (Percent.escape escaped)) = '/' :: Percent.escape escaped text := by
  have slash : Percent.escape escaped ['/'] = ['/'] := by decide
  induction text with
  | nil => rfl
  | cons c rest ih =>
    have split : Percent.escape escaped (c :: rest) = Percent.escape escaped [c] ++ Percent.escape escaped rest :=
      Percent.escape_append escaped [c] rest
    rw [Text.pieces, split]
    by_cases separates : c = '/'
    · subst separates
      rw [slash, if_pos (by decide), List.map_cons, slashed, List.flatMap_cons]
      exact congrArg ('/' :: ·) ih
    · rw [if_neg (by simpa using separates)]
      obtain ⟨piece, others, parts⟩ := List.exists_cons_of_ne_nil (Text.pieces_ne_nil (· == '/') rest)
      have attached : Percent.escape escaped (c :: piece) =
          Percent.escape escaped [c] ++ Percent.escape escaped piece := Percent.escape_append escaped [c] piece
      rw [parts, List.map_cons, slashed, List.flatMap_cons, List.cons_append] at ih
      rw [parts, Text.attach, List.map_cons, slashed, List.flatMap_cons, attached, List.cons_append,
        List.append_assoc, (List.cons.inj ih).2]

/-- Nothing collapses behind the empty segment in front if the path does not begin with a slash of its own. -/
theorem collapse_escape_pieces {text : Text} (relative : text.head? ≠ some '/') :
    collapse ([] :: (Text.pieces (· == '/') text).map (Percent.escape escaped)) =
      (Text.pieces (· == '/') text).map (Percent.escape escaped) := by
  cases text with
  | nil => rfl
  | cons c rest =>
    have other : ¬ (c == '/') = true := by simpa using relative
    obtain ⟨piece, others, parts⟩ := List.exists_cons_of_ne_nil (Text.pieces_ne_nil (· == '/') rest)
    have nonempty : Percent.escape escaped (c :: piece) ≠ [] := by
      intro none
      have first := Percent.head?_escape isWide_escaped c piece
      rw [none] at first
      rcases first with absent | absent <;> cases absent
    rw [Text.pieces, if_neg other, parts, Text.attach, List.map_cons, collapse]
    simp [nonempty]

end Route

/-- The normal form escapes what a path may not hold, and that is all. -/
theorem href_rootUrl {text : Text} (relative : text.head? ≠ some '/')
    (query : '?' ∉ text) (fragment : '#' ∉ text) (backslash : '\\' ∉ text)
    (stays : ∀ c ∈ text, Text.isBreak c = false)
    (dotless : ∀ segment ∈ Text.pieces (· == '/') text,
      Route.isDot segment = false ∧ Route.isDotDot segment = false) :
    (rootUrl text).href = "file:///".toList ++ Percent.escape Route.escaped text := by
  have slashes : Text.pieces Kind.file.isSlash text = Text.pieces (· == '/') text := by
    apply Text.pieces_congr
    intro c member
    have other : c ≠ '\\' := fun same => backslash (same ▸ member)
    simp [Kind.isSlash, other]
  have plain : ∀ segment ∈ Text.pieces (· == '/') text, Route.IsPlain segment := fun segment member =>
    { stays := fun c inside => stays c (Text.mem_of_mem_pieces member c inside)
      dot := (dotless segment member).1
      dotDot := (dotless segment member).2 }
  have names : rootNames text = (Text.pieces (· == '/') text).map (Percent.escape Route.escaped) := by
    have first : Text.pieces Kind.file.isSlash ('/' :: text) = [] :: Text.pieces Kind.file.isSlash text := rfl
    rw [rootNames, first, slashes, Route.resolve_of_isPlain plain, Route.collapse_escape_pieces relative]
  have body : bodyText text = text := by
    rw [bodyText, Text.cut_of_not_mem fragment, Text.cut_of_not_mem query]
  have path : (rootUrl text).path = '/' :: Percent.escape Route.escaped text := by
    rw [Url.path, rootUrl, body, names]
    exact Route.slashed_escape_pieces text
  rw [href, path, query_rootUrl query, fragment_rootUrl fragment, marked, marked, List.append_nil, List.append_nil]
  rfl

end Url

end FileLocator
