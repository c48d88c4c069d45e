import FileLocator.Proofs.Neat
import FileLocator.Url.Parse

/-! # Breaks in written URLs

Reading a URL skips breaks, so that taking them out first makes no difference, with one exception: in the
path of a `file` URL, a break right behind a drive letter that comes up as the first segment ends that
segment, if more follows in it. `breaksDrive` finds out whether this happens. If it does not, a URL may
be cleaned before it is read (`parse_clean`), and if it does, cleaning changes the path and nothing else.
-/

namespace FileLocator.Url

open Text (unbroken isBreak)

theorem map_eq_error_iff {ε α β : Type} {change : α → β} {result : Except ε α} {error : ε} :
    result.map change = .error error ↔ result = .error error := by
  cases result <;> simp [Except.map]

/-! ## Schemes and slashes -/

theorem Scheme.split?_unbroken (written : Text) :
    Scheme.split? (unbroken written) =
      (Scheme.split? written).map fun (scheme, rest) => (scheme, unbroken rest) := by
  have passes : ∀ c, isBreak c = true → (c != ':') = true := fun c skipped =>
    bne_iff_ne.mpr (Text.ne_of_isBreak rfl skipped)
  simp only [split?, Text.takeWhile_unbroken passes, Text.dropWhile_unbroken passes, Text.unbroken_unbroken]
  cases unbroken (written.takeWhile (· != ':')) with
  | nil => rfl
  | cons first others =>
    cases behind : written.dropWhile (· != ':') with
    | nil => rfl
    | cons c rest =>
      have colon : c = ':' := by
        have stopped := List.head?_dropWhile_not (· != ':') written
        rw [behind] at stopped
        simpa using stopped
      subst colon
      rw [Text.unbroken_cons rfl]
      change (if first.isAlpha && others.all isSchemeChar then _ else none) =
        Option.map _ (if first.isAlpha && others.all isSchemeChar then _ else none)
      split <;> rfl

theorem Kind.isSlash_eq_false {kind : Kind} {c : Char} (slash : c ≠ '/') (backslash : c ≠ '\\') :
    kind.isSlash c = false := by
  simp [isSlash, slash, backslash]

theorem Kind.isBreak_of_isSlash {kind : Kind} {c : Char} (slash : kind.isSlash c = true) :
    isBreak c = false := by
  simp only [Kind.isSlash, Bool.or_eq_true, Bool.and_eq_true, beq_iff_eq] at slash
  rcases slash with rfl | ⟨_, rfl⟩ <;> rfl

theorem Kind.isSlash_of_isBreak {kind : Kind} {c : Char} (skipped : isBreak c = true) :
    kind.isSlash c = false :=
  isSlash_eq_false (Text.ne_of_isBreak rfl skipped) (Text.ne_of_isBreak rfl skipped)

/-! ## Segments -/

namespace Route

theorem pieces_unbroken (kind : Kind) (written : Text) :
    pieces kind (unbroken written) = (pieces kind written).map unbroken := by
  rw [pieces, pieces, Text.pieces_unbroken fun c => Kind.isBreak_of_isSlash]
  cases Text.pieces kind.isSlash written with
  | nil => rfl
  | cons first others =>
    cases others with
    | nil => rfl
    | cons second others =>
      simp only [List.map_cons, Text.unbroken_unbroken]
      split <;> rfl

theorem brokenDrive?_eq_none_of_stays {written : Text} (stays : ∀ c ∈ written, isBreak c = false) :
    brokenDrive? written = none := by
  rw [brokenDrive?, Text.dropWhile_isBreak_of_stays stays]
  cases written with
  | nil => rfl
  | cons letter rest =>
    have others : ∀ c ∈ rest, isBreak c = false := fun c member => stays c (List.mem_cons_of_mem _ member)
    dsimp only
    rw [Text.dropWhile_isBreak_of_stays others]
    split
    · next skipped behind =>
      have solid : isBreak skipped = false := others skipped (by simp)
      simp [solid]
    · rfl

theorem brokenDrive?_unbroken (written : Text) : brokenDrive? (unbroken written) = none :=
  brokenDrive?_eq_none_of_stays fun _ => Text.isBreak_of_mem_unbroken

/-- What a segment looks like whose drive letter is cut off. -/
theorem brokenDrive?_eq_some {written drive behind : Text}
    (cutOff : brokenDrive? written = some (drive, behind)) :
    ∃ letter, letter.isAlpha = true ∧ drive = [letter, ':'] ∧ behind ≠ [] ∧
      unbroken written = letter :: ':' :: behind := by
  rw [brokenDrive?] at cutOff
  cases front : written.dropWhile isBreak with
  | nil => simp [front] at cutOff
  | cons letter rest =>
    rw [front] at cutOff
    dsimp only at cutOff
    split at cutOff
    · next skipped tail next =>
      split at cutOff
      · next holds =>
        simp only [Bool.and_eq_true, decide_eq_true_eq] at holds
        obtain ⟨⟨alpha, isSkipped⟩, nonempty⟩ := holds
        obtain ⟨rfl, rfl⟩ := Prod.mk.inj (Option.some.inj cutOff)
        refine ⟨letter, alpha, rfl, nonempty, ?_⟩
        rw [← Text.unbroken_dropWhile_isBreak written, front,
          Text.unbroken_cons (Text.isBreak_eq_false_of_dropWhile front),
          ← Text.unbroken_dropWhile_isBreak rest, next, Text.unbroken_cons rfl]
        simp [unbroken, isSkipped]
      · cases cutOff
    · cases cutOff

/-- Does a drive letter that a break cuts off come up as the first segment, behind those that are
`done`? -/
def breaksDrive (done : List Text) : List Text → Bool
  | [] => false
  | written :: rest =>
    (done = [] && (brokenDrive? written).isSome) || breaksDrive (follow .file done written) rest

theorem follow_unbroken {done : List Text} {written : Text}
    (whole : ¬(done = [] ∧ (brokenDrive? written).isSome = true)) :
    follow .file done (unbroken written) = follow .file done written := by
  rw [follow, follow, Text.unbroken_unbroken]
  by_cases first : done = []
  · have none : brokenDrive? written = none := by
      rw [← Option.not_isSome_iff_eq_none]
      exact fun some => whole ⟨first, some⟩
    simp only [leading, brokenDrive?_unbroken, none, Text.unbroken_unbroken]
  · simp only [first, and_false, if_false]

theorem foldl_follow_unbroken {done names : List Text} (whole : breaksDrive done names = false) :
    (names.map unbroken).foldl (follow .file) done = names.foldl (follow .file) done := by
  induction names generalizing done with
  | nil => rfl
  | cons written rest ih =>
    rw [breaksDrive, Bool.or_eq_false_iff] at whole
    rw [List.map_cons, List.foldl_cons, List.foldl_cons, follow_unbroken (by simpa using whole.1)]
    exact ih whole.2

theorem resolve_unbroken {names : List Text} (whole : breaksDrive [] names = false) :
    resolve .file (names.map unbroken) = resolve .file names := by
  rw [resolve, resolve, foldl_follow_unbroken whole, List.getLast?_map]
  cases names.getLast? with
  | none => rfl
  | some last => simp only [Option.map_some, Text.unbroken_unbroken]

theorem meetsDrive_unbroken {done names : List Text} (whole : breaksDrive done names = false) :
    meetsDrive done (names.map unbroken) = meetsDrive done names := by
  induction names generalizing done with
  | nil => rfl
  | cons written rest ih =>
    rw [breaksDrive, Bool.or_eq_false_iff] at whole
    rw [List.map_cons, meetsDrive, meetsDrive, follow_unbroken (by simpa using whole.1), ih whole.2,
      brokenDrive?_unbroken, Text.unbroken_unbroken]
    by_cases first : done = []
    · have none : brokenDrive? written = none := by simpa [first] using whole.1
      simp only [none]
    · simp only [first, decide_false, Bool.false_and]

end Route

/-! ## Bodies -/

theorem cutFileHost?_unbroken (written : Text) :
    cutFileHost? (unbroken written) = (cutFileHost? written).map fun (name, path) => (name, unbroken path) := by
  have passes : ∀ c, isBreak c = true → (!Kind.file.isSlash c) = true := fun c skipped => by
    rw [Kind.isSlash_of_isBreak skipped]
    rfl
  rw [cutFileHost?, cutFileHost?, Text.dropWhile_isBreak_unbroken, ← Text.unbroken_dropWhile_isBreak written]
  cases front : written.dropWhile isBreak with
  | nil => rfl
  | cons first rest =>
    rw [Text.unbroken_cons (Text.isBreak_eq_false_of_dropWhile front)]
    dsimp only
    rw [Text.dropWhile_isBreak_unbroken, ← Text.unbroken_dropWhile_isBreak rest]
    cases next : rest.dropWhile isBreak with
    | nil => rfl
    | cons second behind =>
      rw [Text.unbroken_cons (Text.isBreak_eq_false_of_dropWhile next)]
      dsimp only
      rw [Text.takeWhile_unbroken passes, Text.dropWhile_unbroken passes, Text.unbroken_unbroken]
      split
      · split <;> rfl
      · rfl

/-- The host of a `file` body and the written segments of its path. -/
def fileParts (written : Text) : Except Fault (Host × List Text) :=
  match cutFileHost? written with
  | none => .ok (.empty, Route.pieces .file written)
  | some (name, path) =>
    match Host.parseFile name with
    | .error fault => .error fault
    | .ok .empty => .ok (.empty, Text.pieces Kind.file.isSlash path)
    | .ok host => .ok (host, Route.pieces .file path)

theorem parseFileBody_eq (written : Text) :
    parseFileBody written = (fileParts written).map fun (host, names) => fileBody host names := by
  rw [parseFileBody, fileParts]
  cases cutFileHost? written with
  | none => rfl
  | some cut =>
    dsimp only
    cases Host.parseFile cut.1 with
    | error fault => rfl
    | ok host => cases host <;> rfl

theorem fileParts_unbroken (written : Text) :
    fileParts (unbroken written) =
      (fileParts written).map fun (host, names) => (host, names.map unbroken) := by
  rw [fileParts, fileParts, cutFileHost?_unbroken]
  cases cutFileHost? written with
  | none =>
    dsimp only [Option.map_none]
    rw [Route.pieces_unbroken]
    rfl
  | some cut =>
    dsimp only [Option.map_some]
    cases Host.parseFile cut.1 with
    | error fault => rfl
    | ok host =>
      cases host <;>
        simp only [Except.map, Route.pieces_unbroken, Text.pieces_unbroken fun c => Kind.isBreak_of_isSlash]

theorem parseBody_unbroken_of_ne {kind : Kind} (other : kind ≠ .file) (more : Bool) (written : Text) :
    parseBody kind more (unbroken written) = parseBody kind more written := by
  cases kind with
  | file => exact absurd rfl other
  | network port => simp only [parseBody, Text.unbroken_unbroken]
  | generic => simp only [parseBody, Text.unbroken_unbroken]

/-- Does a break cut off the drive letter that a body begins its path with? -/
def bodyBreaksDrive (kind : Kind) (written : Text) : Bool :=
  match kind, fileParts written with
  | .file, .ok (_, names) => Route.breaksDrive [] names
  | _, _ => false

theorem parseBody_unbroken {kind : Kind} {written : Text} (whole : bodyBreaksDrive kind written = false)
    (more : Bool) : parseBody kind more (unbroken written) = parseBody kind more written := by
  by_cases file : kind = .file
  · subst file
    simp only [parseBody]
    rw [parseFileBody_eq, parseFileBody_eq, fileParts_unbroken]
    cases parts : fileParts written with
    | error fault => rfl
    | ok found =>
      obtain ⟨host, names⟩ := found
      simp only [bodyBreaksDrive, parts] at whole
      simp only [Except.map, fileBody, Route.resolve_unbroken whole, Route.meetsDrive_unbroken whole]
  · exact parseBody_unbroken_of_ne file more written

theorem parseBody_unbroken_eq_error_iff {kind : Kind} {more : Bool} {written : Text} {fault : Fault} :
    parseBody kind more (unbroken written) = .error fault ↔ parseBody kind more written = .error fault := by
  by_cases file : kind = .file
  · subst file
    simp only [parseBody]
    rw [parseFileBody_eq, parseFileBody_eq, fileParts_unbroken]
    cases fileParts written <;> simp [Except.map]
  · rw [parseBody_unbroken_of_ne file]

/-! ## URLs -/

/-- The body of a URL, from the text behind its scheme. -/
def bodyText (rest : Text) : Text := (Text.cut '?' (Text.cut '#' rest).1).1

/-- Read the text behind a scheme. -/
def parseBehind (scheme rest : Text) : Except Fault Url :=
  let kind := Kind.ofScheme scheme
  let (front, fragment) := Text.cut '#' rest
  let (body, query) := Text.cut '?' front
  (parseBody kind (query.isSome || fragment.isSome) body).map fun (authority, route) =>
    { scheme, authority, route
      query := query.map fun text => Percent.escape (queryEscaped kind) (unbroken text)
      fragment := fragment.map fun text => Percent.escape fragmentEscaped (unbroken text) }

theorem parse_eq (written : Text) :
    parse written =
      match Scheme.split? (Text.trim Text.isEdgeBlank written) with
      | none => .error .relative
      | some (scheme, rest) => parseBehind scheme rest := by
  rw [parse]
  cases Scheme.split? (Text.trim Text.isEdgeBlank written) with
  | none => rfl
  | some cut =>
    obtain ⟨scheme, rest⟩ := cut
    simp only [parseBehind]
    cases parseBody (Kind.ofScheme scheme) _ _ <;> rfl

theorem cut_fragment_unbroken (rest : Text) :
    Text.cut '#' (unbroken rest) = (unbroken (Text.cut '#' rest).1, (Text.cut '#' rest).2.map unbroken) :=
  Text.cut_unbroken rfl rest

theorem cut_query_unbroken (rest : Text) :
    Text.cut '?' (unbroken rest) = (unbroken (Text.cut '?' rest).1, (Text.cut '?' rest).2.map unbroken) :=
  Text.cut_unbroken rfl rest

/-- The text behind a scheme without its breaks is read as it was, up to the body. -/
theorem parseBehind_unbroken (scheme rest : Text) :
    parseBehind scheme (unbroken rest) =
      let kind := Kind.ofScheme scheme
      let (front, fragment) := Text.cut '#' rest
      let (body, query) := Text.cut '?' front
      (parseBody kind (query.isSome || fragment.isSome) (unbroken body)).map fun (authority, route) =>
        { scheme, authority, route
          query := query.map fun text => Percent.escape (queryEscaped kind) (unbroken text)
          fragment := fragment.map fun text => Percent.escape fragmentEscaped (unbroken text) } := by
  simp only [parseBehind, cut_fragment_unbroken, cut_query_unbroken, Option.map_map, Option.isSome_map,
    Function.comp_def, Text.unbroken_unbroken]

/-- Does a break cut off a drive letter at the start of the path of a written URL? -/
def breaksDrive (written : Text) : Bool :=
  match Scheme.split? (Text.trim Text.isEdgeBlank written) with
  | none => false
  | some (scheme, rest) => bodyBreaksDrive (Kind.ofScheme scheme) (bodyText rest)

theorem split?_trim_clean (written : Text) :
    Scheme.split? (Text.trim Text.isEdgeBlank (Text.clean written)) =
      (Scheme.split? (Text.trim Text.isEdgeBlank written)).map
        fun (scheme, rest) => (scheme, unbroken rest) := by
  have neat := Text.neat_clean written
  rw [Text.trim_eq_self neat.head neat.last, Text.clean, Scheme.split?_unbroken]

/-- A URL in which no break cuts off a drive letter may be cleaned before it is read. -/
theorem parse_clean {written : Text} (whole : breaksDrive written = false) :
    parse (Text.clean written) = parse written := by
  rw [parse_eq, parse_eq, split?_trim_clean]
  rw [breaksDrive] at whole
  cases parts : Scheme.split? (Text.trim Text.isEdgeBlank written) with
  | none => rfl
  | some cut =>
    obtain ⟨scheme, rest⟩ := cut
    rw [parts] at whole
    simp only [bodyText] at whole
    dsimp only [Option.map_some]
    rw [parseBehind_unbroken, parseBehind]
    simp only [parseBody_unbroken whole]

theorem parse_clean_eq_error_iff {written : Text} {fault : Fault} :
    parse (Text.clean written) = .error fault ↔ parse written = .error fault := by
  rw [parse_eq, parse_eq, split?_trim_clean]
  cases Scheme.split? (Text.trim Text.isEdgeBlank written) with
  | none => rfl
  | some cut =>
    obtain ⟨scheme, rest⟩ := cut
    dsimp only [Option.map_some]
    rw [parseBehind_unbroken, parseBehind]
    simp only [map_eq_error_iff]
    exact parseBody_unbroken_eq_error_iff

/-- What cleaning can change about a URL is its host and its path. -/
theorem parse_of_parse_clean {written : Text} {url : Url} (read : parse (Text.clean written) = .ok url) :
    ∃ seen, parse written = .ok seen ∧ seen.scheme = url.scheme ∧ seen.query = url.query ∧
      seen.fragment = url.fragment := by
  rw [parse_eq, split?_trim_clean] at read
  rw [parse_eq]
  cases parts : Scheme.split? (Text.trim Text.isEdgeBlank written) with
  | none =>
    rw [parts] at read
    cases read
  | some cut =>
    obtain ⟨scheme, rest⟩ := cut
    rw [parts] at read
    dsimp only [Option.map_some] at read ⊢
    rw [parseBehind_unbroken] at read
    rw [parseBehind]
    dsimp only at read ⊢
    cases body : parseBody (Kind.ofScheme scheme) _ (Text.cut '?' (Text.cut '#' rest).1).1 with
    | error fault =>
      rw [parseBody_unbroken_eq_error_iff.mpr body] at read
      cases read
    | ok found =>
      refine ⟨_, rfl, ?_⟩
      cases cleaned : parseBody (Kind.ofScheme scheme) _ (unbroken (Text.cut '?' (Text.cut '#' rest).1).1) with
      | error fault =>
        rw [cleaned] at read
        cases read
      | ok parts =>
        rw [cleaned] at read
        cases read
        exact ⟨rfl, rfl, rfl⟩

end FileLocator.Url
