import FileLocator.Proofs.Url.Breaks
import FileLocator.Proofs.Url.Solid

/-! # What a cut-off drive letter changes

A break that cuts off a drive letter leaves two segments where the cleaned URL has one. The drive letter
stays in front for good, and behind it the two ways of reading take names along together (`Trails`), so
the path with the break remains the longer one. Hence a URL is read like its cleaned form exactly when no
break cuts off a drive letter (`parse_clean_iff`).
-/

namespace FileLocator.Url

open Text (unbroken isBreak)

namespace Route

theorem escaped_of_isAlpha {c : Char} (letter : c.isAlpha = true) : escaped (.ofNat c.toNat) = false := by
  have ascii := (Text.bounds_of_isAlpha letter).2
  revert letter
  apply Text.forall_ascii _ ascii
  decide +kernel

/-! ## Drive letters that stay -/

theorem isFixed_drive {letter mark : Char} (alpha : letter.isAlpha = true) (drive : mark = ':' ∨ mark = '|') :
    isFixed [letter, mark] = true := by
  rcases drive with rfl | rfl <;> simp [isFixed, startsWithDrive, alpha]

/-- A segment that is just a drive letter is not changed by escaping. -/
theorem escape_drive {letter mark : Char} (alpha : letter.isAlpha = true) (drive : mark = ':' ∨ mark = '|') :
    Percent.escape escaped [letter, mark] = [letter, mark] := by
  apply Percent.escape_eq_self
  intro c member
  simp only [List.mem_cons, List.not_mem_nil, or_false] at member
  rcases member with rfl | rfl
  · exact ⟨(Text.bounds_of_isAlpha alpha).2, escaped_of_isAlpha alpha⟩
  · rcases drive with rfl | rfl <;> decide +kernel

/-- A segment that goes on behind its drive letter is taken along by `..`, as it holds no slash. -/
theorem isFixed_escape_of_behind {letter next : Char} {rest : Text} (alpha : letter.isAlpha = true)
    (inside : next ≠ '\\') : isFixed (Percent.escape escaped (letter :: ':' :: next :: rest)) = false := by
  have front : Percent.escape escaped (letter :: ':' :: next :: rest) =
      letter :: ':' :: Percent.escape escaped (next :: rest) := by
    have split := Percent.escape_append escaped [letter, ':'] (next :: rest)
    rw [escape_drive alpha (.inl rfl)] at split
    exact split
  rw [front, isFixed]
  cases shape : Percent.escape escaped (next :: rest) with
  | nil =>
    have first := Percent.head?_escape isWide_escaped next rest
    rw [shape] at first
    rcases first with none | none <;> cases none
  | cons head tail =>
    have first := Percent.head?_escape isWide_escaped next rest
    rw [shape] at first
    simp only [List.head?_cons, Option.some.injEq] at first
    have solid : head ≠ '\\' := by
      rcases first with rfl | rfl
      · decide
      · exact inside
    simp [startsWithDrive, alpha, solid]

/-! ## Two ways of reading the same segments -/

/-- Names that stand behind a drive letter and the names of the cleaned path, in so far as both are taken
along together. -/
inductive Trails : List Text → List Text → Prop where
  | gone (left : List Text) : Trails left []
  | loose (left : List Text) (name : Text) {other : Text} (free : isFixed other = false) :
      Trails (left ++ [name]) [other]
  | along {left right : List Text} {name other : Text} (before : Trails left right)
      (same : isFixed name = isFixed other) : Trails (left ++ [name]) (right ++ [other])

theorem Trails.length_le {left right : List Text} (trails : Trails left right) :
    right.length ≤ left.length := by
  induction trails with
  | gone left => exact Nat.zero_le _
  | loose left name free => simp
  | along before same ih => simpa using ih

theorem shorten_append (names : List Text) (last : Text) :
    shorten (names ++ [last]) = if isFixed last then names ++ [last] else names := by
  simp [shorten]

/-- `..` leaves a drive letter in front. -/
theorem shorten_cons_of_isFixed {drive : Text} (fixed : isFixed drive = true) (left : List Text) :
    ∃ kept, shorten (drive :: left) = drive :: kept := by
  obtain rfl | ⟨front, last, rfl⟩ := List.eq_nil_or_concat left
  · exact ⟨[], by simp [shorten, fixed]⟩
  · rw [List.concat_eq_append, ← List.cons_append, shorten_append]
    split
    · exact ⟨_, List.cons_append⟩
    · exact ⟨_, rfl⟩

theorem Trails.shorten {drive : Text} (fixed : isFixed drive = true) {left right : List Text}
    (trails : Trails left right) :
    ∃ kept, Route.shorten (drive :: left) = drive :: kept ∧ Trails kept (Route.shorten right) := by
  cases trails with
  | gone =>
    obtain ⟨kept, shape⟩ := shorten_cons_of_isFixed fixed left
    exact ⟨kept, shape, .gone kept⟩
  | @loose left name other free =>
    obtain ⟨kept, shape⟩ := shorten_cons_of_isFixed fixed (left ++ [name])
    refine ⟨kept, shape, ?_⟩
    have none : Route.shorten [other] = [] := by simp [Route.shorten, free]
    rw [none]
    exact .gone kept
  | @along left right name other before same =>
    rw [← List.cons_append, shorten_append, shorten_append, same]
    split
    · exact ⟨left ++ [name], rfl, .along before same⟩
    · exact ⟨left, rfl, before⟩

/-- A first segment that is read without a break stays or goes as its escaped form would. -/
theorem leading_unbroken (written : Text) :
    ∃ name, leading (unbroken written) = [name] ∧
      isFixed (Percent.escape escaped (unbroken written)) = isFixed name := by
  rw [leading, brokenDrive?_unbroken, Text.unbroken_unbroken]
  dsimp only
  split
  · next drive =>
    refine ⟨_, rfl, ?_⟩
    rw [isDrive, Bool.and_eq_true, beq_iff_eq] at drive
    obtain ⟨starts, two⟩ := drive
    obtain ⟨letter, mark, shape⟩ := List.length_eq_two.mp two
    rw [shape] at starts ⊢
    simp only [startsWithDrive, Bool.and_eq_true, Bool.or_eq_true, beq_iff_eq] at starts
    rw [escape_drive starts.1 starts.2, isFixed_drive starts.1 starts.2]
    exact (isFixed_drive starts.1 (.inl rfl)).symm
  · exact ⟨_, rfl, rfl⟩

theorem Trails.follow {drive : Text} (fixed : isFixed drive = true) {left right : List Text}
    (trails : Trails left right) (written : Text) :
    ∃ kept, Route.follow .file (drive :: left) written = drive :: kept ∧
      Trails kept (Route.follow .file right (unbroken written)) := by
  rw [Route.follow, Route.follow, Text.unbroken_unbroken]
  split
  · exact trails.shorten fixed
  split
  · exact ⟨left, rfl, trails⟩
  refine ⟨left ++ [Percent.escape escaped (unbroken written)], by simp, ?_⟩
  split
  · next first =>
    obtain ⟨name, shape, same⟩ := leading_unbroken written
    have trails : Trails left [] := .gone left
    rw [shape]
    exact trails.along same
  · exact .along trails rfl

theorem Trails.foldl_follow {drive : Text} (fixed : isFixed drive = true) {left right : List Text}
    (trails : Trails left right) (names : List Text) :
    ∃ kept, names.foldl (Route.follow .file) (drive :: left) = drive :: kept ∧
      Trails kept ((names.map unbroken).foldl (Route.follow .file) right) := by
  induction names generalizing left right with
  | nil => exact ⟨left, rfl, trails⟩
  | cons written rest ih =>
    obtain ⟨kept, shape, next⟩ := trails.follow fixed written
    rw [List.map_cons, List.foldl_cons, List.foldl_cons, shape]
    exact ih next

/-! ## The path stays longer -/

theorem follow_of_drive {name : Text} {letter : Char} {rest written : Text}
    (shape : name = letter :: ':' :: rest)
    (same : unbroken written = name) : follow .file [] written = leading written := by
  have colon : (':' : Char).toLower = ':' := by decide
  have notDotDot : isDotDot name = false := by simp [isDotDot, shape, colon]
  have notDot : isDot name = false := by simp [isDot, shape, colon]
  simp [follow, same, notDotDot, notDot]

/-- The step that cuts off a drive letter, beside the same step without the break. -/
theorem follow_of_brokenDrive {written drive behind : Text}
    (cutOff : brokenDrive? written = some (drive, behind))
    (inside : ∀ c ∈ written, Kind.file.isSlash c = false) :
    isFixed drive = true ∧ drive ≠ [] ∧ ∃ left right, follow .file [] written = drive :: left ∧
      follow .file [] (unbroken written) = right ∧ Trails left right := by
  obtain ⟨letter, alpha, rfl, nonempty, shape⟩ := brokenDrive?_eq_some cutOff
  obtain ⟨next, rest, rfl⟩ := List.exists_cons_of_ne_nil nonempty
  have solid : next ≠ '\\' := by
    rintro rfl
    have member : '\\' ∈ written := List.mem_of_mem_filter (p := fun c => !isBreak c) (by
      change '\\' ∈ unbroken written
      rw [shape]
      simp)
    have free := inside _ member
    cases free
  refine ⟨isFixed_drive alpha (.inl rfl), by simp, [Percent.escape escaped (next :: rest)],
    [Percent.escape escaped (unbroken written)], ?_, ?_, ?_⟩
  · rw [follow_of_drive shape rfl, leading, cutOff]
  · rw [follow_of_drive shape (Text.unbroken_unbroken written), leading, brokenDrive?_unbroken,
      Text.unbroken_unbroken, shape]
    simp [isDrive]
  · have free : isFixed (Percent.escape escaped (unbroken written)) = false := by
      rw [shape]
      exact isFixed_escape_of_behind alpha solid
    exact .loose [] _ free

theorem foldl_follow_of_breaksDrive {done names : List Text} (broken : breaksDrive done names = true)
    (inside : ∀ name ∈ names, ∀ c ∈ name, Kind.file.isSlash c = false) :
    ∃ drive left, drive ≠ [] ∧ names.foldl (follow .file) done = drive :: left ∧
      Trails left ((names.map unbroken).foldl (follow .file) done) := by
  induction names generalizing done with
  | nil => cases broken
  | cons written rest ih =>
    have others : ∀ name ∈ rest, ∀ c ∈ name, Kind.file.isSlash c = false := fun name member =>
      inside name (List.mem_cons_of_mem _ member)
    rw [List.map_cons, List.foldl_cons, List.foldl_cons]
    by_cases cutOff : done = [] ∧ (brokenDrive? written).isSome = true
    · obtain ⟨rfl, some⟩ := cutOff
      obtain ⟨⟨drive, behind⟩, found⟩ := Option.isSome_iff_exists.mp some
      obtain ⟨fixed, nonempty, left, right, direct, cleaned, trails⟩ :=
        follow_of_brokenDrive found (inside written (List.mem_cons_self ..))
      rw [direct, cleaned]
      obtain ⟨kept, shape, final⟩ := trails.foldl_follow fixed rest
      exact ⟨drive, kept, nonempty, shape, final⟩
    · rw [follow_unbroken cutOff]
      rw [breaksDrive, Bool.or_eq_true] at broken
      refine ih (broken.resolve_left fun here => cutOff ?_) others
      simpa using here

theorem length_collapse_le (names : List Text) :
    collapse names = [[]] ∨ (collapse names).length ≤ names.length := by
  rw [collapse]
  split
  · exact .inl rfl
  · next kept shape =>
    right
    exact (List.dropWhile_sublist _).length_le

/-- A break that cuts off a drive letter changes the path. -/
theorem collapse_resolve_ne {names : List Text} (broken : breaksDrive [] names = true)
    (inside : ∀ name ∈ names, ∀ c ∈ name, Kind.file.isSlash c = false) :
    collapse (resolve .file (names.map unbroken)) ≠ collapse (resolve .file names) := by
  obtain ⟨drive, left, nonempty, direct, trails⟩ := foldl_follow_of_breaksDrive broken inside
  obtain ⟨tail, directTail, cleanedTail⟩ : ∃ tail, resolve .file names = drive :: left ++ tail ∧
      resolve .file (names.map unbroken) = (names.map unbroken).foldl (follow .file) [] ++ tail := by
    rw [resolve, resolve, direct, List.getLast?_map]
    cases names.getLast? with
    | none => exact ⟨[], by simp, by simp⟩
    | some last =>
      simp only [Option.map_some, Text.unbroken_unbroken]
      split
      · exact ⟨[[]], rfl, rfl⟩
      · exact ⟨[], by simp, by simp⟩
  have kept : collapse (resolve .file names) = drive :: left ++ tail := by
    rw [directTail, collapse, List.cons_append, List.dropWhile_cons_of_neg (by simpa using nonempty)]
  rw [kept]
  intro same
  have bound := length_collapse_le (resolve .file (names.map unbroken))
  rw [same, cleanedTail] at bound
  rcases bound with single | shorter
  · exact nonempty (List.cons.inj single).1
  · have trailing := trails.length_le
    simp only [List.cons_append, List.length_cons, List.length_append] at shorter
    omega

theorem not_isSlash_of_mem_pieces {kind : Kind} {written name : Text} (member : name ∈ pieces kind written) :
    ∀ c ∈ name, kind.isSlash c = false := by
  apply Text.not_isSeparator_of_mem_pieces
  rw [pieces] at member
  split at member
  · next first second others shape =>
    split at member
    · rw [shape]
      exact List.mem_cons_of_mem _ member
    · exact member
  · exact member

end Route

/-! ## URLs -/

theorem not_isSlash_of_fileParts {written : Text} {host : Host} {names : List Text}
    (parts : fileParts written = .ok (host, names)) :
    ∀ name ∈ names, ∀ c ∈ name, Kind.file.isSlash c = false := by
  rw [fileParts] at parts
  intro name member
  split at parts
  · cases parts
    exact Route.not_isSlash_of_mem_pieces member
  · split at parts
    · cases parts
    · cases parts
      exact Text.not_isSeparator_of_mem_pieces member
    · cases parts
      exact Route.not_isSlash_of_mem_pieces member

theorem parseBody_unbroken_ne {kind : Kind} {written : Text} (broken : bodyBreaksDrive kind written = true)
    (more : Bool) : parseBody kind more (unbroken written) ≠ parseBody kind more written := by
  cases kind with
  | network port => cases broken
  | generic => cases broken
  | file =>
    cases parts : fileParts written with
    | error fault => simp [bodyBreaksDrive, parts] at broken
    | ok found =>
      obtain ⟨host, names⟩ := found
      simp only [bodyBreaksDrive, parts] at broken
      simp only [parseBody, parseFileBody_eq, fileParts_unbroken, parts, Except.map, fileBody]
      intro same
      have routes := (Prod.mk.inj (Except.ok.inj same)).2
      exact Route.collapse_resolve_ne broken (not_isSlash_of_fileParts parts) (Route.segments.inj routes)

theorem map_inj {ε α β : Type} {change : α → β} (injective : ∀ a b, change a = change b → a = b)
    {first second : Except ε α} (same : first.map change = second.map change) : first = second := by
  cases first <;> cases second
  · simpa [Except.map] using same
  · cases same
  · cases same
  · exact congrArg Except.ok (injective _ _ (Except.ok.inj same))

/-- Cleaning a URL before it is read makes a difference only where a break cuts off a drive letter. -/
theorem parse_clean_iff {written : Text} :
    parse (Text.clean written) = parse written ↔ breaksDrive written = false := by
  constructor
  · intro same
    rw [parse_eq, parse_eq, split?_trim_clean] at same
    rw [breaksDrive]
    cases parts : Scheme.split? (Text.trim Text.isEdgeBlank written) with
    | none => rfl
    | some cut =>
      obtain ⟨scheme, rest⟩ := cut
      rw [parts] at same
      dsimp only [Option.map_some] at same
      rw [parseBehind_unbroken, parseBehind] at same
      refine Bool.eq_false_iff.mpr fun broken => parseBody_unbroken_ne broken _ (map_inj ?_ same)
      rintro ⟨authority, route⟩ ⟨authority', route'⟩ equal
      simp only [Url.mk.injEq] at equal
      exact Prod.ext equal.2.1 equal.2.2.1
  · exact parse_clean

end FileLocator.Url
