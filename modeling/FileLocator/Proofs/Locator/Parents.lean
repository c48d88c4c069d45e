import FileLocator.Proofs.Locator.Rereading
import FileLocator.Proofs.Url.Blanks

/-! # Climbing from locator to locator

The locator above another one is read from a text that is cut at its last slash. The slash stays where it marks the
inside of an archive, and blanks that come up at the end are dropped (`ParentCourse`). So the text becomes shorter
with every step, and there are at most as many steps as slashes, until a locator is its own parent or nothing stands
above it (`parent_ascends`). A `file` locator has a parent as long as there is a slash.
-/

namespace FileLocator.Locator

open Text (NeatBehind cleanBehind isBreak isEdgeBlank)
open Url.Scheme (IsProper)

/-! ## One step -/

theorem entered_eq_append {text : Text} (archive : text.getLast? = some '!') : entered text = text ++ ['/'] :=
  if_pos archive

theorem entered_eq_self {text : Text} (other : text.getLast? ≠ some '!') : entered text = text := if_neg other

theorem getLast?_behind_iff {mark : Char} (other : mark ≠ ':') {scheme rest : Text} :
    (scheme ++ ':' :: rest).getLast? = some mark ↔ rest.getLast? = some mark := by
  cases rest with
  | nil => simp [other.symm]
  | cons c rest => rw [List.getLast?_append_cons, List.getLast?_cons_cons]

/-- The scheme and its colon do not mark an archive. -/
theorem entered_behind (scheme rest : Text) : entered (scheme ++ ':' :: rest) = scheme ++ ':' :: entered rest := by
  have same : (scheme ++ ':' :: rest).getLast? = some '!' ↔ rest.getLast? = some '!' :=
    getLast?_behind_iff (by decide)
  by_cases archive : rest.getLast? = some '!'
  · rw [entered_eq_append archive, entered_eq_append (same.mpr archive), List.append_assoc]
    rfl
  · rw [entered_eq_self archive, entered_eq_self (same.not.mpr archive)]

theorem isPrefix_trimEnd (text : Text) : Text.trimEnd isEdgeBlank text <+: text := by
  rw [Text.trimEnd_eq_rdropWhile]
  exact List.rdropWhile_prefix isEdgeBlank text

/-- What comes of cutting the text of a locator, which is `rest` behind the scheme, at its last slash. -/
inductive ParentCourse (locator : Locator) (rest : Text) : Prop where
  | top (slashless : '/' ∉ locator.text) (fails : locator.parent = .error (.invalid locator.text .noSeparator))
  /-- The slash stays behind the mark of an archive. -/
  | entered {front after : Text} {above : Locator} (shape : rest = front ++ '/' :: after) (final : '/' ∉ after)
      (archive : front.getLast? = some '!') (made : locator.parent = .ok above)
      (scheme : above.scheme = locator.scheme) (rereads : above.Rereads (front ++ ['/']))
  | cut {front after : Text} {above : Locator} (shape : rest = front ++ '/' :: after) (final : '/' ∉ after)
      (other : front.getLast? ≠ some '!') (made : locator.parent = .ok above)
      (scheme : above.scheme = locator.scheme) (rereads : above.Rereads (Text.trimEnd isEdgeBlank front))
  /-- What is left is no URL; this does not happen to files. -/
  | refused {written : Text} {fault : Url.Fault} (slashed : '/' ∈ locator.text) (foreign : locator.isFile = false)
      (fails : locator.parent = .error (.invalid written (.url fault)))

theorem exists_of_parse_eq_error {written : Text} {error : LocatorError} (fails : parse written = .error error) :
    ∃ fault, error = .invalid written (.url fault) := by
  rw [parse] at fails
  split at fails
  · cases fails
  · next fault _ =>
    cases fails
    exact ⟨fault, rfl⟩

theorem kind_of_isFile {locator : Locator} (file : locator.isFile = true) :
    Url.Kind.ofScheme locator.scheme = .file := by
  rw [isFile, beq_iff_eq] at file
  rw [file]
  exact Url.kind_file

namespace Rereads

variable {locator : Locator} {rest : Text} (rereads : locator.Rereads rest)

include rereads

theorem slash_mem_text_iff : '/' ∈ locator.text ↔ '/' ∈ rest := by
  have scheme : '/' ∉ locator.scheme := rereads.proper.not_mem rfl
  rw [rereads.text]
  simp [scheme]

theorem parent_eq {front after : Text} (shape : rest = front ++ '/' :: after) (final : '/' ∉ after) :
    locator.parent = parse (locator.scheme ++ ':' :: Locator.entered front) := by
  have cut : Text.cutLast? '/' locator.text = some (locator.scheme ++ ':' :: front, after) := by
    rw [Text.cutLast?_eq_some_iff, rereads.text, shape, List.append_assoc, List.cons_append]
    exact ⟨rfl, final⟩
  rw [parent, cut]
  dsimp only
  rw [entered_behind]

/-- Nothing is dropped in front of a slash that stays. -/
theorem cleanBehind_entered_of_archive {front after : Text} (shape : rest = front ++ '/' :: after)
    (archive : front.getLast? = some '!') : cleanBehind (Locator.entered front) = front ++ ['/'] := by
  rw [entered_eq_append archive]
  apply Text.cleanBehind_eq_self
  apply Text.neatBehind_append_slash
  exact fun c member => rereads.neat.stays c (by simp [shape, member])

theorem cleanBehind_entered_of_ne {front after : Text} (shape : rest = front ++ '/' :: after)
    (other : front.getLast? ≠ some '!') : cleanBehind (Locator.entered front) = Text.trimEnd isEdgeBlank front := by
  rw [entered_eq_self other, cleanBehind, Text.unbroken_eq_self_iff]
  intro c member
  have present := (isPrefix_trimEnd front).subset member
  exact rereads.neat.stays c (by simp [shape, present])

/-- What is left can be read unless it consists of slashes or, apart from files, a blank comes up at its end. -/
theorem readable_entered {front after : Text} (shape : rest = front ++ '/' :: after)
    (begun : Url.Begun (Url.Kind.ofScheme locator.scheme) front)
    (ends : Url.Kind.ofScheme locator.scheme = .file ∨ ∀ c ∈ front.getLast?, isEdgeBlank c = false) :
    Url.Readable locator.scheme (cleanBehind (Locator.entered front)) := by
  have stays := rereads.neat.stays
  have readable := rereads.readable
  rw [shape] at stays readable
  by_cases archive : front.getLast? = some '!'
  · rw [rereads.cleanBehind_entered_of_archive shape archive]
    exact readable.cut stays (.inr rfl) begun
  · rw [rereads.cleanBehind_entered_of_ne shape archive]
    have cut := readable.cut stays (.inl rfl) begun
    rw [List.append_nil] at cut
    rcases ends with file | solid
    · exact cut.trimEnd file fun c member => stays c (List.mem_append_left _ member)
    · rw [Text.trimEnd_eq_self solid]
      exact cut

theorem parentCourse : locator.ParentCourse rest := by
  cases cut : Text.cutLast? '/' rest with
  | none =>
    have slashless : '/' ∉ locator.text := rereads.slash_mem_text_iff.not.mpr (Text.cutLast?_eq_none_iff.mp cut)
    refine .top slashless ?_
    rw [parent, Text.cutLast?_eq_none_iff.mpr slashless]
  | some parts =>
    obtain ⟨front, after⟩ := parts
    obtain ⟨shape, final⟩ := Text.cutLast?_eq_some_iff.mp cut
    have same := rereads.parent_eq shape final
    cases made : locator.parent with
    | ok above =>
      rw [made] at same
      obtain ⟨scheme, again⟩ := rereads_of_parse_behind rereads.proper same.symm
      by_cases archive : front.getLast? = some '!'
      · rw [rereads.cleanBehind_entered_of_archive shape archive] at again
        exact .entered shape final archive made scheme again
      · rw [rereads.cleanBehind_entered_of_ne shape archive] at again
        exact .cut shape final archive made scheme again
    | error error =>
      rw [made] at same
      obtain ⟨fault, rfl⟩ := exists_of_parse_eq_error same.symm
      refine .refused ?_ ?_ made
      · rw [rereads.slash_mem_text_iff, shape]
        simp
      · by_contra file
        have kind := kind_of_isFile (Bool.of_not_eq_false file)
        have begun : Url.Begun (Url.Kind.ofScheme locator.scheme) front := by
          rw [kind]
          exact Url.begun_file front
        obtain ⟨above, read⟩ := (exists_parse_behind_iff rereads.proper).mpr
          (rereads.readable_entered shape begun (.inl kind))
        rw [read] at same
        cases same

end Rereads

/-! ## What a step changes -/

theorem beq_iff {first second : Locator} : (first == second) = true ↔ first.text = second.text :=
  beq_iff_eq (a := first.text)

/-- Cutting at the last slash leads to the locator itself. -/
def IsOwnParent (locator : Locator) : Prop := ∃ above, locator.parent = .ok above ∧ (above == locator) = true

/-- Cutting at the last slash leads to another locator. -/
def IsParent (above locator : Locator) : Prop := locator.parent = .ok above ∧ (above == locator) = false

/-- A step shortens the text, and it leaves fewer slashes unless it leads to a locator that is its own parent. -/
structure Lowers (above locator : Locator) : Prop where
  text : above.text <+: locator.text
  shorter : above.text.length < locator.text.length
  scheme : above.scheme = locator.scheme
  rereads : ∃ rest, above.Rereads rest
  slashes : above.text.count '/' < locator.text.count '/' ∨ above.IsOwnParent ∧ '/' ∈ locator.text

namespace Rereads

variable {locator : Locator} {rest : Text} (rereads : locator.Rereads rest)

include rereads

theorem eq_of_text {other : Text} (text : locator.text = locator.scheme ++ ':' :: other) : rest = other := by
  rw [rereads.text] at text
  exact (List.cons.inj (List.append_cancel_left text)).2

theorem count_text : locator.text.count '/' = rest.count '/' := by
  have scheme : '/' ∉ locator.scheme := rereads.proper.not_mem rfl
  rw [rereads.text, List.count_append, List.count_eq_zero_of_not_mem scheme, List.count_cons_of_ne (by decide),
    Nat.zero_add]

theorem isSuffix_text_iff :
    "!/".toList <:+ locator.text ↔ ∃ front, rest = front ++ ['/'] ∧ front.getLast? = some '!' := by
  constructor
  · rintro ⟨init, same⟩
    have ends : locator.text = (init ++ ['!']) ++ ['/'] := by
      rw [← same, List.append_assoc]
      rfl
    rw [rereads.text] at ends
    obtain rfl | ⟨front, c, rfl⟩ := List.eq_nil_or_concat rest
    · have colon : ':' = '/' := (List.cons.inj (List.append_inj' ends rfl).2).1
      cases colon
    · rw [List.concat_eq_append, ← List.cons_append, ← List.append_assoc] at ends
      obtain ⟨before, slash⟩ := List.append_inj' ends rfl
      have archive : (locator.scheme ++ ':' :: front).getLast? = some '!' := by rw [before, List.getLast?_concat]
      exact ⟨front, by rw [List.concat_eq_append, slash], (getLast?_behind_iff (by decide)).mp archive⟩
  · rintro ⟨front, rfl, archive⟩
    obtain ⟨init, rfl⟩ := List.getLast?_eq_some_iff.mp archive
    exact ⟨locator.scheme ++ ':' :: init, by rw [rereads.text]; simp⟩

/-- A locator is its own parent if nothing stands behind the slash that marks the inside of an archive. -/
theorem isOwnParent_iff : locator.IsOwnParent ↔ "!/".toList <:+ locator.text := by
  rw [rereads.isSuffix_text_iff]
  constructor
  · rintro ⟨above, made, same⟩
    rw [beq_iff] at same
    cases rereads.parentCourse with
    | top _ fails =>
      rw [fails] at made
      cases made
    | entered shape final archive found scheme again =>
      obtain rfl := Except.ok.inj (found.symm.trans made)
      rw [again.text, scheme] at same
      exact ⟨_, rereads.eq_of_text same.symm, archive⟩
    | @cut front after _ shape final other found scheme again =>
      obtain rfl := Except.ok.inj (found.symm.trans made)
      rw [again.text, scheme] at same
      have short := (isPrefix_trimEnd front).length_le
      have sizes := congrArg List.length (shape.symm.trans (rereads.eq_of_text same.symm))
      rw [List.length_append, List.length_cons] at sizes
      omega
    | refused _ _ fails =>
      rw [fails] at made
      cases made
  · rintro ⟨front, shape, archive⟩
    have entered : Locator.entered front = rest := by rw [entered_eq_append archive, shape]
    have same := rereads.parent_eq shape List.not_mem_nil
    have clean : cleanBehind rest = rest := Text.cleanBehind_eq_self rereads.neat
    have readable : Url.Readable locator.scheme (cleanBehind rest) := by
      rw [clean]
      exact rereads.readable
    obtain ⟨above, read⟩ := (exists_parse_behind_iff rereads.proper).mpr readable
    refine ⟨above, by rw [same, entered]; exact read, beq_iff.mpr ?_⟩
    rw [((parse_behind_eq_ok_iff rereads.proper).mp read).2, clean, rereads.text]

theorem lowers {above : Locator} (parent : above.IsParent locator) : above.Lowers locator := by
  obtain ⟨made, other⟩ := parent
  have differs : above.text ≠ locator.text := by
    intro same
    rw [beq_iff.mpr same] at other
    cases other
  have lead : ∀ {kept : Text}, kept <+: rest → above.scheme = locator.scheme → above.Rereads kept →
      above.text <+: locator.text := by
    rintro kept ⟨tail, rfl⟩ scheme again
    rw [again.text, rereads.text, scheme]
    exact ⟨tail, by simp⟩
  cases rereads.parentCourse with
  | top _ fails =>
    rw [fails] at made
    cases made
  | entered shape final archive found scheme again =>
    obtain rfl := Except.ok.inj (found.symm.trans made)
    have text := lead ⟨_, by rw [shape, List.append_assoc]; rfl⟩ scheme again
    refine ⟨text, ?_, scheme, ⟨_, again⟩, .inr ⟨?_, ?_⟩⟩
    · exact lt_of_le_of_ne text.length_le fun same => differs (text.eq_of_length same)
    · exact again.isOwnParent_iff.mpr (again.isSuffix_text_iff.mpr ⟨_, rfl, archive⟩)
    · rw [rereads.slash_mem_text_iff, shape]
      simp
  | @cut front after _ shape final archive found scheme again =>
    obtain rfl := Except.ok.inj (found.symm.trans made)
    have text := lead ((isPrefix_trimEnd _).trans ⟨_, shape.symm⟩) scheme again
    refine ⟨text, ?_, scheme, ⟨_, again⟩, .inl ?_⟩
    · exact lt_of_le_of_ne text.length_le fun same => differs (text.eq_of_length same)
    · have kept := (isPrefix_trimEnd front).sublist.count_le '/'
      rw [again.count_text, rereads.count_text, shape, List.count_append, List.count_cons_self]
      omega
  | refused _ _ fails =>
    rw [fails] at made
    cases made

end Rereads

/-! ## Climbing -/

/-- So many steps, each to another locator, lead from a locator to one above it. -/
inductive Climbs : Nat → Locator → Locator → Prop
  | stay (locator : Locator) : Climbs 0 locator locator
  | step {count : Nat} {locator above top : Locator} (parent : above.IsParent locator)
      (climbs : Climbs count above top) : Climbs (count + 1) locator top

theorem IsOwnParent.not_isParent {locator above : Locator} (own : locator.IsOwnParent) :
    ¬ above.IsParent locator := by
  rintro ⟨made, other⟩
  obtain ⟨same, found, alike⟩ := own
  obtain rfl := Except.ok.inj (found.symm.trans made)
  rw [alike] at other
  cases other

namespace Climbs

variable {count : Nat} {locator top : Locator} (climbs : Climbs count locator top)

include climbs

theorem rereads {rest : Text} (again : locator.Rereads rest) :
    top.scheme = locator.scheme ∧ ∃ rest, top.Rereads rest := by
  induction climbs generalizing rest with
  | stay locator => exact ⟨rfl, rest, again⟩
  | step parent climbs ih =>
    have lowers := again.lowers parent
    obtain ⟨rest, above⟩ := lowers.rereads
    obtain ⟨scheme, kept⟩ := ih above
    exact ⟨scheme.trans lowers.scheme, kept⟩

/-- A step that keeps its slash is the last one, so the slashes that are left count the steps. -/
theorem le_count {rest : Text} (again : locator.Rereads rest) : count ≤ locator.text.count '/' := by
  induction climbs generalizing rest with
  | stay locator => exact Nat.zero_le _
  | step parent climbs ih =>
    have lowers := again.lowers parent
    obtain ⟨rest, above⟩ := lowers.rereads
    rcases lowers.slashes with fewer | ⟨own, slashed⟩
    · exact (Nat.succ_le_succ (ih above)).trans fewer
    · cases climbs with
      | stay => exact List.count_pos_iff.mpr slashed
      | step parent climbs => exact absurd parent own.not_isParent

end Climbs

/-- A locator from which no step leads to another one. -/
inductive IsTop (locator : Locator) : Prop where
  | own (own : locator.IsOwnParent)
  | fails {written : Text} {fault : LocatorFault} (fails : locator.parent = .error (.invalid written fault))

theorem Rereads.isTop_or_exists_isParent {locator : Locator} {rest : Text} (rereads : locator.Rereads rest) :
    locator.IsTop ∨ ∃ above, IsParent above locator := by
  have found : ∀ above, locator.parent = .ok above → locator.IsTop ∨ ∃ above, IsParent above locator := by
    intro above made
    cases same : above == locator with
    | true => exact .inl (.own ⟨above, made, same⟩)
    | false => exact .inr ⟨above, made, same⟩
  cases rereads.parentCourse with
  | top _ fails => exact .inl (.fails fails)
  | entered _ _ _ made => exact found _ made
  | cut _ _ _ made => exact found _ made
  | refused _ _ fails => exact .inl (.fails fails)

theorem Rereads.exists_isTop {locator : Locator} {rest : Text} (rereads : locator.Rereads rest) :
    ∃ count top, Climbs count locator top ∧ top.IsTop := by
  induction size : locator.text.length using Nat.strongRecOn generalizing locator rest with
  | ind size ih =>
    rcases rereads.isTop_or_exists_isParent with top | ⟨above, parent⟩
    · exact ⟨0, locator, .stay locator, top⟩
    · have lowers := rereads.lowers parent
      obtain ⟨rest, again⟩ := lowers.rereads
      obtain ⟨count, top, climbs, ends⟩ := ih _ (by rw [← size]; exact lowers.shorter) again rfl
      exact ⟨count + 1, top, .step parent climbs, ends⟩

/-! ### Climbing with a limit -/

theorem IsOwnParent.ancestors_eq {locator : Locator} (own : locator.IsOwnParent) (limit limit' : Nat) :
    ancestors (limit + 1) locator = ancestors (limit' + 1) locator := by
  obtain ⟨above, made, same⟩ := own
  rw [ancestors, ancestors, made]
  simp only [same, if_true]

/-- A limit above the number of slashes is not reached. -/
theorem Rereads.ancestors_succ {locator : Locator} {rest : Text} (rereads : locator.Rereads rest) {limit : Nat}
    (enough : locator.text.count '/' < limit) : ancestors (limit + 1) locator = ancestors limit locator := by
  induction limit generalizing locator rest with
  | zero => exact absurd enough (Nat.not_lt_zero _)
  | succ limit ih =>
    have others : ∀ above, IsParent above locator → ancestors (limit + 1) above = ancestors limit above := by
      intro above parent
      have lowers := rereads.lowers parent
      obtain ⟨rest, again⟩ := lowers.rereads
      rcases lowers.slashes with fewer | ⟨own, slashed⟩
      · exact ih again (by omega)
      · have some := List.count_pos_iff.mpr slashed
        obtain ⟨less, rfl⟩ := Nat.exists_eq_succ_of_ne_zero (show limit ≠ 0 by omega)
        exact own.ancestors_eq _ _
    rw [ancestors, ancestors]
    cases made : locator.parent with
    | error error => rfl
    | ok above =>
      cases same : above == locator with
      | true => simp only [same, if_true]
      | false => simp only [others above ⟨made, same⟩]

/-- The parents of a locator are all there once the limit is above the number of slashes. -/
theorem Reachable.ancestors_eq {locator : Locator} (reachable : Reachable Url.IsRead locator) {limit : Nat}
    (enough : locator.text.count '/' < limit) (more : Nat) :
    ancestors (limit + more) locator = ancestors limit locator := by
  obtain ⟨rest, rereads⟩ := reachable.exists_rereads
  induction more with
  | zero => rfl
  | succ more ih =>
    rw [← ih, ← Nat.add_assoc]
    exact rereads.ancestors_succ (Nat.lt_add_right more enough)

/-! ### How it ends -/

/-- Going from a locator to its parent, and on from there, ends. -/
structure Ascends (locator : Locator) : Prop where
  /-- There are at most as many steps as slashes. -/
  few : ∀ count top, Climbs count locator top → count ≤ locator.text.count '/'
  /-- Each step leaves a proper prefix of the text. -/
  shortens : ∀ (count : Nat) (place above : Locator), Climbs count locator place → above.IsParent place →
    above.text <+: place.text ∧ above.text ≠ place.text
  ends : ∃ count top, Climbs count locator top ∧ top.IsTop
  own_iff : locator.IsOwnParent ↔ "!/".toList <:+ locator.text

/-- Files have parents as long as there is a slash. -/
structure AscendsAsFile (locator : Locator) : Prop where
  /-- The URL of a parent is never refused. -/
  fails_iff : ∀ count place error, Climbs count locator place →
    (place.parent = .error error ↔ '/' ∉ place.text ∧ error = .invalid place.text .noSeparator)
  ends : ∃ count top, Climbs count locator top ∧
    ("!/".toList <:+ top.text ∧ top.IsOwnParent ∨ top.parent = .error (.invalid top.text .noSeparator))

theorem Rereads.parent_fails_iff {locator : Locator} {rest : Text} (rereads : locator.Rereads rest)
    (file : locator.isFile = true) {error : LocatorError} :
    locator.parent = .error error ↔ '/' ∉ locator.text ∧ error = .invalid locator.text .noSeparator := by
  have found : ∀ {front after : Text} {above : Locator}, rest = front ++ '/' :: after →
      locator.parent = .ok above →
      (locator.parent = .error error ↔ '/' ∉ locator.text ∧ error = .invalid locator.text .noSeparator) := by
    intro front after above shape made
    refine iff_of_false (by rw [made]; exact fun none => by cases none) ?_
    rintro ⟨slashless, -⟩
    rw [rereads.slash_mem_text_iff, shape] at slashless
    simp at slashless
  cases rereads.parentCourse with
  | top slashless fails =>
    rw [fails]
    simp [slashless, eq_comm]
  | entered shape _ _ made => exact found shape made
  | cut shape _ _ made => exact found shape made
  | refused _ foreign _ =>
    rw [file] at foreign
    cases foreign

/-- From every locator, parents lead in at most as many steps as there are slashes to a locator that is its own parent
or has none, and only text that ends in the mark of an archive and a slash is that of its own parent. Files have a
parent as long as there is a slash. -/
theorem parent_ascends {locator : Locator} (reachable : Reachable Url.IsRead locator) :
    locator.Ascends ∧ (locator.isFile = true → locator.AscendsAsFile) := by
  obtain ⟨rest, rereads⟩ := reachable.exists_rereads
  refine ⟨{ few := ?_, shortens := ?_, ends := rereads.exists_isTop, own_iff := rereads.isOwnParent_iff }, ?_⟩
  · exact fun count top climbs => climbs.le_count rereads
  · intro count place above climbs parent
    obtain ⟨-, rest, again⟩ := climbs.rereads rereads
    have lowers := again.lowers parent
    exact ⟨lowers.text, fun same => absurd lowers.shorter (by rw [same]; exact Nat.lt_irrefl _)⟩
  · intro file
    have files : ∀ {count place}, Climbs count locator place → place.isFile = true ∧ ∃ rest, place.Rereads rest := by
      intro count place climbs
      obtain ⟨scheme, again⟩ := climbs.rereads rereads
      exact ⟨by rw [isFile, scheme]; exact file, again⟩
    constructor
    · intro count place error climbs
      obtain ⟨file, rest, again⟩ := files climbs
      exact again.parent_fails_iff file
    · obtain ⟨count, top, climbs, ends⟩ := rereads.exists_isTop
      obtain ⟨file, rest, again⟩ := files climbs
      refine ⟨count, top, climbs, ?_⟩
      cases ends with
      | own own => exact .inl ⟨again.isOwnParent_iff.mp own, own⟩
      | fails fails =>
        obtain ⟨slashless, same⟩ := (again.parent_fails_iff file).mp fails
        exact .inr (by rw [fails, same])

/-- A locator inside of an archive. -/
theorem parent_ascends_archive : ∃ locator, parse "file:///a.zip!/b/c#d".toList = .ok locator ∧
    locator.Ascends ∧ locator.AscendsAsFile := by
  have read : parse "file:///a.zip!/b/c#d".toList = .ok _ := rfl
  have both := parent_ascends (.parse read)
  exact ⟨_, read, both.1, both.2 rfl⟩

end FileLocator.Locator
