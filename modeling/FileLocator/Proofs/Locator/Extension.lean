import FileLocator.Proofs.Locator.Parents

/-! # Changing the extension again

A change of the extension keeps the stem, the text in front of the last dot, wherever that dot stands: in the path, in
the host or in the scheme itself. What is written behind the dot is cleaned, and it is put into lower case as far as it
becomes a part of the scheme (`KeepsFront`). An extension without dots leaves the stem to the
next change, which makes of the new locator what it makes of the old one (`changeExtension_absorbs`). An extension with
dots makes the stem longer each time.
-/

namespace FileLocator

/-- Lower case makes no dot and takes none away. -/
theorem Text.dot_mem_map_toLower_iff {text : Text} : '.' ∈ text.map Char.toLower ↔ '.' ∈ text := by
  constructor
  · intro member
    obtain ⟨c, present, lower⟩ := List.mem_map.mp member
    rcases eq_or_eq_toUpper lower with rfl | rfl
    · exact present
    · exact present
  · exact List.mem_map_of_mem

namespace Locator

open Text (cleanBehind isEdgeBlank)

/-! ## Stems -/

/-- What stands in front of the last dot, or all of the text if there is no dot. -/
def stem (text : Text) : Text :=
  match Text.cutLast? '.' text with
  | some (before, _) => before
  | none => text

theorem changeExtension_eq (locator : Locator) (extension : Text) :
    locator.changeExtension extension = parse (stem locator.text ++ '.' :: extension) := rfl

theorem stem_isPrefix (text : Text) : stem text <+: text := by
  rw [stem]
  split
  · next before after cut => exact ⟨'.' :: after, (Text.cutLast?_eq_some_iff.mp cut).1.symm⟩
  · exact List.prefix_rfl

theorem stem_append {front tail : Text} (dotless : '.' ∉ tail) : stem (front ++ '.' :: tail) = front := by
  have cut : Text.cutLast? '.' (front ++ '.' :: tail) = some (front, tail) :=
    Text.cutLast?_eq_some_iff.mpr ⟨rfl, dotless⟩
  rw [stem, cut]

/-- A later dot belongs to a longer stem. -/
theorem length_lt_stem_append (front : Text) {tail : Text} (dotted : '.' ∈ tail) :
    front.length < (stem (front ++ '.' :: tail)).length := by
  cases cut : Text.cutLast? '.' tail with
  | none => exact absurd dotted (Text.cutLast?_eq_none_iff.mp cut)
  | some parts =>
    obtain ⟨inner, last⟩ := parts
    obtain ⟨rfl, dotless⟩ := Text.cutLast?_eq_some_iff.mp cut
    have shape : front ++ '.' :: (inner ++ '.' :: last) = (front ++ '.' :: inner) ++ '.' :: last := by simp
    have longer : stem (front ++ '.' :: (inner ++ '.' :: last)) = front ++ '.' :: inner := shape ▸ stem_append dotless
    simp only [longer, List.length_append, List.length_cons]
    omega

/-! ## What a change keeps -/

theorem dot_mem_cleanBehind_iff (behind : Text) : '.' ∈ cleanBehind behind ↔ '.' ∈ behind :=
  Text.mem_cleanBehind_iff (by decide)

/-- A locator whose text keeps a front and the dot behind it, with no other dots than those that were written there. -/
structure KeepsFront (target : Locator) (front behind kept : Text) : Prop where
  text : target.text = front ++ '.' :: kept
  length : kept.length = (cleanBehind behind).length
  dots : '.' ∈ kept ↔ '.' ∈ behind

section Kept

variable {locator : Locator} {rest : Text} (rereads : locator.Rereads rest) {front : Text}
  (begins : front <+: locator.text) {behind : Text} {target : Locator}
  (read : parse (front ++ '.' :: behind) = .ok target)

include rereads begins read

/-- Behind the colon of the scheme, text is kept as cleaning leaves it. -/
theorem Rereads.keepsFront_of_mem (colon : ':' ∈ front) :
    target.KeepsFront front behind (cleanBehind behind) := by
  obtain ⟨name, middle, rfl, absent⟩ := List.eq_append_cons_of_mem colon
  obtain ⟨others, whole⟩ := begins
  rw [rereads.text, List.append_assoc, List.cons_append] at whole
  obtain ⟨rfl, inner⟩ := Text.append_cons_inj absent (rereads.proper.not_mem rfl) whole
  have stays : ∀ c ∈ middle, Text.isBreak c = false := fun c member =>
    rereads.neat.stays c (inner ▸ List.mem_append_left others member)
  have dotted : Text.NeatBehind (middle ++ ['.']) := Text.neatBehind_concat stays rfl
  have cleaned : cleanBehind (middle ++ '.' :: behind) = middle ++ '.' :: cleanBehind behind := by
    simpa using Text.cleanBehind_append dotted behind
  rw [List.append_assoc, List.cons_append] at read
  obtain ⟨-, text⟩ := (parse_behind_eq_ok_iff rereads.proper).mp read
  refine { text := ?_, length := rfl, dots := dot_mem_cleanBehind_iff behind }
  simpa [cleaned] using text

/-- In front of that colon, the text up to the next colon becomes a part of the scheme, in lower case. -/
theorem Rereads.exists_keepsFront_of_not_mem (colonless : ':' ∉ front) :
    ∃ kept, target.KeepsFront front behind kept := by
  have inside : front <+: locator.scheme :=
    Text.isPrefix_of_append_cons colonless (rereads.text ▸ begins)
  have solid : Text.IsSolid (front ++ ['.']) :=
    Text.isSolid_append.mpr ⟨fun c member => rereads.proper.isSolid c (inside.subset member), by decide⟩
  have cleaned : Text.clean (front ++ '.' :: behind) = (front ++ ['.']) ++ cleanBehind behind := by
    simpa using Text.clean_append solid.neat (by simp) behind
  obtain ⟨name, after, shape, -, -, scheme, text⟩ := text_of_parse read
  have whole : (front ++ ['.']) ++ cleanBehind behind = name ++ ':' :: after := cleaned.symm.trans shape
  -- The front has no colon, so the name of the new scheme reaches beyond it.
  obtain ⟨inner, rfl⟩ := Text.isPrefix_of_append_cons (by simp [colonless]) ⟨_, whole⟩
  have split : cleanBehind behind = inner ++ ':' :: after := by simpa using whole
  refine ⟨inner.map Char.toLower ++ ':' :: after, ?_, ?_, ?_⟩
  · rw [text, scheme, List.map_append, List.map_append, rereads.proper.map_toLower_of_isPrefix inside]
    simp
  · simp [split]
  · rw [← dot_mem_cleanBehind_iff behind, split]
    simp [Text.dot_mem_map_toLower_iff]

theorem Rereads.exists_keepsFront : ∃ kept, target.KeepsFront front behind kept := by
  by_cases colon : ':' ∈ front
  · exact ⟨_, rereads.keepsFront_of_mem begins read colon⟩
  · exact rereads.exists_keepsFront_of_not_mem begins read colon

end Kept

theorem Reachable.exists_keepsStem {source target : Locator} (reachable : Reachable Url.IsRead source)
    {extension : Text} (made : source.changeExtension extension = .ok target) :
    ∃ kept, target.KeepsFront (stem source.text) extension kept := by
  obtain ⟨rest, rereads⟩ := reachable.exists_rereads
  exact rereads.exists_keepsFront (stem_isPrefix source.text) made

/-! ## Changing again -/

/-- An extension without dots leaves the stem to the next change. -/
theorem Reachable.stem_eq {source target : Locator} (reachable : Reachable Url.IsRead source)
    {extension : Text} (dotless : '.' ∉ extension) (made : source.changeExtension extension = .ok target) :
    stem target.text = stem source.text := by
  obtain ⟨kept, keeps⟩ := reachable.exists_keepsStem made
  rw [keeps.text]
  exact stem_append (keeps.dots.not.mpr dotless)

/-- An extension with dots makes the text longer when it is applied again. -/
theorem Reachable.text_ne_of_dot_mem {source target again : Locator} (reachable : Reachable Url.IsRead source)
    {extension : Text} (dotted : '.' ∈ extension) (made : source.changeExtension extension = .ok target)
    (more : target.changeExtension extension = .ok again) : again.text ≠ target.text := by
  obtain ⟨kept, once⟩ := reachable.exists_keepsStem made
  obtain ⟨kept', twice⟩ := (reachable.changeExtension made).exists_keepsStem more
  have longer : (stem source.text).length < (stem target.text).length := by
    rw [once.text]
    exact length_lt_stem_append _ (once.dots.mpr dotted)
  intro same
  have sizes := congrArg List.length same
  rw [twice.text, once.text, List.length_append, List.length_append, List.length_cons, List.length_cons,
    once.length, twice.length] at sizes
  rw [once.text] at longer
  omega

/-- Behind an extension without dots, every other change has the result that it has without it. An extension that is
applied again makes no difference exactly if there is no dot in it. -/
theorem changeExtension_absorbs {source : Locator} (reachable : Reachable Url.IsRead source) :
    (∀ first target, '.' ∉ first → source.changeExtension first = .ok target →
      ∀ second, target.changeExtension second = source.changeExtension second) ∧
    ∀ extension target, source.changeExtension extension = .ok target →
      ((∃ again, target.changeExtension extension = .ok again ∧ (again == target) = true) ↔ '.' ∉ extension) := by
  have absorbs : ∀ first target, '.' ∉ first → source.changeExtension first = .ok target →
      ∀ second, target.changeExtension second = source.changeExtension second := by
    intro first target dotless made second
    rw [changeExtension_eq, changeExtension_eq, reachable.stem_eq dotless made]
  refine ⟨absorbs, ?_⟩
  intro extension target made
  constructor
  · rintro ⟨again, more, same⟩ dotted
    exact reachable.text_ne_of_dot_mem dotted made more (beq_iff.mp same)
  · intro dotless
    exact ⟨target, (absorbs extension target dotless made extension).trans made, beq_iff.mpr rfl⟩

/-- The last dot stands in the scheme, and the extension brings a new colon with it. -/
theorem changeExtension_absorbs_scheme : ∃ source target, parse "a.b:/x".toList = .ok source ∧
    '.' ∉ "C:/Y \t".toList ∧ source.changeExtension "C:/Y \t".toList = .ok target ∧
    target.text = "a.c:/Y".toList ∧ (∀ second, target.changeExtension second = source.changeExtension second) ∧
    ∃ again, target.changeExtension "C:/Y \t".toList = .ok again ∧ (again == target) = true := by
  have runs : ∃ source target, parse "a.b:/x".toList = .ok source ∧
      source.changeExtension "C:/Y \t".toList = .ok target ∧ target.text = "a.c:/Y".toList := ⟨_, _, rfl, rfl, rfl⟩
  obtain ⟨source, target, read, made, text⟩ := runs
  have dotless : '.' ∉ "C:/Y \t".toList := by decide
  have both := changeExtension_absorbs (.parse read)
  exact ⟨source, target, read, dotless, made, text, both.1 _ _ dotless made, (both.2 _ _ made).mpr dotless⟩

end Locator

end FileLocator
