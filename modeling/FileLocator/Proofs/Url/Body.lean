import FileLocator.Proofs.Url.Href
import FileLocator.Proofs.Url.Root

/-! # The body of a URL

The text behind a scheme is a URL if its body is one: query and fragment are read from whatever text there is, and
only the body can be refused (`exists_parseBehind_iff`). A mark in the front of the text ends the body there, so what
is written behind it makes no difference to the body.
-/

namespace FileLocator

namespace Text

theorem isSome_cut_iff {mark : Char} {source : Text} : (cut mark source).2.isSome = true ↔ mark ∈ source := by
  by_cases member : mark ∈ source
  · obtain ⟨front, behind, rfl, absent⟩ := List.eq_append_cons_of_mem member
    rw [cut_append_cons absent]
    exact iff_of_true rfl member
  · rw [cut_of_not_mem member]
    exact iff_of_false Bool.false_ne_true member

/-- What stands behind a mark has no influence on what stands in front of it. -/
theorem cut_append_of_mem {mark : Char} {front : Text} (member : mark ∈ front) (rest : Text) :
    (cut mark (front ++ rest)).1 = (cut mark front).1 := by
  obtain ⟨before, behind, rfl, absent⟩ := List.eq_append_cons_of_mem member
  rw [List.append_assoc, List.cons_append, cut_append_cons absent, cut_append_cons absent]

end Text

namespace Url

/-- Does a query or a fragment follow the body? -/
def hasMore (rest : Text) : Bool := (Text.cut '?' (Text.cut '#' rest).1).2.isSome || (Text.cut '#' rest).2.isSome

theorem hasMore_iff {rest : Text} : hasMore rest = true ↔ '?' ∈ rest ∨ '#' ∈ rest := by
  rw [hasMore, Bool.or_eq_true, Text.isSome_cut_iff, Text.isSome_cut_iff]
  by_cases fragment : '#' ∈ rest
  · exact iff_of_true (.inr fragment) (.inr fragment)
  · rw [Text.cut_of_not_mem fragment]

/-- A mark ends the body, whatever is written behind it. -/
theorem bodyText_append_of_mem {front : Text} (marked : '?' ∈ front ∨ '#' ∈ front) (rest : Text) :
    bodyText (front ++ rest) = bodyText front := by
  rw [bodyText, bodyText]
  by_cases fragment : '#' ∈ front
  · rw [Text.cut_append_of_mem fragment]
  · rw [Text.cut_append_of_not_mem fragment, Text.cut_of_not_mem fragment]
    exact Text.cut_append_of_mem (marked.resolve_right fragment) _

theorem bodyText_append_of_not_mem {front : Text} (query : '?' ∉ front) (fragment : '#' ∉ front) (rest : Text) :
    bodyText (front ++ rest) = front ++ bodyText rest := by
  rw [bodyText, bodyText, Text.cut_append_of_not_mem fragment]
  dsimp only
  rw [Text.cut_append_of_not_mem query]

theorem bodyText_slash (rest : Text) : bodyText ('/' :: rest) = '/' :: bodyText rest := by
  have lead : bodyText (['/'] ++ rest) = ['/'] ++ bodyText rest :=
    bodyText_append_of_not_mem (by decide) (by decide) rest
  exact lead

theorem bodyText_of_not_mem {rest : Text} (query : '?' ∉ rest) (fragment : '#' ∉ rest) : bodyText rest = rest := by
  have whole := bodyText_append_of_not_mem query fragment []
  rwa [List.append_nil, show bodyText [] = [] from rfl, List.append_nil] at whole

theorem isPrefix_bodyText (rest : Text) : bodyText rest <+: rest :=
  (List.takeWhile_prefix _).trans (List.takeWhile_prefix _)

/-- Text behind a scheme can be read if its body can. -/
theorem exists_parseBehind_iff {scheme rest : Text} :
    (∃ url, parseBehind scheme rest = .ok url) ↔
      ∃ body, parseBody (Kind.ofScheme scheme) (hasMore rest) (bodyText rest) = .ok body := by
  simp only [parseBehind, hasMore, bodyText]
  cases parseBody (Kind.ofScheme scheme) _ (Text.cut '?' (Text.cut '#' rest).1).1 with
  | error fault => simp [Except.map]
  | ok body => simp [Except.map]

/-- The parts of a URL that was read behind a scheme. -/
theorem parts_of_parseBehind {scheme rest : Text} {url : Url} (read : parseBehind scheme rest = .ok url) :
    url.scheme = scheme ∧
      parseBody (Kind.ofScheme scheme) (hasMore rest) (bodyText rest) = .ok (url.authority, url.route) ∧
      (url.query.isSome = true ↔ '?' ∈ (Text.cut '#' rest).1) := by
  rw [← Text.isSome_cut_iff]
  rw [parseBehind] at read
  dsimp only at read
  rw [hasMore, bodyText]
  cases parts : parseBody (Kind.ofScheme scheme) _ (Text.cut '?' (Text.cut '#' rest).1).1 with
  | error fault =>
    rw [parts] at read
    cases read
  | ok body =>
    rw [parts] at read
    cases read
    exact ⟨rfl, rfl, by rw [Option.isSome_map]⟩

end Url

end FileLocator
