import FileLocator.Path
import FileLocator.Proofs.Neat
import FileLocator.Proofs.TextBytes

/-! # Names of paths

The names of a path hold no slash and are neither empty nor a dot. A path from the root is the same place
as the path through its names (`same_rooted`), and it is text exactly when each of its names is.
-/

namespace FileLocator.Path

open Utf8 (Bytes IsText)

/-- What a name of a path looks like. -/
structure IsName (name : Bytes) : Prop where
  slashless : slash ∉ name
  nonempty : name ≠ []
  solid : name ≠ [dot]

theorem isName_of_mem_components {path : Path} {name : Bytes} (member : name ∈ path.components) :
    IsName name := by
  obtain ⟨piece, kept⟩ := List.mem_filter.mp member
  simp only [Bool.and_eq_true, bne_iff_ne] at kept
  refine ⟨?_, kept.1, kept.2⟩
  intro present
  have solid := Text.not_isSeparator_of_mem_pieces piece slash present
  cases solid

/-! ## Paths from the root -/

theorem startsHere_of_isAbsolute {path : Path} (absolute : path.isAbsolute = true) :
    path.startsHere = false := by
  obtain ⟨bytes⟩ := path
  obtain ⟨rest, rfl⟩ := List.head?_eq_some_iff.mp (beq_iff_eq.mp absolute)
  rfl

/-- From the root, the names alone make the difference. -/
theorem same_iff_of_isAbsolute {first second : Path} (rooted : first.isAbsolute = true)
    (rooted' : second.isAbsolute = true) : first.same second = true ↔ first.components = second.components := by
  rw [same_iff, rooted, rooted', startsHere_of_isAbsolute rooted, startsHere_of_isAbsolute rooted']
  exact ⟨fun both => both.2.2, fun names => ⟨rfl, rfl, names⟩⟩

theorem isAbsolute_join {base path : Path} (absolute : base.isAbsolute = true) :
    (base.join path).isAbsolute = true := by
  obtain ⟨bytes⟩ := base
  obtain ⟨rest, rfl⟩ := List.head?_eq_some_iff.mp (beq_iff_eq.mp absolute)
  rw [join]
  split
  · assumption
  split
  · rfl
  · rfl

/-- The path from the root through the names of another, with a slash behind them if it is `closed`. -/
def rooted (path : Path) (closed : Bool) : Path :=
  ⟨path.components.flatMap (slash :: ·) ++ if closed = true ∨ path.components = [] then [slash] else []⟩

theorem components_flatMap {names : List Bytes} (valid : ∀ name ∈ names, IsName name) {tail : Bytes}
    (closing : tail = [] ∨ tail = [slash]) : components ⟨names.flatMap (slash :: ·) ++ tail⟩ = names := by
  have parts : Text.pieces (· == slash) (names.flatMap (slash :: ·)) = [] :: names := by
    apply Text.pieces_flatMap_cons rfl
    intro name member b inside
    rw [beq_eq_false_iff_ne]
    rintro rfl
    exact (valid name member).slashless inside
  have kept : names.filter (fun name => name != [] && name != [dot]) = names := by
    rw [List.filter_eq_self]
    intro name member
    simp [(valid name member).nonempty, (valid name member).solid]
  have whole : components ⟨names.flatMap (slash :: ·)⟩ = names := by
    rw [components, pieces, parts]
    exact kept
  rcases closing with rfl | rfl
  · rw [List.append_nil, whole]
  · rw [components_append_slash, whole]
    exact List.append_nil _

@[simp] theorem components_rooted (path : Path) (closed : Bool) :
    (path.rooted closed).components = path.components := by
  apply components_flatMap
  · exact fun name => isName_of_mem_components
  · split
    · exact .inr rfl
    · exact .inl rfl

theorem head?_rooted (path : Path) (closed : Bool) : (path.rooted closed).bytes.head? = some slash := by
  rw [rooted]
  cases path.components with
  | nil => simp
  | cons name names => rfl

@[simp] theorem isAbsolute_rooted (path : Path) (closed : Bool) : (path.rooted closed).isAbsolute = true := by
  rw [isAbsolute, head?_rooted]
  rfl

theorem same_rooted {path : Path} (absolute : path.isAbsolute = true) (closed : Bool) :
    (path.rooted closed).same path = true := by
  rw [same_iff_of_isAbsolute (isAbsolute_rooted path closed) absolute, components_rooted]

theorem components_ofComponents {names : List Bytes} (valid : ∀ name ∈ names, IsName name) :
    (ofComponents names).components = names := by
  rw [ofComponents]
  split
  · next none =>
    rw [none]
    rfl
  · have whole := components_flatMap valid (.inl rfl)
    rwa [List.append_nil] at whole

theorem isAbsolute_ofComponents (names : List Bytes) : (ofComponents names).isAbsolute = true := by
  rw [ofComponents]
  split
  · rfl
  · next nonempty =>
    obtain ⟨first, others, rfl⟩ := List.exists_cons_of_ne_nil nonempty
    rfl

/-- A path from the root without its last name. -/
def above (path : Path) : Path := ofComponents path.components.dropLast

theorem components_above (path : Path) : path.above.components = path.components.dropLast :=
  components_ofComponents fun _ member => isName_of_mem_components (List.dropLast_subset _ member)

/-- A path from the root with another text behind the last dot of its last name. -/
def withExtension (path : Path) (extension : Text) : Path :=
  match path.components.getLast?.bind (Text.cutLast? dot) with
  | some (stem, _) => ofComponents (path.components.dropLast ++ [stem ++ dot :: Utf8.encode extension])
  | none => path

theorem withExtension_eq {path : Path} {names : List Bytes} {stem old : Bytes}
    (split : path.components = names ++ [stem ++ dot :: old]) (last : dot ∉ old) (extension : Text) :
    path.withExtension extension = ofComponents (names ++ [stem ++ dot :: Utf8.encode extension]) := by
  have cut : Text.cutLast? dot (stem ++ dot :: old) = some (stem, old) :=
    Text.cutLast?_eq_some_iff.mpr ⟨rfl, last⟩
  rw [withExtension, split, List.getLast?_concat, Option.bind_some, cut, List.dropLast_concat]

/-- Some text behind a dot of a name makes a name again. -/
theorem IsName.extended {stem old : Bytes} (valid : IsName (stem ++ dot :: old)) {extension : Text}
    (nonempty : extension ≠ []) (slashless : '/' ∉ extension) :
    IsName (stem ++ dot :: Utf8.encode extension) where
  slashless := by
    intro member
    rcases List.mem_append.mp member with front | behind
    · exact valid.slashless (List.mem_append_left _ front)
    · rcases List.mem_cons.mp behind with same | inside
      · cases same
      · exact slashless (Utf8.mem_of_mem_encode inside (by decide))
  nonempty := by simp
  solid := by
    intro same
    rcases List.append_eq_singleton_iff.mp same with ⟨-, behind⟩ | ⟨-, none⟩
    · exact nonempty (Utf8.encode_inj.mp (List.cons.inj behind).2)
    · cases none

/-- The names of a text path begin at the root only if the text does. -/
theorem isAbsolute_ofText {text : Text} (relative : text.head? ≠ some '/') : (ofText text).isAbsolute = false := by
  cases text with
  | nil => rfl
  | cons c rest =>
    obtain ⟨lead, tail, bytes, -⟩ := Utf8.first_encodeChar c []
    have other : lead ≠ slash := by
      rintro rfl
      have small : c.toNat < 0x80 := by
        by_contra large
        have big := Utf8.le_of_mem_encodeChar (b := slash) (Nat.not_lt.mp large) (by simp [bytes])
        exact absurd big (by decide)
      rw [Utf8.encodeChar_ascii small] at bytes
      have value := congrArg UInt8.toNat (List.cons.inj bytes).1
      rw [Utf8.toNat_ofNat_of_lt (by omega)] at value
      have same : c = '/' := Char.toNat_inj.mp value
      exact relative (congrArg some same)
    rw [isAbsolute, ofText, Utf8.encode_cons, bytes]
    simpa using other

/-! ## Paths that are text -/

theorem isText_iff_pieces (bytes : Bytes) :
    IsText bytes ↔ ∀ piece ∈ Text.pieces (· == slash) bytes, IsText piece := by
  by_cases present : slash ∈ bytes
  · obtain ⟨before, behind, divided⟩ := List.append_of_mem present
    have front : before.length < bytes.length := by
      rw [divided, List.length_append, List.length_cons]
      omega
    have back : behind.length < bytes.length := by
      rw [divided, List.length_append, List.length_cons]
      omega
    have left := isText_iff_pieces before
    have right := isText_iff_pieces behind
    rw [divided, Utf8.isText_append_cons_iff (by decide), Text.pieces_append_cons _ _ _ _ rfl,
      List.forall_mem_append, left, right]
  · rw [Text.pieces_eq_singleton]
    · simp
    · intro b member
      rw [beq_eq_false_iff_ne]
      rintro rfl
      exact present member
termination_by bytes.length

theorem isText_iff_components {path : Path} : IsText path.bytes ↔ ∀ name ∈ path.components, IsText name := by
  have dropped : IsText [] ∧ IsText [dot] := ⟨⟨[], rfl⟩, ⟨['.'], rfl⟩⟩
  rw [isText_iff_pieces]
  constructor
  · intro all name member
    exact all name (List.mem_filter.mp member).1
  · intro all piece member
    by_cases empty : piece = []
    · rw [empty]
      exact dropped.1
    by_cases dotted : piece = [dot]
    · rw [dotted]
      exact dropped.2
    · exact all piece (List.mem_filter.mpr ⟨member, by simp [empty, dotted]⟩)

theorem isText_rooted_iff {path : Path} {closed : Bool} :
    IsText (path.rooted closed).bytes ↔ IsText path.bytes := by
  rw [isText_iff_components, components_rooted, isText_iff_components]

end FileLocator.Path
