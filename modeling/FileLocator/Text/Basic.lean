/-! # Text and cutting it up

Locators, URLs and log records are handled as lists of characters, and file names as lists of
bytes. The searches and cuts below work on lists of any kind: behind a known beginning, at every
separator, at the first and at the last occurrence of a mark, and at the two ends. Each comes with the
law that says what it finds.
-/

namespace FileLocator

abbrev Text := List Char

namespace Text

variable {α : Type}

/-- The part of `source` behind `lead`, if `source` begins with `lead`. -/
def after? [DecidableEq α] : List α → List α → Option (List α)
  | [], source => some source
  | _ :: _, [] => none
  | mark :: lead, head :: rest => if mark = head then after? lead rest else none

theorem after?_eq_some_iff [DecidableEq α] {lead source rest : List α} :
    after? lead source = some rest ↔ source = lead ++ rest := by
  fun_induction after? lead source with
  | case1 source => simp
  | case2 => simp
  | case3 head lead tail ih => simpa using ih
  | case4 mark lead head tail differs => simpa using fun same => absurd same.symm differs

@[simp] theorem after?_append [DecidableEq α] (lead rest : List α) :
    after? lead (lead ++ rest) = some rest := after?_eq_some_iff.mpr rfl

/-- Does `inner` stand somewhere in `source`? -/
def occurs [DecidableEq α] (inner : List α) : List α → Bool
  | [] => inner.isEmpty
  | head :: rest => (after? inner (head :: rest)).isSome || occurs inner rest

theorem occurs_iff [DecidableEq α] {inner source : List α} :
    occurs inner source = true ↔ inner <:+: source := by
  induction source with
  | nil => simp [occurs]
  | cons head rest ih =>
    rw [occurs, Bool.or_eq_true, ih, List.infix_cons_iff, Option.isSome_iff_exists]
    refine or_congr_left (exists_congr fun behind => ?_)
    rw [after?_eq_some_iff, eq_comm]

/-- Put one more element in front of the first piece. -/
def attach (head : α) : List (List α) → List (List α)
  | [] => [[head]]
  | piece :: others => (head :: piece) :: others

/-- Cut at every separator; between two neighbouring separators there is an empty piece. -/
def pieces (isSeparator : α → Bool) : List α → List (List α)
  | [] => [[]]
  | head :: rest =>
    if isSeparator head then [] :: pieces isSeparator rest else attach head (pieces isSeparator rest)

theorem pieces_ne_nil (isSeparator : α → Bool) (source : List α) : pieces isSeparator source ≠ [] := by
  cases source with
  | nil => simp [pieces]
  | cons head rest =>
    rw [pieces]
    split
    · simp
    · cases pieces isSeparator rest <;> simp [attach]

@[simp] theorem pieces_append_cons (isSeparator : α → Bool) (before after : List α) (mark : α)
    (separates : isSeparator mark = true) :
    pieces isSeparator (before ++ mark :: after) =
      pieces isSeparator before ++ pieces isSeparator after := by
  induction before with
  | nil => simp [pieces, separates]
  | cons head rest ih =>
    simp only [List.cons_append, pieces, ih]
    split
    · simp
    · cases parts : pieces isSeparator rest with
      | nil => exact absurd parts (pieces_ne_nil isSeparator rest)
      | cons piece others => simp [attach]

theorem pieces_eq_singleton (isSeparator : α → Bool) (source : List α)
    (free : ∀ item ∈ source, isSeparator item = false) : pieces isSeparator source = [source] := by
  induction source with
  | nil => rfl
  | cons head rest ih =>
    have inner := ih fun item member => free item (List.mem_cons_of_mem _ member)
    simp [pieces, free head (List.mem_cons_self ..), inner, attach]

/-- The part before the first `mark`, and the part behind it if there is a mark. -/
def cut [DecidableEq α] (mark : α) (source : List α) : List α × Option (List α) :=
  (source.takeWhile (· ≠ mark), (source.dropWhile (· ≠ mark)).tail?)

theorem cut_of_not_mem [DecidableEq α] {mark : α} {source : List α} (absent : mark ∉ source) :
    cut mark source = (source, none) := by
  induction source with
  | nil => rfl
  | cons item rest ih =>
    rw [List.mem_cons, not_or] at absent
    have tail := ih absent.2
    simp_all [cut, Ne.symm absent.1]

theorem cut_append_cons [DecidableEq α] {mark : α} {before : List α} (absent : mark ∉ before)
    (behind : List α) : cut mark (before ++ mark :: behind) = (before, some behind) := by
  have kept : ∀ item ∈ before, decide (item ≠ mark) = true := fun item member =>
    decide_eq_true fun same => absent (same ▸ member)
  rw [cut, List.takeWhile_append_of_pos kept, List.dropWhile_append_of_pos kept]
  simp

/-- The first occurrence of a mark divides text in one way. -/
theorem append_cons_inj [DecidableEq α] {mark : α} {front front' behind behind' : List α} (absent : mark ∉ front)
    (absent' : mark ∉ front') (same : front ++ mark :: behind = front' ++ mark :: behind') :
    front = front' ∧ behind = behind' := by
  have parts := cut_append_cons absent behind
  rw [same, cut_append_cons absent'] at parts
  obtain ⟨first, rest⟩ := Prod.mk.inj parts
  exact ⟨first.symm, (Option.some.inj rest).symm⟩

/-- A beginning without the mark ends in front of it. -/
theorem isPrefix_of_append_cons {mark : α} {front before after : List α} (absent : mark ∉ front)
    (begins : front <+: before ++ mark :: after) : front <+: before := by
  obtain ⟨rest, same⟩ := begins
  rcases List.append_eq_append_iff.mp same with ⟨middle, longer, -⟩ | ⟨middle, shorter, inner⟩
  · exact ⟨middle, longer.symm⟩
  · cases middle with
    | nil => exact ⟨[], by simpa using shorter⟩
    | cons head tail =>
      obtain ⟨rfl, -⟩ := List.cons.inj inner
      exact absurd (by simp [shorter]) absent

/-- The parts before and behind the last occurrence of `mark`. -/
def cutLast? [DecidableEq α] (mark : α) : List α → Option (List α × List α)
  | [] => none
  | head :: rest =>
    match cutLast? mark rest with
    | some (before, after) => some (head :: before, after)
    | none => if head = mark then some ([], rest) else none

theorem cutLast?_eq_none_iff [DecidableEq α] {mark : α} {source : List α} :
    cutLast? mark source = none ↔ mark ∉ source := by
  induction source with
  | nil => simp [cutLast?]
  | cons head rest ih =>
    cases parts : cutLast? mark rest with
    | some cut =>
      simp only [parts, reduceCtorEq, false_iff, Decidable.not_not] at ih
      simp [cutLast?, parts, ih]
    | none =>
      simp only [parts, true_iff] at ih
      by_cases same : head = mark <;> simp [cutLast?, parts, ih, same, Ne.symm]

/-- The cut is at an occurrence, and no later occurrence is left. -/
theorem cutLast?_eq_some_iff [DecidableEq α] {mark : α} {source before after : List α} :
    cutLast? mark source = some (before, after) ↔ source = before ++ mark :: after ∧ mark ∉ after := by
  induction source generalizing before with
  | nil => simp [cutLast?]
  | cons head rest ih =>
    cases parts : cutLast? mark rest with
    | some cut =>
      have present : mark ∈ rest := by
        refine Decidable.not_not.mp fun absent => ?_
        rw [cutLast?_eq_none_iff.mpr absent] at parts
        simp at parts
      rw [parts] at ih
      cases before with
      | nil => simp [cutLast?, parts]; grind
      | cons first before => have := @ih before; simp [cutLast?, parts]; grind
    | none =>
      have absent := cutLast?_eq_none_iff.mp parts
      cases before <;> grind [cutLast?]

/-- Drop the longest tail of elements that satisfy `blank`. -/
def trimEnd (blank : α → Bool) : List α → List α
  | [] => []
  | head :: rest =>
    match trimEnd blank rest with
    | [] => if blank head then [] else [head]
    | kept => head :: kept

/-- Drop the elements that satisfy `blank` at both ends. -/
def trim (blank : α → Bool) (source : List α) : List α := trimEnd blank (source.dropWhile blank)

theorem trimEnd_append (blank : α → Bool) (kept : List α) (last : α) (tail : List α)
    (solid : blank last = false) (loose : ∀ item ∈ tail, blank item = true) :
    trimEnd blank (kept ++ last :: tail) = kept ++ [last] := by
  have vanishes : trimEnd blank tail = [] := by
    induction tail with
    | nil => rfl
    | cons head rest ih => simp_all [trimEnd]
  induction kept with
  | nil => simp [trimEnd, vanishes, solid]
  | cons head rest ih => cases rest <;> simp_all [trimEnd]

end Text

end FileLocator
