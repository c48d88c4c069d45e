/-! # Ranges of characters

Properties of characters are kept as closed ranges of code points that ascend and do not touch. A search
stops at the first range that lies above the character, and it finds exactly the characters that some
range holds (`contains_iff`).
-/

namespace FileLocator.Text

/-- Does each range end before the next begins? -/
def ascends : List (Nat × Nat) → Bool
  | [] => true
  | [(first, last)] => first ≤ last
  | (first, last) :: (next, bound) :: rest =>
    first ≤ last && last + 1 < next && ascends ((next, bound) :: rest)

/-- Closed ranges of code points, each with its first and its last. -/
structure Ranges where
  bounds : List (Nat × Nat)
  ascending : ascends bounds = true

namespace Ranges

/-- Does a number lie in one of some ranges? -/
def search (n : Nat) : List (Nat × Nat) → Bool
  | [] => false
  | (first, last) :: rest => first ≤ n && (n ≤ last || search n rest)

/-- Does a character lie in one of the ranges? -/
def contains (ranges : Ranges) (c : Char) : Bool := search c.toNat ranges.bounds

/-- Ranges that follow one another lie above the first of them. -/
theorem le_of_ascends {first last : Nat} {rest : List (Nat × Nat)}
    (ascending : ascends ((first, last) :: rest) = true) : ∀ range ∈ rest, first ≤ range.1 := by
  induction rest generalizing first last with
  | nil => simp
  | cons next rest ih =>
    obtain ⟨start, bound⟩ := next
    simp only [ascends, Bool.and_eq_true, decide_eq_true_eq] at ascending
    intro range member
    rcases List.mem_cons.mp member with rfl | member
    · dsimp only
      omega
    · have above := ih ascending.2 range member
      omega

theorem ascends_of_cons {range : Nat × Nat} {rest : List (Nat × Nat)}
    (ascending : ascends (range :: rest) = true) : ascends rest = true := by
  cases rest with
  | nil => rfl
  | cons next rest =>
    simp only [ascends, Bool.and_eq_true] at ascending
    exact ascending.2

theorem search_iff {n : Nat} {bounds : List (Nat × Nat)} (ascending : ascends bounds = true) :
    search n bounds = true ↔ ∃ range ∈ bounds, range.1 ≤ n ∧ n ≤ range.2 := by
  induction bounds with
  | nil => simp [search]
  | cons range rest ih =>
    have above := le_of_ascends ascending
    simp only [search, Bool.and_eq_true, Bool.or_eq_true, decide_eq_true_eq, ih (ascends_of_cons ascending)]
    constructor
    · rintro ⟨low, high | ⟨later, member, within⟩⟩
      · exact ⟨range, List.mem_cons_self .., low, high⟩
      · exact ⟨later, List.mem_cons_of_mem _ member, within⟩
    · rintro ⟨found, member, low, high⟩
      rcases List.mem_cons.mp member with rfl | member
      · exact ⟨low, .inl high⟩
      · exact ⟨Nat.le_trans (above found member) low, .inr ⟨found, member, low, high⟩⟩

theorem contains_iff {ranges : Ranges} {c : Char} :
    ranges.contains c = true ↔ ∃ range ∈ ranges.bounds, range.1 ≤ c.toNat ∧ c.toNat ≤ range.2 :=
  search_iff ranges.ascending

end Ranges

end FileLocator.Text
