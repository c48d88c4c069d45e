import FileLocator.Proofs.Neat
import FileLocator.Url.Scheme

/-! # Schemes and their names

The name of a scheme is a letter and then letters, digits and three marks. A name in front of a colon is
read as a scheme whatever follows the colon, and nothing else is. The scheme itself is the name in lower
case, which is a name again.
-/

namespace FileLocator.Url.Scheme

open Text (unbroken isBreak isEdgeBlank)

/-- The name of a scheme as it may be written. -/
structure IsName (name : Text) : Prop where
  letter : ∃ first others, name = first :: others ∧ first.isAlpha = true
  chars : ∀ c ∈ name, isSchemeChar c = true

/-- A scheme as URLs hold it. -/
structure IsProper (scheme : Text) : Prop extends IsName scheme where
  lower : scheme.map Char.toLower = scheme

theorem bounds_of_isSchemeChar {c : Char} (valid : isSchemeChar c = true) :
    0x20 < c.toNat ∧ c.toNat < 0x80 := by
  simp only [isSchemeChar, Bool.or_eq_true, beq_iff_eq] at valid
  rcases valid with ((plain | rfl) | rfl) | rfl
  · exact Text.bounds_of_isAlphanum plain
  all_goals decide

/-- What lower case does to the characters of schemes. -/
theorem isSchemeChar_toLower {c : Char} (valid : isSchemeChar c = true) :
    isSchemeChar c.toLower = true ∧ c.toLower.isAlpha = c.isAlpha ∧ c.toLower.toLower = c.toLower := by
  have ascii := (bounds_of_isSchemeChar valid).2
  revert valid
  apply Text.forall_ascii _ ascii
  decide +kernel

theorem isSchemeChar_of_isAlpha {c : Char} (letter : c.isAlpha = true) : isSchemeChar c = true := by
  simp [isSchemeChar, Char.isAlphanum, letter]

namespace IsName

variable {name : Text} (valid : IsName name)

include valid

theorem isProper_map_toLower : IsProper (name.map Char.toLower) where
  letter := by
    obtain ⟨first, others, rfl, alpha⟩ := valid.letter
    refine ⟨first.toLower, others.map Char.toLower, rfl, ?_⟩
    rw [(isSchemeChar_toLower (valid.chars first (List.mem_cons_self ..))).2.1]
    exact alpha
  chars := by
    intro c member
    obtain ⟨upper, present, rfl⟩ := List.mem_map.mp member
    exact (isSchemeChar_toLower (valid.chars upper present)).1
  lower := by
    rw [List.map_map]
    apply List.map_congr_left
    intro c present
    exact (isSchemeChar_toLower (valid.chars c present)).2.2

theorem not_mem {mark : Char} (other : isSchemeChar mark = false) : mark ∉ name := by
  intro member
  rw [valid.chars mark member] at other
  cases other

theorem unbroken : unbroken name = name := by
  rw [Text.unbroken_eq_self_iff]
  intro c member
  exact Text.isBreak_eq_false_of_le (bounds_of_isSchemeChar (valid.chars c member)).1.le

end IsName

theorem IsProper.map_toLower_of_isPrefix {scheme front : Text} (proper : IsProper scheme) (begins : front <+: scheme) :
    front.map Char.toLower = front := by
  obtain ⟨rest, rfl⟩ := begins
  have lower := proper.lower
  rw [List.map_append] at lower
  exact (List.append_inj lower (List.length_map ..)).1

/-- A scheme is read from the name in front of the first colon. -/
theorem split?_eq_some {written scheme rest : Text} (found : split? written = some (scheme, rest)) :
    ∃ name, written = name ++ ':' :: rest ∧ ':' ∉ name ∧ IsName (Text.unbroken name) ∧
      scheme = (Text.unbroken name).map Char.toLower := by
  rw [split?.eq_def] at found
  dsimp only at found
  split at found
  · next first others tail name behind =>
    split at found
    · next valid =>
      obtain ⟨rfl, rfl⟩ := Prod.mk.inj (Option.some.inj found)
      rw [Bool.and_eq_true, List.all_eq_true] at valid
      refine ⟨written.takeWhile (· != ':'), ?_, ?_, ?_, by rw [name]⟩
      · rw [← behind, List.takeWhile_append_dropWhile]
      · intro member
        have passes := List.mem_takeWhile_imp member
        simp at passes
      · rw [name]
        refine ⟨⟨first, others, rfl, valid.1⟩, ?_⟩
        intro c member
        rcases List.mem_cons.mp member with rfl | member
        · exact isSchemeChar_of_isAlpha valid.1
        · exact valid.2 c member
    · cases found
  · cases found

/-- A name in front of a colon is read as a scheme. -/
theorem split?_of_isName {name : Text} (valid : IsName name) (rest : Text) :
    split? (name ++ ':' :: rest) = some (name.map Char.toLower, rest) := by
  have passes : ∀ c ∈ name, (c != ':') = true := by
    intro c member
    rw [bne_iff_ne]
    rintro rfl
    exact valid.not_mem rfl member
  have same : Text.unbroken name = name := valid.unbroken
  obtain ⟨first, others, rfl, alpha⟩ := valid.letter
  have checked : (first.isAlpha && others.all isSchemeChar) = true := by
    rw [Bool.and_eq_true, List.all_eq_true]
    exact ⟨alpha, fun c member => valid.chars c (List.mem_cons_of_mem _ member)⟩
  have front : (first :: others ++ ':' :: rest).takeWhile (· != ':') = first :: others := by
    rw [List.takeWhile_append_of_pos passes]
    simp
  have behind : (first :: others ++ ':' :: rest).dropWhile (· != ':') = ':' :: rest := by
    rw [List.dropWhile_append_of_pos passes]
    simp
  rw [split?.eq_def, front, behind, same]
  exact if_pos checked

end FileLocator.Url.Scheme
