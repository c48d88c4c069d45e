import FileLocator.Proofs.Respelling
import FileLocator.Proofs.Url.Announced

/-! # Blanks at the end of the text of a file

A blank stands for itself where escapes are read, and no name holds one, so the host of a `file` URL does not end in
a blank (`Host.solid_of_getLast?_of_parseFile`). Whatever else blanks at the end of its text belong to, the text can
be read without them (`Readable.trimEnd`).
-/

namespace FileLocator

open Text (isBreak isEdgeBlank)

/-- A character that is no part of an escape is kept. -/
theorem Percent.mem_unescape {c : Char} (ascii : c.toNat < 0x80) (plain : c ≠ '%') (digitless : digit? c = none)
    {text : Text} (member : c ∈ text) : UInt8.ofNat c.toNat ∈ unescape text := by
  induction text using escape_induction with
  | nil => cases member
  | escape high low b rest digits ih =>
    obtain ⟨⟨top, first⟩, ⟨bottom, second⟩⟩ := exists_digit?_of_escaped? digits
    have other : ∀ {mark n}, digit? mark = some n → c ≠ mark := by
      rintro mark n value rfl
      rw [digitless] at value
      cases value
    rw [unescape_escape digits]
    simp only [List.mem_cons, plain, other first, other second, false_or] at member
    exact List.mem_cons_of_mem _ (ih member)
  | sign rest lone ih =>
    rw [unescape_sign lone]
    simp only [List.mem_cons, plain, false_or] at member
    exact List.mem_append_right _ (ih member)
  | plain first rest other ih =>
    rw [unescape_cons_of_ne other, List.mem_append]
    rcases List.mem_cons.mp member with rfl | inner
    · rw [Utf8.encodeChar_ascii ascii]
      exact .inl (List.mem_singleton.mpr rfl)
    · exact .inr (ih inner)

namespace Url

/-- What a blank is not, and what no name may hold. -/
theorem Host.isDenied_of_isEdgeBlank {c : Char} (blank : isEdgeBlank c = true) :
    c.toNat < 0x80 ∧ c ≠ '%' ∧ Percent.digit? c = none ∧ isDenied c = true := by
  have low : c.toNat ≤ 0x20 := by
    by_contra high
    rw [Text.isEdgeBlank_eq_false_iff.mpr (Nat.not_le.mp high)] at blank
    cases blank
  have ascii : c.toNat < 0x80 := by omega
  refine ⟨ascii, ?_⟩
  revert blank
  apply Text.forall_ascii (P := fun c => isEdgeBlank c = true → c ≠ '%' ∧ Percent.digit? c = none ∧ isDenied c = true)
    _ ascii
  decide +kernel

theorem Host.solid_of_getLast?_of_parseName {written : Text} {host : Host} (read : parseName written = .ok host) :
    ∀ c ∈ written.getLast?, isEdgeBlank c = false := by
  intro c final
  have member := List.mem_of_getLast? final
  rw [parseName.eq_def] at read
  split at read
  · cases read
  · next rest =>
    rw [bracketed] at read
    split at read
    · next last =>
      rw [← List.singleton_append, List.getLast?_append, last] at final
      rw [← Option.some.inj final]
      decide
    · cases read
  · by_contra blank
    obtain ⟨ascii, plain, digitless, denied⟩ := isDenied_of_isEdgeBlank (Bool.of_not_eq_false blank)
    split at read
    · cases read
    next name named =>
    have byte := Percent.mem_unescape ascii plain digitless member
    rw [Utf8.decode_eq_ok_iff.mp named] at byte
    have value : (UInt8.ofNat c.toNat).toNat = c.toNat := Utf8.toNat_ofNat_of_lt (by omega)
    have present := Utf8.mem_of_mem_encode byte (by omega)
    rw [value, Char.ofNat_toNat] at present
    have allowed := List.any_eq_false.mp (isDenied_of_ofMapped read) c (mem_mapped ascii present)
    exact allowed denied

theorem Host.solid_of_getLast?_of_parseFile {written : Text} {host : Host} (read : parseFile written = .ok host) :
    ∀ c ∈ written.getLast?, isEdgeBlank c = false := by
  rw [parseFile] at read
  split at read
  · next empty =>
    rw [empty]
    intro c final
    cases final
  · split at read
    · next named =>
      exact solid_of_getLast?_of_parseName named
    · cases read

theorem Route.solid_of_getLast?_of_isDrive {name : Text} (drive : isDrive name = true) :
    ∀ c ∈ name.getLast?, isEdgeBlank c = false := by
  simp only [isDrive, Bool.and_eq_true, beq_iff_eq] at drive
  obtain ⟨letter, mark, rfl⟩ := List.length_eq_two.mp drive.2
  simp only [startsWithDrive, Bool.and_eq_true, Bool.or_eq_true, beq_iff_eq] at drive
  intro c final
  have same : mark = c := Option.some.inj final
  rw [← same]
  rcases drive.1.2 with rfl | rfl <;> decide

/-- No authority of a `file` body ends in a blank. -/
theorem Accepts.trim {more : Bool} {front blanks : Text} (blank : ∀ c ∈ blanks, isEdgeBlank c = true)
    (accepts : Accepts .file more (front ++ blanks)) (more' : Bool) : Accepts .file more' front := by
  simp only [Accepts] at accepts ⊢
  have passes : ∀ c ∈ blanks, (!Kind.file.isSlash c) = true := by
    intro c member
    have loose := blank c member
    rw [Bool.not_eq_true']
    apply Kind.isSlash_eq_false
    · rintro rfl
      exact absurd loose (by decide)
    · rintro rfl
      exact absurd loose (by decide)
  rw [List.takeWhile_append, List.takeWhile_eq_self_iff.mpr passes] at accepts
  split at accepts
  · next size =>
    have whole : front.takeWhile (!Kind.file.isSlash ·) = front :=
      (List.takeWhile_prefix _).eq_of_length size
    have solid : ∀ c ∈ (front ++ blanks).getLast?, isEdgeBlank c = false := by
      rcases accepts with drive | ⟨host, named⟩
      · exact Route.solid_of_getLast?_of_isDrive drive
      · exact Host.solid_of_getLast?_of_parseFile named
    have none : blanks = [] := by
      obtain rfl | ⟨init, last, rfl⟩ := List.eq_nil_or_concat blanks
      · rfl
      · have loose := blank last (by simp)
        rw [solid last (by simp)] at loose
        cases loose
    rw [none, List.append_nil] at accepts
    rw [whole]
    exact accepts
  · exact accepts

/-- Blanks at the end of the text of a file may be cut off. -/
theorem Readable.trimEnd {scheme front : Text} (file : Kind.ofScheme scheme = .file)
    (stays : ∀ c ∈ front, isBreak c = false) (readable : Readable scheme front) :
    Readable scheme (Text.trimEnd isEdgeBlank front) := by
  have parts : front.rdropWhile isEdgeBlank ++ front.rtakeWhile isEdgeBlank = front :=
    List.rdropWhile_append_rtakeWhile
  have blank : ∀ c ∈ front.rtakeWhile isEdgeBlank, isEdgeBlank c = true := fun c => List.mem_rtakeWhile_imp
  rw [Text.trimEnd_eq_rdropWhile]
  generalize front.rdropWhile isEdgeBlank = kept at *
  generalize front.rtakeWhile isEdgeBlank = blanks at *
  subst parts
  have kept' : ∀ c ∈ kept, isBreak c = false := fun c member => stays c (List.mem_append_left _ member)
  rw [readable_iff stays, file] at readable
  rw [readable_iff kept', file]
  by_cases marked : '?' ∈ kept ∨ '#' ∈ kept
  · have more : hasMore (kept ++ blanks) = hasMore kept := by
      rw [hasMore_iff.mpr marked, hasMore_iff]
      exact marked.imp (List.mem_append_left _) (List.mem_append_left _)
    rw [bodyText_append_of_mem marked, more] at readable
    exact readable
  · rw [not_or] at marked
    have absent : ∀ mark, isEdgeBlank mark = false → mark ∉ blanks := by
      intro mark solid member
      rw [blank mark member] at solid
      cases solid
    rw [bodyText_append_of_not_mem marked.1 marked.2,
      bodyText_of_not_mem (absent '?' (by decide)) (absent '#' (by decide))] at readable
    rw [bodyText_of_not_mem marked.1 marked.2]
    intro behind lead
    exact (readable _ (announced?_append lead (fun network => by cases network) blanks)).trim blank _

end Url

end FileLocator
