import FileLocator.Text.Blank
import Mathlib.Data.List.DropRight

/-! # Neat text

Cleaning leaves neat text: no break inside and nothing blank at either end. Neat text is what cleaning
leaves alone, so cleaning twice is cleaning once. Searches for a mark that is no break find the same
place in written text and in its unbroken form, so the breaks may be taken out before or after a cut.
-/

namespace FileLocator.Text

/-! ## Text without breaks -/

theorem unbroken_append (before behind : Text) :
    unbroken (before ++ behind) = unbroken before ++ unbroken behind := List.filter_append ..

theorem unbroken_cons {c : Char} (stays : isBreak c = false) (behind : Text) :
    unbroken (c :: behind) = c :: unbroken behind := by
  rw [unbroken, List.filter_cons, stays]
  rfl

@[simp] theorem unbroken_unbroken (written : Text) : unbroken (unbroken written) = unbroken written := by
  rw [unbroken, unbroken, List.filter_filter]
  simp only [Bool.and_self]

theorem unbroken_eq_self_iff {text : Text} : unbroken text = text ↔ ∀ c ∈ text, isBreak c = false := by
  rw [unbroken, List.filter_eq_self]
  simp only [Bool.not_eq_true']

theorem isBreak_of_mem_unbroken {c : Char} {written : Text} (member : c ∈ unbroken written) :
    isBreak c = false := unbroken_eq_self_iff.mp (unbroken_unbroken written) c member

theorem dropWhile_isBreak_unbroken (written : Text) :
    (unbroken written).dropWhile isBreak = unbroken written := by
  cases shape : unbroken written with
  | nil => rfl
  | cons c rest =>
    have stays : isBreak c = false := isBreak_of_mem_unbroken (show c ∈ unbroken written by simp [shape])
    simp [stays]

theorem dropWhile_isBreak_of_stays {written : Text} (stays : ∀ c ∈ written, isBreak c = false) :
    written.dropWhile isBreak = written := by
  rw [← unbroken_eq_self_iff.mpr stays]
  exact dropWhile_isBreak_unbroken written

theorem isBreak_eq_false_of_dropWhile {c : Char} {written rest : Text}
    (shape : written.dropWhile isBreak = c :: rest) : isBreak c = false := by
  have stopped := List.head?_dropWhile_not isBreak written
  rwa [shape] at stopped

/-- Skipping the breaks that come first loses nothing of the unbroken text. -/
theorem unbroken_dropWhile_isBreak (written : Text) :
    unbroken (written.dropWhile isBreak) = unbroken written := by
  induction written with
  | nil => rfl
  | cons c rest ih =>
    rw [List.dropWhile_cons]
    split
    · next skipped => simpa [unbroken, skipped] using ih
    · rfl

section Search

variable {p : Char → Bool} (passes : ∀ c, isBreak c = true → p c = true)

include passes

theorem takeWhile_unbroken (written : Text) :
    (unbroken written).takeWhile p = unbroken (written.takeWhile p) := by
  have same : (fun c => !(!isBreak c) || p c) = p := by
    funext c
    cases skipped : isBreak c with
    | false => rfl
    | true => simp [passes c skipped]
  rw [unbroken, List.takeWhile_filter, same, unbroken]

theorem dropWhile_unbroken (written : Text) :
    (unbroken written).dropWhile p = unbroken (written.dropWhile p) := by
  have same : (fun c => !(!isBreak c) || p c) = p := by
    funext c
    cases skipped : isBreak c with
    | false => rfl
    | true => simp [passes c skipped]
  rw [unbroken, List.dropWhile_filter, same, unbroken]

end Search

theorem ne_of_isBreak {mark c : Char} (stays : isBreak mark = false) (skipped : isBreak c = true) :
    c ≠ mark := by
  rintro rfl
  rw [stays] at skipped
  cases skipped

theorem cut_unbroken {mark : Char} (stays : isBreak mark = false) (written : Text) :
    cut mark (unbroken written) = (unbroken (cut mark written).1, (cut mark written).2.map unbroken) := by
  have passes : ∀ c, isBreak c = true → decide (c ≠ mark) = true := fun c skipped =>
    decide_eq_true (ne_of_isBreak stays skipped)
  rw [cut, takeWhile_unbroken passes, dropWhile_unbroken passes, cut]
  refine Prod.ext rfl ?_
  cases shape : written.dropWhile fun c => decide (c ≠ mark) with
  | nil => rfl
  | cons c rest =>
    have same : c = mark := by
      have stopped := List.head?_dropWhile_not (fun c => decide (c ≠ mark)) written
      rw [shape] at stopped
      simpa using stopped
    rw [same, unbroken_cons stays]
    rfl

theorem takeWhile_append_of_not_mem {mark : Char} {front : Text} (absent : mark ∉ front) (rest : Text) :
    (front ++ rest).takeWhile (· != mark) = front ++ rest.takeWhile (· != mark) := by
  apply List.takeWhile_append_of_pos
  intro c member
  rw [bne_iff_ne]
  rintro rfl
  exact absent member

/-- Where nothing was cut off, the first part is the whole. -/
theorem cut_fst_of_snd_eq_none {mark : Char} {source : Text} (whole : (cut mark source).2 = none) :
    (cut mark source).1 = source := by
  have nothing : source.dropWhile (fun c => decide (c ≠ mark)) = [] := by
    cases shape : source.dropWhile (fun c => decide (c ≠ mark)) with
    | nil => rfl
    | cons c rest =>
      rw [cut, shape] at whole
      cases whole
  have parts := List.takeWhile_append_dropWhile (p := fun c => decide (c ≠ mark)) (l := source)
  rwa [nothing, List.append_nil] at parts

theorem pieces_unbroken {isSeparator : Char → Bool}
    (stays : ∀ c, isSeparator c = true → isBreak c = false) (written : Text) :
    pieces isSeparator (unbroken written) = (pieces isSeparator written).map unbroken := by
  induction written with
  | nil => rfl
  | cons c rest ih =>
    by_cases separates : isSeparator c = true
    · rw [unbroken_cons (stays c separates), pieces, pieces, if_pos separates, if_pos separates, ih]
      rfl
    · rw [pieces, if_neg separates]
      obtain ⟨piece, others, parts⟩ := List.exists_cons_of_ne_nil (pieces_ne_nil isSeparator rest)
      rw [parts] at ih ⊢
      cases skipped : isBreak c with
      | true => simpa [unbroken, skipped, attach] using ih
      | false =>
        rw [unbroken_cons skipped, pieces, if_neg separates, ih, attach, List.map_cons, List.map_cons,
          unbroken_cons skipped]
        rfl

theorem not_isSeparator_of_mem_pieces {α : Type} {isSeparator : α → Bool} {source piece : List α}
    (member : piece ∈ pieces isSeparator source) : ∀ c ∈ piece, isSeparator c = false := by
  induction source generalizing piece with
  | nil =>
    rw [pieces, List.mem_singleton] at member
    simp [member]
  | cons head rest ih =>
    rw [pieces] at member
    split at member
    · rcases List.mem_cons.mp member with rfl | behind
      · simp
      · exact ih behind
    · next inside =>
      obtain ⟨first, others, parts⟩ := List.exists_cons_of_ne_nil (pieces_ne_nil isSeparator rest)
      rw [parts] at ih member
      rcases List.mem_cons.mp member with rfl | behind
      · intro c present
        rcases List.mem_cons.mp present with rfl | present
        · exact Bool.eq_false_iff.mpr inside
        · exact ih (List.mem_cons_self ..) c present
      · exact ih (List.mem_cons_of_mem _ behind)

theorem mem_of_mem_pieces {α : Type} {isSeparator : α → Bool} {source piece : List α}
    (member : piece ∈ pieces isSeparator source) : ∀ c ∈ piece, c ∈ source := by
  induction source generalizing piece with
  | nil =>
    rw [pieces, List.mem_singleton] at member
    simp [member]
  | cons head rest ih =>
    intro c present
    rw [pieces] at member
    split at member
    · rcases List.mem_cons.mp member with rfl | behind
      · exact absurd present List.not_mem_nil
      · exact List.mem_cons_of_mem _ (ih behind c present)
    · obtain ⟨first, others, parts⟩ := List.exists_cons_of_ne_nil (pieces_ne_nil isSeparator rest)
      rw [parts] at ih member
      rcases List.mem_cons.mp member with rfl | behind
      · rcases List.mem_cons.mp present with rfl | present
        · exact List.mem_cons_self ..
        · exact List.mem_cons_of_mem _ (ih (List.mem_cons_self ..) c present)
      · exact List.mem_cons_of_mem _ (ih (List.mem_cons_of_mem _ behind) c present)

/-- Parts without separators, a separator in front of each, are the pieces behind an empty one. -/
theorem pieces_flatMap_cons {α : Type} {isSeparator : α → Bool} {mark : α} (separates : isSeparator mark = true)
    {parts : List (List α)} (free : ∀ part ∈ parts, ∀ item ∈ part, isSeparator item = false) :
    pieces isSeparator (parts.flatMap (mark :: ·)) = [] :: parts := by
  -- The last part is behind the last separator.
  induction parts using List.reverseRecOn with
  | nil => rfl
  | append_singleton parts last ih =>
    obtain ⟨before, behind⟩ := List.forall_mem_append.mp free
    have tail : [last].flatMap (mark :: ·) = mark :: last := List.append_nil _
    rw [List.flatMap_append, tail, pieces_append_cons _ _ _ _ separates, ih before,
      pieces_eq_singleton _ last (behind last (List.mem_cons_self ..)), List.cons_append]

/-- Only what a separator is among the elements matters. -/
theorem pieces_congr {α : Type} {isSeparator isSeparator' : α → Bool} {source : List α}
    (same : ∀ c ∈ source, isSeparator c = isSeparator' c) :
    pieces isSeparator source = pieces isSeparator' source := by
  induction source with
  | nil => rfl
  | cons head rest ih =>
    rw [List.forall_mem_cons] at same
    rw [pieces, pieces, same.1, ih same.2]

/-! ## Letters and digits -/

/-- What the ASCII characters satisfy one by one. -/
theorem forall_ascii {P : Char → Prop} (each : ∀ n < 0x80, P (.ofNat n)) {c : Char} (ascii : c.toNat < 0x80) :
    P c := by
  have known := each c.toNat ascii
  rwa [Char.ofNat_toNat] at known

/-- Letters and digits are ASCII and not blank. -/
theorem bounds_of_isAlphanum {c : Char} (plain : c.isAlphanum = true) : 0x20 < c.toNat ∧ c.toNat < 0x80 := by
  change (decide ('A'.val ≤ c.val ∧ c.val ≤ 'Z'.val) ||
    (decide ('a'.val ≤ c.val) && decide (c.val ≤ 'z'.val)) ||
    (decide ('0'.val ≤ c.val) && decide (c.val ≤ '9'.val))) = true at plain
  simp only [Bool.or_eq_true, Bool.and_eq_true, decide_eq_true_eq, UInt32.le_iff_toNat_le] at plain
  change ((65 ≤ c.toNat ∧ c.toNat ≤ 90) ∨ (97 ≤ c.toNat ∧ c.toNat ≤ 122)) ∨
    (48 ≤ c.toNat ∧ c.toNat ≤ 57) at plain
  omega

theorem bounds_of_isAlpha {c : Char} (letter : c.isAlpha = true) : 0x20 < c.toNat ∧ c.toNat < 0x80 :=
  bounds_of_isAlphanum (by rw [Char.isAlphanum, letter, Bool.true_or])

theorem isEdgeBlank_eq_false_iff {c : Char} : isEdgeBlank c = false ↔ 0x20 < c.toNat := by
  rw [isEdgeBlank, decide_eq_false_iff_not, Char.not_le, Char.lt_def, UInt32.lt_iff_toNat_lt]
  rfl

/-- A break is no character from the space on. -/
theorem isBreak_eq_false_of_le {c : Char} (printable : 0x20 ≤ c.toNat) : isBreak c = false := by
  by_contra skipped
  simp only [isBreak, Bool.not_eq_false, Bool.or_eq_true, beq_iff_eq] at skipped
  rcases skipped with (rfl | rfl) | rfl <;> exact absurd printable (by decide)

/-! ## The ends of text -/

/-- Text that cleaning has nothing to do for. -/
structure Neat (text : Text) : Prop where
  stays : ∀ c ∈ text, isBreak c = false
  head : ∀ c ∈ text.head?, isEdgeBlank c = false
  last : ∀ c ∈ text.getLast?, isEdgeBlank c = false

theorem trimEnd_eq_rdropWhile (blank : Char → Bool) (source : Text) :
    trimEnd blank source = source.rdropWhile blank := by
  induction source using List.reverseRecOn with
  | nil => rfl
  | append_singleton source last ih =>
    rw [List.rdropWhile_concat]
    split
    · next loose =>
      rw [← ih]
      clear ih
      induction source with
      | nil => simp [trimEnd, loose]
      | cons head rest ih => simp only [List.cons_append, trimEnd, ih]
    · next solid => exact trimEnd_append blank source last [] (by simpa using solid) (by simp)

theorem trim_eq_self {text : Text} (head : ∀ c ∈ text.head?, isEdgeBlank c = false)
    (last : ∀ c ∈ text.getLast?, isEdgeBlank c = false) : trim isEdgeBlank text = text := by
  have front : text.dropWhile isEdgeBlank = text := by
    cases text with
    | nil => rfl
    | cons c rest => rw [List.dropWhile_cons_of_neg (by simp [head c rfl])]
  rw [trim, front, trimEnd_eq_rdropWhile, List.rdropWhile_eq_self_iff]
  intro nonempty
  rw [last _ (List.getLast?_eq_some_getLast nonempty)]
  exact Bool.false_ne_true

theorem solid_of_head?_trim {written : Text} {c : Char} (first : (trim isEdgeBlank written).head? = some c) :
    isEdgeBlank c = false := by
  rw [trim, trimEnd_eq_rdropWhile] at first
  obtain ⟨tail, whole⟩ := List.rdropWhile_prefix isEdgeBlank (written.dropWhile isEdgeBlank)
  have stopped := List.head?_dropWhile_not isEdgeBlank written
  rw [← whole, List.head?_append, first] at stopped
  exact stopped

theorem solid_of_getLast?_trimEnd {written : Text} {c : Char}
    (final : (trimEnd isEdgeBlank written).getLast? = some c) : isEdgeBlank c = false := by
  rw [trimEnd_eq_rdropWhile] at final
  have nonempty : written.rdropWhile isEdgeBlank ≠ [] := by
    intro none
    rw [none] at final
    cases final
  have solid := List.rdropWhile_last_not isEdgeBlank _ nonempty
  rw [List.getLast?_eq_some_getLast nonempty] at final
  rw [Option.some.inj final] at solid
  exact Bool.eq_false_iff.mpr solid

theorem solid_of_getLast?_trim {written : Text} {c : Char}
    (final : (trim isEdgeBlank written).getLast? = some c) : isEdgeBlank c = false :=
  solid_of_getLast?_trimEnd final

theorem isBreak_eq_false_of_solid {c : Char} (solid : isEdgeBlank c = false) : isBreak c = false := by
  by_contra skipped
  rw [isEdgeBlank_of_isBreak (Bool.of_not_eq_false skipped)] at solid
  cases solid

theorem solid_of_head?_unbroken {text : Text} (solid : ∀ c ∈ text.head?, isEdgeBlank c = false) :
    ∀ c ∈ (unbroken text).head?, isEdgeBlank c = false := by
  cases text with
  | nil => simp [unbroken]
  | cons first rest =>
    have stays : isBreak first = false := isBreak_eq_false_of_solid (solid first rfl)
    rw [unbroken_cons stays]
    exact solid

theorem solid_of_getLast?_unbroken {text : Text} (solid : ∀ c ∈ text.getLast?, isEdgeBlank c = false) :
    ∀ c ∈ (unbroken text).getLast?, isEdgeBlank c = false := by
  obtain rfl | ⟨init, last, rfl⟩ := List.eq_nil_or_concat text
  · simp [unbroken]
  · rw [List.concat_eq_append, List.getLast?_concat] at solid
    have stays : isBreak last = false := isBreak_eq_false_of_solid (solid last rfl)
    rw [List.concat_eq_append, unbroken_append, unbroken_cons stays, show unbroken [] = [] from rfl,
      List.getLast?_concat]
    exact solid

theorem neat_clean (written : Text) : Neat (clean written) where
  stays _ := isBreak_of_mem_unbroken
  head := solid_of_head?_unbroken fun _ => solid_of_head?_trim
  last := solid_of_getLast?_unbroken fun _ => solid_of_getLast?_trim

/-- Neat text is what cleaning leaves alone. -/
theorem clean_eq_self {text : Text} (neat : Neat text) : clean text = text := by
  rw [clean, trim_eq_self neat.head neat.last]
  exact unbroken_eq_self_iff.mpr neat.stays

theorem clean_eq_self_iff {text : Text} : clean text = text ↔ Neat text := by
  constructor
  · intro same
    rw [← same]
    exact neat_clean text
  · exact clean_eq_self

/-! ## Text behind neat text -/

/-- Text ends in nothing blank if its last part does not, or if that part is empty and the rest does not. -/
theorem solid_of_getLast?_append {front back : Text} (solid : ∀ c ∈ back.getLast?, isEdgeBlank c = false)
    (edge : back = [] → ∀ c ∈ front.getLast?, isEdgeBlank c = false) :
    ∀ c ∈ (front ++ back).getLast?, isEdgeBlank c = false := by
  intro c final
  obtain rfl | ⟨init, last, rfl⟩ := List.eq_nil_or_concat back
  · rw [List.append_nil] at final
    exact edge rfl c final
  · rw [List.getLast?_append, List.concat_eq_append, List.getLast?_concat, Option.some_or] at final
    apply solid
    rw [List.concat_eq_append, List.getLast?_concat]
    exact final

theorem solid_of_getLast?_right (front : Text) {back : Text}
    (solid : ∀ c ∈ (front ++ back).getLast?, isEdgeBlank c = false) : ∀ c ∈ back.getLast?, isEdgeBlank c = false := by
  intro c final
  apply solid
  rw [List.getLast?_append, Option.mem_def.mp final]
  rfl

/-- Text that may be written behind neat text: it holds no break and does not end in a blank. -/
structure NeatBehind (text : Text) : Prop where
  stays : ∀ c ∈ text, isBreak c = false
  last : ∀ c ∈ text.getLast?, isEdgeBlank c = false

theorem neatBehind_iff {text : Text} :
    NeatBehind text ↔ (text.all (!isBreak ·) && text.getLast?.all (!isEdgeBlank ·)) = true := by
  rw [Bool.and_eq_true, List.all_eq_true, Option.all_eq_true]
  simp only [Bool.not_eq_true']
  exact ⟨fun neat => ⟨neat.stays, neat.last⟩, fun both => ⟨both.1, both.2⟩⟩

instance (text : Text) : Decidable (NeatBehind text) := decidable_of_iff _ neatBehind_iff.symm

theorem Neat.neatBehind {text : Text} (neat : Neat text) : NeatBehind text := ⟨neat.stays, neat.last⟩

theorem NeatBehind.of_cons {c : Char} {rest : Text} (neat : NeatBehind (c :: rest)) : NeatBehind rest where
  stays other member := neat.stays other (List.mem_cons_of_mem _ member)
  last := solid_of_getLast?_right [c] neat.last

theorem NeatBehind.of_append {front back : Text} (neat : NeatBehind (front ++ back)) : NeatBehind back where
  stays c member := neat.stays c (List.mem_append_right _ member)
  last := solid_of_getLast?_right front neat.last

theorem NeatBehind.append {front back : Text} (first : NeatBehind front) (second : NeatBehind back) :
    NeatBehind (front ++ back) where
  stays := List.forall_mem_append.mpr ⟨first.stays, second.stays⟩
  last := solid_of_getLast?_append second.last fun _ => first.last

/-- A character that is not blank ends neatly whatever stands in front of it. -/
theorem neatBehind_concat {text : Text} {final : Char} (stays : ∀ c ∈ text, isBreak c = false)
    (solid : isEdgeBlank final = false) : NeatBehind (text ++ [final]) where
  stays := List.forall_mem_append.mpr ⟨stays, List.forall_mem_singleton.mpr (isBreak_eq_false_of_solid solid)⟩
  last := by
    intro c same
    rw [List.getLast?_concat] at same
    exact Option.some.inj same ▸ solid

theorem neatBehind_append_slash {text : Text} (stays : ∀ c ∈ text, isBreak c = false) :
    NeatBehind (text ++ ['/']) := neatBehind_concat stays rfl

theorem Neat.append {front back : Text} (neat : Neat front) (nonempty : front ≠ []) (behind : NeatBehind back) :
    Neat (front ++ back) where
  stays := (neat.neatBehind.append behind).stays
  head := by
    obtain ⟨first, others, rfl⟩ := List.exists_cons_of_ne_nil nonempty
    exact neat.head
  last := (neat.neatBehind.append behind).last

/-- What cleaning leaves of text that is written behind neat text. -/
def cleanBehind (written : Text) : Text := unbroken (trimEnd isEdgeBlank written)

theorem neatBehind_cleanBehind (written : Text) : NeatBehind (cleanBehind written) where
  stays _ := isBreak_of_mem_unbroken
  last := solid_of_getLast?_unbroken fun _ => solid_of_getLast?_trimEnd

theorem trimEnd_append_of_solid {front : Text} (solid : ∀ c ∈ front.getLast?, isEdgeBlank c = false)
    (behind : Text) : trimEnd isEdgeBlank (front ++ behind) = front ++ trimEnd isEdgeBlank behind := by
  rw [trimEnd_eq_rdropWhile, trimEnd_eq_rdropWhile]
  induction behind using List.reverseRecOn with
  | nil =>
    rw [List.append_nil, List.rdropWhile_nil, List.append_nil, List.rdropWhile_eq_self_iff]
    intro nonempty
    rw [solid _ (List.getLast?_eq_some_getLast nonempty)]
    exact Bool.false_ne_true
  | append_singleton behind last ih =>
    rw [← List.append_assoc, List.rdropWhile_concat, List.rdropWhile_concat, ih]
    split
    · rfl
    · exact List.append_assoc ..

theorem trimEnd_eq_self {text : Text} (solid : ∀ c ∈ text.getLast?, isEdgeBlank c = false) :
    trimEnd isEdgeBlank text = text := by
  have kept := trimEnd_append_of_solid solid []
  rwa [List.append_nil, show trimEnd isEdgeBlank [] = [] from rfl, List.append_nil] at kept

theorem cleanBehind_append {front : Text} (neat : NeatBehind front) (behind : Text) :
    cleanBehind (front ++ behind) = front ++ cleanBehind behind := by
  rw [cleanBehind, trimEnd_append_of_solid neat.last, unbroken_append, unbroken_eq_self_iff.mpr neat.stays,
    cleanBehind]

theorem cleanBehind_eq_self {text : Text} (neat : NeatBehind text) : cleanBehind text = text := by
  rw [cleanBehind, trimEnd_eq_self neat.last]
  exact unbroken_eq_self_iff.mpr neat.stays

/-- Cleaning loses nothing but blanks. -/
theorem mem_cleanBehind_iff {c : Char} (solid : isEdgeBlank c = false) {written : Text} :
    c ∈ cleanBehind written ↔ c ∈ written := by
  constructor
  · intro member
    obtain ⟨tail, whole⟩ := List.rdropWhile_prefix isEdgeBlank written
    rw [← whole, ← trimEnd_eq_rdropWhile]
    exact List.mem_append_left tail (List.mem_of_mem_filter member)
  · intro member
    obtain ⟨front, behind, rfl⟩ := List.append_of_mem member
    have last : ∀ d ∈ (front ++ [c]).getLast?, isEdgeBlank d = false := by simpa using solid
    have kept : trimEnd isEdgeBlank (front ++ c :: behind) = front ++ [c] ++ trimEnd isEdgeBlank behind := by
      simpa using trimEnd_append_of_solid last behind
    simp [cleanBehind, kept, unbroken, isBreak_eq_false_of_solid solid]

/-- Cleaning does not reach into neat text that something is written behind. -/
theorem clean_append {front : Text} (neat : Neat front) (nonempty : front ≠ []) (behind : Text) :
    clean (front ++ behind) = front ++ cleanBehind behind := by
  have kept : (front ++ behind).dropWhile isEdgeBlank = front ++ behind := by
    obtain ⟨first, others, rfl⟩ := List.exists_cons_of_ne_nil nonempty
    rw [List.cons_append, List.dropWhile_cons_of_neg (by simp [neat.head first rfl])]
  rw [clean, trim, kept]
  exact cleanBehind_append neat.neatBehind behind

end FileLocator.Text
