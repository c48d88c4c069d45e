import FileLocator.Proofs.Url.Host
import Mathlib.Tactic.Ring

/-! # Punycode is read back

A label is read back from its ASCII form (`decode?_encode`). The distances are read as they were written. They
insert the code points in increasing order, and what stands between two insertions of a label is the
label without its larger characters. So labels have forms of their own, and a name is refused for a label
beyond ASCII only if that label is unfit (`isSound_asciiName`).
-/

namespace FileLocator.Url

namespace Punycode

/-! ## Digits -/

theorem digit?_digit {n : Nat} (small : n < 36) : digit? (digit n) = some n := by
  revert n
  decide

/-- One distance is read back, whatever follows it. -/
theorem readDistances_distance (first : Bool) (bias placed position weight value distance : Nat) (rest : Text) :
    readDistances first bias placed position weight value (Punycode.distance position bias distance ++ rest) =
      (readDistances false (adapt first (value + distance * weight) (placed + 1)) (placed + 1) 36 1 0 rest).map
        ((value + distance * weight) :: ·) := by
  fun_induction Punycode.distance position bias distance generalizing weight value with
  | case1 position distance least small =>
    have bound := threshold_le position bias
    rw [List.singleton_append, readDistances, digit?_digit (by omega)]
    simp only [Option.bind_eq_bind, Option.bind_some]
    rw [if_pos small]
    exact Option.map_eq_bind.symm
  | case2 position distance least large ih =>
    have bound := threshold_le position bias
    have base : 0 < 36 - least := by omega
    have rest' := Nat.mod_lt (distance - least) base
    rw [List.cons_append, readDistances, digit?_digit (by omega)]
    simp only [Option.bind_eq_bind, Option.bind_some]
    rw [if_neg (by omega), ih]
    have parts : least + (distance - least) % (36 - least) + (36 - least) * ((distance - least) / (36 - least)) =
        distance := by
      have division := Nat.mod_add_div (distance - least) (36 - least)
      omega
    have total : value + (least + (distance - least) % (36 - least)) * weight +
        (distance - least) / (36 - least) * (weight * (36 - least)) = value + distance * weight := by
      calc _ = value + (least + (distance - least) % (36 - least) +
            (36 - least) * ((distance - least) / (36 - least))) * weight := by ring
        _ = value + distance * weight := by rw [parts]
    rw [total]

theorem readDistances_writeDistances (first : Bool) (bias placed : Nat) (values : List Nat) :
    readDistances first bias placed 36 1 0 (writeDistances first bias placed values) = some values := by
  induction values generalizing first bias placed with
  | nil => rfl
  | cons value rest ih =>
    rw [writeDistances, readDistances_distance, Nat.zero_add, Nat.mul_one, ih]
    rfl

/-! ## Insertions -/

/-- The characters of a label below a code point. -/
def below (point : Nat) (label : Text) : Text := label.filter fun c => c.toNat < point

section Below

variable {point : Nat} {c : Char} {rest : Text}

theorem below_cons_of_lt (smaller : c.toNat < point) : below point (c :: rest) = c :: below point rest :=
  List.filter_cons_of_pos (decide_eq_true smaller)

theorem below_cons_of_le (larger : point ≤ c.toNat) : below point (c :: rest) = below point rest :=
  List.filter_cons_of_neg (by simpa using larger)

end Below

theorem insertIdx_length_append (front rest : Text) (c : Char) :
    (front ++ rest).insertIdx front.length c = front ++ c :: rest := by
  induction front with
  | nil => rfl
  | cons head front ih =>
    rw [List.cons_append, List.length_cons, List.insertIdx_succ_cons, ih]
    rfl

/-- A distance leads to a place for a character if it passes all places once for every code point in between. -/
theorem insert?_cons {label : Text} {point place distance index : Nat} {c : Char} (more : List Nat)
    (started : point ≤ c.toNat) (inside : index ≤ label.length)
    (reaches : place + distance = (c.toNat - point) * (label.length + 1) + index) :
    insert? label point place (distance :: more) = insert? (label.insertIdx index c) c.toNat (index + 1) more := by
  have quotient : (place + distance) / (label.length + 1) = c.toNat - point := by
    rw [reaches, Nat.mul_comm, Nat.mul_add_div (Nat.succ_pos _), Nat.div_eq_of_lt (Nat.lt_succ_of_le inside),
      Nat.add_zero]
  have remainder : (place + distance) % (label.length + 1) = index := by
    rw [reaches, Nat.mul_comm, Nat.mul_add_mod, Nat.mod_eq_of_lt (Nat.lt_succ_of_le inside)]
  rw [insert?, quotient, remainder, Nat.add_sub_cancel' started, Char.ofNat_toNat]
  exact if_pos c.valid

/-- Inserting the occurrences of a code point. The characters of `front` are done, and in `rest` only the smaller ones
are in place. What is waited for reaches the end of `front`, and in the end that of the label. -/
theorem insert?_occurrences {goal : Nat} (more : List Nat) (rest front : Text) {point place waiting : Nat}
    (started : point ≤ goal)
    (reaches : place + waiting = (goal - point) * ((front ++ below goal rest).length + 1) + front.length) :
    ∃ point' place', point' ≤ goal ∧
      place' + (occurrences goal waiting rest).2 =
        (goal - point') * ((front ++ below (goal + 1) rest).length + 1) + (front ++ below (goal + 1) rest).length ∧
      insert? (front ++ below goal rest) point place ((occurrences goal waiting rest).1 ++ more) =
        insert? (front ++ below (goal + 1) rest) point' place' more := by
  induction rest generalizing front point place waiting with
  | nil =>
    simp only [below, List.filter_nil, List.append_nil] at reaches ⊢
    exact ⟨point, place, started, reaches, rfl⟩
  | cons c rest ih =>
    -- A smaller character is passed, an occurrence is inserted, and a larger character is not there yet.
    obtain smaller | same | larger := Nat.lt_trichotomy c.toNat goal
    · rw [occurrences, if_pos smaller]
      rw [below_cons_of_lt smaller, List.append_cons] at reaches ⊢
      rw [below_cons_of_lt (Nat.lt_succ_of_lt smaller), List.append_cons front c]
      have longer : (front ++ [c]).length = front.length + 1 := List.length_append
      apply ih (front ++ [c]) started
      rw [← Nat.add_assoc, reaches, longer]
      rfl
    · rw [occurrences, if_neg same.not_lt, if_pos same]
      rw [below_cons_of_le same.ge] at reaches ⊢
      rw [below_cons_of_lt (same.trans_lt (Nat.lt_succ_self goal)), List.append_cons]
      have behind : front.length + 1 + 0 =
          (goal - goal) * ((front ++ [c] ++ below goal rest).length + 1) + (front ++ [c]).length := by simp
      obtain ⟨point', place', started', reaches', inserts⟩ := ih (front ++ [c]) (Nat.le_refl goal) behind
      refine ⟨point', place', started', reaches', ?_⟩
      rw [← inserts]
      subst same
      have inside : front.length ≤ (front ++ below c.toNat rest).length := by simp
      change insert? _ point place (waiting :: ((occurrences c.toNat 0 rest).1 ++ more)) = _
      rw [insert?_cons _ started inside reaches, insertIdx_length_append, ← List.append_cons]
    · rw [occurrences, if_neg larger.not_gt, if_neg larger.ne']
      rw [below_cons_of_le larger.le] at reaches ⊢
      rw [below_cons_of_le larger]
      exact ih front started reaches

/-- Inserting all code points from `least` on, which is where waiting leads to. -/
theorem insert?_distances {label : Text} {points : List Nat} {least point place waiting : Nat}
    (ascending : points.Pairwise (· < ·)) (above : ∀ goal ∈ points, least ≤ goal)
    (complete : ∀ c ∈ label, least ≤ c.toNat → c.toNat ∈ points) (started : point ≤ least)
    (reaches : place + waiting = (least - point) * ((below least label).length + 1)) :
    insert? (below least label) point place (distances label least waiting points) = some label := by
  induction points generalizing least point place waiting with
  | nil =>
    have whole : below least label = label := List.filter_eq_self.mpr fun c member =>
      decide_eq_true (Nat.lt_of_not_le fun larger => List.not_mem_nil (complete c member larger))
    rw [distances, insert?, whole]
  | cons goal points ih =>
    obtain ⟨later, ascending⟩ := List.pairwise_cons.mp ascending
    have least_le := above goal (List.mem_cons_self ..)
    -- No character of the label lies between `least` and the next code point.
    have same : below least label = below goal label := by
      apply List.filter_congr
      intro c member
      rw [decide_eq_decide]
      refine ⟨fun smaller => Nat.lt_of_lt_of_le smaller least_le, fun smaller => ?_⟩
      by_contra larger
      rcases List.mem_cons.mp (complete c member (Nat.le_of_not_lt larger)) with equal | beyond
      · exact smaller.ne equal
      · exact Nat.lt_asymm smaller (later _ beyond)
    have reaches' : place + (waiting + (goal - least) * ((below goal label).length + 1)) =
        (goal - point) * ((([] : Text) ++ below goal label).length + 1) + ([] : Text).length := by
      rw [← Nat.add_assoc, reaches, same, ← Nat.add_mul]
      congr
      omega
    obtain ⟨point', place', started', ends, inserts⟩ :=
      insert?_occurrences (distances label (goal + 1) (occurrences goal (waiting + (goal - least) *
        ((below goal label).length + 1)) label).2.succ points) label [] (Nat.le_trans started least_le) reaches'
    rw [same]
    refine Eq.trans inserts ?_
    apply ih ascending
    · exact later
    · intro c member larger
      have present := complete c member (by omega)
      rcases List.mem_cons.mp present with equal | beyond
      · omega
      · exact beyond
    · exact Nat.le_succ_of_le started'
    · rw [Nat.add_succ, ends, Nat.succ_sub started', Nat.succ_mul]
      rfl

/-! ## Labels -/

theorem pairwise_lt_eraseDups {values : List Nat} (sorted : values.Pairwise (· ≤ ·)) :
    values.eraseDups.Pairwise (· < ·) := by
  induction count : values.length using Nat.strongRecOn generalizing values with
  | ind n ih =>
    cases values with
    | nil => exact List.Pairwise.nil
    | cons value rest =>
      obtain ⟨least, sorted⟩ := List.pairwise_cons.mp sorted
      rw [List.eraseDups_cons, List.pairwise_cons]
      constructor
      · intro other member
        obtain ⟨present, differs⟩ := List.mem_filter.mp (List.mem_eraseDups.mp member)
        have above := least other present
        simp only [Bool.not_eq_true', beq_eq_false_iff_ne] at differs
        omega
      · have shorter := List.length_filter_le (fun other => !other == value) rest
        refine ih _ ?_ (sorted.filter _) rfl
        rw [← count, List.length_cons]
        omega

/-- The code points of a label beyond ASCII, in order. -/
def points (label : Text) : List Nat := ((label.map Char.toNat).filter (128 ≤ ·)).mergeSort.eraseDups

theorem mem_points_iff {label : Text} {point : Nat} :
    point ∈ points label ↔ 128 ≤ point ∧ ∃ c ∈ label, c.toNat = point := by
  rw [points, List.mem_eraseDups, List.mem_mergeSort, List.mem_filter, List.mem_map, decide_eq_true_eq, and_comm]

theorem pairwise_points (label : Text) : (points label).Pairwise (· < ·) := by
  apply pairwise_lt_eraseDups
  have sorted : (((label.map Char.toNat).filter (128 ≤ ·)).mergeSort).Pairwise
      fun first second => decide (first ≤ second) = true :=
    List.pairwise_mergeSort (by simpa using fun _ _ _ => Nat.le_trans) (by simpa using Nat.le_total) _
  exact sorted.imp of_decide_eq_true

theorem encode_eq (label : Text) :
    encode label = (if below 128 label = [] then [] else below 128 label ++ ['-']) ++
      writeDistances true 72 (below 128 label).length (distances label 128 0 (points label)) := rfl

/-- The last hyphen divides the ASCII characters from the distances, which are written without one. -/
theorem cutLast?_encode (label : Text) :
    (Text.cutLast? '-' (encode label)).getD ([], encode label) =
      (below 128 label, writeDistances true 72 (below 128 label).length (distances label 128 0 (points label))) := by
  rw [encode_eq]
  generalize distances label 128 0 (points label) = values
  have hyphenless : '-' ∉ writeDistances true 72 (below 128 label).length values := fun member =>
    forall_mem_writeDistances (P := (· ≠ '-')) (by decide) _ _ _ _ '-' member rfl
  split
  · next none =>
    rw [none] at hyphenless ⊢
    rw [List.nil_append, Text.cutLast?_eq_none_iff.mpr hyphenless]
    rfl
  · have cut := Text.cutLast?_eq_some_iff.mpr ⟨List.append_cons (below 128 label) '-' _ |>.symm, hyphenless⟩
    rw [cut]
    rfl

/-- A label is read back from its ASCII form. -/
theorem decode?_encode (label : Text) : decode? (encode label) = some label := by
  have inserted : insert? (below 128 label) 128 0 (distances label 128 0 (points label)) = some label := by
    apply insert?_distances (pairwise_points label)
    · exact fun point member => (mem_points_iff.mp member).1
    · exact fun c member wide => mem_points_iff.mpr ⟨wide, c, member, rfl⟩
    · exact Nat.le_refl 128
    · simp
  rw [decode?, cutLast?_encode]
  simp only [readDistances_writeDistances, Option.bind_eq_bind, Option.bind_some, inserted]

theorem encode_injective : Function.Injective encode := by
  intro first second same
  rw [← Option.some.injEq, ← decode?_encode first, ← decode?_encode second, same]

end Punycode

/-! ## Names -/

namespace Host

/-- A label beyond ASCII is sound if it is fit, since its form is read as the label itself. -/
theorem isSoundLabel_asciiLabel {label : Text} (wide : ¬ (label.all fun c => c.toNat < 128) = true) :
    isSoundLabel (asciiLabel label) = isFit label := by
  rw [asciiLabel, if_neg wide, isSoundLabel, Text.after?_append]
  simp [Punycode.decode?_encode]

/-- A name is sound if its labels beyond ASCII are fit and its other labels are sound. -/
theorem isSound_asciiName (name : Text) :
    isSound (asciiName name) = (Text.pieces (· == '.') (name.map Char.toLower)).all fun label =>
      if label.all fun c => c.toNat < 128 then isSoundLabel label else isFit label := by
  have dotless : ∀ part ∈ (Text.pieces (· == '.') (name.map Char.toLower)).map asciiLabel, '.' ∉ part := by
    intro part member dot
    obtain ⟨label, piece, rfl⟩ := List.mem_map.mp member
    have free : '.' ∉ label := fun present => by
      simpa using Text.not_isSeparator_of_mem_pieces piece '.' present
    have others := forall_mem_asciiLabel (P := (· ≠ '.')) (by decide) (by decide)
      fun c present _ same => free (same ▸ present)
    exact others '.' dot rfl
  have some : (Text.pieces (· == '.') (name.map Char.toLower)).map asciiLabel ≠ [] :=
    List.map_eq_nil_iff.not.mpr (Text.pieces_ne_nil _ _)
  rw [isSound, asciiName, Text.pieces_flatten_intersperse some dotless, List.all_map]
  congr
  funext label
  split
  · next ascii => simp only [Function.comp, asciiLabel, if_pos ascii]
  · next wide => exact isSoundLabel_asciiLabel wide

end Host

end FileLocator.Url
