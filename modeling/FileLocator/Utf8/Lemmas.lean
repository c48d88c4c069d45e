import FileLocator.Utf8

/-! # UTF-8 is read as it is written

Two laws hold scanning to writing: scanning what was written finds the characters again, whatever
follows them, and what scanning finds spells the bytes it was given. Hence bytes can be read as a text
exactly when they are what that text is written as.
-/

namespace FileLocator.Utf8

/-! ## Bytes as numbers -/

theorem toNat_ofNat_of_lt {n : Nat} (small : n < 256) : (UInt8.ofNat n).toNat = n := by
  rw [UInt8.toNat_ofNat']
  omega

theorem ofNat_eq_of_toNat {n : Nat} {b : UInt8} (same : b.toNat = n) : UInt8.ofNat n = b := by
  rw [← same, UInt8.ofNat_toNat]

theorem toNat_char_ofNat {n : Nat} (valid : n < 0xD800 ∨ 0xDFFF < n ∧ n < 0x110000) :
    (Char.ofNat n).toNat = n := by
  rw [Char.ofNat, dif_pos (show n.isValidChar from valid)]
  rfl

theorem isTail_iff {b : UInt8} : isTail b = true ↔ 0x80 ≤ b.toNat ∧ b.toNat < 0xC0 := by
  rw [isTail, decide_eq_true_iff]

theorem isTail_ofNat {n : Nat} (small : n < 64) : isTail (.ofNat (0x80 + n)) = true := by
  rw [isTail_iff, toNat_ofNat_of_lt (by omega)]
  exact ⟨by omega, by omega⟩

theorem bits_ofNat {n : Nat} (small : n < 64) : bits (.ofNat (0x80 + n)) = n := by
  have value := toNat_ofNat_of_lt (n := 0x80 + n) (by omega)
  unfold bits
  rw [value, Nat.add_sub_cancel_left]

theorem admitsSecond_iff {lead second : UInt8} :
    admitsSecond lead second = true ↔
      isTail second = true ∧ (lead.toNat = 0xE0 → 0xA0 ≤ second.toNat) ∧
        (lead.toNat = 0xED → second.toNat < 0xA0) ∧ (lead.toNat = 0xF0 → 0x90 ≤ second.toNat) ∧
        (lead.toNat = 0xF4 → second.toNat < 0x90) := by
  simp only [admitsSecond, isTail, decide_eq_true_iff]
  repeat' split
  all_goals omega

/-! ## What was written is found again -/

private theorem first_one {n : Nat} {c : Char} (back : Char.ofNat n = c) (range : n < 0x80) (behind : Bytes) :
    first (.ofNat n) behind = .char c := by
  have lead : (UInt8.ofNat n).toNat = n := toNat_ofNat_of_lt (by omega)
  simp only [first.eq_def, lead, range, if_true, back]

private theorem first_two {n : Nat} {c : Char} (back : Char.ofNat n = c) (low : 0x80 ≤ n) (high : n < 0x800)
    (behind : Bytes) : first (.ofNat (0xC0 + n / 64)) (.ofNat (0x80 + n % 64) :: behind) = .char c := by
  have lead : (UInt8.ofNat (0xC0 + n / 64)).toNat = 0xC0 + n / 64 := toNat_ofNat_of_lt (by omega)
  have tail := isTail_ofNat (n := n % 64) (by omega)
  have value := bits_ofNat (n := n % 64) (by omega)
  have whole : (0xC0 + n / 64 - 0xC0) * 64 + n % 64 = n := by omega
  simp only [first.eq_def, lead, tail, value, whole, back]
  rw [if_neg (by omega), if_neg (by omega), if_pos (by omega), if_pos trivial]

private theorem first_three {n : Nat} {c : Char} (back : Char.ofNat n = c) (low : 0x800 ≤ n)
    (high : n < 0x10000) (valid : n < 0xD800 ∨ 0xDFFF < n) (behind : Bytes) :
    first (.ofNat (0xE0 + n / 4096)) (.ofNat (0x80 + n / 64 % 64) :: .ofNat (0x80 + n % 64) :: behind) =
      .char c := by
  have lead : (UInt8.ofNat (0xE0 + n / 4096)).toNat = 0xE0 + n / 4096 := toNat_ofNat_of_lt (by omega)
  have tail := isTail_ofNat (n := n % 64) (by omega)
  have value := bits_ofNat (n := n % 64) (by omega)
  have second := bits_ofNat (n := n / 64 % 64) (by omega)
  have admitted : admitsSecond (.ofNat (0xE0 + n / 4096)) (.ofNat (0x80 + n / 64 % 64)) = true := by
    rw [admitsSecond_iff, lead, toNat_ofNat_of_lt (by omega)]
    exact ⟨isTail_ofNat (by omega), by omega, by omega, by omega, by omega⟩
  have whole : (0xE0 + n / 4096 - 0xE0) * 4096 + n / 64 % 64 * 64 + n % 64 = n := by omega
  simp only [first.eq_def, lead, tail, value, second, admitted, whole, back]
  rw [if_neg (by omega), if_neg (by omega), if_neg (by omega), if_pos trivial, if_pos trivial,
    if_pos (by omega)]

private theorem first_four {n : Nat} {c : Char} (back : Char.ofNat n = c) (low : 0x10000 ≤ n)
    (high : n < 0x110000) (behind : Bytes) :
    first (.ofNat (0xF0 + n / 262144))
      (.ofNat (0x80 + n / 4096 % 64) :: .ofNat (0x80 + n / 64 % 64) :: .ofNat (0x80 + n % 64) :: behind) =
      .char c := by
  have lead : (UInt8.ofNat (0xF0 + n / 262144)).toNat = 0xF0 + n / 262144 := toNat_ofNat_of_lt (by omega)
  have tail := isTail_ofNat (n := n / 64 % 64) (by omega)
  have last := isTail_ofNat (n := n % 64) (by omega)
  have value := bits_ofNat (n := n % 64) (by omega)
  have third := bits_ofNat (n := n / 64 % 64) (by omega)
  have second := bits_ofNat (n := n / 4096 % 64) (by omega)
  have admitted : admitsSecond (.ofNat (0xF0 + n / 262144)) (.ofNat (0x80 + n / 4096 % 64)) = true := by
    rw [admitsSecond_iff, lead, toNat_ofNat_of_lt (by omega)]
    exact ⟨isTail_ofNat (by omega), by omega, by omega, by omega, by omega⟩
  have whole :
      (0xF0 + n / 262144 - 0xF0) * 262144 + n / 4096 % 64 * 4096 + n / 64 % 64 * 64 + n % 64 = n := by
    omega
  simp only [first.eq_def, lead, tail, last, value, second, third, admitted, whole, back]
  rw [if_neg (by omega), if_neg (by omega), if_neg (by omega), if_pos trivial, if_pos trivial,
    if_neg (by omega), if_pos trivial]

/-- The first byte of a character, with the others behind it, is read as that character. -/
theorem first_encodeChar (c : Char) (rest : Bytes) :
    ∃ lead tail, encodeChar c = lead :: tail ∧ first lead (tail ++ rest) = .char c := by
  have valid : c.toNat < 0xD800 ∨ 0xDFFF < c.toNat ∧ c.toNat < 0x110000 := c.valid
  have back : Char.ofNat c.toNat = c := Char.ofNat_toNat c
  rw [encodeChar]
  generalize c.toNat = n at valid back
  by_cases one : n < 0x80
  · exact ⟨_, _, if_pos one, first_one back one _⟩
  by_cases two : n < 0x800
  · exact ⟨_, _, by simp only [one, two, if_true, if_false]; rfl, first_two back (by omega) two _⟩
  by_cases three : n < 0x10000
  · exact ⟨_, _, by simp only [one, two, three, if_true, if_false]; rfl,
      first_three back (by omega) three (by omega) _⟩
  · exact ⟨_, _, by simp only [one, two, three, if_false]; rfl,
      first_four back (by omega) (by omega) _⟩

theorem scanBehind_eq_scan_drop (skipped : Nat) (bytes : Bytes) :
    scanBehind skipped bytes = scan (bytes.drop skipped) := by
  induction bytes generalizing skipped with
  | nil => cases skipped <;> rfl
  | cons lead rest ih =>
    cases skipped with
    | zero => rfl
    | succ skipped => exact ih skipped

theorem scan_cons (lead : UInt8) (rest : Bytes) :
    scan (lead :: rest) = first lead rest :: scan (rest.drop ((first lead rest).bytes.length - 1)) := by
  rw [scan, scanBehind, scanBehind_eq_scan_drop]

theorem scan_encodeChar_append (c : Char) (rest : Bytes) :
    scan (encodeChar c ++ rest) = .char c :: scan rest := by
  obtain ⟨lead, tail, bytes, piece⟩ := first_encodeChar c rest
  rw [bytes, List.cons_append, scan_cons, piece, Piece.bytes_char, bytes]
  simp

/-- Text is found again in its bytes, whatever follows them. -/
theorem scan_encode_append (text : Text) (rest : Bytes) :
    scan (encode text ++ rest) = text.map .char ++ scan rest := by
  induction text with
  | nil => rfl
  | cons c text ih => rw [encode_cons, List.append_assoc, scan_encodeChar_append, ih]; rfl

/-! ## Nothing is lost -/

private theorem encodeChar_two {a b : UInt8} (low : 0xC2 ≤ a.toNat) (high : a.toNat < 0xE0)
    (tail : isTail b = true) : encodeChar (Char.ofNat ((a.toNat - 0xC0) * 64 + bits b)) = [a, b] := by
  rw [isTail_iff] at tail
  have second : bits b = b.toNat - 0x80 := rfl
  simp only [encodeChar]
  rw [toNat_char_ofNat (by omega), if_neg (by omega), if_pos (by omega),
    ofNat_eq_of_toNat (b := a) (by omega), ofNat_eq_of_toNat (b := b) (by omega)]

private theorem encodeChar_three {a b c : UInt8} (low : 0xE0 ≤ a.toNat) (high : a.toNat < 0xF0)
    (admitted : admitsSecond a b = true) (tail : isTail c = true) :
    encodeChar (Char.ofNat ((a.toNat - 0xE0) * 4096 + bits b * 64 + bits c)) = [a, b, c] := by
  rw [admitsSecond_iff, isTail_iff] at admitted
  rw [isTail_iff] at tail
  have second : bits b = b.toNat - 0x80 := rfl
  have third : bits c = c.toNat - 0x80 := rfl
  simp only [encodeChar]
  rw [toNat_char_ofNat (by omega), if_neg (by omega), if_neg (by omega), if_pos (by omega),
    ofNat_eq_of_toNat (b := a) (by omega), ofNat_eq_of_toNat (b := b) (by omega),
    ofNat_eq_of_toNat (b := c) (by omega)]

private theorem encodeChar_four {a b c d : UInt8} (low : 0xF0 ≤ a.toNat) (high : a.toNat ≤ 0xF4)
    (admitted : admitsSecond a b = true) (tail : isTail c = true) (last : isTail d = true) :
    encodeChar (Char.ofNat ((a.toNat - 0xF0) * 262144 + bits b * 4096 + bits c * 64 + bits d)) =
      [a, b, c, d] := by
  rw [admitsSecond_iff, isTail_iff] at admitted
  rw [isTail_iff] at tail last
  have second : bits b = b.toNat - 0x80 := rfl
  have third : bits c = c.toNat - 0x80 := rfl
  have fourth : bits d = d.toNat - 0x80 := rfl
  simp only [encodeChar]
  rw [toNat_char_ofNat (by omega), if_neg (by omega), if_neg (by omega), if_neg (by omega),
    ofNat_eq_of_toNat (b := a) (by omega), ofNat_eq_of_toNat (b := b) (by omega),
    ofNat_eq_of_toNat (b := c) (by omega), ofNat_eq_of_toNat (b := d) (by omega)]

/-- The piece that a byte begins is made of that byte and the ones right behind it. -/
theorem bytes_first (lead : UInt8) (behind : Bytes) :
    ∃ tail rest, (first lead behind).bytes = lead :: tail ∧ behind = tail ++ rest := by
  rw [first.eq_def]
  dsimp only
  split
  · next ascii =>
    refine ⟨[], behind, ?_, rfl⟩
    rw [Piece.bytes_char, encodeChar, toNat_char_ofNat (by omega), if_pos ascii, UInt8.ofNat_toNat]
  split
  · exact ⟨[], behind, rfl, rfl⟩
  cases behind with
  | nil => exact ⟨[], [], rfl, rfl⟩
  | cons second behind =>
    dsimp only
    split
    · split
      · next tail =>
        exact ⟨[second], behind,
          (Piece.bytes_char _).trans (encodeChar_two (by omega) (by omega) tail), rfl⟩
      · exact ⟨[], second :: behind, rfl, rfl⟩
    split
    · next admitted =>
      cases behind with
      | nil => exact ⟨[second], [], rfl, rfl⟩
      | cons third behind =>
        dsimp only
        split
        · next tail =>
          split
          · exact ⟨[second, third], behind,
              (Piece.bytes_char _).trans (encodeChar_three (by omega) (by omega) admitted tail), rfl⟩
          · cases behind with
            | nil => exact ⟨[second, third], [], rfl, rfl⟩
            | cons fourth behind =>
              dsimp only
              split
              · next last =>
                exact ⟨[second, third, fourth], behind,
                  (Piece.bytes_char _).trans (encodeChar_four (by omega) (by omega) admitted tail last),
                  rfl⟩
              · exact ⟨[second, third], fourth :: behind, rfl, rfl⟩
        · exact ⟨[second], third :: behind, rfl, rfl⟩
    · exact ⟨[], second :: behind, rfl, rfl⟩

/-- The pieces spell the bytes that were scanned. -/
theorem flatMap_bytes_scan (bytes : Bytes) : (scan bytes).flatMap Piece.bytes = bytes := by
  match bytes with
  | [] => rfl
  | lead :: behind =>
    obtain ⟨tail, rest, made, parts⟩ := bytes_first lead behind
    have shorter : rest.length ≤ behind.length := by rw [parts, List.length_append]; omega
    have others := flatMap_bytes_scan rest
    rw [scan_cons, List.flatMap_cons, made, parts, List.length_cons, Nat.add_sub_cancel,
      List.drop_left, others, List.cons_append]
termination_by bytes.length

/-! ## Reading -/

theorem collect_eq_ok_iff {index : Nat} {pieces : List Piece} {text : Text} :
    collect index pieces = .ok text ↔ pieces = text.map .char := by
  induction pieces generalizing index text with
  | nil => cases text <;> simp [collect]
  | cons piece rest ih =>
    cases piece with
    | char c =>
      cases others : collect (index + (encodeChar c).length) rest with
      | error fault =>
        have none : ∀ found, rest ≠ List.map Piece.char found := fun found same => by
          rw [ih.mpr same] at others
          simp at others
        cases text <;> simp [collect, others, Except.map]
        exact fun _ => none _
      | ok found =>
        have same := ih.mp others
        cases text with
        | nil => simp [collect, others, Except.map]
        | cons head text =>
          have injective : rest = List.map Piece.char text ↔ found = text := by
            rw [same, List.map_inj_right fun _ _ => Piece.char.inj]
          simp [collect, others, Except.map, injective]
    | broken bytes => cases text <;> simp [collect]
    | unfinished bytes => cases text <;> simp [collect]

/-- Bytes can be read as a text exactly when that text is written as those bytes. -/
theorem decode_eq_ok_iff {bytes : Bytes} {text : Text} : decode bytes = .ok text ↔ bytes = encode text := by
  rw [decode, collect_eq_ok_iff]
  constructor
  · intro pieces
    rw [← flatMap_bytes_scan bytes, pieces, encode, List.flatMap_map]
    rfl
  · rintro rfl
    have scanned := scan_encode_append text []
    rwa [List.append_nil, show scan [] = [] from rfl, List.append_nil] at scanned

@[simp] theorem decode_encode (text : Text) : decode (encode text) = .ok text := decode_eq_ok_iff.mpr rfl

theorem encode_inj {first second : Text} : encode first = encode second ↔ first = second := by
  constructor
  · intro same
    have read := decode_encode first
    rw [same, decode_encode] at read
    exact (Except.ok.inj read).symm
  · exact congrArg encode

end FileLocator.Utf8
