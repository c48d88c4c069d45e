import FileLocator.Proofs.Locator.Decoding

/-! # Why a locator can not be decoded

A conversion of a `file` locator fails for two reasons only: a `%` that no two digits follow, and bytes that are no
text. The first such `%` is reported by its place in the text with the plus signs escaped, which is two bytes further
for every plus sign in front of it (`malformedAt?_escapePlus_eq_some_iff`). Escaping the plus signs makes no other
difference, since no escape begins or ends at one. Whatever the reason, nothing is asked and nothing is reported
(`toPath_faults`).
-/

namespace FileLocator.Percent

/-! ## The first sign that starts no escape -/

/-- The text divides at its first `%` that starts no escape. -/
structure FirstLone (text before behind : Text) : Prop where
  split : text = before ++ '%' :: behind
  lone : Lone behind
  first : ∀ front rest, before = front ++ '%' :: rest → ¬ Lone (rest ++ '%' :: behind)

theorem not_lone {high low : Char} {b : UInt8} (digits : escaped? high low = some b) (rest : Text) :
    ¬ Lone (high :: low :: rest) := by
  intro lone
  rw [lone high low rest rfl] at digits
  cases digits

/-- A sign is no digit, so what stands behind one does not complete an escape in front of it. -/
theorem lone_append_sign_iff {rest behind : Text} : Lone (rest ++ '%' :: behind) ↔ Lone rest := by
  constructor
  · rintro lone high low more rfl
    exact lone high low (more ++ '%' :: behind) rfl
  · intro lone high low more shape
    rcases rest with _ | ⟨first, _ | ⟨second, rest⟩⟩
    · rw [← (List.cons.inj shape).1]
      exact escaped?_eq_none_of_high rfl low
    · rw [← (List.cons.inj (List.cons.inj shape).2).1]
      exact escaped?_eq_none_of_low rfl high
    · rw [← (List.cons.inj shape).1, ← (List.cons.inj (List.cons.inj shape).2).1]
      exact lone first second rest rfl

/-- Some `%` in the text starts no escape. -/
def HasLone (text : Text) : Prop := ∃ before behind, text = before ++ '%' :: behind ∧ Lone behind

/-- The search comes to nothing exactly when every sign starts an escape. -/
theorem malformedAt?_eq_none_iff {text : Text} : malformedAt? text = none ↔ ¬ HasLone text := by
  induction text using escape_induction with
  | nil =>
    refine iff_of_true rfl ?_
    rintro ⟨before, behind, shape, -⟩
    simp at shape
  | escape high low b rest digits ih =>
    obtain ⟨⟨_, top⟩, ⟨_, bottom⟩⟩ := exists_digit?_of_escaped? digits
    rw [malformedAt?, malformedFrom?_escape digits, malformedFrom?_eq_none_iff, ih, not_iff_not]
    constructor
    · rintro ⟨before, behind, rfl, lone⟩
      exact ⟨'%' :: high :: low :: before, behind, rfl, lone⟩
    · rintro ⟨before, behind, shape, lone⟩
      -- The sign is the one of the escape, or it stands behind the two digits, which are none.
      rcases before with _ | ⟨_, _ | ⟨_, _ | ⟨_, before⟩⟩⟩
      · rw [← (List.cons.inj shape).2] at lone
        exact absurd lone (not_lone digits rest)
      · rw [(List.cons.inj (List.cons.inj shape).2).1] at top
        cases top
      · rw [(List.cons.inj (List.cons.inj (List.cons.inj shape).2).2).1] at bottom
        cases bottom
      · exact ⟨before, behind, (List.cons.inj (List.cons.inj (List.cons.inj shape).2).2).2, lone⟩
  | sign rest lone ih =>
    rw [malformedAt?, malformedFrom?_sign lone]
    exact iff_of_false (Option.some_ne_none _) fun none => none ⟨[], rest, rfl, lone⟩
  | plain c rest other ih =>
    rw [malformedAt?, malformedFrom?_cons_of_ne other, malformedFrom?_eq_none_iff, ih, not_iff_not]
    constructor
    · rintro ⟨before, behind, rfl, lone⟩
      exact ⟨c :: before, behind, rfl, lone⟩
    · rintro ⟨before, behind, shape, lone⟩
      cases before with
      | nil => exact absurd (List.cons.inj shape).1 other
      | cons _ before => exact ⟨before, behind, (List.cons.inj shape).2, lone⟩

/-- A sign is the first that starts no escape when there is none in front of it. -/
theorem firstLone_iff {text before behind : Text} :
    FirstLone text before behind ↔
      text = before ++ '%' :: behind ∧ Lone behind ∧ malformedAt? before = none := by
  constructor
  · rintro ⟨split, lone, first⟩
    refine ⟨split, lone, malformedAt?_eq_none_iff.mpr ?_⟩
    rintro ⟨front, rest, shape, alone⟩
    exact first front rest shape (lone_append_sign_iff.mpr alone)
  · rintro ⟨split, lone, formed⟩
    refine ⟨split, lone, ?_⟩
    intro front rest shape alone
    exact malformedAt?_eq_none_iff.mp formed ⟨front, rest, shape, lone_append_sign_iff.mp alone⟩

/-- The search stops at the first sign that starts no escape. -/
theorem malformedFrom?_append_sign {before behind : Text} (formed : malformedAt? before = none) (lone : Lone behind)
    (index : Nat) :
    malformedFrom? index (before ++ '%' :: behind) = some (index + (Utf8.encode before).length) := by
  rw [malformedAt?] at formed
  induction before using escape_induction generalizing index with
  | nil => exact malformedFrom?_sign lone index
  | escape high low b rest digits ih =>
    obtain ⟨⟨_, top⟩, ⟨_, bottom⟩⟩ := exists_digit?_of_escaped? digits
    have width : ∀ {c n}, digit? c = some n → (Utf8.encodeChar c).length = 1 := fun value => by
      rw [Utf8.encodeChar_ascii (bounds_of_digit? value).1, List.length_singleton]
    rw [malformedFrom?_escape digits, malformedFrom?_eq_none_iff] at formed
    rw [List.cons_append, List.cons_append, List.cons_append, malformedFrom?_escape digits, ih formed]
    simp only [Utf8.encode_cons, List.length_append, width top, width bottom]
    rw [Utf8.encodeChar_ascii (by decide), List.length_singleton]
    congr 1
    omega
  | sign rest alone ih =>
    rw [malformedFrom?_sign alone] at formed
    cases formed
  | plain c rest other ih =>
    rw [malformedFrom?_cons_of_ne other, malformedFrom?_eq_none_iff] at formed
    rw [List.cons_append, malformedFrom?_cons_of_ne other, ih formed, Utf8.encode_cons, List.length_append,
      Nat.add_assoc]

theorem FirstLone.malformedAt?_eq {text before behind : Text} (found : FirstLone text before behind) :
    malformedAt? text = some (Utf8.encode before).length := by
  obtain ⟨rfl, lone, formed⟩ := firstLone_iff.mp found
  rw [malformedAt?, malformedFrom?_append_sign formed lone, Nat.zero_add]

/-- Where some sign starts no escape, there is a first one. -/
theorem exists_firstLone {text : Text} (broken : malformedAt? text ≠ none) :
    ∃ before behind, FirstLone text before behind := by
  simp only [firstLone_iff]
  rw [malformedAt?] at broken
  induction text using escape_induction with
  | nil => exact absurd rfl broken
  | escape high low b rest digits ih =>
    rw [malformedFrom?_escape digits, Ne, malformedFrom?_eq_none_iff] at broken
    obtain ⟨before, behind, rfl, lone, formed⟩ := ih broken
    refine ⟨'%' :: high :: low :: before, behind, rfl, lone, ?_⟩
    rwa [malformedAt?, malformedFrom?_escape digits, malformedFrom?_eq_none_iff]
  | sign rest lone ih => exact ⟨[], rest, rfl, lone, rfl⟩
  | plain c rest other ih =>
    rw [malformedFrom?_cons_of_ne other, Ne, malformedFrom?_eq_none_iff] at broken
    obtain ⟨before, behind, rfl, lone, formed⟩ := ih broken
    refine ⟨c :: before, behind, rfl, lone, ?_⟩
    rwa [malformedAt?, malformedFrom?_cons_of_ne other, malformedFrom?_eq_none_iff]

/-! ## Messages -/

theorem message_malformed (index : Nat) :
    (Fault.malformed index).message = "malformed escape sequence at byte ".toList ++ Nat.toDigits 10 index := rfl

theorem message_notText (cause : Utf8.Fault) :
    (Fault.notText cause).message = "decoded bytes are not UTF-8: ".toList ++ cause.message := rfl

theorem message_eq_malformed_iff {fault : Fault} {index : Nat} :
    fault.message = "malformed escape sequence at byte ".toList ++ Nat.toDigits 10 index ↔
      fault = .malformed index := by
  cases fault with
  | malformed found =>
    rw [message_malformed, List.append_cancel_left_eq, Fault.malformed.injEq]
    constructor
    · intro same
      have value := congrArg (Nat.ofDigitChars 10 · 0) same
      simpa using value
    · exact congrArg _
  | notText cause =>
    rw [message_notText]
    simp

theorem isPrefix_message_iff {fault : Fault} :
    "decoded bytes are not UTF-8: ".toList <+: fault.message ↔ ∃ cause, fault = .notText cause := by
  cases fault with
  | malformed index =>
    rw [message_malformed]
    simp
  | notText cause => exact iff_of_true (List.prefix_append ..) ⟨cause, rfl⟩

end FileLocator.Percent

namespace FileLocator.Locator

open Percent (FirstLone HasLone unescape)
open Utf8 (IsText)

/-! ## Plus signs in front of the sign -/

theorem length_encode_escapePlus (text : Text) :
    (Utf8.encode (escapePlus text)).length = (Utf8.encode text).length + 2 * text.count '+' := by
  induction text with
  | nil => rfl
  | cons c rest ih =>
    by_cases plus : c = '+'
    · subst plus
      change (Utf8.encode ("%2B".toList ++ escapePlus rest)).length = _
      rw [Utf8.encode_append, List.length_append, ih, Utf8.encode_cons, List.length_append, List.count_cons_self]
      change 3 + _ = 1 + _ + _
      omega
    · rw [escapePlus_cons_of_ne plus, Utf8.encode_cons, Utf8.encode_cons, List.length_append, List.length_append, ih,
        List.count_cons_of_ne plus]
      omega

/-- The first sign that starts no escape stays the first one when the plus signs are escaped. -/
theorem firstLone_escapePlus {text before behind : Text} (found : FirstLone text before behind) :
    FirstLone (escapePlus text) (escapePlus before) (escapePlus behind) := by
  rw [Percent.firstLone_iff] at found ⊢
  obtain ⟨rfl, lone, formed⟩ := found
  refine ⟨?_, (respells_escapePlus behind).lone lone, ?_⟩
  · rw [← escapePlus_cons_of_ne (by decide)]
    exact List.flatMap_append
  · exact (respells_escapePlus before).malformedAt?_eq_none_iff.mpr formed

theorem malformedAt?_escapePlus_eq_some_iff {text : Text} {index : Nat} :
    Percent.malformedAt? (escapePlus text) = some index ↔
      ∃ before behind, FirstLone text before behind ∧
        index = (Utf8.encode before).length + 2 * before.count '+' := by
  have place : ∀ {before behind}, FirstLone text before behind →
      Percent.malformedAt? (escapePlus text) = some ((Utf8.encode before).length + 2 * before.count '+') :=
    fun found => by rw [(firstLone_escapePlus found).malformedAt?_eq, length_encode_escapePlus]
  constructor
  · intro found
    have broken : Percent.malformedAt? text ≠ none := by
      rw [Ne, ← (respells_escapePlus text).malformedAt?_eq_none_iff, found]
      exact Option.some_ne_none index
    obtain ⟨before, behind, first⟩ := Percent.exists_firstLone broken
    rw [place first] at found
    exact ⟨before, behind, first, (Option.some.inj found).symm⟩
  · rintro ⟨before, behind, first, rfl⟩
    exact place first

/-! ## The outcomes of decoding -/

section Decoded

variable {locator : Locator}

theorem decoded_eq_malformed_iff {index : Nat} :
    locator.decoded = .error (.malformed index) ↔
      ∃ before behind, FirstLone locator.beforeQuery before behind ∧
        index = (Utf8.encode before).length + 2 * before.count '+' := by
  rw [← malformedAt?_escapePlus_eq_some_iff, decoded, Percent.decode]
  cases Percent.malformedAt? (escapePlus locator.beforeQuery) with
  | some found => simp
  | none => cases Utf8.decode (unescape (escapePlus locator.beforeQuery)) <;> simp [Except.mapError]

theorem exists_decoded_iff :
    (∃ text, locator.decoded = .ok text) ↔
      ¬ HasLone locator.beforeQuery ∧ IsText (unescape locator.beforeQuery) := by
  simp only [decoded_eq_ok_iff, Percent.decode_eq_ok_iff, exists_and_left, ← Percent.malformedAt?_eq_none_iff]
  rfl

theorem exists_decoded_eq_malformed_iff :
    (∃ index, locator.decoded = .error (.malformed index)) ↔ HasLone locator.beforeQuery := by
  simp only [decoded_eq_malformed_iff]
  constructor
  · rintro ⟨-, before, behind, first, -⟩
    exact ⟨before, behind, first.split, first.lone⟩
  · intro broken
    have some : Percent.malformedAt? locator.beforeQuery ≠ none := fun none =>
      Percent.malformedAt?_eq_none_iff.mp none broken
    obtain ⟨before, behind, first⟩ := Percent.exists_firstLone some
    exact ⟨_, before, behind, first, rfl⟩

/-- What is left is decided by the bytes. -/
theorem exists_decoded_eq_notText_iff :
    (∃ cause, locator.decoded = .error (.notText cause)) ↔
      ¬ HasLone locator.beforeQuery ∧ ¬ IsText (unescape locator.beforeQuery) := by
  constructor
  · rintro ⟨cause, failed⟩
    have formed : ¬ HasLone locator.beforeQuery := by
      rw [← exists_decoded_eq_malformed_iff]
      rintro ⟨index, other⟩
      rw [failed] at other
      cases other
    refine ⟨formed, fun shown => ?_⟩
    obtain ⟨text, read⟩ := exists_decoded_iff.mpr ⟨formed, shown⟩
    rw [failed] at read
    cases read
  · rintro ⟨formed, broken⟩
    cases read : locator.decoded with
    | ok text => exact absurd (exists_decoded_iff.mp ⟨text, read⟩).2 broken
    | error fault =>
      cases fault with
      | malformed index => exact absurd (exists_decoded_eq_malformed_iff.mp ⟨index, read⟩) formed
      | notText cause => exact ⟨cause, rfl⟩

end Decoded

/-! ## Failing conversions -/

/-- A conversion that fails with this fault of the whole text, without having asked or reported anything. -/
structure FailsFor (locator : Locator) (run : Traced (Except LocatorError PathOutcome)) (fault : Percent.Fault) :
    Prop where
  value : run.value = .error (.undecodable locator.text fault)
  questions : run.questions = []
  records : run.records = []

/-- When a conversion of a `file` locator fails, and how. -/
structure Fails (locator : Locator) (run : Traced (Except LocatorError PathOutcome)) : Prop where
  /-- The byte reported is that of the first sign that starts no escape, two further for each plus sign before. -/
  place : ∀ index,
    (∃ fault, locator.FailsFor run fault ∧
      fault.message = "malformed escape sequence at byte ".toList ++ Nat.toDigits 10 index) ↔
    ∃ before behind, FirstLone locator.beforeQuery before behind ∧
      index = (Utf8.encode before).length + 2 * before.count '+'
  malformed :
    (∃ index fault, locator.FailsFor run fault ∧
      fault.message = "malformed escape sequence at byte ".toList ++ Nat.toDigits 10 index) ↔
    HasLone locator.beforeQuery
  notText :
    (∃ fault, locator.FailsFor run fault ∧ "decoded bytes are not UTF-8: ".toList <+: fault.message) ↔
    ¬ HasLone locator.beforeQuery ∧ ¬ IsText (unescape locator.beforeQuery)
  converted :
    (∃ path, run.value = .ok (.converted path)) ↔
    ¬ HasLone locator.beforeQuery ∧ IsText (unescape locator.beforeQuery)
  /-- There is no other way to fail. -/
  failed : ∀ error, run.value = .error error → ∃ fault, locator.FailsFor run fault

theorem failsFor_iff {locator : Locator} (file : locator.isFile = true) {platform : Platform} {probe : Probe}
    {fault : Percent.Fault} :
    locator.FailsFor (locator.toPath platform probe) fault ↔ locator.decoded = .error fault := by
  constructor
  · rintro ⟨value, -, -⟩
    cases read : locator.decoded with
    | error found =>
      rw [toPath, if_pos file, read] at value
      cases value
      rfl
    | ok text =>
      rw [toPath, if_pos file, read] at value
      cases value
  · intro broken
    rw [toPath, if_pos file, broken]
    exact ⟨rfl, rfl, rfl⟩

/-- A conversion fails exactly for a sign that starts no escape or for bytes that are no text, on every platform and
whatever the probe says. -/
theorem toPath_faults {locator : Locator} (file : locator.isFile = true) (platform : Platform) (probe : Probe) :
    locator.Fails (locator.toPath platform probe) where
  place index := by
    simp only [failsFor_iff file, Percent.message_eq_malformed_iff, exists_eq_right]
    exact decoded_eq_malformed_iff
  malformed := by
    simp only [failsFor_iff file, Percent.message_eq_malformed_iff, exists_eq_right]
    exact exists_decoded_eq_malformed_iff
  notText := by
    rw [← exists_decoded_eq_notText_iff]
    simp only [failsFor_iff file, Percent.isPrefix_message_iff]
    constructor
    · rintro ⟨_, failed, cause, rfl⟩
      exact ⟨cause, failed⟩
    · rintro ⟨cause, failed⟩
      exact ⟨_, failed, cause, rfl⟩
  converted := by
    rw [← exists_decoded_iff, toPath, if_pos file]
    cases locator.decoded with
    | error fault => simp
    | ok text => exact iff_of_true ⟨_, rfl⟩ ⟨text, rfl⟩
  failed error failed := by
    cases read : locator.decoded with
    | error fault => exact ⟨fault, (failsFor_iff file).mpr read⟩
    | ok text =>
      rw [toPath, if_pos file, read] at failed
      cases failed

/-- The plus sign and the wide letter in front of the first broken escape are counted with the bytes they are written
as, the escape in front of it is not taken for one, and a broken escape in the query is no fault. -/
theorem toPath_faults_place :
    (∃ locator, parse "file:/%41é+b%zz%?%41%c".toList = .ok locator ∧ locator.isFile = true ∧
      locator.beforeQuery = "file:/%41é+b%zz%".toList ∧
      ∀ platform probe, ∃ fault, locator.FailsFor (locator.toPath platform probe) fault ∧
        fault.message = "malformed escape sequence at byte ".toList ++ Nat.toDigits 10 15) ∧
    ∃ locator, parse "file:/a%20b?%zz%".toList = .ok locator ∧ locator.isFile = true ∧
      ∀ platform probe, ∃ path, (locator.toPath platform probe).value = .ok (.converted path) := by
  constructor
  · have runs : ∃ locator, parse "file:/%41é+b%zz%?%41%c".toList = .ok locator ∧ locator.isFile = true ∧
        locator.beforeQuery = "file:/%41é+b%zz%".toList := ⟨_, rfl, rfl, rfl⟩
    obtain ⟨locator, read, file, before⟩ := runs
    refine ⟨locator, read, file, before, fun platform probe => ?_⟩
    have first : FirstLone "file:/%41é+b%zz%".toList "file:/%41é+b".toList "zz%".toList := by
      refine Percent.firstLone_iff.mpr ⟨rfl, ?_, by decide⟩
      rintro high low more shape
      cases shape
      rfl
    rw [← before] at first
    exact ((toPath_faults file platform probe).place 15).mpr ⟨_, _, first, by decide⟩
  · have runs : ∃ locator, parse "file:/a%20b?%zz%".toList = .ok locator ∧ locator.isFile = true ∧
        locator.decoded = .ok "file:/a b".toList := ⟨_, rfl, rfl, rfl⟩
    obtain ⟨locator, read, file, decoded⟩ := runs
    refine ⟨locator, read, file, fun platform probe => (toPath_faults file platform probe).converted.mpr ?_⟩
    exact exists_decoded_iff.mp ⟨_, decoded⟩

end FileLocator.Locator
