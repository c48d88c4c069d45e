import FileLocator.Proofs.Locator.Root
import FileLocator.Proofs.Path

/-! # The text that a path is encoded to

The two rounds of escaping come to one: each name is escaped with the plus sign in the set
(`escapeLeftovers_urlText`). The text holds nothing but escapes and printable ASCII without a meaning of its own
(`IsEncoded`), and it begins with `file:///`, so it is always read. It spells the bytes of the path from the root
through the same names.
-/

namespace FileLocator

namespace Path

open Percent (EscapeSet Spells escapeBytes)
open Utf8 (Bytes)

/-- What the text of a locator does not hold raw inside a name. -/
def encoded : EscapeSet := escaped.including "+"

theorem isWide_escaped : escaped.IsWide := EscapeSet.isWide_controls.including _

theorem isWide_encoded : encoded.IsWide := isWide_escaped.including _

/-! ## One round of escaping -/

theorem escapeLeftovers_append (first second : Text) :
    escapeLeftovers (first ++ second) = escapeLeftovers first ++ escapeLeftovers second := List.flatMap_append

theorem escapeLeftovers_eq_self {text : Text} (plain : ∀ c ∈ text, c ≠ '+' ∧ c ≠ ' ') :
    escapeLeftovers text = text := by
  induction text with
  | nil => rfl
  | cons c text ih =>
    have others := ih fun other member => plain other (List.mem_cons_of_mem _ member)
    obtain ⟨plus, space⟩ := plain c (List.mem_cons_self ..)
    rw [escapeLeftovers, List.flatMap_cons, if_neg plus, if_neg space]
    exact congrArg (c :: ·) others

theorem escapeLeftovers_escapeByte (b : UInt8) :
    escapeLeftovers (Percent.escapeByte b) = Percent.escapeByte b := by
  apply escapeLeftovers_eq_self
  apply Percent.forall_mem_escapeByte
  · decide
  · decide

/-- A plus sign that the first round leaves is escaped by the second; a space is not left. -/
theorem escapeLeftovers_escapeBytes (name : Utf8.Bytes) :
    escapeLeftovers (Percent.escapeBytes escaped name) = Percent.escapeBytes encoded name := by
  induction name with
  | nil => rfl
  | cons b name ih =>
    rw [Percent.escapeBytes_cons, Percent.escapeBytes_cons, escapeLeftovers_append, ih]
    congr 1
    cases member : escaped b with
    | true =>
      have both : encoded b = true := by simp [encoded, EscapeSet.including, member]
      rw [both]
      exact escapeLeftovers_escapeByte b
    | false =>
      have ascii : b.toNat < 0x80 := Nat.lt_succ_of_lt (isWide_escaped b member).2
      have space : Char.ofNat b.toNat ≠ ' ' := by
        intro same
        have raw := (EscapeSet.including_eq_false_iff.mp member).2
        rw [same] at raw
        exact raw (by decide)
      by_cases plus : Char.ofNat b.toNat = '+'
      · have value : b = 0x2B := by
          have bytes := Utf8.encodeChar_ofNat ascii
          rw [plus] at bytes
          exact (List.cons.inj bytes).1.symm
        rw [value]
        decide
      · have raw : encoded b = false := EscapeSet.including_eq_false_iff.mpr ⟨member, by simpa using plus⟩
        rw [raw]
        exact escapeLeftovers_eq_self (by simp [plus, space])

/-! ## The whole text -/

/-- The slash behind the names, if there is one. -/
def closing (path : Path) (closed : Bool) : Text := if closed = true ∨ path.components = [] then ['/'] else []

/-- The text of the locator of an absolute path, of a directory if it is `closed`. -/
def locatorText (path : Path) (closed : Bool) : Text :=
  "file://".toList ++
    ((path.components.flatMap fun name => '/' :: Percent.escapeBytes encoded name) ++ path.closing closed)

/-- The names as the text of a locator holds them. -/
def escapedNames (names : List Bytes) : Text := names.flatMap fun name => '/' :: escapeBytes encoded name

theorem escapedNames_cons (name : Bytes) (names : List Bytes) :
    escapedNames (name :: names) = '/' :: (escapeBytes encoded name ++ escapedNames names) := List.flatMap_cons

theorem escapedNames_append (front back : List Bytes) :
    escapedNames (front ++ back) = escapedNames front ++ escapedNames back := List.flatMap_append

theorem escapedNames_singleton (name : Bytes) : escapedNames [name] = '/' :: escapeBytes encoded name :=
  List.flatMap_singleton ..

theorem slash_not_mem_escapeBytes (name : Bytes) : '/' ∉ escapeBytes encoded name := by
  apply Percent.not_mem_escapeBytes isWide_encoded (by decide) (by decide)
  rintro b - raw rfl
  exact absurd raw (by decide)

theorem escapeBytes_ne_nil {name : Bytes} (nonempty : name ≠ []) : escapeBytes encoded name ≠ [] := by
  obtain ⟨b, rest, rfl⟩ := List.exists_cons_of_ne_nil nonempty
  rw [Percent.escapeBytes_cons]
  cases encoded b <;> simp [Percent.escapeByte]

theorem closing_cases (path : Path) (closed : Bool) :
    path.closing closed = [] ∨ path.closing closed = ['/'] := by
  rw [closing]
  split
  · exact .inr rfl
  · exact .inl rfl

theorem locatorText_open {path : Path} (below : path.components ≠ []) :
    path.locatorText false = "file://".toList ++ escapedNames path.components := by
  have none : path.closing false = [] := if_neg (by simp [below])
  unfold locatorText escapedNames
  rw [none, List.append_nil]

theorem locatorText_closed (path : Path) :
    path.locatorText true = "file://".toList ++ (escapedNames path.components ++ ['/']) := by
  have slash : path.closing true = ['/'] := if_pos (.inl rfl)
  unfold locatorText escapedNames
  rw [slash]

theorem escapeLeftovers_names (names : List Utf8.Bytes) :
    escapeLeftovers (names.flatMap fun name => '/' :: Percent.escapeBytes escaped name) =
      names.flatMap fun name => '/' :: Percent.escapeBytes encoded name := by
  induction names with
  | nil => rfl
  | cons name names ih =>
    rw [List.flatMap_cons, List.flatMap_cons, escapeLeftovers_append, ih, ← escapeLeftovers_escapeBytes]
    rfl

theorem escapeLeftovers_urlText (path : Path) (closed : Bool) :
    escapeLeftovers (path.urlText closed) = path.locatorText closed := by
  have lead : escapeLeftovers "file://".toList = "file://".toList := by decide
  have last : escapeLeftovers (path.closing closed) = path.closing closed := by
    rcases path.closing_cases closed with none | slash
    · rw [none]
      rfl
    · rw [slash]
      rfl
  have nameless : (path.components.flatMap fun name => '/' :: Percent.escapeBytes escaped name) = [] ↔
      path.components = [] := by
    cases path.components <;> simp
  unfold urlText
  simp only [nameless]
  change escapeLeftovers ("file://".toList ++ _ ++ path.closing closed) = _
  rw [escapeLeftovers_append, escapeLeftovers_append, escapeLeftovers_names, lead, last, List.append_assoc]
  rfl

/-! ## What the text is made of -/

/-- The printable ASCII characters that stand for themselves behind `file://`. -/
def isLiteral (c : Char) : Bool :=
  decide (0x20 < c.toNat ∧ c.toNat < 0x7F) && !"%+?#\\\"<>`\x7b\x7d".toList.contains c

/-- The digits of escapes. -/
def isCapitalDigit (c : Char) : Bool := c.isDigit || ('A' ≤ c && c ≤ 'F')

/-- Text of literal characters and of escapes in capitals. -/
inductive IsEncoded : Text → Prop
  | nil : IsEncoded []
  | literal {c : Char} {rest : Text} (plain : isLiteral c = true) (behind : IsEncoded rest) : IsEncoded (c :: rest)
  | escape {high low : Char} {rest : Text} (first : isCapitalDigit high = true)
      (second : isCapitalDigit low = true) (behind : IsEncoded rest) : IsEncoded ('%' :: high :: low :: rest)

theorem isLiteral_of_isCapitalDigit {c : Char} (digit : isCapitalDigit c = true) : isLiteral c = true := by
  have ascii : c.toNat < 0x80 := by
    simp only [isCapitalDigit, Bool.or_eq_true, Bool.and_eq_true, decide_eq_true_eq, Char.le_def,
      UInt32.le_iff_toNat_le] at digit
    rcases digit with digit | ⟨-, bound⟩
    · exact (Text.bounds_of_isAlphanum (by rw [Char.isAlphanum, digit, Bool.or_true])).2
    · exact Nat.lt_of_le_of_lt bound (by decide)
  revert digit
  apply Text.forall_ascii _ ascii
  decide +kernel

theorem isLiteral_of_encoded {b : UInt8} (raw : encoded b = false) : isLiteral (Char.ofNat b.toNat) = true := by
  have all : ∀ n < 0x80, encoded (.ofNat n) = false → isLiteral (Char.ofNat n) = true := by decide +kernel
  have known := all b.toNat (Nat.lt_succ_of_lt (isWide_encoded b raw).2)
  rw [UInt8.ofNat_toNat] at known
  exact known raw

namespace IsEncoded

theorem escapeByte (b : UInt8) {rest : Text} (behind : IsEncoded rest) :
    IsEncoded (Percent.escapeByte b ++ rest) := by
  have digit : ∀ n < 16, isCapitalDigit (Percent.digit n) = true := by decide
  have bound := b.toNat_lt
  exact .escape (digit _ (by omega)) (digit _ (by omega)) behind

theorem escapeBytes (name : Bytes) {rest : Text} (behind : IsEncoded rest) :
    IsEncoded (escapeBytes encoded name ++ rest) := by
  induction name with
  | nil => exact behind
  | cons b name ih =>
    rw [Percent.escapeBytes_cons, List.append_assoc]
    split
    · exact ih.escapeByte b
    · next passes => exact ih.literal (isLiteral_of_encoded (Bool.eq_false_iff.mpr passes))

theorem escapedNames (names : List Bytes) {rest : Text} (behind : IsEncoded rest) :
    IsEncoded (escapedNames names ++ rest) := by
  induction names with
  | nil => exact behind
  | cons name names ih =>
    rw [escapedNames_cons, List.cons_append, List.append_assoc]
    exact .literal (by decide) (ih.escapeBytes name)

theorem closing (path : Path) (closed : Bool) : IsEncoded (path.closing closed) := by
  rcases path.closing_cases closed with none | slash
  · rw [none]
    exact .nil
  · rw [slash]
    exact .literal (by decide) .nil

theorem of_cons {c : Char} (plain : c ≠ '%') {rest : Text} (encoded : IsEncoded (c :: rest)) :
    IsEncoded rest := by
  cases encoded with
  | literal _ behind => exact behind
  | escape => exact absurd rfl plain

variable {text : Text} (encoded : IsEncoded text)

include encoded

/-- What the sign and the literal characters satisfy one by one. -/
theorem forall_mem {P : Char → Prop}
    (each : ∀ n < 0x80, Char.ofNat n = '%' ∨ isLiteral (.ofNat n) = true → P (.ofNat n)) : ∀ c ∈ text, P c := by
  have literal : ∀ c, isLiteral c = true → P c := by
    intro c plain
    have bound := plain
    simp only [isLiteral, Bool.and_eq_true, decide_eq_true_eq] at bound
    have known := each c.toNat (by omega)
    rw [Char.ofNat_toNat] at known
    exact known (.inr plain)
  have sign : P '%' := each 0x25 (by decide) (.inl rfl)
  induction encoded with
  | nil => simp
  | literal plain _ ih => exact List.forall_mem_cons.mpr ⟨literal _ plain, ih⟩
  | escape first second _ ih =>
    simp only [List.forall_mem_cons]
    exact ⟨sign, literal _ (isLiteral_of_isCapitalDigit first), literal _ (isLiteral_of_isCapitalDigit second), ih⟩

theorem neatBehind : Text.NeatBehind text := by
  have solid : Text.IsSolid text := encoded.forall_mem (by decide +kernel)
  exact solid.neat.neatBehind

theorem not_mem {mark : Char} (other : mark ≠ '%') (marked : isLiteral mark = false) : mark ∉ text := by
  have others : ∀ c ∈ text, c ≠ mark := by
    apply encoded.forall_mem (P := (· ≠ mark))
    rintro n - (same | literal) rfl
    · exact other same
    · rw [literal] at marked
      cases marked
  exact fun member => others mark member rfl

end IsEncoded

/-! ## What the text spells -/

theorem spells_names (names : List Utf8.Bytes) {tail : Text} {bytes : Utf8.Bytes} (last : Spells tail bytes) :
    Spells ((names.flatMap fun name => '/' :: Percent.escapeBytes encoded name) ++ tail)
      (names.flatMap (slash :: ·) ++ bytes) := by
  induction names with
  | nil => exact last
  | cons name names ih =>
    have ascii : ∀ b, encoded b = false → b.toNat < 0x80 := fun b raw =>
      Nat.lt_succ_of_lt (isWide_encoded b raw).2
    have inner := (ih.escapeBytes (by decide) ascii name).cons_of_ne (c := '/') (by decide)
    rw [List.flatMap_cons, List.flatMap_cons, List.append_assoc, List.append_assoc]
    exact inner

/-- The text spells the path through the same names. -/
theorem spells_locatorText (path : Path) (closed : Bool) :
    Spells (path.locatorText closed) (Utf8.encode "file://".toList ++ (path.rooted closed).bytes) := by
  apply Percent.Spells.append_of_not_mem (by decide)
  apply spells_names
  rw [closing]
  split
  · exact Percent.spells_nil.cons_of_ne (by decide)
  · exact Percent.spells_nil

/-! ## The locator -/

theorem exists_root_locatorText (path : Path) (closed : Bool) :
    ∃ rest, path.locatorText closed = "file:///".toList ++ rest ∧ IsEncoded rest := by
  have encoded := (IsEncoded.closing path closed).escapedNames path.components
  have slashed : (escapedNames path.components ++ path.closing closed).head? = some '/' := by
    rw [closing]
    cases path.components with
    | nil =>
      rw [if_pos (.inr rfl)]
      rfl
    | cons name names => rfl
  obtain ⟨rest, body⟩ := List.head?_eq_some_iff.mp slashed
  rw [body] at encoded
  exact ⟨rest, congrArg ("file://".toList ++ ·) body, encoded.of_cons (by decide)⟩

/-- The text is read as it is. -/
theorem parse_locatorText_eq (path : Path) (closed : Bool) :
    ∃ rest, path.locatorText closed = "file:///".toList ++ rest ∧ IsEncoded rest ∧
      Locator.parse (path.locatorText closed) =
        .ok { text := path.locatorText closed, url := Url.rootUrl rest } := by
  obtain ⟨rest, root, encoded⟩ := path.exists_root_locatorText closed
  rw [root]
  exact ⟨rest, rfl, encoded, Locator.parse_root (Locator.neat_root encoded.neatBehind)⟩

/-- The text is read as a `file` locator without a query. -/
theorem parse_locatorText (path : Path) (closed : Bool) :
    ∃ locator, Locator.parse (path.locatorText closed) = .ok locator ∧ locator.text = path.locatorText closed ∧
      locator.isFile = true ∧ locator.query? = none := by
  obtain ⟨rest, -, encoded, read⟩ := path.parse_locatorText_eq closed
  exact ⟨_, read, rfl, rfl, Url.query_rootUrl (encoded.not_mem (by decide) (by decide))⟩

/-- An absolute path is encoded to that text, closed if the probe takes it for a directory. -/
theorem toLocator_eq {path absolute : Path} {workingDirectory : Option Path}
    (made : path.absolute? workingDirectory = some absolute) (rooted : absolute.isAbsolute = true)
    (probe : Probe) {locator : Locator}
    (read : Locator.parse (absolute.locatorText (probe.directory absolute)) = .ok locator) :
    path.toLocator probe workingDirectory =
      { value := .converted locator
        questions := [.directory absolute]
        records := [.encoded path locator.text] } := by
  have answer : probe.answer (.directory absolute) = probe.directory absolute := rfl
  rw [toLocator, made]
  ext1 <;> simp [rooted, answer, escapeLeftovers_urlText, read, -bind_pure_comp]

theorem toLocator_value {path absolute : Path} {workingDirectory : Option Path}
    (made : path.absolute? workingDirectory = some absolute) (rooted : absolute.isAbsolute = true)
    (probe : Probe) {locator : Locator}
    (read : Locator.parse (absolute.locatorText (probe.directory absolute)) = .ok locator) :
    (path.toLocator probe workingDirectory).value = .converted locator := by
  rw [toLocator_eq made rooted probe read]

end Path

end FileLocator
