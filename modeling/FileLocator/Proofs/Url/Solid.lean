import FileLocator.Proofs.Escapes
import FileLocator.Proofs.Neat
import FileLocator.Url.Parse

/-! # Nothing blank in a normal form

The parts of a URL that was read hold no blank: whatever is not escaped is a letter, a digit or a mark.
Only text that is kept as written may hold spaces, and it does not end in one unless a query or a fragment
follows. So the normal form of a URL that was read is neat (`neat_href`), and cleaning leaves it alone.
-/

namespace FileLocator

/-! ## Text -/

namespace Text

/-- Text in which nothing is blank. -/
def IsSolid (text : Text) : Prop := ∀ c ∈ text, isEdgeBlank c = false

instance (text : Text) : Decidable (IsSolid text) := List.decidableBAll _ _

@[simp] theorem isSolid_nil : IsSolid [] := fun _ member => absurd member List.not_mem_nil

@[simp] theorem isSolid_cons {c : Char} {rest : Text} :
    IsSolid (c :: rest) ↔ isEdgeBlank c = false ∧ IsSolid rest := List.forall_mem_cons

@[simp] theorem isSolid_append {first second : Text} :
    IsSolid (first ++ second) ↔ IsSolid first ∧ IsSolid second := List.forall_mem_append

theorem IsSolid.neat {text : Text} (solid : IsSolid text) : Neat text where
  stays c member := isBreak_eq_false_of_solid (solid c member)
  head c first := solid c (List.mem_of_mem_head? first)
  last c final := solid c (List.mem_of_getLast? final)

/-- Between solid text, unbroken text is neat; it may hold blanks inside. -/
theorem neat_append {front middle back : Text} (solid : IsSolid front) (nonempty : front ≠ [])
    (stays : ∀ c ∈ middle, isBreak c = false) (solid' : IsSolid back)
    (edge : back = [] → ∀ c ∈ middle.getLast?, isEdgeBlank c = false) : Neat (front ++ middle ++ back) where
  stays := by
    simp only [List.forall_mem_append]
    exact ⟨⟨solid.neat.stays, stays⟩, solid'.neat.stays⟩
  head := by
    obtain ⟨first, others, rfl⟩ := List.exists_cons_of_ne_nil nonempty
    intro c same
    rw [← Option.some.inj same]
    exact solid first (List.mem_cons_self ..)
  last := by
    apply solid_of_getLast?_append solid'.neat.last
    intro none
    apply solid_of_getLast?_append (edge none)
    intro _
    exact solid.neat.last

/-- What holds of the mark and of each part holds of the parts joined by the mark. -/
theorem forall_mem_join {P : Char → Prop} {mark : Text} (between : ∀ c ∈ mark, P c) {parts : List Text}
    (each : ∀ part ∈ parts, ∀ c ∈ part, P c) : ∀ c ∈ (parts.intersperse mark).flatten, P c := by
  induction parts with
  | nil => simp
  | cons first others ih =>
    obtain ⟨here, behind⟩ := List.forall_mem_cons.mp each
    cases others with
    | nil => simpa using here
    | cons second others =>
      rw [List.intersperse_cons_cons, List.flatten_cons, List.flatten_cons, List.forall_mem_append,
        List.forall_mem_append]
      exact ⟨here, between, ih behind⟩

theorem forall_mem_toDigits {P : Char → Prop} {base : Nat} (large : 1 < base)
    (digit : ∀ k < base, P k.digitChar) (n : Nat) : ∀ c ∈ Nat.toDigits base n, P c := by
  induction n using Nat.strongRecOn with
  | ind n ih =>
    rw [Nat.toDigits_eq_if large]
    split
    · next small => exact List.forall_mem_singleton.mpr (digit n small)
    · have smaller : n / base < n := Nat.div_lt_self (by omega) large
      have last : P (n % base).digitChar := digit _ (Nat.mod_lt _ (by omega))
      exact List.forall_mem_append.mpr ⟨ih _ smaller, List.forall_mem_singleton.mpr last⟩

theorem toLower_eq_self {c : Char} (wide : 0x80 ≤ c.toNat) : c.toLower = c := by
  have small : ¬(c.val ≥ 'A'.val ∧ c.val ≤ 'Z'.val) := by
    rintro ⟨-, bound⟩
    have ascii : c.toNat < 0x80 := Nat.lt_of_le_of_lt (UInt32.le_iff_toNat_le.mp bound) (by decide)
    omega
  exact dif_neg small

theorem eq_or_eq_toUpper {c lower : Char} (same : c.toLower = lower) : c = lower ∨ c = lower.toUpper := by
  rw [← same]
  by_cases ascii : c.toNat < 0x80
  · apply forall_ascii (P := fun c => c = c.toLower ∨ c = c.toLower.toUpper) _ ascii
    decide +kernel
  · exact .inl (toLower_eq_self (Nat.not_lt.mp ascii)).symm

end Text

namespace Percent

open Text (IsSolid isEdgeBlank)

/-- Escaped text has no break in it. -/
theorem isBreak_of_mem_escape {escaped : EscapeSet} (wide : escaped.IsWide) (text : Text) :
    ∀ c ∈ escape escaped text, Text.isBreak c = false := by
  apply forall_mem_escape
  · decide
  · decide
  · intro b raw
    obtain ⟨low, high⟩ := wide b raw
    apply Text.isBreak_eq_false_of_le
    rw [Utf8.toNat_char_ofNat (by omega)]
    exact low

/-- Escaped text has nothing blank in it if the space is escaped as well. -/
theorem isSolid_escape {escaped : EscapeSet} (wide : escaped.IsWide) (space : escaped 0x20 = true)
    (text : Text) :
    IsSolid (escape escaped text) := by
  apply forall_mem_escape
  · decide
  · decide
  · intro b raw
    obtain ⟨low, high⟩ := wide b raw
    have other : b.toNat ≠ 0x20 := by
      intro same
      have equal : b = 0x20 := UInt8.toNat_inj.mp same
      rw [equal, space] at raw
      cases raw
    rw [Text.isEdgeBlank_eq_false_iff, Utf8.toNat_char_ofNat (by omega)]
    omega

/-- Escaping the last character writes nothing blank, unless that character is the space. -/
theorem solid_of_getLast?_escape {escaped : EscapeSet} (wide : escaped.IsWide) {text : Text}
    (solid : ∀ c ∈ text.getLast?, isEdgeBlank c = false) :
    ∀ c ∈ (escape escaped text).getLast?, isEdgeBlank c = false := by
  obtain rfl | ⟨init, last, rfl⟩ := List.eq_nil_or_concat text
  · simp [escape_nil]
  · rw [List.concat_eq_append] at solid ⊢
    have lastSolid := solid last (by simp)
    have written : IsSolid (escape escaped [last]) := by
      apply forall_mem_escapeBytes
      · decide
      · decide
      · intro b member raw
        have bound := wide b raw
        have present := Utf8.mem_of_mem_encode member (by omega)
        rwa [List.mem_singleton.mp present]
    rw [escape_append]
    apply Text.solid_of_getLast?_append
    · exact fun c final => written c (List.mem_of_getLast? final)
    · intro none
      have first := head?_escape wide last []
      rw [none] at first
      rcases first with absent | absent <;> cases absent

end Percent

namespace Url

open Text (IsSolid isEdgeBlank unbroken isBreak isSolid_nil isSolid_cons isSolid_append)

theorem Route.isWide_escaped : Route.escaped.IsWide := Percent.EscapeSet.isWide_controls.including _

/-! ## Hosts -/

namespace Punycode

theorem threshold_le (position bias : Nat) : 1 ≤ threshold position bias ∧ threshold position bias ≤ 26 := by
  rw [threshold]
  omega

section Digits

variable {P : Char → Prop} (digits : ∀ n < 36, P (digit n))

include digits

theorem forall_mem_distance (position bias value : Nat) : ∀ c ∈ distance position bias value, P c := by
  fun_induction distance position bias value with
  | case1 position value least small =>
    have bound := threshold_le position bias
    exact List.forall_mem_singleton.mpr (digits value (by omega))
  | case2 position value least large ih =>
    have bound := threshold_le position bias
    have rest := Nat.mod_lt (value - least) (show 0 < 36 - least by omega)
    exact List.forall_mem_cons.mpr ⟨digits _ (by omega), ih⟩

theorem forall_mem_writeDistances (first : Bool) (bias placed : Nat) (values : List Nat) :
    ∀ c ∈ writeDistances first bias placed values, P c := by
  induction values generalizing first bias placed with
  | nil => simp [writeDistances]
  | cons value rest ih => exact List.forall_mem_append.mpr ⟨forall_mem_distance digits _ _ _, ih _ _ _⟩

/-- The ASCII form of a label is written with its ASCII characters, hyphens and digits. -/
theorem forall_mem_encode (hyphen : P '-') {label : Text} (each : ∀ c ∈ label, c.toNat < 128 → P c) :
    ∀ c ∈ encode label, P c := by
  have basic : ∀ c ∈ label.filter fun c => c.toNat < 128, P c := by
    intro c member
    obtain ⟨present, ascii⟩ := List.mem_filter.mp member
    exact each c present (of_decide_eq_true ascii)
  rw [encode]
  refine List.forall_mem_append.mpr ⟨?_, forall_mem_writeDistances digits _ _ _ _⟩
  split
  · simp
  · exact List.forall_mem_append.mpr ⟨basic, List.forall_mem_singleton.mpr hyphen⟩

end Digits

end Punycode

theorem Ipv4.forall_mem_text {P : Char → Prop} (dot : P '.') (digit : ∀ k < 10, P k.digitChar) (ip : Ipv4) :
    ∀ c ∈ ip.text, P c := by
  apply Text.forall_mem_join
  · exact List.forall_mem_singleton.mpr dot
  · intro part member
    obtain ⟨value, -, rfl⟩ := List.mem_map.mp member
    exact Text.forall_mem_toDigits (by decide) digit value

theorem Ipv6.forall_mem_joined {P : Char → Prop} (colon : P ':') (digit : ∀ k < 16, P k.digitChar)
    (groups : List UInt16) : ∀ c ∈ joined groups, P c := by
  apply Text.forall_mem_join
  · exact List.forall_mem_singleton.mpr colon
  · intro part member
    obtain ⟨group, -, rfl⟩ := List.mem_map.mp member
    exact Text.forall_mem_toDigits (by decide) digit group.toNat

theorem Ipv6.forall_mem_text {P : Char → Prop} (colon : P ':') (digit : ∀ k < 16, P k.digitChar) (ip : Ipv6) :
    ∀ c ∈ ip.text, P c := by
  rw [text]
  split
  next start length _ =>
  split
  · exact forall_mem_joined colon digit _
  · simp only [List.forall_mem_append]
    refine ⟨⟨forall_mem_joined colon digit _, ?_⟩, forall_mem_joined colon digit _⟩
    exact List.forall_mem_cons.mpr ⟨colon, List.forall_mem_singleton.mpr colon⟩

namespace Host

/-- A label in ASCII is written with the ASCII characters of the label, and with what it is encoded with. -/
theorem forall_mem_asciiLabel {P : Char → Prop} (hyphen : P '-') (digits : ∀ n < 36, P (Punycode.digit n))
    {label : Text} (each : ∀ c ∈ label, c.toNat < 128 → P c) : ∀ c ∈ asciiLabel label, P c := by
  have mark : ∀ c ∈ "xn--".toList, P c := by
    have letters : "xn--".toList = [Punycode.digit 23, Punycode.digit 13, '-', '-'] := rfl
    simp only [letters, List.forall_mem_cons]
    exact ⟨digits 23 (by decide), digits 13 (by decide), hyphen, hyphen, by simp⟩
  rw [asciiLabel]
  split
  · next ascii =>
    rw [List.all_eq_true] at ascii
    exact fun c present => each c present (of_decide_eq_true (ascii c present))
  · exact List.forall_mem_append.mpr ⟨mark, Punycode.forall_mem_encode digits hyphen each⟩

/-- A name in ASCII is written with the ASCII characters of the name in lower case, and with what its labels are
encoded with. -/
theorem forall_mem_asciiName {P : Char → Prop} (dot : P '.') (hyphen : P '-')
    (digits : ∀ n < 36, P (Punycode.digit n)) {name : Text}
    (each : ∀ c ∈ name, c.toLower.toNat < 128 → P c.toLower) : ∀ c ∈ asciiName name, P c := by
  have lower : ∀ c ∈ name.map Char.toLower, c.toNat < 128 → P c := by
    intro c member
    obtain ⟨upper, present, rfl⟩ := List.mem_map.mp member
    exact each upper present
  apply Text.forall_mem_join
  · exact List.forall_mem_singleton.mpr dot
  · intro part member
    obtain ⟨label, piece, rfl⟩ := List.mem_map.mp member
    exact forall_mem_asciiLabel hyphen digits fun c present => lower c (Text.mem_of_mem_pieces piece c present)

/-- A character that a name in ASCII may hold. -/
structure IsNameChar (c : Char) : Prop where
  ascii : c.toNat < 0x80
  allowed : isDenied c = false
  lower : c.toLower = c

theorem isNameChar_iff {c : Char} :
    IsNameChar c ↔ c.toNat < 0x80 ∧ isDenied c = false ∧ c.toLower = c :=
  ⟨fun plain => ⟨plain.ascii, plain.allowed, plain.lower⟩, fun parts => ⟨parts.1, parts.2.1, parts.2.2⟩⟩

instance (c : Char) : Decidable (IsNameChar c) := decidable_of_iff _ isNameChar_iff.symm

/-- A character that a host may be written with where names are brought into ASCII. -/
def IsHostChar (c : Char) : Prop := IsNameChar c ∨ c = '[' ∨ c = ':' ∨ c = ']'

instance (c : Char) : Decidable (IsHostChar c) := instDecidableOr

theorem IsHostChar.solid {c : Char} (written : IsHostChar c) : isEdgeBlank c = false := by
  have ascii : c.toNat < 0x80 := by
    rcases written with plain | rfl | rfl | rfl
    · exact plain.ascii
    all_goals decide
  revert written
  apply Text.forall_ascii (P := fun c => IsHostChar c → isEdgeBlank c = false) _ ascii
  decide +kernel

theorem isNameChar_of_mem_asciiName {name : Text} (allowed : name.any isDenied = false) :
    ∀ c ∈ asciiName name, IsNameChar c := by
  apply forall_mem_asciiName (P := IsNameChar) (by decide) (by decide) (by decide)
  intro c member ascii
  by_cases small : c.toNat < 0x80
  · have free : isDenied c = false := Bool.eq_false_iff.mpr (List.any_eq_false.mp allowed c member)
    revert free
    apply Text.forall_ascii (P := fun c => isDenied c = false → IsNameChar c.toLower) _ small
    decide +kernel
  · rw [Text.toLower_eq_self (Nat.not_lt.mp small)] at ascii
    exact absurd ascii small

/-! ### What is read -/

/-- A name in ASCII that is the host of a URL. -/
structure IsDomain (name : Text) : Prop where
  nonempty : name ≠ []
  plain : ∀ c ∈ name, IsNameChar c
  sound : isSound name = true
  word : Ipv4.endsInNumber name = false

theorem exists_ipv6_of_bracketed {written : Text} {host : Host} (read : bracketed written = .ok host) :
    ∃ ip, host = .ipv6 ip := by
  rw [bracketed] at read
  split at read
  · split at read
    · next ip _ =>
      cases read
      exact ⟨ip, rfl⟩
    · cases read
  · cases read

theorem isDenied_of_ofMapped {name : Text} {host : Host} (read : ofMapped name = .ok host) :
    name.any isDenied = false := by
  rw [ofMapped] at read
  split at read
  · cases read
  · next allowed => exact Bool.of_not_eq_true allowed

theorem ofMapped_cases {name : Text} {host : Host} (read : ofMapped name = .ok host) :
    (∃ ip, host = .ipv4 ip) ∨ host = .domain (asciiName name) ∧ IsDomain (asciiName name) := by
  have plain := isNameChar_of_mem_asciiName (isDenied_of_ofMapped read)
  rw [ofMapped, if_neg (Bool.eq_false_iff.mp (isDenied_of_ofMapped read))] at read
  generalize asciiName name = ascii at read plain ⊢
  dsimp only at read
  split_ifs at read with unsound empty number
  · split at read
    · next ip _ =>
      cases read
      exact .inl ⟨ip, rfl⟩
    · cases read
  · cases read
    refine .inr ⟨rfl, empty, plain, ?_, Bool.of_not_eq_true number⟩
    simpa using unsound

/-- What is read is an address or a name in ASCII. -/
theorem parseName_cases {written : Text} {host : Host} (read : parseName written = .ok host) :
    (∃ ip, host = .ipv6 ip) ∨ (∃ ip, host = .ipv4 ip) ∨ ∃ name, host = .domain name ∧ IsDomain name := by
  rw [parseName.eq_def] at read
  split at read
  · cases read
  · exact .inl (exists_ipv6_of_bracketed read)
  · split at read
    · cases read
    · exact .inr ((ofMapped_cases read).imp_right fun named => ⟨_, named⟩)

theorem isHostChar_ipv6 (ip : Ipv6) : ∀ c ∈ (Host.ipv6 ip).text, IsHostChar c := by
  have inner : ∀ c ∈ ip.text, IsHostChar c := ip.forall_mem_text (by decide) (by decide)
  refine List.forall_mem_append.mpr ⟨List.forall_mem_cons.mpr ⟨by decide, inner⟩, ?_⟩
  exact List.forall_mem_singleton.mpr (by decide)

theorem isHostChar_of_bracketed {written : Text} {host : Host} (read : bracketed written = .ok host) :
    ∀ c ∈ host.text, IsHostChar c := by
  obtain ⟨ip, rfl⟩ := exists_ipv6_of_bracketed read
  exact isHostChar_ipv6 ip

theorem isHostChar_of_parseName {written : Text} {host : Host} (read : parseName written = .ok host) :
    ∀ c ∈ host.text, IsHostChar c := by
  obtain ⟨ip, rfl⟩ | ⟨ip, rfl⟩ | ⟨name, rfl, domain⟩ := parseName_cases read
  · exact isHostChar_ipv6 ip
  · exact ip.forall_mem_text (P := IsHostChar) (by decide) (by decide)
  · exact fun c member => .inl (domain.plain c member)

theorem isHostChar_of_parseFile {written : Text} {host : Host} (read : parseFile written = .ok host) :
    ∀ c ∈ host.text, IsHostChar c := by
  rw [parseFile] at read
  split at read
  · cases read
    exact fun c member => absurd member List.not_mem_nil
  · split at read
    · next named name =>
      cases read
      split
      · exact fun c member => absurd member List.not_mem_nil
      · exact isHostChar_of_parseName name
    · cases read

theorem isSolid_text_of_parseVerbatim {written : Text} {host : Host}
    (read : parseVerbatim written = .ok host) :
    IsSolid host.text := by
  rw [parseVerbatim.eq_def] at read
  split at read
  · cases read
    exact isSolid_nil
  · exact fun c member => (isHostChar_of_bracketed read c member).solid
  · split at read
    · cases read
    · next allowed =>
      cases read
      apply Percent.forall_mem_escapeBytes
      · decide
      · decide
      · intro b member raw
        obtain ⟨low, high⟩ := Percent.EscapeSet.isWide_controls b raw
        have present := Utf8.mem_of_mem_encode member (by omega)
        have other : b.toNat ≠ 0x20 := by
          intro same
          rw [same] at present
          exact allowed (List.any_eq_true.mpr ⟨_, present, by decide⟩)
        rw [Text.isEdgeBlank_eq_false_iff, Utf8.toNat_char_ofNat (by omega)]
        omega

end Host

end Url

end FileLocator
