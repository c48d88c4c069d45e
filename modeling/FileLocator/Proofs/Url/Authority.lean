import FileLocator.Proofs.Url.Host
import FileLocator.Proofs.Url.Href

/-! # Authorities are read back

The text of an authority is divided where it was put together: the user information holds no `@` and no colon but the
one in front of the password, a host holds neither outside of brackets, and a port is digits. So an authority is read
back from its text as the same authority (`parse_text`), and that text ends where the path begins, since none of its
characters separates segments or begins a query or a fragment.
-/

namespace FileLocator

namespace Percent

/-- Escaped text is its own escaped form where the sign and the digits pass. -/
theorem escape_escape {escaped : EscapeSet} (wide : escaped.IsWide) (sign : escaped 0x25 = false)
    (digits : ∀ n < 16, (digit n).toNat < 0x80 ∧ escaped (.ofNat (digit n).toNat) = false) (text : Text) :
    escape escaped (escape escaped text) = escape escaped text := by
  apply escape_eq_self
  apply forall_mem_escape
  · exact ⟨by decide, sign⟩
  · exact digits
  · intro b raw
    have small := (wide b raw).2
    rw [Utf8.toNat_char_ofNat (Or.inl (by omega : b.toNat < 0xD800)), UInt8.ofNat_toNat]
    exact ⟨by omega, raw⟩

/-- A mark that the set holds does not come through. -/
theorem not_mem_escape {escaped : EscapeSet} (wide : escaped.IsWide) {mark : Char}
    (held : mark ≠ '%' ∧ (∀ n < 16, digit n ≠ mark) ∧ escaped (.ofNat mark.toNat) = true) (text : Text) :
    mark ∉ escape escaped text := by
  apply not_mem_escapeBytes wide held.1 held.2.1
  rintro b - raw rfl
  rw [held.2.2] at raw
  cases raw

end Percent

namespace Url

/-! ## Hosts in an authority -/

namespace Host

theorem isDelimiter_of_isNameChar {c : Char} (plain : IsNameChar c) : isDelimiter c = false := by
  have allowed := plain.allowed
  rw [isDenied, Bool.or_eq_false_iff] at allowed
  exact allowed.2

/-- Only an address in brackets is written with delimiters. -/
theorem isDelimiter_of_parseName {written : Text} {host : Host} (read : parseName written = .ok host) :
    (∀ c ∈ host.text, isDelimiter c = false) ∨ ∃ ip, host = .ipv6 ip := by
  obtain ⟨ip, rfl⟩ | ⟨ip, rfl⟩ | ⟨name, rfl, domain⟩ := parseName_cases read
  · exact .inr ⟨ip, rfl⟩
  · exact .inl (ip.forall_mem_text (by decide) (by decide))
  · exact .inl fun c member => isDelimiter_of_isNameChar (domain.plain c member)

theorem isForbidden_of_mem_escape {written : Text} (allowed : written.any isForbidden = false) :
    ∀ c ∈ Percent.escape .controls written, isForbidden c = false := by
  apply Percent.forall_mem_escapeBytes
  · decide
  · decide
  · intro b member raw
    have small := (Percent.EscapeSet.isWide_controls b raw).2
    have present := Utf8.mem_of_mem_encode member (by omega)
    exact Bool.eq_false_iff.mpr (List.any_eq_false.mp allowed _ present)

theorem isDelimiter_of_parseVerbatim {written : Text} {host : Host} (read : parseVerbatim written = .ok host) :
    (∀ c ∈ host.text, isDelimiter c = false) ∨ ∃ ip, host = .ipv6 ip := by
  rw [parseVerbatim.eq_def] at read
  split at read
  · cases read
    exact .inl fun c member => absurd member List.not_mem_nil
  · exact .inr (exists_ipv6_of_bracketed read)
  · split at read
    · cases read
    · next allowed =>
      cases read
      left
      intro c member
      have free := isForbidden_of_mem_escape (Bool.of_not_eq_true allowed) c member
      rw [isForbidden, Bool.or_eq_false_iff] at free
      exact free.2

/-- A host that is kept as written is read back from its text. -/
theorem parseVerbatim_text {written : Text} {host : Host} (read : parseVerbatim written = .ok host) :
    parseVerbatim host.text = .ok host := by
  rw [parseVerbatim.eq_def] at read
  split at read
  · cases read
    rfl
  · obtain ⟨ip, rfl⟩ := exists_ipv6_of_bracketed read
    exact parseName_ipv6 ip
  next nonempty _ =>
  split at read
  · cases read
  next allowed =>
  cases read
  have free := isForbidden_of_mem_escape (Bool.of_not_eq_true allowed)
  have none : (Percent.escape .controls written).any isForbidden = false :=
    List.any_eq_false.mpr fun c member => Bool.eq_false_iff.mp (free c member)
  have twice := Percent.escape_escape Percent.EscapeSet.isWide_controls (by decide) (by decide) written
  change parseVerbatim (Percent.escape .controls written) = _
  rw [parseVerbatim.eq_def]
  split
  · next silent =>
    obtain ⟨c, rest, rfl⟩ := List.exists_cons_of_ne_nil nonempty
    rcases Percent.head?_escape Percent.EscapeSet.isWide_controls c rest with absent | absent <;>
      · rw [silent] at absent
        cases absent
  · next rest shape =>
    have bracket := free '[' (by simp [shape])
    cases bracket
  · rw [none, twice]
    rfl

end Host

namespace Authority

open Host (isDelimiter)

/-! ## Where the host ends -/

theorem cutHost_cons_of_ne {c : Char} (colon : c ≠ ':') (bracket : c ≠ '[') (rest : Text) :
    cutHost false (c :: rest) = (c :: (cutHost false rest).1, (cutHost false rest).2) := by
  rw [cutHost, beq_eq_false_iff_ne.mpr colon, beq_eq_false_iff_ne.mpr bracket]
  rfl

theorem cutHost_append {name : Text} (free : ∀ c ∈ name, isDelimiter c = false) (rest : Text) :
    cutHost false (name ++ rest) = (name ++ (cutHost false rest).1, (cutHost false rest).2) := by
  induction name with
  | nil => rfl
  | cons c name ih =>
    obtain ⟨here, behind⟩ := List.forall_mem_cons.mp free
    have other : ∀ mark, isDelimiter mark = true → c ≠ mark := by
      rintro mark delimits rfl
      rw [here] at delimits
      cases delimits
    rw [List.cons_append, cutHost_cons_of_ne (other ':' (by decide)) (other '[' (by decide)), ih behind]
    rfl

/-- A colon does not end a host inside of brackets. -/
theorem cutHost_bracketed {inner : Text} (absent : ']' ∉ inner) (rest : Text) :
    cutHost true (inner ++ ']' :: rest) = (inner ++ ']' :: (cutHost false rest).1, (cutHost false rest).2) := by
  induction inner with
  | nil => rfl
  | cons c inner ih =>
    rw [List.mem_cons, not_or] at absent
    have inside : (c == '[' || (true && c != ']')) = true := by
      rw [Bool.true_and, bne_iff_ne.mpr (Ne.symm absent.1), Bool.or_true]
    rw [List.cons_append, cutHost, inside, ih absent.2]
    simp

/-- Only an address in brackets is written with delimiters, whatever the kind. -/
theorem isDelimiter_of_parseHost {kind : Kind} {written : Text} {host : Host}
    (read : parseHost kind written = .ok host) :
    (∀ c ∈ host.text, isDelimiter c = false) ∨ ∃ ip, host = .ipv6 ip := by
  rw [parseHost] at read
  split at read
  · exact Host.isDelimiter_of_parseName read
  · exact Host.isDelimiter_of_parseVerbatim read

/-- A host ends where it was put in front of other text. -/
theorem cutHost_text {kind : Kind} {written : Text} {host : Host} (read : parseHost kind written = .ok host)
    {rest : Text} (edge : cutHost false rest = ([], rest)) :
    cutHost false (host.text ++ rest) = (host.text, rest) := by
  rcases isDelimiter_of_parseHost read with free | ⟨ip, rfl⟩
  · rw [cutHost_append free, edge, List.append_nil]
  · have absent : ']' ∉ ip.text := fun member =>
      ip.forall_mem_text (P := (· ≠ ']')) (by decide) (by decide) ']' member rfl
    have bracket : (Host.ipv6 ip).text ++ rest = '[' :: (ip.text ++ ']' :: rest) := by
      change ('[' :: ip.text ++ [']']) ++ rest = _
      simp
    have opened : cutHost false ('[' :: (ip.text ++ ']' :: rest)) =
        ('[' :: (cutHost true (ip.text ++ ']' :: rest)).1, (cutHost true (ip.text ++ ']' :: rest)).2) := rfl
    rw [bracket, opened, cutHost_bracketed absent, edge]
    rfl

theorem parseHost_text {kind : Kind} {written : Text} {host : Host} (read : parseHost kind written = .ok host) :
    parseHost kind host.text = .ok host := by
  rw [parseHost] at read ⊢
  split at read
  · next known =>
    rw [if_pos known]
    exact Host.parseName_text read
  · next other =>
    rw [if_neg other]
    exact Host.parseVerbatim_text read

/-! ## What an authority is made of -/

/-- The parts of an authority that some text was read as. -/
structure IsRead (kind : Kind) (authority : Authority) : Prop where
  username : ∃ text, authority.username = Percent.escape escaped text
  password : ∃ text, authority.password = Percent.escape escaped text
  host : ∃ text, parseHost kind text = .ok authority.host
  port : ∀ port, authority.port = some port → port ≤ 65535 ∧ kind.defaultPort? ≠ some port
  /-- Nothing stands beside an empty host. -/
  alone : authority.host = .empty → authority.username = [] ∧ authority.password = [] ∧ authority.port = none

theorem bounds_of_parsePort {kind : Kind} {written left : Text} {port : Nat}
    (read : parsePort kind written = .ok (some port, left)) : port ≤ 65535 ∧ kind.defaultPort? ≠ some port := by
  rw [parsePort] at read
  split at read
  · cases read
  split at read
  · cases read
  · next bound other =>
    cases read
    rw [not_or] at bound other
    exact ⟨Nat.not_lt.mp bound.2, other.2⟩

theorem isRead_of_parse {kind : Kind} {atEnd : Bool} {written left : Text} {authority : Authority}
    (read : parse kind atEnd written = .ok (authority, left)) : IsRead kind authority := by
  rw [parse] at read
  dsimp only at read
  split at read
  · cases read
  split at read
  · cases read
  next host named =>
  split at read
  · split at read
    · cases read
    · next beside =>
      obtain ⟨rfl, rfl⟩ := Prod.mk.inj (Except.ok.inj read)
      refine ⟨⟨_, rfl⟩, ⟨_, rfl⟩, ⟨_, named⟩, fun port none => (by cases none), ?_⟩
      intro empty
      have nothing := not_not.mp fun some => beside ⟨empty, some⟩
      exact ⟨nothing.1, nothing.2, rfl⟩
  · split at read
    · cases read
    · next nonempty =>
      split at read
      · cases read
      · next port _ ported =>
        obtain ⟨rfl, rfl⟩ := Prod.mk.inj (Except.ok.inj read)
        refine ⟨⟨_, rfl⟩, ⟨_, rfl⟩, ⟨_, named⟩, ?_, fun empty => absurd empty nonempty⟩
        rintro port rfl
        exact bounds_of_parsePort ported

/-! ## What is not in the text of an authority -/

namespace IsRead

variable {kind : Kind} {authority : Authority} (parts : IsRead kind authority)

include parts

/-- No delimiter stands behind the user information, apart from brackets and colons. -/
theorem not_mem_place {mark : Char} (delimits : isDelimiter mark = true) (other : mark ∉ "[:]".toList) :
    mark ∉ authority.host.text ++ authority.portText := by
  have digits : ∀ k < 16, isDelimiter k.digitChar = false := by decide
  have differs : ∀ k < 16, k.digitChar ≠ mark := by
    rintro k small rfl
    rw [digits k small] at delimits
    cases delimits
  have colon : ':' ≠ mark := by
    rintro rfl
    exact other (by decide)
  obtain ⟨written, named⟩ := parts.host
  rw [List.mem_append, not_or]
  constructor
  · intro member
    rcases isDelimiter_of_parseHost named with free | ⟨ip, address⟩
    · rw [free mark member] at delimits
      cases delimits
    · rw [address] at member
      change mark ∈ '[' :: ip.text ++ [']'] at member
      rcases List.mem_append.mp member with front | last
      · rcases List.mem_cons.mp front with rfl | inside
        · exact other (by decide)
        · exact ip.forall_mem_text (P := (· ≠ mark)) colon differs mark inside rfl
      · rw [List.mem_singleton.mp last] at other
        exact other (by decide)
  · rw [portText]
    cases authority.port with
    | none => exact List.not_mem_nil
    | some port =>
      intro member
      rcases List.mem_cons.mp member with same | digit
      · exact colon same.symm
      · exact Text.forall_mem_toDigits (P := (· ≠ mark)) (by decide) (fun k small => differs k (by omega)) port mark
          digit rfl

theorem not_mem_credentials {mark : Char} (differs : mark ≠ ':' ∧ mark ≠ '@')
    (held : mark ≠ '%' ∧ (∀ n < 16, Percent.digit n ≠ mark) ∧ escaped (.ofNat mark.toNat) = true) :
    mark ∉ authority.credentials := by
  obtain ⟨username, user⟩ := parts.username
  obtain ⟨password, pass⟩ := parts.password
  have absent := Percent.not_mem_escape isWide_escaped held
  rw [credentials]
  split
  · exact List.not_mem_nil
  · rw [user, pass]
    split
    · simp [absent, differs.2]
    · simp [absent, differs.1, differs.2]

/-- No character of an authority ends it. -/
theorem not_mem_text {mark : Char} (ends : mark ∈ "/\\?#".toList) : mark ∉ authority.text := by
  have known : mark = '/' ∨ mark = '\\' ∨ mark = '?' ∨ mark = '#' := by simpa using ends
  have delimits : isDelimiter mark = true ∧ mark ∉ "[:]".toList := by
    rcases known with rfl | rfl | rfl | rfl <;> decide
  have differs : mark ≠ ':' ∧ mark ≠ '@' := by
    rcases known with rfl | rfl | rfl | rfl <;> decide
  have held : mark ≠ '%' ∧ (∀ n < 16, Percent.digit n ≠ mark) ∧ escaped (.ofNat mark.toNat) = true := by
    rcases known with rfl | rfl | rfl | rfl <;> decide
  rw [text, List.append_assoc, List.mem_append, not_or]
  exact ⟨parts.not_mem_credentials differs held, parts.not_mem_place delimits.1 delimits.2⟩

end IsRead

/-! ## Reading an authority back -/

/-- User name and password with the colon between them. -/
def userinfo (authority : Authority) : Text :=
  authority.username ++ if authority.password = [] then [] else ':' :: authority.password

theorem userinfo_eq_nil_iff {authority : Authority} :
    authority.userinfo = [] ↔ authority.username = [] ∧ authority.password = [] := by
  rw [userinfo]
  split
  · next silent => simp [silent]
  · next spoken => simp [spoken]

theorem text_eq (authority : Authority) :
    authority.text =
      if authority.userinfo = [] then authority.host.text ++ authority.portText
      else authority.userinfo ++ '@' :: (authority.host.text ++ authority.portText) := by
  by_cases silent : authority.username = [] ∧ authority.password = []
  · rw [text, credentials, if_pos silent, if_pos (userinfo_eq_nil_iff.mpr silent), List.nil_append]
  · rw [text, credentials, if_neg silent, if_neg (mt userinfo_eq_nil_iff.mp silent)]
    simp [userinfo]

theorem escape_of_escaped {text : Text} (known : ∃ written, text = Percent.escape escaped written) :
    Percent.escape escaped text = text := by
  obtain ⟨written, rfl⟩ := known
  exact Percent.escape_escape isWide_escaped (by decide) (by decide) written

theorem parsePort_toDigits {kind : Kind} {port : Nat} (bound : port ≤ 65535)
    (other : kind.defaultPort? ≠ some port) : parsePort kind (Nat.toDigits 10 port) = .ok (some port, []) := by
  have digits : ∀ c ∈ Nat.toDigits 10 port, c.isDigit = true :=
    Text.forall_mem_toDigits (P := fun c => c.isDigit = true) (by decide) (by decide) port
  have front : (Nat.toDigits 10 port).takeWhile Char.isDigit = Nat.toDigits 10 port :=
    List.takeWhile_eq_self_iff.mpr digits
  have back : (Nat.toDigits 10 port).dropWhile Char.isDigit = [] := List.dropWhile_eq_nil_iff.mpr digits
  have value : Nat.ofDigitChars 10 (Nat.toDigits 10 port) 0 = port := Nat.ofDigitChars_ten_toDigits
  have fits : ¬(([] : Text) ≠ [] ∧ ([] : Text).head? ≠ some '\\' ∨ 65535 < port) := by
    rintro (⟨nonempty, -⟩ | large)
    · exact nonempty rfl
    · omega
  have written : ¬(Nat.toDigits 10 port = [] ∨ kind.defaultPort? = some port) := by
    rintro (none | same)
    · exact Nat.toDigits_ne_nil none
    · exact other same
  rw [parsePort, front, back, value, if_neg fits, if_neg written]

namespace IsRead

variable {kind : Kind} {authority : Authority} (parts : IsRead kind authority)

include parts

theorem parseCredentials_userinfo :
    parseCredentials authority.userinfo = (authority.username, authority.password) := by
  have colon : ':' ∉ authority.username := by
    obtain ⟨username, user⟩ := parts.username
    rw [user]
    exact Percent.not_mem_escape isWide_escaped (by decide) username
  have user := escape_of_escaped parts.username
  have pass := escape_of_escaped parts.password
  rw [parseCredentials, userinfo]
  by_cases silent : authority.password = []
  · rw [if_pos silent, List.append_nil, Text.cut_of_not_mem colon, silent]
    dsimp only
    rw [user]
    rfl
  · rw [if_neg silent, Text.cut_append_cons colon]
    dsimp only
    rw [user, Option.getD_some, pass]

/-- The last `@` of the text is the one behind the user information. -/
theorem cutLast?_text :
    (Text.cutLast? '@' authority.text).getD ([], authority.text) =
      (authority.userinfo, authority.host.text ++ authority.portText) := by
  have absent : '@' ∉ authority.host.text ++ authority.portText := parts.not_mem_place (by decide) (by decide)
  rw [text_eq]
  split
  · next silent =>
    rw [Text.cutLast?_eq_none_iff.mpr absent, silent]
    rfl
  · rw [Text.cutLast?_eq_some_iff.mpr ⟨rfl, absent⟩]
    rfl

theorem text_ne_sign : authority.text ≠ ['@'] := by
  have absent : '@' ∉ authority.host.text ++ authority.portText := parts.not_mem_place (by decide) (by decide)
  rw [text_eq]
  split
  · intro same
    rw [same] at absent
    exact absent (List.mem_singleton.mpr rfl)
  · next spoken =>
    intro same
    have sizes := congrArg List.length same
    have some := List.length_pos_iff.mpr spoken
    simp only [List.length_append, List.length_cons, List.length_nil] at sizes
    omega

/-- An authority is read back from its text. -/
theorem parse_text (atEnd : Bool) : parse kind atEnd authority.text = .ok (authority, []) := by
  obtain ⟨written, named⟩ := parts.host
  have edge : cutHost false authority.portText = ([], authority.portText) := by
    rw [portText]
    cases authority.port <;> rfl
  have alone : ¬(authority.text = ['@'] ∧ (!atEnd) = true) := fun both => parts.text_ne_sign both.1
  rw [parse, parts.cutLast?_text]
  dsimp only
  rw [parts.parseCredentials_userinfo, cutHost_text named edge]
  dsimp only
  rw [if_neg alone, parseHost_text named]
  dsimp only
  cases ported : authority.port with
  | none =>
    have beside : ¬(authority.host = .empty ∧ ¬(authority.username = [] ∧ authority.password = [])) := by
      rintro ⟨empty, spoken⟩
      have nothing := parts.alone empty
      exact spoken ⟨nothing.1, nothing.2.1⟩
    have nothing : authority.portText = [] := by
      rw [portText, ported]
      rfl
    rw [nothing]
    dsimp only
    rw [if_neg beside, ← ported]
  | some port =>
    have digits : authority.portText = ':' :: Nat.toDigits 10 port := by
      rw [portText, ported]
      rfl
    have host : authority.host ≠ .empty := by
      intro empty
      rw [(parts.alone empty).2.2] at ported
      cases ported
    obtain ⟨bound, other⟩ := parts.port port ported
    rw [digits]
    dsimp only
    rw [if_neg host, parsePort_toDigits bound other, ← ported]

end IsRead

end Authority

end Url

end FileLocator
