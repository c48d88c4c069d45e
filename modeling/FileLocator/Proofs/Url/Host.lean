import FileLocator.Proofs.Unescape
import FileLocator.Proofs.Url.Solid

/-! # Hosts are read back

A host is read back from its text as the same host: a name in ASCII is its own form in ASCII, an IPv4 address is
written as four decimal bytes, and the gap of an IPv6 address stands for the zeros that it replaces
(`parseName_text`). So the normal form of a `file` URL has a host that can be read.
-/

namespace FileLocator

/-! ## Pieces and what they are joined to -/

namespace Text

variable {α : Type}

theorem pieces_eq_splitOnP (isSeparator : α → Bool) (source : List α) :
    pieces isSeparator source = source.splitOnP isSeparator := by
  induction source with
  | nil => rfl
  | cons head rest ih =>
    rw [pieces, List.splitOnP_cons_eq_if_modifyHead, ← ih]
    split
    · rfl
    · obtain ⟨piece, others, parts⟩ := List.exists_cons_of_ne_nil (pieces_ne_nil isSeparator rest)
      rw [parts]
      rfl

variable [DecidableEq α]

theorem flatten_intersperse_pieces (mark : α) (source : List α) :
    ((pieces (· == mark) source).intersperse [mark]).flatten = source := by
  rw [pieces_eq_splitOnP]
  exact List.intercalate_splitOn mark

theorem pieces_flatten_intersperse {mark : α} {parts : List (List α)} (nonempty : parts ≠ [])
    (free : ∀ part ∈ parts, mark ∉ part) : pieces (· == mark) (parts.intersperse [mark]).flatten = parts := by
  rw [pieces_eq_splitOnP]
  exact List.splitOn_intercalate mark free nonempty

end Text

theorem Percent.unescape_eq_encode {text : Text} (plain : '%' ∉ text) : unescape text = Utf8.encode text := by
  have spells := (spells_nil.append_of_not_mem plain).bytes
  rwa [List.append_nil, List.append_nil] at spells

namespace Url

/-! ## Names -/

namespace Host

/-- A name in ASCII and lower case is its own form in ASCII. -/
theorem asciiName_eq_self {name : Text} (plain : ∀ c ∈ name, IsNameChar c) : asciiName name = name := by
  have lower : name.map Char.toLower = name := by
    rw [List.map_congr_left fun c member => (plain c member).lower, List.map_id']
  have labels : (Text.pieces (· == '.') name).map asciiLabel = Text.pieces (· == '.') name := by
    rw [List.map_congr_left (g := id) ?_, List.map_id]
    intro label piece
    have ascii : label.all (fun c => c.toNat < 128) = true := List.all_eq_true.mpr fun c member =>
      decide_eq_true (plain c (Text.mem_of_mem_pieces piece c member)).ascii
    rw [asciiLabel, if_pos ascii, id]
  rw [asciiName, lower, labels]
  exact Text.flatten_intersperse_pieces '.' name

theorem any_isDenied_of_isNameChar {name : Text} (plain : ∀ c ∈ name, IsNameChar c) : name.any isDenied = false :=
  List.any_eq_false.mpr fun c member => Bool.eq_false_iff.mp (plain c member).allowed

/-- A name in ASCII has nothing to unescape or to map. -/
theorem parseName_of_isNameChar {name : Text} (nonempty : name ≠ []) (plain : ∀ c ∈ name, IsNameChar c) :
    parseName name = ofMapped name := by
  have absent : ∀ mark, isDenied mark = true → mark ∉ name := by
    intro mark denied member
    rw [(plain mark member).allowed] at denied
    cases denied
  have read : Utf8.decode (Percent.unescape name) = .ok name := by
    rw [Percent.unescape_eq_encode (absent '%' (by decide)), Utf8.decode_encode]
  have same : mapped name = name := mapped_eq_self fun c member => mappedChar_of_ascii (plain c member).ascii
  rw [parseName.eq_def]
  split
  · exact absurd rfl nonempty
  · exact absurd (List.mem_cons_self ..) (absent '[' (by decide))
  · rw [read]
    exact congrArg ofMapped same

theorem IsDomain.parseName_eq {name : Text} (domain : IsDomain name) : parseName name = .ok (.domain name) := by
  rw [parseName_of_isNameChar domain.nonempty domain.plain]
  simp [ofMapped, any_isDenied_of_isNameChar domain.plain, asciiName_eq_self domain.plain, domain.sound,
    domain.nonempty, domain.word]

/-- The mark of a label begins with a letter. -/
theorem isSound_of_not_mem {name : Text} (absent : 'x' ∉ name) : isSound name = true := by
  refine List.all_eq_true.mpr fun label piece => ?_
  cases marked : Text.after? "xn--".toList label with
  | none => rw [isSoundLabel, marked]
  | some form =>
    rw [Text.after?_eq_some_iff] at marked
    have member : 'x' ∈ label := marked ▸ List.mem_cons_self ..
    exact absurd (Text.mem_of_mem_pieces piece 'x' member) absent

end Host

/-! ## IPv4 addresses -/

namespace Ipv4

/-- The bytes of an address, from the left. -/
def bytes (ip : Ipv4) : List Nat :=
  let n := ip.address.toNat
  [n / 16777216, n / 65536 % 256, n / 256 % 256, n % 256]

theorem lt_of_mem_bytes {ip : Ipv4} : ∀ byte ∈ ip.bytes, byte < 256 := by
  have bound := ip.address.toNat_lt
  simp only [bytes, List.forall_mem_cons]
  refine ⟨by omega, by omega, by omega, by omega, ?_⟩
  exact fun byte member => absurd member List.not_mem_nil

theorem part?_toDigits {byte : Nat} (small : byte < 256) : part? (Nat.toDigits 10 byte) = some byte := by
  revert byte
  decide +kernel

/-- The labels of an address are its bytes in decimal digits. -/
theorem labels_text (ip : Ipv4) : labels ip.text = ip.bytes.map (Nat.toDigits 10) := by
  have free : ∀ part ∈ ip.bytes.map (Nat.toDigits 10), '.' ∉ part := by
    intro part member dot
    obtain ⟨byte, -, rfl⟩ := List.mem_map.mp member
    exact Text.forall_mem_toDigits (P := (· ≠ '.')) (by decide) (by decide) byte '.' dot rfl
  have parts : Text.pieces (· == '.') ip.text = ip.bytes.map (Nat.toDigits 10) :=
    Text.pieces_flatten_intersperse (List.cons_ne_nil _ _) free
  have last : (ip.bytes.map (Nat.toDigits 10)).getLast? ≠ some [] := by
    intro same
    obtain ⟨byte, -, none⟩ := List.mem_map.mp (List.mem_of_getLast? same)
    exact Nat.toDigits_ne_nil none
  rw [labels, parts]
  exact if_neg last

theorem mapM_part? {values : List Nat} (small : ∀ value ∈ values, value < 256) :
    (values.map (Nat.toDigits 10)).mapM part? = some values := by
  induction values with
  | nil => rfl
  | cons value rest ih =>
    obtain ⟨here, behind⟩ := List.forall_mem_cons.mp small
    rw [List.map_cons, List.mapM_cons, part?_toDigits here, ih behind]
    rfl

theorem combine?_bytes (ip : Ipv4) : combine? 4 ip.bytes = some ip.address.toNat := by
  have bound := ip.address.toNat_lt
  rw [bytes]
  generalize ip.address.toNat = n at bound ⊢
  have byte : ∀ k, k % 256 < 256 := fun k => Nat.mod_lt k (by decide)
  have first : n / 16777216 < 256 := by omega
  have one : combine? 1 [n % 256] = some (n % 256) := if_pos (byte n)
  have two : combine? 2 [n / 256 % 256, n % 256] = some (n / 256 % 256 * 256 + n % 256) :=
    (if_pos (byte _)).trans (congrArg (Option.map (n / 256 % 256 * 256 + ·)) one)
  have three : combine? 3 [n / 65536 % 256, n / 256 % 256, n % 256] =
      some (n / 65536 % 256 * 65536 + (n / 256 % 256 * 256 + n % 256)) :=
    (if_pos (byte _)).trans (congrArg (Option.map (n / 65536 % 256 * 65536 + ·)) two)
  have four : combine? 4 [n / 16777216, n / 65536 % 256, n / 256 % 256, n % 256] =
      some (n / 16777216 * 16777216 + (n / 65536 % 256 * 65536 + (n / 256 % 256 * 256 + n % 256))) :=
    (if_pos first).trans (congrArg (Option.map (n / 16777216 * 16777216 + ·)) three)
  have whole : n / 16777216 * 16777216 + (n / 65536 % 256 * 65536 + (n / 256 % 256 * 256 + n % 256)) = n := by
    omega
  exact four.trans (congrArg some whole)

/-- An address is read back from its text. -/
theorem parse?_text (ip : Ipv4) : parse? ip.text = some ip := by
  have few : (ip.bytes.map (Nat.toDigits 10)).length ≤ 4 := Nat.le_refl 4
  rw [parse?, labels_text, if_pos few, mapM_part? lt_of_mem_bytes, Option.bind_eq_bind, Option.bind_some,
    combine?_bytes]
  change some (Ipv4.mk (.ofNat ip.address.toNat)) = some ip
  rw [UInt32.ofNat_toNat]

theorem endsInNumber_text (ip : Ipv4) : endsInNumber ip.text = true := by
  have last : (ip.bytes.map (Nat.toDigits 10)).getLast? = some (Nat.toDigits 10 (ip.address.toNat % 256)) := rfl
  simp only [endsInNumber, labels_text, last]
  rw [part?_toDigits (Nat.mod_lt _ (by decide)), Option.isSome_some, Bool.or_true]

end Ipv4

/-! ## IPv6 addresses -/

namespace Ipv6

/-- Lower case hexadecimal digits are read as the number that they were written for. -/
theorem foldlM_toDigits (n : Nat) :
    (Nat.toDigits 16 n).foldlM (fun value c => (Percent.digit? c).map (value * 16 + ·)) 0 = some n := by
  have digit : ∀ k < 16, Percent.digit? k.digitChar = some k := by decide
  induction n using Nat.strongRecOn with
  | ind n ih =>
    rw [Nat.toDigits_eq_if (by decide)]
    split
    · next small => simp [List.foldlM_cons, digit n small]
    · have smaller : n / 16 < n := by omega
      have last : n % 16 < 16 := Nat.mod_lt n (by decide)
      rw [List.foldlM_append, ih _ smaller]
      simp only [List.foldlM_cons, List.foldlM_nil, digit _ last, Option.bind_eq_bind, Option.bind_some,
        Option.map_some, Option.pure_def, Option.some.injEq]
      omega

theorem group?_toDigits (group : UInt16) : group? (Nat.toDigits 16 group.toNat) = some group := by
  have short : (Nat.toDigits 16 group.toNat).length ≤ 4 :=
    (Nat.length_toDigits_le_iff (by decide) (by decide)).mpr group.toNat_lt
  have written : ¬(Nat.toDigits 16 group.toNat = [] ∨ 4 < (Nat.toDigits 16 group.toNat).length) := by
    rintro (none | long)
    · exact Nat.toDigits_ne_nil none
    · omega
  rw [group?, if_neg written, foldlM_toDigits, Option.map_some, UInt16.ofNat_toNat]

theorem not_mem_toDigits {mark : Char} (other : ∀ k < 16, k.digitChar ≠ mark) (n : Nat) :
    mark ∉ Nat.toDigits 16 n :=
  fun member => Text.forall_mem_toDigits (P := (· ≠ mark)) (by decide) other n mark member rfl

theorem groups?_toDigits (mayEndDotted : Bool) (groups : List UInt16) :
    groups? mayEndDotted (groups.map fun group => Nat.toDigits 16 group.toNat) = some groups := by
  induction groups with
  | nil => rfl
  | cons group rest ih =>
    cases rest with
    | nil =>
      have dotless : (Nat.toDigits 16 group.toNat).contains '.' = false := by
        rw [List.contains_eq_mem, decide_eq_false_iff_not]
        exact not_mem_toDigits (by decide) _
      simp only [List.map_cons, List.map_nil, groups?, dotless, Bool.and_false, group?_toDigits]
      rfl
    | cons second rest =>
      rw [List.map_cons] at ih ⊢
      rw [List.map_cons, groups?, group?_toDigits, ih]
      · rfl
      · exact fun none => by cases none

/-! ### Groups joined by colons -/

theorem pieces_joined {groups : List UInt16} (nonempty : groups ≠ []) :
    Text.pieces (· == ':') (joined groups) = groups.map fun group => Nat.toDigits 16 group.toNat := by
  apply Text.pieces_flatten_intersperse
  · exact fun none => nonempty (List.map_eq_nil_iff.mp none)
  · intro part member
    obtain ⟨group, -, rfl⟩ := List.mem_map.mp member
    exact not_mem_toDigits (by decide) _

theorem joined_cons_cons (first second : UInt16) (rest : List UInt16) :
    joined (first :: second :: rest) = Nat.toDigits 16 first.toNat ++ ':' :: joined (second :: rest) := rfl

/-- Groups begin with a digit. -/
theorem exists_joined_cons (group : UInt16) (rest : List UInt16) :
    ∃ c others, joined (group :: rest) = c :: others ∧ c ≠ ':' := by
  obtain ⟨c, digits, written⟩ := List.exists_cons_of_ne_nil (Nat.toDigits_ne_nil (n := group.toNat) (b := 16))
  have differs : c ≠ ':' := by
    rintro rfl
    have absent : ':' ∉ Nat.toDigits 16 group.toNat := not_mem_toDigits (by decide) _
    rw [written] at absent
    exact absent (List.mem_cons_self ..)
  cases rest with
  | nil =>
    refine ⟨c, digits, ?_, differs⟩
    rw [← written]
    exact List.append_nil _
  | cons second rest =>
    rw [joined_cons_cons, written]
    exact ⟨c, _, rfl, differs⟩

theorem side?_joined (mayEndDotted : Bool) (groups : List UInt16) :
    side? mayEndDotted (joined groups) = some groups := by
  cases groups with
  | nil => rfl
  | cons group rest =>
    have nonempty : joined (group :: rest) ≠ [] := by
      obtain ⟨c, others, shape, -⟩ := exists_joined_cons group rest
      rw [shape]
      exact List.cons_ne_nil c others
    rw [side?, if_neg nonempty, pieces_joined (List.cons_ne_nil group rest), groups?_toDigits]

theorem gap?_cons {c : Char} {rest : Text} (noGap : c ≠ ':' ∨ rest.head? ≠ some ':') :
    gap? (c :: rest) = (gap? rest).map fun (before, behind) => (c :: before, behind) := by
  rw [gap?]
  rintro others rfl rfl
  rcases noGap with differs | differs <;> exact differs rfl

theorem gap?_append_of_not_mem {front : Text} (free : ':' ∉ front) (rest : Text) :
    gap? (front ++ rest) = (gap? rest).map fun (before, behind) => (front ++ before, behind) := by
  induction front with
  | nil => exact Option.map_id'.symm
  | cons c front ih =>
    rw [List.mem_cons, not_or] at free
    rw [List.cons_append, gap?_cons (.inl (Ne.symm free.1)), ih free.2, Option.map_map]
    rfl

/-- Groups have no gap between them. -/
theorem gap?_joined_append (groups : List UInt16) (rest : Text) :
    gap? (joined groups ++ rest) = (gap? rest).map fun (before, behind) => (joined groups ++ before, behind) := by
  induction groups with
  | nil => exact Option.map_id'.symm
  | cons group groups ih =>
    have free : ':' ∉ Nat.toDigits 16 group.toNat := not_mem_toDigits (by decide) _
    cases groups with
    | nil =>
      have alone : joined [group] = Nat.toDigits 16 group.toNat := List.append_nil _
      rw [alone]
      exact gap?_append_of_not_mem free rest
    | cons second others =>
      have digit : (joined (second :: others) ++ rest).head? ≠ some ':' := by
        obtain ⟨c, digits, shape, differs⟩ := exists_joined_cons second others
        rw [shape]
        exact fun same => differs (Option.some.inj same)
      rw [joined_cons_cons, List.append_assoc, List.cons_append, gap?_append_of_not_mem free,
        gap?_cons (.inr digit), ih, Option.map_map, Option.map_map]
      simp only [Function.comp_def, List.append_assoc, List.cons_append]

/-! ### Runs of zeros -/

theorem eq_replicate_append (groups : List UInt16) :
    groups = List.replicate (zeros groups) 0 ++ groups.dropWhile (· == 0) := by
  have run : groups.takeWhile (· == 0) = List.replicate (zeros groups) 0 := by
    refine List.eq_replicate_iff.mpr ⟨rfl, fun group member => ?_⟩
    have zero := List.mem_takeWhile_imp member
    rwa [beq_iff_eq] at zero
  rw [← run, List.takeWhile_append_dropWhile]

/-- The longest run is a run of zeros that stands where it says. -/
theorem exists_of_longestRun {start : Nat} {groups : List UInt16} {at' length : Nat}
    (run : longestRun start groups = (at', length)) :
    ∃ front back, groups = front ++ List.replicate length 0 ++ back ∧ at' = start + front.length := by
  induction groups generalizing start with
  | nil =>
    cases run
    exact ⟨[], [], rfl, rfl⟩
  | cons group rest ih =>
    rw [longestRun] at run
    split at run
    · cases run
      exact ⟨[], _, eq_replicate_append (group :: rest), rfl⟩
    · obtain ⟨front, back, shape, place⟩ := ih run
      refine ⟨group :: front, back, ?_, ?_⟩
      · rw [shape]
        rfl
      · rw [place, List.length_cons]
        omega

/-! ### Both ways of writing -/

theorem allGroups?_joined {groups : List UInt16} (nonempty : groups ≠ []) :
    allGroups? (joined groups) = some groups := by
  have whole := gap?_joined_append groups []
  rw [List.append_nil] at whole
  rw [allGroups?, whole]
  change groups? true (Text.pieces (· == ':') (joined groups)) = some groups
  rw [pieces_joined nonempty, groups?_toDigits]

/-- The gap stands for as many zeros as are missing. -/
theorem allGroups?_gap {front back : List UInt16} (short : front.length + back.length < 8) :
    allGroups? (joined front ++ "::".toList ++ joined back) =
      some (front ++ List.replicate (8 - (front.length + back.length)) 0 ++ back) := by
  have gap : gap? (joined front ++ "::".toList ++ joined back) = some (joined front, joined back) := by
    rw [List.append_assoc, gap?_joined_append]
    change some (joined front ++ [], joined back) = _
    rw [List.append_nil]
  rw [allGroups?, gap]
  simp only [side?_joined, Option.bind_eq_bind, Option.bind_some]
  exact if_pos short

/-- The groups of an address are read back from its text. -/
theorem allGroups?_text (ip : Ipv6) : allGroups? ip.text = some ip.groups := by
  have complete := ip.complete
  rw [text]
  split
  next at' length run =>
  obtain ⟨front, back, shape, place⟩ := exists_of_longestRun run
  rw [Nat.zero_add] at place
  split
  -- A run of one zero at most is written out, and a longer one is the gap.
  · apply allGroups?_joined
    exact fun none => by rw [none] at complete; cases complete
  · next long =>
    have before : ip.groups.take at' = front := by
      rw [shape, place, List.append_assoc, List.take_left]
    have behind : ip.groups.drop (at' + length) = back := by
      have end' : at' + length = (front ++ List.replicate length 0).length := by
        rw [place, List.length_append, List.length_replicate]
      rw [end', shape, List.drop_left]
    have count : front.length + length + back.length = 8 := by
      rw [shape, List.length_append, List.length_append, List.length_replicate] at complete
      exact complete
    have missing : 8 - (front.length + back.length) = length := by omega
    rw [before, behind, allGroups?_gap (by omega), missing, shape]

/-- An address is read back from its text. -/
theorem parse?_text (ip : Ipv6) : parse? ip.text = some ip := by
  rw [parse?, allGroups?_text]
  exact dif_pos ip.complete

end Ipv6

/-! ## Hosts -/

namespace Host

theorem parseName_ipv6 (ip : Ipv6) : parseName (ipv6 ip).text = .ok (ipv6 ip) := by
  have last : (ip.text ++ [']']).getLast? = some ']' := List.getLast?_concat
  have front : (ip.text ++ [']']).dropLast = ip.text := List.dropLast_concat
  change bracketed (ip.text ++ [']']) = .ok (ipv6 ip)
  rw [bracketed, last]
  simp only [front, ip.parse?_text]

theorem parseName_ipv4 (ip : Ipv4) : parseName (ipv4 ip).text = .ok (ipv4 ip) := by
  have plain : ∀ c ∈ ip.text, IsNameChar c := ip.forall_mem_text (by decide) (by decide)
  have unmarked : 'x' ∉ ip.text := fun member =>
    ip.forall_mem_text (P := (· ≠ 'x')) (by decide) (by decide) 'x' member rfl
  have nonempty : ip.text ≠ [] := by
    intro none
    have ends := ip.endsInNumber_text
    rw [none] at ends
    cases ends
  change parseName ip.text = .ok (ipv4 ip)
  rw [parseName_of_isNameChar nonempty plain]
  simp [ofMapped, any_isDenied_of_isNameChar plain, asciiName_eq_self plain, isSound_of_not_mem unmarked, nonempty,
    ip.endsInNumber_text, ip.parse?_text]

/-- A host is read back from its text. -/
theorem parseName_text {written : Text} {host : Host} (read : parseName written = .ok host) :
    parseName host.text = .ok host := by
  obtain ⟨ip, rfl⟩ | ⟨ip, rfl⟩ | ⟨name, rfl, domain⟩ := parseName_cases read
  · exact parseName_ipv6 ip
  · exact parseName_ipv4 ip
  · exact domain.parseName_eq

example : parseName "Ä.de".toList = .ok (.domain "xn--4ca.de".toList) ∧
    parseName "xn--4ca.de".toList = .ok (.domain "xn--4ca.de".toList) ∧
    parseName "xn--a".toList = .error .domainName := by
  decide +kernel

/-- The host of a `file` URL is read back from its text. -/
theorem parseFile_text {written : Text} {host : Host} (read : parseFile written = .ok host) :
    parseFile host.text = .ok host := by
  rw [parseFile] at read
  split at read
  · cases read
    rfl
  split at read
  · next named name =>
    split at read
    · cases read
      rfl
    · next other =>
      cases read
      have again := parseName_text name
      have nonempty : host.text ≠ [] := by
        intro none
        rw [none] at again
        cases again
      rw [parseFile, if_neg nonempty, again]
      dsimp only
      rw [if_neg other]
  · cases read

end Host

end Url

end FileLocator
