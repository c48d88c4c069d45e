import FileLocator.Proofs.Locator.Share
import FileLocator.Proofs.Url.File

/-! # Percent signs in paths

Where a slash stands behind `file:`, as it is or escaped, the text is decoded, so a percent sign in the path is one
that was escaped. Elsewhere the path is that of the URL, in which everything but the escape of the space is left as
it is, also escapes that reading the URL has put there. So a path holds a percent sign in two cases
(`toPath_sign_iff`).
-/

namespace FileLocator

/-! ## Marks in bytes and in native paths -/

theorem Utf8.mem_encode_iff {text : Text} {c : Char} (ascii : c.toNat < 0x80) :
    UInt8.ofNat c.toNat ∈ encode text ↔ c ∈ text := by
  have byte : (UInt8.ofNat c.toNat).toNat = c.toNat := toNat_ofNat_of_lt (by omega)
  constructor
  · intro member
    have present := mem_of_mem_encode member (by omega)
    rwa [byte, Char.ofNat_toNat] at present
  · intro member
    refine List.mem_flatMap.mpr ⟨c, member, ?_⟩
    rw [encodeChar_ascii ascii]
    exact List.mem_singleton.mpr rfl

theorem Platform.mem_backslashed_iff {mark : Char} (slash : mark ≠ '/') (backslash : mark ≠ '\\') {raw : Text} :
    mark ∈ backslashed raw ↔ mark ∈ raw := by
  have mapped : (mark ∈ raw.map fun c => if c = '/' then '\\' else c) ↔ mark ∈ raw := by
    rw [List.mem_map]
    constructor
    · rintro ⟨c, member, same⟩
      split at same
      · exact absurd same.symm backslash
      · rwa [← same]
    · exact fun member => ⟨mark, member, if_neg slash⟩
  rw [← mapped, backslashed]
  split
  · next letter rest shape =>
    rw [shape]
    split
    · simp [backslash]
    · rfl
  · rfl

theorem Platform.sign_mem_nativePath_iff (platform : Platform) {raw : Text} :
    0x25 ∈ (platform.nativePath raw).bytes ↔ '%' ∈ raw := by
  have ascii : '%'.toNat < 0x80 := by decide
  cases platform with
  | windows => exact (Utf8.mem_encode_iff ascii).trans (mem_backslashed_iff (by decide) (by decide))
  | other => exact Utf8.mem_encode_iff ascii

namespace Percent

theorem escaped?_eq_sign_iff {high low : Char} : escaped? high low = some 0x25 ↔ high = '2' ∧ low = '5' := by
  constructor
  · intro digits
    obtain ⟨top, bottom⟩ := digits_of_escaped? digits
    exact ⟨eq_digit_of_digit? top (by decide), eq_digit_of_digit? bottom (by decide)⟩
  · rintro ⟨rfl, rfl⟩
    rfl

theorem escapedSign_infix_cons_iff {c : Char} (other : c ≠ '%') {rest : Text} :
    "%25".toList <:+: c :: rest ↔ "%25".toList <:+: rest := by
  rw [List.infix_cons_iff]
  refine or_iff_right ?_
  intro lead
  exact other (List.cons_prefix_cons.mp lead).1.symm

/-- Where every sign starts an escape, the sign itself is named by its own escape alone. -/
theorem sign_mem_unescape_iff {text : Text} (formed : malformedAt? text = none) :
    0x25 ∈ unescape text ↔ "%25".toList <:+: text := by
  rw [malformedAt?] at formed
  induction text using escape_induction with
  | nil => decide
  | escape high low b rest digits ih =>
    rw [malformedFrom?_escape digits, malformedFrom?_eq_none_iff] at formed
    obtain ⟨⟨top, first⟩, ⟨bottom, second⟩⟩ := exists_digit?_of_escaped? digits
    -- A digit is no sign, so the escape of the sign stands here as a whole or in the rest as a whole.
    have other : ∀ {c n}, digit? c = some n → c ≠ '%' := by
      rintro c n value rfl
      cases value
    have here : (0x25 : UInt8) = b ↔ "%25".toList <+: '%' :: high :: low :: rest := by
      rw [eq_comm, ← Option.some.injEq, ← digits, escaped?_eq_sign_iff]
      simp [eq_comm]
    rw [unescape_escape digits, List.mem_cons, ih formed, here, List.infix_cons_iff,
      escapedSign_infix_cons_iff (other first), escapedSign_infix_cons_iff (other second)]
  | sign rest lone ih =>
    rw [malformedFrom?_sign lone] at formed
    cases formed
  | plain c rest other ih =>
    rw [malformedFrom?_cons_of_ne other, malformedFrom?_eq_none_iff] at formed
    have absent : 0x25 ∉ Utf8.encodeChar c := by
      intro member
      have single : 0x25 ∈ Utf8.encode [c] := by
        rw [Utf8.encode_cons]
        exact List.mem_append_left _ member
      have present := Utf8.mem_of_mem_encode single (by decide)
      exact other (List.mem_singleton.mp present).symm
    rw [unescape_cons_of_ne other, List.mem_append, ih formed, escapedSign_infix_cons_iff other]
    exact or_iff_right absent

theorem sign_mem_iff_of_decode {text decoded : Text} (read : decode text = .ok decoded) :
    '%' ∈ decoded ↔ "%25".toList <:+: text := by
  have ascii : '%'.toNat < 0x80 := by decide
  obtain ⟨formed, bytes⟩ := decode_eq_ok_iff.mp read
  rw [← sign_mem_unescape_iff formed, bytes]
  exact (Utf8.mem_encode_iff ascii).symm

end Percent

namespace Locator

open Percent (skipSlash?)

/-! ## The way through the text -/

/-- A slash stands directly behind `file:`, as it is or escaped. -/
def WritesSlash (text : Text) : Prop :=
  ∃ behind rest, text = "file:".toList ++ behind ∧ skipSlash? behind = some rest

theorem Reachable.writesSlash_iff {locator : Locator}
    (reachable : Reachable (fun url => Url.Scheme.IsProper url.scheme) locator) (file : locator.isFile = true)
    {text : Text} (read : locator.decoded = .ok text) :
    WritesSlash locator.beforeQuery ↔ "file:/".toList <+: text := by
  have plain : '%' ∉ "file:".toList := by decide
  rw [isFile, beq_iff_eq] at file
  obtain ⟨behind, before⟩ := reachable.beforeQuery_eq
  rw [file] at before
  change locator.beforeQuery = "file:".toList ++ behind at before
  rw [decoded_eq_ok_iff, before, Percent.decode_append_of_not_mem plain] at read
  obtain ⟨others, rfl, inner⟩ := read
  constructor
  · rintro ⟨behind', rest, same, skipped⟩
    rw [before] at same
    rw [← List.append_cancel_left same] at skipped
    obtain ⟨more, rfl, -⟩ := (Percent.decode_of_skipSlash? skipped).mp inner
    exact ⟨more, rfl⟩
  · rintro ⟨more, same⟩
    have shape : "file:".toList ++ '/' :: more = "file:".toList ++ others := same
    rw [← List.append_cancel_left shape] at inner
    obtain ⟨rest, skipped, -⟩ := Percent.isSome_skipSlash?_of_decode inner
    exact ⟨behind, rest, before, skipped⟩

theorem value_shareOrDrive (probe : Probe) (rest : Text) :
    (shareOrDrive probe rest).value = rest ∨ (shareOrDrive probe rest).value = "//".toList ++ rest := by
  by_cases solid : rest = [] ∨ rest.head? = some '/'
  · rw [shareOrDrive, if_pos solid]
    exact .inl rfl
  · rw [shareOrDrive_of_solid probe solid]
    dsimp only
    split
    · exact .inr rfl
    · exact .inl rfl

/-- Nothing but slashes and the scheme are taken off decoded text or put in front of it. -/
theorem sign_mem_rawPath_iff (locator : Locator) (platform : Platform) (probe : Probe) {text : Text}
    (root : "file:/".toList <+: text) :
    '%' ∈ (locator.rawPath platform probe text).value ↔ '%' ∈ text := by
  obtain ⟨rest, rfl⟩ := root
  cases lead : Text.after? "file://".toList ("file:/".toList ++ rest) with
  | none =>
    rw [rawPath, lead, Text.after?_append]
    simp
  | some more =>
    rw [Text.after?_eq_some_iff] at lead
    rw [lead, rawPath_lead]
    cases platform with
    | windows =>
      change '%' ∈ (shareOrDrive probe more).value ↔ _
      rcases value_shareOrDrive probe more with same | same <;> simp [same]
    | other => simp [Platform.isWindows]

/-! ## The way through the URL -/

/-- A sign that does not begin the escape of the space. -/
def LeavesSign (text : Text) : Prop :=
  ∃ before behind, text = before ++ '%' :: behind ∧ ¬ "20".toList <+: behind

theorem leavesSign_cons_iff {c : Char} {rest : Text} :
    LeavesSign (c :: rest) ↔ (c = '%' ∧ ¬ "20".toList <+: rest) ∨ LeavesSign rest := by
  constructor
  · rintro ⟨before, behind, same, other⟩
    cases before with
    | nil =>
      obtain ⟨rfl, rfl⟩ := List.cons.inj same
      exact .inl ⟨rfl, other⟩
    | cons first before =>
      obtain ⟨rfl, rfl⟩ := List.cons.inj same
      exact .inr ⟨before, behind, rfl, other⟩
  · rintro (⟨rfl, other⟩ | ⟨before, behind, rfl, other⟩)
    · exact ⟨[], rest, rfl, other⟩
    · exact ⟨c :: before, behind, rfl, other⟩

theorem sign_mem_unescapeSpaces_iff {text : Text} : '%' ∈ unescapeSpaces text ↔ LeavesSign text := by
  fun_induction unescapeSpaces text with
  | case1 => simp [LeavesSign]
  | case2 rest ih =>
    rw [leavesSign_cons_iff, leavesSign_cons_iff, leavesSign_cons_iff, ← ih]
    simp
  | case3 c rest other ih =>
    rw [leavesSign_cons_iff, List.mem_cons, ih]
    refine or_congr_left ⟨?_, fun lone => lone.1.symm⟩
    rintro rfl
    refine ⟨rfl, ?_⟩
    rintro ⟨more, rfl⟩
    exact other more rfl rfl

/-- The authority of a `file` URL that was read is its host. -/
theorem authority_of_isFile {locator : Locator} {host : Url.Host} {names : List Text}
    (shape : locator.url.IsFile host names) : locator.authority = host.text :=
  (authority_eq_text shape.authority).trans (Url.text_ofHost host)

/-- Without a slash behind `file:`, no sign stands in the authority. -/
theorem Reachable.not_mem_authority {locator : Locator}
    (reachable : Reachable (fun url => Url.Scheme.IsProper url.scheme) locator) (file : locator.isFile = true)
    (slashless : ¬ WritesSlash locator.beforeQuery) : '%' ∉ locator.authority := by
  rw [isFile, beq_iff_eq] at file
  rcases reachable.origin with ⟨written, read⟩ | ⟨url, -, rfl⟩
  · have known : locator.url.IsRead := ⟨_, (parse_eq_ok_iff.mp read).1⟩
    obtain ⟨host, names, shape⟩ := known.exists_isFile file
    obtain ⟨name, named⟩ := shape.named
    rw [authority_of_isFile shape]
    intro member
    exact absurd (Url.Host.isHostChar_of_parseFile named '%' member) (by decide)
  -- A URL that was not read may have any authority, but then two slashes stand behind `file:`.
  · cases place : url.authority with
    | none => simp [authority, Locator.ofUrl, Url.username, Url.password?, Url.host?, Url.port?, place, Url.marked]
    | some front =>
      have scheme : url.scheme = "file".toList := file
      have lead : "file://".toList <+: (Locator.ofUrl url).text := by
        change _ <+: url.href
        rw [Url.href_eq, scheme, Url.lead, place]
        simp
      obtain ⟨rest, before⟩ := isPrefix_beforeQuery (by decide) lead
      exact absurd ⟨'/' :: '/' :: rest, '/' :: rest, before.symm, rfl⟩ slashless

theorem Reachable.sign_mem_authorityPath_iff {locator : Locator}
    (reachable : Reachable (fun url => Url.Scheme.IsProper url.scheme) locator) (file : locator.isFile = true)
    (slashless : ¬ WritesSlash locator.beforeQuery) :
    '%' ∈ locator.authorityPath ↔ LeavesSign locator.path := by
  have absent := reachable.not_mem_authority file slashless
  rw [← sign_mem_unescapeSpaces_iff, authorityPath]
  split
  · rfl
  · simp [absent]

theorem rawPath_of_not_root (locator : Locator) (platform : Platform) (probe : Probe) {text : Text}
    (otherwise : ¬ "file:/".toList <+: text) : locator.rawPath platform probe text = pure locator.authorityPath := by
  rw [rawPath]
  split
  · next rest lead =>
    rw [Text.after?_eq_some_iff] at lead
    exact absurd ⟨'/' :: rest, lead.symm⟩ otherwise
  · split
    · next rest root =>
      rw [Text.after?_eq_some_iff] at root
      exact absurd ⟨rest, root.symm⟩ otherwise
    · rfl

/-! ## Both ways -/

/-- A path holds a percent sign exactly when its escape stands in a text that is decoded, or when the path of the URL
holds an escape other than that of the space and there is no slash behind `file:`. -/
theorem toPath_sign_iff {locator : Locator}
    (reachable : Reachable (fun url => Url.Scheme.IsProper url.scheme) locator) (file : locator.isFile = true)
    {platform : Platform} {probe : Probe} {path : Path}
    (converted : (locator.toPath platform probe).value = .ok (.converted path)) :
    0x25 ∈ path.bytes ↔
      (WritesSlash locator.beforeQuery ∧ "%25".toList <:+: locator.beforeQuery) ∨
        (¬ WritesSlash locator.beforeQuery ∧ LeavesSign locator.path) := by
  cases read : locator.decoded with
  | error fault =>
    rw [toPath, if_pos file, read] at converted
    cases converted
  | ok text =>
    rw [toPath_of_decoded file read] at converted
    have path' : platform.nativePath (locator.rawPath platform probe text).value = path :=
      PathOutcome.converted.inj (Except.ok.inj converted)
    rw [← path', Platform.sign_mem_nativePath_iff]
    by_cases slash : WritesSlash locator.beforeQuery
    · have root := (reachable.writesSlash_iff file read).mp slash
      rw [sign_mem_rawPath_iff locator platform probe root,
        Percent.sign_mem_iff_of_decode (decoded_eq_ok_iff.mp read)]
      simp [slash]
    · have otherwise := fun root => slash ((reachable.writesSlash_iff file read).mpr root)
      rw [rawPath_of_not_root locator platform probe otherwise, Traced.value_pure,
        reachable.sign_mem_authorityPath_iff file slash]
      simp [slash]

/-- The escape of the space is read, and another one is not. -/
theorem toPath_sign_iff_letter : ∃ locator, parse "file:a%20b%41".toList = .ok locator ∧ locator.isFile = true ∧
    ∀ probe, (locator.toPath .other probe).value = .ok (.converted (.ofText "/a b%41".toList)) ∧
      0x25 ∈ (Path.ofText "/a b%41".toList).bytes := by
  have read : parse "file:a%20b%41".toList = .ok _ := rfl
  refine ⟨_, read, rfl, fun probe => ⟨rfl, ?_⟩⟩
  have slashless : ¬ WritesSlash "file:a%20b%41".toList := by
    rintro ⟨behind, rest, text, skipped⟩
    cases text
    cases skipped
  have leaves : LeavesSign "/a%20b%41".toList := ⟨"/a%20b".toList, "41".toList, rfl, by decide⟩
  exact (@toPath_sign_iff _ (.parse read) rfl .other probe _ rfl).mpr (.inr ⟨slashless, leaves⟩)

/-- Reading the URL escapes a letter outside ASCII, and the path keeps the escapes. -/
theorem toPath_leaves_escapes : ∃ locator, parse "file:é.shp".toList = .ok locator ∧ locator.isFile = true ∧
    ¬ "%25".toList <:+: locator.beforeQuery ∧
    0x25 ∈ (Path.ofText "/%C3%A9.shp".toList).bytes ∧
    ∀ probe, (locator.toPath .other probe).value = .ok (.converted (.ofText "/%C3%A9.shp".toList)) := by
  have absent : ¬ "%25".toList <:+: "file:é.shp".toList := by
    rw [← Text.occurs_iff]
    decide
  exact ⟨_, rfl, rfl, absent, by decide, fun _ => rfl⟩

end Locator

end FileLocator
