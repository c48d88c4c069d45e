import FileLocator.Locator.Algebra
import FileLocator.Locator.OfPath
import FileLocator.Proofs.Url.BrokenDrive
import FileLocator.Proofs.Url.Href

/-! # Locators are read as they are written

Reading a locator succeeds exactly when its text is a URL, and keeps the text up to cleaning and the case
of the scheme. The URL is that of the cleaned text, so it is the URL of the text itself unless a break cuts
off a drive letter there. The text of a locator is neat and begins with its scheme, so a locator is read
back from its text, whichever operations it comes from.
-/

namespace FileLocator.Locator

open Text (clean isEdgeBlank Neat)

/-! ## The text that is kept -/

/-- The cleaned text of a URL is the name of its scheme, a colon and the rest. -/
theorem clean_of_parse {written : Text} {url : Url} (read : Url.parse (clean written) = .ok url) :
    ∃ name rest, clean written = name ++ ':' :: rest ∧ ':' ∉ name ∧ Url.Scheme.IsName name ∧
      url.scheme = name.map Char.toLower := by
  obtain ⟨rest, found, -⟩ := Url.parse_eq_ok read
  have neat : Neat (clean written) := Text.neat_clean written
  rw [Text.trim_eq_self neat.head neat.last] at found
  obtain ⟨name, shape, colon, valid, scheme⟩ := Url.Scheme.split?_eq_some found
  have whole : Text.unbroken name = name := by
    rw [Text.unbroken_eq_self_iff]
    intro c member
    exact neat.stays c (by simp [shape, member])
  rw [whole] at valid scheme
  exact ⟨name, rest, shape, colon, valid, scheme⟩

/-- A name is kept in lower case, and what stands behind it as it is. -/
theorem keep_append {name behind : Text} {url : Url} (scheme : url.scheme = name.map Char.toLower) :
    keep (name ++ behind) url = url.scheme ++ behind := by
  have length : url.scheme.length = name.length := by rw [scheme, List.length_map]
  rw [keep, if_pos (by rw [length, List.length_append]; omega), length, List.drop_left]

theorem parse_eq_ok_iff {written : Text} {locator : Locator} :
    parse written = .ok locator ↔
      Url.parse (clean written) = .ok locator.url ∧ locator.text = keep (clean written) locator.url := by
  rw [parse]
  constructor
  · intro read
    split at read
    · next url found =>
      cases read
      exact ⟨found, rfl⟩
    · cases read
  · rintro ⟨found, text⟩
    rw [found]
    cases locator
    exact congrArg Except.ok (congrArg (Locator.mk · _) text.symm)

/-- Only the cleaned text matters to reading. -/
theorem parse_eq_ok_congr {written written' : Text} (same : Text.clean written = Text.clean written')
    {locator : Locator} : parse written = .ok locator ↔ parse written' = .ok locator := by
  rw [parse_eq_ok_iff, parse_eq_ok_iff, same]

/-- How a locator is written, once it has been read. -/
theorem text_of_parse {written : Text} {locator : Locator} (read : parse written = .ok locator) :
    ∃ name rest, clean written = name ++ ':' :: rest ∧ ':' ∉ name ∧ Url.Scheme.IsName name ∧
      locator.scheme = name.map Char.toLower ∧ locator.text = locator.scheme ++ ':' :: rest := by
  obtain ⟨found, text⟩ := parse_eq_ok_iff.mp read
  obtain ⟨name, rest, shape, colon, valid, scheme⟩ := clean_of_parse found
  rw [shape, keep_append scheme] at text
  exact ⟨name, rest, shape, colon, valid, scheme, text⟩

/-- Lower case in the name of the scheme keeps text neat. -/
theorem neat_of_parse {written : Text} {locator : Locator} (read : parse written = .ok locator) :
    Neat locator.text := by
  obtain ⟨name, rest, shape, -, valid, scheme, text⟩ := text_of_parse read
  have neat : Neat (clean written) := Text.neat_clean written
  have proper : Url.Scheme.IsProper locator.scheme := by
    rw [scheme]
    exact valid.isProper_map_toLower
  rw [shape] at neat
  rw [text]
  refine { stays := ?_, head := ?_, last := ?_ }
  · intro c member
    rcases List.mem_append.mp member with front | behind
    · exact Text.isBreak_eq_false_of_solid (proper.isSolid c front)
    · exact neat.stays c (List.mem_append_right _ behind)
  · obtain ⟨first, others, letters, -⟩ := proper.letter
    have solid := proper.isSolid
    rw [letters] at solid ⊢
    intro c same
    rw [← Option.some.inj same]
    exact solid first (List.mem_cons_self ..)
  · intro c final
    apply neat.last
    rw [List.getLast?_append_cons] at final ⊢
    exact final

/-! ## Reading again -/

/-- The scheme of a written URL may be put into lower case before it is read. -/
theorem parse_map_toLower {name rest : Text} (valid : Url.Scheme.IsName name)
    (neat : Neat (name ++ ':' :: rest))
    (lower : Neat (name.map Char.toLower ++ ':' :: rest)) :
    Url.parse (name.map Char.toLower ++ ':' :: rest) = Url.parse (name ++ ':' :: rest) := by
  have proper : Url.Scheme.IsProper (name.map Char.toLower) := valid.isProper_map_toLower
  rw [Url.parse_eq, Url.parse_eq, Text.trim_eq_self neat.head neat.last,
    Text.trim_eq_self lower.head lower.last, Url.Scheme.split?_of_isName valid,
    Url.Scheme.split?_of_isName proper.toIsName, proper.lower]

/-- A locator that has been read is read back from its text. -/
theorem parse_text_of_parse {written : Text} {locator : Locator} (read : parse written = .ok locator) :
    parse locator.text = .ok locator := by
  obtain ⟨found, -⟩ := parse_eq_ok_iff.mp read
  obtain ⟨name, rest, shape, -, valid, scheme, text⟩ := text_of_parse read
  have neat : Neat locator.text := neat_of_parse read
  have before : Neat (clean written) := Text.neat_clean written
  rw [parse_eq_ok_iff, Text.clean_eq_self neat]
  rw [shape] at found before
  rw [text, scheme] at neat ⊢
  constructor
  · rw [parse_map_toLower valid before neat]
    exact found
  · have proper : Url.Scheme.IsProper (name.map Char.toLower) := valid.isProper_map_toLower
    rw [keep_append (by rw [proper.lower]; exact scheme)]
    exact congrArg (· ++ ':' :: rest) scheme.symm

/-- A URL that is read back from its normal form is a locator in that form. -/
theorem parse_text_ofUrl {url : Url} (again : Url.parse url.href = .ok url) :
    parse (ofUrl url).text = .ok (ofUrl url) := by
  have neat : Neat url.href := Url.neat_href again
  have proper : Url.Scheme.IsProper url.scheme := Url.isProper_of_parse again
  rw [parse_eq_ok_iff]
  change Url.parse (clean url.href) = .ok url ∧ url.href = keep (clean url.href) url
  rw [Text.clean_eq_self neat]
  refine ⟨again, ?_⟩
  rw [Url.href_eq, keep_append proper.lower.symm]

/-! ## Locators that come up -/

/-- What the operations lead to, from any text and path and from the URLs that are `given`. -/
inductive Reachable (given : Url → Prop) : Locator → Prop
  | parse {written : Text} {locator : Locator} (read : Locator.parse written = .ok locator) :
      Reachable given locator
  | changeExtension {source target : Locator} {extension : Text} (reachable : Reachable given source)
      (read : source.changeExtension extension = .ok target) : Reachable given target
  | extend {source target : Locator} {segment : Option Text} (reachable : Reachable given source)
      (read : Locator.extend (some source) segment = .ok target) : Reachable given target
  | parent {source target : Locator} (reachable : Reachable given source) (read : source.parent = .ok target) :
      Reachable given target
  | ofPath {path : Path} {probe : Probe} {workingDirectory : Option Path} {locator : Locator}
      (read : (path.toLocator probe workingDirectory).value = .converted locator) : Reachable given locator
  | ofUrl {url : Url} (known : given url) : Reachable given (ofUrl url)

theorem exists_parse_of_extend {source target : Locator} {segment : Option Text}
    (read : extend (some source) segment = .ok target) : ∃ written, parse written = .ok target := by
  cases segment with
  | none => cases read
  | some segment => exact ⟨_, read⟩

theorem exists_parse_of_parent {source target : Locator} (read : source.parent = .ok target) :
    ∃ written, parse written = .ok target := by
  rw [parent] at read
  split at read
  · exact ⟨_, read⟩
  · cases read

theorem exists_parse_of_toLocator {path : Path} {probe : Probe} {workingDirectory : Option Path}
    {locator : Locator} (read : (path.toLocator probe workingDirectory).value = .converted locator) :
    ∃ written, parse written = .ok locator := by
  rw [Path.toLocator] at read
  split at read
  · cases read
  · rw [Traced.value_bind] at read
    split at read
    · split at read
      · next found =>
        cases read
        exact ⟨_, found⟩
      · cases read
    · cases read

/-- Every locator has been read, or it is a given URL in its normal form. -/
theorem Reachable.origin {given : Url → Prop} {locator : Locator} (reachable : Reachable given locator) :
    (∃ written, Locator.parse written = .ok locator) ∨ ∃ url, given url ∧ locator = Locator.ofUrl url := by
  cases reachable with
  | parse read => exact .inl ⟨_, read⟩
  | changeExtension _ read => exact .inl ⟨_, read⟩
  | extend _ read => exact .inl (exists_parse_of_extend read)
  | parent _ read => exact .inl (exists_parse_of_parent read)
  | ofPath read => exact .inl (exists_parse_of_toLocator read)
  | ofUrl known => exact .inr ⟨_, known, rfl⟩

theorem parse_text_of_reachable {locator : Locator}
    (reachable : Reachable (fun url => Url.parse url.href = .ok url) locator) :
    parse locator.text = .ok locator := by
  rcases reachable.origin with ⟨written, read⟩ | ⟨url, again, rfl⟩
  · exact parse_text_of_parse read
  · exact parse_text_ofUrl again

/-! ## The whole of it -/

/-- What a locator has to do with the text it was read from and with the URL of that text. -/
structure Renders (written : Text) (seen : Url) (locator : Locator) : Prop where
  /-- The URL is the same one unless a break cuts off a drive letter. -/
  url : locator.url = seen ↔ Url.breaksDrive written = false
  /-- Even then no more than the host and the path is different. -/
  others : locator.url.scheme = seen.scheme ∧ locator.url.query = seen.query ∧
    locator.url.fragment = seen.fragment
  text : ∃ name rest, clean written = name ++ ':' :: rest ∧ ':' ∉ name ∧ Url.Scheme.IsName name ∧
    locator.scheme = name.map Char.toLower ∧ locator.text = locator.scheme ++ ':' :: rest
  /-- The text never gives way to the normal form for being shorter than the scheme. -/
  covers : locator.scheme.length ≤ (clean written).length
  head : ∀ c ∈ locator.text.head?, isEdgeBlank c = false
  last : ∀ c ∈ locator.text.getLast?, isEdgeBlank c = false

theorem renders_of_parse {written : Text} {locator : Locator} (read : parse written = .ok locator) :
    ∃ seen, Url.parse written = .ok seen ∧ Renders written seen locator := by
  obtain ⟨found, -⟩ := parse_eq_ok_iff.mp read
  obtain ⟨seen, direct, scheme, query, fragment⟩ := Url.parse_of_parse_clean found
  obtain ⟨name, rest, shape, colon, valid, lower, text⟩ := text_of_parse read
  have neat : Neat locator.text := neat_of_parse read
  refine ⟨seen, direct, ?_⟩
  refine
    { url := ?_
      others := ⟨scheme.symm, query.symm, fragment.symm⟩
      text := ⟨name, rest, shape, colon, valid, lower, text⟩
      covers := ?_
      head := neat.head
      last := neat.last }
  · rw [← Url.parse_clean_iff, found, direct, Except.ok.injEq]
  · rw [shape, lower, List.length_map, List.length_append]
    exact Nat.le_add_right ..

/-- Reading is faithful, and every locator that comes up is read back from its text. -/
theorem parse_faithful :
    (∀ written : Text,
      match Url.parse written with
      | .error fault => parse written = .error (.invalid written (.url fault))
      | .ok seen => ∃ locator, parse written = .ok locator ∧ Renders written seen locator) ∧
    ∀ locator, Reachable (fun url => Url.parse url.href = .ok url) locator →
      parse locator.text = .ok locator := by
  refine ⟨?_, fun locator => parse_text_of_reachable⟩
  intro written
  split
  · next fault failed =>
    rw [parse, Url.parse_clean_eq_error_iff.mpr failed]
  · next seen direct =>
    cases read : parse written with
    | error error =>
      rw [parse] at read
      split at read
      · cases read
      · next fault failed =>
        rw [Url.parse_clean_eq_error_iff.mp failed] at direct
        cases direct
    | ok locator =>
      obtain ⟨other, direct', renders⟩ := renders_of_parse read
      rw [direct] at direct'
      rw [← Except.ok.inj direct'] at renders
      exact ⟨locator, rfl, renders⟩

theorem parse_faithful_file : ∃ locator, parse " FILE:/a%20b\t".toList = .ok locator ∧
    locator.text = "file:/a%20b".toList ∧ parse locator.text = .ok locator := by
  refine ⟨_, rfl, rfl, ?_⟩
  have read : parse " FILE:/a%20b\t".toList = .ok _ := rfl
  exact parse_faithful.2 _ (.parse read)

/-- A break behind a drive letter makes two segments of what is one segment in the cleaned text. -/
theorem parse_url_ne_of_break : ∃ locator seen,
    parse "file:/C:\tx".toList = .ok locator ∧ Url.parse "file:/C:\tx".toList = .ok seen ∧
      locator.path = "/C:x".toList ∧ seen.path = "/C:/x".toList ∧ locator.url ≠ seen :=
  ⟨_, _, rfl, rfl, rfl, rfl, by decide +kernel⟩

end FileLocator.Locator
