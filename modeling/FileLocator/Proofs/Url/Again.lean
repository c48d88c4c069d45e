import FileLocator.Proofs.Url.Announced

/-! # Normal forms can be read

The normal form of a URL that was read can be read again (`IsRead.readable`), though not always as the same URL. If
it has an authority, that one is announced and read back as it was. If it has none, the path does not begin with two
slashes, or `/.` stands in front of it, so that nothing announces one.
-/

namespace FileLocator.Url

open Text (isBreak)

/-! ## Authorities where they stand -/

/-- An authority as the body of a URL of this kind may hold it. -/
def Authority.Stands (kind : Kind) (authority : Authority) : Prop :=
  match kind with
  | .file => ∃ name host, Host.parseFile name = .ok host ∧ authority = ofHost host
  | _ => IsRead kind authority

theorem stands_of_parseAuthorityBody {kind : Kind} (other : kind ≠ .file) {more : Bool} {written : Text}
    {authority : Option Authority} {route : Route}
    (read : parseAuthorityBody kind more written = .ok (authority, route)) :
    ∃ kept names, authority = some kept ∧ kept.Stands kind ∧ route = .segments names := by
  rw [parseAuthorityBody] at read
  dsimp only at read
  split at read
  · cases read
  · next kept left found =>
    obtain ⟨rfl, rfl⟩ := Prod.mk.inj (Except.ok.inj read)
    have parts := Authority.isRead_of_parse found
    refine ⟨kept, _, rfl, ?_, rfl⟩
    cases kind with
    | file => exact absurd rfl other
    | network port => exact parts
    | generic => exact parts

/-- Either an authority stands in front of segments, or the scheme does not ask for one. -/
theorem stands_of_parseBody {kind : Kind} {more : Bool} {written : Text} {authority : Option Authority}
    {route : Route} (read : parseBody kind more written = .ok (authority, route)) :
    (∃ kept names, authority = some kept ∧ kept.Stands kind ∧ route = .segments names) ∨
      authority = none ∧ kind = .generic := by
  cases kind with
  | file =>
    obtain ⟨name, host, names, named, same⟩ := exists_of_parseFileBody read
    obtain ⟨rfl, rfl⟩ := Prod.mk.inj same
    exact .inl ⟨_, names, rfl, ⟨name, host, named, rfl⟩, rfl⟩
  | network port => exact .inl (stands_of_parseAuthorityBody (by simp) read)
  | generic =>
    simp only [parseBody] at read
    split at read
    · exact .inl (stands_of_parseAuthorityBody (by simp) read)
    · split at read
      · cases read
        exact .inr ⟨rfl, rfl⟩
      · cases read
        exact .inr ⟨rfl, rfl⟩

namespace Authority.Stands

variable {kind : Kind} {authority : Authority} (stands : authority.Stands kind)

include stands

theorem isRead (other : kind ≠ .file) : IsRead kind authority := by
  cases kind with
  | file => exact absurd rfl other
  | network port => exact stands
  | generic => exact stands

theorem not_mem_text {mark : Char} (ends : mark ∈ "/\\?#".toList) : mark ∉ authority.text := by
  cases kind with
  | file =>
    obtain ⟨name, host, named, rfl⟩ := stands
    have known : mark = '/' ∨ mark = '\\' ∨ mark = '?' ∨ mark = '#' := by simpa using ends
    have foreign : ¬ Host.IsHostChar mark := by
      rcases known with rfl | rfl | rfl | rfl <;> decide
    rw [text_ofHost]
    exact fun member => foreign (Host.isHostChar_of_parseFile named mark member)
  | network port => exact (stands.isRead (by simp)).not_mem_text ends
  | generic => exact (stands.isRead (by simp)).not_mem_text ends

theorem isSlash_of_mem_text {c : Char} (member : c ∈ authority.text) : kind.isSlash c = false := by
  apply Kind.isSlash_eq_false
  · rintro rfl
    exact stands.not_mem_text (by decide) member
  · rintro rfl
    exact stands.not_mem_text (by decide) member

theorem text_ne_nil (network : kind.defaultPort?.isSome = true) : authority.text ≠ [] := by
  intro silent
  cases kind with
  | file => cases network
  | network port =>
    obtain ⟨written, named⟩ := (stands.isRead (by simp)).host
    have again := parseHost_text named
    rw [text, List.append_eq_nil_iff, List.append_eq_nil_iff] at silent
    rw [silent.1.2] at again
    cases again
  | generic => cases network

/-- Behind two slashes, an authority is announced whatever follows it. -/
theorem announced?_eq (rest : Text) :
    announced? kind ("//".toList ++ (authority.text ++ rest)) = some (authority.text ++ rest) := by
  cases kind with
  | file => rfl
  | network port =>
    have nonempty := stands.text_ne_nil rfl
    obtain ⟨first, others, shape⟩ := List.exists_cons_of_ne_nil nonempty
    have solid : (Kind.network port).isSlash first = false := stands.isSlash_of_mem_text (by simp [shape])
    have drops : ("//".toList ++ (authority.text ++ rest)).dropWhile (Kind.network port).isSlash =
        (authority.text ++ rest).dropWhile (Kind.network port).isSlash := rfl
    rw [announced?, drops, shape, List.cons_append, List.dropWhile_cons_of_neg (by simp [solid])]
  | generic => exact Text.after?_append _ _

/-- An authority is accepted up to the path. -/
theorem accepts (more : Bool) {path : Text} (edge : ∀ c ∈ path.head?, kind.isSlash c = true) :
    Accepts kind more (authority.text ++ path) := by
  have place : (authority.text ++ path).takeWhile (!kind.isSlash ·) = authority.text := by
    rw [Text.takeWhile_append_of_stops, List.takeWhile_eq_self_iff]
    · intro c member
      simp [stands.isSlash_of_mem_text member]
    · intro c first
      simp [edge c first]
  by_cases file : kind = .file
  · subst file
    obtain ⟨name, host, named, rfl⟩ := stands
    simp only [Accepts, place]
    rw [text_ofHost]
    exact .inr ⟨host, Host.parseFile_text named⟩
  · rw [accepts_iff file, place]
    exact ⟨_, (stands.isRead file).parse_text _⟩

end Authority.Stands

/-! ## What stands behind the scheme -/

/-- What a normal form has behind the path begins with a mark or is empty. -/
theorem head?_marks {query fragment : Option Text} {c : Char}
    (first : (marked '?' query ++ marked '#' fragment).head? = some c) : c = '?' ∨ c = '#' := by
  cases query with
  | some asked => exact .inl (Option.some.inj first).symm
  | none =>
    cases fragment with
    | some named => exact .inr (Option.some.inj first).symm
    | none => cases first

theorem bodyText_eq_nil {rest : Text} (mark : ∀ c ∈ rest.head?, c = '?' ∨ c = '#') : bodyText rest = [] := by
  cases rest with
  | nil => rfl
  | cons c rest =>
    have ends : bodyText [c] = [] ∧ ('?' ∈ [c] ∨ '#' ∈ [c]) := by
      rcases mark c rfl with rfl | rfl <;> decide
    rw [← List.singleton_append, bodyText_append_of_mem ends.2]
    exact ends.1

/-- Segments in front of marks begin with a slash or are no part of the body. -/
theorem head?_bodyText_slashed {names : List Text} {marks : Text} (edge : ∀ c ∈ marks.head?, c = '?' ∨ c = '#') :
    ∀ c ∈ (bodyText (Route.slashed names ++ marks)).head?, c = '/' := by
  intro c first
  cases names with
  | nil =>
    change (bodyText marks).head? = some c at first
    rw [bodyText_eq_nil edge] at first
    cases first
  | cons name names =>
    have shape : Route.slashed (name :: names) ++ marks = '/' :: (name ++ Route.slashed names ++ marks) := by
      simp [Route.slashed]
    rw [shape, bodyText_slash] at first
    exact (Option.some.inj first).symm

/-- Without an authority, what stands behind the scheme does not begin with two slashes. -/
theorem after?_lead_eq_none {url : Url} (bare : url.authority = none) {marks : Text}
    (edge : ∀ c ∈ marks.head?, c = '?' ∨ c = '#') :
    Text.after? "//".toList (url.lead ++ (url.path ++ marks)) = none := by
  rw [lead, bare]
  dsimp only
  cases slashes : Text.after? "//".toList url.path with
  | some behind => rfl
  | none =>
    change Text.after? "//".toList (url.path ++ marks) = none
    by_contra lead
    obtain ⟨behind, found⟩ := Option.ne_none_iff_exists'.mp lead
    have shape : url.path ++ marks = '/' :: '/' :: behind := Text.after?_eq_some_iff.mp found
    have foreign : ∀ {rest : Text}, marks ≠ '/' :: rest := by
      rintro rest rfl
      rcases edge '/' rfl with same | same <;> cases same
    -- The two slashes are not both in the path, and the marks do not begin with one.
    rcases path : url.path with _ | ⟨first, _ | ⟨second, others⟩⟩
    · rw [path] at shape
      exact foreign shape
    · rw [path] at shape
      exact foreign (List.cons.inj shape).2
    · rw [path] at shape slashes
      obtain ⟨rfl, rest⟩ := List.cons.inj shape
      obtain ⟨rfl, -⟩ := List.cons.inj rest
      cases slashes

/-- The normal form of a URL that was read can be read again. -/
theorem IsRead.readable {url : Url} (read : url.IsRead) :
    Readable url.scheme (url.lead ++ url.path ++ marked '?' url.query ++ marked '#' url.fragment) := by
  obtain ⟨written, read⟩ := read
  have stays : ∀ c ∈ url.lead ++ url.path ++ marked '?' url.query ++ marked '#' url.fragment, isBreak c = false := by
    intro c member
    apply (neat_href read).stays
    rw [href_eq]
    exact List.mem_append_right _ (List.mem_cons_of_mem _ member)
  have edge : ∀ c ∈ (marked '?' url.query ++ marked '#' url.fragment).head?, c = '?' ∨ c = '#' := fun c => head?_marks
  obtain ⟨rest, -, behind⟩ := parse_eq_ok read
  obtain ⟨-, body, -⟩ := parts_of_parseBehind behind
  rw [readable_iff stays]
  simp only [List.append_assoc]
  intro place lead
  rcases stands_of_parseBody body with ⟨authority, names, kept, stands, route⟩ | ⟨bare, generic⟩
  · have front : url.lead = "//".toList ++ authority.text := by rw [Url.lead, kept]
    have path : url.path = Route.slashed names := by
      rw [Url.path, route]
      rfl
    have asks : '?' ∉ "//".toList ++ authority.text :=
      List.not_mem_append (by decide) (stands.not_mem_text (by decide))
    have tagged : '#' ∉ "//".toList ++ authority.text :=
      List.not_mem_append (by decide) (stands.not_mem_text (by decide))
    rw [front, bodyText_append_of_not_mem asks tagged, path, List.append_assoc, stands.announced?_eq] at lead
    rw [← Option.some.inj lead]
    apply stands.accepts
    intro c first
    rw [head?_bodyText_slashed edge c first]
    rfl
  · rw [generic, announced?, Text.after?_eq_some_iff] at lead
    have silent := after?_lead_eq_none bare edge
    have front := isPrefix_bodyText (url.lead ++ (url.path ++ (marked '?' url.query ++ marked '#' url.fragment)))
    obtain ⟨others, whole⟩ := front
    rw [← whole, lead, List.append_assoc, Text.after?_append] at silent
    cases silent

end FileLocator.Url
