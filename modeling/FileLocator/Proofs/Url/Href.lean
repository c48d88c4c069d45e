import FileLocator.Proofs.Url.Breaks
import FileLocator.Proofs.Url.Scheme
import FileLocator.Proofs.Url.Solid

/-! # Normal forms of URLs that were read

A normal form begins with a proper scheme and a colon, and whatever was read has a neat one
(`neat_href`): the parts are solid, apart from a path that is kept as written, which holds no break and
does not end in a blank unless a query or a fragment follows.
-/

namespace FileLocator.Url

open Text (IsSolid isEdgeBlank unbroken isBreak isSolid_nil isSolid_cons isSolid_append)

/-! ## Authorities -/

theorem isSolid_marked {mark : Char} (solid : isEdgeBlank mark = false) {text : Option Text}
    (inner : ∀ kept, text = some kept → IsSolid kept) : IsSolid (marked mark text) := by
  cases text with
  | none => exact isSolid_nil
  | some kept => exact isSolid_cons.mpr ⟨solid, inner kept rfl⟩

namespace Authority

theorem isWide_escaped : escaped.IsWide := Route.isWide_escaped.including _

theorem isSolid_portText (authority : Authority) : IsSolid authority.portText := by
  apply isSolid_marked
  · decide
  · intro digits written
    obtain ⟨port, -, rfl⟩ := Option.map_eq_some_iff.mp written
    exact Text.forall_mem_toDigits (by decide) (by decide) port

theorem isSolid_credentials {authority : Authority} (username : IsSolid authority.username)
    (password : IsSolid authority.password) : IsSolid authority.credentials := by
  rw [credentials]
  split
  · exact isSolid_nil
  · refine isSolid_append.mpr ⟨isSolid_append.mpr ⟨username, ?_⟩, isSolid_cons.mpr ⟨by decide, isSolid_nil⟩⟩
    split
    · exact isSolid_nil
    · exact isSolid_cons.mpr ⟨by decide, password⟩

theorem isSolid_text {authority : Authority} (username : IsSolid authority.username)
    (password : IsSolid authority.password) (host : IsSolid authority.host.text) : IsSolid authority.text :=
  isSolid_append.mpr ⟨isSolid_append.mpr ⟨isSolid_credentials username password, host⟩, isSolid_portText _⟩

theorem isSolid_text_ofHost {host : Host} (solid : IsSolid host.text) : IsSolid (ofHost host).text :=
  isSolid_text isSolid_nil isSolid_nil solid

theorem isSolid_text_of_parse {kind : Kind} {atEnd : Bool} {written left : Text} {authority : Authority}
    (read : parse kind atEnd written = .ok (authority, left)) : IsSolid authority.text := by
  have escapes : ∀ text, IsSolid (Percent.escape escaped text) := fun text =>
    Percent.isSolid_escape isWide_escaped (by decide) text
  rw [parse] at read
  dsimp only at read
  split at read
  · cases read
  split at read
  · cases read
  next host hostRead =>
  have solid : IsSolid host.text := by
    rw [parseHost] at hostRead
    split at hostRead
    · exact fun c member => (Host.isHostChar_of_parseName hostRead c member).solid
    · exact Host.isSolid_text_of_parseVerbatim hostRead
  split at read
  · split at read
    · cases read
    · obtain ⟨rfl, rfl⟩ := Prod.mk.inj (Except.ok.inj read)
      exact isSolid_text (escapes _) (escapes _) solid
  · split at read
    · cases read
    · split at read
      · cases read
      · obtain ⟨rfl, rfl⟩ := Prod.mk.inj (Except.ok.inj read)
        exact isSolid_text (escapes _) (escapes _) solid

end Authority

/-! ## Paths -/

namespace Route

theorem isSolid_escape (text : Text) : IsSolid (Percent.escape escaped text) :=
  Percent.isSolid_escape isWide_escaped (by decide) text

theorem isSolid_drive {letter : Char} (alpha : letter.isAlpha = true) : IsSolid [letter, ':'] := by
  have solid : isEdgeBlank letter = false := Text.isEdgeBlank_eq_false_iff.mpr (Text.bounds_of_isAlpha alpha).1
  exact isSolid_cons.mpr ⟨solid, isSolid_cons.mpr ⟨by decide, isSolid_nil⟩⟩

theorem isSolid_of_mem_leading {written name : Text} (member : name ∈ leading written) : IsSolid name := by
  rw [leading] at member
  split at member
  · next drive behind cutOff =>
    rcases List.mem_cons.mp member with rfl | member
    · obtain ⟨letter, alpha, rfl, -⟩ := brokenDrive?_eq_some cutOff
      exact isSolid_drive alpha
    · rw [List.mem_singleton.mp member]
      exact isSolid_escape _
  · dsimp only at member
    split at member
    · next drive =>
      rw [List.mem_singleton.mp member, driveName]
      simp only [isDrive, Bool.and_eq_true, beq_iff_eq] at drive
      obtain ⟨letter, mark, shape⟩ := List.length_eq_two.mp drive.2
      rw [shape] at drive ⊢
      simp only [startsWithDrive, Bool.and_eq_true] at drive
      exact isSolid_drive drive.1.1
    · rw [List.mem_singleton.mp member]
      exact isSolid_escape _

theorem mem_of_mem_shorten {names : List Text} {name : Text} (member : name ∈ shorten names) :
    name ∈ names := by
  rw [shorten] at member
  split at member
  · split at member
    · exact member
    · exact List.dropLast_subset _ member
  · exact member

/-- One more segment keeps the resolved names solid. -/
theorem isSolid_follow {kind : Kind} {done : List Text} (solid : ∀ name ∈ done, IsSolid name)
    (written : Text) :
    ∀ name ∈ follow kind done written, IsSolid name := by
  intro name member
  rw [follow] at member
  split at member
  · exact solid name (mem_of_mem_shorten member)
  split at member
  · exact solid name member
  split at member
  · exact isSolid_of_mem_leading member
  · rcases List.mem_append.mp member with before | last
    · exact solid name before
    · rw [List.mem_singleton.mp last]
      exact isSolid_escape _

theorem isSolid_foldl_follow {kind : Kind} {done : List Text} (solid : ∀ name ∈ done, IsSolid name)
    (written : List Text) : ∀ name ∈ written.foldl (follow kind) done, IsSolid name := by
  induction written generalizing done with
  | nil => exact solid
  | cons segment rest ih => exact ih (isSolid_follow solid segment)

theorem isSolid_resolve (kind : Kind) (written : List Text) :
    ∀ name ∈ resolve kind written, IsSolid name := by
  have names : ∀ name ∈ written.foldl (follow kind) [], IsSolid name := isSolid_foldl_follow (by simp) written
  intro name member
  rw [resolve] at member
  split at member
  · split at member
    · rcases List.mem_append.mp member with before | last
      · exact names name before
      · rw [List.mem_singleton.mp last]
        exact isSolid_nil
    · exact names name member
  · exact names name member

theorem isSolid_collapse {names : List Text} (solid : ∀ name ∈ names, IsSolid name) :
    ∀ name ∈ collapse names, IsSolid name := by
  intro name member
  rw [collapse] at member
  split at member
  · rw [List.mem_singleton.mp member]
    exact isSolid_nil
  · exact solid name ((List.dropWhile_sublist _).mem member)

theorem isSolid_slashed {names : List Text} (solid : ∀ name ∈ names, IsSolid name) :
    IsSolid (slashed names) := by
  intro c member
  obtain ⟨name, present, inside⟩ := List.mem_flatMap.mp member
  rcases List.mem_cons.mp inside with rfl | inside
  · decide
  · exact solid name present c inside

end Route

/-! ## Bodies -/

/-- What the authority and the path of a URL that was read look like: solid, or kept as written. -/
inductive SettledBody (written : Text) : Body → Prop where
  | solid {authority : Option Authority} {names : List Text}
      (front : ∀ kept, authority = some kept → IsSolid kept.text) (inner : ∀ name ∈ names, IsSolid name) :
      SettledBody written (authority, .segments names)
  | kept : SettledBody written (none, .verbatim (Percent.escape .controls (unbroken written)))

theorem settledBody_fileBody {host : Host} (solid : IsSolid host.text) (names : List Text) (written : Text) :
    SettledBody written (fileBody host names) := by
  refine .solid ?_ (Route.isSolid_collapse (Route.isSolid_resolve _ _))
  intro kept same
  rw [← Option.some.inj same]
  apply Authority.isSolid_text_ofHost
  split
  · exact isSolid_nil
  · exact solid

theorem settledBody_of_parseFileBody {written : Text} {body : Body}
    (read : parseFileBody written = .ok body) :
    SettledBody written body := by
  have none : IsSolid Host.empty.text := isSolid_nil
  rw [parseFileBody] at read
  split at read
  · cases read
    exact settledBody_fileBody none _ _
  · split at read
    · cases read
    · cases read
      exact settledBody_fileBody none _ _
    · next named =>
      cases read
      exact settledBody_fileBody (fun c member => (Host.isHostChar_of_parseFile named c member).solid) _ _

theorem settledBody_of_parseAuthorityBody {kind : Kind} {more : Bool} {text written : Text} {body : Body}
    (read : parseAuthorityBody kind more text = .ok body) : SettledBody written body := by
  rw [parseAuthorityBody] at read
  dsimp only at read
  split at read
  · cases read
  · next authority left authorityRead =>
    cases read
    apply SettledBody.solid
    · intro kept same
      rw [← Option.some.inj same]
      exact Authority.isSolid_text_of_parse authorityRead
    · intro name member
      split at member
      · exact absurd member List.not_mem_nil
      · exact Route.isSolid_resolve _ _ name member

theorem settledBody_of_parseBody {kind : Kind} {more : Bool} {written : Text} {body : Body}
    (read : parseBody kind more written = .ok body) : SettledBody written body := by
  cases kind with
  | file => exact settledBody_of_parseFileBody read
  | network port => exact settledBody_of_parseAuthorityBody read
  | generic =>
    simp only [parseBody] at read
    split at read
    · exact settledBody_of_parseAuthorityBody read
    · split at read
      · cases read
        exact .solid (fun kept none => by cases none) (Route.isSolid_resolve _ _)
      · cases read
        exact .kept

/-! ## Whole URLs -/

/-- What was read begins with a scheme, and the rest was read behind it. -/
theorem parse_eq_ok {written : Text} {url : Url} (read : parse written = .ok url) :
    ∃ rest, Scheme.split? (Text.trim Text.isEdgeBlank written) = some (url.scheme, rest) ∧
      parseBehind url.scheme rest = .ok url := by
  rw [parse_eq] at read
  split at read
  · cases read
  · next scheme rest found =>
    have same : url.scheme = scheme := by
      rw [parseBehind] at read
      dsimp only at read
      cases body : parseBody (Kind.ofScheme scheme) _ _ with
      | error fault =>
        rw [body] at read
        cases read
      | ok parts =>
        rw [body] at read
        cases read
        rfl
    rw [same]
    exact ⟨rest, found, read⟩

theorem isProper_of_parse {written : Text} {url : Url} (read : parse written = .ok url) :
    Scheme.IsProper url.scheme := by
  obtain ⟨rest, found, -⟩ := parse_eq_ok read
  obtain ⟨name, -, -, valid, scheme⟩ := Scheme.split?_eq_some found
  rw [scheme]
  exact valid.isProper_map_toLower

theorem Scheme.IsName.isSolid {name : Text} (valid : IsName name) : IsSolid name := fun c member =>
  Text.isEdgeBlank_eq_false_iff.mpr (bounds_of_isSchemeChar (valid.chars c member)).1

/-- A scheme and its colon may stand in front of neat text. -/
theorem Scheme.IsProper.neat_lead {scheme : Text} (proper : IsProper scheme) : Text.Neat (scheme ++ [':']) := by
  apply Text.IsSolid.neat
  rw [isSolid_append]
  exact ⟨proper.isSolid, by decide⟩

/-- Text with nothing blank around it is read behind its scheme. -/
theorem parse_of_isProper {scheme rest : Text} (proper : Scheme.IsProper scheme)
    (neat : Text.Neat (scheme ++ ':' :: rest)) : parse (scheme ++ ':' :: rest) = parseBehind scheme rest := by
  rw [parse_eq, Text.trim_eq_self neat.head neat.last, Scheme.split?_of_isName proper.toIsName, proper.lower]

theorem href_eq (url : Url) :
    url.href = url.scheme ++ ':' :: (url.lead ++ url.path ++ marked '?' url.query ++ marked '#' url.fragment) := by
  simp only [href, List.append_assoc, List.cons_append]

theorem isSolid_query {kind : Kind} {query : Option Text} :
    IsSolid (marked '?' (query.map fun text => Percent.escape (queryEscaped kind) (unbroken text))) := by
  apply isSolid_marked
  · decide
  · intro kept same
    obtain ⟨text, -, rfl⟩ := Option.map_eq_some_iff.mp same
    have common : (Percent.EscapeSet.controls.including " \"<>#").IsWide :=
      Percent.EscapeSet.isWide_controls.including _
    rw [queryEscaped]
    split
    · exact Percent.isSolid_escape (common.including _) (by decide) _
    · exact Percent.isSolid_escape common (by decide) _

theorem isSolid_fragment {fragment : Option Text} :
    IsSolid (marked '#' (fragment.map fun text => Percent.escape fragmentEscaped (unbroken text))) := by
  apply isSolid_marked
  · decide
  · intro kept same
    obtain ⟨text, -, rfl⟩ := Option.map_eq_some_iff.mp same
    exact Percent.isSolid_escape (Percent.EscapeSet.isWide_controls.including _) (by decide) _

/-- The parts of what was read behind a scheme. -/
theorem settled_of_parseBehind {scheme rest : Text} {url : Url} (read : parseBehind scheme rest = .ok url) :
    SettledBody (bodyText rest) (url.authority, url.route) ∧ IsSolid (marked '?' url.query) ∧
      IsSolid (marked '#' url.fragment) ∧ (url.query = none → url.fragment = none → bodyText rest = rest) := by
  rw [parseBehind] at read
  dsimp only at read
  cases parts : parseBody (Kind.ofScheme scheme) _ _ with
  | error fault =>
    rw [parts] at read
    cases read
  | ok body =>
    rw [parts] at read
    cases read
    refine ⟨settledBody_of_parseBody parts, isSolid_query, isSolid_fragment, ?_⟩
    intro noQuery noFragment
    rw [bodyText, Text.cut_fst_of_snd_eq_none (Option.map_eq_none_iff.mp noQuery),
      Text.cut_fst_of_snd_eq_none (Option.map_eq_none_iff.mp noFragment)]

theorem isSolid_lead {url : Url} (front : ∀ kept, url.authority = some kept → IsSolid kept.text) :
    IsSolid url.lead := by
  have slashes : IsSolid "//".toList := by decide
  have dotted : IsSolid "/.".toList := by decide
  rw [lead]
  split
  · next authority same => exact isSolid_append.mpr ⟨slashes, front authority same⟩
  · split
    · exact dotted
    · exact isSolid_nil

theorem marked_eq_nil_iff {mark : Char} {text : Option Text} : marked mark text = [] ↔ text = none := by
  cases text <;> simp [marked]

theorem marked_eq_nil_of_not_mem {mark : Char} {text : Option Text} (absent : mark ∉ marked mark text) :
    marked mark text = [] := by
  cases text with
  | none => rfl
  | some kept => exact absurd (List.mem_cons_self ..) absent

/-- A path that is kept as written does not end in a blank if it ends the URL. -/
theorem solid_of_getLast?_kept {written scheme rest : Text}
    (found : Scheme.split? (Text.trim isEdgeBlank written) = some (scheme, rest)) :
    ∀ c ∈ (Percent.escape .controls (unbroken rest)).getLast?, isEdgeBlank c = false := by
  apply Percent.solid_of_getLast?_escape Percent.EscapeSet.isWide_controls
  apply Text.solid_of_getLast?_unbroken
  obtain ⟨name, shape, -⟩ := Scheme.split?_eq_some found
  intro c final
  have trimmed : (Text.trim isEdgeBlank written).getLast? = some c := by
    obtain rfl | ⟨init, last, rfl⟩ := List.eq_nil_or_concat rest
    · cases final
    · rw [List.concat_eq_append] at shape final
      have apart : name ++ ':' :: (init ++ [last]) = (name ++ ':' :: init) ++ [last] := by simp
      rw [List.getLast?_concat] at final
      rw [shape, apart, List.getLast?_concat]
      exact final
  exact Text.solid_of_getLast?_trim trimmed

/-- The normal form of a URL that was read is left alone by cleaning. -/
theorem neat_href {written : Text} {url : Url} (read : parse written = .ok url) : Text.Neat url.href := by
  have scheme : IsSolid url.scheme := (isProper_of_parse read).isSolid
  have colon : isEdgeBlank ':' = false := by decide
  obtain ⟨rest, found, behind⟩ := parse_eq_ok read
  obtain ⟨body, query, fragment, alone⟩ := settled_of_parseBehind behind
  rw [href_eq]
  generalize route : url.route = path at body
  generalize authority : url.authority = place at body
  cases body with
  | solid front inner =>
    refine Text.IsSolid.neat (isSolid_append.mpr ⟨scheme, isSolid_cons.mpr ⟨colon, ?_⟩⟩)
    have path : IsSolid url.path := by
      rw [Url.path, route]
      exact Route.isSolid_slashed inner
    rw [← authority] at front
    have inside := isSolid_append.mpr ⟨isSolid_lead front, path⟩
    exact isSolid_append.mpr ⟨isSolid_append.mpr ⟨inside, query⟩, fragment⟩
  | kept =>
    have lead : IsSolid url.lead := isSolid_lead fun kept same => by
      rw [authority] at same
      cases same
    have path : url.path = Percent.escape .controls (unbroken (bodyText rest)) := by
      rw [Url.path, route]
      rfl
    have shape : url.scheme ++ ':' :: (url.lead ++ url.path ++ marked '?' url.query ++ marked '#' url.fragment) =
        (url.scheme ++ ':' :: url.lead) ++ url.path ++ (marked '?' url.query ++ marked '#' url.fragment) := by
      simp
    rw [shape]
    apply Text.neat_append
    · exact isSolid_append.mpr ⟨scheme, isSolid_cons.mpr ⟨colon, lead⟩⟩
    · exact List.append_ne_nil_of_right_ne_nil _ (List.cons_ne_nil _ _)
    · rw [path]
      exact Percent.isBreak_of_mem_escape Percent.EscapeSet.isWide_controls _
    · exact isSolid_append.mpr ⟨query, fragment⟩
    · intro none
      obtain ⟨noQuery, noFragment⟩ := List.append_eq_nil_iff.mp none
      rw [path, alone (marked_eq_nil_iff.mp noQuery) (marked_eq_nil_iff.mp noFragment)]
      exact solid_of_getLast?_kept found

end FileLocator.Url
