import FileLocator.Proofs.Url.Host
import FileLocator.Proofs.Url.Href
import FileLocator.Proofs.Url.Root

/-! # URLs of files

A `file` URL that was read has a bare host and a path of segments (`IsRead.exists_isFile`). Its normal form may be
read as another URL, since empty segments and drive letters may be taken for something else, but it can always be
read (`IsRead.exists_parseFileBody`). What stands behind a question mark has no influence on host and path
(`parseBehind_file_append`).
-/

namespace FileLocator.Url

open Text (unbroken)

/-- A URL that some text is read as. -/
def IsRead (url : Url) : Prop := ∃ written, parse written = .ok url

/-- A URL with a bare host that could be read, and with a path of segments. -/
structure IsFile (url : Url) (host : Host) (names : List Text) : Prop where
  named : ∃ name, Host.parseFile name = .ok host
  authority : url.authority = some (.ofHost host)
  route : url.route = .segments names

theorem exists_of_fileBody {name : Text} {host : Host} (named : Host.parseFile name = .ok host)
    (written : List Text) :
    ∃ name' host' names, Host.parseFile name' = .ok host' ∧
      fileBody host written = (some (.ofHost host'), .segments names) := by
  rw [fileBody]
  split
  · exact ⟨[], .empty, _, rfl, rfl⟩
  · exact ⟨name, host, _, named, rfl⟩

theorem exists_of_parseFileBody {written : Text} {body : Body} (read : parseFileBody written = .ok body) :
    ∃ name host names, Host.parseFile name = .ok host ∧ body = (some (.ofHost host), .segments names) := by
  have none : Host.parseFile [] = .ok .empty := rfl
  rw [parseFileBody] at read
  split at read
  · cases read
    exact exists_of_fileBody none _
  · split at read
    · cases read
    · cases read
      exact exists_of_fileBody none _
    · next named =>
      cases read
      exact exists_of_fileBody named _

theorem IsRead.exists_isFile {url : Url} (read : url.IsRead) (file : url.scheme = "file".toList) :
    ∃ host names, url.IsFile host names := by
  obtain ⟨written, read⟩ := read
  obtain ⟨rest, -, behind⟩ := parse_eq_ok read
  rw [file, parseBehind, kind_file] at behind
  simp only [parseBody] at behind
  cases parts : parseFileBody (Text.cut '?' (Text.cut '#' rest).1).1 with
  | error fault =>
    rw [parts] at behind
    cases behind
  | ok body =>
    obtain ⟨name, host, names, named, rfl⟩ := exists_of_parseFileBody parts
    rw [parts] at behind
    cases behind
    exact ⟨host, names, ⟨name, named⟩, rfl, rfl⟩

theorem text_ofHost (host : Host) : (Authority.ofHost host).text = host.text := by
  simp [Authority.ofHost, Authority.text, Authority.credentials, Authority.portText, marked]

/-- The normal form of a `file` URL, in which no user information and no port stand beside the host. -/
theorem IsFile.href_eq {url : Url} {host : Host} {names : List Text} (shape : url.IsFile host names)
    (file : url.scheme = "file".toList) :
    url.href = "file:".toList ++ ("//".toList ++ (host.text ++ Route.slashed names) ++
      (marked '?' url.query ++ marked '#' url.fragment)) := by
  have path : url.path = Route.slashed names := by
    rw [Url.path, shape.route]
    rfl
  have lead : url.lead = "//".toList ++ host.text := by
    rw [Url.lead, shape.authority]
    exact congrArg ("//".toList ++ ·) (text_ofHost host)
  rw [Url.href_eq, file, path, lead]
  simp only [List.append_assoc]
  rfl

/-! ## Reading again -/

theorem cutFileHost?_slashes (behind : Text) :
    cutFileHost? ("//".toList ++ behind) =
      let name := unbroken (behind.takeWhile (!Kind.file.isSlash ·))
      if Route.isDrive name then some ([], behind)
      else some (name, behind.dropWhile (!Kind.file.isSlash ·)) := rfl

/-- A host in its normal form and a path are the body of a `file` URL, whatever becomes of the path. -/
theorem exists_parseFileBody_append_slashed {name : Text} {host : Host} (named : Host.parseFile name = .ok host)
    (names : List Text) : ∃ body, parseFileBody ("//".toList ++ (host.text ++ Route.slashed names)) = .ok body := by
  have written := Host.isHostChar_of_parseFile named
  have passes : ∀ c ∈ host.text, (!Kind.file.isSlash c) = true := by
    intro c member
    have char := written c member
    rw [Bool.not_eq_true']
    apply Kind.isSlash_eq_false
    · rintro rfl
      exact absurd char (by decide)
    · rintro rfl
      exact absurd char (by decide)
  have path : (Route.slashed names).takeWhile (!Kind.file.isSlash ·) = [] := by
    cases names <;> rfl
  have front : (host.text ++ Route.slashed names).takeWhile (!Kind.file.isSlash ·) = host.text := by
    rw [List.takeWhile_append_of_pos passes, path, List.append_nil]
  have whole : unbroken host.text = host.text :=
    Text.unbroken_eq_self_iff.mpr fun c member => Text.isBreak_eq_false_of_solid (written c member).solid
  have empty : Host.parseFile [] = .ok .empty := rfl
  rw [parseFileBody, cutFileHost?_slashes, front, whole]
  dsimp only
  by_cases drive : Route.isDrive host.text = true
  · rw [if_pos drive]
    simp only [empty]
    exact ⟨_, rfl⟩
  · rw [if_neg drive]
    simp only [Host.parseFile_text named]
    cases host <;> exact ⟨_, rfl⟩

/-- The normal form of a `file` URL without marks can be read. -/
theorem IsRead.exists_parseFileBody {url : Url} (read : url.IsRead) (file : url.scheme = "file".toList)
    (query : '?' ∉ url.href) (fragment : '#' ∉ url.href) :
    ∃ path body, url.href = "file:".toList ++ ("//".toList ++ path) ∧
      parseFileBody ("//".toList ++ path) = .ok body := by
  obtain ⟨host, names, shape⟩ := read.exists_isFile file
  obtain ⟨name, named⟩ := shape.named
  obtain ⟨body, parts⟩ := exists_parseFileBody_append_slashed named names
  have text := shape.href_eq file
  have noQuery : marked '?' url.query = [] :=
    marked_eq_nil_of_not_mem fun member => query (by simp [text, member])
  have noFragment : marked '#' url.fragment = [] :=
    marked_eq_nil_of_not_mem fun member => fragment (by simp [text, member])
  rw [noQuery, noFragment, List.append_nil, List.append_nil] at text
  exact ⟨_, body, text, parts⟩

/-- Text with nothing blank around it is read behind its scheme. -/
theorem parse_of_neat {rest : Text} (neat : Text.Neat ("file:".toList ++ rest)) :
    parse ("file:".toList ++ rest) = parseBehind "file".toList rest := by
  have proper : Scheme.IsProper "file".toList := { Scheme.isName_file with lower := by decide }
  have shape : "file:".toList ++ rest = "file".toList ++ ':' :: rest := rfl
  rw [shape] at neat ⊢
  exact parse_of_isProper proper neat

/-! ## Behind a question mark -/

/-- Without marks, the text behind the scheme is the body. -/
theorem parseFileBody_of_parseBehind {rest : Text} (query : '?' ∉ rest) (fragment : '#' ∉ rest) {url : Url}
    (read : parseBehind "file".toList rest = .ok url) : parseFileBody rest = .ok (url.authority, url.route) := by
  rw [parseBehind, kind_file, Text.cut_of_not_mem fragment] at read
  dsimp only at read
  rw [Text.cut_of_not_mem query, parseBody] at read
  cases body : parseFileBody rest with
  | error fault =>
    rw [body] at read
    cases read
  | ok parts =>
    rw [body] at read
    cases read
    rfl

/-- A query leaves the host and the path as they are. -/
theorem parseBehind_file_append {rest : Text} (query : '?' ∉ rest) (fragment : '#' ∉ rest) {body : Body}
    (read : parseFileBody rest = .ok body) (asked : Text) :
    ∃ url, parseBehind "file".toList (rest ++ '?' :: asked) = .ok url ∧ url.scheme = "file".toList ∧
      (url.authority, url.route) = body ∧ url.query.isSome = true := by
  have other : '#' ∉ ['?'] := by decide
  have mark : Text.cut '#' ('?' :: asked) = ('?' :: (Text.cut '#' asked).1, (Text.cut '#' asked).2) :=
    Text.cut_append_of_not_mem other asked
  rw [parseBehind, kind_file, Text.cut_append_of_not_mem fragment, mark]
  dsimp only
  rw [Text.cut_append_cons query, parseBody, read]
  exact ⟨_, rfl, rfl, rfl, rfl⟩

end FileLocator.Url
