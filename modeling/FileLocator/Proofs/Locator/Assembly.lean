import FileLocator.Proofs.Locator.Rereading

/-! # The normal form and its parts

A locator shows its URL in parts: scheme, authority, path, query and fragment. The authority is put together from user
name, password, host and port, each of which may be missing, and it is written as it stands in the normal form of the
URL (`authority_eq_text`). So the parts and the marks between them make up the normal form wherever there is a host,
and the authority can be found there by its delimiters alone (`href_eq_parts`).
-/

namespace FileLocator

namespace Url

/-! ## Finding an authority -/

/-- The characters that an authority ends in front of. -/
def endsAuthority (c : Char) : Bool := c == '/' || c == '?' || c == '#'

/-- The authority that stands in some text: what two slashes behind the first colon announce, up to the next delimiter. -/
def authorityIn? (text : Text) : Option Text := do
  let behind ← (Text.cut ':' text).2
  let announced ← Text.after? "//".toList behind
  return announced.takeWhile (!endsAuthority ·)

/-- Text without delimiters is found between two slashes and a delimiter. -/
theorem authorityIn?_eq {scheme place rest : Text} (colon : ':' ∉ scheme)
    (inside : ∀ c ∈ place, endsAuthority c = false) (ends : ∀ c ∈ rest.head?, endsAuthority c = true) :
    authorityIn? (scheme ++ ':' :: ("//".toList ++ (place ++ rest))) = some place := by
  have stops : ∀ c ∈ rest.head?, (!endsAuthority c) = false := fun c first => by rw [ends c first]; rfl
  have kept : place.takeWhile (!endsAuthority ·) = place :=
    List.takeWhile_eq_self_iff.mpr fun c member => by rw [inside c member]; rfl
  simp only [authorityIn?, Text.cut_append_cons colon, Option.bind_eq_bind, Option.bind_some, Text.after?_append,
    Text.takeWhile_append_of_stops stops, kept, Option.pure_def]

theorem href_of_authority {url : Url} {place : Authority} (announced : url.authority = some place) :
    url.href = url.scheme ++ ':' :: ("//".toList ++
      (place.text ++ (url.path ++ marked '?' url.query ++ marked '#' url.fragment))) := by
  simp [href, lead, announced]

/-- The path of a URL that has an authority begins with a slash, or the URL goes on with one of the marks behind it. -/
theorem IsRead.delimits {url : Url} (read : url.IsRead) {place : Authority} (announced : url.authority = some place) :
    (∀ c ∈ place.text, endsAuthority c = false) ∧
      ∀ c ∈ (url.path ++ marked '?' url.query ++ marked '#' url.fragment).head?, endsAuthority c = true := by
  obtain ⟨written, read⟩ := read
  obtain ⟨rest, -, behind⟩ := parse_eq_ok read
  obtain ⟨-, body, -⟩ := parts_of_parseBehind behind
  rcases stands_of_parseBody body with ⟨kept, names, same, stands, route⟩ | ⟨bare, -⟩
  · obtain rfl := Option.some.inj (announced.symm.trans same)
    constructor
    · intro c member
      by_contra ends
      simp only [endsAuthority, Bool.not_eq_false, Bool.or_eq_true, beq_iff_eq] at ends
      rcases ends with (rfl | rfl) | rfl <;> exact stands.not_mem_text (by decide) member
    · rw [path, route, List.append_assoc]
      intro c first
      cases names with
      | nil =>
        rcases head?_marks first with rfl | rfl <;> decide
      | cons name names =>
        obtain rfl := Option.some.inj first
        decide
  · rw [announced] at bare
    cases bare

end Url

namespace Locator

/-! ## Assembling -/

theorem exists_authority_of_host {locator : Locator} {host : Text} (hosted : locator.host? = some host) :
    ∃ place, locator.url.authority = some place := by
  rw [host?, Url.host?] at hosted
  split at hosted
  · next place announced => exact ⟨place, announced⟩
  · cases hosted

theorem Reachable.isRead {locator : Locator} (reachable : Reachable Url.IsRead locator) : locator.url.IsRead := by
  rcases reachable.origin with ⟨written, read⟩ | ⟨url, read, rfl⟩
  · exact ⟨_, (parse_eq_ok_iff.mp read).1⟩
  · exact read

/-- Wherever there is a host, the parts of a locator make up the normal form of its URL, and its authority is the one
that stands there. -/
theorem href_eq_parts {locator : Locator} {host : Text} (hosted : locator.host? = some host) :
    locator.url.href =
        locator.scheme ++ "://".toList ++ locator.authority ++ locator.path ++ Url.marked '?' locator.query? ++
          Url.marked '#' locator.fragment? ∧
      (Reachable Url.IsRead locator → Url.authorityIn? locator.url.href = some locator.authority) := by
  obtain ⟨place, announced⟩ := exists_authority_of_host hosted
  have whole := Url.href_of_authority announced
  rw [authority_eq_text announced]
  constructor
  · rw [whole]
    simp [scheme, path, query?, fragment?]
  · intro reachable
    obtain ⟨inside, ends⟩ := reachable.isRead.delimits announced
    have colon : ':' ∉ locator.url.scheme := by
      obtain ⟨written, read⟩ := reachable.isRead
      exact (Url.isProper_of_parse read).not_mem rfl
    rw [whole]
    exact Url.authorityIn?_eq colon inside ends

/-- A password without a user name, an address with colons of its own, a port and marks. -/
theorem href_eq_parts_password : ∃ locator, parse "http://:p%40w@[::1]:81?q/#f@g".toList = .ok locator ∧
    locator.host? = some "[::1]".toList ∧ locator.authority = ":p%40w@[::1]:81".toList ∧
    locator.url.href = "http://:p%40w@[::1]:81/?q/#f@g".toList ∧
    Url.authorityIn? locator.url.href = some ":p%40w@[::1]:81".toList := by
  have runs : ∃ locator, parse "http://:p%40w@[::1]:81?q/#f@g".toList = .ok locator ∧
      locator.host? = some "[::1]".toList ∧ locator.authority = ":p%40w@[::1]:81".toList ∧
      locator.scheme = "http".toList ∧ locator.path = "/".toList ∧ locator.query? = some "q/".toList ∧
      locator.fragment? = some "f@g".toList := ⟨_, rfl, rfl, rfl, rfl, rfl, rfl, rfl⟩
  obtain ⟨locator, read, hosted, place, scheme, path, query, fragment⟩ := runs
  have both := href_eq_parts hosted
  refine ⟨locator, read, hosted, place, ?_, place ▸ both.2 (.parse read)⟩
  rw [both.1, scheme, place, path, query, fragment]
  rfl

end Locator

end FileLocator
