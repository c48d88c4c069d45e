import FileLocator.Proofs.Url.Authority
import FileLocator.Proofs.Url.Body
import FileLocator.Proofs.Url.File

/-! # What can be read behind a scheme

Reading the text behind a scheme fails for one reason: slashes at its start announce an authority that is none
(`readable_iff`). The authority ends at the next slash, so the text can still be read if it is cut at a slash
(`Readable.cut`).
-/

namespace FileLocator

namespace Text

theorem takeWhile_append_of_stops {p : Char → Bool} {rest : Text} (stops : ∀ c ∈ rest.head?, p c = false)
    (front : Text) : (front ++ rest).takeWhile p = front.takeWhile p := by
  induction front with
  | nil =>
    cases rest with
    | nil => rfl
    | cons c rest => exact List.takeWhile_cons_of_neg (Bool.eq_false_iff.mp (stops c rfl))
  | cons c front ih => rw [List.cons_append, List.takeWhile_cons, List.takeWhile_cons, ih]

theorem dropWhile_append_of_mem {p : Char → Bool} {front : Text} (stops : ∃ c ∈ front, p c = false) (rest : Text) :
    (front ++ rest).dropWhile p = front.dropWhile p ++ rest := by
  induction front with
  | nil =>
    obtain ⟨c, member, -⟩ := stops
    cases member
  | cons c front ih =>
    cases passes : p c with
    | false =>
      have stop : ¬ p c = true := by simp [passes]
      rw [List.cons_append, List.dropWhile_cons_of_neg stop, List.dropWhile_cons_of_neg stop]
      rfl
    | true =>
      obtain ⟨other, member, stop⟩ := stops
      have inner : other ∈ front := by
        rcases List.mem_cons.mp member with rfl | inner
        · rw [passes] at stop
          cases stop
        · exact inner
      rw [List.cons_append, List.dropWhile_cons_of_pos passes, List.dropWhile_cons_of_pos passes,
        ih ⟨other, inner, stop⟩]

end Text

namespace Url

open Text (isBreak)

/-! ## Authorities that are announced -/

/-- The text behind the slashes that announce an authority. -/
def announced? (kind : Kind) (body : Text) : Option Text :=
  match kind with
  | .file =>
    match body with
    | first :: second :: behind => if kind.isSlash first && kind.isSlash second then some behind else none
    | _ => none
  | .network _ => some (body.dropWhile kind.isSlash)
  | .generic => Text.after? "//".toList body

/-- An authority can be read from what stands in front of the first slash. A drive letter needs no authority. -/
def Accepts (kind : Kind) (more : Bool) (written : Text) : Prop :=
  let place := written.takeWhile (!kind.isSlash ·)
  match kind with
  | .file => Route.isDrive place = true ∨ ∃ host, Host.parseFile place = .ok host
  | _ => ∃ parts, Authority.parse kind (written.dropWhile (!kind.isSlash ·) = [] && !more) place = .ok parts

/-- Without breaks, what announces a host are the first two characters. -/
theorem cutFileHost?_eq {written : Text} (stays : ∀ c ∈ written, isBreak c = false) :
    cutFileHost? written = (announced? .file written).map fun behind =>
      let name := behind.takeWhile (!Kind.file.isSlash ·)
      if Route.isDrive name then ([], behind) else (name, behind.dropWhile (!Kind.file.isSlash ·)) := by
  rw [cutFileHost?, Text.dropWhile_isBreak_of_stays stays]
  cases written with
  | nil => rfl
  | cons first rest =>
    rw [List.forall_mem_cons] at stays
    simp only [Text.dropWhile_isBreak_of_stays stays.2]
    cases rest with
    | nil => rfl
    | cons second behind =>
      rw [List.forall_mem_cons] at stays
      have inner : ∀ c ∈ behind.takeWhile (!Kind.file.isSlash ·), isBreak c = false := fun c member =>
        stays.2.2 c ((List.takeWhile_prefix _).subset member)
      simp only [announced?, Text.unbroken_eq_self_iff.mpr inner]
      split
      · rw [Option.map_some]
        split <;> rfl
      · rfl

theorem exists_parseFileBody_of_cut {written name path : Text} (cut : cutFileHost? written = some (name, path)) :
    (∃ body, parseFileBody written = .ok body) ↔ ∃ host, Host.parseFile name = .ok host := by
  rw [parseFileBody, cut]
  dsimp only
  cases Host.parseFile name with
  | error fault => simp
  | ok host => cases host <;> simp

theorem exists_parseFileBody_iff {written : Text} (stays : ∀ c ∈ written, isBreak c = false) (more : Bool) :
    (∃ body, parseFileBody written = .ok body) ↔
      ∀ behind, announced? .file written = some behind → Accepts .file more behind := by
  have cut := cutFileHost?_eq stays
  cases lead : announced? .file written with
  | none =>
    rw [lead, Option.map_none] at cut
    refine iff_of_true ?_ fun behind none => by cases none
    rw [parseFileBody, cut]
    exact ⟨_, rfl⟩
  | some behind =>
    rw [lead, Option.map_some] at cut
    simp only [Option.some.injEq, forall_eq', Accepts]
    by_cases drive : Route.isDrive (behind.takeWhile (!Kind.file.isSlash ·)) = true
    · rw [if_pos drive] at cut
      rw [exists_parseFileBody_of_cut cut]
      exact iff_of_true ⟨.empty, rfl⟩ (.inl drive)
    · rw [if_neg drive] at cut
      rw [exists_parseFileBody_of_cut cut]
      exact (or_iff_right drive).symm

theorem accepts_iff {kind : Kind} (other : kind ≠ .file) {more : Bool} {written : Text} :
    Accepts kind more written ↔ ∃ parts, Authority.parse kind
      (written.dropWhile (!kind.isSlash ·) = [] && !more) (written.takeWhile (!kind.isSlash ·)) = .ok parts := by
  cases kind with
  | file => exact absurd rfl other
  | network port => rfl
  | generic => rfl

theorem exists_parseAuthorityBody_iff {kind : Kind} (other : kind ≠ .file) {more : Bool} {written : Text} :
    (∃ body, parseAuthorityBody kind more written = .ok body) ↔ Accepts kind more written := by
  rw [accepts_iff other, parseAuthorityBody]
  dsimp only
  cases Authority.parse kind _ (written.takeWhile (!kind.isSlash ·)) <;> simp

/-- A body can be read unless it announces an authority that is none. -/
theorem exists_parseBody_iff {kind : Kind} {more : Bool} {written : Text}
    (stays : ∀ c ∈ written, isBreak c = false) :
    (∃ body, parseBody kind more written = .ok body) ↔
      ∀ behind, announced? kind written = some behind → Accepts kind more behind := by
  have whole := Text.unbroken_eq_self_iff.mpr stays
  cases kind with
  | file => exact exists_parseFileBody_iff stays more
  | network port =>
    simp only [parseBody, announced?, whole, Option.some.injEq, forall_eq']
    exact exists_parseAuthorityBody_iff (by simp)
  | generic =>
    simp only [parseBody, announced?, whole]
    cases Text.after? "//".toList written with
    | some behind =>
      simp only [Option.some.injEq, forall_eq']
      exact exists_parseAuthorityBody_iff (by simp)
    | none =>
      refine iff_of_true ?_ fun behind none => by cases none
      dsimp only
      split <;> exact ⟨_, rfl⟩

/-! ## Text behind a scheme -/

/-- Text behind a scheme that can be read. -/
def Readable (scheme rest : Text) : Prop := ∃ url, parseBehind scheme rest = .ok url

theorem readable_iff {scheme rest : Text} (stays : ∀ c ∈ rest, isBreak c = false) :
    Readable scheme rest ↔ ∀ behind, announced? (Kind.ofScheme scheme) (bodyText rest) = some behind →
      Accepts (Kind.ofScheme scheme) (hasMore rest) behind := by
  rw [Readable, exists_parseBehind_iff, exists_parseBody_iff]
  exact fun c member => stays c ((isPrefix_bodyText rest).subset member)

/-! ## Cutting at a slash -/

/-- More than slashes, which a network needs in front of its path. -/
def Begun (kind : Kind) (text : Text) : Prop :=
  kind.defaultPort?.isSome = true → ∃ c ∈ text, kind.isSlash c = false

theorem begun_file (text : Text) : Begun .file text := fun network => by cases network

theorem Kind.isSlash_slash (kind : Kind) : kind.isSlash '/' = true := rfl

/-- An authority is announced at the start. -/
theorem announced?_append {kind : Kind} {front behind : Text} (lead : announced? kind front = some behind)
    (begun : kind.defaultPort?.isSome = true → behind ≠ []) (rest : Text) :
    announced? kind (front ++ rest) = some (behind ++ rest) := by
  cases kind with
  | file =>
    match front with
    | [] => cases lead
    | [_] => cases lead
    | first :: second :: others =>
      simp only [announced?] at lead ⊢
      split at lead
      · next slashes =>
        cases lead
        exact if_pos slashes
      · cases lead
  | network port =>
    simp only [announced?, Option.some.injEq] at lead ⊢
    rw [Text.dropWhile_append_of_mem, lead]
    have nonempty := begun rfl
    rw [← lead, ne_eq, List.dropWhile_eq_nil_iff] at nonempty
    simpa using nonempty
  | generic =>
    rw [announced?, Text.after?_eq_some_iff] at lead ⊢
    rw [lead, List.append_assoc]

/-- A slash may complete what announces an authority, which is empty then. -/
theorem announced?_append_of_none {kind : Kind} {front : Text} (silent : announced? kind front = none)
    {rest : Text} (edge : rest = [] ∨ rest = ['/']) {behind : Text}
    (lead : announced? kind (front ++ rest) = some behind) : behind = [] := by
  rcases edge with rfl | rfl
  · rw [List.append_nil, silent] at lead
    cases lead
  · cases kind with
    | file =>
      match front with
      | [] => cases lead
      | [first] =>
        simp only [announced?, List.cons_append, List.nil_append] at lead
        split at lead
        · exact (Option.some.inj lead).symm
        · cases lead
      | first :: second :: others =>
        simp only [announced?, List.cons_append] at lead silent
        split at silent
        · cases silent
        · next other =>
          rw [if_neg other] at lead
          cases lead
    | network port => cases silent
    | generic =>
      rw [announced?, Text.after?_eq_some_iff] at lead
      obtain rfl | ⟨init, last, rfl⟩ := List.eq_nil_or_concat behind
      · rfl
      · rw [List.concat_eq_append, ← List.append_assoc] at lead
        have shorter := (List.append_inj' lead rfl).1
        rw [announced?, shorter, Text.after?_append] at silent
        cases silent

/-- Only networks need an authority. -/
theorem accepts_nil {kind : Kind} (other : kind.defaultPort? = none) (more : Bool) : Accepts kind more [] := by
  cases kind with
  | file => exact .inr ⟨.empty, rfl⟩
  | network port => cases other
  | generic => cases more <;> exact ⟨_, rfl⟩

theorem Authority.parse_mono {kind : Kind} {written : Text} {parts : Authority × Text}
    (read : parse kind false written = .ok parts) (atEnd : Bool) : parse kind atEnd written = .ok parts := by
  rw [parse] at read ⊢
  dsimp only at read ⊢
  split at read
  · cases read
  · next other =>
    rw [if_neg]
    · exact read
    · rintro ⟨sign, -⟩
      exact other ⟨sign, rfl⟩

/-- An authority ends at the first slash, so the text may be cut at any slash or in front of it. -/
theorem Accepts.cut {kind : Kind} {more : Bool} {front behind : Text}
    (accepts : Accepts kind more (front ++ '/' :: behind)) (more' : Bool) {rest : Text}
    (edge : rest = [] ∨ rest = ['/']) : Accepts kind more' (front ++ rest) := by
  have stops : ∀ {tail : Text}, (tail = [] ∨ ∃ others, tail = '/' :: others) →
      (front ++ tail).takeWhile (!kind.isSlash ·) = front.takeWhile (!kind.isSlash ·) := by
    rintro tail (rfl | ⟨others, rfl⟩)
    · rw [List.append_nil]
    · apply Text.takeWhile_append_of_stops
      rintro c first
      rw [← Option.some.inj first]
      rfl
  have slash : '/' ∈ front ++ '/' :: behind := by simp
  have before : (front ++ '/' :: behind).dropWhile (!kind.isSlash ·) ≠ [] := by
    rw [ne_eq, List.dropWhile_eq_nil_iff]
    intro passes
    exact absurd (passes '/' slash) (by simp [kind.isSlash_slash])
  have here := stops (.inr ⟨behind, rfl⟩)
  have there : (front ++ rest).takeWhile (!kind.isSlash ·) = front.takeWhile (!kind.isSlash ·) :=
    stops (edge.imp_right fun same => ⟨[], same⟩)
  by_cases file : kind = .file
  · subst file
    simp only [Accepts] at accepts ⊢
    rw [there, ← here]
    exact accepts
  · rw [accepts_iff file] at accepts ⊢
    obtain ⟨parts, read⟩ := accepts
    rw [here, decide_eq_false before, Bool.false_and] at read
    rw [there]
    exact ⟨parts, Authority.parse_mono read _⟩

/-- The text may be cut at any slash behind the scheme or in front of it, unless nothing but slashes is left of the
text of a network. -/
theorem Readable.cut {scheme front behind : Text} (stays : ∀ c ∈ front ++ '/' :: behind, isBreak c = false)
    (readable : Readable scheme (front ++ '/' :: behind)) {rest : Text} (edge : rest = [] ∨ rest = ['/'])
    (begun : Begun (Kind.ofScheme scheme) front) : Readable scheme (front ++ rest) := by
  have kept : ∀ c ∈ front ++ rest, isBreak c = false := by
    rw [List.forall_mem_append] at stays ⊢
    refine ⟨stays.1, ?_⟩
    rcases edge with rfl | rfl
    · exact List.forall_mem_nil _
    · exact List.forall_mem_singleton.mpr rfl
  rw [readable_iff stays] at readable
  rw [readable_iff kept]
  generalize Kind.ofScheme scheme = kind at *
  by_cases marked : '?' ∈ front ∨ '#' ∈ front
  · have more : ∀ tail, hasMore (front ++ tail) = true := fun tail =>
      hasMore_iff.mpr (marked.imp (List.mem_append_left _) (List.mem_append_left _))
    rw [bodyText_append_of_mem marked, more] at readable ⊢
    exact readable
  · rw [not_or] at marked
    have whole : bodyText rest = rest := by rcases edge with rfl | rfl <;> rfl
    rw [bodyText_append_of_not_mem marked.1 marked.2, bodyText_slash] at readable
    rw [bodyText_append_of_not_mem marked.1 marked.2, whole]
    cases lead : announced? kind front with
    | some others =>
      have nonempty : kind.defaultPort?.isSome = true → others ≠ [] := by
        rintro network rfl
        cases kind with
        | file => cases network
        | network port =>
          obtain ⟨c, member, solid⟩ := begun network
          have slashes := List.dropWhile_eq_nil_iff.mp (Option.some.inj lead) c member
          rw [solid] at slashes
          cases slashes
        | generic => cases network
      intro found cut
      rw [announced?_append lead nonempty] at cut
      rw [← Option.some.inj cut]
      exact (readable _ (announced?_append lead nonempty _)).cut _ edge
    | none =>
      intro found cut
      rw [announced?_append_of_none lead edge cut]
      apply accepts_nil
      cases kind with
      | file => rfl
      | network port => cases lead
      | generic => rfl

/-- A network has an authority, so its text does not consist of slashes. -/
theorem Readable.begun {scheme rest : Text} (readable : Readable scheme rest) :
    Begun (Kind.ofScheme scheme) rest := by
  intro network
  by_contra never
  simp only [not_exists, not_and, Bool.not_eq_false] at never
  have stays : ∀ c ∈ rest, isBreak c = false := fun c member => Kind.isBreak_of_isSlash (never c member)
  have slashes : (bodyText rest).dropWhile (Kind.ofScheme scheme).isSlash = [] :=
    List.dropWhile_eq_nil_iff.mpr fun c member => never c ((isPrefix_bodyText rest).subset member)
  rw [readable_iff stays] at readable
  generalize Kind.ofScheme scheme = kind at *
  cases kind with
  | file => cases network
  | network port =>
    obtain ⟨parts, read⟩ := readable [] (congrArg some slashes)
    cases more : hasMore rest <;> rw [more] at read <;> cases read
  | generic => cases network

end Url

end FileLocator
