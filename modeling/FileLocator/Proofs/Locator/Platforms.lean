import FileLocator.Proofs.Locator.Decoding
import Mathlib.Data.List.Forall2

/-! # The two platforms side by side

A conversion goes one of four ways (`Course`), and which one it is depends on the locator alone. Only where
the decoded text names a host do the platforms go apart by more than the shape of the path: Windows asks
there, once, whether there is a share. What that shape is, `Shapes` says character by character.
-/

namespace FileLocator.Platform

/-! ## The shape of a path on Windows -/

/-- A character of a path written with slashes, and the one that stands for it on Windows. -/
inductive Turns : Char → Char → Prop
  | slash : Turns '/' '\\'
  | other {c : Char} (differs : c ≠ '/') : Turns c c

/-- The text begins with a separator in front of an ASCII letter and a colon. -/
def LeadsToDrive (text : Text) : Prop :=
  ∃ letter rest, letter.isAlpha = true ∧ text = '\\' :: letter :: ':' :: rest

/-- What Windows shows for a path written with slashes: every slash is a backslash, and none is left in front
of a drive letter. -/
inductive Shapes (raw : Text) : Text → Prop
  | drive {letter : Char} {rest : Text} (alpha : letter.isAlpha = true)
      (turned : List.Forall₂ Turns raw ('\\' :: letter :: ':' :: rest)) : Shapes raw (letter :: ':' :: rest)
  | whole {text : Text} (turned : List.Forall₂ Turns raw text) (driveless : ¬ LeadsToDrive text) : Shapes raw text

theorem turns_iff {c turned : Char} : Turns c turned ↔ (if c = '/' then '\\' else c) = turned := by
  constructor
  · rintro (- | differs)
    · rfl
    · exact if_neg differs
  · rintro rfl
    split
    · next slash =>
      rw [slash]
      exact .slash
    · next differs => exact .other differs

theorem forall₂_turns_iff {raw text : Text} :
    List.Forall₂ Turns raw text ↔ (raw.map fun c => if c = '/' then '\\' else c) = text := by
  have turn : Turns = fun c turned => (if c = '/' then '\\' else c) = turned :=
    funext₂ fun _ _ => propext turns_iff
  rw [turn, ← List.forall₂_map_left_iff, List.forall₂_eq_eq_eq]

/-- A path has one shape on Windows. -/
theorem shapes_iff {raw shown : Text} : Shapes raw shown ↔ shown = backslashed raw := by
  constructor
  · rintro (⟨alpha, turned⟩ | ⟨turned, driveless⟩)
    · rw [backslashed, forall₂_turns_iff.mp turned]
      exact (if_pos alpha).symm
    · rw [backslashed.eq_def, forall₂_turns_iff.mp turned]
      split
      · next letter rest =>
        exact (if_neg fun alpha => driveless ⟨letter, rest, alpha, rfl⟩).symm
      · rfl
  · rintro rfl
    rw [backslashed.eq_def]
    split
    · next letter rest shape =>
      have turned := forall₂_turns_iff.mpr shape
      split
      · next alpha => exact .drive alpha turned
      · next other =>
        apply Shapes.whole turned
        rintro ⟨_, _, alpha, same⟩
        cases same
        exact other alpha
    · next otherwise =>
      apply Shapes.whole (forall₂_turns_iff.mpr rfl)
      rintro ⟨letter, rest, -, same⟩
      exact otherwise letter rest same

example : Shapes "/C:/a/b.shp".toList "C:\\a\\b.shp".toList := shapes_iff.mpr rfl

theorem nativePath_of_shapes {raw shown : Text} (shapes : Shapes raw shown) :
    windows.nativePath raw = .ofText shown := by
  rw [shapes_iff.mp shapes]
  rfl

theorem length_backslashed_le (raw : Text) : (backslashed raw).length ≤ raw.length := by
  have mapped : (raw.map fun c => if c = '/' then '\\' else c).length = raw.length := List.length_map _
  rw [backslashed]
  split
  · next letter rest shape =>
    rw [shape] at mapped
    split
    · rw [← mapped]
      exact Nat.le_succ _
    · exact mapped.le
  · exact mapped.le

theorem backslashed_slashes (raw : Text) :
    backslashed ("//".toList ++ raw) = "\\\\".toList ++ raw.map fun c => if c = '/' then '\\' else c := by
  rw [backslashed.eq_def]
  split
  · next letter rest shape =>
    have second : letter = '\\' := by
      have heads := (List.cons.inj (List.cons.inj shape).2).1
      exact heads.symm
    subst second
    exact shape.symm
  · rfl

/-- No path is the share that it would be with two slashes in front. -/
theorem nativePath_slashes_ne (raw : Text) :
    windows.nativePath ("//".toList ++ raw) ≠ windows.nativePath raw := by
  intro same
  have texts := Utf8.encode_inj.mp (Path.mk.inj same)
  have shorter := length_backslashed_le raw
  rw [← texts, backslashed_slashes, List.length_append, List.length_map] at shorter
  exact absurd shorter (by simp)

end FileLocator.Platform

namespace FileLocator.Locator

open Platform (windows other)

/-- The decoded text goes on behind `file://` with something else than a slash. -/
def NamesHost (locator : Locator) : Prop :=
  ∃ first rest, first ≠ '/' ∧ locator.decoded = .ok ("file://".toList ++ first :: rest)

/-! ## The ways a conversion goes -/

/-- A conversion that asks nothing. -/
def direct (locator : Locator) (platform : Platform) (raw : Text) : Traced (Except LocatorError PathOutcome) :=
  let path := platform.nativePath raw
  { value := .ok (.converted path), questions := [], records := [.decoded locator.text path] }

/-- A conversion that asks for a share. -/
def sharing (locator : Locator) (raw : Text) (present : Bool) : Traced (Except LocatorError PathOutcome) :=
  let candidate := "//".toList ++ raw
  let path := windows.nativePath (if present then candidate else raw)
  { value := .ok (.converted path)
    questions := [.presence (windows.nativePath candidate)]
    records := (if present then [] else [.missingShare candidate]) ++ [.decoded locator.text path] }

/-- The way that the conversions of a locator go. -/
inductive Course (locator : Locator) : Prop
  | foreign (elsewhere : locator.isFile = false)
      (runs : ∀ platform probe, locator.toPath platform probe = pure (.ok (.notApplicable locator.scheme)))
  | undecodable (fault : Percent.Fault) (nameless : ¬ locator.NamesHost)
      (runs : ∀ platform probe, locator.toPath platform probe = pure (.error (.undecodable locator.text fault)))
  | direct (raw : Text) (nameless : ¬ locator.NamesHost)
      (runs : ∀ platform probe, locator.toPath platform probe = locator.direct platform raw)
  | sharing (raw : Text) (named : locator.NamesHost)
      (plain : ∀ probe, locator.toPath other probe = locator.direct other raw)
      (asks : ∀ probe, locator.toPath windows probe =
        locator.sharing raw (probe.presence (windows.nativePath ("//".toList ++ raw))))

theorem toPath_of_decoded {locator : Locator} (file : locator.isFile = true) {text : Text}
    (read : locator.decoded = .ok text) (platform : Platform) (probe : Probe) :
    locator.toPath platform probe = (do
      let raw ← locator.rawPath platform probe text
      let path := platform.nativePath raw
      Traced.report (.decoded locator.text path)
      pure (.ok (.converted path))) := by
  rw [toPath, if_pos file, read]

theorem rawPath_of_not_lead (locator : Locator) {text : Text}
    (otherwise : Text.after? "file://".toList text = none) :
    ∃ raw, ∀ platform probe, locator.rawPath platform probe text = pure raw := by
  cases simple : Text.after? "file:/".toList text with
  | none =>
    refine ⟨locator.authorityPath, fun platform probe => ?_⟩
    rw [rawPath, otherwise, simple]
  | some rest =>
    refine ⟨'/' :: rest, fun platform probe => ?_⟩
    rw [rawPath, otherwise, simple]

theorem rawPath_lead (locator : Locator) (platform : Platform) (probe : Probe) (rest : Text) :
    locator.rawPath platform probe ("file://".toList ++ rest) =
      if platform.isWindows then shareOrDrive probe rest else pure rest := by
  rw [rawPath, Text.after?_append]

theorem shareOrDrive_of_solid (probe : Probe) {rest : Text} (solid : ¬ (rest = [] ∨ rest.head? = some '/')) :
    shareOrDrive probe rest =
      let candidate := "//".toList ++ rest
      let present := probe.presence (windows.nativePath candidate)
      { value := if present then candidate else rest
        questions := [.presence (windows.nativePath candidate)]
        records := if present then [] else [.missingShare candidate] } := by
  rw [shareOrDrive, if_neg solid]
  generalize "//".toList ++ rest = candidate
  cases present : probe.presence (windows.nativePath candidate) with
  | false => ext1 <;> simp [Probe.answer, present, -bind_pure_comp]
  | true => ext1 <;> simp [Probe.answer, present]

theorem not_namesHost_of_error {locator : Locator} {fault : Percent.Fault}
    (broken : locator.decoded = .error fault) :
    ¬ locator.NamesHost := by
  rintro ⟨first, rest, -, read⟩
  rw [read] at broken
  cases broken

theorem course_of_not_lead {locator : Locator} (file : locator.isFile = true) {text : Text}
    (read : locator.decoded = .ok text) (otherwise : Text.after? "file://".toList text = none) :
    locator.Course := by
  obtain ⟨raw, same⟩ := locator.rawPath_of_not_lead otherwise
  apply Course.direct raw
  · rintro ⟨first, rest, -, named⟩
    rw [read] at named
    rw [Except.ok.inj named, Text.after?_append] at otherwise
    cases otherwise
  · intro platform probe
    rw [toPath_of_decoded file read, same]
    rfl

/-- Where no host is named behind `file://`, nothing is asked on either platform. -/
theorem toPath_of_nameless {locator : Locator} (file : locator.isFile = true) {rest : Text}
    (read : locator.decoded = .ok ("file://".toList ++ rest)) (nameless : rest = [] ∨ rest.head? = some '/')
    (platform : Platform) (probe : Probe) : locator.toPath platform probe = locator.direct platform rest := by
  rw [toPath_of_decoded file read, rawPath_lead]
  cases platform with
  | windows =>
    rw [shareOrDrive, if_pos nameless]
    rfl
  | other => rfl

/-- Elsewhere than on Windows, what stands behind `file://` is the path as it is. -/
theorem toPath_other_of_lead {locator : Locator} (file : locator.isFile = true) {rest : Text}
    (read : locator.decoded = .ok ("file://".toList ++ rest)) (probe : Probe) :
    locator.toPath other probe = locator.direct other rest := by
  rw [toPath_of_decoded file read, rawPath_lead]
  rfl

/-- A path that the text spells behind `file://` is what the locator leads to, if it is text. -/
theorem toPath_of_spells {locator : Locator} (file : locator.isFile = true) (whole : locator.query? = none)
    {path : Path} (spells : Percent.Spells locator.text (Utf8.encode "file://".toList ++ path.bytes))
    (readable : Utf8.IsText path.bytes) (probe : Probe) :
    (locator.toPath other probe).value = .ok (.converted path) := by
  obtain ⟨shown, bytes⟩ := readable
  rw [bytes, ← Utf8.encode_append] at spells
  have read := decoded_of_spells whole spells
  rw [Utf8.decode_encode] at read
  rw [toPath_other_of_lead file read]
  change Except.ok (PathOutcome.converted ⟨Utf8.encode shown⟩) = _
  rw [← bytes]

theorem course_of_lead {locator : Locator} (file : locator.isFile = true) {rest : Text}
    (read : locator.decoded = .ok ("file://".toList ++ rest)) : locator.Course := by
  by_cases solid : rest = [] ∨ rest.head? = some '/'
  · apply Course.direct rest
    · rintro ⟨first, behind, differs, named⟩
      rw [read] at named
      rw [List.append_cancel_left (Except.ok.inj named)] at solid
      simp [differs] at solid
    · exact toPath_of_nameless file read solid
  · apply Course.sharing rest
    · cases rest with
      | nil => exact absurd (.inl rfl) solid
      | cons first behind => exact ⟨first, behind, fun same => solid (.inr (by rw [same]; rfl)), read⟩
    · exact toPath_other_of_lead file read
    · intro probe
      rw [toPath_of_decoded file read, rawPath_lead]
      change (shareOrDrive probe rest >>= _) = _
      rw [shareOrDrive_of_solid probe solid]
      rfl

theorem course (locator : Locator) : locator.Course := by
  by_cases file : locator.isFile = true
  · cases read : locator.decoded with
    | error fault =>
      apply Course.undecodable fault (not_namesHost_of_error read)
      intro platform probe
      rw [toPath, if_pos file, read]
    | ok text =>
      cases lead : Text.after? "file://".toList text with
      | none => exact course_of_not_lead file read lead
      | some rest =>
        rw [Text.after?_eq_some_iff] at lead
        rw [lead] at read
        exact course_of_lead file read
  · apply Course.foreign (Bool.eq_false_iff.mpr file)
    intro platform probe
    rw [toPath, if_neg file]

/-! ## Both platforms -/

/-- What Windows makes of a locator whose path is the text `raw` elsewhere: the path shown as `plain`, or the
share that two slashes in front of it name, shown as `share`. -/
structure Reshaped (locator : Locator) (probe : Probe) (raw plain share : Text) : Prop where
  plain_shape : Platform.Shapes raw plain
  share_shape : Platform.Shapes ("//".toList ++ raw) share
  shape : (locator.toPath windows probe).value = .ok (.converted (.ofText plain)) ∨
    (locator.toPath windows probe).value = .ok (.converted (.ofText share))
  asks_iff : (locator.toPath windows probe).questions = [.presence (.ofText share)] ↔ locator.NamesHost
  quiet_iff : (locator.toPath windows probe).questions = [] ↔ ¬ locator.NamesHost
  share_iff : (locator.toPath windows probe).value = .ok (.converted (.ofText share)) ↔
    locator.NamesHost ∧ probe.presence (.ofText share) = true
  missing_iff : .missingShare ("//".toList ++ raw) ∈ (locator.toPath windows probe).records ↔
    locator.NamesHost ∧ probe.presence (.ofText share) = false
  debug : ∀ record ∈ (locator.toPath windows probe).records, record.level = .debug →
    record = .missingShare ("//".toList ++ raw)

/-- What a conversion on Windows has to do with one elsewhere, whatever the two probes say. -/
structure Reshapes (locator : Locator) (probe elsewhere : Probe) : Prop where
  quiet : (locator.toPath other elsewhere).questions = []
  error : ∀ error, (locator.toPath windows probe).value = .error error ↔
    (locator.toPath other elsewhere).value = .error error
  notApplicable : ∀ scheme, (locator.toPath windows probe).value = .ok (.notApplicable scheme) ↔
    (locator.toPath other elsewhere).value = .ok (.notApplicable scheme)
  converted : ∀ path, (locator.toPath other elsewhere).value = .ok (.converted path) →
    ∃ raw plain share, path = .ofText raw ∧ Reshaped locator probe raw plain share
  /-- Nothing is asked or reported where there is no path. -/
  otherwise : (∀ path, (locator.toPath other elsewhere).value ≠ .ok (.converted path)) →
    ¬ locator.NamesHost ∧ (locator.toPath windows probe).questions = [] ∧
      (locator.toPath windows probe).records = []

theorem reshapes_of_pure {locator : Locator} {result : Except LocatorError PathOutcome}
    (nameless : ¬ locator.NamesHost) (pathless : ∀ path, result ≠ .ok (.converted path))
    (runs : ∀ platform probe, locator.toPath platform probe = pure result) (probe elsewhere : Probe) :
    Reshapes locator probe elsewhere where
  quiet := by rw [runs]; rfl
  error error := by rw [runs, runs]
  notApplicable scheme := by rw [runs, runs]
  converted path same := by
    rw [runs] at same
    exact absurd same (pathless path)
  otherwise _ := by
    rw [runs]
    exact ⟨nameless, rfl, rfl⟩

section Shown

variable {locator : Locator} {probe : Probe} {raw plain share : Text}
  (plain_shape : Platform.Shapes raw plain) (share_shape : Platform.Shapes ("//".toList ++ raw) share)

include plain_shape share_shape

theorem converted_plain_ne_share :
    (.ok (.converted (.ofText plain)) : Except LocatorError PathOutcome) ≠ .ok (.converted (.ofText share)) := by
  intro same
  apply Platform.nativePath_slashes_ne raw
  rw [Platform.nativePath_of_shapes plain_shape, Platform.nativePath_of_shapes share_shape]
  exact (PathOutcome.converted.inj (Except.ok.inj same)).symm

theorem reshaped_of_direct (nameless : ¬ locator.NamesHost)
    (runs : locator.toPath windows probe = locator.direct windows raw) :
    Reshaped locator probe raw plain share := by
  rw [direct, Platform.nativePath_of_shapes plain_shape] at runs
  exact
  { plain_shape, share_shape
    shape := by
      rw [runs]
      exact .inl rfl
    asks_iff := by
      rw [runs]
      exact iff_of_false (List.cons_ne_nil _ _).symm nameless
    quiet_iff := by
      rw [runs]
      exact iff_of_true rfl nameless
    share_iff := by
      rw [runs]
      exact iff_of_false (converted_plain_ne_share plain_shape share_shape) fun both => nameless both.1
    missing_iff := by
      rw [runs]
      refine iff_of_false ?_ fun both => nameless both.1
      simp
    debug := by
      rw [runs]
      simp [Record.level] }

theorem reshaped_of_sharing (named : locator.NamesHost)
    (runs : locator.toPath windows probe =
      locator.sharing raw (probe.presence (windows.nativePath ("//".toList ++ raw)))) :
    Reshaped locator probe raw plain share := by
  rw [sharing, apply_ite windows.nativePath, Platform.nativePath_of_shapes plain_shape,
    Platform.nativePath_of_shapes share_shape] at runs
  exact
  { plain_shape, share_shape
    shape := by
      rw [runs]
      cases probe.presence (.ofText share) with
      | false => exact .inl rfl
      | true => exact .inr rfl
    asks_iff := by
      rw [runs]
      exact iff_of_true rfl named
    quiet_iff := by
      rw [runs]
      exact iff_of_false (List.cons_ne_nil _ _) (not_not.mpr named)
    share_iff := by
      rw [runs]
      cases probe.presence (.ofText share) with
      | false =>
        exact iff_of_false (converted_plain_ne_share plain_shape share_shape) fun both => Bool.false_ne_true both.2
      | true => exact iff_of_true rfl ⟨named, rfl⟩
    missing_iff := by
      rw [runs]
      cases probe.presence (.ofText share) with
      | false => exact iff_of_true (List.mem_cons_self ..) ⟨named, rfl⟩
      | true =>
        refine iff_of_false ?_ fun both => Bool.false_ne_true both.2.symm
        simp
    debug := by
      rw [runs]
      cases probe.presence (.ofText share) <;> simp [Record.level] }

end Shown

theorem reshapes_of_reshaped {locator : Locator} {raw plain share : Text} {probe elsewhere : Probe}
    (runs : locator.toPath other elsewhere = locator.direct other raw)
    (reshaped : Reshaped locator probe raw plain share) :
    Reshapes locator probe elsewhere where
  quiet := by
    rw [runs]
    rfl
  error error := by
    rw [runs]
    refine iff_of_false ?_ (by simp [Locator.direct])
    rcases reshaped.shape with same | same <;> simp [same]
  notApplicable scheme := by
    rw [runs]
    refine iff_of_false ?_ (by simp [Locator.direct])
    rcases reshaped.shape with same | same <;> simp [same]
  converted path same := by
    rw [runs] at same
    exact ⟨raw, plain, share, (PathOutcome.converted.inj (Except.ok.inj same)).symm, reshaped⟩
  otherwise pathless := by
    rw [runs] at pathless
    exact absurd rfl (pathless _)

/-- Windows reshapes what the other platform decodes, and asks only for the share of a named host. -/
theorem toPath_reshapes {locator : Locator}
    (reachable : Reachable (fun url => Url.Scheme.IsProper url.scheme) locator) (probe elsewhere : Probe) :
    Reshapes locator probe elsewhere := by
  cases locator.course with
  | foreign unlike runs =>
    refine reshapes_of_pure ?_ (by simp) runs probe elsewhere
    rintro ⟨first, rest, -, read⟩
    rw [reachable.isFile_of_decoded read] at unlike
    cases unlike
  | undecodable fault nameless runs => exact reshapes_of_pure nameless (by simp) runs probe elsewhere
  | direct raw nameless runs =>
    have reshaped := reshaped_of_direct (Platform.shapes_iff.mpr rfl) (Platform.shapes_iff.mpr rfl) nameless
      (runs windows probe)
    exact reshapes_of_reshaped (runs other elsewhere) reshaped
  | sharing raw named plain asks =>
    have reshaped := reshaped_of_sharing (Platform.shapes_iff.mpr rfl) (Platform.shapes_iff.mpr rfl) named
      (asks probe)
    exact reshapes_of_reshaped (plain elsewhere) reshaped

/-- Windows asks for the share, and what the probe says decides between the two paths. -/
theorem toPath_reshapes_share : ∃ locator, parse "file://server/share/a.shp".toList = .ok locator ∧
    locator.NamesHost ∧ ∀ probe elsewhere, Reshapes locator probe elsewhere ∧
      let share := Path.ofText "\\\\server\\share\\a.shp".toList
      (locator.toPath windows probe).questions = [.presence share] ∧
      (probe.presence share = true → (locator.toPath windows probe).value = .ok (.converted share)) ∧
      (probe.presence share = false →
        (locator.toPath windows probe).value = .ok (.converted (.ofText "server\\share\\a.shp".toList))) := by
  have runs : ∃ locator, parse "file://server/share/a.shp".toList = .ok locator ∧ locator.isFile = true ∧
      locator.decoded = .ok ("file://".toList ++ "server/share/a.shp".toList) := ⟨_, rfl, rfl, rfl⟩
  obtain ⟨locator, read, file, decoded⟩ := runs
  have named : locator.NamesHost := ⟨'s', "erver/share/a.shp".toList, by decide, decoded⟩
  refine ⟨locator, read, named, fun probe elsewhere => ?_⟩
  have reshapes := toPath_reshapes (.parse read) probe elsewhere
  have plainly := congrArg Traced.value (toPath_other_of_lead file decoded elsewhere)
  obtain ⟨raw, plain, share, path, reshaped⟩ := reshapes.converted _ plainly
  obtain rfl := Utf8.encode_inj.mp (Path.mk.inj path)
  obtain rfl : plain = "server\\share\\a.shp".toList := Platform.shapes_iff.mp reshaped.plain_shape
  obtain rfl : share = "\\\\server\\share\\a.shp".toList := Platform.shapes_iff.mp reshaped.share_shape
  refine ⟨reshapes, reshaped.asks_iff.mpr named, fun present => reshaped.share_iff.mpr ⟨named, present⟩, ?_⟩
  intro missing
  apply reshaped.shape.resolve_right
  intro found
  exact Bool.false_ne_true (missing.symm.trans (reshaped.share_iff.mp found).2)

end FileLocator.Locator
