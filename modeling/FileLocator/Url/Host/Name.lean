import FileLocator.Text.Extender
import FileLocator.Text.Folding
import FileLocator.Text.Unseen
import FileLocator.Url.Host.Punycode

/-! # Names in ASCII

A name beyond ASCII is mapped first: its characters fold, and some that show nothing are dropped. Labels that
have other characters still are written in Punycode behind a mark. Whether it was written here or found in
the name, what stands behind the mark has to be the one form of a label that is fit for names
(`isSound`).

The mapping is that of single characters. Ligatures and the like are not taken apart, a letter is not joined
with the marks behind it, and neither where joiners may stand nor which way text runs is looked at.
-/

namespace FileLocator.Url.Host

open Text (pieces after?)

/-- The characters that names are written without: the soft hyphen, variation selectors, and what only keeps
words together or apart. -/
def ignored : Text.Ranges :=
  { bounds :=
      [(0xAD, 0xAD), (0x34F, 0x34F), (0x180B, 0x180F), (0x200B, 0x200B), (0x2060, 0x2060), (0x2064, 0x2064),
      (0xFE00, 0xFE0F), (0xFEFF, 0xFEFF), (0x1BCA0, 0x1BCA3), (0xE0100, 0xE01EF)]
    ascending := by decide }

/-- What a character of a name stands for. ASCII characters are left alone. -/
def mappedChar (c : Char) : Text :=
  if c.toNat < 128 then [c] else if ignored.contains c then [] else [Text.fold c]

def mapped (name : Text) : Text := name.flatMap mappedChar

theorem mappedChar_of_ascii {c : Char} (ascii : c.toNat < 128) : mappedChar c = [c] := if_pos ascii

theorem mapped_eq_self {name : Text} (stays : ∀ c ∈ name, mappedChar c = [c]) : mapped name = name := by
  induction name with
  | nil => rfl
  | cons c rest ih =>
    obtain ⟨here, behind⟩ := List.forall_mem_cons.mp stays
    rw [mapped, List.flatMap_cons, here]
    exact congrArg (c :: ·) (ih behind)

theorem mem_mapped {name : Text} {c : Char} (ascii : c.toNat < 128) (member : c ∈ name) : c ∈ mapped name := by
  refine List.mem_flatMap.mpr ⟨c, member, ?_⟩
  rw [mappedChar_of_ascii ascii]
  exact List.mem_singleton_self c

/-- No character that is kept folds to one that is dropped. -/
theorem contains_ignored_fold {c : Char} (kept : ignored.contains c = false) :
    ignored.contains (Text.fold c) = false := by
  have apart : ∀ fold ∈ Text.folding.folds, ∀ range ∈ ignored.bounds,
      fold.image + (fold.last - fold.first) < range.1 ∨ range.2 < fold.image := by
    decide +kernel
  rw [← Bool.not_eq_true, Text.Ranges.contains_iff, Text.toNat_fold]
  rintro ⟨range, member, low, high⟩
  obtain same | ⟨fold, member', held, folded⟩ := Text.folding.point_cases c.toNat
  · rw [same] at low high
    exact Bool.eq_false_iff.mp kept (Text.Ranges.contains_iff.mpr ⟨range, member, low, high⟩)
  · have within := Text.Fold.le_point held
    have beside := apart fold member' range member
    omega

/-- Mapping a name that is mapped changes nothing. -/
theorem mapped_mapped (name : Text) : mapped (mapped name) = mapped name := by
  apply mapped_eq_self
  intro c member
  obtain ⟨written, -, stands⟩ := List.mem_flatMap.mp member
  rw [mappedChar] at stands
  split at stands
  · next ascii =>
    rw [List.mem_singleton.mp stands, mappedChar_of_ascii ascii]
  · split at stands
    · cases stands
    · next kept =>
      rw [List.mem_singleton.mp stands, mappedChar, Text.fold_fold,
        contains_ignored_fold (Bool.of_not_eq_true kept)]
      exact ite_self _

example : mapped "ＡÄ。d\u00ADe".toList = "aä.de".toList := by decide +kernel

/-- A label in ASCII. -/
def asciiLabel (label : Text) : Text :=
  if label.all fun c => c.toNat < 128 then label else "xn--".toList ++ Punycode.encode label

/-- A name in ASCII and lower case. -/
def asciiName (name : Text) : Text :=
  (pieces (· == '.') (name.map Char.toLower)).map asciiLabel |>.intersperse ['.'] |>.flatten

/-- Characters that no name may hold: all that show nothing, apart from the two joiners, and the two that stand in
for something else. -/
def isUnfit (c : Char) : Bool :=
  Text.isUnseen c && c != '\u200C' && c != '\u200D' || c == '\uFFFC' || c == '\uFFFD'

/-- May a label beyond ASCII stand in a name as it is? -/
def isFit (label : Text) : Bool :=
  label.any (128 ≤ ·.toNat) && mapped label == label && !label.any isUnfit && !label.head?.any Text.isExtender &&
    (after? "xn--".toList label).isNone

/-- Is what stands behind the mark of a label in ASCII, if there is one, the form of a label that is fit? -/
def isSoundLabel (label : Text) : Bool :=
  match after? "xn--".toList label with
  | none => true
  | some form => (Punycode.decode? form).any fun shown => Punycode.encode shown == form && isFit shown

def isSound (name : Text) : Bool := (pieces (· == '.') name).all isSoundLabel

end FileLocator.Url.Host
