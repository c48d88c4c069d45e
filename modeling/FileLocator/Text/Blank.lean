import FileLocator.Text.Basic
import FileLocator.Text.Ranges

/-! # Blanks

Two kinds of blank space. `isBlank` is the Unicode property `White_Space`, which settings are
trimmed by. `isEdgeBlank` and `isBreak` are the narrower ASCII kinds that surround a locator or
interrupt it.
-/

namespace FileLocator.Text

/-- The characters with the Unicode property `White_Space`. -/
def blanks : Ranges :=
  { bounds :=
      [(0x09, 0x0D), (0x20, 0x20), (0x85, 0x85), (0xA0, 0xA0), (0x1680, 0x1680), (0x2000, 0x200A),
      (0x2028, 0x2029), (0x202F, 0x202F), (0x205F, 0x205F), (0x3000, 0x3000)]
    ascending := by decide }

def isBlank (c : Char) : Bool := blanks.contains c

/-- Every blank of core's ASCII class is one. -/
theorem isBlank_of_isWhitespace {c : Char} (blank : c.isWhitespace = true) : isBlank c = true := by
  simp only [Char.isWhitespace, Bool.or_eq_true, decide_eq_true_eq] at blank
  rcases blank with ((rfl | rfl) | rfl) | rfl <;> decide

/-- The space and the control characters below it, which may stand around a locator. -/
def isEdgeBlank (c : Char) : Bool := c ≤ ' '

/-- Tab and the two line breaks, which may stand anywhere in a locator and are skipped. -/
def isBreak (c : Char) : Bool := c == '\t' || c == '\n' || c == '\r'

theorem isEdgeBlank_of_isBreak {c : Char} (skipped : isBreak c = true) : isEdgeBlank c = true := by
  simp only [isBreak, Bool.or_eq_true, beq_iff_eq] at skipped
  rcases skipped with (rfl | rfl) | rfl <;> decide

/-- Text without its breaks. -/
def unbroken (written : Text) : Text := written.filter fun c => !isBreak c

/-- What is left of a written locator: nothing blank around it, no break inside. -/
def clean (written : Text) : Text := unbroken (trim isEdgeBlank written)

end FileLocator.Text
