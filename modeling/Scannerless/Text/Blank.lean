import Scannerless.Text.CodeRanges

/-!
# Blank characters

White space: the separators of Unicode and the controls that move the carriage or separate records.
-/
namespace Scannerless.Text

/-- All blank characters, as ascending ranges of scalar values. -/
def blankRanges : CodeRanges :=
  [(0x9, 0xD), (0x1C, 0x20), (0x85, 0x85), (0xA0, 0xA0), (0x1680, 0x1680), (0x2000, 0x200A),
   (0x2028, 0x2029), (0x202F, 0x202F), (0x205F, 0x205F), (0x3000, 0x3000)]

theorem blankRanges_ascend : CodeRanges.ascends 0 blankRanges = true := by
  decide +kernel

/-- Holds of a white-space character. -/
def isBlank (c : Char) : Bool :=
  blankRanges.mem c

end Scannerless.Text
