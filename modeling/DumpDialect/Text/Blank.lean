import DumpDialect.Text.Basic
import DumpDialect.Text.Ranges

/-!
# Blanks

The blanks are the characters of Unicode that separate words or lines: the spaces of category Zs,
the line and paragraph separators, and the controls with bidirectional type B, S or WS. The zero
width characters (U+200B, U+FEFF) are none.
-/

namespace DumpDialect

/-- The code points of the blanks. -/
def blankRanges : List (Nat × Nat) :=
  [(0x09, 0x0D), (0x1C, 0x20), (0x85, 0x85), (0xA0, 0xA0), (0x1680, 0x1680), (0x2000, 0x200A),
   (0x2028, 0x2029), (0x202F, 0x202F), (0x205F, 0x205F), (0x3000, 0x3000)]

/-- Whether the symbol is a blank. A raw byte is none. -/
def Symbol.isBlank : Symbol → Bool
  | .char c => inRanges blankRanges c.toNat
  | .raw _ => false

/-- What core takes for white space is blank. -/
theorem Symbol.isBlank_of_isWhitespace {c : Char} (h : c.isWhitespace = true) :
    (Symbol.char c).isBlank = true := by
  simp only [Char.isWhitespace, Bool.or_eq_true, decide_eq_true_eq] at h
  rcases h with ((rfl | rfl) | rfl) | rfl <;> decide

namespace Text

/-- The text without the blanks at its start. -/
def trimStart (t : Text) : Text := t.dropWhile Symbol.isBlank

/-- The text without the blanks at its two ends. -/
def trim (t : Text) : Text := t.trimStart.dropEndWhile Symbol.isBlank

end Text

end DumpDialect
