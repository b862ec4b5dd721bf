import DumpDialect.Text.Basic

/-!
# Letters without their case

Keywords may be written in either case. Comparison without case is Unicode's simple one, so a few
letters beyond ASCII fall together with a letter of a keyword: the long s with `s`, the Kelvin sign
with `k`, and the dotted capital and the dotless small i with `i`. No other character beyond ASCII
falls together with an ASCII letter.
-/

namespace DumpDialect

/-- The small ASCII letter that the character is a form of, and otherwise the character. -/
def foldedChar (c : Char) : Char :=
  if c.isUpper then c.toLower
  else if c = '\u017F' then 's'
  else if c = '\u212A' then 'k'
  else if c = '\u0130' ∨ c = '\u0131' then 'i'
  else c

/-- The symbol without its case. -/
def Symbol.folded : Symbol → Symbol
  | .char c => .char (foldedChar c)
  | .raw b => .raw b

end DumpDialect
