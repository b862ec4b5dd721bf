import DumpDialect.Text.Basic
import DumpDialect.Text.Printable

/-!
# Text in messages

Two forms in which a text is shown to a user.

- `Text.quoted` puts it between single quotes, or between double quotes if it holds a single quote
  and no double one, and escapes what would not show.
- `Text.escapeRaw` replaces each raw byte by the escape of its stand-in among the code points, so
  that the result holds characters only.
-/

namespace DumpDialect

/-- The number in hexadecimal with `width` digits at least. -/
def hexDigits (width n : Nat) : List Char :=
  let digits := Nat.toDigits 16 n
  List.replicate (width - digits.length) '0' ++ digits

namespace Symbol

/-- The escape of a byte that is part of no character: the low surrogates U+DC80 to U+DCFF stand
for the bytes 0x80 to 0xFF. -/
private def rawEscape (b : UInt8) : Text :=
  Text.ofString "\\u" ++ (hexDigits 4 (0xDC00 + b.toNat)).map .char

/-- A symbol without a raw byte: a raw byte's escape, and a character as it is. -/
def escapeRaw : Symbol → Text
  | .char c => [.char c]
  | .raw b => rawEscape b

/-- A symbol between quotes of the kind `quote`. -/
private def quotedBy (quote : Char) : Symbol → Text
  | .raw b => rawEscape b
  | .char c =>
    if c = quote ∨ c = '\\' then ['\\', c]
    else if c = '\n' then Text.ofString "\\n"
    else if c = '\r' then Text.ofString "\\r"
    else if c = '\t' then Text.ofString "\\t"
    else if isPrintable c then [.char c]
    else if c.toNat < 0x100 then Text.ofString "\\x" ++ (hexDigits 2 c.toNat).map .char
    else if c.toNat < 0x10000 then Text.ofString "\\u" ++ (hexDigits 4 c.toNat).map .char
    else Text.ofString "\\U" ++ (hexDigits 8 c.toNat).map .char

end Symbol

namespace Text

/-- The text with the escape of its stand-in in place of each raw byte. -/
def escapeRaw (t : Text) : Text := t.flatMap Symbol.escapeRaw

/-- The text between quotes. -/
def quoted (t : Text) : Text :=
  let single : Char := '\x27'
  let double : Char := '\x22'
  let quote := if t.contains (.char single) && !t.contains (.char double) then double else single
  .char quote :: t.flatMap (Symbol.quotedBy quote) ++ [.char quote]

end Text

end DumpDialect
