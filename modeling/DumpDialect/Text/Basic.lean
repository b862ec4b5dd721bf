/-!
# Text

A dump is text in UTF-8. Dumps of databases in other encodings occur too and have to come through
byte for byte, so a text is a list of symbols: characters, and single bytes that are part of no
character. A raw byte belongs to no character class and compares equal only to itself.

- `Text.ofString`, `Text.ofNat`, `Text.ofInt` write text; a string stands for its text wherever a
  text is expected.
- `Text.hasInfix`, `Text.fields`, `Text.joined`, `Text.dropEndWhile` are the list operations that
  the core library has not, or has in another form.
-/

namespace DumpDialect

/-- A symbol of a text: a character, or a byte that is part of none. -/
inductive Symbol where
  | char (c : Char)
  | raw (b : UInt8)
deriving DecidableEq

namespace Symbol

instance : Coe Char Symbol := ⟨char⟩

/-- The character that a symbol is; none for a raw byte. -/
def char? : Symbol → Option Char
  | char c => some c
  | raw _ => none

/-- LF, which ends a line. -/
abbrev lineFeed : Symbol := char '\n'

/-- CR, which may stand in front of LF. -/
abbrev carriageReturn : Symbol := char '\r'

end Symbol

/-- A text is the list of its symbols. -/
abbrev Text := List Symbol

namespace Text

/-- The text of a string. -/
def ofString (s : String) : Text := s.toList.map .char

instance : Coe String Text := ⟨ofString⟩

/-- The string of the characters of a text. A string holds no raw bytes; they are left out. -/
def toString (t : Text) : String := String.ofList (t.filterMap Symbol.char?)

/-- A natural number in decimal. -/
def ofNat (n : Nat) : Text := (Nat.toDigits 10 n).map .char

/-- An integer in decimal, with a minus sign if it is negative. -/
def ofInt : Int → Text
  | .ofNat n => ofNat n
  | .negSucc n => .char '-' :: ofNat (n + 1)

/-- A truth value as a word. -/
def ofBool (b : Bool) : Text := if b then "True" else "False"

/-- The texts one after the other, with `separator` between neighbours. -/
def joined (separator : Text) (texts : List Text) : Text := separator.intercalate texts

/-- Whether the word occurs anywhere in the text. -/
def hasInfix : Text → Text → Bool
  | [], word => word.isEmpty
  | s :: rest, word => word.isPrefixOf (s :: rest) || hasInfix rest word

/-- The stretches between the occurrences of `separator`, the empty ones included: one more than
there are separators. -/
def fields (separator : Symbol) : Text → List Text
  | [] => [[]]
  | s :: rest =>
    if s = separator then [] :: fields separator rest
    else match fields separator rest with
      | [] => [[s]]
      | field :: more => (s :: field) :: more

/-- The text without the longest run of symbols of the class at its end. -/
def dropEndWhile (ok : Symbol → Bool) (t : Text) : Text := (t.reverse.dropWhile ok).reverse

/-- A string is read back from its text. -/
@[simp] theorem toString_ofString (s : String) : toString (ofString s) = s := by
  rw [toString, ofString, List.filterMap_map, show Symbol.char? ∘ Symbol.char = some from rfl,
    List.filterMap_some, String.ofList_toList]

@[simp] theorem ofString_append (s t : String) : ofString (s ++ t) = ofString s ++ ofString t := by
  simp [ofString]

/-- There is always a field, since there is one more than there are separators. -/
theorem fields_ne_nil (separator : Symbol) (t : Text) : fields separator t ≠ [] := by
  cases t with
  | nil => simp [fields]
  | cons s rest =>
    rw [fields]
    split
    · simp
    · split <;> simp

/-- Joining the fields of a text with their separator gives the text back. -/
theorem joined_fields (separator : Symbol) (t : Text) :
    joined [separator] (fields separator t) = t := by
  induction t with
  | nil => rfl
  | cons s rest ih =>
    rw [fields]
    split
    · next h =>
      subst h
      generalize hf : fields s rest = fs at ih ⊢
      cases fs with
      | nil => exact absurd hf (fields_ne_nil _ _)
      | cons f fs => simpa [joined, List.intercalate] using ih
    · split
      · next h => exact absurd h (fields_ne_nil _ _)
      · next f more h =>
        rw [h] at ih
        cases more <;> simpa [joined, List.intercalate] using ih

end Text

end DumpDialect
