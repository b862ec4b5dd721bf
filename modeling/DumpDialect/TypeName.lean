import DumpDialect.Pattern.Basic

/-!
# Names of types

The type names of PostgreSQL as they stand after `::` in a cast: a word, or one of the built-in
names of several words, then a length or a precision and a scale, then `[]` for an array.
-/

namespace DumpDialect.TypeName

open Pattern

/-- The precision of a time in parentheses, one digit of 0 to 6. -/
def precision : Pattern := inOrder ["(", one (Symbol.isIn "0123456"), ")"]

/-- The name `word` of a time or timestamp type that says whether it has a time zone. -/
def zoned (word : String) : Pattern :=
  inOrder [word, optional precision, " with", optional "out", " time zone"]

/-- A length, or a precision and a scale, in parentheses. -/
def size : Pattern :=
  inOrder ["(", someOf Symbol.isDigit,
    optional (inOrder [",", blanks, someOf Symbol.isDigit]), ")"]

/-- The type name of a cast. A name of several words is tried before its first word. -/
def castTarget : Pattern :=
  inOrder
    [anyOf ["character varying", "bit varying", "double precision", zoned "timestamp",
      zoned "time", identifier],
    optional size, optional "[]"]

/-- A cast: `::` and the name of the type. -/
def cast : Pattern := inOrder ["::", castTarget]

end DumpDialect.TypeName
