import DumpDialect.Identifier
import DumpDialect.Rule

/-!
# INSERT

pg_dump writes a row as an INSERT statement of one line, or of several if a value holds line
breaks. The columns are quoted, zone offsets of timestamps are cut off, binary literals are put
into MySQL's form, and backslashes, which MySQL reads as escapes, are doubled where the dumps need
it.
-/

namespace DumpDialect.Insert

open Pattern

/-- The start of the statement; group 1 is the table. -/
def header : Pattern := inOrder [blanks, "INSERT INTO ", group 1 ink]

/-- The start of the statement with its list of columns; the groups are the table and the list. -/
def columns : Pattern :=
  inOrder [blanks, eitherCase "insert into ", group 1 ink, blanks, "(",
    group 2 (someOf (Symbol.isNotIn ")")), ")"]

/-- A closing parenthesis and a semicolon at the end of a line: the end of a CREATE TABLE or INSERT
statement. -/
def parenthesisEnd : Pattern := inOrder [");", finish]

/-- The rule that lets MySQL go on past rows that do not conform. -/
def ignoreRule : Rule :=
  .once "insert_ignore" (inOrder [start, blanks, "INSERT INTO "]) ["INSERT IGNORE INTO "]

/-- The rules for values: a timestamp loses the offset of its zone, the escapes of tab and newline
gain a backslash, and a string of bytes becomes a hexadecimal literal. -/
def valueRules : List Rule :=
  [ .throughout "timestamp_offset"
      (inOrder ["'",
        group 1 (inOrder [exactly 4 Symbol.isDigit, "-", exactly 2 Symbol.isDigit, "-",
          exactly 2 Symbol.isDigit, " ", exactly 2 Symbol.isDigit, ":",
          exactly 2 Symbol.isDigit, ":", exactly 2 Symbol.isDigit, ".", one Symbol.isDigit,
          atMost Symbol.isDigit 5]),
        one (Symbol.isIn "-+"), exactly 2 Symbol.isDigit, "'"])
      ["'", .group 1, "'"],
    .throughout "tab_newline_escape"
      (inOrder ["\\", group 1 (one (Symbol.isIn "nt"))]) ["\\\\", .group 1],
    .throughout "hex_literal"
      (inOrder ["'\\x", group 1 (run (Symbol.isIn "0123456789abcdefABCDEF")), "'"])
      ["X'", .group 1, "'"] ]

/-- The rules for backslashes in front of quotes. They run after the quotes of a line are
counted. -/
def escapeRules : List Rule :=
  [ .throughout "escaped_quote_pair" "\\''" ["\\\\''"],
    .throughout "escaped_double_quote" "\\\"" ["\\\\\""] ]

/-- The line with the columns of its list quoted, if it has one. -/
def quoteColumns [Quoting] (line : Text) : Text :=
  match columns.atStart? line with
  | some m =>
    "INSERT INTO " ++ m.group 1 ++ " (" ++ ColumnList.quote (m.group 2) ++ ")" ++ m.after
  | none => line

end DumpDialect.Insert
