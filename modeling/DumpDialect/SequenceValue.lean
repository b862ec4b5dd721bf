import DumpDialect.Pattern.Search

/-!
# Sequence values

pg_dump sets a sequence to its value by a SELECT of `setval`, and PostgreSQL names the sequence of
a column after schema, table and column. MySQL keeps the value with the table.
-/

namespace DumpDialect.SequenceValue

open Pattern

/-- The call that marks the statement. -/
def marker : Pattern := "pg_catalog.setval"

/-- The statement; its groups are the table, with its schema, and the value. -/
def statement : Pattern :=
  inOrder [eitherCase "select pg_catalog.setval('",
    group 1 (inOrder [identifier, ".", identifier]), "_", identifier, eitherCase "_seq',",
    someOf Symbol.isBlank, group 2 (someOf Symbol.isDigit)]

/-- The table and the value that the line sets. -/
def read? (line : Text) : Option (Text × Text) :=
  (statement.find line).map fun m => (m.group 1, m.group 2)

/-- MySQL's statement that sets the next value of a table. -/
def written (table value : Text) : Text :=
  "ALTER TABLE " ++ table ++ " AUTO_INCREMENT = " ++ value ++ ";"

end DumpDialect.SequenceValue
