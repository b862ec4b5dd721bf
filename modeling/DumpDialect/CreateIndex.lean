import DumpDialect.Rule

/-!
# CREATE INDEX

An index is a statement of one line. Its method and the operator classes of its columns are
dropped. The list of columns may hold expressions, so a statement is read only as far as its table.
-/

namespace DumpDialect.CreateIndex

open Pattern

/-- The start of the statement. -/
def header : Pattern := inOrder [blanks, "CREATE ", optional (group 1 "UNIQUE "), "INDEX"]

/-- The statement up to its table; group 2 is the index and group 3 the table. -/
def target : Pattern :=
  inOrder ["CREATE ", optional (group 1 "UNIQUE "), "INDEX ", group 2 ink, " ON ",
    optional "ONLY ", group 3 (someOf fun s => !s.isBlank && s ≠ .char '(')]

/-- The rules that drop what MySQL lacks: pg_dump writes ON ONLY for the index of a partitioned
table. -/
def rules : List Rule :=
  [ .once "on_only" " ON ONLY " [" ON "],
    .once "using_method" (inOrder [" USING ", identifier]) [],
    .throughout "pattern_ops" (inOrder [" ", identifier, "_pattern_ops", wordEdge]) [] ]

end DumpDialect.CreateIndex
