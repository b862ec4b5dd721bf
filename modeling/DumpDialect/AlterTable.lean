import DumpDialect.Identifier
import DumpDialect.Rule

/-!
# ALTER TABLE

pg_dump adds keys, foreign keys, owners and the defaults of sequences by ALTER TABLE statements of
one or two lines. `AlterTable.rules` drop the clauses that MySQL lacks, and `AlterTable.quoteKey`
quotes the columns of a key.
-/

namespace DumpDialect.AlterTable

open Pattern

/-- The start of the statement; group 1 is the table. -/
def header : Pattern := inOrder [blanks, "ALTER TABLE ", group 1 ink]

/-- A statement that names the owner of a table. -/
def ownerChange : Pattern := inOrder ["ALTER TABLE ", run Symbol.isInLine, " OWNER TO"]

/-- A clause that adds a foreign key; group 1 is the table it points to, with blanks after it. -/
def foreignKeyTarget : Pattern :=
  inOrder [blanks, "ADD CONSTRAINT ", many .least Symbol.isInLine, " FOREIGN KEY ",
    many .least Symbol.isInLine, " REFERENCES ", group 1 (someOf (Symbol.isNotIn "("))]

/-- A line that adds a unique or primary key; its groups are the indentation, the name of the key,
its kind and its columns. -/
def keyConstraint : Pattern :=
  inOrder [group 1 blanks, "ADD CONSTRAINT ", group 2 ink, " ",
    group 3 (anyOf ["UNIQUE", "PRIMARY KEY"]), " (", group 4 (run (Symbol.isNotIn ")")), ");"]

/-- A statement that makes a sequence the default of a column; its groups are the table and the
column. -/
def sequenceDefault : Pattern :=
  inOrder [blanks, eitherCase "alter table ", group 1 ink, eitherCase " alter column ",
    group 2 ink, eitherCase " set default nextval"]

/-- A semicolon at the end of a line. -/
def statementEnd : Pattern := inOrder [";", finish]

/-- The end of a statement that adds a foreign key, where a space may follow the semicolon. -/
def foreignKeyEnd : Pattern :=
  inOrder ["FOREIGN KEY", run Symbol.isInLine, ";", optional " ", finish]

/-- The rules that drop the clauses MySQL lacks. -/
def rules : List Rule :=
  [ .once "only" "ALTER TABLE ONLY" ["ALTER TABLE"],
    .once "deferrable" "DEFERRABLE INITIALLY DEFERRED" [],
    .once "using_index_method" (inOrder ["USING ", ink, ";"]) [";"] ]

/-- A line that adds a unique or primary key with its columns quoted; what follows the semicolon is
dropped. Any other line as it is. -/
def quoteKey [Quoting] (line : Text) : Text :=
  match keyConstraint.atStart? line with
  | some m =>
    m.group 1 ++ "ADD CONSTRAINT " ++ m.group 2 ++ " " ++ m.group 3 ++ " (" ++
      ColumnList.quote (m.group 4) ++ ");"
  | none => line

/-- The table that a foreign key in the line points to. -/
def foreignTable? (line : Text) : Option Text :=
  (foreignKeyTarget.find line).map fun m => (m.group 1).trim

/-- Whether the line ends the statement. -/
def closes (line : Text) : Bool := statementEnd.occursIn line || foreignKeyEnd.occursIn line

end DumpDialect.AlterTable
