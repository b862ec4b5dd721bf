import DumpDialect.CreateTable.Check
import DumpDialect.CreateTable.Column

/-!
# CREATE TABLE

A CREATE TABLE statement has a header with the name of the table, a line for each column and
constraint, and a line with the closing parenthesis.
-/

namespace DumpDialect.CreateTable

open Pattern

/-- The header; group 1 is the table. -/
def header : Pattern :=
  inOrder [blanks, "CREATE TABLE ", group 1 (someOf fun s => !s.isBlank && s ≠ .char '(')]

/-- A constraint with a CHECK expression. -/
def checkConstraint : Pattern :=
  inOrder [blanks, "CONSTRAINT ", many .least Symbol.isInLine, " CHECK"]

/-- The statement that defines an enumeration or another type of its own. -/
def typeDeclaration : Pattern := "CREATE TYPE "

/-- The schema of a table, if its name has one: the text before the first dot. -/
def schema? (table : Text) : Option Text :=
  if table.contains '.' then some (table.takeWhile (· ≠ .char '.')) else none

/-- The line of a CREATE TABLE statement as MySQL reads it. -/
def convert [Quoting] (line : Text) : Text :=
  if checkConstraint.occursIn line then CheckConstraint.convert line else Column.convert line

end DumpDialect.CreateTable
