import DumpDialect.Pattern.Basic

/-!
# BEGIN ... END blocks

The body of a function stands between a line BEGIN and a line that starts with END. It may hold
statements of any kind, which are not statements of the dump.
-/

namespace DumpDialect.Block

open Pattern

/-- A line that opens a block. -/
def opening : Pattern := inOrder [blanks, eitherCase "begin", blanks, finish]

/-- A line that closes a block. -/
def closing : Pattern :=
  inOrder [blanks, eitherCase "end", run Symbol.isInLine, optional ";", blanks, finish]

end DumpDialect.Block
