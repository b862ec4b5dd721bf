import DumpDialect.Rule
import DumpDialect.TypeName

/-!
# CHECK constraints

MySQL reads a CHECK constraint of PostgreSQL once its casts are gone, `= ANY (ARRAY[...])` is
written as `IN (...)`, and no closing parenthesis is left without its opening one.
`CheckConstraint.convert` does these steps in turn.
-/

namespace DumpDialect.CheckConstraint

open Pattern

/-- The rule for casts of an expression in parentheses that holds no parentheses itself: the
expression is kept, without its parentheses. -/
def parenthesizedCast : Rule :=
  .throughout "parenthesized_cast"
    (inOrder ["(", group 1 (someOf (Symbol.isNotIn "()")), ")", TypeName.cast]) [.group 1]

/-- The rule for the casts that are left. -/
def bareCast : Rule := .throughout "bare_cast" TypeName.cast []

/-- The rules that write a comparison with any element of an array as a comparison with a list. -/
def anyRules : List Rule :=
  [ .once "any_parenthesized_array"
      (inOrder ["= ANY (", group 1 (inOrder ["ARRAY[", many .least Symbol.isInLine, "])"])])
      ["= ANY ", .group 1],
    .once "any_array"
      (inOrder ["= ANY ARRAY[", group 1 (many .least Symbol.isInLine), "]"])
      ["IN (", .group 1, ")"],
    .once "doubled_parentheses"
      (inOrder [" IN ((", group 1 (many .least Symbol.isInLine), "))"])
      [" IN (", .group 1, ")"] ]

/-- The rule for the last closing parenthesis of a line, with a comma after it or not: the comma is
kept and the blanks at the end of the line are dropped with the parenthesis. -/
def lastParenthesis : Rule :=
  .once "last_parenthesis" (inOrder [")", optional (group 1 ","), blanks, finish]) [.group 1]

/-- Removes the casts of expressions in parentheses, from the inside out: the parentheses around an
expression may hold another such cast. Each round that finds one leaves a shorter text. -/
def peelCasts (t : Text) : Text :=
  let peeled := parenthesizedCast.apply t
  if peeled.length < t.length then peelCasts peeled else t
termination_by t.length

/-- Removes closing parentheses at the end of the line while there are more of them than opening
ones. A line that does not end with one keeps those that it has. -/
def balance (t : Text) : Text :=
  Nat.repeat lastParenthesis.apply (t.count (.char ')') - t.count (.char '(')) t

/-- The line of a CHECK constraint as MySQL reads it. -/
def convert (line : Text) : Text :=
  balance (applyRules anyRules (bareCast.apply (peelCasts line)))

end DumpDialect.CheckConstraint
