import DumpDialect.Text.Basic

/-!
# Messages

What is said to the user about a run. A message has a level, and a user chooses the least level to
be shown.
-/

namespace DumpDialect

/-- How much a message matters. -/
inductive Level where
  | debug
  | info
  | warning
  | error
deriving DecidableEq

namespace Level

/-- The levels, the least one first. -/
def all : List Level := [debug, info, warning, error]

/-- The name of a level. -/
def name : Level → String
  | debug => "DEBUG"
  | info => "INFO"
  | warning => "WARNING"
  | error => "ERROR"

/-- The place of a level among the levels. -/
def rank : Level → Nat
  | debug => 0
  | info => 1
  | warning => 2
  | error => 3

end Level

/-- A message and its level. -/
structure Message where
  level : Level
  text : Text
deriving DecidableEq

/-- Whether the message is shown to a user who wants messages from `least` on. -/
def Message.isShown (least : Level) (m : Message) : Bool := least.rank ≤ m.level.rank

end DumpDialect
