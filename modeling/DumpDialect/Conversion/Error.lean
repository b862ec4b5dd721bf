import DumpDialect.Text.Basic

/-!
# Errors of a conversion

A dump may hold a line past which the conversion cannot go. `ConversionError.text` is what the
user is told; it names the line.
-/

namespace DumpDialect

/-- Why the conversion stops. -/
inductive Fault where
  /-- A CREATE TYPE statement, where none is allowed. -/
  | typeDeclaration
  /-- A statement that sets a sequence, of which table or value cannot be read. -/
  | sequenceValue (statement : Text)
deriving DecidableEq

/-- What the user is told about a fault. -/
def Fault.text : Fault → Text
  | typeDeclaration => "CREATE TYPE statements not supported"
  | sequenceValue statement => "can't parse sequence value statement: " ++ statement

/-- A message with the number of the line that it is about in front, if it has one. -/
def located (lineNumber : Option Int) (message : Text) : Text :=
  match lineNumber with
  | some n => "line " ++ Text.ofInt n ++ ": " ++ message
  | none => message

/-- A fault and the number of the line where it occurs. -/
structure ConversionError where
  fault : Fault
  lineNumber : Nat
deriving DecidableEq

/-- What the user is told about an error. -/
def ConversionError.text (e : ConversionError) : Text := located (some e.lineNumber) e.fault.text

end DumpDialect
