import DumpDialect.AlterTable
import DumpDialect.Block
import DumpDialect.CreateIndex
import DumpDialect.CreateTable.Basic
import DumpDialect.Insert
import DumpDialect.SequenceValue
import DumpDialect.Conversion.Error
import DumpDialect.Conversion.State

/-!
# The treatment of a line

For each kind of statement: what becomes of one of its lines, whether the statement stays open
after it, whether the line is withheld, and what happens besides. A treatment is computed from the
state and changes nothing; the caller records its events.
-/

namespace DumpDialect

/-- What becomes of a line: the line that is written unless it is withheld, whether its statement
stays open, whether it is withheld, the lines written in front of it in either case, and the
events. -/
structure Treatment where
  line : Text
  stillOpen : Bool
  suppressed : Bool
  preamble : List Text := []
  events : List Event := []

/-- The lines that are written for an input line: the preamble, and the line unless it is
withheld. -/
def Treatment.output (t : Treatment) : List Text :=
  t.preamble ++ if t.suppressed then [] else [t.line]

/-- The event of a statement whose table is left out; none if the table is kept. -/
def Config.skipEvents (cfg : Config) (table : Text) : List Event :=
  if cfg.skips table then [.tableSkipped table] else []

/-- Whether the lines of a statement are withheld after a line that may name its table: the
statement's table decides, and a line without one leaves the matter as it was. -/
def Config.withholds (cfg : Config) (before : Bool) : Option Text → Bool
  | some table => cfg.skips table
  | none => before

/-- The declaration of the database for a schema, which drops an older database of the name. -/
def databaseDeclaration (schema : Text) : List Text :=
  ["DROP DATABASE IF EXISTS " ++ schema ++ ";", "CREATE DATABASE " ++ schema ++ ";"]

namespace Treatment

variable [Quoting]

/-- A line of a CREATE TABLE statement. The header declares the database of its schema when the
schema is new, also for a table that is left out. -/
def ofCreateTable (cfg : Config) (st : State) (line : Text) : Treatment :=
  let table? := (CreateTable.header.atStart? line).map (·.group 1)
  let newSchema? := (table?.bind CreateTable.schema?).filter fun s => !st.schemas.contains s
  let written := CreateTable.convert line
  { line := written
    stillOpen := !Insert.parenthesisEnd.occursIn written
    suppressed := cfg.withholds st.suppressed table?
    preamble := newSchema?.toList.flatMap databaseDeclaration
    events := newSchema?.toList.map .databaseDeclared ++ table?.toList.flatMap cfg.skipEvents }

/-- A line of an ALTER TABLE statement, with the line after it. A foreign key on the next line that
points to a table that is left out withholds the statement. A sequence as default of a column is
deferred instead of written. -/
def ofAlterTable (cfg : Config) (st : State) (line next : Text) : Treatment :=
  if AlterTable.ownerChange.occursIn line then
    { line := line, stillOpen := false, suppressed := true, events := [.ownerChangeDropped line] }
  else
    let bare := applyRules AlterTable.rules line
    let table? := (AlterTable.header.atStart? bare).map (·.group 1)
    let skippedTarget? := (AlterTable.foreignTable? next).filter cfg.skips
    let written := AlterTable.quoteKey bare
    let stillOpen := !AlterTable.closes written
    let events :=
      table?.toList.flatMap cfg.skipEvents ++ skippedTarget?.toList.map .foreignKeySkipped
    let change? :=
      ((AlterTable.sequenceDefault.find written).map fun m =>
        DeferredChange.mk (m.group 1) (m.group 2)).filter fun d => !cfg.skips d.table
    match change? with
    | some change =>
      { line := [], stillOpen, suppressed := true, events := events ++ [.changeDeferred change] }
    | none =>
      { line := written
        stillOpen
        suppressed := skippedTarget?.isSome || cfg.withholds st.suppressed table?
        events }

/-- A line of an INSERT statement; `continued` says that the statement was open before it. A
parenthesis and a semicolon at the end of the line may stand inside a value. They close the
statement if the quotes of the line, counted before quotes are escaped, leave no value open: an
even number on the first line, and an odd one on a later line, which closes the value that the
lines before it left open. -/
def ofInsert (cfg : Config) (st : State) (line : Text) (continued : Bool) : Treatment :=
  let table? := (Insert.header.atStart? line).map (·.group 1)
  let headed :=
    match table? with
    | some _ =>
      let quoted := Insert.quoteColumns line
      if cfg.insertIgnore then Insert.ignoreRule.apply quoted else quoted
    | none => line
  let valued := applyRules Insert.valueRules headed
  let quotes := valued.count (.char '\x27')
  let written := applyRules Insert.escapeRules valued
  let atEnd := Insert.parenthesisEnd.occursIn written
  { line := written
    stillOpen := !(atEnd && decide (quotes % 2 = 1) == continued)
    suppressed := cfg.withholds st.suppressed table?
    events := table?.toList.flatMap cfg.skipEvents ++
      if atEnd then [.insertEndSeen st.lineNumber quotes continued] else [] }

/-- A CREATE INDEX statement. -/
def ofCreateIndex (cfg : Config) (line : Text) : Treatment :=
  let written := applyRules CreateIndex.rules line
  match (CreateIndex.target.find written).filter fun m => cfg.skips (m.group 3) with
  | some m =>
    { line := written, stillOpen := false, suppressed := true
      events := [.indexSkipped (m.group 2) (m.group 3)] }
  | none => { line := written, stillOpen := false, suppressed := false }

/-- A statement that sets the value of a sequence. -/
def ofSequenceValue (cfg : Config) (st : State) (line : Text) :
    Except ConversionError Treatment :=
  match SequenceValue.read? line with
  | none => .error ⟨.sequenceValue line.trim, st.lineNumber⟩
  | some (table, value) =>
    .ok
      { line := SequenceValue.written table value
        stillOpen := false
        suppressed := cfg.skips table
        events := if cfg.skips table then [.sequenceValueSkipped table] else [] }

/-- A line of a BEGIN ... END block, all of which are withheld. -/
def ofBlock (st : State) (line : Text) : Treatment :=
  { line := line
    stillOpen := !Block.closing.opens line
    suppressed := true
    events := if st.context = some .block then [] else [.blockSkipped st.lineNumber] }

/-- A line of a statement of the given kind, with the line after it. -/
def ofStatement (cfg : Config) (st : State) (kind : Statement) (line next : Text) : Treatment :=
  match kind with
  | .createTable => ofCreateTable cfg st line
  | .alterTable => ofAlterTable cfg st line next
  | .insert => ofInsert cfg st line (st.context = some .insert)
  | .block => ofBlock st line

end Treatment

end DumpDialect
