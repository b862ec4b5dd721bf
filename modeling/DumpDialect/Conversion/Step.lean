import DumpDialect.Conversion.Treatment

/-!
# Reading one line

`LineKind.of` says what a line is, from the open statement and the line's text, and `step` handles
the line: it gives the lines that are written for it, the state after it, and what happened.
-/

namespace DumpDialect

/-- What a line is. -/
inductive LineKind where
  /-- A statement that sets the value of a sequence. -/
  | sequenceValue
  /-- A CREATE INDEX statement. -/
  | createIndex
  /-- A line of a statement that can stretch over several. -/
  | statement (kind : Statement)
  /-- None of these. -/
  | unrecognized
deriving DecidableEq

/-- What a line is. A block owns all its lines; anywhere else a line that sets the value of a
sequence is a statement of its own, an open statement owns its lines, and a line outside of
statements is known by how it starts. A line that opens a kind of statement tried earlier is taken
for that kind, even where another one is open. -/
def LineKind.of (context : Option Statement) (line : Text) : LineKind :=
  if context = some .block || Block.opening.opens line then .statement .block
  else if SequenceValue.marker.occursIn line then .sequenceValue
  else if context = some .createTable || CreateTable.header.opens line then .statement .createTable
  else if context = some .alterTable || AlterTable.header.opens line then .statement .alterTable
  else if context = some .insert || Insert.header.opens line then .statement .insert
  else if CreateIndex.header.opens line then .createIndex
  else .unrecognized

/-- What handling a line gives: the lines written or an error, the state after the line, and what
happened. -/
structure Step where
  result : Except ConversionError (List Text)
  state : State
  events : List Event

namespace Step

/-- The lines written; none if the step failed. -/
def output (s : Step) : List Text :=
  match s.result with
  | .ok lines => lines
  | .error _ => []

/-- The error of a step that failed. -/
def error? (s : Step) : Option ConversionError :=
  match s.result with
  | .ok _ => none
  | .error e => some e

end Step

namespace State

/-- The state after a line of a statement: the statement stays open or not, and a statement that
was not open before is counted. -/
def afterStatement (st : State) (kind : Statement) (t : Treatment) : State :=
  let counted := if st.context = some kind then st else st.count (.statement kind)
  { counted.recordAll t.events with
    context := if t.stillOpen then some kind else none
    suppressed := t.suppressed }

/-- The state after a statement of one line, which leaves an open statement open. -/
def afterSingle (st : State) (t : Treatment) : State :=
  { st.recordAll t.events with suppressed := t.suppressed }

end State

/-- Handles a line, with the line after it. -/
def step [Quoting] (cfg : Config) (before : State) (line next : Text) : Step :=
  let number := before.lineNumber + 1
  let st := { before with lineNumber := number }
  let read := Event.lineRead number line
  if cfg.strict && CreateTable.typeDeclaration.occursIn line then
    ⟨.error ⟨.typeDeclaration, number⟩, st, [read]⟩
  else match LineKind.of st.context line with
    | .statement kind =>
      let t := Treatment.ofStatement cfg st kind line next
      ⟨.ok t.output, st.afterStatement kind t, read :: t.events⟩
    | .sequenceValue =>
      let st := st.count .sequenceValue
      match Treatment.ofSequenceValue cfg st line with
      | .error e => ⟨.error e, st, [read]⟩
      | .ok t => ⟨.ok t.output, st.afterSingle t, read :: t.events⟩
    | .createIndex =>
      let st := st.count .createIndex
      let t := Treatment.ofCreateIndex cfg line
      ⟨.ok t.output, st.afterSingle t, read :: t.events⟩
    | .unrecognized =>
      let event := Event.lineUnrecognized number line
      ⟨.ok [], st.record event, [read, event]⟩

end DumpDialect
