import DumpDialect.Proofs.Conversion.History
import DumpDialect.Proofs.Conversion.Openings
import DumpDialect.Proofs.CreateTable.Symbols
import DumpDialect.Quoting

/-!
# Where a CREATE TABLE statement ends

The statement ends at the first line that ends with `);` once it is converted. The conversion moves
and drops parentheses, but it adds no semicolon, so a line without one cannot end the statement, and
the last line passes as it is.

- `parenthesisEnd_convert`: a line without a semicolon does not look like the end.
- `step_of_line`: a line of the statement, the header or another.
- `run_of_body`: the lines behind the header, by induction on those that are left.
- `table_boundaries`: whole statements.
-/

namespace DumpDialect.CreateTable

/-! ## Tables as they are dumped -/

/-- The line that closes a statement. -/
def closing : Text := ");"

/-- A CREATE TABLE statement of a dump up to its last line: the header and the lines for columns and
constraints, whatever they define. -/
structure Layout where
  heading : Text
  body : List Text
  opens : header.opens heading = true
  noSemicolon : ∀ line ∈ heading :: body, .char ';' ∉ line
  noSequenceValue : ∀ line ∈ heading :: body, SequenceValue.marker.occursIn line = false
  opensNothing : ∀ line ∈ body, Block.opening.opens line = false ∧ header.opens line = false

/-- What is written for a line of a table: the line as MySQL reads it, or nothing if the table is
left out. -/
def lineOutput [Quoting] (withheld : Bool) (line : Text) : List Text :=
  if withheld then [] else [convert line]

namespace Layout

/-- The table. -/
def table (l : Layout) : Text := ((header.atStart? l.heading).get l.opens).group 1

/-- The lines of the statement. -/
def lines (l : Layout) : List Text := l.heading :: l.body ++ [closing]

theorem table?_heading (l : Layout) : Statement.createTable.table? l.heading = some l.table := by
  rw [Statement.table?, table, Option.map_eq_some_iff]
  exact ⟨_, Option.some_get l.opens |>.symm, rfl⟩

end Layout

/-! ## A line -/

section

variable [Quoting]

theorem parenthesisEnd_convert {line : Text} (h : .char ';' ∉ line) :
    Insert.parenthesisEnd.occursIn (convert line) = false := by
  have hnot : .char ';' ∉ convert line := not_mem_convert (by decide +kernel) h
  exact Pattern.occursIn_inOrder_eq_false fun hend => hnot (hend.subset (by decide))

theorem convert_closing : convert closing = closing := by
  have hcheck : checkConstraint.occursIn closing = false := by decide +kernel
  have hdefinition : Column.isDefinition closing = false := by decide +kernel
  have hrules : applyRules Column.typeRules closing = closing := by decide +kernel
  rw [convert, hcheck, if_neg Bool.false_ne_true, Column.convert, hdefinition,
    if_neg Bool.false_ne_true]
  exact hrules

variable {cfg : Config} (hstrict : cfg.strict = false)

include hstrict

/-- What the handling of a line shows, and what it does to the state. -/
theorem step_of_line {st : State} {line : Text} (next : Text)
    (hkind : LineKind.of st.context line = .statement .createTable) :
    let withheld := cfg.withholds st.suppressed (Statement.createTable.table? line)
    let s := step cfg st line next
    s.result = .ok ((st.newSchema? line).toList.flatMap databaseDeclaration ++
        lineOutput withheld line) ∧
      s.state.context =
        (if Insert.parenthesisEnd.occursIn (convert line) then none else some .createTable) ∧
      s.state.suppressed = withheld ∧
      s.state.tally.get (.statement .createTable) =
        st.tally.get (.statement .createTable) +
          if st.context = some .createTable then 0 else 1 := by
  intro withheld s
  let v : Visit := ⟨st, line, next⟩
  have hk : v.kind? cfg = some (.statement .createTable) := by
    rw [Visit.kind?_of_lenient hstrict, hkind]
  have hs : s = v.step cfg := rfl
  rw [hs, Visit.step_of_statement hk]
  refine ⟨rfl, ?_, rfl, State.get_statement_afterStatement _ _ _⟩
  rw [State.context_afterStatement, Visit.treatment, Treatment.ofStatement, Treatment.ofCreateTable]
  cases Insert.parenthesisEnd.occursIn (convert line) <;> rfl

/-- A line behind the header. -/
theorem step_of_body_line {st : State} (hst : st.context = some .createTable) {line : Text}
    (next : Text) (hvalue : SequenceValue.marker.occursIn line = false)
    (hopens : Block.opening.opens line = false ∧ header.opens line = false) :
    let s := step cfg st line next
    s.result = .ok (lineOutput st.suppressed line) ∧
      s.state.context =
        (if Insert.parenthesisEnd.occursIn (convert line) then none else some .createTable) ∧
      s.state.suppressed = st.suppressed ∧
      s.state.tally.get (.statement .createTable) =
        st.tally.get (.statement .createTable) := by
  have hkind : LineKind.of st.context line = .statement .createTable := by
    rw [hst, LineKind.of, hopens.1, hvalue]
    rfl
  have htable : Statement.createTable.table? line = none :=
    Statement.table?_eq_none_iff.mpr hopens.2
  have hschema : st.newSchema? line = none := by
    rw [State.newSchema?, htable]
    rfl
  have hstep := step_of_line hstrict next hkind
  rw [hschema, htable, if_pos hst] at hstep
  exact hstep

/-! ## Runs -/

/-- The lines behind the header. The induction is on those that are left; the statement stays open
and the table withheld or not until the last of them. -/
theorem run_of_body {st : State} (hst : st.context = some .createTable)
    {lines : List (Text × Text)} {body : List Text}
    (hlines : lines.map Prod.fst = body ++ [closing])
    (hbody : ∀ line ∈ body, .char ';' ∉ line ∧ SequenceValue.marker.occursIn line = false ∧
      Block.opening.opens line = false ∧ header.opens line = false) :
    (run cfg st lines).map (fun s => (s.state.context, s.result)) =
        body.map (fun line => (some .createTable, .ok (lineOutput st.suppressed line))) ++
          [(none, .ok (lineOutput st.suppressed closing))] ∧
      (stateAfter st (run cfg st lines)).tally.get (.statement .createTable) =
        st.tally.get (.statement .createTable) := by
  induction body generalizing st lines with
  | nil =>
    obtain ⟨⟨line, next⟩, rest, rfl, rfl, hrest⟩ := List.map_eq_cons_iff.mp hlines
    obtain rfl := List.map_eq_nil_iff.mp hrest
    have hvalue : SequenceValue.marker.occursIn closing = false := by decide
    have hopens : Block.opening.opens closing = false ∧ header.opens closing = false := by
      decide
    obtain ⟨hresult, hcontext, -, hcount⟩ := step_of_body_line hstrict hst next hvalue hopens
    have hends : Insert.parenthesisEnd.occursIn closing = true := by decide
    rw [convert_closing, hends] at hcontext
    rw [run_cons, hresult]
    exact ⟨by simp [run_nil, hcontext, hresult], hcount⟩
  | cons line body ih =>
    obtain ⟨⟨line', next⟩, rest, rfl, hline, hrest⟩ := List.map_eq_cons_iff.mp hlines
    obtain rfl : line' = line := hline
    obtain ⟨⟨hsemicolon, hvalue, hopens⟩, hbody⟩ := List.forall_mem_cons.mp hbody
    obtain ⟨hresult, hcontext, hsuppressed, hcount⟩ :=
      step_of_body_line hstrict hst next hvalue hopens
    -- No rule makes a semicolon, so this line does not end the statement.
    rw [parenthesisEnd_convert hsemicolon] at hcontext
    obtain ⟨hshown, htotal⟩ := ih hcontext hrest hbody
    rw [run_cons, hresult]
    refine ⟨?_, ?_⟩
    · rw [List.map_cons, hshown, hcontext, hresult, hsuppressed]
      rfl
    · rw [stateAfter_cons, htotal, hcount]

omit hstrict

/-- **Boundaries of CREATE TABLE.** Take a state outside of statements and the lines of a table as
it is dumped: the header, lines without a semicolon for columns and constraints, and the closing
line. Unless CREATE TYPE is an error, no line fails. The statement is open after each line but the
last. Each line is written as one line, behind the declaration of the database if the header has a
new schema; of a table that is left out there is the declaration and nothing else. The statement is
counted once. -/
theorem table_boundaries (cfg : Config) (hstrict : cfg.strict = false) {st : State}
    (hst : st.context = none) (l : Layout) {lines : List (Text × Text)}
    (hlines : lines.map Prod.fst = l.lines) :
    let withheld := cfg.skips l.table
    let declaration := (st.newSchema? l.heading).toList.flatMap databaseDeclaration
    (run cfg st lines).map (fun s => (s.state.context, s.result)) =
        (some .createTable, .ok (declaration ++ lineOutput withheld l.heading)) ::
          l.body.map (fun line => (some .createTable, .ok (lineOutput withheld line))) ++
          [(none, .ok (lineOutput withheld closing))] ∧
      (stateAfter st (run cfg st lines)).tally.get (.statement .createTable) =
        st.tally.get (.statement .createTable) + 1 := by
  intro withheld declaration
  obtain ⟨⟨line, next⟩, rest, rfl, hline, hrest⟩ := List.map_eq_cons_iff.mp hlines
  obtain rfl : line = l.heading := hline
  obtain ⟨hsemicolon, hsemicolons⟩ := List.forall_mem_cons.mp l.noSemicolon
  obtain ⟨hvalue, hvalues⟩ := List.forall_mem_cons.mp l.noSequenceValue
  have hkind : LineKind.of st.context l.heading = .statement .createTable :=
    LineKind.of_opens (.inl hst) l.opens hvalue
  obtain ⟨hresult, hcontext, hsuppressed, hcount⟩ := step_of_line hstrict next hkind
  rw [l.table?_heading] at hresult hsuppressed
  rw [parenthesisEnd_convert hsemicolon] at hcontext
  rw [hst] at hcount
  have hbody : ∀ line ∈ l.body, .char ';' ∉ line ∧ SequenceValue.marker.occursIn line = false ∧
      Block.opening.opens line = false ∧ header.opens line = false := fun line hline =>
    ⟨hsemicolons line hline, hvalues line hline, l.opensNothing line hline⟩
  obtain ⟨hshown, htotal⟩ := run_of_body hstrict hcontext hrest hbody
  rw [run_cons, hresult]
  refine ⟨?_, ?_⟩
  · rw [List.map_cons, hshown, hcontext, hresult, hsuppressed]
    rfl
  · rw [stateAfter_cons, htotal, hcount]
    rfl

end

/-- A table in a new schema, with a constraint that loses parentheses in front of its end. -/
theorem constraint_keeps_table_open :
    let cfg : Config := ⟨[], false, false⟩
    let lines : List (Text × Text) :=
      [("CREATE TABLE a.t (", " s text,"),
        (" s text,", " CONSTRAINT c CHECK ((s)::text = ANY (ARRAY['x']))"),
        (" CONSTRAINT c CHECK ((s)::text = ANY (ARRAY['x']))", ");"),
        (");", "")]
    (run cfg {} lines).map (fun s => (s.state.context, s.result)) =
        [(some .createTable,
            .ok ["DROP DATABASE IF EXISTS a;", "CREATE DATABASE a;", "CREATE TABLE a.t ("]),
          (some .createTable, .ok [" `s` longtext,"]),
          (some .createTable, .ok [" CONSTRAINT c CHECK (s IN ('x'))"]),
          (none, .ok [");"])] ∧
      (stateAfter {} (run cfg {} lines)).tally.get (.statement .createTable) = 1 := by
  intro cfg lines
  let l : Layout := {
    heading := "CREATE TABLE a.t ("
    body := [" s text,", " CONSTRAINT c CHECK ((s)::text = ANY (ARRAY['x']))"]
    opens := by decide +kernel
    noSemicolon := by decide +kernel
    noSequenceValue := by decide +kernel
    opensNothing := by decide +kernel }
  have hst : ({} : State).context = none := rfl
  have hlines : lines.map Prod.fst = l.lines := rfl
  obtain ⟨hshown, hcount⟩ := table_boundaries cfg rfl hst l hlines
  exact ⟨hshown.trans (by decide +kernel), hcount⟩

end DumpDialect.CreateTable
