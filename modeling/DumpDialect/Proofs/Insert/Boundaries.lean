import DumpDialect.Proofs.Conversion.History
import DumpDialect.Proofs.Conversion.Openings
import DumpDialect.Proofs.Insert.Line
import DumpDialect.Quoting

/-!
# Where an INSERT statement ends

A value may hold line breaks, and a line inside of one may end as if it closed the statement. The
handler sees one line at a time and knows only whether the statement was open before it, but that
is the parity of the quotes so far, and with the quotes of the line it gives the parity after it.

- `stillOpen_ofInsert`: the decision on a line, by the running total of quotes.
- `RunsTo`: what a run over some lines shows, and how two of them make one (`RunsTo.append`).
- `runsTo_of_lines`: the lines of one statement, by induction on those that are left.
- `row_boundaries`: rows and lines that mean nothing, in any order.
-/

namespace DumpDialect.Insert

/-! ## Rows as they are dumped -/

/-- With so many quotes before the lines, the running total is odd after each of them but the last
and even after that. Each line break then lies inside a value. -/
def BreaksInside : Nat → List Text → Prop
  | _, [] => True
  | before, line :: rest =>
    ((before + line.count quote) % 2 = 1 ↔ rest ≠ []) ∧
      BreaksInside (before + line.count quote) rest

instance : ∀ before lines, Decidable (BreaksInside before lines)
  | _, [] => .isTrue trivial
  | before, line :: rest =>
    have := instDecidableBreaksInside (before + line.count quote) rest
    inferInstanceAs (Decidable (_ ∧ _))

/-- An INSERT statement of a dump, on a line or several. -/
structure Row where
  first : Text
  more : List Text
  opens : header.opens first = true
  ends : Text.ofString ");" <:+ (first :: more).getLast (List.cons_ne_nil _ _)
  breaksInside : BreaksInside 0 (first :: more)
  noSequenceValue : ∀ line ∈ first :: more, SequenceValue.marker.occursIn line = false
  opensOnce : ∀ line ∈ more, ∀ kind : Statement, kind.opening.opens line = false

/-- A row of a dump, or a line between rows that means nothing. -/
inductive Part where
  | row (r : Row)
  | noise (line : Text) (unrecognized : LineKind.of none line = .unrecognized)

/-- What shows of a step: the statement that is open after it, and what it writes. -/
abbrev Shown : Type := Option Statement × Except ConversionError (List Text)

/-- What the lines of a row show: the statement is open after each of them but the last, and each
of them is written, or none if the table is left out. -/
def shown [Quoting] (cfg : Config) (withheld : Bool) (lines : List Text) : List Shown :=
  lines.mapIdx fun i line =>
    (if i + 1 < lines.length then some .insert else none,
      .ok (if withheld then [] else [written cfg line]))

theorem shown_cons [Quoting] (cfg : Config) (withheld : Bool) (line : Text) (rest : List Text) :
    shown cfg withheld (line :: rest) =
      (if rest = [] then none else some .insert,
        .ok (if withheld then [] else [written cfg line])) :: shown cfg withheld rest := by
  rw [shown, shown, List.mapIdx_cons]
  congr 2
  · cases rest <;> simp
  · simp only [List.length_cons, Nat.add_lt_add_iff_right]

namespace Row

/-- The lines of the row. -/
def lines (r : Row) : List Text := r.first :: r.more

/-- The table of the row. -/
def table (r : Row) : Text := ((header.atStart? r.first).get r.opens).group 1

theorem table?_first (r : Row) : Statement.insert.table? r.first = some r.table := by
  rw [Statement.table?, table, Option.map_eq_some_iff]
  exact ⟨_, Option.some_get r.opens |>.symm, rfl⟩

end Row

namespace Part

/-- The lines of the part. -/
def lines : Part → List Text
  | row r => r.lines
  | noise line _ => [line]

/-- What the lines of the part show. -/
def shown [Quoting] (cfg : Config) : Part → List Shown
  | row r => Insert.shown cfg (cfg.skips r.table) r.lines
  | noise _ _ => [(none, .ok [])]

/-- Whether the part is a row. -/
def isRow : Part → Bool
  | row _ => true
  | noise _ _ => false

end Part

/-! ## A line -/

section

variable [Quoting]

/-- The decision on a line, by the running total of quotes: it ends the statement if it looks like
its end and the total is even after it. -/
theorem stillOpen_ofInsert (cfg : Config) (st : State) (line : Text) (before : Nat) :
    (Treatment.ofInsert cfg st line (before % 2 = 1)).stillOpen =
      !(parenthesisEnd.occursIn (written cfg line) &&
        decide ((before + line.count quote) % 2 = 0)) := by
  have hparity : (decide (line.count quote % 2 = 1) == decide (before % 2 = 1)) =
      decide ((before + line.count quote) % 2 = 0) := by
    rw [Bool.eq_iff_iff, beq_iff_eq, decide_eq_decide, decide_eq_true_iff]
    omega
  rw [Treatment.ofInsert_eq, count_quote_valued, hparity]

variable {cfg : Config} (hstrict : cfg.strict = false)

include hstrict

/-- What the handling of an INSERT line shows, and what it does to the state. -/
theorem step_of_line {st : State} {line : Text} (next : Text)
    (hkind : LineKind.of st.context line = .statement .insert) {before : Nat}
    (hopen : st.context = some .insert ↔ before % 2 = 1) {withheld : Bool}
    (hwithheld : cfg.withholds st.suppressed (Statement.insert.table? line) = withheld) :
    (step cfg st line next).result = .ok (if withheld then [] else [written cfg line]) ∧
      (step cfg st line next).state.context =
        (if parenthesisEnd.occursIn (written cfg line) = true ∧
          (before + line.count quote) % 2 = 0 then none else some .insert) ∧
      (step cfg st line next).state.suppressed = withheld ∧
      (step cfg st line next).state.tally.get (.statement .insert) =
        st.tally.get (.statement .insert) + if before % 2 = 1 then 0 else 1 := by
  let v : Visit := ⟨st, line, next⟩
  have hk : v.kind? cfg = some (.statement .insert) := by
    rw [Visit.kind?_of_lenient hstrict, hkind]
  -- The treatment is told whether the statement was open, which is the parity of the quotes before.
  have ht : v.treatment cfg .insert =
      Treatment.ofInsert cfg st.advanced line (before % 2 = 1) := by
    rw [Visit.treatment, Treatment.ofStatement]
    congr 1
    exact decide_eq_decide.mpr hopen
  have hstep : step cfg st line next = v.step cfg := rfl
  rw [hstep, Visit.step_of_statement hk, ht]
  refine ⟨?_, ?_, hwithheld, ?_⟩
  · rw [Treatment.output, Treatment.ofInsert_eq]
    subst hwithheld
    rfl
  · rw [State.context_afterStatement, stillOpen_ofInsert]
    cases parenthesisEnd.occursIn (written cfg line) with
    | false => rfl
    | true =>
      rw [Bool.true_and]
      by_cases htotal : (before + line.count quote) % 2 = 0
      · simp [htotal]
      · simp [htotal]
  · rw [State.get_statement_afterStatement]
    congr 1
    exact if_congr hopen rfl rfl

/-! ## Runs -/

omit hstrict

/-- What a run over some lines shows; it ends outside of statements and without an error, and
counts so many INSERT statements. -/
structure RunsTo (cfg : Config) (st : State) (lines : List (Text × Text)) (shown : List Shown)
    (rows : Nat) : Prop where
  shown : (run cfg st lines).map (fun s => (s.state.context, s.result)) = shown
  noError : errorOf (run cfg st lines) = none
  context : (stateAfter st (run cfg st lines)).context = none
  count : (stateAfter st (run cfg st lines)).tally.get (.statement .insert) =
    st.tally.get (.statement .insert) + rows

namespace RunsTo

theorem nil {st : State} (h : st.context = none) : RunsTo cfg st [] [] 0 :=
  ⟨rfl, rfl, h, rfl⟩

theorem append {st : State} {lines more : List (Text × Text)} {shown shown' : List Shown}
    {rows rows' : Nat} (h : RunsTo cfg st lines shown rows)
    (h' : RunsTo cfg (stateAfter st (run cfg st lines)) more shown' rows') :
    RunsTo cfg st (lines ++ more) (shown ++ shown') (rows + rows') := by
  have hrun := run_append h.noError more
  refine ⟨?_, ?_, ?_, ?_⟩
  · rw [hrun, List.map_append, h.shown, h'.shown]
  · rw [hrun, errorOf_append h.noError, h'.noError]
  · rw [hrun, stateAfter_append, h'.context]
  · rw [hrun, stateAfter_append, h'.count, h.count, Nat.add_assoc]

/-- A step that goes well, and the run from the state after it. -/
theorem cons {st : State} {line next : Text} {rest : List (Text × Text)} {output : List Text}
    (hresult : (step cfg st line next).result = .ok output) {shown : List Shown} {rows rows' : Nat}
    (h : RunsTo cfg (step cfg st line next).state rest shown rows')
    (hcount : (step cfg st line next).state.tally.get (.statement .insert) =
      st.tally.get (.statement .insert) + rows) :
    RunsTo cfg st ((line, next) :: rest)
      (((step cfg st line next).state.context, .ok output) :: shown) (rows + rows') := by
  have hrun : run cfg st ((line, next) :: rest) =
      step cfg st line next :: run cfg (step cfg st line next).state rest := by
    rw [run_cons, hresult]
  have hfirst : errorOf [step cfg st line next] = none := by
    simp [errorOf, Step.error?, hresult]
  refine ⟨?_, ?_, ?_, ?_⟩
  · rw [hrun, List.map_cons, h.shown, hresult]
  · rw [hrun, ← List.singleton_append, errorOf_append hfirst, h.noError]
  · rw [hrun, stateAfter_cons, h.context]
  · rw [hrun, stateAfter_cons, h.count, hcount, Nat.add_assoc]

end RunsTo

include hstrict

/-- The lines of a statement. The induction is on the lines that are left; what ties it together is
that the statement is open in front of a line where the quotes before are odd in number. -/
theorem runsTo_of_lines {withheld : Bool} {first next : Text}
    {rest : List (Text × Text)} {st : State} {before : Nat}
    (hopen : st.context = some .insert ↔ before % 2 = 1)
    (hkind : LineKind.of st.context first = .statement .insert)
    (hwithheld : cfg.withholds st.suppressed (Statement.insert.table? first) = withheld)
    (hrest : ∀ line ∈ rest.map Prod.fst, SequenceValue.marker.occursIn line = false ∧
      ∀ kind : Statement, kind.opening.opens line = false)
    (hbreaks : BreaksInside before (first :: rest.map Prod.fst))
    (hends : Text.ofString ");" <:+ (first :: rest.map Prod.fst).getLast (List.cons_ne_nil _ _)) :
    RunsTo cfg st ((first, next) :: rest) (shown cfg withheld (first :: rest.map Prod.fst))
      (if before % 2 = 1 then 0 else 1) := by
  induction rest generalizing first next st before with
  | nil =>
    obtain ⟨hlast, -⟩ := hbreaks
    obtain ⟨hresult, hcontext, -, hcount⟩ :=
      step_of_line hstrict next hkind hopen hwithheld
    -- The last line makes the number of quotes even, and ends the statement.
    have htotal : (before + first.count quote) % 2 = 0 := by
      simp only [List.map_nil, ne_eq, not_true_eq_false, iff_false] at hlast
      omega
    rw [if_pos ⟨parenthesisEnd_written cfg hends, htotal⟩] at hcontext
    have hrun := RunsTo.cons hresult (RunsTo.nil hcontext) hcount
    rw [hcontext] at hrun
    exact hrun
  | cons pair rest ih =>
    obtain ⟨line, next'⟩ := pair
    obtain ⟨hbreak, hbreaks⟩ := hbreaks
    obtain ⟨hresult, hcontext, hsuppressed, hcount⟩ :=
      step_of_line hstrict next hkind hopen hwithheld
    have htotal : (before + first.count quote) % 2 = 1 := hbreak.mpr (List.cons_ne_nil _ _)
    rw [if_neg (by omega)] at hcontext
    obtain ⟨⟨hvalue, hopens⟩, hrest⟩ := List.forall_mem_cons.mp hrest
    have htable : Statement.insert.table? line = none :=
      Statement.table?_eq_none_iff.mpr (hopens .insert)
    -- An odd number keeps it open: the line left is no end, even if it looks like one.
    have hleft : RunsTo cfg (step cfg st first next).state ((line, next') :: rest)
        (shown cfg withheld (line :: rest.map Prod.fst))
        (if (before + first.count quote) % 2 = 1 then 0 else 1) := by
      refine ih ?_ ?_ ?_ hrest hbreaks hends
      · exact iff_of_true hcontext htotal
      · exact hcontext ▸ LineKind.of_continues .insert hopens hvalue
      · rw [htable]
        exact hsuppressed
    rw [if_pos htotal] at hleft
    have hrun := RunsTo.cons hresult hleft hcount
    rw [hcontext] at hrun
    rw [List.map_cons, shown_cons, if_neg (List.cons_ne_nil _ _)]
    exact hrun

/-- The lines of a row, from a state outside of statements on. -/
theorem runsTo_of_row {st : State} (hst : st.context = none) (r : Row)
    {lines : List (Text × Text)} (hlines : lines.map Prod.fst = r.lines) :
    RunsTo cfg st lines (shown cfg (cfg.skips r.table) r.lines) 1 := by
  obtain ⟨⟨first, next⟩, rest, rfl, hfirst, hrest⟩ := List.map_eq_cons_iff.mp hlines
  obtain rfl : first = r.first := hfirst
  obtain ⟨hvalue, hvalues⟩ := List.forall_mem_cons.mp r.noSequenceValue
  have hkind : LineKind.of st.context r.first = .statement .insert :=
    LineKind.of_opens (.inl hst) r.opens hvalue
  have hwithheld : cfg.withholds st.suppressed (Statement.insert.table? r.first) =
      cfg.skips r.table := by
    rw [r.table?_first, Config.withholds]
  rw [Row.lines, ← hrest]
  have hopen : st.context = some .insert ↔ 0 % 2 = 1 := by simp [hst]
  refine runsTo_of_lines hstrict hopen hkind hwithheld ?_ ?_ ?_
  · rw [hrest]
    exact fun line hline => ⟨hvalues line hline, r.opensOnce line hline⟩
  · rw [hrest]
    exact r.breaksInside
  · simp only [hrest]
    exact r.ends

/-- A line that means nothing, outside of statements. -/
theorem runsTo_of_noise {st : State} (hst : st.context = none) {line : Text}
    (h : LineKind.of none line = .unrecognized) (next : Text) :
    RunsTo cfg st [(line, next)] [(none, .ok [])] 0 := by
  let v : Visit := ⟨st, line, next⟩
  have hk : v.kind? cfg = some .unrecognized := by
    rw [Visit.kind?_of_lenient hstrict, hst, h]
  have hstep : step cfg st line next = v.step cfg := rfl
  rw [Visit.step_of_unrecognized hk] at hstep
  have hcontext : (step cfg st line next).state.context = none := by
    rw [hstep]
    exact hst
  have hcount : (step cfg st line next).state.tally.get (.statement .insert) =
      st.tally.get (.statement .insert) + 0 := by
    rw [hstep]
    simp [State.count, State.advanced, v]
  have hrun := RunsTo.cons (by rw [hstep]) (RunsTo.nil hcontext) hcount
  rw [hcontext] at hrun
  exact hrun

theorem runsTo_of_parts {st : State} (hst : st.context = none) (parts : List Part)
    {lines : List (Text × Text)} (hlines : lines.map Prod.fst = parts.flatMap Part.lines) :
    RunsTo cfg st lines (parts.flatMap (Part.shown cfg)) (parts.countP Part.isRow) := by
  induction parts generalizing st lines with
  | nil =>
    obtain rfl := List.map_eq_nil_iff.mp hlines
    exact .nil hst
  | cons part parts ih =>
    obtain ⟨own, more, rfl, hown, hmore⟩ := List.map_eq_append_iff.mp hlines
    have hpart : RunsTo cfg st own (part.shown cfg) (if part.isRow then 1 else 0) := by
      cases part with
      | row r => exact runsTo_of_row hstrict hst r hown
      | noise line h =>
        obtain ⟨⟨line', next⟩, rest, rfl, rfl, hrest⟩ := List.map_eq_cons_iff.mp hown
        obtain rfl := List.map_eq_nil_iff.mp hrest
        exact runsTo_of_noise hstrict hst h next
    rw [List.flatMap_cons, List.countP_cons, Nat.add_comm]
    exact hpart.append (ih hpart.context hmore)

omit hstrict

/-- **Boundaries of INSERT.** Take a state outside of statements and lines of rows as they are
dumped, with any lines between rows that mean nothing. Unless CREATE TYPE is an error, no line
fails. An INSERT statement is open after each line of its row but the last, also where that line
looks like its end, and none is open after the last. A line of a row is written as one line, or not
at all if the table of the row is left out, and each row is counted once. -/
theorem row_boundaries (cfg : Config) (hstrict : cfg.strict = false) {st : State}
    (hst : st.context = none) (parts : List Part) {lines : List (Text × Text)}
    (hlines : lines.map Prod.fst = parts.flatMap Part.lines) :
    (run cfg st lines).map (fun s => (s.state.context, s.result)) =
        parts.flatMap (Part.shown cfg) ∧
      (stateAfter st (run cfg st lines)).tally.get (.statement .insert) =
        st.tally.get (.statement .insert) + parts.countP Part.isRow :=
  have hrun := runsTo_of_parts hstrict hst parts hlines
  ⟨hrun.shown, hrun.count⟩

end

/-- A row whose first line looks like the end of the statement, an empty line, and a row of a table
that is left out. -/
theorem end_inside_value_is_passed :
    let cfg : Config := ⟨["a.u"], false, false⟩
    let lines : List (Text × Text) :=
      [("INSERT INTO a.t VALUES ('x);", "y');"), ("y');", ""), ("", "INSERT INTO a.u VALUES (1);"),
        ("INSERT INTO a.u VALUES (1);", "")]
    (run cfg {} lines).map (fun s => (s.state.context, s.result)) =
        [(some .insert, .ok ["INSERT INTO a.t VALUES ('x);"]), (none, .ok ["y');"]),
          (none, .ok []), (none, .ok [])] ∧
      (stateAfter {} (run cfg {} lines)).tally.get (.statement .insert) = 2 := by
  intro cfg lines
  let broken : Row := {
    first := "INSERT INTO a.t VALUES ('x);"
    more := ["y');"]
    opens := by decide +kernel
    ends := by decide +kernel
    breaksInside := by decide +kernel
    noSequenceValue := by decide +kernel
    opensOnce := List.forall_mem_singleton.mpr fun kind => by cases kind <;> decide +kernel }
  let withheld : Row := {
    first := "INSERT INTO a.u VALUES (1);"
    more := []
    opens := by decide +kernel
    ends := by decide +kernel
    breaksInside := by decide +kernel
    noSequenceValue := by decide +kernel
    opensOnce := fun _ h => nomatch h }
  let parts : List Part := [.row broken, .noise [] (by decide +kernel), .row withheld]
  have hst : ({} : State).context = none := rfl
  have hlines : lines.map Prod.fst = parts.flatMap Part.lines := rfl
  obtain ⟨hshown, hcount⟩ := row_boundaries cfg rfl hst parts hlines
  exact ⟨hshown.trans (by decide +kernel), hcount⟩

end DumpDialect.Insert
