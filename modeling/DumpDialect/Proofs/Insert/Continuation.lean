import DumpDialect.Proofs.Conversion.Databases
import DumpDialect.Proofs.Conversion.SequenceValues
import DumpDialect.Quoting

/-!
# The lines of an open INSERT statement

A value may hold any text, so a line inside of one may read like a statement. The kinds of lines are
tried in a fixed order in which INSERT statements come late: a line that opens a block or another
kind of statement, or that sets a sequence value, is taken for that, also inside of a value. All
other lines belong to the INSERT statement that is open, and do nothing but go on with it.

- `LineKind.of_insert_iff`: the lines that belong to an open INSERT statement.
- `Visit.takenFor`: what a line does at most, by the kind of statement that it is taken for.
- `unclaimed_lines_inject_nothing`: runs over lines that no other kind claims.
- `open_insert_owns_unclaimed_lines`: any line, met while an INSERT statement is open.
- `claimed_lines_leave_the_value`: a line of a value for each kind that claims lines.
-/

namespace DumpDialect

/-- No kind of lines but INSERT statements claims the line, whatever is open. -/
structure Insert.Unclaimed (line : Text) : Prop where
  unopened : ∀ kind : Statement, kind ≠ .insert → kind.opening.opens line = false
  unmarked : SequenceValue.marker.occursIn line = false

namespace LineKind

/-- The lines that belong to an open INSERT statement are those that nothing else claims. -/
theorem of_insert_iff {line : Text} :
    of (some .insert) line = .statement .insert ↔ Insert.Unclaimed line := by
  constructor
  · intro h
    have hmarker : SequenceValue.marker.occursIn line = false := by
      refine Bool.eq_false_iff.mpr fun hmarker => ?_
      rw [of_marker (by simp) hmarker] at h
      cases h
    refine ⟨fun kind hkind => Bool.eq_false_iff.mpr fun hopens => hkind ?_, hmarker⟩
    rw [of_opens (.inr rfl) hopens hmarker] at h
    exact LineKind.statement.inj h
  · intro h
    -- A line that opens another INSERT statement is unclaimed too, but is taken by its keyword.
    cases hopens : Insert.header.opens line with
    | true =>
      have hinsert : Statement.insert.opening.opens line = true := hopens
      exact of_opens (.inr rfl) hinsert h.unmarked
    | false =>
      refine of_continues .insert (fun kind => ?_) h.unmarked
      by_cases hkind : kind = .insert
      · exact hkind ▸ hopens
      · exact h.unopened kind hkind

/-- Outside of statements such a line is an INSERT statement or one that fits on a line. -/
theorem of_none_of_unclaimed {line : Text} (h : Insert.Unclaimed line) :
    of none line = .statement .insert ∨ of none line = .createIndex ∨
      of none line = .unrecognized := by
  have hb := h.unopened .block (by decide)
  have hc := h.unopened .createTable (by decide)
  have ha := h.unopened .alterTable (by decide)
  have hm := h.unmarked
  simp only [Statement.opening] at hb hc ha
  unfold of
  simp only [hb, hc, ha, hm]
  simp only [reduceCtorEq, decide_false, Bool.or_self, Bool.false_eq_true, ↓reduceIte,
    Bool.false_or]
  split
  · exact .inl rfl
  · split
    · exact .inr (.inl rfl)
    · exact .inr (.inr rfl)

end LineKind

namespace Visit

variable [Quoting] {cfg : Config} {v : Visit}

/-! ## One line -/

/-- What a line does at most, if it is taken for a line of a statement of the kind. -/
structure TakenFor (cfg : Config) (v : Visit) (kind : Statement) : Prop where
  fine : (v.step cfg).error? = none
  output : ∃ own : List Text, own.length ≤ 1 ∧ (v.step cfg).output =
    (if kind = .createTable then (v.before.newSchema? v.line).toList.flatMap databaseDeclaration
      else []) ++ own
  schemas : (v.step cfg).state.schemas = v.before.schemas ++
    if kind = .createTable then (v.before.newSchema? v.line).toList else []
  deferred : (v.step cfg).state.deferred = v.before.deferred ++
    if kind = .alterTable then (cfg.deferral? v.line).toList else []
  context : (v.step cfg).state.context = some kind ∨ (v.step cfg).state.context = none

theorem takenFor {kind : Statement} (hk : v.kind? cfg = some (.statement kind)) :
    v.TakenFor cfg kind where
  fine := by simp only [Step.error?, result_step, hk]
  output := by
    obtain ⟨own, hown, hout⟩ := v.output_step cfg
    refine ⟨own, hown, hout.trans ?_⟩
    cases kind <;> simp [declared?, hk]
  schemas := by
    rw [schemas_step, declared?, hk]
    cases kind <;> simp
  deferred := by
    rw [deferred_step, deferred?, hk]
    cases kind <;> simp
  context := by
    rw [context_step, hk]
    simp only
    split
    · exact .inl rfl
    · exact .inr rfl

/-- The line does not fail, declares and defers nothing, and opens no statement but an INSERT. -/
structure InjectsNothing (cfg : Config) (v : Visit) : Prop where
  fine : (v.step cfg).error? = none
  single : (v.step cfg).output.length ≤ 1
  noDatabase : ∀ schema, ¬ databaseDeclaration schema <:+: (v.step cfg).output
  schemas : (v.step cfg).state.schemas = v.before.schemas
  deferred : (v.step cfg).state.deferred = v.before.deferred
  context : (v.step cfg).state.context = some .insert ∨ (v.step cfg).state.context = none

/-- A line that nothing else claims, in an INSERT statement or outside of statements. -/
theorem injectsNothing (hstrict : cfg.strict = false)
    (hcontext : v.before.context = some .insert ∨ v.before.context = none)
    (h : Insert.Unclaimed v.line) : v.InjectsNothing cfg := by
  -- Outside of statements an index is the only thing such a line could still be.
  have hkind : v.kind? cfg = some (.statement .insert) ∨ v.kind? cfg = some .createIndex ∨
      v.kind? cfg = some .unrecognized := by
    rw [kind?_of_lenient hstrict]
    rcases hcontext with hopen | hnone
    · exact .inl (by rw [hopen, LineKind.of_insert_iff.mpr h])
    · simpa [hnone] using LineKind.of_none_of_unclaimed h
  have hdeclared : v.declared? cfg = none := by
    rcases hkind with hk | hk | hk <;> simp [declared?, hk]
  have hdeferred : v.deferred? cfg = none := by
    rcases hkind with hk | hk | hk <;> simp [deferred?, hk]
  obtain ⟨own, hown, hout⟩ := v.output_step cfg
  exact {
    fine := by rcases hkind with hk | hk | hk <;> simp only [Step.error?, result_step, hk]
    single := by simpa [hout, hdeclared] using hown
    noDatabase := fun schema => by simp [v.declaration_infix_output_iff, hdeclared]
    schemas := by simp [schemas_step, hdeclared]
    deferred := by simp [deferred_step, hdeferred]
    context := by
      rcases hkind with hk | hk | hk
      · exact (takenFor hk).context
      · simpa only [context_step, hk] using hcontext
      · simpa only [context_step, hk] using hcontext }

/-- The line goes on with the INSERT statement that is open: it is written as an INSERT line is,
unless the statement is withheld, and injects nothing. -/
structure OwnedByInsert (cfg : Config) (v : Visit) : Prop extends v.InjectsNothing cfg where
  result : (v.step cfg).result =
    .ok (if (v.step cfg).state.suppressed then [] else [Insert.written cfg v.line])

theorem ownedByInsert (hstrict : cfg.strict = false) (hopen : v.before.context = some .insert)
    (h : Insert.Unclaimed v.line) : v.OwnedByInsert cfg where
  toInjectsNothing := injectsNothing hstrict (.inl hopen) h
  result := by
    have hk : v.kind? cfg = some (.statement .insert) := by
      rw [kind?_of_lenient hstrict, hopen, LineKind.of_insert_iff.mpr h]
    rw [step_of_statement hk]
    rfl

/-- The line that opens a block is withheld, and the block stays open. -/
theorem step_of_block (hk : v.kind? cfg = some (.statement .block))
    (h : Block.opening.opens v.line = true) :
    (v.step cfg).result = .ok [] ∧ (v.step cfg).state.context = some .block := by
  rw [step_of_statement hk]
  refine ⟨rfl, ?_⟩
  simp [treatment, Treatment.ofStatement, Treatment.ofBlock, Block.closing_of_opening h]

end Visit

/-! ## Runs -/

/-- A run over lines that nothing but INSERT statements claims does not fail, declares and defers
nothing, and writes one line at most for each. The induction is on the history: behind its last
line an INSERT statement is open or none is. -/
theorem unclaimed_lines_inject_nothing [Quoting] {cfg : Config} (hstrict : cfg.strict = false)
    {st : State} (hopen : st.context = some .insert) {lines : List (Text × Text)}
    (h : ∀ pair ∈ lines, Insert.Unclaimed pair.1) :
    (∀ v ∈ visits cfg st lines, v.InjectsNothing cfg) ∧
      (stateAfter st (run cfg st lines)).schemas = st.schemas ∧
      (stateAfter st (run cfg st lines)).deferred = st.deferred := by
  -- `InjectsNothing` carries the invariant over a step; it is kept for the visits made so far.
  let Inv (past : List Visit) (now : State) : Prop :=
    (∀ v ∈ past, Insert.Unclaimed v.line) →
      (now.context = some .insert ∨ now.context = none) ∧ now.schemas = st.schemas ∧
        now.deferred = st.deferred ∧ ∀ v ∈ past, v.InjectsNothing cfg
  have hstep : ∀ past v, Inv past v.before → Inv (past ++ [v]) (v.step cfg).state := by
    intro past v hbefore hunclaimed
    rw [List.forall_mem_append, List.forall_mem_singleton] at hunclaimed
    obtain ⟨hcontext, hschemas, hdeferred, hpast⟩ := hbefore hunclaimed.1
    have hv := Visit.injectsNothing hstrict hcontext hunclaimed.2
    refine ⟨hv.context, hv.schemas.trans hschemas, hv.deferred.trans hdeferred, ?_⟩
    rw [List.forall_mem_append, List.forall_mem_singleton]
    exact ⟨hpast, hv⟩
  have hstart : Inv [] st := fun _ => ⟨.inl hopen, rfl, rfl, by simp⟩
  obtain ⟨-, hschemas, hdeferred, hvisits⟩ :=
    (history_invariant hstep hstart lines).2 fun v hv => h _ (mem_of_mem_visits hv)
  exact ⟨hvisits, hschemas, hdeferred⟩

/-- **An open INSERT statement owns what nothing else claims.** While an INSERT statement is open,
and CREATE TYPE is no error, a line that neither opens another kind of statement nor sets a sequence
value is written as a line of the INSERT statement, or withheld with it, and does nothing else. A
line that opens another kind is taken for that and does not fail either: only a CREATE TABLE line
can declare a database, and only an ALTER TABLE line can defer a change. A line that opens a block
is withheld and leaves the block open. A line that sets a sequence value leaves the INSERT statement
open, declares and defers nothing, and fails exactly if the value cannot be read. However many lines
that nothing else claims follow, none of them does anything but go on with INSERT statements. -/
theorem open_insert_owns_unclaimed_lines [Quoting] (cfg : Config) (hstrict : cfg.strict = false)
    {v : Visit} (hopen : v.before.context = some .insert) :
    (Insert.Unclaimed v.line → v.OwnedByInsert cfg) ∧
      (∀ kind : Statement, kind.opening.opens v.line = true → ¬ v.Marked → v.TakenFor cfg kind) ∧
      (Block.opening.opens v.line = true →
        (v.step cfg).result = .ok [] ∧ (v.step cfg).state.context = some .block) ∧
      (v.Marked →
        (v.step cfg).state.context = some .insert ∧
        (v.step cfg).state.schemas = v.before.schemas ∧
        (v.step cfg).state.deferred = v.before.deferred ∧
        (v.step cfg).result =
          match SequenceValue.read? v.line with
          | none => .error ⟨.sequenceValue v.line.trim, v.before.lineNumber + 1⟩
          | some (table, value) =>
            .ok (if cfg.skips table then [] else [SequenceValue.written table value])) ∧
      ∀ lines : List (Text × Text), (∀ pair ∈ lines, Insert.Unclaimed pair.1) →
        (∀ u ∈ visits cfg v.before lines, u.InjectsNothing cfg) ∧
          (stateAfter v.before (run cfg v.before lines)).schemas = v.before.schemas ∧
          (stateAfter v.before (run cfg v.before lines)).deferred = v.before.deferred := by
  have hkind (kind : Statement) (hopens : kind.opening.opens v.line = true) (hmarked : ¬ v.Marked) :
      v.kind? cfg = some (.statement kind) := by
    rw [Visit.kind?_of_lenient hstrict,
      LineKind.of_opens (.inr hopen) hopens (Bool.eq_false_iff.mpr hmarked)]
  refine ⟨Visit.ownedByInsert hstrict hopen,
    fun kind hopens hmarked => Visit.takenFor (hkind kind hopens hmarked), fun hblock => ?_,
    fun hmarked => ?_, fun lines => unclaimed_lines_inject_nothing hstrict hopen⟩
  · -- Words in front of the marker are not those that open a block.
    have hmarked : ¬ v.Marked := fun hmarked => by
      rw [Block.opening_of_marker hmarked] at hblock
      cases hblock
    exact Visit.step_of_block (hkind .block hblock hmarked) hblock
  · have hk : v.kind? cfg = some .sequenceValue := by
      rw [Visit.kind?_of_lenient hstrict, LineKind.of_marker (by simp [hopen]) hmarked]
    have hdeclared : v.declared? cfg = none := by simp [Visit.declared?, hk]
    have hdeferred : v.deferred? cfg = none := by simp [Visit.deferred?, hk]
    refine ⟨?_, ?_, ?_, ?_⟩
    · simp only [Visit.context_step, hk, hopen]
    · simp [Visit.schemas_step, hdeclared]
    · simp [Visit.deferred_step, hdeferred]
    · rw [Visit.result_step]
      cases SequenceValue.read? v.line <;> simp only [hk]

/-- A line of a value that reads like the end of a database is written as it is. -/
theorem drop_inside_value_is_written :
    let cfg : Config := ⟨[], false, false⟩
    let row := stateAfter {} (run cfg {} [("INSERT INTO a.t VALUES (1, 'x", "")])
    let v : Visit := ⟨row, "DROP DATABASE b;", "y');"⟩
    v.OwnedByInsert cfg ∧ (v.step cfg).output = [v.line] ∧
      (v.step cfg).state.context = some .insert := by
  intro cfg row v
  have hopen : v.before.context = some .insert := by decide +kernel
  have hunopened : ∀ kind : Statement, kind ≠ .insert → kind.opening.opens v.line = false := by
    rintro (_ | _ | _ | _) <;> decide +kernel
  have h : Insert.Unclaimed v.line := ⟨hunopened, by decide +kernel⟩
  exact ⟨(open_insert_owns_unclaimed_lines cfg rfl hopen).1 h, by decide +kernel,
    by decide +kernel⟩

/-- Lines of a value that other kinds claim: one declares a database, one opens a block, one fails,
and one defers a change. -/
theorem claimed_lines_leave_the_value :
    let cfg : Config := ⟨[], false, false⟩
    let row := stateAfter {} (run cfg {} [("INSERT INTO a.t VALUES (1, 'x", "")])
    let met (line : Text) : Step := step cfg row line "y');"
    row.context = some .insert ∧
      (["DROP DATABASE IF EXISTS b;", "CREATE DATABASE b;"] : List Text) <:+:
        (met "CREATE TABLE b.u (").output ∧
      (met "begin").state.context = some .block ∧
      (met "pg_catalog.setval").error? ≠ none ∧
      (met "ALTER TABLE a.t ALTER COLUMN c SET DEFAULT nextval").state.deferred ≠ row.deferred := by
  decide +kernel

end DumpDialect
