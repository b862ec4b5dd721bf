import DumpDialect.Proofs.Conversion.History
import DumpDialect.Quoting

/-!
# What a step depends on

A step looks at the open statement, at which schemas are known, and at whether lines are withheld;
and at the last only while a statement is open, since a line that opens a statement decides anew.
So what a finished statement leaves behind does not show in those after it.

- `State.Alike`: two states between which no later line can tell.
- `Visit.treatment_alike`: a line of a statement, met in either state.
- `Visit.outcome_alike`, `Visit.alike_step`: a step from either state.
- `finished_statements_do_not_show`: whole runs.
-/

namespace DumpDialect

/-- Two states that differ only in the order of the schemas, in what a finished statement left
behind, and in what is written down for the end of the run. -/
structure State.Alike (st st' : State) : Prop where
  context : st'.context = st.context
  schemas : ∀ s, s ∈ st'.schemas ↔ s ∈ st.schemas
  suppressed : st.context ≠ none → st'.suppressed = st.suppressed

/-- Two treatments that come to the same, their events apart. -/
structure Treatment.Alike (t t' : Treatment) : Prop where
  line : t'.line = t.line
  stillOpen : t'.stillOpen = t.stillOpen
  suppressed : t'.suppressed = t.suppressed
  preamble : t'.preamble = t.preamble

/-- If the line starts an ALTER TABLE statement, it still does so when the clauses that MySQL lacks
are dropped. -/
def AlterTable.KeepsHeader (line : Text) : Prop :=
  header.opens line = true → header.opens (applyRules rules line) = true

instance : DecidablePred AlterTable.KeepsHeader := fun line =>
  inferInstanceAs (Decidable (AlterTable.header.opens line = true →
    AlterTable.header.opens (applyRules AlterTable.rules line) = true))

/-- The same line, met in another state. -/
def Visit.metIn (v : Visit) (st : State) : Visit := { v with before := st }

@[simp] theorem Visit.before_metIn (v : Visit) (st : State) : (v.metIn st).before = st := rfl

@[simp] theorem Visit.line_metIn (v : Visit) (st : State) : (v.metIn st).line = v.line := rfl

variable {cfg : Config}

theorem Treatment.Alike.output {t t' : Treatment} (h : Alike t t') : t'.output = t.output := by
  rw [Treatment.output, h.preamble, h.suppressed, h.line, Treatment.output]

theorem withholds_congr {before before' : Bool} {table? : Option Text}
    (h : table? = none → before' = before) :
    cfg.withholds before' table? = cfg.withholds before table? := by
  cases table? with
  | none => exact h rfl
  | some table => rfl

namespace State.Alike

variable {st st' : State}

theorem advanced (h : Alike st st') : Alike st.advanced st'.advanced :=
  ⟨h.context, h.schemas, h.suppressed⟩

theorem newSchema?_eq (h : Alike st st') (line : Text) :
    st'.newSchema? line = st.newSchema? line := by
  rw [State.newSchema?, State.newSchema?]
  congr 1
  funext s
  simp [h.schemas s]

end State.Alike

namespace Visit

variable {v : Visit} {st' : State}

/-- A line without a table belongs to a statement that is open. -/
theorem open_of_table?_eq_none {kind : Statement} (hk : v.kind? cfg = some (.statement kind))
    (h : kind.table? v.line = none) : v.before.context = some kind := by
  rcases LineKind.of_eq_statement (kind?_eq_some hk) with hopen | hopens
  · exact hopen
  · rw [Statement.table?_eq_none_iff.mp h] at hopens
    cases hopens

theorem kind?_alike (h : State.Alike v.before st') : (v.metIn st').kind? cfg = v.kind? cfg := by
  simp only [kind?, metIn, h.context]

theorem treatment_alike [Quoting] (h : State.Alike v.before st')
    (hflag : st'.suppressed = v.before.suppressed ∨ AlterTable.KeepsHeader v.line)
    {kind : Statement} (hk : v.kind? cfg = some (.statement kind)) :
    Treatment.Alike (v.treatment cfg kind) ((v.metIn st').treatment cfg kind) := by
  -- The flag that was left is read only by a line that names no table, in an open statement.
  have hopen (hctx : v.before.context = some kind) : st'.suppressed = v.before.suppressed :=
    h.suppressed (by simp [hctx])
  cases kind with
  | createTable =>
    exact {
      line := rfl
      stillOpen := rfl
      suppressed := withholds_congr fun htable => hopen (open_of_table?_eq_none hk htable)
      preamble := by
        simp only [treatment, Treatment.preamble_ofStatement, metIn, h.advanced.newSchema?_eq] }
  | alterTable =>
    -- In the rewritten line an ALTER TABLE header may be gone; then the flag would be read although
    -- the statement starts here.
    have hbefore : AlterTable.table? v.line = none → st'.suppressed = v.before.suppressed := by
      intro htable
      rcases hflag with hflag | hkeeps
      · exact hflag
      · have hbare := Statement.table?_eq_none_iff.mp htable
        refine hopen (open_of_table?_eq_none hk (Statement.table?_eq_none_iff.mpr ?_))
        exact Bool.eq_false_iff.mpr fun hopens => Bool.eq_false_iff.mp hbare (hkeeps hopens)
    have hwithholds : cfg.withholds st'.advanced.suppressed (AlterTable.table? v.line) =
        cfg.withholds v.before.advanced.suppressed (AlterTable.table? v.line) :=
      withholds_congr hbefore
    simp only [treatment, metIn, Treatment.ofStatement, Treatment.ofAlterTable_eq, hwithholds]
    split <;> exact ⟨rfl, rfl, rfl, rfl⟩
  | insert =>
    have hcontinued : (st'.advanced.context = some .insert) =
        (v.before.advanced.context = some .insert) := by rw [h.advanced.context]
    simp only [treatment, metIn, Treatment.ofStatement, hcontinued]
    exact {
      line := rfl
      stillOpen := rfl
      suppressed := withholds_congr fun htable => hopen (open_of_table?_eq_none hk htable)
      preamble := rfl }
  | block => exact ⟨rfl, rfl, rfl, rfl⟩

/-- What a step writes does not depend on which of the two states it starts from, nor does the fault
with which it fails. -/
theorem outcome_alike [Quoting] (cfg : Config) (h : State.Alike v.before st')
    (hflag : st'.suppressed = v.before.suppressed ∨ AlterTable.KeepsHeader v.line) :
    ((v.metIn st').step cfg).output = (v.step cfg).output ∧
      ((v.metIn st').step cfg).error?.map ConversionError.fault =
        (v.step cfg).error?.map ConversionError.fault := by
  simp only [Step.output, Step.error?, result_step, kind?_alike h, line_metIn]
  rcases hk : v.kind? cfg with _ | (_ | _ | kind | _)
  · exact ⟨rfl, rfl⟩
  · cases SequenceValue.read? v.line <;> exact ⟨rfl, rfl⟩
  · exact ⟨rfl, rfl⟩
  · exact ⟨(treatment_alike h hflag hk).output, rfl⟩
  · exact ⟨rfl, rfl⟩

/-- A step fails from both states or from neither. -/
theorem error?_alike [Quoting] (cfg : Config) (h : State.Alike v.before st')
    (hflag : st'.suppressed = v.before.suppressed ∨ AlterTable.KeepsHeader v.line) :
    ((v.metIn st').step cfg).error? = none ↔ (v.step cfg).error? = none := by
  have hfault := (outcome_alike cfg h hflag).2
  rw [← Option.map_eq_none_iff (f := ConversionError.fault), hfault, Option.map_eq_none_iff]

theorem deferred?_alike [Quoting] (h : State.Alike v.before st') :
    (v.metIn st').deferred? cfg = v.deferred? cfg := by
  rw [deferred?, kind?_alike h, deferred?]
  rfl

theorem declared?_alike (h : State.Alike v.before st') :
    (v.metIn st').declared? cfg = v.declared? cfg := by
  rw [declared?, kind?_alike h, declared?]
  simp only [metIn, h.newSchema?_eq]

/-- Lines are withheld after both steps or after neither, if they were before both or neither, or if
a statement is open. -/
theorem suppressed_alike [Quoting] (h : State.Alike v.before st')
    (hflag : st'.suppressed = v.before.suppressed ∨ AlterTable.KeepsHeader v.line)
    (hafter : st'.suppressed = v.before.suppressed ∨ (v.step cfg).state.context ≠ none) :
    ((v.metIn st').step cfg).state.suppressed = (v.step cfg).state.suppressed := by
  rw [context_step] at hafter
  rw [suppressed_step, suppressed_step, kind?_alike h]
  rcases hk : v.kind? cfg with _ | (_ | _ | kind | _) <;> simp only [hk] at hafter ⊢
  · exact hafter.elim id h.suppressed
  · rw [line_metIn]
    cases SequenceValue.read? v.line with
    | none => exact hafter.elim id h.suppressed
    | some read => rfl
  · rfl
  · exact (treatment_alike h hflag hk).suppressed
  · exact hafter.elim id h.suppressed

/-- A step keeps two states alike. -/
theorem alike_step [Quoting] (h : State.Alike v.before st')
    (hflag : st'.suppressed = v.before.suppressed ∨ AlterTable.KeepsHeader v.line) :
    State.Alike (v.step cfg).state ((v.metIn st').step cfg).state where
  context := by
    rw [context_step, context_step, kind?_alike h]
    rcases hk : v.kind? cfg with _ | (_ | _ | kind | _)
    · exact h.context
    · exact h.context
    · exact h.context
    · simp only [(treatment_alike h hflag hk).stillOpen]
    · exact h.context
  schemas s := by
    rw [schemas_step, schemas_step, declared?_alike h, List.mem_append, List.mem_append]
    exact or_congr_left (h.schemas s)
  suppressed hopen := suppressed_alike h hflag (.inr hopen)

end Visit

/-! ## Runs -/

/-- The second step is that over the same line in another run: it writes the same and fails in the
same way, if at all, the same statement is open after it, and the same changes are deferred since
the two runs started, with `old` and `old'` waiting. -/
structure Step.Alike (old old' : List DeferredChange) (s s' : Step) : Prop where
  output : s'.output = s.output
  fault : s'.error?.map ConversionError.fault = s.error?.map ConversionError.fault
  state : State.Alike s.state s'.state
  deferred : ∃ added, s.state.deferred = old ++ added ∧ s'.state.deferred = old' ++ added

/-- **Finished statements do not show.** Take two states outside of statements that know the same
schemas, and lines of which each that starts an ALTER TABLE statement still does so when the clauses
that MySQL lacks are dropped. Whatever else the two states hold, the runs from them write the same
lines at every step, go through the same open statements, defer the same changes, and fail at the
same step, if at all. -/
theorem finished_statements_do_not_show [Quoting] (cfg : Config) {st st' : State}
    (hst : st.context = none) (hst' : st'.context = none)
    (hschemas : ∀ s, s ∈ st'.schemas ↔ s ∈ st.schemas)
    {lines : List (Text × Text)} (hlines : ∀ pair ∈ lines, AlterTable.KeepsHeader pair.1) :
    List.Forall₂ (Step.Alike st.deferred st'.deferred) (run cfg st lines) (run cfg st' lines) := by
  -- The changes that wait differ at the start and stay different, by the same additions on both
  -- sides.
  let Related (u u' : State) : Prop :=
    State.Alike u u' ∧
      ∃ added, u.deferred = st.deferred ++ added ∧ u'.deferred = st'.deferred ++ added
  have hstart : Related st st' := by
    refine ⟨⟨hst'.trans hst.symm, hschemas, fun hopen => absurd hst hopen⟩, [], ?_⟩
    simp
  have hstep : ∀ (v : Visit) (u' : State), AlterTable.KeepsHeader v.line → Related v.before u' →
      Step.Alike st.deferred st'.deferred (v.step cfg) ((v.metIn u').step cfg) := by
    rintro v u' hkeeps ⟨h, added, hadded, hadded'⟩
    have houtcome := Visit.outcome_alike cfg h (.inr hkeeps)
    refine ⟨houtcome.1, houtcome.2, Visit.alike_step h (.inr hkeeps),
      added ++ (v.deferred? cfg).toList, ?_, ?_⟩
    · rw [v.deferred_step, hadded, List.append_assoc]
    · rw [(v.metIn u').deferred_step, Visit.deferred?_alike h, Visit.before_metIn, hadded',
        List.append_assoc]
  have hnext : ∀ s s', Step.Alike st.deferred st'.deferred s s' →
      s'.error?.isSome = s.error?.isSome ∧ Related s.state s'.state := by
    rintro s s' ⟨-, hfault, hstate, hdeferred⟩
    refine ⟨?_, hstate, hdeferred⟩
    simpa using congrArg Option.isSome hfault
  exact run_together hstep hnext hstart lines fun v hv => hlines _ (mem_of_mem_visits hv)

/-- Two states, of which only one has just withheld a table and has a change that waits: a table,
the default of its key and a row come out the same from both. -/
theorem withheld_table_does_not_show :
    let cfg : Config := ⟨["a.u"], false, false⟩
    let old : List DeferredChange := [⟨"b.w", "id"⟩]
    let st : State := ⟨none, true, ["a", "b"], old, 7, {}⟩
    let st' : State := ⟨none, false, ["b", "a"], [], 0, {}⟩
    let lines : List (Text × Text) :=
      [("CREATE TABLE a.t ();", ""),
        ("ALTER TABLE ONLY a.t ALTER COLUMN id SET DEFAULT nextval('a.s');", ""),
        ("INSERT INTO a.t VALUES (1);", "")]
    List.Forall₂ (Step.Alike old []) (run cfg st lines) (run cfg st' lines) ∧
      (run cfg st lines).map (·.output.length) = [1, 0, 1] ∧
      (stateAfter st (run cfg st lines)).deferred = old ++ [⟨"a.t", "id"⟩] := by
  intro cfg old st st' lines
  have hschemas : ∀ s, s ∈ st'.schemas ↔ s ∈ st.schemas := fun s => by simp [st, st', or_comm]
  have hlines : ∀ pair ∈ lines, AlterTable.KeepsHeader pair.1 := by decide +kernel
  exact ⟨finished_statements_do_not_show cfg rfl rfl hschemas hlines, by decide +kernel⟩

end DumpDialect
