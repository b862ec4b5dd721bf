import DumpDialect.Proofs.Conversion.Independence
import DumpDialect.Proofs.Conversion.Openings
import DumpDialect.Quoting

/-!
# Sequence values between the lines of a statement

A line that sets the value of a sequence is a statement of its own, also where it stands between
the lines of another one or inside a value. It leaves the other statement open and adds nothing to
the state, but the verdict on its own table takes the place of that on the other. If the two agree,
it might as well not be there; if not, the lines that follow are written or withheld by the verdict
on a table that is not theirs.

- `Visit.step_of_marker`: all that such a line does to the state.
- `run_without_values`: a run with such lines and the run without them.
- `sequence_value_inside_statement`: both, and when the verdict on the open statement is kept.
- `value_of_other_table_lets_row_through`: where it is not.
-/

namespace DumpDialect

/-- The line has the mark of a sequence value. -/
abbrev Visit.Marked (v : Visit) : Prop := SequenceValue.marker.occursIn v.line = true

/-- Two states that are the same, line numbers and counts apart. -/
structure State.SameButCounts (st st' : State) : Prop where
  context : st'.context = st.context
  suppressed : st'.suppressed = st.suppressed
  schemas : st'.schemas = st.schemas
  deferred : st'.deferred = st.deferred

variable {cfg : Config}

theorem State.SameButCounts.alike {st st' : State} (h : SameButCounts st st') :
    State.Alike st st' :=
  ⟨h.context, fun _ => by rw [h.schemas], fun _ => h.suppressed⟩

namespace Visit

variable {v : Visit}

/-! ## The line itself -/

/-- The line is one that may not stand in the dump, or it is taken for a sequence value. -/
theorem kind?_of_marker (cfg : Config) (hblock : v.before.context ≠ some .block)
    (hmarked : v.Marked) :
    v.kind? cfg = none ∨ v.kind? cfg = some .sequenceValue := by
  rw [kind?, LineKind.of_marker hblock hmarked]
  split
  · exact .inl rfl
  · exact .inr rfl

/-- A sequence value outside of blocks leaves the state as it is, except that the verdict on its
table becomes that on the lines to come. -/
theorem step_of_marker [Quoting] (cfg : Config) (hblock : v.before.context ≠ some .block)
    (hmarked : v.Marked) {table value : Text}
    (hread : SequenceValue.read? v.line = some (table, value)) :
    (v.step cfg).state.context = v.before.context ∧
      (v.step cfg).state.schemas = v.before.schemas ∧
      (v.step cfg).state.deferred = v.before.deferred ∧
      (v.step cfg).state.suppressed =
        if v.kind? cfg = none then v.before.suppressed else cfg.skips table := by
  rw [context_step, schemas_step, deferred_step, suppressed_step, declared?, deferred?]
  rcases kind?_of_marker cfg hblock hmarked with hk | hk <;> simp [hk, hread]

/-- The line sets the value of a sequence while a statement is open, and its table is left out if
and only if the lines of the statement are withheld. -/
structure ValueAgrees (cfg : Config) (v : Visit) : Prop where
  isOpen : ∃ current, v.before.context = some current ∧ current ≠ .block
  allowed : v.kind? cfg ≠ none
  verdict : ∃ table value, SequenceValue.read? v.line = some (table, value) ∧
    cfg.skips table = v.before.suppressed

theorem ValueAgrees.notBlock (h : v.ValueAgrees cfg) : v.before.context ≠ some .block := by
  obtain ⟨current, hopen, hblock⟩ := h.isOpen
  simpa [hopen] using hblock

variable [Quoting]

/-- A sequence value that agrees does not fail. -/
theorem ValueAgrees.error?_eq_none (h : v.ValueAgrees cfg) (hmarked : v.Marked) :
    (v.step cfg).error? = none := by
  obtain ⟨table, value, hread, -⟩ := h.verdict
  have hk := (kind?_of_marker cfg h.notBlock hmarked).resolve_left h.allowed
  simp only [Step.error?, result_step, hk, hread]

/-- A sequence value that agrees changes counts only. -/
theorem ValueAgrees.sameButCounts (h : v.ValueAgrees cfg) (hmarked : v.Marked) {st' : State}
    (hst : State.SameButCounts v.before st') : State.SameButCounts (v.step cfg).state st' := by
  obtain ⟨table, value, hread, hverdict⟩ := h.verdict
  obtain ⟨hcontext, hschemas, hdeferred, hsuppressed⟩ :=
    step_of_marker cfg h.notBlock hmarked hread
  rw [if_neg h.allowed, hverdict] at hsuppressed
  exact ⟨hst.context.trans hcontext.symm, hst.suppressed.trans hsuppressed.symm,
    hst.schemas.trans hschemas.symm, hst.deferred.trans hdeferred.symm⟩

/-- A step keeps two states the same. -/
theorem sameButCounts_step {st' : State} (h : State.SameButCounts v.before st') :
    State.SameButCounts (v.step cfg).state ((v.metIn st').step cfg).state where
  context := (alike_step h.alike (.inl h.suppressed)).context
  suppressed := suppressed_alike h.alike (.inl h.suppressed) (.inl h.suppressed)
  schemas := by rw [schemas_step, schemas_step, declared?_alike h.alike, before_metIn, h.schemas]
  deferred := by
    rw [deferred_step, deferred_step, deferred?_alike h.alike, before_metIn, h.deferred]

end Visit

/-! ## Runs -/

section

variable [Quoting]

/-- The run over `rest` from `st'` on writes what that over `lines` from `st` on writes, less what
the sequence values of `lines` write, and comes to the same state. -/
structure RunsLike (cfg : Config) (st st' : State) (lines rest : List (Text × Text)) : Prop where
  outputs : ((visits cfg st lines).filter fun v => !SequenceValue.marker.occursIn v.line).map
      (fun v => (v.step cfg).output) = (run cfg st' rest).map Step.output
  state : State.SameButCounts (stateAfter st (run cfg st lines)) (stateAfter st' (run cfg st' rest))

namespace RunsLike

variable {st st' : State} {line next : Text} {lines rest : List (Text × Text)}

/-- A sequence value that only the first run comes to. -/
theorem skip (hmarked : SequenceValue.marker.occursIn line = true)
    (hfine : (step cfg st line next).error? = none)
    (h : RunsLike cfg (step cfg st line next).state st' lines rest) :
    RunsLike cfg st st' ((line, next) :: lines) rest where
  outputs := by
    rw [visits_cons, if_pos hfine, List.filter_cons, hmarked]
    exact h.outputs
  state := by
    rw [run_cons_eq_ite, if_pos hfine, stateAfter_cons]
    exact h.state

/-- Any other line, which both runs come to. -/
theorem both (hmarked : SequenceValue.marker.occursIn line = false)
    (hstate : State.SameButCounts st st')
    (h : (step cfg st line next).error? = none →
      RunsLike cfg (step cfg st line next).state (step cfg st' line next).state lines rest) :
    RunsLike cfg st st' ((line, next) :: lines) ((line, next) :: rest) := by
  let v : Visit := ⟨st, line, next⟩
  have hflag : st'.suppressed = v.before.suppressed ∨ AlterTable.KeepsHeader v.line :=
    .inl hstate.suppressed
  have houtput : (step cfg st' line next).output = (step cfg st line next).output :=
    (Visit.outcome_alike cfg hstate.alike hflag).1
  have herror : (step cfg st' line next).error? = none ↔ (step cfg st line next).error? = none :=
    Visit.error?_alike cfg hstate.alike hflag
  have hafter : State.SameButCounts (step cfg st line next).state (step cfg st' line next).state :=
    Visit.sameButCounts_step (v := v) hstate
  by_cases hfine : (step cfg st line next).error? = none
  · obtain ⟨houtputs, hend⟩ := h hfine
    constructor
    · rw [visits_cons, if_pos hfine, run_cons_eq_ite, if_pos (herror.mpr hfine), List.filter_cons,
        hmarked, List.map_cons, houtput, ← houtputs]
      rfl
    · rw [run_cons_eq_ite, if_pos hfine, run_cons_eq_ite, if_pos (herror.mpr hfine),
        stateAfter_cons, stateAfter_cons]
      exact hend
  · constructor
    · rw [visits_cons, if_neg hfine, run_cons_eq_ite, if_neg (mt herror.mp hfine),
        List.filter_cons, hmarked, List.map_cons, houtput]
      rfl
    · rw [run_cons_eq_ite, if_neg hfine, run_cons_eq_ite, if_neg (mt herror.mp hfine),
        stateAfter_cons, stateAfter_cons]
      exact hafter

end RunsLike

/-- Sequence values that agree with the statements they stand in might as well not be there. The
induction is on the lines; the two states stay the same, also over a line that only the first run
comes to. -/
theorem run_without_values {st st' : State} (h : State.SameButCounts st st')
    {lines : List (Text × Text)}
    (hagree : ∀ v ∈ visits cfg st lines, v.Marked → v.ValueAgrees cfg) :
    RunsLike cfg st st' lines (lines.filter fun pair => !SequenceValue.marker.occursIn pair.1) := by
  induction lines generalizing st st' with
  | nil => exact ⟨rfl, h⟩
  | cons pair lines ih =>
    obtain ⟨line, next⟩ := pair
    let v : Visit := ⟨st, line, next⟩
    have hlater (hfine : (step cfg st line next).error? = none) :
        ∀ u ∈ visits cfg (step cfg st line next).state lines, u.Marked → u.ValueAgrees cfg := by
      intro u hu
      refine hagree u ?_
      rw [visits_cons, if_pos hfine]
      exact List.mem_cons_of_mem _ hu
    -- A line of a value is skipped by the second run, and leaves the first where it was.
    cases hline : SequenceValue.marker.occursIn line with
    | true =>
      have hv : v.ValueAgrees cfg := hagree v (by simp [visits_cons, v]) hline
      have hfine : (step cfg st line next).error? = none := hv.error?_eq_none hline
      rw [List.filter_cons, hline]
      exact .skip hline hfine (ih (hv.sameButCounts hline h) (hlater hfine))
    | false =>
      rw [List.filter_cons, hline]
      refine .both hline h fun hfine => ih ?_ (hlater hfine)
      exact Visit.sameButCounts_step (v := v) h

/-- **A sequence value inside a statement.** A line that sets the value of a sequence while a
CREATE TABLE, ALTER TABLE or INSERT statement is open leaves that statement open and the schemas and
the changes that wait as they were. It keeps the verdict on the statement exactly if it may not
stand in the dump or if its own table has the same verdict. Take a run over lines of which each that
sets a sequence value does so inside a statement of the same verdict: without those lines the run
writes the same for the others and comes to the same state. -/
theorem sequence_value_inside_statement (cfg : Config) :
    (∀ (v : Visit) (current : Statement) (table value : Text),
      v.before.context = some current → current ≠ .block → v.Marked →
      SequenceValue.read? v.line = some (table, value) →
        (v.step cfg).state.context = v.before.context ∧
        (v.step cfg).state.schemas = v.before.schemas ∧
        (v.step cfg).state.deferred = v.before.deferred ∧
        ((v.step cfg).state.suppressed = v.before.suppressed ↔
          v.kind? cfg = none ∨ cfg.skips table = v.before.suppressed)) ∧
      ∀ (st : State) (lines : List (Text × Text)),
        (∀ v ∈ visits cfg st lines, v.Marked → v.ValueAgrees cfg) →
          RunsLike cfg st st lines
            (lines.filter fun pair => !SequenceValue.marker.occursIn pair.1) := by
  refine ⟨fun v current table value hopen hblock hmarked hread => ?_,
    fun st lines hagree => run_without_values ⟨rfl, rfl, rfl, rfl⟩ hagree⟩
  have hnot : v.before.context ≠ some .block := by simpa [hopen] using hblock
  obtain ⟨hcontext, hschemas, hdeferred, hsuppressed⟩ := Visit.step_of_marker cfg hnot hmarked hread
  refine ⟨hcontext, hschemas, hdeferred, ?_⟩
  rw [hsuppressed]
  split
  · next hforbidden => simp [hforbidden]
  · next hallowed => simp [hallowed]

end

/-- A row of a table that is left out, with the value of a sequence of another such table inside:
the row stays withheld to its end. -/
theorem row_withheld_past_value :
    let cfg : Config := ⟨["a.t", "a.u"], false, false⟩
    let first : Text × Text := ("INSERT INTO a.t VALUES (1, 'x", "")
    let last : Text × Text := ("y');", "")
    let row := stateAfter {} (run cfg {} [first])
    let v : Visit := ⟨row, "SELECT pg_catalog.setval('a.u_id_seq', 5, true);", "y');"⟩
    v.ValueAgrees cfg ∧ (v.step cfg).state.suppressed = row.suppressed ∧
      RunsLike cfg row row [(v.line, v.next), last] [last] ∧
      (run cfg row [last]).map Step.output = [[]] := by
  intro cfg first last row v
  have hopen : row.context = some .insert := by decide +kernel
  have hmarked : v.Marked := by decide +kernel
  have hread : SequenceValue.read? v.line = some (("a.u" : Text), ("5" : Text)) := by decide +kernel
  have hverdict : cfg.skips "a.u" = row.suppressed := by decide +kernel
  have hv : v.ValueAgrees cfg :=
    ⟨⟨.insert, hopen, by decide⟩, by decide +kernel, "a.u", "5", hread, hverdict⟩
  have hvisits : visits cfg row [(v.line, v.next), last] =
      [v, ⟨(v.step cfg).state, last.1, last.2⟩] := by decide +kernel
  have hlast : SequenceValue.marker.occursIn last.1 = false := by decide +kernel
  obtain ⟨hstep, hruns⟩ := sequence_value_inside_statement cfg
  refine ⟨hv, ?_, ?_, by decide +kernel⟩
  · exact (hstep v .insert _ _ hopen (by decide) hmarked hread).2.2.2.mpr (.inr hverdict)
  · have hagree : ∀ u ∈ visits cfg row [(v.line, v.next), last], u.Marked → u.ValueAgrees cfg := by
      rw [hvisits]
      refine List.forall_mem_cons.mpr ⟨fun _ => hv, List.forall_mem_singleton.mpr fun h => ?_⟩
      exact absurd h (by simp [Visit.Marked, hlast])
    have hrest : [(v.line, v.next), last].filter
        (fun pair => !SequenceValue.marker.occursIn pair.1) = [last] := by decide +kernel
    exact hrest ▸ hruns row _ hagree

/-- A row of a table that is left out, with the value of a sequence of a table that is kept inside:
the end of the row is written. -/
theorem value_of_other_table_lets_row_through :
    let cfg : Config := ⟨["a.t"], false, false⟩
    let row := stateAfter {} (run cfg {} [("INSERT INTO a.t VALUES (1, 'x", "")])
    let v : Visit := ⟨row, "SELECT pg_catalog.setval('a.u_id_seq', 5, true);", "y');"⟩
    row.context = some .insert ∧ row.suppressed = true ∧ v.Marked ∧
      SequenceValue.read? v.line = some (("a.u" : Text), ("5" : Text)) ∧
      (v.step cfg).state.suppressed ≠ row.suppressed ∧
      (step cfg (v.step cfg).state "y');" "").output = ["y');"] := by
  decide +kernel

end DumpDialect
