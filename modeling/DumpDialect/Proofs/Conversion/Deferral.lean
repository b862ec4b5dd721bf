import DumpDialect.Proofs.Conversion.History
import DumpDialect.Quoting

/-!
# The changes that wait for the end

The default of a sequence becomes a change that waits until all else is written, since MySQL takes
it only once its column is a key. No change is lost, doubled or moved on the way: what waits is a
function of the history alone.

- `Visit.deferred?_eq_some_iff`: which lines defer a change, and which change.
- `Visit.result_of_defers`: such a line writes nothing.
- `deferred_of_history`: the changes that wait, at every visit and at the end.
- `output_convert`: what is written for a dump.
- `deferred_changes_come_last`: where the changes are written.
-/

namespace DumpDialect

section

variable [Quoting] {cfg : Config}

/-- The line belongs to an ALTER TABLE statement and makes a sequence the default of a column, of a
table that is not left out; `d` is the change of that column. -/
structure Visit.Defers (cfg : Config) (v : Visit) (d : DeferredChange) : Prop where
  kind : v.kind? cfg = some (.statement .alterTable)
  noOwner : AlterTable.ownerChange.occursIn v.line = false
  column : ∃ m, AlterTable.sequenceDefault.find (AlterTable.written v.line) = some m ∧
    d = ⟨m.group 1, m.group 2⟩
  kept : d.table ∉ cfg.skipTables

/-- The lines that defer a change, and the change that each defers. -/
theorem Visit.deferred?_eq_some_iff {v : Visit} {d : DeferredChange} :
    v.deferred? cfg = some d ↔ v.Defers cfg d := by
  rw [deferred?]
  split
  · next hkind =>
    rw [Config.deferral?_eq_some_iff]
    exact ⟨fun ⟨ho, hc, hk⟩ => ⟨hkind, ho, hc, hk⟩, fun h => ⟨h.noOwner, h.column, h.kept⟩⟩
  · next hkind => exact ⟨fun h => (nomatch h), fun h => absurd h.kind hkind⟩

/-- A line that defers a change writes nothing. -/
theorem Visit.result_of_defers {v : Visit} {d : DeferredChange} (h : v.Defers cfg d) :
    (v.step cfg).result = .ok [] := by
  have hdeferral : cfg.deferral? v.line = some d :=
    Config.deferral?_eq_some_iff.mpr ⟨h.noOwner, h.column, h.kept⟩
  have hsup : (v.treatment cfg .alterTable).suppressed = true := by
    rw [treatment, Treatment.ofStatement, Treatment.ofAlterTable_eq, if_neg (by simp [h.noOwner])]
    simp [hdeferral]
  have hpre : (v.treatment cfg .alterTable).preamble = [] := by
    simp [treatment, Treatment.preamble_ofStatement]
  rw [step_of_statement h.kind, Treatment.output, hsup, hpre]
  rfl

/-- The changes that the lines of a history defer, in their order. -/
def deferredIn (cfg : Config) (history : List Visit) : List DeferredChange :=
  history.filterMap (Visit.deferred? cfg)

@[simp] theorem deferredIn_append (past more : List Visit) :
    deferredIn cfg (past ++ more) = deferredIn cfg past ++ deferredIn cfg more := by
  simp [deferredIn]

@[simp] theorem deferredIn_singleton (v : Visit) :
    deferredIn cfg [v] = (v.deferred? cfg).toList := by
  unfold deferredIn
  cases h : v.deferred? cfg <;> simp [h]

/-- The changes that wait, at every visit of a run and at its end. -/
theorem deferred_of_history (cfg : Config) (lines : List (Text × Text)) :
    (∀ past v future, visits cfg {} lines = past ++ v :: future →
        v.before.deferred = deferredIn cfg past) ∧
      (stateAfter {} (run cfg {} lines)).deferred = deferredIn cfg (visits cfg {} lines) := by
  let Waiting (history : List Visit) (st : State) : Prop := st.deferred = deferredIn cfg history
  have hstep : ∀ past v, Waiting past v.before → Waiting (past ++ [v]) (v.step cfg).state := by
    intro past v hbefore
    show (v.step cfg).state.deferred = deferredIn cfg (past ++ [v])
    rw [v.deferred_step, hbefore, deferredIn_append, deferredIn_singleton]
  exact history_invariant hstep rfl lines

/-! ## Whole dumps -/

theorem error?_convert (cfg : Config) (lines : List Text) :
    (convert cfg lines).error? = errorOf (run cfg {} (withLookahead lines)) := by
  cases herror : errorOf (run cfg {} (withLookahead lines)) <;> simp [convert, herror]

/-- What is written for a dump: the banner, what its lines write, and the changes that wait, unless
a line failed. -/
theorem output_convert (cfg : Config) (lines : List Text) :
    (convert cfg lines).output =
      banner ++ (visits cfg {} (withLookahead lines)).flatMap (fun v => (v.step cfg).output) ++
        if (convert cfg lines).error? = none then
          (deferredIn cfg (visits cfg {} (withLookahead lines))).map DeferredChange.statement
        else [] := by
  have hwritten : (visits cfg {} (withLookahead lines)).flatMap (fun v => (v.step cfg).output) =
      (run cfg {} (withLookahead lines)).flatMap Step.output := by
    rw [← map_step_visits, List.flatMap_map]
  rw [hwritten, ← (deferred_of_history cfg (withLookahead lines)).2, error?_convert]
  cases herror : errorOf (run cfg {} (withLookahead lines)) with
  | none => simp [convert, herror]
  | some e => simp [convert, herror]

/-- **The changes that wait come last.** At every point of a run the changes that wait are those of
the lines so far that make a sequence the default of a column of a table that is kept, in the order
of the lines; such a line writes nothing, and no other line adds to them. What is written for a dump
is the banner, then what its lines write, in their order, and then, unless a line failed, the
statements of the changes that wait, each once; after a failure none of them is written. -/
theorem deferred_changes_come_last (cfg : Config) (lines : List Text) :
    let history := visits cfg {} (withLookahead lines)
    (∀ past v future, history = past ++ v :: future →
        v.before.deferred = deferredIn cfg past ∧
        (v.step cfg).state.deferred = deferredIn cfg past ++ (v.deferred? cfg).toList ∧
        (∀ d, v.deferred? cfg = some d ↔ v.Defers cfg d) ∧
        ∀ d, v.Defers cfg d → (v.step cfg).result = .ok []) ∧
      (convert cfg lines).state.deferred = deferredIn cfg history ∧
      ((convert cfg lines).error? = none ↔ ∀ v ∈ history, (v.step cfg).error? = none) ∧
      (convert cfg lines).output =
        banner ++ history.flatMap (fun v => (v.step cfg).output) ++
          if (convert cfg lines).error? = none then
            (deferredIn cfg history).map fun d =>
              "ALTER TABLE " ++ d.table ++ " MODIFY " ++ Identifier.quote d.column ++
                " integer auto_increment;"
          else [] := by
  intro history
  obtain ⟨hpast, hend⟩ := deferred_of_history cfg (withLookahead lines)
  refine ⟨fun past v future hv => ?_, ?_, ?_, output_convert cfg lines⟩
  · have hbefore := hpast past v future hv
    refine ⟨hbefore, ?_, fun d => Visit.deferred?_eq_some_iff, fun d => Visit.result_of_defers⟩
    rw [v.deferred_step, hbefore]
  · -- `convert` takes its state from the run, whether it failed or not.
    rw [← hend]
    cases herror : errorOf (run cfg {} (withLookahead lines)) <;> simp [convert, herror]
  · rw [error?_convert, errorOf_run_eq_none_iff]

end

/-- The default of a sequence and a row: the change comes behind the row, or not at all if a line
after them fails. -/
theorem change_behind_row :
    let cfg : Config := ⟨["a.u"], false, false⟩
    let default : Text := "ALTER TABLE ONLY a.t ALTER COLUMN id SET DEFAULT nextval('a.s');"
    let row : Text := "INSERT INTO a.t VALUES (1);"
    let v : Visit := ⟨{}, default, row⟩
    v.Defers cfg ⟨"a.t", "id"⟩ ∧ (v.step cfg).result = .ok [] ∧
      (convert cfg [default, row]).output =
        (["--", "-- Generated by pg2mysql", "--", "set foreign_key_checks = off;",
          "INSERT INTO a.t VALUES (1);",
          "ALTER TABLE a.t MODIFY `id` integer auto_increment;"] : List Text) ∧
      (convert cfg [default, row, "pg_catalog.setval"]).output =
        (["--", "-- Generated by pg2mysql", "--", "set foreign_key_checks = off;",
          "INSERT INTO a.t VALUES (1);"] : List Text) := by
  intro cfg default row v
  have hfine := deferred_changes_come_last cfg [default, row]
  have hfails := deferred_changes_come_last cfg [default, row, "pg_catalog.setval"]
  have hvisit : visits cfg {} (withLookahead [default, row]) =
      [] ++ v :: [⟨(v.step cfg).state, row, []⟩] := by decide +kernel
  obtain ⟨-, -, hdefers, hresult⟩ := hfine.1 _ _ _ hvisit
  have hv : v.Defers cfg ⟨"a.t", "id"⟩ := (hdefers _).mp (by decide +kernel)
  refine ⟨hv, hresult _ hv, ?_, ?_⟩
  · rw [hfine.2.2.2]
    decide +kernel
  · rw [hfails.2.2.2]
    decide +kernel

end DumpDialect
