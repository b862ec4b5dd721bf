import DumpDialect.Proofs.Conversion.Deferral
import DumpDialect.Quoting

/-!
# Which lines are withheld

Whether the lines of a statement are withheld is decided by the line that names its table, and kept
in a single flag. `Verdict` ties the flag to the history: the last line that opened a statement of
the kind decides, until the value of a sequence is set.

- `Verdict.of_line`, `verdict_of_history`: the flag in CREATE TABLE and INSERT statements.
- `suppressed_step_of_continues`, `run_suppressed`: a line of an ALTER TABLE statement that names
  no table keeps the flag set.
- `kept_of_mem_deferred`, `kept_of_mem_output`: deferred changes and sequence values are those of
  tables that are not left out.
- `exclusion_over_runs`: all of this, for every run.
-/

namespace DumpDialect

variable {cfg : Config}

/-- The last line of the history that opens a statement of the kind names a table, and the flag says
whether the table is left out, unless the value of a sequence was set after that line. -/
def Verdict (cfg : Config) (kind : Statement) (history : List Visit) (withheld : Bool) : Prop :=
  ∃ past v since table, history = past ++ v :: since ∧ v.opened? cfg kind = some table ∧
    (∀ u ∈ since, u.opened? cfg kind = none) ∧
    ((∀ u ∈ since, u.kind? cfg ≠ some .sequenceValue) →
      (withheld = true ↔ table ∈ cfg.skipTables))

namespace Verdict

variable {kind : Statement} {past : List Visit} {v : Visit} {withheld : Bool}

theorem of_opening {table : Text} (h : v.opened? cfg kind = some table) :
    Verdict cfg kind (past ++ [v]) (cfg.skips table) :=
  ⟨past, v, [], table, rfl, h, by simp, fun _ => Config.skips_iff⟩

/-- A line that opens no statement leaves the verdict as it is, unless it sets a sequence value. -/
theorem append (h : Verdict cfg kind past withheld) (hv : v.opened? cfg kind = none)
    {after : Bool} (hafter : after = withheld ∨ v.kind? cfg = some .sequenceValue) :
    Verdict cfg kind (past ++ [v]) after := by
  obtain ⟨before, u, since, table, rfl, hu, hsince, hflag⟩ := h
  refine ⟨before, u, since ++ [v], table, by simp, hu, ?_, fun hno => ?_⟩
  · intro w hw
    rcases List.mem_append.mp hw with hw | hw
    · exact hsince w hw
    · rw [List.mem_singleton.mp hw]
      exact hv
  · rcases hafter with rfl | hseq
    · exact hflag fun w hw => hno w (List.mem_append_left _ hw)
    · exact absurd hseq (hno v (by simp))

end Verdict

/-- The two kinds of statements whose verdict stands from the first line to the last. -/
def Statement.decidesOnce (kind : Statement) : Prop := kind = .createTable ∨ kind = .insert

section

variable [Quoting]

theorem Visit.suppressed_treatment {kind : Statement} (hkind : kind.decidesOnce) (v : Visit) :
    (v.treatment cfg kind).suppressed =
      cfg.withholds v.before.suppressed (kind.table? v.line) := by
  rcases hkind with rfl | rfl <;> rfl

/-- The verdict in front of a line: it stands while the statement is open. -/
def VerdictKept (cfg : Config) (kind : Statement) (history : List Visit) (st : State) : Prop :=
  st.context = some kind → Verdict cfg kind history st.suppressed

/-- After a line of a statement the verdict is that of the last line that opened one. -/
theorem Verdict.of_line {kind : Statement} (hkind : kind.decidesOnce) {past : List Visit}
    {v : Visit} (h : VerdictKept cfg kind past v.before)
    (hv : v.kind? cfg = some (.statement kind)) :
    Verdict cfg kind (past ++ [v]) (v.step cfg).state.suppressed := by
  have hopened : v.opened? cfg kind = kind.table? v.line := by rw [Visit.opened?, if_pos hv]
  rw [Visit.step_of_statement hv, State.suppressed_afterStatement, v.suppressed_treatment hkind]
  cases ht : kind.table? v.line with
  | some table => exact .of_opening (hopened.trans ht)
  | none =>
    have hopen : v.before.context = some kind := by
      rcases LineKind.of_eq_statement (Visit.kind?_eq_some hv) with hctx | hopens
      · exact hctx
      · rw [Statement.table?_eq_none_iff.mp ht] at hopens
        cases hopens
    exact (h hopen).append (hopened.trans ht) (.inl rfl)

theorem VerdictKept.step {kind : Statement} (hkind : kind.decidesOnce) {past : List Visit}
    {v : Visit} (h : VerdictKept cfg kind past v.before) :
    VerdictKept cfg kind (past ++ [v]) (v.step cfg).state := by
  intro hctx
  have hcontext := v.context_step cfg
  rw [hctx] at hcontext
  rcases hk : v.kind? cfg with _ | (_ | _ | other | _) <;> simp only [hk] at hcontext
  · refine (h hcontext.symm).append (by simp [Visit.opened?, hk]) (.inl ?_)
    simp [Visit.step_of_forbidden hk, State.advanced]
  · exact (h hcontext.symm).append (by simp [Visit.opened?, hk]) (.inr hk)
  · exact absurd hk (Visit.kind?_of_open hcontext.symm).1
  · split at hcontext
    · cases hcontext
      exact .of_line hkind h hk
    · cases hcontext
  · exact absurd hk (Visit.kind?_of_open hcontext.symm).2

/-- The verdict at every visit of a run and at its end. -/
theorem verdict_of_history (cfg : Config) {kind : Statement} (hkind : kind.decidesOnce)
    (lines : List (Text × Text)) :
    (∀ past v future, visits cfg {} lines = past ++ v :: future →
        VerdictKept cfg kind past v.before) ∧
      VerdictKept cfg kind (visits cfg {} lines) (stateAfter {} (run cfg {} lines)) :=
  history_invariant (fun _ _ h => h.step hkind) (fun h => by cases h) lines

/-! ## ALTER TABLE -/

/-- The line belongs to an ALTER TABLE statement that is open, and names no table anew. -/
def Visit.ContinuesAlteration (cfg : Config) (v : Visit) : Prop :=
  v.before.context = some .alterTable ∧
    ∀ kind, v.kind? cfg = some kind →
      kind = .statement .alterTable ∧ AlterTable.table? v.line = none

theorem Treatment.suppressed_ofAlterTable {st : State} (hst : st.suppressed = true) {line : Text}
    (hline : AlterTable.table? line = none) (next : Text) :
    (ofAlterTable cfg st line next).suppressed = true := by
  rw [ofAlterTable_eq]
  split
  · rfl
  · simp [hline, Config.withholds, hst]

theorem Visit.suppressed_step_of_continues {v : Visit} (hv : v.ContinuesAlteration cfg)
    (hst : v.before.suppressed = true) :
    (v.step cfg).state.suppressed = true ∧ (v.step cfg).output = [] := by
  cases hk : v.kind? cfg with
  | none =>
    rw [step_of_forbidden hk]
    exact ⟨hst, rfl⟩
  | some kind =>
    obtain ⟨rfl, htable⟩ := hv.2 kind hk
    have hsup : (v.treatment cfg .alterTable).suppressed = true :=
      Treatment.suppressed_ofAlterTable hst htable v.next
    have hpre : (v.treatment cfg .alterTable).preamble = [] := by
      simp [treatment, Treatment.preamble_ofStatement]
    rw [step_of_statement hk]
    exact ⟨hsup, by simp [Step.output, Treatment.output, hsup, hpre]⟩

/-- An ALTER TABLE statement that is withheld stays so while its lines name no table. -/
theorem run_suppressed {st : State} (hst : st.suppressed = true) {lines : List (Text × Text)}
    (h : ∀ v ∈ visits cfg st lines, v.ContinuesAlteration cfg) :
    ∀ v ∈ visits cfg st lines, (v.step cfg).state.suppressed = true ∧ (v.step cfg).output = [] := by
  let Kept (past : List Visit) (st : State) : Prop :=
    (∀ v ∈ past, v.ContinuesAlteration cfg) → st.suppressed = true
  have hkept : ∀ past v, Kept past v.before → Kept (past ++ [v]) (v.step cfg).state := by
    intro past v hpast hall
    have hbefore := hpast fun u hu => hall u (List.mem_append_left _ hu)
    exact (Visit.suppressed_step_of_continues (hall v (by simp)) hbefore).1
  intro v hv
  obtain ⟨past, future, hsplit⟩ := List.append_of_mem hv
  have hbefore := (history_invariant hkept (fun _ => hst) lines).1 past v future hsplit
  refine Visit.suppressed_step_of_continues (h v hv) (hbefore fun u hu => h u ?_)
  rw [hsplit]
  exact List.mem_append_left _ hu

/-! ## Deferred changes and sequence values -/

/-- Every change that waits is one of a table that is not left out. -/
theorem kept_of_mem_deferred (lines : List (Text × Text)) :
    ∀ d ∈ (stateAfter {} (run cfg {} lines)).deferred, d.table ∉ cfg.skipTables := by
  intro d hd
  rw [(deferred_of_history cfg lines).2, deferredIn, List.mem_filterMap] at hd
  obtain ⟨v, -, hv⟩ := hd
  exact (Visit.deferred?_eq_some_iff.mp hv).kept

/-- The statement of a deferred change begins with the table that it changes. -/
theorem table_prefix_statement (d : DeferredChange) :
    ("ALTER TABLE " ++ d.table ++ " MODIFY " : Text) <+: d.statement := by
  simp [DeferredChange.statement]

/-- A sequence value is written for tables only that are not left out. -/
theorem kept_of_mem_output {v : Visit} (hv : v.kind? cfg = some .sequenceValue) {line : Text}
    (h : line ∈ (v.step cfg).output) :
    ∃ table value, SequenceValue.read? v.line = some (table, value) ∧
      line = SequenceValue.written table value ∧ table ∉ cfg.skipTables := by
  simp only [Step.output, Visit.result_step, hv] at h
  cases hread : SequenceValue.read? v.line with
  | none => simp [hread] at h
  | some read =>
    obtain ⟨table, value⟩ := read
    simp only [hread] at h
    refine ⟨table, value, rfl, ?_⟩
    split at h
    · cases h
    · next hskip => exact ⟨List.mem_singleton.mp h, mt Config.skips_iff.mpr hskip⟩

/-! ## Whole runs -/

/-- **Exclusion over whole runs.**

- While a CREATE TABLE or INSERT statement is open the flag is the verdict on the table that its
  last opening line named, and each of its lines is written or withheld by that verdict.
- An ALTER TABLE statement that is withheld stays so until it closes or gives way to another one,
  unless a sequence value is set or a line names a table anew.
- The changes that wait and the sequence values that are written are those of tables that are not
  left out. -/
theorem exclusion_over_runs (cfg : Config) (lines : List (Text × Text)) :
    (∀ kind, kind = .createTable ∨ kind = .insert →
      ((stateAfter {} (run cfg {} lines)).context = some kind →
        Verdict cfg kind (visits cfg {} lines) (stateAfter {} (run cfg {} lines)).suppressed) ∧
      ∀ past v future, visits cfg {} lines = past ++ v :: future →
        v.kind? cfg = some (.statement kind) →
        ∃ withheld, Verdict cfg kind (past ++ [v]) withheld ∧
          (v.step cfg).output =
            ((v.declared? cfg).toList.flatMap fun s =>
              (["DROP DATABASE IF EXISTS " ++ s ++ ";", "CREATE DATABASE " ++ s ++ ";"] :
                List Text)) ++
            if withheld then [] else [(v.treatment cfg kind).line]) ∧
    (∀ st more, st.suppressed = true → (∀ v ∈ visits cfg st more, v.ContinuesAlteration cfg) →
      ∀ v ∈ visits cfg st more, (v.step cfg).state.suppressed = true ∧ (v.step cfg).output = []) ∧
    (∀ d ∈ (stateAfter {} (run cfg {} lines)).deferred,
      ("ALTER TABLE " ++ d.table ++ " MODIFY " : Text) <+: d.statement ∧
        d.table ∉ cfg.skipTables) ∧
    ∀ v ∈ visits cfg {} lines, v.kind? cfg = some .sequenceValue → ∀ line ∈ (v.step cfg).output,
      ∃ table value, SequenceValue.read? v.line = some (table, value) ∧
        line = "ALTER TABLE " ++ table ++ " AUTO_INCREMENT = " ++ value ++ ";" ∧
        table ∉ cfg.skipTables := by
  refine ⟨fun kind hkind => ?_, fun st more hst h => run_suppressed hst h,
    fun d hd => ⟨table_prefix_statement d, kept_of_mem_deferred lines d hd⟩,
    fun v _ hv line hline => kept_of_mem_output hv hline⟩
  -- The verdict is an invariant of the history; a line inside the run is the end of a shorter one.
  obtain ⟨hpast, hend⟩ := verdict_of_history cfg hkind lines
  refine ⟨hend, fun past v future hsplit hk => ?_⟩
  refine ⟨_, .of_line hkind (hpast past v future hsplit) hk, ?_⟩
  simp only [Visit.step_of_statement hk, Step.output, Treatment.output, Visit.declared?, hk,
    Visit.treatment, Treatment.preamble_ofStatement, Option.some.injEq, LineKind.statement.injEq,
    State.suppressed_afterStatement]
  congr 1
  split <;> rfl

end

/-- A row of a table that is left out, with a line break and the end of a statement inside a value,
a key that the table gets later, and the values of two sequences, of which the second is one of that
table. -/
theorem row_key_and_value_withheld :
    let cfg : Config := ⟨["a.t"], false, false⟩
    let row : List (Text × Text) := [("INSERT INTO a.t VALUES ('x);", "y');")]
    let altered := stateAfter {} (run cfg {} [("ALTER TABLE ONLY a.t", "")])
    let key : Visit := ⟨altered, "    ADD CONSTRAINT k UNIQUE (x);", ""⟩
    let values : List (Text × Text) :=
      [("SELECT pg_catalog.setval('a.u_id_seq', 5, true);", ""),
        ("SELECT pg_catalog.setval('a.t_id_seq', 7, true);", "")]
    (stateAfter {} (run cfg {} row)).context = some .insert ∧
      Verdict cfg .insert (visits cfg {} row) (stateAfter {} (run cfg {} row)).suppressed ∧
      visits cfg altered [(key.line, key.next)] = [key] ∧ (key.step cfg).output = [] ∧
      (visits cfg {} values).map (fun v => (v.step cfg).output) =
        ([["ALTER TABLE a.u AUTO_INCREMENT = 5;"], []] : List (List Text)) ∧
      ∀ v ∈ visits cfg {} values, ∀ line ∈ (v.step cfg).output,
        ∃ table value, SequenceValue.read? v.line = some (table, value) ∧
          line = "ALTER TABLE " ++ table ++ " AUTO_INCREMENT = " ++ value ++ ";" ∧
          table ∉ cfg.skipTables := by
  intro cfg row altered key values
  obtain ⟨hverdict, hkept, -, -⟩ := exclusion_over_runs cfg row
  have hopen : (stateAfter {} (run cfg {} row)).context = some .insert := by decide +kernel
  have hst : altered.suppressed = true := by decide +kernel
  have hvisits : visits cfg altered [(key.line, key.next)] = [key] := by decide +kernel
  have hk : key.kind? cfg = some (.statement .alterTable) := by decide +kernel
  have hkey : key.ContinuesAlteration cfg :=
    ⟨by decide +kernel, fun _ h => ⟨Option.some.inj (h.symm.trans hk), by decide +kernel⟩⟩
  have hvalues : ∀ v ∈ visits cfg {} values, v.kind? cfg = some .sequenceValue := by decide +kernel
  refine ⟨hopen, (hverdict .insert (.inr rfl)).1 hopen, hvisits, ?_, by decide +kernel, ?_⟩
  · refine (hkept altered [(key.line, key.next)] hst (fun v hv => ?_) key (by simp [hvisits])).2
    rw [hvisits, List.mem_singleton] at hv
    exact hv ▸ hkey
  · intro v hv
    exact (exclusion_over_runs cfg values).2.2.2 v hv (hvalues v hv)

end DumpDialect
