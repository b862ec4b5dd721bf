import DumpDialect.Proofs.Conversion.Independence
import DumpDialect.Proofs.Conversion.Openings
import DumpDialect.Quoting

/-!
# What is left out is told

A line that is not written is missing from the database that the dump is loaded into, and the
warnings are the only sign of it. Each line that is left out is told of by itself, or it belongs to
a statement that was withheld before, and then a line of that statement was told of.

- `Visit.reports_of_withheld`: a line of a statement that is withheld.
- `Visit.reports_of_writesNoLine`: any line of which nothing is written.
- `Visit.reports_of_suppressed`: how lines come to be withheld.
- `nothing_lost_in_silence`: every step of a run, and the statement that is open after it.
-/

namespace DumpDialect

section

variable [Quoting] {cfg : Config}

/-! ## Definitions -/

/-- The step warns, or it adds a change to those that wait. -/
def Visit.Reports (cfg : Config) (v : Visit) : Prop :=
  (∃ e ∈ (v.step cfg).events, e.message.level = .warning) ∨
    ∃ d, (v.step cfg).state.deferred = v.before.deferred ++ [d]

/-- The step writes no line of its own: the declaration of a database at most. -/
def Visit.WritesNoLine (cfg : Config) (v : Visit) : Prop :=
  (v.step cfg).output = (v.declared? cfg).toList.flatMap databaseDeclaration

/-- A statement is open, and its lines are withheld. -/
def State.Withholding (st : State) : Prop := st.context ≠ none ∧ st.suppressed = true

/-- If a statement is open, one of the visits opened it and those since then went on with it; and if
its lines are withheld, one of these reported that. -/
def ReportedSinceEntry (cfg : Config) (history : List Visit) (st : State) : Prop :=
  st.context ≠ none → ∃ past entry since, history = past ++ entry :: since ∧
    entry.before.context ≠ st.context ∧ (∀ u ∈ since, u.before.context = st.context) ∧
    (st.suppressed = true → ∃ u ∈ entry :: since, u.Reports cfg)

/-! ## One line -/

namespace Visit

variable {v : Visit} {kind : Statement}

theorem reports_of_mem (hk : v.kind? cfg = some (.statement kind)) {e : Event}
    (he : e ∈ (v.treatment cfg kind).events) (hlevel : e.message.level = .warning) :
    v.Reports cfg := by
  refine .inl ⟨e, ?_, hlevel⟩
  rw [step_of_statement hk]
  exact List.mem_cons_of_mem _ he

theorem reports_of_deferred? {d : DeferredChange} (h : v.deferred? cfg = some d) :
    v.Reports cfg :=
  .inr ⟨d, by rw [deferred_step, h, Option.toList_some]⟩

/-- The verdict on a table is told of, or the lines were withheld before. -/
theorem reports_or_inherits {table? : Option Text} {before : Bool}
    (hk : v.kind? cfg = some (.statement kind))
    (hevents : ∀ e ∈ table?.toList.flatMap cfg.skipEvents, e ∈ (v.treatment cfg kind).events)
    (h : cfg.withholds before table? = true) :
    v.Reports cfg ∨ table? = none ∧ before = true := by
  cases table? with
  | none => exact .inr ⟨rfl, h⟩
  | some table =>
    have hskip : cfg.skips table = true := h
    have hevent := hevents (.tableSkipped table) (by simp [Config.skipEvents, hskip])
    exact .inl (reports_of_mem hk hevent rfl)

/-- A line of a statement that is withheld reports that, or the statement was open before and
withheld already. -/
theorem reports_of_withheld (hk : v.kind? cfg = some (.statement kind))
    (hblock : v.before.context = some .block → v.before.suppressed = true)
    (hkeeps : AlterTable.KeepsHeader v.line) (h : (v.treatment cfg kind).suppressed = true) :
    v.Reports cfg ∨ v.before.context = some kind ∧ v.before.suppressed = true := by
  cases kind with
  | createTable =>
    have hevents : ∀ e ∈ (Statement.createTable.table? v.line).toList.flatMap cfg.skipEvents,
        e ∈ (v.treatment cfg .createTable).events := fun e he => List.mem_append_right _ he
    exact (reports_or_inherits hk hevents h).imp_right (And.imp_left (open_of_table?_eq_none hk))
  | alterTable =>
    have htreatment : v.treatment cfg .alterTable =
      Treatment.ofAlterTable cfg v.before.advanced v.line v.next := rfl
    rw [Treatment.ofAlterTable_eq] at htreatment
    split at htreatment
    · next howner =>
      refine .inl (reports_of_mem hk (e := .ownerChangeDropped v.line) ?_ rfl)
      rw [htreatment]
      exact List.mem_singleton_self _
    · rw [htreatment, Bool.or_eq_true, Bool.or_eq_true] at h
      -- Of the three reasons to withhold the line two are events of it; the third it may have
      -- inherited.
      rcases h with (hdeferral | htarget) | hwithholds
      · obtain ⟨d, hd⟩ := Option.isSome_iff_exists.mp hdeferral
        exact .inl (reports_of_deferred? (d := d) (by rw [deferred?, if_pos hk, hd]))
      · obtain ⟨target, ht⟩ := Option.isSome_iff_exists.mp htarget
        refine .inl (reports_of_mem hk (e := .foreignKeySkipped target) ?_ rfl)
        rw [htreatment]
        simp [ht]
      · have hevents : ∀ e ∈ (AlterTable.table? v.line).toList.flatMap cfg.skipEvents,
            e ∈ (v.treatment cfg .alterTable).events := fun e he => by
          rw [htreatment]
          exact List.mem_append_left _ (List.mem_append_left _ he)
        refine (reports_or_inherits hk hevents hwithholds).imp_right (And.imp_left fun hnone => ?_)
        -- A line that opens the statement names its table, also when it is rewritten.
        have hopens : AlterTable.header.opens v.line = false := by
          refine Bool.eq_false_iff.mpr fun hopens => ?_
          exact Bool.eq_false_iff.mp (Statement.table?_eq_none_iff.mp hnone) (hkeeps hopens)
        exact open_of_table?_eq_none hk (Statement.table?_eq_none_iff.mpr hopens)
  | insert =>
    have hevents : ∀ e ∈ (Statement.insert.table? v.line).toList.flatMap cfg.skipEvents,
        e ∈ (v.treatment cfg .insert).events := fun e he => List.mem_append_left _ he
    exact (reports_or_inherits hk hevents h).imp_right (And.imp_left (open_of_table?_eq_none hk))
  | block =>
    -- Only the line that opens a block warns.
    by_cases hopen : v.before.context = some .block
    · exact .inr ⟨hopen, hblock hopen⟩
    · refine .inl (reports_of_mem hk (e := .blockSkipped v.before.advanced.lineNumber) ?_ rfl)
      have hadvanced : v.before.advanced.context ≠ some .block := hopen
      simp [treatment, Treatment.ofStatement, Treatment.ofBlock, hadvanced]

theorem reports_of_skippedValue (hk : v.kind? cfg = some .sequenceValue) {table value : Text}
    (hread : SequenceValue.read? v.line = some (table, value)) (hskip : cfg.skips table = true) :
    v.Reports cfg := by
  refine .inl ⟨.sequenceValueSkipped table, ?_, rfl⟩
  simp [step_of_sequenceValue hk, Treatment.ofSequenceValue, hread, hskip]

theorem reports_of_skippedIndex (hk : v.kind? cfg = some .createIndex)
    (h : (Treatment.ofCreateIndex cfg v.line).suppressed = true) : v.Reports cfg := by
  cases hm : (CreateIndex.target.find (applyRules CreateIndex.rules v.line)).filter
    fun m => cfg.skips (m.group 3) with
  | none => simp [Treatment.ofCreateIndex, hm] at h
  | some m =>
    refine .inl ⟨.indexSkipped (m.group 2) (m.group 3), ?_, rfl⟩
    simp [step_of_createIndex hk, Treatment.ofCreateIndex, hm]

theorem reports_of_unrecognized (hk : v.kind? cfg = some .unrecognized) : v.Reports cfg := by
  refine .inl ⟨.lineUnrecognized (v.before.lineNumber + 1) v.line, ?_, rfl⟩
  simp [step_of_unrecognized hk]

/-- A line of which nothing is written reports that, unless its statement was withheld before. -/
theorem reports_of_writesNoLine
    (hblock : v.before.context = some .block → v.before.suppressed = true)
    (hkeeps : AlterTable.KeepsHeader v.line) (hfine : (v.step cfg).error? = none)
    (h : v.WritesNoLine cfg) : v.Reports cfg ∨ v.before.Withholding := by
  have hresult := v.result_step cfg
  rw [WritesNoLine] at h
  rcases hk : v.kind? cfg with _ | (_ | _ | kind | _) <;> simp only [hk] at hresult
  · simp [Step.error?, hresult] at hfine
  · cases hread : SequenceValue.read? v.line with
    | none => simp [Step.error?, hresult, hread] at hfine
    | some read =>
      obtain ⟨table, value⟩ := read
      cases hskip : cfg.skips table with
      | true => exact .inl (reports_of_skippedValue hk hread hskip)
      | false => simp [Step.output, hresult, hread, hskip, declared?, hk] at h
  · refine .inl (reports_of_skippedIndex hk ?_)
    simpa [Step.output, hresult, declared?, hk, Treatment.output, Treatment.preamble_ofCreateIndex]
      using h
  · have hpreamble := preamble_treatment hk
    have hsup : (v.treatment cfg kind).suppressed = true := by
      cases hsup : (v.treatment cfg kind).suppressed with
      | true => rfl
      | false => simp [Step.output, hresult, Treatment.output, hpreamble, hsup] at h
    have hopen : v.before.context = some kind → v.before.context ≠ none := fun h => by simp [h]
    exact (reports_of_withheld hk hblock hkeeps hsup).imp_right (And.imp_left hopen)
  · exact .inl (reports_of_unrecognized hk)

/-- Where lines of an open statement are withheld after a line, the line reports that, or they were
withheld before it. -/
theorem reports_of_suppressed
    (hblock : v.before.context = some .block → v.before.suppressed = true)
    (hkeeps : AlterTable.KeepsHeader v.line) (hopen : (v.step cfg).state.context ≠ none)
    (h : (v.step cfg).state.suppressed = true) :
    v.Reports cfg ∨
      v.before.context = (v.step cfg).state.context ∧ v.before.suppressed = true := by
  rw [context_step] at hopen ⊢
  rw [suppressed_step] at h
  rcases hk : v.kind? cfg with _ | (_ | _ | kind | _) <;> simp only [hk, true_and] at h hopen ⊢
  · exact .inr h
  · cases hread : SequenceValue.read? v.line with
    | none => exact .inr (by simpa only [hread] using h)
    | some read => exact .inl (reports_of_skippedValue hk hread (by simpa only [hread] using h))
  · exact .inl (reports_of_skippedIndex hk h)
  · refine (reports_of_withheld hk hblock hkeeps h).imp_right fun ⟨hbefore, hsup⟩ => ?_
    split at hopen
    · next hstill =>
      rw [if_pos hstill]
      exact ⟨hbefore, hsup⟩
    · exact absurd rfl hopen
  · exact .inr h

/-- All lines of a block are withheld. -/
theorem suppressed_of_block (cfg : Config)
    (hblock : v.before.context = some .block → v.before.suppressed = true)
    (h : (v.step cfg).state.context = some .block) : (v.step cfg).state.suppressed = true := by
  rw [context_step] at h
  rw [suppressed_step]
  rcases hk : v.kind? cfg with _ | (_ | _ | kind | _) <;> simp only [hk] at h ⊢
  · exact hblock h
  · exact absurd h (LineKind.of_eq_sequenceValue_iff.mp (kind?_eq_some hk)).1
  · exact absurd hk (kind?_of_open h).1
  · split at h
    · obtain rfl := Option.some.inj h
      rfl
    · cases h
  · exact hblock h

end Visit

/-! ## Runs -/

/-- What ties the history of a run to its state: a block withholds its lines, and what is withheld
was reported. -/
structure Told (cfg : Config) (history : List Visit) (st : State) : Prop where
  block : st.context = some .block → st.suppressed = true
  entry : ReportedSinceEntry cfg history st

/-- A step keeps it. The statement that is open after a line was opened by that line, or it was open
before; in the second case the visits since then are those of before and this one. -/
theorem Told.step {past : List Visit} {v : Visit} (h : Told cfg past v.before)
    (hkeeps : AlterTable.KeepsHeader v.line) : Told cfg (past ++ [v]) (v.step cfg).state where
  block := v.suppressed_of_block cfg h.block
  entry hopen := by
    have hreports := v.reports_of_suppressed h.block hkeeps hopen
    by_cases hcontext : v.before.context = (v.step cfg).state.context
    · obtain ⟨earlier, entry, since, rfl, hentry, hsince, hreported⟩ := h.entry (hcontext ▸ hopen)
      refine ⟨earlier, entry, since ++ [v], by simp, hcontext ▸ hentry, ?_, fun hsup => ?_⟩
      · rw [List.forall_mem_append, List.forall_mem_singleton]
        exact ⟨hcontext ▸ hsince, hcontext⟩
      · rcases hreports hsup with hv | ⟨-, hbefore⟩
        · exact ⟨v, by simp, hv⟩
        · obtain ⟨u, hu, hreport⟩ := hreported hbefore
          exact ⟨u, List.mem_append_left [v] hu, hreport⟩
    · refine ⟨past, v, [], rfl, hcontext, by simp, fun hsup => ⟨v, by simp, ?_⟩⟩
      exact (hreports hsup).resolve_right fun ⟨heq, _⟩ => hcontext heq

/-- **Nothing is lost in silence.** Take a run over lines of which each that starts an ALTER TABLE
statement still does so when the clauses that MySQL lacks are dropped. A step that does not fail and
writes no line of its own warns, or it defers a change, or a statement was open and withheld before
it. And where a statement is open and withheld, at a visit or at the end of the run, the visit that
opened it or one since then warned or deferred a change. -/
theorem nothing_lost_in_silence (cfg : Config) {lines : List (Text × Text)}
    (h : ∀ pair ∈ lines, AlterTable.KeepsHeader pair.1) :
    (∀ v ∈ visits cfg {} lines, (v.step cfg).error? = none → v.WritesNoLine cfg →
        v.Reports cfg ∨ v.before.Withholding) ∧
      (∀ past v future, visits cfg {} lines = past ++ v :: future →
        ReportedSinceEntry cfg past v.before) ∧
      ReportedSinceEntry cfg (visits cfg {} lines) (stateAfter {} (run cfg {} lines)) := by
  have hkeeps : ∀ v ∈ visits cfg {} lines, AlterTable.KeepsHeader v.line :=
    fun v hv => h _ (mem_of_mem_visits hv)
  -- Only lines visited are known to keep their headers, so the invariant asks it of the past alone.
  let Inv (past : List Visit) (st : State) : Prop :=
    (∀ v ∈ past, AlterTable.KeepsHeader v.line) → Told cfg past st
  have hstep : ∀ past v, Inv past v.before → Inv (past ++ [v]) (v.step cfg).state := by
    intro past v hbefore hall
    rw [List.forall_mem_append, List.forall_mem_singleton] at hall
    exact (hbefore hall.1).step hall.2
  have hstart : Inv [] {} := fun _ => ⟨fun hopen => (nomatch hopen), fun hopen => absurd rfl hopen⟩
  obtain ⟨hmid, hend⟩ := history_invariant hstep hstart lines
  have htold : ∀ past v future, visits cfg {} lines = past ++ v :: future →
      Told cfg past v.before := fun past v future hsplit =>
    hmid past v future hsplit fun u hu => hkeeps u (hsplit ▸ List.mem_append_left _ hu)
  refine ⟨fun v hv hfine hno => ?_, fun past v future hsplit => (htold past v future hsplit).entry,
    (hend hkeeps).entry⟩
  obtain ⟨past, future, hsplit⟩ := List.append_of_mem hv
  exact Visit.reports_of_writesNoLine (htold past v future hsplit).block (hkeeps v hv) hfine hno

end

/-- A row of a table that is left out, with a line break in a value: its first line warns, and its
second line, of which nothing is written either, stands in a statement that was withheld before. -/
theorem second_line_was_told_of :
    let cfg : Config := ⟨["a.t"], false, false⟩
    let lines : List (Text × Text) := [("INSERT INTO a.t VALUES ('x", "y');"), ("y');", "")]
    let first : Visit := ⟨{}, "INSERT INTO a.t VALUES ('x", "y');"⟩
    let second : Visit := ⟨(first.step cfg).state, "y');", ""⟩
    visits cfg {} lines = [first] ++ second :: [] ∧ (second.step cfg).output = [] ∧
      second.before.Withholding ∧ first.Reports cfg := by
  intro cfg lines first second
  have hkeeps : ∀ pair ∈ lines, AlterTable.KeepsHeader pair.1 := by decide +kernel
  have hvisits : visits cfg {} lines = [first] ++ second :: [] := by decide +kernel
  have hfirst : first ∈ visits cfg {} lines := by simp [hvisits]
  have hfine : (first.step cfg).error? = none := by decide +kernel
  have hno : first.WritesNoLine cfg := by
    show (first.step cfg).output = (first.declared? cfg).toList.flatMap databaseDeclaration
    decide +kernel
  have hopen : second.before.context = some .insert := by decide +kernel
  have hsup : second.before.suppressed = true := by decide +kernel
  obtain ⟨htold, -, -⟩ := nothing_lost_in_silence cfg hkeeps
  refine ⟨hvisits, by decide +kernel, ⟨by simp [hopen], hsup⟩, ?_⟩
  exact (htold first hfirst hfine hno).resolve_right fun ⟨hcontext, _⟩ => hcontext rfl

end DumpDialect
