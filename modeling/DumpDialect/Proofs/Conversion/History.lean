import DumpDialect.Conversion.Run
import DumpDialect.Proofs.Conversion.Effects
import Mathlib.Data.List.Forall2

/-!
# The history of a run

A `Visit` is what a step is given: the state in front of a line, the line, and the line after it.
`visits` lists the visits of a run, so that a statement about a run can speak of the lines that it
came to and of how each was taken, and not only of what came out.

- `Visit.step_of_*`: what a step does, for each way in which its line can be taken.
- `Visit.result_step` and its companions: the same for each thing that a step gives or changes.
- `map_step_visits`: the steps of a run are the steps of its visits.
- `run_append`: a run over lines with more lines after them.
- `history_invariant`: what ties the history of a run to its state holds at every visit and at the
  end, if it holds at first and every step keeps it.
- `isChain_visits`: the visits of a dump, one right after the other.
- `run_together`, `run_lockstep`: two runs over the same lines, step by step.
-/

namespace DumpDialect

/-- The state while the next line is handled: the line is counted already. -/
def State.advanced (st : State) : State := { st with lineNumber := st.lineNumber + 1 }

/-- What a step is given. -/
structure Visit where
  before : State
  line : Text
  next : Text
deriving DecidableEq

namespace Visit

variable [Quoting] (cfg : Config) (v : Visit)

/-- The step that the visit makes. -/
def step : Step := DumpDialect.step cfg v.before v.line v.next

/-- What the line is taken for; nothing if it may not stand in the dump. -/
def kind? : Option LineKind :=
  if cfg.strict && CreateTable.typeDeclaration.occursIn v.line then none
  else some (LineKind.of v.before.context v.line)

/-- What becomes of the line as a line of a statement of the kind. -/
def treatment (kind : Statement) : Treatment :=
  Treatment.ofStatement cfg v.before.advanced kind v.line v.next

/-- The table that the line names, if it is taken for the opening of a statement of the kind. -/
def opened? (kind : Statement) : Option Text :=
  if v.kind? cfg = some (.statement kind) then kind.table? v.line else none

end Visit

/-! ## What a line is taken for -/

namespace LineKind

/-- A line of a statement continues an open statement of the kind, or opens one. -/
theorem of_eq_statement {context : Option Statement} {line : Text} {kind : Statement}
    (h : of context line = .statement kind) :
    context = some kind ∨ kind.opening.opens line = true := by
  unfold of at h
  repeat' split at h
  all_goals cases h
  all_goals simp_all [Statement.opening]

/-- While a statement is open each line is a line of a statement or sets a sequence value. -/
theorem of_some (current : Statement) (line : Text) :
    of (some current) line = .sequenceValue ∨ ∃ kind, of (some current) line = .statement kind := by
  unfold of
  split
  · exact .inr ⟨.block, rfl⟩
  · next hblock =>
    split
    · exact .inl rfl
    · refine .inr ?_
      split
      · exact ⟨.createTable, rfl⟩
      · split
        · exact ⟨.alterTable, rfl⟩
        · exact ⟨.insert, by cases current <;> simp_all⟩

end LineKind

/-! ## Steps -/

theorem Step.error?_eq_some_iff {s : Step} {e : ConversionError} :
    s.error? = some e ↔ s.result = .error e := by
  rw [error?]
  cases s.result <;> simp

/-- A step that fails writes nothing. -/
theorem Step.output_of_error {s : Step} {e : ConversionError} (h : s.error? = some e) :
    s.output = [] := by
  rw [output, error?_eq_some_iff.mp h]

namespace Visit

section

variable {cfg : Config} {v : Visit}

theorem kind?_eq_some {kind : LineKind} (h : v.kind? cfg = some kind) :
    LineKind.of v.before.context v.line = kind := by
  unfold kind? at h
  split at h
  · cases h
  · exact Option.some.inj h

/-- Without the check for CREATE TYPE every line may stand in the dump. -/
theorem kind?_of_lenient (hstrict : cfg.strict = false) :
    v.kind? cfg = some (LineKind.of v.before.context v.line) := by
  rw [kind?, hstrict, Bool.false_and]
  rfl

/-- While a statement is open no line is an index or unrecognized. -/
theorem kind?_of_open {current : Statement} (h : v.before.context = some current) :
    v.kind? cfg ≠ some .createIndex ∧ v.kind? cfg ≠ some .unrecognized := by
  have hof := LineKind.of_some current v.line
  rw [← h] at hof
  refine ⟨fun hk => ?_, fun hk => ?_⟩
  · rw [kind?_eq_some hk] at hof
    simp at hof
  · rw [kind?_eq_some hk] at hof
    simp at hof

/-- A line that may stand in the dump is handled as what it is taken for. -/
private theorem step_of_allowed {kind : LineKind} (h : v.kind? cfg = some kind) :
    (cfg.strict && CreateTable.typeDeclaration.occursIn v.line) = false ∧
      LineKind.of v.before.advanced.context v.line = kind := by
  refine ⟨?_, kind?_eq_some h⟩
  unfold kind? at h
  split at h
  · cases h
  · next hs => exact Bool.eq_false_iff.mpr hs

end

variable [Quoting] {cfg : Config} {v : Visit}

theorem step_of_forbidden (h : v.kind? cfg = none) :
    v.step cfg = ⟨.error ⟨.typeDeclaration, v.before.lineNumber + 1⟩, v.before.advanced,
      [.lineRead (v.before.lineNumber + 1) v.line]⟩ := by
  unfold kind? at h
  split at h
  · next hs => simp only [step, DumpDialect.step, hs, ↓reduceIte, State.advanced]
  · cases h

theorem step_of_statement {kind : Statement} (h : v.kind? cfg = some (.statement kind)) :
    v.step cfg = ⟨.ok (v.treatment cfg kind).output,
      v.before.advanced.afterStatement kind (v.treatment cfg kind),
      .lineRead (v.before.lineNumber + 1) v.line :: (v.treatment cfg kind).events⟩ := by
  obtain ⟨hs, hk⟩ := step_of_allowed h
  simp only [State.advanced] at hk
  simp only [step, DumpDialect.step, hs, hk]
  rfl

theorem step_of_sequenceValue (h : v.kind? cfg = some .sequenceValue) :
    v.step cfg =
      match Treatment.ofSequenceValue cfg (v.before.advanced.count .sequenceValue) v.line with
      | .error e => ⟨.error e, v.before.advanced.count .sequenceValue,
          [.lineRead (v.before.lineNumber + 1) v.line]⟩
      | .ok t => ⟨.ok t.output, (v.before.advanced.count .sequenceValue).afterSingle t,
          .lineRead (v.before.lineNumber + 1) v.line :: t.events⟩ := by
  obtain ⟨hs, hk⟩ := step_of_allowed h
  simp only [State.advanced] at hk
  simp only [step, DumpDialect.step, hs, hk]
  rfl

theorem step_of_createIndex (h : v.kind? cfg = some .createIndex) :
    v.step cfg = ⟨.ok (Treatment.ofCreateIndex cfg v.line).output,
      (v.before.advanced.count .createIndex).afterSingle (Treatment.ofCreateIndex cfg v.line),
      .lineRead (v.before.lineNumber + 1) v.line ::
        (Treatment.ofCreateIndex cfg v.line).events⟩ := by
  obtain ⟨hs, hk⟩ := step_of_allowed h
  simp only [State.advanced] at hk
  simp only [step, DumpDialect.step, hs, hk]
  rfl

theorem step_of_unrecognized (h : v.kind? cfg = some .unrecognized) :
    v.step cfg = ⟨.ok [], v.before.advanced.count .unrecognized,
      [.lineRead (v.before.lineNumber + 1) v.line,
        .lineUnrecognized (v.before.lineNumber + 1) v.line]⟩ := by
  obtain ⟨hs, hk⟩ := step_of_allowed h
  simp only [State.advanced] at hk
  simp only [step, DumpDialect.step, hs, hk]
  rfl

variable (cfg v)

/-- Only a line of a statement opens or closes a statement. -/
theorem context_step :
    (v.step cfg).state.context =
      match v.kind? cfg with
      | some (.statement kind) => if (v.treatment cfg kind).stillOpen then some kind else none
      | _ => v.before.context := by
  rcases hk : v.kind? cfg with _ | (_ | _ | kind | _)
  · simp [step_of_forbidden hk, State.advanced]
  · rw [step_of_sequenceValue hk]
    split <;> simp [State.advanced]
  · simp [step_of_createIndex hk, State.advanced]
  · simp [step_of_statement hk]
  · simp [step_of_unrecognized hk, State.advanced]

/-- Every step counts its line, also one that fails. -/
theorem lineNumber_step : (v.step cfg).state.lineNumber = v.before.lineNumber + 1 := by
  rcases hk : v.kind? cfg with _ | (_ | _ | kind | _)
  · simp [step_of_forbidden hk, State.advanced]
  · rw [step_of_sequenceValue hk]
    split <;> simp [State.advanced]
  · simp [step_of_createIndex hk, State.advanced]
  · simp [step_of_statement hk, State.advanced]
  · simp [step_of_unrecognized hk, State.advanced]

/-- What a step gives: the lines that are written, or the error with the number of the line. -/
theorem result_step :
    (v.step cfg).result =
      match v.kind? cfg with
      | none => .error ⟨.typeDeclaration, v.before.lineNumber + 1⟩
      | some (.statement kind) => .ok (v.treatment cfg kind).output
      | some .sequenceValue =>
        match SequenceValue.read? v.line with
        | none => .error ⟨.sequenceValue v.line.trim, v.before.lineNumber + 1⟩
        | some (table, value) =>
          .ok (if cfg.skips table then [] else [SequenceValue.written table value])
      | some .createIndex => .ok (Treatment.ofCreateIndex cfg v.line).output
      | some .unrecognized => .ok [] := by
  rcases hk : v.kind? cfg with _ | (_ | _ | kind | _)
  · simp [step_of_forbidden hk]
  · rw [step_of_sequenceValue hk, Treatment.ofSequenceValue]
    cases SequenceValue.read? v.line <;> rfl
  · simp [step_of_createIndex hk]
  · simp [step_of_statement hk]
  · simp [step_of_unrecognized hk]

/-- Whether lines are withheld after a step. A sequence value has its say in it also while a
statement is open. -/
theorem suppressed_step :
    (v.step cfg).state.suppressed =
      match v.kind? cfg with
      | some (.statement kind) => (v.treatment cfg kind).suppressed
      | some .sequenceValue =>
        match SequenceValue.read? v.line with
        | none => v.before.suppressed
        | some (table, _) => cfg.skips table
      | some .createIndex => (Treatment.ofCreateIndex cfg v.line).suppressed
      | _ => v.before.suppressed := by
  rcases hk : v.kind? cfg with _ | (_ | _ | kind | _)
  · simp [step_of_forbidden hk, State.advanced]
  · rw [step_of_sequenceValue hk, Treatment.ofSequenceValue]
    cases SequenceValue.read? v.line <;> rfl
  · simp [step_of_createIndex hk]
  · simp [step_of_statement hk]
  · simp [step_of_unrecognized hk, State.advanced]

/-- The schema for which the step declares a database. -/
def declared? : Option Text :=
  if v.kind? cfg = some (.statement .createTable) then v.before.newSchema? v.line else none

/-- The change that the step defers. -/
def deferred? : Option DeferredChange :=
  if v.kind? cfg = some (.statement .alterTable) then cfg.deferral? v.line else none

theorem schemas_step :
    (v.step cfg).state.schemas = v.before.schemas ++ (v.declared? cfg).toList := by
  unfold declared?
  rcases hk : v.kind? cfg with _ | (_ | _ | kind | _)
  · simp [step_of_forbidden hk, State.advanced]
  · rw [step_of_sequenceValue hk]
    split
    · simp [State.advanced]
    · next t ht =>
      obtain ⟨table, value, -, rfl⟩ := Treatment.ofSequenceValue_eq_ok ht
      simp only [State.schemas_afterSingle]
      split <;> simp [State.advanced, Event.schema?]
  · simp [step_of_createIndex hk, Treatment.schemas_ofCreateIndex, State.advanced]
  · simp only [step_of_statement hk, State.schemas_afterStatement, treatment,
      Treatment.schemas_ofStatement, Option.some.injEq, LineKind.statement.injEq]
    split <;> rfl
  · simp [step_of_unrecognized hk, State.advanced]

theorem deferred_step :
    (v.step cfg).state.deferred = v.before.deferred ++ (v.deferred? cfg).toList := by
  unfold deferred?
  rcases hk : v.kind? cfg with _ | (_ | _ | kind | _)
  · simp [step_of_forbidden hk, State.advanced]
  · rw [step_of_sequenceValue hk]
    split
    · simp [State.advanced]
    · next t ht =>
      obtain ⟨table, value, -, rfl⟩ := Treatment.ofSequenceValue_eq_ok ht
      simp only [State.deferred_afterSingle]
      split <;> simp [State.advanced, Event.change?]
  · simp [step_of_createIndex hk, Treatment.changes_ofCreateIndex, State.advanced]
  · simp only [step_of_statement hk, State.deferred_afterStatement, treatment,
      Treatment.changes_ofStatement, Option.some.injEq, LineKind.statement.injEq]
    split <;> simp [State.advanced]
  · simp [step_of_unrecognized hk, State.advanced]

variable {cfg v} in
/-- What is written in front of a line of a statement is the declaration that the step makes. -/
theorem preamble_treatment {kind : Statement} (hk : v.kind? cfg = some (.statement kind)) :
    (v.treatment cfg kind).preamble = (v.declared? cfg).toList.flatMap databaseDeclaration := by
  simp only [treatment, Treatment.preamble_ofStatement, declared?, hk, Option.some.injEq,
    LineKind.statement.injEq]
  split <;> rfl

/-- A step writes the declaration of a database, if it makes one, and after it one line at most. -/
theorem output_step :
    ∃ own : List Text, own.length ≤ 1 ∧
      (v.step cfg).output = (v.declared? cfg).toList.flatMap databaseDeclaration ++ own := by
  have single (t : Treatment) : (if t.suppressed then [] else [t.line]).length ≤ 1 := by
    split <;> simp
  rcases hk : v.kind? cfg with _ | (_ | _ | kind | _)
  · exact ⟨[], by simp, by simp [step_of_forbidden hk, Step.output, declared?, hk]⟩
  · have hdeclared : v.declared? cfg = none := by simp [declared?, hk]
    rw [step_of_sequenceValue hk, hdeclared]
    split
    · exact ⟨[], by simp, rfl⟩
    · next t ht =>
      obtain ⟨table, value, -, rfl⟩ := Treatment.ofSequenceValue_eq_ok ht
      exact ⟨_, single _, rfl⟩
  · refine ⟨_, single (Treatment.ofCreateIndex cfg v.line), ?_⟩
    simp [step_of_createIndex hk, Step.output, Treatment.output, Treatment.preamble_ofCreateIndex,
      declared?, hk]
  · refine ⟨_, single (v.treatment cfg kind), ?_⟩
    simp only [step_of_statement hk, Step.output, Treatment.output, preamble_treatment hk]
  · exact ⟨[], by simp, by simp [step_of_unrecognized hk, Step.output, declared?, hk]⟩

end Visit

/-! ## Runs -/

@[simp] theorem stateAfter_nil (st : State) : stateAfter st [] = st := rfl

@[simp] theorem stateAfter_cons (st : State) (s : Step) (steps : List Step) :
    stateAfter st (s :: steps) = stateAfter s.state steps := by
  cases steps <;> simp [stateAfter, List.getLast?_cons]

theorem stateAfter_append (st : State) (steps more : List Step) :
    stateAfter st (steps ++ more) = stateAfter (stateAfter st steps) more := by
  induction steps generalizing st with
  | nil => rfl
  | cons s steps ih => rw [List.cons_append, stateAfter_cons, stateAfter_cons, ih]

/-- After steps that went well an error is one of the steps that follow. -/
theorem errorOf_append {steps : List Step} (h : errorOf steps = none) (more : List Step) :
    errorOf (steps ++ more) = errorOf more := by
  rw [errorOf, List.getLast?_append]
  cases hmore : more.getLast? with
  | none => rw [Option.none_or, ← errorOf, h, errorOf, hmore, Option.bind_none]
  | some s => rw [Option.some_or, errorOf, hmore]

/-- In a dump the line behind a line is the one that is read next. -/
theorem isChain_withLookahead (dump : List Text) :
    List.IsChain (fun p q => q.1 = p.2) (withLookahead dump) := by
  rw [withLookahead]
  generalize dump.map Text.withoutLineEnd = bare
  induction bare with
  | nil => exact .nil
  | cons line rest ih =>
    cases rest with
    | nil => exact .singleton _
    | cons next rest =>
      cases rest with
      | nil => exact .cons_cons rfl ih
      | cons third rest => exact .cons_cons rfl ih

variable [Quoting]

/-- The visits of a run from a state on. A step that fails is made by the last one. -/
def visits (cfg : Config) : State → List (Text × Text) → List Visit
  | _, [] => []
  | st, (line, next) :: rest =>
    let v : Visit := ⟨st, line, next⟩
    v :: match (v.step cfg).result with
      | .ok _ => visits cfg (v.step cfg).state rest
      | .error _ => []

variable {cfg : Config}

/-- The steps of a run are the steps of its visits. -/
theorem map_step_visits (st : State) (lines : List (Text × Text)) :
    (visits cfg st lines).map (Visit.step cfg) = run cfg st lines := by
  induction lines generalizing st with
  | nil => rfl
  | cons pair rest ih =>
    obtain ⟨line, next⟩ := pair
    rw [run_cons, visits]
    simp only [Visit.step, List.map_cons]
    cases (step cfg st line next).result with
    | ok _ => simp only [ih]
    | error _ => rfl

/-- The run goes on after a step that does not fail. -/
theorem visits_cons (cfg : Config) (st : State) (line next : Text) (rest : List (Text × Text)) :
    visits cfg st ((line, next) :: rest) =
      ⟨st, line, next⟩ ::
        if (step cfg st line next).error? = none then
          visits cfg (step cfg st line next).state rest
        else [] := by
  rw [visits, Step.error?]
  simp only [Visit.step]
  cases (step cfg st line next).result <;> simp

theorem run_cons_eq_ite (cfg : Config) (st : State) (line next : Text) (rest : List (Text × Text)) :
    run cfg st ((line, next) :: rest) =
      step cfg st line next ::
        if (step cfg st line next).error? = none then
          run cfg (step cfg st line next).state rest
        else [] := by
  rw [run_cons, Step.error?]
  cases (step cfg st line next).result <;> simp

/-- A run goes well if each of its steps does. -/
theorem errorOf_run_eq_none_iff {st : State} {lines : List (Text × Text)} :
    errorOf (run cfg st lines) = none ↔ ∀ v ∈ visits cfg st lines, (v.step cfg).error? = none := by
  induction lines generalizing st with
  | nil => simp [errorOf, visits]
  | cons pair rest ih =>
    obtain ⟨line, next⟩ := pair
    rw [run_cons, visits, List.forall_mem_cons]
    simp only [Visit.step]
    cases hr : (step cfg st line next).result with
    | ok _ =>
      have hfirst : (step cfg st line next).error? = none := by rw [Step.error?, hr]
      have hone : errorOf [step cfg st line next] = none := hfirst
      rw [← List.singleton_append, errorOf_append hone, ih]
      exact (and_iff_right hfirst).symm
    | error e => simp [errorOf, Step.error?, hr]

/-- A run that goes well goes on with the lines that are added. -/
theorem run_append {st : State} {lines : List (Text × Text)}
    (h : errorOf (run cfg st lines) = none) (more : List (Text × Text)) :
    run cfg st (lines ++ more) =
      run cfg st lines ++ run cfg (stateAfter st (run cfg st lines)) more := by
  induction lines generalizing st with
  | nil => rfl
  | cons pair rest ih =>
    obtain ⟨line, next⟩ := pair
    rw [run_cons] at h
    rw [List.cons_append, run_cons, run_cons, List.cons_append, stateAfter_cons]
    cases hr : (step cfg st line next).result with
    | ok _ =>
      have hfirst : errorOf [step cfg st line next] = none := by
        simp [errorOf, Step.error?, hr]
      rw [hr, ← List.singleton_append, errorOf_append hfirst] at h
      rw [ih h]
    | error e =>
      rw [hr] at h
      simp [errorOf, Step.error?, hr] at h

/-- A run counts the lines that it comes to. -/
theorem lineNumber_stateAfter (st : State) (lines : List (Text × Text)) :
    (stateAfter st (run cfg st lines)).lineNumber =
      st.lineNumber + (run cfg st lines).length := by
  induction lines generalizing st with
  | nil => rfl
  | cons pair rest ih =>
    obtain ⟨line, next⟩ := pair
    have hnumber : (step cfg st line next).state.lineNumber = st.lineNumber + 1 :=
      Visit.lineNumber_step cfg ⟨st, line, next⟩
    rw [run_cons_eq_ite, stateAfter_cons, List.length_cons]
    split
    · rw [ih, hnumber]
      omega
    · rw [stateAfter_nil, hnumber, List.length_nil, Nat.zero_add]

/-- A run that goes well comes to all lines. -/
theorem length_run {st : State} {lines : List (Text × Text)}
    (h : errorOf (run cfg st lines) = none) : (run cfg st lines).length = lines.length := by
  induction lines generalizing st with
  | nil => rfl
  | cons pair rest ih =>
    obtain ⟨line, next⟩ := pair
    rw [errorOf_run_eq_none_iff, visits_cons, List.forall_mem_cons] at h
    obtain ⟨hfirst, hrest⟩ := h
    have hfine : (step cfg st line next).error? = none := hfirst
    rw [if_pos hfine, ← errorOf_run_eq_none_iff] at hrest
    rw [run_cons_eq_ite, if_pos hfine, List.length_cons, List.length_cons, ih hrest]

/-- The invariant may speak of visits made before the run, so that it passes from one line to the
next. -/
private theorem history_invariant_onto {Inv : List Visit → State → Prop}
    (hstep : ∀ past v, Inv past v.before → Inv (past ++ [v]) (v.step cfg).state)
    (lines : List (Text × Text)) {st : State} (earlier : List Visit) (h : Inv earlier st) :
    (∀ past v future, visits cfg st lines = past ++ v :: future → Inv (earlier ++ past) v.before) ∧
      Inv (earlier ++ visits cfg st lines) (stateAfter st (run cfg st lines)) := by
  -- The visits made so far grow by one with each line, so the statement is made for any of them.
  induction lines generalizing st earlier with
  | nil => exact ⟨fun past v future hv => by simp [visits] at hv, by simpa [visits] using h⟩
  | cons pair rest ih =>
    obtain ⟨line, next⟩ := pair
    have hnext := hstep earlier ⟨st, line, next⟩ h
    rw [run_cons, stateAfter_cons]
    simp only [visits, Visit.step] at hnext ⊢
    cases (step cfg st line next).result with
    | ok _ =>
      obtain ⟨hmid, hend⟩ := ih _ hnext
      refine ⟨fun past v future hv => ?_, by simpa using hend⟩
      rcases past with _ | ⟨u, past⟩
      · cases hv
        simpa using h
      · rw [List.cons_append, List.cons.injEq] at hv
        obtain ⟨rfl, hv⟩ := hv
        simpa using hmid past v future hv
    | error _ =>
      refine ⟨fun past v future hv => ?_, by simpa using hnext⟩
      rcases past with _ | ⟨u, past⟩
      · cases hv
        simpa using h
      · simp at hv

/-- A property of the history of a run and its state that holds at first and that every step keeps
holds at every visit and at the end. -/
theorem history_invariant {Inv : List Visit → State → Prop}
    (hstep : ∀ past v, Inv past v.before → Inv (past ++ [v]) (v.step cfg).state)
    {st : State} (h : Inv [] st) (lines : List (Text × Text)) :
    (∀ past v future, visits cfg st lines = past ++ v :: future → Inv past v.before) ∧
      Inv (visits cfg st lines) (stateAfter st (run cfg st lines)) := by
  simpa using history_invariant_onto hstep lines [] h

/-- The lines of the visits are lines of the dump. -/
theorem mem_of_mem_visits {st : State} {lines : List (Text × Text)} {v : Visit}
    (h : v ∈ visits cfg st lines) : (v.line, v.next) ∈ lines := by
  induction lines generalizing st with
  | nil => cases h
  | cons pair rest ih =>
    rw [visits] at h
    rcases List.mem_cons.mp h with rfl | h
    · exact List.mem_cons_self
    · split at h
      · exact List.mem_cons_of_mem _ (ih h)
      · cases h

/-- The visit comes right after the other one: in the state that the other one left, and at the line
that stood behind the other one's. -/
def Visit.Follows (cfg : Config) (u v : Visit) : Prop :=
  v.before = (u.step cfg).state ∧ v.line = u.next

/-- The visits of a dump come one right after the other. -/
theorem isChain_visits (cfg : Config) (st : State) (dump : List Text) :
    List.IsChain (Visit.Follows cfg) (visits cfg st (withLookahead dump)) := by
  have hlines := isChain_withLookahead dump
  generalize withLookahead dump = lines at hlines
  induction lines generalizing st with
  | nil => exact .nil
  | cons pair rest ih =>
    obtain ⟨line, next⟩ := pair
    rw [visits_cons]
    split
    · cases rest with
      | nil => exact .singleton _
      | cons second rest =>
        obtain ⟨hnext, hrest⟩ := List.isChain_cons_cons.mp hlines
        have hvisits := ih (step cfg st line next).state hrest
        rw [visits_cons] at hvisits ⊢
        exact .cons_cons ⟨rfl, hnext⟩ hvisits
    · exact .singleton _

/-- Two runs over the same lines go step by step together if every step does and fails in both or
in neither. What is asked of the lines is asked of the visits of the first run. -/
theorem run_together {cfg' : Config} {R : State → State → Prop} {S : Step → Step → Prop}
    {P : Visit → Prop}
    (hstep : ∀ v st', P v → R v.before st' → S (v.step cfg) (step cfg' st' v.line v.next))
    (hnext : ∀ s s', S s s' → s'.error?.isSome = s.error?.isSome ∧ R s.state s'.state)
    {st st' : State} (h : R st st') (lines : List (Text × Text))
    (hP : ∀ v ∈ visits cfg st lines, P v) :
    List.Forall₂ S (run cfg st lines) (run cfg' st' lines) := by
  induction lines generalizing st st' with
  | nil => exact .nil
  | cons pair rest ih =>
    obtain ⟨line, next⟩ := pair
    have hfirst := hstep ⟨st, line, next⟩ st' (hP _ (by simp [visits])) h
    obtain ⟨herror, hstate⟩ := hnext _ _ hfirst
    simp only [visits, Visit.step] at hfirst herror hstate hP
    rw [run_cons, run_cons]
    refine .cons hfirst ?_
    -- One of the two steps failing alone is excluded by `hnext`.
    cases hr : (step cfg st line next).result with
    | ok _ =>
      cases hr' : (step cfg' st' line next).result with
      | ok _ => exact ih hstate fun v hv => hP v (by simp [hr, hv])
      | error _ => simp [Step.error?, hr, hr'] at herror
    | error _ =>
      cases hr' : (step cfg' st' line next).result with
      | ok _ => simp [Step.error?, hr, hr'] at herror
      | error _ => exact .nil

/-- Two runs over the same lines go in lockstep if every step does and fails in the same way in
both. -/
theorem run_lockstep {cfg' : Config} {R : State → State → Prop} {S : Step → Step → Prop}
    {P : Visit → Prop}
    (hstep : ∀ v st', P v → R v.before st' → S (v.step cfg) (step cfg' st' v.line v.next))
    (hnext : ∀ s s', S s s' → s'.error? = s.error? ∧ R s.state s'.state)
    {st st' : State} (h : R st st') (lines : List (Text × Text))
    (hP : ∀ v ∈ visits cfg st lines, P v) :
    List.Forall₂ S (run cfg st lines) (run cfg' st' lines) :=
  run_together hstep (fun s s' hs => ⟨congrArg Option.isSome (hnext s s' hs).1, (hnext s s' hs).2⟩)
    h lines hP

end DumpDialect
