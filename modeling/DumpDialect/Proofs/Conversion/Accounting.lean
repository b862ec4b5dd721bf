import DumpDialect.Proofs.Conversion.History

/-!
# The counts add up

A line is counted for what it is taken for, and what happens while it is handled is told and counted
by its events. So the counts at the end of a conversion, which a user reads as its summary, agree
with the warnings that were told and with the lines that were read.

- `Event.isWarning_eq`: which counters count the warnings.
- `Visit.get_tally_step`: what a step adds to a counter.
- `get_tally_of_history`: the counters, as functions of the history.
- `countP_unrecognized_of_history`, `length_eq_sum_countP`, `countP_refused_visits`: the lines of a
  history, by what they are taken for.
- `diagnostics_add_up`: every point of a run.
-/

namespace DumpDialect

variable {cfg : Config}

/-! ## Warnings -/

/-- Whether the event is told as a warning. -/
def Event.isWarning [Quoting] (e : Event) : Bool := e.message.level = .warning

/-- A warning is counted, and so is nothing else that happens. -/
theorem Event.isWarning_eq [Quoting] (e : Event) :
    e.isWarning = (decide (e.counter? = some .suppressed) ||
      decide (e.counter? = some .unrecognized)) := by
  cases e <;> rfl

theorem countP_isWarning [Quoting] (events : List Event) :
    events.countP Event.isWarning =
      (events.countP fun e => e.counter? = some .suppressed) +
        events.countP fun e => e.counter? = some .unrecognized := by
  induction events with
  | nil => rfl
  | cons e events ih =>
    rw [List.countP_cons, List.countP_cons, List.countP_cons, ih, Event.isWarning_eq]
    cases e <;> simp [Event.counter?] <;> omega

/-- Events count what is suppressed and what is unrecognized only. -/
theorem countP_counter?_eq_zero {c : Counter} (hs : c ≠ .suppressed) (hu : c ≠ .unrecognized)
    (events : List Event) : (events.countP fun e => e.counter? = some c) = 0 := by
  refine List.countP_eq_zero.mpr fun e _ => ?_
  cases e <;> simp [Event.counter?, hs.symm, hu.symm]

/-- A line of a statement is not told of as unrecognized. -/
theorem Treatment.counter?_ofStatement [Quoting] {st : State} {kind : Statement} {line next : Text}
    {e : Event} (he : e ∈ (ofStatement cfg st kind line next).events) :
    e.counter? ≠ some .unrecognized := by
  -- An excluded table is counted as suppressed, by every kind of statement that names it.
  have hskip {table? : Option Text} (h : e ∈ table?.toList.flatMap cfg.skipEvents) :
      e.counter? ≠ some .unrecognized := by
    obtain ⟨table, -, h⟩ := List.mem_flatMap.mp h
    rw [Config.skipEvents] at h
    split at h
    · obtain rfl := List.mem_singleton.mp h
      simp [Event.counter?]
    · cases h
  cases kind with
  | createTable =>
    rcases List.mem_append.mp he with h | h
    · obtain ⟨schema, -, rfl⟩ := List.mem_map.mp h
      simp [Event.counter?]
    · exact hskip h
  | alterTable =>
    simp only [ofStatement, ofAlterTable_eq] at he
    split at he
    · obtain rfl := List.mem_singleton.mp he
      simp [Event.counter?]
    · rcases List.mem_append.mp he with h | h
      · rcases List.mem_append.mp h with h | h
        · exact hskip h
        · obtain ⟨target, -, rfl⟩ := List.mem_map.mp h
          simp [Event.counter?]
      · obtain ⟨change, -, rfl⟩ := List.mem_map.mp h
        simp [Event.counter?]
  | insert =>
    simp only [ofStatement, ofInsert_eq] at he
    rcases List.mem_append.mp he with h | h
    · exact hskip h
    · split at h
      · obtain rfl := List.mem_singleton.mp h
        simp [Event.counter?]
      · cases h
  | block =>
    simp only [ofStatement, ofBlock] at he
    split at he
    · cases he
    · obtain rfl := List.mem_singleton.mp he
      simp [Event.counter?]

/-! ## One step -/

theorem State.get_tally_afterStatement (st : State) (kind : Statement) (t : Treatment)
    (c : Counter) :
    (st.afterStatement kind t).tally.get c =
      st.tally.get c + (if st.context ≠ some kind ∧ Counter.statement kind = c then 1 else 0) +
        t.events.countP fun e => e.counter? = some c := by
  simp only [afterStatement, get_tally_recordAll]
  split
  · next hopen => simp [hopen]
  · next hopen => simp [hopen]

theorem State.get_tally_afterSingle (st : State) (t : Treatment) (c : Counter) :
    (st.afterSingle t).tally.get c =
      st.tally.get c + t.events.countP fun e => e.counter? = some c :=
  get_tally_recordAll st t.events c

namespace Visit

/-- The counter that counts the line for what it is taken for: a line of a statement only if it
opens the statement. An unrecognized line is counted by its event. -/
def counter? (cfg : Config) (v : Visit) : Option Counter :=
  match v.kind? cfg with
  | some .sequenceValue => some .sequenceValue
  | some .createIndex => some .createIndex
  | some (.statement kind) =>
    if v.before.context = some kind then none else some (.statement kind)
  | some .unrecognized | none => none

/-- Whether the line is handled as a line of a statement that can stretch over several. -/
def isOfStatement (cfg : Config) (v : Visit) : Bool :=
  match v.kind? cfg with
  | some (.statement _) => true
  | _ => false

variable {v : Visit}

theorem counter?_eq_statement_iff {kind : Statement} :
    v.counter? cfg = some (.statement kind) ↔
      v.kind? cfg = some (.statement kind) ∧ v.before.context ≠ some kind := by
  rw [counter?]
  rcases v.kind? cfg with _ | (_ | _ | other | _) <;>
    simp only [reduceCtorEq, false_and, Option.some.injEq, LineKind.statement.injEq]
  split
  · next hopen =>
    simp only [reduceCtorEq, false_iff, not_and, not_not]
    rintro rfl
    exact hopen
  · next hopen =>
    simp only [Option.some.injEq, Counter.statement.injEq]
    constructor
    · rintro rfl
      exact ⟨rfl, hopen⟩
    · exact And.left

/-- What is told by events only is not counted for a line. -/
theorem counter?_ne : v.counter? cfg ≠ some .suppressed ∧ v.counter? cfg ≠ some .unrecognized := by
  rw [counter?]
  rcases v.kind? cfg with _ | (_ | _ | kind | _) <;> simp only [ne_eq, reduceCtorEq,
    not_false_eq_true, Option.some.injEq, and_self]
  split <;> simp

variable (cfg v)

/-- A line is taken for one thing. -/
theorem sum_kinds :
    (if v.kind? cfg = some .unrecognized then 1 else 0) +
      (if v.counter? cfg = some .sequenceValue then 1 else 0) +
      (if v.counter? cfg = some .createIndex then 1 else 0) +
      (if v.isOfStatement cfg = true then 1 else 0) +
      (if v.kind? cfg = none then 1 else 0) = 1 := by
  rw [counter?, isOfStatement]
  rcases v.kind? cfg with _ | (_ | _ | kind | _) <;> simp only [reduceCtorEq, ↓reduceIte,
    Option.some.injEq, Bool.false_eq_true]
  split <;> rfl

/-- What a step adds to a counter: one for its line, and what its events add. -/
theorem get_tally_step [Quoting] (c : Counter) :
    (v.step cfg).state.tally.get c =
      v.before.tally.get c + (if v.counter? cfg = some c then 1 else 0) +
        (v.step cfg).events.countP fun e => e.counter? = some c := by
  have hread (number : Nat) (line : Text) (events : List Event) :
      (Event.lineRead number line :: events).countP (fun e => decide (e.counter? = some c)) =
        events.countP fun e => decide (e.counter? = some c) :=
    List.countP_cons_of_neg (by simp [Event.counter?])
  have hadvanced : v.before.advanced.tally = v.before.tally := rfl
  rw [counter?]
  rcases hk : v.kind? cfg with _ | (_ | _ | kind | _)
  · simp [step_of_forbidden hk, hread, hadvanced]
  · rw [step_of_sequenceValue hk]
    split
    · simp [hread, hadvanced]
    · simp only [hread, State.get_tally_afterSingle, State.tally_count, Tally.get_bump, hadvanced,
        Option.some.injEq]
  · simp only [step_of_createIndex hk, hread, State.get_tally_afterSingle, State.tally_count,
      Tally.get_bump, hadvanced, Option.some.injEq]
  · -- Only the first line of a statement counts, which the context tells.
    simp only [step_of_statement hk, hread, State.get_tally_afterStatement, hadvanced]
    have hcontext : v.before.advanced.context = v.before.context := rfl
    rw [hcontext]
    split <;> simp_all
  · simp only [step_of_unrecognized hk, hread, State.tally_count, Tally.get_bump, hadvanced]
    simp [Event.counter?]

/-- A step tells of an unrecognized line if its line is one. -/
theorem countP_unrecognized_step [Quoting] :
    ((v.step cfg).events.countP fun e => e.counter? = some .unrecognized) =
      if v.kind? cfg = some .unrecognized then 1 else 0 := by
  rcases hk : v.kind? cfg with _ | (_ | _ | kind | _)
  · simp [step_of_forbidden hk, Event.counter?]
  · rw [step_of_sequenceValue hk]
    split
    · simp [Event.counter?]
    · next t ht =>
      obtain ⟨table, value, -, rfl⟩ := Treatment.ofSequenceValue_eq_ok ht
      simp only
      split <;> simp [Event.counter?]
  · rw [step_of_createIndex hk, Treatment.ofCreateIndex]
    simp only
    split <;> simp [Event.counter?]
  · rw [step_of_statement hk, List.countP_cons_of_neg (by simp [Event.counter?]),
      List.countP_eq_zero.mpr, if_neg (by simp)]
    intro e he
    simpa using Treatment.counter?_ofStatement he
  · simp [step_of_unrecognized hk, Event.counter?]

end Visit

/-! ## Histories -/

/-- The counters at the end of a run, as functions of its history. -/
theorem get_tally_of_history [Quoting] (cfg : Config) (lines : List (Text × Text)) (c : Counter) :
    (stateAfter {} (run cfg {} lines)).tally.get c =
      ((visits cfg {} lines).countP fun v => v.counter? cfg = some c) +
        ((run cfg {} lines).flatMap Step.events).countP fun e => e.counter? = some c := by
  let Counted (history : List Visit) (st : State) : Prop :=
    st.tally.get c = (history.countP fun v => v.counter? cfg = some c) +
      (history.flatMap fun v => (v.step cfg).events).countP fun e => e.counter? = some c
  have hstep : ∀ past v, Counted past v.before → Counted (past ++ [v]) (v.step cfg).state := by
    intro past v hbefore
    show (v.step cfg).state.tally.get c = _
    rw [v.get_tally_step, hbefore, List.countP_append, List.flatMap_append, List.countP_append]
    simp only [List.countP_singleton, List.flatMap_singleton, decide_eq_true_eq]
    omega
  have hstart : Counted [] {} := by
    show Tally.get {} c = 0
    rcases c with _ | _ | _ | _ | (_ | _ | _ | _) <;> rfl
  have hend : Counted (visits cfg {} lines) (stateAfter {} (run cfg {} lines)) :=
    (history_invariant hstep hstart lines).2
  rw [hend, ← map_step_visits, List.flatMap_map]

/-- The unrecognized lines of a history are told of, each once. -/
theorem countP_unrecognized_of_history [Quoting] (history : List Visit) :
    (((history.map (Visit.step cfg)).flatMap Step.events).countP
        fun e => e.counter? = some .unrecognized) =
      history.countP fun v => v.kind? cfg = some .unrecognized := by
  induction history with
  | nil => rfl
  | cons v history ih =>
    rw [List.map_cons, List.flatMap_cons, List.countP_append, ih, v.countP_unrecognized_step,
      List.countP_cons, Nat.add_comm]
    simp only [decide_eq_true_eq]

/-- The lines of a history, by what they are taken for. -/
theorem length_eq_sum_countP (history : List Visit) :
    history.length =
      (history.countP fun v => v.kind? cfg = some .unrecognized) +
        (history.countP fun v => v.counter? cfg = some .sequenceValue) +
        (history.countP fun v => v.counter? cfg = some .createIndex) +
        history.countP (Visit.isOfStatement cfg) +
        history.countP fun v => v.kind? cfg = none := by
  induction history with
  | nil => rfl
  | cons v history ih =>
    have hv := v.sum_kinds cfg
    simp only [List.length_cons, List.countP_cons, decide_eq_true_eq]
    omega

/-- A line that may not stand in the dump is the last of its run. -/
theorem countP_refused_visits [Quoting] (st : State) (lines : List (Text × Text)) :
    ((visits cfg st lines).countP fun v => v.kind? cfg = none) =
      if (errorOf (run cfg st lines)).map ConversionError.fault = some .typeDeclaration then 1
      else 0 := by
  induction lines generalizing st with
  | nil => rfl
  | cons pair rest ih =>
    obtain ⟨line, next⟩ := pair
    let v : Visit := ⟨st, line, next⟩
    have hresult := v.result_step cfg
    have hrun : run cfg st ((line, next) :: rest) = [v.step cfg] ++
        if (v.step cfg).error? = none then run cfg (v.step cfg).state rest else [] :=
      run_cons_eq_ite cfg st line next rest
    have hvisits : visits cfg st ((line, next) :: rest) =
        v :: if (v.step cfg).error? = none then visits cfg (v.step cfg).state rest else [] :=
      visits_cons cfg st line next rest
    rw [hvisits, hrun, List.countP_cons]
    -- A run goes on behind a step without error, and such a step did not refuse its line.
    cases herror : (v.step cfg).error? with
    | none =>
      have hallowed : v.kind? cfg ≠ none := by
        intro hk
        simp [Step.error?, hresult, hk] at herror
      have hone : errorOf [v.step cfg] = none := herror
      rw [if_pos rfl, if_pos rfl, errorOf_append hone, ih]
      simp [hallowed]
    | some e =>
      have hlast : errorOf [v.step cfg] = some e := herror
      -- A line may fail for the value of a sequence too, which is another fault.
      have hfault : v.kind? cfg = none ↔ e.fault = .typeDeclaration := by
        rw [Step.error?_eq_some_iff, hresult] at herror
        rcases hk : v.kind? cfg with _ | (_ | _ | kind | _) <;> rw [hk] at herror
        · cases herror
          simp
        · cases hread : SequenceValue.read? v.line with
          | none =>
            simp only [hread, Except.error.injEq] at herror
            subst herror
            simp
          | some read => simp [hread] at herror
        all_goals cases herror
      simp [hlast, hfault]

/-- The first visits of a run are the visits of a run over the first lines. -/
theorem take_visits [Quoting] (st : State) (lines : List (Text × Text)) (n : Nat) :
    (visits cfg st lines).take n = visits cfg st (lines.take n) := by
  induction n generalizing st lines with
  | zero => rfl
  | succ n ih =>
    cases lines with
    | nil => rfl
    | cons pair rest =>
      obtain ⟨line, next⟩ := pair
      rw [List.take_succ_cons, visits_cons, visits_cons, List.take_succ_cons]
      split
      · rw [ih]
      · rw [List.take_nil]

/-- **The counts add up.** After any number of steps of a run, also if the last one failed: there
were as many warnings as lines and statements are counted as suppressed and unrecognized; the lines
read are the unrecognized ones, those of sequence values and of indexes, those of statements that
can stretch over several lines, and one that declares a type where that is an error; and of each of
these statements as many are counted as lines were taken for it where it was not open. -/
theorem diagnostics_add_up [Quoting] (cfg : Config) (lines : List (Text × Text)) (n : Nat) :
    let past := (visits cfg {} lines).take n
    let steps := past.map (Visit.step cfg)
    let st := stateAfter {} steps
    (steps.flatMap Step.events).countP Event.isWarning =
        st.tally.suppressed + st.tally.unrecognized ∧
      st.lineNumber =
        st.tally.unrecognized + st.tally.sequenceValue + st.tally.createIndex +
          past.countP (Visit.isOfStatement cfg) +
          (if (errorOf steps).map ConversionError.fault = some .typeDeclaration then 1 else 0) ∧
      ∀ kind : Statement, st.tally.get (.statement kind) =
        past.countP fun v =>
          v.kind? cfg = some (.statement kind) ∧ v.before.context ≠ some kind := by
  intro past steps st
  have hpast : past = visits cfg {} (lines.take n) := take_visits {} lines n
  have hsteps : steps = run cfg {} (lines.take n) := by
    rw [← map_step_visits, ← hpast]
  -- The first `n` steps of a run are the run over the first `n` lines.
  have htally (c : Counter) : st.tally.get c =
      (past.countP fun v => v.counter? cfg = some c) +
        (steps.flatMap Step.events).countP fun e => e.counter? = some c := by
    simp only [st, hpast, hsteps, get_tally_of_history]
  -- Lines and events share no counter: each is one sum or the other.
  have hlines {c : Counter} (hs : c ≠ .suppressed) (hu : c ≠ .unrecognized) :
      st.tally.get c = past.countP fun v => v.counter? cfg = some c := by
    rw [htally, countP_counter?_eq_zero hs hu, Nat.add_zero]
  have hevents {c : Counter} (hc : c = .suppressed ∨ c = .unrecognized) :
      st.tally.get c = (steps.flatMap Step.events).countP fun e => e.counter? = some c := by
    rw [htally, List.countP_eq_zero.mpr, Nat.zero_add]
    intro v _
    rcases hc with rfl | rfl
    · simpa using v.counter?_ne.1
    · simpa using v.counter?_ne.2
  have hsuppressed : st.tally.suppressed = _ := hevents (.inl rfl)
  have hunrecognized : st.tally.unrecognized = _ := hevents (.inr rfl)
  refine ⟨?_, ?_, fun kind => ?_⟩
  · rw [countP_isWarning, hsuppressed, hunrecognized]
  · have hnumber : st.lineNumber = past.length := by
      rw [← List.length_map (f := Visit.step cfg)]
      simp only [st, hsteps, lineNumber_stateAfter, Nat.zero_add]
      rw [← hsteps]
    have hvalues : st.tally.sequenceValue = _ := hlines (c := .sequenceValue) (by simp) (by simp)
    have hindexes : st.tally.createIndex = _ := hlines (c := .createIndex) (by simp) (by simp)
    rw [hnumber, length_eq_sum_countP, hunrecognized, countP_unrecognized_of_history, hvalues,
      hindexes, hsteps, ← countP_refused_visits, ← hpast]
  · rw [hlines (by simp) (by simp)]
    simp only [Visit.counter?_eq_statement_iff]

end DumpDialect
